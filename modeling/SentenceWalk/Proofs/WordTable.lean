import Mathlib.Data.List.Forall2
import SentenceWalk.Lexicon.Reading
import SentenceWalk.Proofs.LexiconIndex
import SentenceWalk.Proofs.TableLayout

namespace SentenceWalk

open Text Table

/-! ### Writing words -/

namespace Word

def IsEntry (text : String) : Prop :=
  text ≠ "" ∧ IsTrimmed text.toList

def IsItem (text : String) : Prop :=
  text ≠ "" ∧ ∀ c ∈ text.toList, isBlank c = false

instance (text : String) : Decidable (IsEntry text) :=
  inferInstanceAs (Decidable (_ ∧ _))

instance (text : String) : Decidable (IsItem text) :=
  @instDecidableAnd _ _ inferInstance (List.decidableBAll _ text.toList)

/-- Whether all that a word says can be told from the blanks of a table. -/
structure IsWritable (word : Word) : Prop where
  name : IsEntry word.name
  tag : IsEntry word.tag
  plural : ∀ plural ∈ word.plural, IsEntry plural
  categories : ∀ item ∈ word.categories, IsItem item
  nextWords : ∀ item ∈ word.nextWords, IsItem item
  nextCategories : ∀ item ∈ word.nextCategories, IsItem item
  flags : ∀ item ∈ word.flags, IsItem item

/-- Whether a field says what a word has for a column. -/
def Fills (word : Word) (column : String) (text : List Char) : Prop :=
  match column with
  | "name" => Padded word.name.toList text
  | "pos" => Padded word.tag.toList text
  | "spec" => Listed (word.categories.map String.toList) text
  | "plural" => Padded (word.plural.getD "").toList text
  | "nextwords" => Listed (word.nextWords.map String.toList) text
  | "nextcats" => Listed (word.nextCategories.map String.toList) text
  | "special" => Listed (word.flags.map String.toList) text
  | _ => False

/-- Whether a row says what a word has for the columns in their order. The columns at the end that
the word has nothing for can be left out. -/
def FillsRow (order : List String) (word : Word) (row : List (List Char)) : Prop :=
  ∃ kept dropped, order = kept ++ dropped ∧ List.Forall₂ word.Fills kept row ∧
    ∀ column ∈ dropped, word.Fills column []

end Word

namespace Lexicon

def Names (order : List String) (header : List (List Char)) : Prop :=
  List.Forall₂ (fun column field => Padded column.toList field) order header

/-- Whether a text is a table of words below a header that names the columns in their order. -/
def Written (order : List String) (words : List Word) (text : List Char) : Prop :=
  ∃ header rows, Names order header ∧ List.Forall₂ (Word.FillsRow order) words rows ∧
    Writes (header :: rows) text

variable {order : List String} {word : Word} {words : List Word} {column : String}
variable {row header : List (List Char)} {rows : List (List (List Char))} {text : List Char}

theorem names_self (order : List String) : Names order (order.map String.toList) := by
  rw [Names, List.forall₂_map_right_iff, List.forall₂_same]
  exact fun column _ => padded_self column.toList

theorem exists_fills (word : Word) (hc : column ∈ columns) : ∃ text, word.Fills column text := by
  have hitems (items : List String) : ∃ text, Listed (items.map String.toList) text := by
    obtain ⟨text, htext, _⟩ := exists_listed (items.map String.toList)
    exact ⟨text, htext⟩
  simp only [columns, List.mem_cons, List.not_mem_nil, or_false] at hc
  rcases hc with rfl | rfl | rfl | rfl | rfl | rfl | rfl
  · exact ⟨_, padded_self _⟩
  · exact ⟨_, padded_self _⟩
  · exact hitems word.categories
  · exact ⟨_, padded_self _⟩
  · exact hitems word.nextWords
  · exact hitems word.nextCategories
  · exact hitems word.flags

theorem exists_written (ho : order.Perm columns) (words : List Word) :
    ∃ text, Written order words text := by
  choose! texts htexts using fun word column => @exists_fills column word
  let rows := words.map fun word => order.map (texts word)
  have hrows : List.Forall₂ (Word.FillsRow order) words rows := by
    rw [List.forall₂_map_right_iff, List.forall₂_same]
    intro word _
    refine ⟨order, [], (List.append_nil order).symm, ?_, List.forall_mem_nil _⟩
    rw [List.forall₂_map_right_iff, List.forall₂_same]
    exact fun column hc => htexts word column (ho.mem_iff.1 hc)
  have hfilled : order ≠ [] := by
    rintro rfl
    exact absurd ho.symm.eq_nil (by decide)
  have hne : ∀ row ∈ order.map String.toList :: rows, row ≠ [] := by
    rw [List.forall_mem_cons]
    constructor
    · simpa using hfilled
    · intro row hrow
      obtain ⟨word, _, rfl⟩ := List.mem_map.1 hrow
      simpa using hfilled
  obtain ⟨text, htext⟩ := exists_lays hne
  exact ⟨text, order.map String.toList, rows, names_self order, hrows, .inl htext⟩

/-! ### Reading a row -/

theorem exists_field {kept dropped : List String} (hk : List.Forall₂ word.Fills kept row)
    (hd : ∀ column ∈ dropped, word.Fills column []) (hmem : column ∈ kept ++ dropped) :
    ∃ text, word.Fills column text ∧
      field (kept ++ dropped) (trimRow row) column = String.ofList (trim text) := by
  induction hk with
  | nil =>
    -- The row has ended, and nothing is read in the columns that are left.
    refine ⟨[], hd column hmem, ?_⟩
    rw [trimRow, List.map_nil, field, List.zip_nil_right]
    rfl
  | @cons first text kept row hfirst _ ih =>
    rw [field, trimRow, List.cons_append, List.map_cons, List.zip_cons_cons, List.lookup_cons]
    by_cases heq : column = first
    · subst heq
      exact ⟨text, hfirst, by rw [beq_self_eq_true]; rfl⟩
    · rw [beq_false_of_ne heq]
      apply ih
      rw [List.cons_append] at hmem
      exact List.mem_of_ne_of_mem heq hmem

theorem itemsOf_listed {items : List String} (h : Listed (items.map String.toList) text)
    (hi : ∀ item ∈ items, Word.IsItem item) : itemsOf (String.ofList (trim text)) = items := by
  have hitems : ∀ item ∈ items.map String.toList, item ≠ [] ∧ ∀ c ∈ item, isBlank c = false := by
    intro item hitem
    obtain ⟨name, hname, rfl⟩ := List.mem_map.1 hitem
    obtain ⟨hne, hblank⟩ := hi name hname
    exact ⟨fun hnil => hne (String.toList_eq_nil_iff.1 hnil), hblank⟩
  rw [itemsOf, String.toList_ofList, words_trim, h.words_eq hitems, List.map_map]
  simp

theorem plural_of_padded {plural : Option String} (h : Padded (plural.getD "").toList text)
    (hp : ∀ entry ∈ plural, Word.IsEntry entry) :
    (if (String.ofList (trim text)).isEmpty then none else some (String.ofList (trim text))) =
      plural := by
  cases plural with
  | none =>
    rw [ofList_trim (by decide) h]
    rfl
  | some entry =>
    obtain ⟨hne, htrimmed⟩ := hp entry rfl
    have hread : String.ofList (trim text) = entry := ofList_trim htrimmed h
    rw [hread]
    exact if_neg fun hempty => hne (String.isEmpty_iff.1 hempty)

theorem read_field (h : word.FillsRow order row) (hc : column ∈ order) (read : String → α)
    (hr : ∀ text, word.Fills column text → read (String.ofList (trim text)) = value) :
    read (field order (trimRow row) column) = value := by
  obtain ⟨kept, dropped, rfl, hk, hd⟩ := h
  obtain ⟨text, hfill, hfield⟩ := exists_field hk hd hc
  rw [hfield, hr text hfill]

theorem wordOfRow_of_fillsRow (ho : order.Perm columns) (hw : word.IsWritable)
    (h : word.FillsRow order row) : wordOfRow order (trimRow row) = word := by
  have hc {column : String} (hmem : column ∈ columns) : column ∈ order := ho.mem_iff.2 hmem
  have hname := read_field h (hc (by decide : "name" ∈ columns)) id
    fun _ hfill => ofList_trim hw.name.2 hfill
  have htag := read_field h (hc (by decide : "pos" ∈ columns)) id
    fun _ hfill => ofList_trim hw.tag.2 hfill
  have hplural := read_field h (hc (by decide : "plural" ∈ columns))
    (fun field => if field.isEmpty then none else some field)
    fun _ hfill => plural_of_padded hfill hw.plural
  have hcategories := read_field h (hc (by decide : "spec" ∈ columns)) itemsOf
    fun _ hfill => itemsOf_listed hfill hw.categories
  have hnextWords := read_field h (hc (by decide : "nextwords" ∈ columns)) itemsOf
    fun _ hfill => itemsOf_listed hfill hw.nextWords
  have hnextCategories := read_field h (hc (by decide : "nextcats" ∈ columns)) itemsOf
    fun _ hfill => itemsOf_listed hfill hw.nextCategories
  have hflags := read_field h (hc (by decide : "special" ∈ columns)) itemsOf
    fun _ hfill => itemsOf_listed hfill hw.flags
  simp only [id_eq] at hname htag
  rw [wordOfRow, hname, htag, hcategories, hplural, hnextWords, hnextCategories, hflags]

/-! ### Reading the table -/

theorem isHeader_of_perm (ho : order.Perm columns) : isHeader order = true := by
  have hcount : ∀ column, order.count column = columns.count column := fun _ => ho.count_eq _
  have hmem : ∀ column, order.contains column = columns.contains column := fun _ => ho.contains_eq
  simp only [isHeader, hmem, hcount]
  decide

theorem Names.trimRow_eq (h : Names order header) (ht : ∀ column ∈ order, IsTrimmed column.toList) :
    trimRow header = order := by
  induction h with
  | nil => rfl
  | @cons column field order header hfield _ ih =>
    have hrest := ih fun other hother => ht other (List.mem_cons_of_mem column hother)
    rw [trimRow, List.map_cons, ofList_trim (ht column List.mem_cons_self) hfield]
    exact congrArg _ hrest

theorem wordsOfRows_of_fillsRow (ho : order.Perm columns) (hw : ∀ word ∈ words, word.IsWritable)
    (h : List.Forall₂ (Word.FillsRow order) words rows) (number : Nat) :
    wordsOfRows order number (rows.map trimRow) = .ok words := by
  induction h generalizing number with
  | nil => rfl
  | @cons word row words rows hrow _ ih =>
    have hword := hw word List.mem_cons_self
    have hrest := ih (fun other hother => hw other (List.mem_cons_of_mem word hother)) (number + 1)
    have hfilled : (word.name.isEmpty || word.tag.isEmpty) = false := by
      simp [hword.name.1, hword.tag.1]
    rw [List.map_cons, wordsOfRows, wordOfRow_of_fillsRow ho hword hrow, isHeader_of_perm ho, hrest]
    simp only [hfilled]
    rfl

theorem Names.unmarked (h : Names order header)
    (hm : ∀ column ∈ order, column.toList.head? ≠ some encodingMark) :
    ∀ field ∈ header.head?, field.head? ≠ some encodingMark := by
  cases h with
  | nil => nofun
  | cons hfield =>
    rintro field ⟨⟩
    exact unmarked_of_padded hfield (hm _ List.mem_cons_self)

/-- Any text in which words are written gets the answer that the words get: a lexicon of them in
their order, or the first name and tag that an earlier word has as well. The order of the columns,
the padding of the fields and the columns left out at the ends of the rows make no difference. -/
theorem ofText_eq_ofWords (ho : order.Perm columns) (hw : ∀ word ∈ words, word.IsWritable)
    (ht : Written order words text) :
    ofText text = ofWords words ∧
      (((words.map Word.key).Nodup ∧ ∃ lexicon, ofText text = .ok lexicon ∧ lexicon.words = words) ∨
        ∃ before word after, words = before ++ word :: after ∧ (before.map Word.key).Nodup ∧
          word.key ∈ before.map Word.key ∧
          ofText text = .error (.duplicateWord word.name word.tag)) := by
  obtain ⟨header, rows, hheader, hrows, hwrites⟩ := ht
  have hnames : ∀ column ∈ columns, IsTrimmed column.toList ∧
      column.toList.head? ≠ some encodingMark := by decide
  have hread : ofText text = ofWords words := by
    have htable : Table.ofText text = { rows := (header :: rows).map trimRow } := by
      apply ofText_of_writes hwrites
      rintro row ⟨⟩
      exact hheader.unmarked fun column hc => (hnames column (ho.mem_iff.1 hc)).2
    have horder : trimRow header = order :=
      hheader.trimRow_eq fun column hc => (hnames column (ho.mem_iff.1 hc)).1
    rw [ofText, htable, ofTable, List.map_cons, List.headD_cons, horder, List.tail_cons,
      wordsOfRows_of_fillsRow ho hw hrows]
    rfl
  refine ⟨hread, ?_⟩
  rw [hread]
  obtain ⟨hd, lexicon, hok⟩ | hrepeated := ofWords_cases words
  · exact .inl ⟨hd, lexicon, hok, ofWords_ok hok⟩
  · exact .inr hrepeated

def Sample.apple : Word :=
  { name := "apple", tag := "N", categories := ["fruit", "food"], plural := some "apples" }

def Sample.sing : Word :=
  { name := "sing", tag := "IV" }

def Sample.tableOrder : List String :=
  ["pos", "name", "special", "spec", "plural", "nextwords", "nextcats"]

def Sample.appleRow : List (List Char) :=
  ["N".toList, " apple\t".toList, [], "fruit  food".toList, "apples".toList, " ".toList, []]

def Sample.singRow : List (List Char) :=
  ["IV".toList, "sing".toList]

def Sample.tableText : List Char :=
  ("pos;name;special;spec;plural;nextwords;nextcats\n" ++
    "N; apple\t;;fruit  food;apples; ;\nIV;sing\n").toList

theorem Sample.appleRow_filled : apple.FillsRow tableOrder appleRow := by
  have hitems : Listed ["fruit".toList, "food".toList]
      ([] ++ "fruit".toList ++ ("  ".toList ++ "food".toList ++ [])) :=
    .cons (by decide) (by rintro c ⟨⟩; decide) (.cons (by decide) nofun (.nil (by decide)))
  refine ⟨tableOrder, [], rfl, ?_, List.forall_mem_nil _⟩
  refine .cons (padded_self _) ?_
  refine .cons ⟨" ".toList, "\t".toList, by decide, by decide, by decide⟩ ?_
  refine .cons (.nil (by decide)) ?_
  refine .cons hitems ?_
  refine .cons (padded_self _) ?_
  refine .cons (.nil (by decide)) ?_
  refine .cons (.nil (by decide)) ?_
  exact .nil

theorem Sample.singRow_filled : sing.FillsRow tableOrder singRow := by
  have hnothing : Listed [] [] := .nil (by decide)
  refine ⟨["pos", "name"], _, rfl, ?_, by simp [sing, Word.Fills, hnothing, padded_self]⟩
  refine .cons (padded_self _) ?_
  refine .cons (padded_self _) ?_
  exact .nil

theorem Sample.tableText_written : Written tableOrder [apple, sing] tableText := by
  have hnames : SpellsRow (tableOrder.map String.toList)
      "pos;name;special;spec;plural;nextwords;nextcats".toList :=
    .cons (.plain (by decide)) (.cons (.plain (by decide)) (.cons (.plain (by decide))
      (.cons (.plain (by decide)) (.cons (.plain (by decide)) (.cons (.plain (by decide))
        (.last (.plain (by decide))))))))
  have happle : SpellsRow appleRow "N; apple\t;;fruit  food;apples; ;".toList :=
    .cons (.plain (by decide)) (.cons (.plain (by decide)) (.cons (.plain (by decide))
      (.cons (.plain (by decide)) (.cons (.plain (by decide)) (.cons (.plain (by decide))
        (.last (.plain (by decide))))))))
  have hsing : SpellsRow singRow "IV;sing".toList :=
    .cons (.plain (by decide)) (.last (.plain (by decide)))
  refine ⟨tableOrder.map String.toList, [appleRow, singRow], names_self tableOrder,
    .cons appleRow_filled (.cons singRow_filled .nil), .inl ?_⟩
  apply Lays.row hnames (by decide) (.inl rfl)
  apply Lays.row happle (by decide) (.inl rfl)
  apply Lays.row hsing (by decide) (.inl rfl)
  exact .nil

theorem ofText_eq_ofWords_apple :
    Sample.tableOrder.Perm columns ∧
      (∀ word ∈ [Sample.apple, Sample.sing], word.IsWritable) ∧
      Written Sample.tableOrder [Sample.apple, Sample.sing] Sample.tableText ∧
      ofText Sample.tableText = ofWords [Sample.apple, Sample.sing] ∧
      ∃ lexicon, ofText Sample.tableText = .ok lexicon ∧
        lexicon.words = [Sample.apple, Sample.sing] := by
  have ho : Sample.tableOrder.Perm columns := by decide
  have hw : ∀ word ∈ [Sample.apple, Sample.sing], word.IsWritable := by
    have happle : Sample.apple.IsWritable := by constructor <;> decide
    have hsing : Sample.sing.IsWritable := by constructor <;> decide
    simp [happle, hsing]
  have hd : ([Sample.apple, Sample.sing].map Word.key).Nodup := by decide
  refine ⟨ho, hw, Sample.tableText_written, ?_⟩
  obtain ⟨hread, ⟨_, hok⟩ | ⟨before, word, after, hsplit, _, hword, _⟩⟩ :=
    ofText_eq_ofWords ho hw Sample.tableText_written
  · exact ⟨hread, hok⟩
  · rw [hsplit] at hd
    exact absurd hd (Word.not_nodup_of_repeated hword)

end Lexicon

end SentenceWalk
