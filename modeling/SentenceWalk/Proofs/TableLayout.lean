import SentenceWalk.Proofs.Blanks
import SentenceWalk.Table

/-!
How the rows of a table can be written as text, and that such a text is read as these rows. A field
is written as it is or in quotes, and between the rows there can be any number of line ends, since a
line without a character is no row. So a carriage return with a line feed behind it ends a line as
well as either of them does alone.
-/

namespace SentenceWalk.Table

/-- The character that may stand in front of a text to show its encoding. -/
def encodingMark : Char := '\ufeff'

def EndsLine (c : Char) : Prop :=
  c = '\n' ∨ c = '\r'

def EndsField (c : Char) : Prop :=
  c = ';' ∨ EndsLine c

instance (c : Char) : Decidable (EndsLine c) :=
  inferInstanceAs (Decidable (_ ∨ _))

instance (c : Char) : Decidable (EndsField c) :=
  inferInstanceAs (Decidable (_ ∨ _))

def IsPlain (text : List Char) : Prop :=
  (∀ c ∈ text, ¬ EndsField c) ∧ text.head? ≠ some '"'

instance (text : List Char) : Decidable (IsPlain text) :=
  @instDecidableAnd _ _ (List.decidableBAll _ text) inferInstance

def escape (text : List Char) : List Char :=
  text.flatMap fun c => if c = '"' then ['"', '"'] else [c]

/-- How a field can be written. Behind quotes it may go on as it stands. -/
inductive Spells : List Char → List Char → Prop where
  | plain (h : IsPlain field) : Spells field field
  | quoted {inner : List Char} (h : IsPlain more) :
      Spells (inner ++ more) ('"' :: (escape inner ++ '"' :: more))

/-- How a row can be written in a line, which has separators between the fields. -/
inductive SpellsRow : List (List Char) → List Char → Prop where
  | last (h : Spells field text) : SpellsRow [field] text
  | cons (h : Spells field text) (hrow : SpellsRow row line) :
      SpellsRow (field :: row) (text ++ ';' :: line)

/-- How rows can be written one below the other. The last line need not be ended. -/
inductive Lays : List (List (List Char)) → List Char → Prop where
  | nil : Lays [] []
  | lineEnd {rows : List (List (List Char))} (hc : EndsLine c) (h : Lays rows text) :
      Lays rows (c :: text)
  | last (hrow : SpellsRow row line) (hne : line ≠ []) : Lays [row] line
  | row {rows : List (List (List Char))} (hrow : SpellsRow row line) (hne : line ≠ [])
      (hc : EndsLine c) (h : Lays rows text) : Lays (row :: rows) (line ++ c :: text)

def trimRow (row : List (List Char)) : List String :=
  row.map fun field => String.ofList (Text.trim field)

variable {place : Place} {fields row : List (List Char)} {field text inner line rest : List Char}
variable {rows : List (List (List Char))} {c : Char}

/-! ### One character -/

theorem rowsFrom_letter (hp : place ≠ .quoted) (hc : ¬ EndsField c)
    (hq : c = '"' → place = .plain) :
    rowsFrom .ofChar place fields field (c :: rest) =
      rowsFrom .ofChar .plain fields (c :: field) rest := by
  rw [EndsField, EndsLine, not_or] at hc
  have hquote : ¬ (c = '"' ∧ place ≠ .plain) := fun h => h.2 (hq h.1)
  rw [rowsFrom, if_neg hp]
  exact (if_neg hc.2).trans ((if_neg hc.1).trans (if_neg hquote))

theorem rowsFrom_separator (hp : place ≠ .quoted) :
    rowsFrom .ofChar place fields field (';' :: rest) =
      rowsFrom .ofChar .fieldStart (field.reverse :: fields) [] rest := by
  rw [rowsFrom, if_neg hp]
  rfl

theorem rowsFrom_lineEnd (hp : place ≠ .quoted) (hc : EndsLine c) :
    rowsFrom .ofChar place fields field (c :: rest) =
      if place = .lineStart then rowsFrom .ofChar .lineStart [] [] rest
      else closeRow fields field :: rowsFrom .ofChar .lineStart [] [] rest := by
  rw [rowsFrom, if_neg hp]
  exact if_pos hc

theorem rowsFrom_opening (hp : place = .lineStart ∨ place = .fieldStart) :
    rowsFrom .ofChar place fields field ('"' :: rest) =
      rowsFrom .ofChar .quoted fields field rest := by
  rcases hp with rfl | rfl <;> rfl

theorem rowsFrom_inQuotes (hc : c ≠ '"') :
    rowsFrom .ofChar .quoted fields field (c :: rest) =
      rowsFrom .ofChar .quoted fields (c :: field) rest := by
  rw [rowsFrom, if_pos rfl]
  exact if_neg hc

theorem rowsFrom_doubled :
    rowsFrom .ofChar .quoted fields field ('"' :: '"' :: rest) =
      rowsFrom .ofChar .quoted fields ('"' :: field) rest :=
  rfl

/-! ### A field -/

theorem rowsFrom_plain (h : ∀ c ∈ text, ¬ EndsField c) :
    rowsFrom .ofChar .plain fields field (text ++ rest) =
      rowsFrom .ofChar .plain fields (text.reverse ++ field) rest := by
  induction text generalizing field with
  | nil => rfl
  | cons c text ih =>
    rw [List.cons_append, rowsFrom_letter (by decide) (h c List.mem_cons_self) fun _ => rfl,
      ih fun d hd => h d (List.mem_cons_of_mem c hd)]
    simp

theorem rowsFrom_isPlain (h : IsPlain text) (hp : place ≠ .quoted) :
    rowsFrom .ofChar place fields field (text ++ rest) =
      rowsFrom .ofChar (if text = [] then place else .plain) fields (text.reverse ++ field)
        rest := by
  cases text with
  | nil => rfl
  | cons c text =>
    obtain ⟨hmarks, hquote⟩ := h
    have hne : c ≠ '"' := fun heq => hquote (congrArg some heq)
    rw [List.cons_append,
      rowsFrom_letter hp (hmarks c List.mem_cons_self) fun heq => absurd heq hne,
      rowsFrom_plain fun d hd => hmarks d (List.mem_cons_of_mem c hd), if_neg (by simp)]
    simp

theorem rowsFrom_escape (inner : List Char) :
    rowsFrom .ofChar .quoted fields field (escape inner ++ '"' :: rest) =
      rowsFrom .ofChar .quote fields (inner.reverse ++ field) rest := by
  induction inner generalizing field with
  | nil => rfl
  | cons c inner ih =>
    rw [escape, List.flatMap_cons, ← escape, List.append_assoc]
    by_cases hc : c = '"'
    · subst hc
      rw [if_pos rfl, List.cons_append, List.singleton_append, rowsFrom_doubled, ih]
      simp
    · rw [if_neg hc, List.singleton_append, rowsFrom_inQuotes hc, ih]
      simp

/-- Behind a written field all of it has been read. Only if nothing is written at the start of a
line the line has not begun yet. -/
theorem rowsFrom_spells (h : Spells field text) (hp : place = .lineStart ∨ place = .fieldStart) :
    ∃ next, next ≠ .quoted ∧ (next = .lineStart → place = .lineStart ∧ text = []) ∧
      ∀ fields rest, rowsFrom .ofChar place fields [] (text ++ rest) =
        rowsFrom .ofChar next fields field.reverse rest := by
  cases h with
  | plain h =>
    refine ⟨if field = [] then place else .plain, ?_, ?_, ?_⟩
    · split
      · rcases hp with rfl | rfl <;> decide
      · decide
    · split
      · rename_i hnil
        exact fun hnext => ⟨hnext, hnil⟩
      · nofun
    · intro fields rest
      rw [rowsFrom_isPlain h (by rcases hp with rfl | rfl <;> decide), List.append_nil]
  | @quoted more inner h =>
    refine ⟨if more = [] then .quote else .plain, ?_, ?_, ?_⟩
    · split <;> decide
    · split <;> nofun
    · intro fields rest
      rw [List.cons_append, rowsFrom_opening hp, List.append_assoc, List.cons_append,
        rowsFrom_escape, rowsFrom_isPlain h (by decide), List.append_nil, List.reverse_append]

/-! ### Rows -/

theorem rowsFrom_spellsRow (h : SpellsRow row line) (fields : List (List Char))
    (hp : place = .lineStart ∨ place = .fieldStart) (hne : place = .lineStart → line ≠ []) :
    ∃ next before last, next ≠ .quoted ∧ next ≠ .lineStart ∧
      closeRow before last = fields.reverse ++ row ∧
      ∀ rest, rowsFrom .ofChar place fields [] (line ++ rest) =
        rowsFrom .ofChar next before last rest := by
  induction h generalizing place fields with
  | last h =>
    obtain ⟨next, hquoted, hstart, hread⟩ := rowsFrom_spells h hp
    refine ⟨next, fields, _, hquoted, ?_, ?_, hread fields⟩
    -- A line that has not begun would have a single field with nothing written.
    · intro hnext
      obtain ⟨hplace, hnil⟩ := hstart hnext
      exact hne hplace hnil
    · simp [closeRow]
  | @cons field text row line h _ ih =>
    obtain ⟨middle, hquoted, _, hfield⟩ := rowsFrom_spells h hp
    obtain ⟨next, before, last, hnext, hstart, hclose, hread⟩ :=
      ih (field :: fields) (.inr rfl) nofun
    refine ⟨next, before, last, hnext, hstart, ?_, ?_⟩
    · rw [hclose]
      simp
    · intro rest
      rw [List.append_assoc, hfield, List.cons_append, rowsFrom_separator hquoted,
        List.reverse_reverse, hread]

theorem exists_spellsRow (hne : row ≠ []) : ∃ line, SpellsRow row line ∧ line ≠ [] := by
  induction row with
  | nil => exact absurd rfl hne
  | cons field row ih =>
    have hfield := @Spells.quoted [] field (by decide)
    rw [List.append_nil] at hfield
    cases row with
    | nil => exact ⟨_, .last hfield, List.cons_ne_nil _ _⟩
    | cons next row =>
      obtain ⟨line, hrow, _⟩ := ih (List.cons_ne_nil next row)
      exact ⟨_, .cons hfield hrow, List.cons_ne_nil _ _⟩

theorem exists_lays (hne : ∀ row ∈ rows, row ≠ []) : ∃ text, Lays rows text := by
  induction rows with
  | nil => exact ⟨[], .nil⟩
  | cons row rows ih =>
    obtain ⟨line, hrow, hline⟩ := exists_spellsRow (hne row List.mem_cons_self)
    obtain ⟨text, htext⟩ := ih fun other hother => hne other (List.mem_cons_of_mem row hother)
    exact ⟨_, .row hrow hline (.inl rfl) htext⟩

theorem rawRows_of_lays (h : Lays rows text) : rawRows .ofChar text = rows := by
  rw [rawRows]
  induction h with
  | nil => rfl
  | lineEnd hc _ ih => rw [rowsFrom_lineEnd (by decide) hc, if_pos rfl, ih]
  | last hrow hne =>
    obtain ⟨next, before, last, _, hstart, hclose, hread⟩ :=
      rowsFrom_spellsRow hrow [] (.inl rfl) fun _ => hne
    have hend := hread []
    rw [List.append_nil, rowsFrom, if_neg hstart, hclose] at hend
    exact hend
  | row hrow hne hc _ ih =>
    obtain ⟨next, before, last, hquoted, hstart, hclose, hread⟩ :=
      rowsFrom_spellsRow hrow [] (.inl rfl) fun _ => hne
    rw [hread, rowsFrom_lineEnd hquoted hc, if_neg hstart, hclose, ih]
    rfl

/-! ### The text of a file -/

theorem unmarked_of_padded (h : Text.Padded inner text) (hm : inner.head? ≠ some encodingMark) :
    text.head? ≠ some encodingMark := by
  intro hmark
  obtain hblank | hhead := h.head?_cases hmark
  · exact absurd hblank (by decide)
  · exact hm hhead

theorem Spells.head?_cases (h : Spells field text) (hc : (text ++ rest).head? = some c) :
    c = '"' ∨ field.head? = some c ∨ rest.head? = some c := by
  cases h with
  | plain =>
    cases field with
    | nil => exact .inr (.inr hc)
    | cons => exact .inr (.inl hc)
  | quoted =>
    cases hc
    exact .inl rfl

theorem SpellsRow.head?_cases (h : SpellsRow row line) (hc : line.head? = some c) :
    c = '"' ∨ c = ';' ∨ ∃ field ∈ row.head?, field.head? = some c := by
  cases h with
  | @last field _ h =>
    rw [← List.append_nil line] at hc
    obtain hquote | hhead | hrest := h.head?_cases hc
    · exact .inl hquote
    · exact .inr (.inr ⟨field, rfl, hhead⟩)
    · cases hrest
  | @cons field _ _ _ h =>
    obtain hquote | hhead | hrest := h.head?_cases hc
    · exact .inl hquote
    · exact .inr (.inr ⟨field, rfl, hhead⟩)
    · cases hrest
      exact .inr (.inl rfl)

theorem Lays.head?_ne (h : Lays rows text)
    (hm : ∀ row ∈ rows.head?, ∀ field ∈ row.head?, field.head? ≠ some encodingMark) :
    text.head? ≠ some encodingMark := by
  have hline {row : List (List Char)} {line : List Char} (hrow : SpellsRow row line)
      (hm : ∀ field ∈ row.head?, field.head? ≠ some encodingMark) :
      line.head? ≠ some encodingMark := by
    intro hhead
    obtain hquote | hseparator | ⟨field, hfield, hmark⟩ := hrow.head?_cases hhead
    · exact absurd hquote (by decide)
    · exact absurd hseparator (by decide)
    · exact hm field hfield hmark
  cases h with
  | nil => nofun
  | lineEnd hc =>
    rintro ⟨⟩
    exact absurd hc (by decide)
  | last hrow => exact hline hrow (hm _ rfl)
  | row hrow hne =>
    have hhead := hline hrow (hm _ rfl)
    obtain ⟨first, others, rfl⟩ := List.exists_cons_of_ne_nil hne
    exact hhead

def Writes (rows : List (List (List Char))) (text : List Char) : Prop :=
  Lays rows text ∨ ∃ body, Lays rows body ∧ text = encodingMark :: body

/-- A file is read as the rows that are written in it, with all blanks around the fields removed. -/
theorem ofText_of_writes (h : Writes rows text)
    (hm : ∀ row ∈ rows.head?, ∀ field ∈ row.head?, field.head? ≠ some encodingMark) :
    ofText text = { rows := rows.map trimRow } := by
  have hbody : ∃ body, Lays rows body ∧ dropByteOrderMark text = body := by
    obtain h | ⟨body, h, rfl⟩ := h
    · refine ⟨text, h, ?_⟩
      rw [dropByteOrderMark.eq_def]
      split
      · exact absurd rfl (h.head?_ne hm)
      · rfl
    · exact ⟨body, h, rfl⟩
  obtain ⟨body, h, hdrop⟩ := hbody
  rw [ofText, hdrop, rawRows_of_lays h]
  rfl

end SentenceWalk.Table
