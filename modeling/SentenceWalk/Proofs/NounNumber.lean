import SentenceWalk.Proofs.Chronicle

namespace SentenceWalk

/-- The number that an article settles for the nouns behind it: whether it is the plural. -/
def Role.number? : Role → Option Bool
  | .pluralArticle => some true
  | .singularArticle => some false
  | _ => none

theorem Situation.plural_observe (situation : Situation) (role : Role) (name trigger : String) :
    (situation.observe role name trigger).plural = role.number?.getD situation.plural := by
  cases role <;> rfl

theorem Word.inflect_of_ne {word : Word} {role : Role} (hn : role ≠ .noun) (hv : role ≠ .verb)
    (situation : Situation) : word.inflect role situation = word.name := by
  cases role with
  | noun => exact absurd rfl hn
  | verb => exact absurd rfl hv
  | _ => rfl

def Cursor.number? (grammar : Grammar) (cursor : Cursor) : Option Bool :=
  (grammar.role cursor.code).toOption.bind Role.number?

theorem Cursor.number?_eq {grammar : Grammar} {cursor : Cursor} {role : Role}
    (h : grammar.role cursor.code = .ok role) : cursor.number? grammar = role.number? := by
  rw [number?, h]
  rfl

namespace Placement

def IsArticle (grammar : Grammar) (word : Placement) : Prop :=
  word.role? grammar = some .pluralArticle ∨ word.role? grammar = some .singularArticle

instance (grammar : Grammar) (word : Placement) : Decidable (word.IsArticle grammar) :=
  inferInstanceAs (Decidable (_ ∨ _))

def EndsPlural (grammar : Grammar) (words : List Placement) : Prop :=
  ∃ earlier article between, words = earlier ++ article :: between ∧
    article.role? grammar = some .pluralArticle ∧ ∀ word ∈ between, ¬ word.IsArticle grammar

variable {grammar : Grammar} {word : Placement} {words : List Placement}

theorem number?_cursor_eq_true_iff :
    word.cursor.number? grammar = some true ↔ word.role? grammar = some .pluralArticle := by
  change (word.role? grammar).bind Role.number? = some true ↔ _
  cases word.role? grammar with
  | none => simp
  | some role => cases role <;> simp [Role.number?]

theorem number?_cursor_eq_none_iff :
    word.cursor.number? grammar = none ↔ ¬ word.IsArticle grammar := by
  change (word.role? grammar).bind Role.number? = none ↔
    ¬ (word.role? grammar = _ ∨ word.role? grammar = _)
  cases word.role? grammar with
  | none => simp
  | some role => cases role <;> simp [Role.number?]

theorem endsPlural_iff :
    words.reverse.findSome? (fun word => word.cursor.number? grammar) = some true ↔
      EndsPlural grammar words := by
  simp only [List.findSome?_eq_some_iff, number?_cursor_eq_true_iff, number?_cursor_eq_none_iff]
  constructor
  · rintro ⟨between, article, earlier, hsplit, hplural, hbetween⟩
    refine ⟨earlier.reverse, article, between.reverse, ?_, hplural, ?_⟩
    · rw [List.reverse_eq_iff] at hsplit
      simp [hsplit]
    · intro word hmem
      exact hbetween word (List.mem_reverse.1 hmem)
  · rintro ⟨earlier, article, between, rfl, hplural, hbetween⟩
    refine ⟨between.reverse, article, earlier.reverse, by simp, hplural, ?_⟩
    intro word hmem
    exact hbetween word (List.mem_reverse.1 hmem)

end Placement

theorem Rules.form_of_render {rules : Rules} {entry : Entry} {code form : String} {role : Role}
    {situation : Situation} (h : rules.render entry code situation = .ok form)
    (hr : rules.language.grammar.role code = .ok role) :
    form = entry.word.inflect role situation := by
  rw [render, hr] at h
  exact (Except.ok.inj h).symm

/-! A language of one phrase, "many pears and men". -/

namespace Sample

def many : Entry := ⟨0, { name := "many", tag := "PART" }⟩

def pear : Entry := ⟨1, { name := "pear", tag := "N" }⟩

def plus : Entry := ⟨2, { name := "and", tag := "CONJ" }⟩

def man : Entry := ⟨3, { name := "man", tag := "MN", plural := some "men" }⟩

def crowdGrammar : Grammar where
  parts := .ofList [
    ("S", (⟨.start, ["PART"], [1], ∅⟩ : Part)),
    ("PART", ⟨.pluralArticle, ["N"], [1], .ofList ["PART"]⟩),
    ("N", ⟨.noun, ["CONJ"], [1], .ofList ["N"]⟩),
    ("CONJ", ⟨.conjunction, ["MN"], [1], .ofList ["CONJ"]⟩),
    ("MN", ⟨.noun, ["END"], [1], .ofList ["MN"]⟩),
    ("END", ⟨.finish, [], [], ∅⟩)]
  sound := Option.isNone_iff_eq_none.1 (by decide +kernel)

def crowd : Rules where
  language := {
    grammar := crowdGrammar
    hierarchy := {}
    lexicon := { words := [many.word, pear.word, plus.word, man.word] } }
  config := {}

end Sample

namespace Session

variable {rules : Rules} {past before after : List Placement} {session observed : Session}
variable {stream : RandomStream} {word : Placement} {seen : List Cursor}

theorem Chronicle.plural (h : Chronicle rules seen session) :
    session.situation.plural =
      (seen.findSome? (Cursor.number? rules.language.grammar)).getD false := by
  induction h with
  | blank hh hu hs =>
    rw [hs]
    rfl
  | first h ho ih =>
    rw [ho.situation, Situation.plural_observe, findSome?_cons_eq_or,
      Cursor.number?_eq ho.role_eq, Option.getD_or, ih]
  | again h ho ih =>
    rw [findSome?_cons_eq_or, Cursor.number?_eq ho.role_eq, Option.getD_or] at ih ⊢
    rw [ho.situation, Situation.plural_observe, ih]
    cases Role.number? _ <;> rfl
  | congr h hh hu hs ih => rw [hs, ih]

theorem findSome?_number?_cursors (rules : Rules) (past : List Placement) :
    (cursors rules past).findSome? (Cursor.number? rules.language.grammar) =
      past.reverse.findSome? fun word => word.cursor.number? rules.language.grammar := by
  obtain ⟨part, hp, hr⟩ := rules.language.grammar.part_start
  have hstart : Cursor.number? rules.language.grammar
      { code := rules.language.grammar.start } = none := by
    rw [Cursor.number?_eq (Grammar.role_eq hp), hr]
    rfl
  rw [cursors, List.findSome?_append, List.findSome?_singleton, hstart, Option.or_none,
    ← List.map_reverse, List.findSome?_map]
  rfl

theorem Chronicle.plural_iff (h : Chronicle rules (cursors rules before) observed) :
    observed.situation.plural = true ↔ Placement.EndsPlural rules.language.grammar before := by
  rw [h.plural, findSome?_number?_cursors, ← Placement.endsPlural_iff]
  cases List.findSome? _ _ with
  | none => simp
  | some number => simp

/-- Whatever fails on the way, each noun of a run has its plural form if the last article before it
is a plural article, and otherwise the name of its own entry in the lexicon, which is also the form
of each word that is neither a noun nor a verb. -/
theorem noun_agrees_with_article {steps : Nat}
    (hrun : (ofStart rules.language.grammar.start).placements rules steps stream =
      before ++ word :: after) :
    ∃ record, rules.language.lexicon.words[word.entry.id]? = some record ∧
      (word.role? rules.language.grammar = some .noun →
        (Placement.EndsPlural rules.language.grammar before → word.form = record.pluralForm) ∧
        (¬ Placement.EndsPlural rules.language.grammar before → word.form = record.name)) ∧
      (word.role? rules.language.grammar ≠ some .noun →
        word.role? rules.language.grammar ≠ some .verb → word.form = record.name) := by
  obtain ⟨reached, rest, hreached, hstep⟩ := Reached.start.placement hrun
  rw [List.nil_append] at hreached
  obtain ⟨observed, middle, pending, hs, hchoice, _, hform, _⟩ := step_placed hstep
  obtain ⟨_, ho⟩ := observe_ok hs
  have hnumber := (hreached.recorded.observe ho).plural_iff
  obtain ⟨last, hlast⟩ := Reached.start.placements steps stream
  rw [List.nil_append, hrun] at hlast
  obtain ⟨part, hp, _, hrecord, _⟩ :=
    hlast.walks.offered word (List.mem_append_right _ List.mem_cons_self)
  have hinflected := Rules.form_of_render hform (Grammar.role_eq hp)
  rw [Placement.role?_of_part hp]
  refine ⟨word.entry.word, hrecord, ?_, ?_⟩
  · intro hnoun
    rw [Option.some.inj hnoun, Word.inflect] at hinflected
    rw [← hnumber]
    constructor
    · intro hplural
      rw [hinflected, if_pos hplural]
    · intro hsingular
      rw [hinflected, if_neg hsingular]
  · intro hnoun hverb
    rw [hinflected, Word.inflect_of_ne (fun h => hnoun (h ▸ rfl)) (fun h => hverb (h ▸ rfl))]

theorem noun_agrees_with_article_men :
    (ofStart "S").placements Sample.crowd 5 (.ofSeed 0) =
      [⟨Sample.many, "PART", "many"⟩, ⟨Sample.pear, "N", "pears"⟩, ⟨Sample.plus, "CONJ", "and"⟩,
        ⟨Sample.man, "MN", "men"⟩] ∧
    Placement.EndsPlural Sample.crowdGrammar
      [⟨Sample.many, "PART", "many"⟩, ⟨Sample.pear, "N", "pears"⟩, ⟨Sample.plus, "CONJ", "and"⟩] ∧
    "men" = Sample.man.word.pluralForm := by
  have hrun : (ofStart Sample.crowd.language.grammar.start).placements Sample.crowd 5 (.ofSeed 0) =
      [⟨Sample.many, "PART", "many"⟩, ⟨Sample.pear, "N", "pears"⟩, ⟨Sample.plus, "CONJ", "and"⟩] ++
        ⟨Sample.man, "MN", "men"⟩ :: [] := by decide +kernel
  have hplural : Placement.EndsPlural Sample.crowdGrammar
      [⟨Sample.many, "PART", "many"⟩, ⟨Sample.pear, "N", "pears"⟩, ⟨Sample.plus, "CONJ", "and"⟩] :=
    ⟨[], _, _, rfl, by decide +kernel, by decide +kernel⟩
  obtain ⟨record, hrecord, hnoun, _⟩ := noun_agrees_with_article hrun
  cases hrecord
  exact ⟨hrun, hplural, (hnoun (by decide +kernel)).1 hplural⟩

end Session

end SentenceWalk
