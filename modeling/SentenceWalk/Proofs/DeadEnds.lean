import Mathlib.Logic.Relation
import SentenceWalk.Lint
import SentenceWalk.Proofs.GrammarWalk

namespace SentenceWalk

open Relation (ReflTransGen)

def Part.IsInner (part : Part) : Prop :=
  part.role ≠ .start ∧ part.role ≠ .finish

/-- Whether successors lead from the start to a code. -/
def Grammar.Comes (grammar : Grammar) : String → Prop :=
  ReflTransGen (fun code successor => successor ∈ grammar.successors code) grammar.start

def WalkError.OfSuccessors (code : String) : WalkError → Prop
  | grammar _ => True
  | noSuccessor other | partRetries other _ | weightOverflow other => other = code
  | _ => False

def WalkError.OfWords (code : String) : WalkError → Prop
  | grammar _ => True
  | poolExhausted other | exhaustedRetries other _ => other = code
  | _ => False

theorem Grammar.part_of_successor {grammar : Grammar} {code successor : String}
    (h : successor ∈ grammar.successors code) :
    ∃ part, grammar.parts[successor]? = some part := by
  cases hp : grammar.parts[code]? with
  | none =>
    rw [successors, hp] at h
    cases h
  | some part => exact successor_defined hp (successors_eq hp ▸ h)

theorem Grammar.Comes.part {grammar : Grammar} {code : String} (h : grammar.Comes code) :
    ∃ part, grammar.parts[code]? = some part := by
  induction h with
  | refl =>
    obtain ⟨part, hp, _⟩ := grammar.part_start
    exact ⟨part, hp⟩
  | tail _ hs _ => exact part_of_successor hs

namespace Language

variable {language : Language} {code : String} {part : Part}

theorem wordsOf_eq (h : language.grammar.parts[code]? = some part) :
    language.wordsOf code = .ok (language.lexicon.withTags part.vocabulary) := by
  rw [wordsOf, Grammar.part_eq h]
  rfl

theorem partErrors_eq_nil_iff : language.partErrors code part = [] ↔
    (part.IsInner →
      language.lexicon.withTags part.vocabulary ≠ [] ∧ part.successors ≠ []) := by
  rw [partErrors]
  by_cases hinner : part.IsInner
  · obtain ⟨hstart, hfinish⟩ := hinner
    rw [if_neg (by simp [hstart, hfinish])]
    simp [Part.IsInner, hstart, hfinish]
  · have hskipped : (part.role == .start || part.role == .finish) = true := by
      rw [Bool.or_eq_true, beq_iff_eq, beq_iff_eq]
      rw [Part.IsInner, ← not_or, Classical.not_not] at hinner
      exact hinner
    rw [if_pos hskipped]
    simp [hinner]

theorem lintErrors_eq_nil_iff : language.lintErrors = [] ↔
    ∀ (code : String) (part : Part), language.grammar.parts[code]? = some part → part.IsInner →
      language.lexicon.withTags part.vocabulary ≠ [] ∧ part.successors ≠ [] := by
  rw [lintErrors, List.flatMap_eq_nil_iff]
  simp only [Prod.forall, Std.ExtTreeMap.mem_toList_iff_getElem?_eq_some, partErrors_eq_nil_iff]

end Language

namespace Rules

variable {rules : Rules} {cursor : Cursor} {history : History} {stream : RandomStream}
variable {target : String} {role : Role} {pool : List Entry} {pending : Pending} {used : UsedWords}
variable {error : WalkError}

theorem drawPart_error (h : (rules.drawPart cursor history stream).1 = .error error) :
    error.OfSuccessors cursor.code := by
  rw [drawPart] at h
  split at h
  · cases h
    trivial
  · split at h
    · cases h
      rfl
    · cases h
      rfl
    · split at h
      · cases h
        trivial
      · cases h

theorem choosePartWithin_error {draws : Nat}
    (h : (rules.choosePartWithin cursor history draws stream).1 = .error error) :
    error.OfSuccessors cursor.code := by
  induction draws generalizing stream with
  | zero =>
    cases h
    rfl
  | succ draws ih =>
    rw [choosePartWithin] at h
    split at h
    · cases h
    · exact ih h
    · rename_i hdraw
      cases h
      exact drawPart_error (congrArg Prod.fst hdraw)

theorem pick_error (h : (rules.pick target role pool history pending stream).1 = .error error) :
    error.OfWords target := by
  rcases rules.pick_cases target role pool history pending stream with
    ⟨_, he⟩ | ⟨_, he, _⟩ | ⟨entry, _, hok, _⟩
  · rw [he] at h
    cases h
    rfl
  · cases h.symm.trans he
    rfl
  · cases h.symm.trans hok

theorem nextWord_failed
    (h : (rules.nextWord cursor target pending history used stream).1 = .error error) :
    error.OfWords target ∧
      ∀ part, rules.language.grammar.parts[target]? = some part → part.role ≠ .finish := by
  constructor
  · rw [nextWord] at h
    split at h
    · cases h
      trivial
    · split at h
      · cases h
      · dsimp only at h
        generalize hpick : rules.pick _ _ _ _ _ _ = picked at h
        rcases picked with ⟨failure | entry, rest⟩
        · cases h
          exact pick_error (congrArg Prod.fst hpick)
        · cases h
  · intro part hp hr
    rw [nextWord_terminal hp hr] at h
    cases h

end Rules

/-! A language whose sentences can begin anew behind the verb, at a part without words. -/

namespace Sample

def refrainLanguage : Language where
  grammar := {
    parts := .ofList [
      ("S", (⟨.start, ["IV"], [1], ∅⟩ : Part)),
      ("IV", ⟨.verb, ["AGAIN"], [1], .ofList ["IV"]⟩),
      ("AGAIN", ⟨.start, ["IV", "END"], [1, 1], ∅⟩),
      ("END", ⟨.finish, [], [], ∅⟩)]
    sound := Option.isNone_iff_eq_none.1 (by decide +kernel) }
  hierarchy := {}
  lexicon := { words := [{ name := "sing", tag := "IV" }] }

end Sample

namespace Session

variable {rules : Rules} {past : List Placement} {session next : Session}
variable {stream rest : RandomStream} {answer : Except WalkError Step} {code : String}

theorem Walks.role_ne_finish (h : Walks rules past session) {part : Part}
    (hp : rules.language.grammar.parts[session.cursor.code]? = some part) :
    part.role ≠ .finish := by
  rcases List.mem_append.1 (List.mem_of_mem_head? h.head) with hmem | hmem
  · rw [List.mem_reverse, List.mem_map] at hmem
    obtain ⟨placement, hplaced, hcursor⟩ := hmem
    obtain ⟨offered, hoffered, hrole, _⟩ := h.offered placement hplaced
    rw [← hcursor, Placement.cursor, hoffered] at hp
    cases hp
    exact hrole
  · rw [List.mem_singleton.1 hmem] at hp
    obtain ⟨start, hstart, hrole⟩ := rules.language.grammar.part_start
    cases hp.symm.trans hstart
    rw [hrole]
    decide

theorem Walks.role_of_stuck (h : Walks rules past session)
    (ht : Transition rules session stream answer next rest)
    (hstuck : answer = .error (.noSuccessor code) ∨ answer = .error (.poolExhausted code))
    {part : Part} (hp : rules.language.grammar.parts[code]? = some part) :
    part.role ≠ .finish := by
  cases ht with
  | ended => rcases hstuck with he | he <;> cases he
  | tooLong => rcases hstuck with he | he <;> cases he
  | unknown ho hs => exact absurd hs (h.observe_ne_error _)
  | partless ho hs hc =>
    have herror := Rules.choosePartWithin_error (congrArg Prod.fst hc)
    rcases hstuck with he | he
    · cases he
      obtain rfl : code = _ := herror
      exact (h.observe hs).role_ne_finish hp
    · cases he
      cases herror
  | wordless ho hs hc hw =>
    obtain ⟨herror, hrole⟩ := Rules.nextWord_failed (congrArg Prod.fst hw)
    rcases hstuck with he | he
    · cases he
      cases herror
    · cases he
      obtain rfl : code = _ := herror
      exact hrole part hp
  | finishes => rcases hstuck with he | he <;> cases he
  | formless ho hs hc hw hf => exact absurd hf ((h.observe hs).render_ne_error hc _ _ _)
  | places => rcases hstuck with he | he <;> cases he

/-- In a language without errors every part to which the grammar leads has a successor, and each of
its successors has a word, parts at which sentences begin or end excepted. No sentence is given up
for lack of a successor or of a word at a part that has none, unless sentences begin there. -/
theorem no_dead_ends {language : Language} (hclean : language.lintErrors = []) :
    (∀ code, language.grammar.Comes code → ∃ part, language.grammar.parts[code]? = some part ∧
      (part.IsInner → part.successors ≠ [])) ∧
    (∀ code successor, language.grammar.Comes code →
      successor ∈ language.grammar.successors code →
      ∃ part words, language.grammar.parts[successor]? = some part ∧
        language.wordsOf successor = .ok words ∧ (part.IsInner → words ≠ [])) ∧
    ∀ (config : Config) (steps : Nat) (stream : RandomStream),
      ∀ item ∈ (ofStart language.grammar.start).trace ⟨language, config⟩ steps stream,
      ∀ code part, language.grammar.parts[code]? = some part → part.role ≠ .start →
        (item.1 = .error (.noSuccessor code) → part.successors ≠ []) ∧
        (item.1 = .error (.poolExhausted code) →
          ∃ words, language.wordsOf code = .ok words ∧ words ≠ []) := by
  rw [Language.lintErrors_eq_nil_iff] at hclean
  refine ⟨?_, ?_, ?_⟩
  · intro code hcomes
    obtain ⟨part, hp⟩ := hcomes.part
    exact ⟨part, hp, fun hinner => (hclean code part hp hinner).2⟩
  · intro code successor _ hs
    obtain ⟨part, hp⟩ := Grammar.part_of_successor hs
    exact ⟨part, _, hp, Language.wordsOf_eq hp, fun hinner => (hclean successor part hp hinner).1⟩
  · intro config steps stream item hmem code part hp hstart
    obtain ⟨earlier, later, htrace⟩ := List.append_of_mem hmem
    obtain ⟨reached, rest, hreached, rfl⟩ := Reached.start.trace htrace
    have ht := step_transition ⟨language, config⟩ reached rest
    constructor
    · intro he
      have hrole := hreached.walks.role_of_stuck ht (.inl he) hp
      exact (hclean code part hp ⟨hstart, hrole⟩).2
    · intro he
      have hrole := hreached.walks.role_of_stuck ht (.inr he) hp
      exact ⟨_, Language.wordsOf_eq hp, (hclean code part hp ⟨hstart, hrole⟩).1⟩

theorem no_dead_ends_phrase :
    Sample.rules.language.lintErrors = [] ∧ Sample.rules.language.grammar.Comes "P" ∧
      ∃ part, Sample.rules.language.grammar.parts["P"]? = some part ∧ part.successors ≠ [] := by
  have hclean : Sample.rules.language.lintErrors = [] := by decide +kernel
  have hcomes : Sample.rules.language.grammar.Comes "P" := .single (by decide +kernel)
  obtain ⟨part, hp, hsuccessors⟩ := (no_dead_ends hclean).1 "P" hcomes
  have hrole : part.role = .preposition := by
    cases hp
    rfl
  refine ⟨hclean, hcomes, part, hp, hsuccessors ⟨?_, ?_⟩⟩
  · rw [hrole]
    decide
  · rw [hrole]
    decide

/-- A part at which sentences begin needs no words, also where it follows another. The language has
no errors, yet its sentences are given up behind their first word. -/
theorem wordless_start_goes_unnoticed :
    let language := Sample.refrainLanguage
    language.lintErrors = [] ∧ language.grammar.Comes "IV" ∧
      "AGAIN" ∈ language.grammar.successors "IV" ∧ language.grammar.role "AGAIN" = .ok .start ∧
      language.wordsOf "AGAIN" = .ok [] ∧
      ((ofStart language.grammar.start).trace ⟨language, {}⟩ 2 (.ofSeed 0)).map
        (fun item => item.1.mapError WalkError.message) =
          [.ok (.word ⟨0, { name := "sing", tag := "IV" }⟩ "IV" "sing"),
            .error (WalkError.poolExhausted "AGAIN").message] := by
  intro language
  exact ⟨by decide +kernel, .single (by decide +kernel), by decide +kernel,
    eq_ok_of_toOption (by decide +kernel), eq_ok_of_toOption (by decide +kernel),
    by decide +kernel⟩

end Session

end SentenceWalk
