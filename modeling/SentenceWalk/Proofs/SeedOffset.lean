import SentenceWalk.Generator
import SentenceWalk.Proofs.Run

namespace SentenceWalk

/-- What can be asked of a generator. A session that is started may be abandoned. -/
inductive Request where
  | session
  | sentence
  | sentences (count : Nat)
  deriving DecidableEq, Repr

theorem ok_of_map_range {ε α : Type} {f : Nat → Except ε α} {count i : Nat} {items : List α}
    (h : (List.range count).map f = items.map .ok) (hi : i < count) : ∃ item, f i = .ok item := by
  have hmem : f i ∈ items.map .ok := h ▸ List.mem_map_of_mem (List.mem_range.2 hi)
  obtain ⟨item, _, hitem⟩ := List.mem_map.1 hmem
  exact ⟨item, hitem.symm⟩

namespace Generator

variable {generator : Generator} {error : WalkError} {sentences : List String}

/-- How many sentences are started when so many are asked for at once. -/
def attempts (generator : Generator) : Nat → Nat
  | 0 => 0
  | count + 1 =>
    match generator.generate with
    | (.error _, _) => 1
    | (.ok _, next) => next.attempts count + 1

def sessionsFor (generator : Generator) : Request → Nat
  | .session | .sentence => 1
  | .sentences count => generator.attempts count

def perform (generator : Generator) : Request → Generator
  | .session => generator.startSession.2
  | .sentence => generator.generate.2
  | .sentences count => (generator.generateMany count).2

def sessions (generator : Generator) : List Request → Nat
  | [] => 0
  | request :: requests =>
    generator.sessionsFor request + (generator.perform request).sessions requests

def skip (generator : Generator) (count : Nat) : Generator :=
  { generator with started := generator.started + .ofNat count }

/-- The sentence that comes behind so many further ones. -/
def sentenceAt (generator : Generator) (offset : Nat) : Except WalkError String :=
  (generator.skip offset).generate.1

theorem skip_zero (generator : Generator) : generator.skip 0 = generator := by
  have hsame : generator.started + .ofNat 0 = generator.started := UInt64.add_zero _
  rw [skip, hsame]

theorem skip_skip (generator : Generator) (m n : Nat) :
    (generator.skip m).skip n = generator.skip (m + n) := by
  rw [skip, skip, skip, UInt64.ofNat_add, UInt64.add_assoc]

theorem sentenceAt_skip (generator : Generator) (m n : Nat) :
    (generator.skip m).sentenceAt n = generator.sentenceAt (m + n) := by
  rw [sentenceAt, skip_skip, sentenceAt]

theorem generate_eq (generator : Generator) :
    generator.generate = (generator.sentenceAt 0, generator.skip 1) := by
  rw [sentenceAt, skip_zero]
  rfl

theorem generateMany_succ_cases (generator : Generator) (count : Nat) :
    (∃ error, generator.sentenceAt 0 = .error error ∧
      generator.generateMany (count + 1) = (.error error, generator.skip 1) ∧
      generator.attempts (count + 1) = 1) ∨
    ∃ sentence, generator.sentenceAt 0 = .ok sentence ∧
      generator.generateMany (count + 1) =
        (((generator.skip 1).generateMany count).1.map (sentence :: ·),
          ((generator.skip 1).generateMany count).2) ∧
      generator.attempts (count + 1) = (generator.skip 1).attempts count + 1 := by
  rw [generateMany, attempts, generate_eq]
  cases generator.sentenceAt 0 with
  | error error => exact .inl ⟨error, rfl, rfl, rfl⟩
  | ok sentence => exact .inr ⟨sentence, rfl, rfl, rfl⟩

theorem generateMany_next (generator : Generator) (count : Nat) :
    (generator.generateMany count).2 = generator.skip (generator.attempts count) := by
  induction count generalizing generator with
  | zero => exact (skip_zero generator).symm
  | succ count ih =>
    obtain ⟨error, _, hmany, hattempts⟩ | ⟨sentence, _, hmany, hattempts⟩ :=
      generator.generateMany_succ_cases count
    · rw [hmany, hattempts]
    · rw [hmany, hattempts, ih, skip_skip, Nat.add_comm]

theorem generateMany_cases (generator : Generator) (count : Nat) :
    (∃ sentences, (generator.generateMany count).1 = .ok sentences ∧
      (List.range count).map generator.sentenceAt = sentences.map .ok) ∨
    ∃ offset < count, ∃ error, (generator.generateMany count).1 = .error error ∧
      generator.sentenceAt offset = .error error ∧
      (∀ earlier < offset, ∃ sentence, generator.sentenceAt earlier = .ok sentence) ∧
      generator.attempts count = offset + 1 := by
  induction count generalizing generator with
  | zero => exact .inl ⟨[], rfl, rfl⟩
  | succ count ih =>
    obtain ⟨error, hfirst, hmany, hattempts⟩ | ⟨sentence, hfirst, hmany, hattempts⟩ :=
      generator.generateMany_succ_cases count
    · refine .inr ⟨0, Nat.succ_pos count, error, by rw [hmany], hfirst, ?_, hattempts⟩
      intro earlier hlt
      exact absurd hlt (Nat.not_lt_zero earlier)
    · have hlater (offset : Nat) :
          (generator.skip 1).sentenceAt offset = generator.sentenceAt (offset + 1) := by
        rw [sentenceAt_skip, Nat.add_comm]
      rw [hmany, hattempts]
      obtain ⟨rest, hrest, hsentences⟩ | ⟨offset, hlt, error, hrest, hfails, hbefore, hattempts⟩ :=
        ih (generator.skip 1)
      · refine .inl ⟨sentence :: rest, by rw [hrest]; rfl, ?_⟩
        rw [List.range_succ_eq_map, List.map_cons, List.map_map, List.map_cons, ← hsentences,
          hfirst]
        apply congrArg (List.cons _)
        apply List.map_congr_left
        intro offset _
        exact (hlater offset).symm
      · refine .inr ⟨offset + 1, Nat.succ_lt_succ hlt, error, by rw [hrest]; rfl, ?_, ?_,
          by rw [hattempts]⟩
        · rw [← hlater, hfails]
        · intro earlier hearlier
          cases earlier with
          | zero => exact ⟨sentence, hfirst⟩
          | succ earlier =>
            rw [← hlater]
            exact hbefore earlier (Nat.lt_of_succ_lt_succ hearlier)

theorem generateMany_ok_iff {count : Nat} : (generator.generateMany count).1 = .ok sentences ↔
    (List.range count).map generator.sentenceAt = sentences.map .ok := by
  obtain ⟨all, hall, hmap⟩ | ⟨offset, hlt, failure, hmany, hfails, _⟩ :=
    generator.generateMany_cases count
  · rw [hall, hmap, List.map_inj_right fun _ _ => Except.ok.inj, Except.ok.injEq]
  · rw [hmany]
    refine iff_of_false (by simp) ?_
    intro hmap
    obtain ⟨sentence, hsentence⟩ := ok_of_map_range hmap hlt
    cases hsentence.symm.trans hfails

theorem generateMany_error_iff {count : Nat} : (generator.generateMany count).1 = .error error ↔
    ∃ i < count, generator.sentenceAt i = .error error ∧
      (∀ j < i, ∃ sentence, generator.sentenceAt j = .ok sentence) ∧
      generator.attempts count = i + 1 := by
  obtain ⟨all, hall, hmap⟩ | ⟨offset, hlt, failure, hmany, hfails, hbefore, hattempts⟩ :=
    generator.generateMany_cases count
  · rw [hall]
    refine iff_of_false (by simp) ?_
    rintro ⟨i, hi, herror, _⟩
    obtain ⟨sentence, hsentence⟩ := ok_of_map_range hmap hi
    cases hsentence.symm.trans herror
  · rw [hmany]
    constructor
    · intro heq
      cases heq
      exact ⟨offset, hlt, hfails, hbefore, hattempts⟩
    · rintro ⟨i, _, herror, _, hcount⟩
      obtain rfl : i = offset := Nat.succ.inj (hcount.symm.trans hattempts)
      cases hfails.symm.trans herror
      rfl

theorem perform_eq_skip (generator : Generator) (request : Request) :
    generator.perform request = generator.skip (generator.sessionsFor request) := by
  cases request with
  | session => rfl
  | sentence => rfl
  | sentences count => exact generator.generateMany_next count

theorem foldl_perform (generator : Generator) (requests : List Request) :
    requests.foldl perform generator = generator.skip (generator.sessions requests) := by
  induction requests generalizing generator with
  | nil => exact (skip_zero generator).symm
  | cons request requests ih =>
    rw [List.foldl_cons, ih, sessions, perform_eq_skip, skip_skip]

def fresh (language : Language) (config : Config) (seed : UInt64) : Generator :=
  { language, config, seed }

theorem generate_fresh (language : Language) (config : Config) (seed : UInt64) :
    (fresh language config seed).generate.1 =
      ((Session.ofStart language.grammar.start).run ⟨language, config⟩ (.ofSeed seed)).1 := by
  have hseed : seed + 0 = seed := UInt64.add_zero seed
  rw [generate]
  dsimp only [startSession, fresh, rules]
  rw [hseed]

theorem sentenceAt_fresh (language : Language) (config : Config) (seed : UInt64) (offset : Nat) :
    (fresh language config seed).sentenceAt offset =
      (fresh language config (.ofNat (seed.toNat + offset))).generate.1 := by
  have hseed : seed + (0 + UInt64.ofNat offset) = UInt64.ofNat (seed.toNat + offset) := by
    rw [UInt64.ofNat_add, UInt64.ofNat_toNat, UInt64.zero_add]
  rw [generate_fresh, sentenceAt, generate]
  dsimp only [startSession, skip, fresh, rules]
  rw [hseed]

/-- Whatever has been asked of a generator, its next sentence is the first sentence of the seed
raised by the number of sentences that have been started, modulo the number of seeds. Several
sentences at once come about if and only if the first sentences of as many seeds do, one seed after
the other, and are these. Otherwise they fail as the first of these that fails, behind which none is
started. -/
theorem sentences_follow_from_seed (language : Language) (config : Config) (seed : UInt64)
    (requests : List Request) :
    let start := (fresh language config seed).sessions requests
    let generator := requests.foldl perform (fresh language config seed)
    let first (offset : Nat) := (fresh language config (.ofNat (seed.toNat + offset))).generate.1
    generator.generate.1 = first start ∧
    ∀ count,
      (∀ sentences, (generator.generateMany count).1 = .ok sentences ↔
        (List.range count).map (fun i => first (start + i)) = sentences.map .ok) ∧
      ∀ error, (generator.generateMany count).1 = .error error ↔
        ∃ i < count, first (start + i) = .error error ∧
          (∀ j < i, ∃ sentence, first (start + j) = .ok sentence) ∧
          generator.sessionsFor (.sentences count) = i + 1 ∧
          (generator.generateMany count).2 = generator.skip (i + 1) := by
  intro start generator first
  have hgenerator : generator = (fresh language config seed).skip start := foldl_perform _ _
  have hfirst (i : Nat) : generator.sentenceAt i = first (start + i) := by
    rw [hgenerator, sentenceAt_skip, sentenceAt_fresh]
  refine ⟨?_, ?_⟩
  · rw [generate_eq]
    exact hfirst 0
  intro count
  simp only [← hfirst, sessionsFor]
  refine ⟨fun _ => generateMany_ok_iff, ?_⟩
  intro error
  rw [generateMany_error_iff]
  constructor
  · rintro ⟨i, hi, herror, hearlier, hcount⟩
    exact ⟨i, hi, herror, hearlier, hcount, by rw [generateMany_next, hcount]⟩
  · rintro ⟨i, hi, herror, hearlier, hcount, _⟩
    exact ⟨i, hi, herror, hearlier, hcount⟩

theorem sentences_follow_from_seed_zero :
    ((fresh Sample.rules.language {} 0xffffffffffffffff).perform .session).generate.1 =
      .ok "into old town but" := by
  obtain ⟨hnext, _⟩ :=
    sentences_follow_from_seed Sample.rules.language {} 0xffffffffffffffff [.session]
  have hseed : UInt64.ofNat ((0xffffffffffffffff : UInt64).toNat + 1) = 0 := by decide
  have hstart : Sample.rules.language.grammar.start = "S" := by decide +kernel
  obtain ⟨last, rest, _, hrun⟩ := Session.run_phrase
  calc ((fresh Sample.rules.language {} 0xffffffffffffffff).perform .session).generate.1
      = (fresh Sample.rules.language {}
          (.ofNat ((0xffffffffffffffff : UInt64).toNat + 1))).generate.1 := hnext
    _ = ((Session.ofStart "S").run Sample.rules (.ofSeed 0)).1 := by
      rw [hseed, generate_fresh, hstart]
      rfl
    _ = .ok "into old town but" := by rw [hrun]

end Generator

end SentenceWalk
