import SentenceWalk.Command.Generate
import SentenceWalk.Proofs.SeedOffset

namespace SentenceWalk.Command.Generate

variable {rules : Rules} {session last : Session} {stream rest : RandomStream}
variable {answer : Except WalkError String} {steps fuel : Nat}

/-! ### Reading actions -/

/-- How the sentences of some actions end, one after the other: with a text, or without one if they
fail. A screen with a prompt under it shows a sentence in the making and ends none. -/
def endings : List Action → List (Option String)
  | [] => []
  | .await :: rest => endings rest
  | .report _ :: rest => none :: endings rest
  | .write text :: .write first :: .write second :: .await :: rest =>
    if text = clearScreen then endings rest
    else some text :: endings (.write first :: .write second :: .await :: rest)
  | .write text :: rest => if text = clearScreen then endings rest else some text :: endings rest

theorem endings_word (text prompt : String) (rest : List Action) :
    endings (.write clearScreen :: .write text :: .write prompt :: .await :: rest) =
      endings rest := by
  rw [endings, if_pos rfl]

theorem endings_write {text : String} (h : text ≠ clearScreen) (rest : List Action) :
    endings (.write text :: rest) = some text :: endings rest := by
  generalize hactions : Action.write text :: rest = actions
  fun_cases endings actions <;> cases hactions
  · exact absurd rfl h
  · rfl
  · exact absurd rfl h
  · rfl

/-- A screen without a prompt ends a sentence. -/
theorem endings_final {text : String} (h : text ≠ clearScreen) {later : List Action}
    (hlater : ∀ prompt, later.head? ≠ some (.write prompt)) :
    endings (.write clearScreen :: .write text :: later) = some text :: endings later := by
  rw [endings, if_pos rfl, endings_write h]
  intro first prompt rest hnext
  cases hnext
  exact hlater prompt rfl

/-! ### One sentence -/

def finished (answer : Except WalkError String) : Option String :=
  answer.toOption.map fun text => Text.capitalize text ++ ".\n"

def failure? : Except WalkError String → Option WalkError
  | .ok _ => none
  | .error error => some error

theorem closed_ne_clearScreen (text : String) : text ++ ".\n" ≠ clearScreen := by
  intro h
  have hlast := congrArg (fun text => text.toList.getLast?) h
  simp [clearScreen] at hlast

/-- A sentence that is shown word by word fails if its run does, and the screens of its words end
nothing. -/
theorem revealWithin_of_runs (h : Session.Runs rules steps session stream answer last rest)
    (hsteps : steps ≤ fuel) :
    ∃ actions, revealWithin rules fuel session stream = (actions, failure? answer) ∧
      ∀ later : List Action, (∀ prompt, later.head? ≠ some (.write prompt)) →
        endings (actions ++ later) = ((finished answer).map some).toList ++ endings later := by
  -- A run has no bound of its own, so that any that leaves room for its steps will do.
  induction h generalizing fuel with
  | ends hs =>
    obtain ⟨fuel, rfl⟩ := Nat.exists_eq_add_of_le' hsteps
    refine ⟨_, by simp only [revealWithin, hs]; rfl, ?_⟩
    intro later hlater
    exact endings_final (closed_ne_clearScreen _) hlater
  | fails hs =>
    obtain ⟨fuel, rfl⟩ := Nat.exists_eq_add_of_le' hsteps
    exact ⟨[], by simp only [revealWithin, hs]; rfl, fun later _ => rfl⟩
  | goesOn hs _ ih =>
    obtain ⟨fuel, rfl⟩ := Nat.exists_eq_add_of_le' (Nat.le_trans (Nat.le_add_left 1 _) hsteps)
    obtain ⟨actions, hreveal, hendings⟩ := ih (Nat.le_of_succ_le_succ hsteps)
    refine ⟨_, by simp only [revealWithin, hs, hreveal]; rfl, ?_⟩
    intro later hlater
    exact (endings_word _ _ _).trans (hendings later hlater)

theorem reveal_spec (generator : Generator) :
    ∃ actions, reveal generator = ((actions, failure? (generator.sentenceAt 0)), generator.skip 1) ∧
      ∀ later : List Action, (∀ prompt, later.head? ≠ some (.write prompt)) →
        endings (actions ++ later) =
          ((finished (generator.sentenceAt 0)).map some).toList ++ endings later := by
  rw [Generator.sentenceAt, Generator.skip_zero]
  obtain ⟨steps, hsteps, answer, last, rest, hrun, hruns⟩ :=
    Session.run_runs generator.rules generator.startSession.1.1 generator.startSession.1.2
  have hanswer : generator.generate.1 = answer := congrArg Prod.fst hrun
  obtain ⟨actions, hreveal, hendings⟩ := revealWithin_of_runs hruns hsteps
  rw [hanswer]
  exact ⟨actions, congrArg (·, generator.skip 1) hreveal, hendings⟩

/-- In either way of writing, a sentence fails or not as it does in the generator, and ends once. -/
theorem sentence_spec (stepwise : Bool) (generator : Generator) (later : Nat) :
    ∃ actions, sentence stepwise generator later =
        ((actions, failure? (generator.sentenceAt 0)), generator.skip 1) ∧
      ∀ rest : List Action, (later = 0 → rest = []) →
        endings (actions ++ rest) = finished (generator.sentenceAt 0) :: endings rest := by
  cases stepwise with
  | false =>
    have hgenerate := generator.generate_eq
    cases hanswer : generator.sentenceAt 0 with
    | ok text =>
      rw [hanswer] at hgenerate
      refine ⟨_, by simp only [sentence, hgenerate]; rfl, ?_⟩
      intro rest _
      exact endings_write (closed_ne_clearScreen _) rest
    | error error =>
      rw [hanswer] at hgenerate
      exact ⟨_, by simp only [sentence, hgenerate]; rfl, fun rest _ => rfl⟩
  | true =>
    obtain ⟨actions, hreveal, hendings⟩ := reveal_spec generator
    cases hanswer : generator.sentenceAt 0 with
    | ok text =>
      rw [hanswer] at hreveal hendings
      refine ⟨_, by simp only [sentence, hreveal, failure?]; rfl, ?_⟩
      intro rest hrest
      rw [List.append_assoc]
      -- The reader is waited for behind every sentence but the last, behind which nothing follows.
      by_cases hlast : later = 0
      · rw [if_pos hlast, hrest hlast]
        exact hendings [] fun _ => by simp
      · rw [if_neg hlast]
        exact hendings (.await :: rest) fun _ => by simp
    | error error =>
      rw [hanswer] at hreveal hendings
      refine ⟨_, by simp only [sentence, hreveal, failure?]; rfl, ?_⟩
      intro rest _
      rw [List.append_assoc]
      exact hendings (sentence.failed error.message :: rest) fun _ => by simp [sentence.failed]

/-! ### Several sentences -/

def IsFatal (answer : Except WalkError String) : Prop :=
  ∃ error, answer = .error error ∧ error.isFatal = true

def IsFailed (answer : Except WalkError String) : Prop :=
  ∃ error, answer = .error error

theorem failure?_any_iff {answer : Except WalkError String} :
    (failure? answer).any WalkError.isFatal = true ↔ IsFatal answer := by
  cases answer <;> simp [failure?, IsFatal]

theorem failure?_isSome_iff {answer : Except WalkError String} :
    (failure? answer).isSome = true ↔ IsFailed answer := by
  cases answer <;> simp [failure?, IsFailed]

/-- What the first `count` sentences of a generator come to: how they end, up to the first that ends
the program, and the exit code. -/
inductive ComesTo (generator : Generator) (count : Nat) : List (Option String) → Nat → Prop where
  | all {code : Nat} (hfatal : ∀ i < count, ¬ IsFatal (generator.sentenceAt i)) (hle : code ≤ 1)
      (hcode : code = 1 ↔ ∃ i < count, IsFailed (generator.sentenceAt i)) :
      ComesTo generator count
        ((List.range count).map fun i => finished (generator.sentenceAt i)) code
  | upTo {i : Nat} (hi : i < count) (hfatal : IsFatal (generator.sentenceAt i))
      (hbefore : ∀ j < i, ¬ IsFatal (generator.sentenceAt j)) :
      ComesTo generator count
        ((List.range (i + 1)).map fun i => finished (generator.sentenceAt i)) Performance.fatalCode

theorem ComesTo.unique {generator : Generator} {count code code' : Nat}
    {ends ends' : List (Option String)} (h : ComesTo generator count ends code)
    (h' : ComesTo generator count ends' code') : ends = ends' ∧ code = code' := by
  cases h with
  | all hfatal hle hcode =>
    cases h' with
    | all _ hle' hcode' =>
      have hsame := hcode.trans hcode'.symm
      exact ⟨rfl, by omega⟩
    | upTo hi hfatal' _ => exact absurd hfatal' (hfatal _ hi)
  | @upTo i hi hfatal hbefore =>
    cases h' with
    | all hfatal' => exact absurd hfatal (hfatal' i hi)
    | @upTo i' hi' hfatal' hbefore' =>
      rcases Nat.lt_trichotomy i i' with hlt | rfl | hlt
      · exact absurd hfatal (hbefore' i hlt)
      · exact ⟨rfl, rfl⟩
      · exact absurd hfatal' (hbefore i' hlt)

theorem finished_map_range_succ (generator : Generator) (count : Nat) :
    ((List.range (count + 1)).map fun i => finished (generator.sentenceAt i)) =
      finished (generator.sentenceAt 0) ::
        (List.range count).map fun i => finished ((generator.skip 1).sentenceAt i) := by
  simp only [List.range_succ_eq_map, List.map_cons, List.map_map, Generator.sentenceAt_skip,
    Nat.add_comm 1]
  rfl

theorem ComesTo.cons {generator : Generator} {count code : Nat} {ends : List (Option String)}
    (h : ComesTo (generator.skip 1) count ends code) (hfirst : ¬ IsFatal (generator.sentenceAt 0)) :
    ComesTo generator (count + 1) (finished (generator.sentenceAt 0) :: ends)
      (if (failure? (generator.sentenceAt 0)).isSome && code == 0 then 1 else code) := by
  have hlater (i : Nat) : (generator.skip 1).sentenceAt i = generator.sentenceAt (i + 1) := by
    rw [Generator.sentenceAt_skip, Nat.add_comm]
  cases h with
  | all hfatal hle hcode =>
    rw [← finished_map_range_succ]
    simp only [hlater] at hfatal hcode
    refine .all (Nat.forall_lt_succ_left.2 ⟨hfirst, hfatal⟩) ?_ ?_
    · split
      · exact Nat.le_refl 1
      · exact hle
    · rw [Nat.exists_lt_succ_left, ← hcode, ← failure?_isSome_iff]
      cases (failure? (generator.sentenceAt 0)).isSome with
      | false => simp
      | true =>
        simp
        omega
  | @upTo i hi hfatal hbefore =>
    rw [← finished_map_range_succ]
    simp only [hlater] at hfatal hbefore
    rw [if_neg (by simp [Performance.fatalCode])]
    exact .upTo (Nat.succ_lt_succ hi) hfatal (Nat.forall_lt_succ_left.2 ⟨hfirst, hbefore⟩)

theorem sentences_spec (stepwise : Bool) (generator : Generator) (count : Nat) :
    ComesTo generator count (endings (sentences stepwise generator count).1)
      (sentences stepwise generator count).2 := by
  induction count generalizing generator with
  | zero =>
    exact .all (fun i hi => absurd hi (Nat.not_lt_zero i)) (Nat.zero_le 1) (by simp [sentences])
  | succ count ih =>
    obtain ⟨actions, hsentence, hendings⟩ := sentence_spec stepwise generator count
    rw [sentences, hsentence]
    dsimp only
    by_cases hfatal : IsFatal (generator.sentenceAt 0)
    · rw [if_pos (failure?_any_iff.2 hfatal)]
      have hlast := hendings [] fun _ => rfl
      rw [List.append_nil] at hlast
      rw [hlast]
      exact .upTo (Nat.succ_pos count) hfatal fun j hj => absurd hj (Nat.not_lt_zero j)
    · rw [if_neg (mt failure?_any_iff.1 hfatal)]
      have hlater : count = 0 → (sentences stepwise (generator.skip 1) count).1 = [] := by
        rintro rfl
        rfl
      dsimp only
      rw [hendings _ hlater]
      exact (ih (generator.skip 1)).cons hfatal

/-! ### The program -/

def Request.stepwise : Request → Request
  | .sentences options => .sentences { options with stepwise := true }
  | request => request

theorem parse_stepwise (options : Options) (arguments : List String) :
    parse { options with stepwise := true } arguments = (parse options arguments).stepwise := by
  fun_induction parse options arguments with
  | case1 options => rfl
  | case2 options rest => rfl
  | case3 options rest => rfl
  | case4 options directory rest ih => exact ih
  | case5 options seed rest ih => exact ih
  | case6 options count rest ih => exact ih
  | case7 options level rest ih => exact ih
  | case8 options rest ih => exact ih
  | case9 options argument rest => simp_all [parse, Request.stepwise]

/-- Arguments that are complete are read before those that follow. -/
theorem parse_append {options begun : Options} {before : List String}
    (h : parse options before = .sentences begun) (after : List String) :
    parse options (before ++ after) = parse begun after := by
  fun_induction parse options before with
  | case1 options =>
    cases h
    rfl
  | case2 options rest => cases h
  | case3 options rest => cases h
  | case4 options directory rest ih => exact ih h
  | case5 options seed rest ih => exact ih h
  | case6 options count rest ih => exact ih h
  | case7 options level rest ih => exact ih h
  | case8 options rest ih => exact ih h
  | case9 options argument rest => cases h

theorem source_stepwise (options : Options) (stepwise : Bool) :
    ({ options with stepwise } : Options).source = options.source := rfl

theorem comesTo_perform {options : Options} {files : Files} {generator : Generator}
    (h : options.source.build files = .ok generator) (stepwise : Bool) :
    ComesTo generator options.count (endings (perform { options with stepwise } files).actions)
      (perform { options with stepwise } files).code := by
  rw [perform, source_stepwise, h]
  exact sentences_spec stepwise generator options.count

/-- With `--step` among its arguments or without it, the program comes to the same sentences, in the
same order and with the same exit code. If its language can be loaded, these are the sentences of
the generator, and the code is 1 if and only if one of them fails, unless one of them ends the
program. -/
theorem step_as_plain {before : List String} {begun : Options}
    (h : parse {} before = .sentences begun) (after : List String) (files : Files) :
    let stepped := run (before ++ "--step" :: after) files
    let plain := run (before ++ after) files
    endings stepped.actions = endings plain.actions ∧ stepped.code = plain.code ∧
    ∀ options generator, parse {} (before ++ after) = .sentences options →
      options.source.build files = .ok generator →
      ComesTo generator options.count (endings plain.actions) plain.code := by
  have hparse : parse {} (before ++ "--step" :: after) = (parse {} (before ++ after)).stepwise := by
    rw [parse_append h, parse_append h]
    exact parse_stepwise begun after
  dsimp only
  rw [run, run, hparse]
  cases parse {} (before ++ after) with
  | usage => exact ⟨rfl, rfl, fun _ _ h => nomatch h⟩
  | unknown argument => exact ⟨rfl, rfl, fun _ _ h => nomatch h⟩
  | sentences options =>
    cases hbuild : options.source.build files with
    | error error =>
      have hsame : perform { options with stepwise := true } files = perform options files := by
        simp only [perform, source_stepwise, hbuild]
      refine ⟨congrArg (endings ·.actions) hsame, congrArg (·.code) hsame, ?_⟩
      rintro _ _ ⟨⟩ hbuilt
      cases hbuild.symm.trans hbuilt
    | ok generator =>
      have hplain := comesTo_perform hbuild options.stepwise
      obtain ⟨hendings, hcode⟩ := (comesTo_perform hbuild true).unique hplain
      refine ⟨hendings, hcode, ?_⟩
      rintro _ _ ⟨⟩ hbuilt
      cases hbuild.symm.trans hbuilt
      exact hplain

end SentenceWalk.Command.Generate

/-! A language without a noun, so that only sentences without one come about. -/

namespace SentenceWalk.Sample

def danceGrammar (successors : String) : String :=
  "\x7b\"S\":Pos(successors:[\"N\",\"IV\"],weights:[1,1]),\"N\":Pos(vocabulary:[\"N\"])," ++
  "\"IV\":Pos(" ++ successors ++ ",vocabulary:[\"IV\"]),\"END\":Pos()\x7d"

def danceFiles (successors : String) : Files
  | "dances/grammar.ron" => .file (danceGrammar successors).toUTF8
  | "dances/wordlist.csv" => .file "name;pos\nsing;IV\ndance;IV\n".toUTF8
  | "dances/hierarchy.csv" => .file "".toUTF8
  | _ => .missing

def lightSuccessors : String := "successors:[\"END\"],weights:[1]"
def heavySuccessors : String := "successors:[\"IV\",\"END\"],weights:[1e308,1e308]"

end SentenceWalk.Sample

namespace SentenceWalk.Command.Generate

theorem step_as_plain_dance :
    let files := Sample.danceFiles Sample.lightSuccessors
    ∃ generator,
    ({ directory := "dances", seed := 1, count := 2 } : Options).source.build files =
      .ok generator ∧
    ComesTo generator 2 [some "Dance.\n", none] 1 ∧
    let stepped := run ["--data-dir", "dances", "--step", "--seed", "1", "--count", "2"] files
    endings stepped.actions = [some "Dance.\n", none] ∧ stepped.code = 1 := by
  intro files
  have hruns : (({ directory := "dances", seed := 1, count := 2 } : Options).source.build
        files).toOption.isSome = true ∧
      run (["--data-dir", "dances"] ++ ["--seed", "1", "--count", "2"]) files =
        { actions := [.write "Dance.\n",
            .report "ERROR: selection error: no candidate words for part-of-speech 'N'\n"],
          code := 1 } := by decide +kernel
  obtain ⟨generator, hsome⟩ := Option.isSome_iff_exists.1 hruns.1
  have hbuild := eq_ok_of_toOption hsome
  have hbefore : parse {} ["--data-dir", "dances"] = .sentences { directory := "dances" } := rfl
  have hdance : "Dance.\n" ≠ clearScreen := by decide
  obtain ⟨hendings, hcode, hcomes⟩ :=
    step_as_plain hbefore ["--seed", "1", "--count", "2"] files
  have hgenerator := hcomes { directory := "dances", seed := 1, count := 2 } generator rfl hbuild
  rw [hruns.2, endings_write hdance] at hendings hgenerator
  rw [hruns.2] at hcode
  exact ⟨generator, hbuild, hgenerator, hendings, hcode⟩

/-- A sentence fails for want of words, and the exit code is not 1 all the same, in either way of
writing: the next sentence draws from weights that are too large together. -/
theorem overflow_outweighs_failure :
    let files := Sample.danceFiles Sample.heavySuccessors
    ∃ generator,
    ({ directory := "dances", seed := 3, count := 2 } : Options).source.build files =
      .ok generator ∧
    IsFailed (generator.sentenceAt 0) ∧ ¬ IsFatal (generator.sentenceAt 0) ∧
    (run ["--data-dir", "dances", "--seed", "3", "--count", "2"] files).code = 101 ∧
    (run ["--data-dir", "dances", "--step", "--seed", "3", "--count", "2"] files).code = 101 := by
  intro files
  let options : Options := { directory := "dances", seed := 3, count := 2 }
  have hends : (options.source.build files).toOption.map (fun generator =>
      ((failure? (generator.sentenceAt 0)).map WalkError.isFatal,
        (failure? (generator.sentenceAt 1)).map WalkError.isFatal)) =
      some (some false, some true) := by decide +kernel
  obtain ⟨generator, hsome, hfailures⟩ := Option.map_eq_some_iff.1 hends
  obtain ⟨hfirst, hsecond⟩ := Prod.mk.inj hfailures
  obtain ⟨first, hfailure, hmild⟩ := Option.map_eq_some_iff.1 hfirst
  obtain ⟨second, hoverflow, hsevere⟩ := Option.map_eq_some_iff.1 hsecond
  have hbuild := eq_ok_of_toOption hsome
  have hfailed : IsFailed (generator.sentenceAt 0) := by
    rw [← failure?_isSome_iff, hfailure]
    rfl
  have hgoesOn : ¬ IsFatal (generator.sentenceAt 0) := by
    rw [← failure?_any_iff, hfailure, Option.any_some, hmild]
    exact Bool.false_ne_true
  have hfatal : IsFatal (generator.sentenceAt 1) := by
    rw [← failure?_any_iff, hoverflow, Option.any_some, hsevere]
  have hcomes : ComesTo generator 2 _ Performance.fatalCode :=
    .upTo Nat.one_lt_two hfatal (by simpa using hgoesOn)
  have hcode (stepwise : Bool) : (perform { options with stepwise } files).code = 101 :=
    ((comesTo_perform hbuild stepwise).unique hcomes).2
  exact ⟨generator, hbuild, hfailed, hgoesOn, hcode false, hcode true⟩

end SentenceWalk.Command.Generate
