import SentenceWalk.Proofs.Chronicle

namespace SentenceWalk

namespace UsedWords

theorem names_insert (used : UsedWords) (name : String) :
    (used.insert name).names =
      if used.contains name then used.names else used.names ++ [name] := by
  rw [insert]
  split <;> rfl

theorem contains_foldl_insert (names : List String) (used : UsedWords) (name : String) :
    (names.foldl insert used).contains name = (used.contains name || names.contains name) := by
  induction names generalizing used with
  | nil => simp
  | cons first names ih =>
    rw [List.foldl_cons, ih, contains_insert, List.contains_cons, Bool.or_assoc]

theorem contains_foldl_insert_iff {names : List String} {name : String} :
    (names.foldl insert {}).contains name = true ↔ name ∈ names := by
  rw [contains_foldl_insert]
  simp [contains]

theorem names_foldl_insert (names : List String) :
    (names.foldl insert {}).names = names.eraseDups := by
  induction names using List.reverseRecOn with
  | nil => rfl
  | append_singleton names name ih =>
    rw [List.foldl_concat, names_insert, ih, List.eraseDups_append]
    by_cases hmem : name ∈ names
    · rw [if_pos (contains_foldl_insert_iff.2 hmem)]
      simp [List.removeAll, hmem]
    · rw [if_neg (mt contains_foldl_insert_iff.1 hmem)]
      simp [List.removeAll, hmem, List.eraseDups_cons]

theorem nodup_names_foldl_insert (names : List String) : (names.foldl insert {}).names.Nodup := by
  induction names using List.reverseRecOn with
  | nil => exact List.nodup_nil
  | append_singleton names name ih =>
    rw [List.foldl_concat, names_insert]
    split
    · exact ih
    · rename_i hfresh
      rw [names_foldl_insert] at ih ⊢
      refine List.nodup_append.2 ⟨ih, List.nodup_cons.2 ⟨List.not_mem_nil, List.nodup_nil⟩, ?_⟩
      rintro other hother _ hname rfl
      rw [List.mem_singleton.1 hname, List.mem_eraseDups] at hother
      exact hfresh (contains_foldl_insert_iff.2 hother)

end UsedWords

def Cursor.tracked? (grammar : Grammar) (cursor : Cursor) : Option String :=
  if (grammar.role cursor.code).toOption.any Role.isTracked then cursor.entry.map Entry.name
  else none

/-- Places in turn, each as many times as are given for its position. -/
def spread {α : Type} (times : Nat → Nat) (places : List α) : List α :=
  places.zipIdx.flatMap fun place => List.replicate (times place.2) place.1

section Spread

variable {α : Type} {times more : Nat → Nat}

theorem spread_concat (times : Nat → Nat) (places : List α) (place : α) :
    spread times (places ++ [place]) =
      spread times places ++ List.replicate (times places.length) place := by
  simp [spread, List.zipIdx_append]

example : spread (fun place => if place = 1 then 3 else 1) ["S", "P", "N"] =
    ["S", "P", "P", "P", "N"] := rfl

theorem spread_congr (places : List α) (h : ∀ i < places.length, more i = times i) :
    spread more places = spread times places := by
  induction places using List.reverseRecOn with
  | nil => rfl
  | append_singleton places place ih =>
    rw [List.length_append, List.length_singleton] at h
    rw [spread_concat, spread_concat, h places.length (by omega),
      ih fun i hi => h i (by omega)]

theorem spread_again (places : List α) (place : α)
    (h : ∀ i, more i = times i + if i = places.length then 1 else 0) :
    spread more (places ++ [place]) = spread times (places ++ [place]) ++ [place] := by
  have hearlier : spread more places = spread times places := by
    refine spread_congr places fun i hi => ?_
    rw [h, if_neg (by omega), Nat.add_zero]
  rw [spread_concat, spread_concat, hearlier, h, if_pos rfl, List.replicate_succ',
    List.append_assoc]

end Spread

namespace Session

/-- Whether a step has failed for another reason than the length of the sentence. -/
def stumbles : Except WalkError Step → Bool
  | .ok _ => false
  | .error (.sentenceTooLong _) => false
  | .error _ => true

/-- How many steps have led on: one to each word, and one to the end. -/
def strides (session : Session) : Nat :=
  session.forms.length + if session.finished then 1 else 0

/-- How often a session has entered the place behind so many words: in each step that has stumbled
there and in the one that has led on from there. -/
def timesEntered (items : List (Except WalkError Step × Session × RandomStream))
    (session : Session) (words : Nat) : Nat :=
  items.countP (fun item => stumbles item.1 && item.2.1.forms.length == words) +
    if words < session.strides then 1 else 0

/-- The words whose places have been entered: all, or all but the last one if no step has been taken
from there that would have entered it. -/
def recorded (items : List (Except WalkError Step × Session × RandomStream)) (session : Session)
    (words : List Placement) : List Placement :=
  if timesEntered items session words.length = 0 then words.dropLast else words

/-- The cursors that have been entered, the last one first and each once. -/
def entered (rules : Rules) (items : List (Except WalkError Step × Session × RandomStream))
    (session : Session) (words : List Placement) : List Cursor :=
  if timesEntered items session words.length = 0 then (cursors rules words).tail
  else cursors rules words

def after (rules : Rules) (session : Session) : Nat → RandomStream → Session
  | 0, _ => session
  | steps + 1, stream =>
    let next := session.step rules stream
    next.2.1.after rules steps next.2.2

variable {rules : Rules} {past words : List Placement} {session observed next : Session}
variable {seen : List Cursor} {role : Role} {answer : Except WalkError Step}
variable {stream rest : RandomStream}
variable {items : List (Except WalkError Step × Session × RandomStream)}

theorem ofAnswer?_of_stumbles (h : stumbles answer = true) : Placement.ofAnswer? answer = none := by
  cases answer with
  | error error => rfl
  | ok step => cases h

theorem stumbles_of_fromDraw {error : WalkError} (h : error.FromDraw) :
    stumbles (.error error) = true := by
  cases error with
  | sentenceTooLong limit => cases h
  | _ => rfl

theorem strides_of_open (h : session.finished = false) :
    session.strides = session.forms.length := by
  simp [strides, h]

/-- A step that enters the cursor grows the sentence by the word that it places, and stumbles or
leads on. -/
structure Enters (rules : Rules) (session observed next : Session)
    (answer : Except WalkError Step) : Prop where
  observes : ∃ role, Observes rules session role observed
  unfinished : session.finished = false
  history : next.history = observed.history
  used : next.used = observed.used
  situation : next.situation = observed.situation
  forms : next.forms = session.forms ++ (Placement.ofAnswer? answer).toList.map Placement.form
  strides : next.strides + (if stumbles answer then 1 else 0) = session.strides + 1

theorem Walks.enters (h : Walks rules past session)
    (ht : Transition rules session stream answer next rest) :
    (next = session ∧ stumbles answer = false ∧ Placement.ofAnswer? answer = none ∧
        ¬ session.Open rules) ∨
      ∃ observed, Enters rules session observed next answer := by
  cases ht with
  | ended hf => exact .inl ⟨rfl, rfl, rfl, fun ho => by cases hf.symm.trans ho.1⟩
  | tooLong hf hl => exact .inl ⟨rfl, rfl, rfl, fun ho => absurd ho.2 (Nat.not_lt.2 hl)⟩
  | unknown ho hs => exact absurd hs (h.observe_ne_error _)
  | partless ho hs hc =>
    obtain ⟨role, hobserves⟩ := observe_ok hs
    obtain ⟨part, hp⟩ := (h.observe hs).part
    have hstumbles := stumbles_of_fromDraw (Rules.choosePart_error hp (congrArg Prod.fst hc))
    refine .inr ⟨_, ⟨role, hobserves⟩, ho.1, rfl, rfl, rfl, ?_, ?_⟩
    · simp [hobserves.forms]
    · simp [strides, hobserves.forms, hobserves.finished, hstumbles]
  | wordless ho hs hc hw =>
    obtain ⟨role, hobserves⟩ := observe_ok hs
    obtain ⟨_, part, hp⟩ := (h.observe hs).chosen hc
    have hstumbles := stumbles_of_fromDraw (Rules.nextWord_error hp (congrArg Prod.fst hw))
    refine .inr ⟨_, ⟨role, hobserves⟩, ho.1, rfl, rfl, rfl, ?_, ?_⟩
    · simp [hobserves.forms]
    · simp [strides, hobserves.forms, hobserves.finished, hstumbles]
  | finishes ho hs hc hw =>
    obtain ⟨role, hobserves⟩ := observe_ok hs
    refine .inr ⟨_, ⟨role, hobserves⟩, ho.1, rfl, rfl, rfl, ?_, ?_⟩
    · simp [hobserves.forms]
    · simp [strides, hobserves.forms, ho.1, stumbles]
  | formless ho hs hc hw hf => exact absurd hf ((h.observe hs).render_ne_error hc _ _ _)
  | places ho hs hc hw hf =>
    obtain ⟨role, hobserves⟩ := observe_ok hs
    refine .inr ⟨_, ⟨role, hobserves⟩, ho.1, rfl, rfl, rfl, ?_, ?_⟩
    · simp [hobserves.forms, Placement.ofAnswer?]
    · simp [strides, hobserves.forms, hobserves.finished, ho.1, stumbles]

theorem Enters.timesEntered_eq (h : Enters rules session observed next answer) (words : Nat) :
    timesEntered (items ++ [(answer, next, rest)]) next words =
      timesEntered items session words + if words = session.forms.length then 1 else 0 := by
  have hopen := strides_of_open h.unfinished
  have hstrides := h.strides
  rw [timesEntered, timesEntered, List.countP_append, List.countP_singleton]
  cases hs : stumbles answer with
  | false =>
    rw [hs, if_neg Bool.false_ne_true, Nat.add_zero] at hstrides
    rw [Bool.false_and, if_neg Bool.false_ne_true]
    split <;> split <;> split <;> omega
  | true =>
    have hforms := h.forms
    rw [ofAnswer?_of_stumbles hs, Option.toList_none, List.map_nil, List.append_nil] at hforms
    rw [hs, if_pos rfl, Nat.add_right_cancel_iff] at hstrides
    rw [hforms, hstrides, Bool.true_and, Nat.add_right_comm]
    simp only [beq_iff_eq, eq_comm (a := words)]

/-- How the records of a session depend on the steps that have been taken and on the words that they
have placed. -/
structure Keeps (rules : Rules)
    (items : List (Except WalkError Step × Session × RandomStream)) (words : List Placement)
    (session : Session) : Prop where
  reached : Reached rules words session
  forms : session.forms = words.map Placement.form
  behind : ∀ item ∈ items, item.2.1.forms.length ≤ session.forms.length
  codes : session.history.visits.reverse.map Visit.code =
    spread (timesEntered items session) ((cursors rules words).reverse.map Cursor.code)
  roles : ∀ visit ∈ session.history.visits,
    rules.language.grammar.role visit.code = .ok visit.role
  length : session.history.length =
    session.strides + items.countP fun item => stumbles item.1
  chronicle : Chronicle rules (entered rules items session words) session

theorem keeps_start (rules : Rules) : Keeps rules [] [] (ofStart rules.language.grammar.start) where
  reached := .start
  forms := rfl
  behind := by simp
  codes := rfl
  roles := by simp [ofStart]
  length := rfl
  chronicle := .blank rfl rfl rfl

theorem Keeps.idle (h : Keeps rules items words session) (hs : stumbles answer = false) :
    Keeps rules (items ++ [(answer, session, rest)]) words session := by
  have htimes : timesEntered (items ++ [(answer, session, rest)]) session =
      timesEntered items session := by
    funext words
    simp [timesEntered, List.countP_append, hs]
  exact {
    reached := h.reached
    forms := h.forms
    behind := by
      intro item hmem
      rcases List.mem_append.1 hmem with hearlier | hlast
      · exact h.behind item hearlier
      · rw [List.mem_singleton.1 hlast]
    codes := by rw [htimes, h.codes]
    roles := h.roles
    length := by rw [h.length, List.countP_append, List.countP_singleton, hs]; rfl
    chronicle := by
      rw [entered, htimes]
      exact h.chronicle }

theorem Keeps.length_words (h : Keeps rules items words session) :
    words.length = session.forms.length := by
  rw [h.forms, List.length_map]

theorem Keeps.timesEntered_beyond (h : Keeps rules items words session)
    (hf : session.finished = false) :
    timesEntered items session (session.forms.length + 1) = 0 := by
  have hnone : ∀ item ∈ items, ¬ (stumbles item.1 &&
      item.2.1.forms.length == session.forms.length + 1) = true := by
    intro item hmem
    have hle := h.behind item hmem
    simp only [Bool.and_eq_true, beq_iff_eq, not_and]
    omega
  rw [timesEntered, List.countP_eq_zero.2 hnone, strides_of_open hf, if_neg (by omega)]

/-- A step that enters the cursor adds its code to those of the places that have been entered
before, and enters a place that it comes to by a word not yet. -/
theorem Keeps.spread_codes (h : Keeps rules items words session)
    (he : Enters rules session observed next answer) :
    spread (timesEntered (items ++ [(answer, next, rest)]) next)
        ((cursors rules (words ++ (Placement.ofAnswer? answer).toList)).reverse.map Cursor.code) =
      spread (timesEntered items session)
        ((cursors rules words).reverse.map Cursor.code) ++ [session.cursor.code] := by
  have hlength := h.length_words
  have hcurrent : spread (timesEntered (items ++ [(answer, next, rest)]) next)
      ((cursors rules words).reverse.map Cursor.code) =
        spread (timesEntered items session)
          ((cursors rules words).reverse.map Cursor.code) ++ [session.cursor.code] := by
    obtain ⟨seen, hcursors⟩ := List.head?_eq_some_iff.1 h.reached.walks.head
    have hseen : seen.length = words.length := by
      have hcount := congrArg List.length hcursors
      simpa [cursors] using hcount.symm
    rw [hcursors, List.reverse_cons, List.map_append, List.map_singleton]
    refine spread_again _ _ fun place => ?_
    rw [he.timesEntered_eq, List.length_map, List.length_reverse, hseen, hlength]
  cases hp : Placement.ofAnswer? answer with
  | none => rw [Option.toList_none, List.append_nil, hcurrent]
  | some placement =>
    rw [Option.toList_some, cursors_concat, List.reverse_cons, List.map_append, List.map_singleton,
      spread_concat, hcurrent, he.timesEntered_eq]
    have hbeyond := h.timesEntered_beyond he.unfinished
    simp [cursors, hlength, hbeyond]

theorem Keeps.chronicle_enters (h : Keeps rules items words session)
    (he : Enters rules session observed next answer) :
    Chronicle rules
      (entered rules (items ++ [(answer, next, rest)]) next
        (words ++ (Placement.ofAnswer? answer).toList)) next := by
  have hlength := h.length_words
  obtain ⟨role, ho⟩ := he.observes
  have hchronicle : Chronicle rules (cursors rules words) next :=
    .congr (h.reached.recorded.observe ho) he.history he.used he.situation
  rw [entered]
  cases hp : Placement.ofAnswer? answer with
  | none =>
    rw [Option.toList_none, List.append_nil, he.timesEntered_eq, if_pos hlength,
      if_neg (Nat.succ_ne_zero _)]
    exact hchronicle
  | some placement =>
    have hbeyond := h.timesEntered_beyond he.unfinished
    rw [Option.toList_some, List.length_append, List.length_singleton, hlength, he.timesEntered_eq,
      hbeyond, if_neg (Nat.succ_ne_self _), if_pos rfl, cursors_concat]
    exact hchronicle

theorem Keeps.enters (h : Keeps rules items words session)
    (he : Enters rules session observed next answer)
    (hr : Reached rules (words ++ (Placement.ofAnswer? answer).toList) next) :
    Keeps rules (items ++ [(answer, next, rest)])
      (words ++ (Placement.ofAnswer? answer).toList) next := by
  obtain ⟨role, ho⟩ := he.observes
  have hvisits : next.history.visits = ⟨session.cursor.code, role⟩ :: session.history.visits := by
    rw [he.history, ho.visits]
  exact {
    reached := hr
    forms := by rw [he.forms, h.forms, List.map_append]
    behind := by
      have hgrown : session.forms.length ≤ next.forms.length := by
        rw [he.forms, List.length_append]
        exact Nat.le_add_right _ _
      intro item hmem
      rcases List.mem_append.1 hmem with hearlier | hlast
      · exact (h.behind item hearlier).trans hgrown
      · rw [List.mem_singleton.1 hlast]
    codes := by
      rw [h.spread_codes he, hvisits, List.reverse_cons, List.map_append, h.codes]
      rfl
    roles := by
      rw [hvisits]
      intro visit hmem
      rcases List.mem_cons.1 hmem with rfl | hearlier
      · exact ho.role_eq
      · exact h.roles visit hearlier
    length := by
      have hold := h.length
      have hstrides := he.strides
      rw [History.length] at hold ⊢
      rw [hvisits, List.length_cons, List.countP_append, List.countP_singleton]
      dsimp only
      omega
    chronicle := h.chronicle_enters he }

theorem Keeps.step (h : Keeps rules items words session) (stream : RandomStream) :
    Keeps rules (items ++ [session.step rules stream])
      (words ++ (Placement.ofAnswer? (session.step rules stream).1).toList)
      (session.step rules stream).2.1 := by
  have hr := h.reached.step stream
  have ht := step_transition rules session stream
  generalize session.step rules stream = item at hr ht ⊢
  obtain ⟨answer, next, rest⟩ := item
  rcases h.reached.walks.enters ht with ⟨rfl, hs, hnone, _⟩ | ⟨observed, he⟩
  · dsimp only at hnone ⊢
    rw [hnone, Option.toList_none, List.append_nil]
    exact h.idle hs
  · exact h.enters he hr

theorem Keeps.run (h : Keeps rules items words session) (steps : Nat) (stream : RandomStream) :
    Keeps rules (items ++ session.trace rules steps stream)
      (words ++ session.placements rules steps stream) (session.after rules steps stream) := by
  induction steps generalizing items words session stream with
  | zero => simpa [trace, placements, after] using h
  | succ steps ih =>
    rw [trace, placements_succ, after, List.append_cons, ← List.append_assoc words]
    exact ih (h.step stream) _

theorem Observes.used_eq (ho : Observes rules session role observed) :
    observed.used = (session.cursor.tracked? rules.language.grammar).toList.foldl UsedWords.insert
      session.used := by
  have hrole : (rules.language.grammar.role session.cursor.code).toOption = some role := by
    rw [ho.role_eq]
    rfl
  rw [ho.used, Cursor.tracked?, hrole, Option.any_some]
  split
  · cases session.cursor.entry <;> rfl
  · rfl

theorem Chronicle.used_eq (h : Chronicle rules seen session) :
    session.used = (seen.reverse.filterMap (Cursor.tracked? rules.language.grammar)).foldl
      UsedWords.insert {} := by
  induction h with
  | blank hh hu hs => exact hu
  | first h ho ih =>
    rw [ho.used_eq, List.reverse_cons, List.filterMap_append, List.foldl_append, ← ih]
    rfl
  | again h ho ih =>
    rw [ho.used_eq, ← ih]
    -- The name, if there is one, is that of the place that has been entered last.
    cases ht : Cursor.tracked? rules.language.grammar _ with
    | none => rfl
    | some name =>
      apply UsedWords.insert_of_contains
      rw [ih, UsedWords.contains_foldl_insert_iff, List.reverse_cons, List.filterMap_append]
      exact List.mem_append_right _ (List.mem_filterMap.2 ⟨_, List.mem_singleton_self _, ht⟩)
  | congr h hh hu hs ih => rw [hu, ih]

theorem filterMap_cursors {α : Type} {f : Cursor → Option α}
    (hf : f { code := rules.language.grammar.start } = none) (words : List Placement) :
    (cursors rules words).reverse.filterMap f = words.filterMap fun word => f word.cursor := by
  simp [cursors, hf]

theorem filterMap_recorded {α : Type} {f : Cursor → Option α}
    (hf : f { code := rules.language.grammar.start } = none) :
    (entered rules items session words).reverse.filterMap f =
      (recorded items session words).filterMap fun word => f word.cursor := by
  rw [entered, recorded]
  split
  · obtain rfl | ⟨earlier, last, rfl⟩ := List.eq_nil_or_concat' words
    · rfl
    · rw [cursors_concat, List.tail_cons, List.dropLast_concat, filterMap_cursors hf]
  · exact filterMap_cursors hf words

theorem tracked?_cursor (grammar : Grammar) (word : Placement) :
    word.cursor.tracked? grammar =
      if word.role? grammar = some .noun ∨ word.role? grammar = some .verb then
        some word.entry.name
      else none := by
  change (if (word.role? grammar).any Role.isTracked then some word.entry.name else none) = _
  cases word.role? grammar with
  | none => rfl
  | some role => cases role <;> rfl

theorem filterMap_if {α β : Type} (p : α → Prop) [DecidablePred p] (f : α → β) (l : List α) :
    (l.filterMap fun a => if p a then some (f a) else none) = (l.filter fun a => p a).map f := by
  induction l with
  | nil => rfl
  | cons a l ih => by_cases h : p a <;> simp [h, ih]

theorem findSome?_eq_getLast? {α β : Type} (f : α → Option β) (l : List α) :
    l.findSome? f = (l.reverse.filterMap f).getLast? := by
  rw [List.getLast?_filterMap, List.reverse_reverse]

theorem Keeps.used_eq (h : Keeps rules items words session) :
    session.used =
      (((recorded items session words).filter fun word =>
        word.role? rules.language.grammar = some .noun ∨
          word.role? rules.language.grammar = some .verb).map
            fun word => word.entry.name).foldl UsedWords.insert {} := by
  have hstart : Cursor.tracked? rules.language.grammar { code := rules.language.grammar.start } =
      none := by
    rw [Cursor.tracked?, Option.map_none, ite_self]
  rw [h.chronicle.used_eq, filterMap_recorded hstart]
  simp only [tracked?_cursor]
  rw [filterMap_if]

theorem Keeps.lastPreposition_eq (h : Keeps rules items words session) :
    session.history.lastPreposition =
      ((recorded items session words).filter fun word =>
        word.role? rules.language.grammar = some .preposition).getLast?.map
          fun word => ⟨word.entry.word.name, word.entry.word.tag⟩ := by
  have hstart : Cursor.preposition? rules.language.grammar
      { code := rules.language.grammar.start } = none := by
    rw [Cursor.preposition?, Option.map_none, ite_self]
  rw [h.chronicle.lastPreposition, findSome?_eq_getLast?, filterMap_recorded hstart,
    ← List.getLast?_map, ← filterMap_if]
  rfl

/-- Whatever fails on the way, the records follow from the words that have been placed and from the
steps that have stumbled. The history has the start and the codes of the words, each as often as its
place has been entered, and only the place where the session stands may not have been entered yet.
The names in use are those of the recorded nouns and verbs, and the last preposition is the last one
that is recorded. -/
theorem records_of_run (rules : Rules) (steps : Nat) (stream : RandomStream) :
    let grammar := rules.language.grammar
    let start := ofStart grammar.start
    let items := start.trace rules steps stream
    let words := start.placements rules steps stream
    let last := start.after rules steps stream
    last.forms = words.map Placement.form ∧
      last.history.visits.reverse.map Visit.code =
        spread (timesEntered items last) (grammar.start :: words.map Placement.code) ∧
      (∀ place < words.length, timesEntered items last place ≠ 0) ∧
      (∀ visit ∈ last.history.visits, grammar.role visit.code = .ok visit.role) ∧
      last.history.length =
        last.forms.length + (if last.finished then 1 else 0) +
          items.countP (fun item => stumbles item.1) ∧
      last.used.names =
        (((recorded items last words).filter fun word =>
          word.role? grammar = some .noun ∨ word.role? grammar = some .verb).map
            fun word => word.entry.name).eraseDups ∧
      last.used.names.Nodup ∧
      (∀ name, last.used.contains name = true ↔ name ∈ last.used.names) ∧
      last.history.lastPreposition =
        ((recorded items last words).filter fun word =>
          word.role? grammar = some .preposition).getLast?.map
            fun word => ⟨word.entry.word.name, word.entry.word.tag⟩ := by
  intro grammar start items words last
  have hkeeps : Keeps rules items words last := (keeps_start rules).run steps stream
  have hused := hkeeps.used_eq
  refine ⟨hkeeps.forms, ?_, ?_, hkeeps.roles, hkeeps.length, ?_, ?_, ?_, hkeeps.lastPreposition_eq⟩
  · rw [hkeeps.codes, List.map_reverse, codes_cursors]
  · intro place hplace
    have hstrides : place < last.strides := by
      rw [strides, ← hkeeps.length_words]
      exact Nat.lt_add_right _ hplace
    rw [timesEntered, if_pos hstrides]
    exact Nat.succ_ne_zero _
  · rw [hused, UsedWords.names_foldl_insert]
  · rw [hused]
    exact UsedWords.nodup_names_foldl_insert _
  · intro name
    rw [hused, UsedWords.contains_foldl_insert_iff, UsedWords.names_foldl_insert,
      List.mem_eraseDups]

/-- Steps that may not draw a part-of-speech even once stumble, and enter the start each time. -/
example :
    let rules : Rules := { Sample.rules with config := { partRetryLimit := 0 } }
    ((ofStart "S").after rules 3 (.ofSeed 0)).history.visits.map Visit.code = ["S", "S", "S"] := by
  decide +kernel

end Session

end SentenceWalk
