import SentenceWalk.Proofs.GrammarWalk

/-!
What a session has recorded of a run. A step enters the cursor before it does anything else, so that
a step that fails leaves the cursor to be entered once more; the records do not show how often.
-/

namespace SentenceWalk

def Cursor.visit? (grammar : Grammar) (cursor : Cursor) : Option Visit :=
  (grammar.role cursor.code).toOption.map fun role => ⟨cursor.code, role⟩

theorem Cursor.visit?_eq {grammar : Grammar} {cursor : Cursor} {role : Role}
    (h : grammar.role cursor.code = .ok role) :
    cursor.visit? grammar = some ⟨cursor.code, role⟩ := by
  rw [visit?, h]
  rfl

theorem Landmark.ofVisits_cons_congr {conjunctions : Bool} {visit : Visit}
    {visits others : List Visit}
    (h : ofVisits conjunctions visits = ofVisits conjunctions others) :
    ofVisits conjunctions (visit :: visits) = ofVisits conjunctions (visit :: others) := by
  rw [ofVisits, ofVisits, h]

/-- A visit that is repeated at once does not change what a look back comes to. -/
theorem Landmark.ofVisits_again (conjunctions : Bool) (visit : Visit) (visits : List Visit) :
    ofVisits conjunctions (visit :: visit :: visits) = ofVisits conjunctions (visit :: visits) := by
  rcases visit with ⟨code, role⟩
  cases role <;> cases conjunctions <;> rfl

theorem findSome?_cons_eq_or {α β : Type} (f : α → Option β) (item : α) (items : List α) :
    (item :: items).findSome? f = (f item).or (items.findSome? f) := by
  rw [List.findSome?_cons]
  cases f item <;> rfl

namespace Session

/-- The cursors that a session has entered, the last one first and each once, however often a step
has failed behind it. -/
inductive Chronicle (rules : Rules) : List Cursor → Session → Prop where
  | blank {session : Session} (hh : session.history = {}) (hu : session.used = {})
      (hs : session.situation = {}) : Chronicle rules [] session
  | first {session observed : Session} : Chronicle rules seen session →
      Observes rules session role observed → Chronicle rules (session.cursor :: seen) observed
  | again {session observed : Session} : Chronicle rules (session.cursor :: seen) session →
      Observes rules session role observed → Chronicle rules (session.cursor :: seen) observed
  | congr {session next : Session} : Chronicle rules seen session →
      next.history = session.history → next.used = session.used →
      next.situation = session.situation → Chronicle rules seen next

/-- The session has entered all places of the run, or all but the one where it stands. -/
def Recorded (rules : Rules) (past : List Placement) (session : Session) : Prop :=
  ∃ seen, cursors rules past = session.cursor :: seen ∧
    (Chronicle rules seen session ∨ Chronicle rules (session.cursor :: seen) session)

variable {rules : Rules} {past : List Placement} {session observed next : Session}
variable {seen : List Cursor} {role : Role} {answer : Except WalkError Step}
variable {stream rest : RandomStream}

theorem Recorded.observe (h : Recorded rules past session)
    (ho : Observes rules session role observed) :
    Chronicle rules (cursors rules past) observed := by
  obtain ⟨seen, hcursors, hseen | hseen⟩ := h
  · rw [hcursors]
    exact .first hseen ho
  · rw [hcursors]
    exact .again hseen ho

theorem Recorded.transition (h : Recorded rules past session) (hw : Walks rules past session)
    (ht : Transition rules session stream answer next rest) :
    Recorded rules (past ++ (Placement.ofAnswer? answer).toList) next := by
  rcases ht.entered with ⟨rfl, hnone⟩ | ⟨observed, hs, hhistory, hused, hsituation, hcursor⟩
  · rw [hnone, Option.toList_none, List.append_nil]
    exact h
  · obtain ⟨role, ho⟩ := observe_ok hs
    have hentered : Chronicle rules (cursors rules past) next :=
      .congr (h.observe ho) hhistory hused hsituation
    cases hp : Placement.ofAnswer? answer with
    | none =>
      rw [hp, Option.map_none, Option.getD_none, ho.cursor] at hcursor
      obtain ⟨seen, hcursors⟩ := List.head?_eq_some_iff.1 hw.head
      rw [hcursors, ← hcursor] at hentered
      rw [Option.toList_none, List.append_nil]
      exact ⟨seen, by rw [hcursors, hcursor], .inr hentered⟩
    | some placement =>
      rw [hp, Option.map_some, Option.getD_some] at hcursor
      refine ⟨cursors rules past, ?_, .inl hentered⟩
      rw [Option.toList_some, cursors_concat, hcursor]

theorem Reached.recorded (h : Reached rules past session) : Recorded rules past session := by
  induction h with
  | start => exact ⟨[], rfl, .inl (.blank rfl rfl rfl)⟩
  | step stream h ih => exact ih.transition h.walks (step_transition rules _ stream)

theorem Chronicle.lookBack (h : Chronicle rules seen session) (conjunctions : Bool) :
    session.history.lookBack conjunctions =
      Landmark.ofVisits conjunctions (seen.filterMap (Cursor.visit? rules.language.grammar)) := by
  induction h with
  | blank hh =>
    rw [hh]
    rfl
  | first h ho ih =>
    rw [List.filterMap_cons, Cursor.visit?_eq ho.role_eq, History.lookBack, ho.visits]
    exact Landmark.ofVisits_cons_congr ih
  | again h ho ih =>
    rw [List.filterMap_cons, Cursor.visit?_eq ho.role_eq] at ih ⊢
    rw [History.lookBack, ho.visits, Landmark.ofVisits_cons_congr ih, Landmark.ofVisits_again]
  | congr h hh hu hs ih => rw [hh, ih]

theorem Chronicle.lastPreposition (h : Chronicle rules seen session) :
    session.history.lastPreposition =
      seen.findSome? (Cursor.preposition? rules.language.grammar) := by
  induction h with
  | blank hh =>
    rw [hh]
    rfl
  | first h ho ih => rw [ho.lastPreposition, findSome?_cons_eq_or, ih]
  | again h ho ih =>
    rw [findSome?_cons_eq_or] at ih ⊢
    rw [ho.lastPreposition, ih, ← Option.or_assoc, Option.or_self]
  | congr h hh hu hs ih => rw [hh, ih]

end Session

end SentenceWalk
