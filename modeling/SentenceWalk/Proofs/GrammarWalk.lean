import Mathlib.Data.List.Chain
import SentenceWalk.Proofs.Placement

namespace SentenceWalk

def Grammar.CanEnd (grammar : Grammar) (code : String) : Prop :=
  ∃ successor ∈ grammar.successors code, grammar.role successor = .ok .finish

namespace Session

/-- Where a run has stood, the last place first. -/
def cursors (rules : Rules) (past : List Placement) : List Cursor :=
  (past.map Placement.cursor).reverse ++ [{ code := rules.language.grammar.start }]

/-- The words placed so far form a walk that has led to the cursor. -/
structure Walks (rules : Rules) (past : List Placement) (session : Session) : Prop where
  head : (cursors rules past).head? = some session.cursor
  chain : (cursors rules past).IsChain fun later earlier =>
    later.code ∈ rules.language.grammar.successors earlier.code
  offered : ∀ placement ∈ past, rules.language.Offers placement.code placement.entry
  ended : session.finished = true → rules.language.grammar.CanEnd session.cursor.code

variable {rules : Rules} {past : List Placement} {session observed next : Session}
variable {stream middle rest : RandomStream} {answer : Except WalkError Step}

theorem cursors_concat (rules : Rules) (past : List Placement) (placement : Placement) :
    cursors rules (past ++ [placement]) = placement.cursor :: cursors rules past := by
  simp [cursors]

theorem walks_start (rules : Rules) : Walks rules [] (ofStart rules.language.grammar.start) where
  head := rfl
  chain := .singleton _
  offered := by
    intro placement hmem
    cases hmem
  ended := by
    intro hf
    cases hf

theorem Walks.congr (h : Walks rules past session) (hc : next.cursor = session.cursor)
    (hf : next.finished = session.finished) : Walks rules past next where
  head := by rw [hc, h.head]
  chain := h.chain
  offered := h.offered
  ended := by
    rw [hc, hf]
    exact h.ended

theorem Walks.part (h : Walks rules past session) :
    ∃ part, rules.language.grammar.parts[session.cursor.code]? = some part := by
  rcases List.mem_append.1 (List.mem_of_mem_head? h.head) with hmem | hmem
  · rw [List.mem_reverse, List.mem_map] at hmem
    obtain ⟨placement, hplaced, hcursor⟩ := hmem
    obtain ⟨part, hp, _⟩ := h.offered placement hplaced
    rw [← hcursor]
    exact ⟨part, hp⟩
  · rw [List.mem_singleton.1 hmem]
    obtain ⟨part, hp, _⟩ := rules.language.grammar.part_start
    exact ⟨part, hp⟩

theorem Walks.observe (h : Walks rules past session) (hs : session.observe rules = .ok observed) :
    Walks rules past observed := by
  obtain ⟨role, ho⟩ := observe_ok hs
  exact h.congr ho.cursor ho.finished

theorem Walks.chosen (h : Walks rules past observed)
    (hc : rules.choosePart observed.cursor observed.history stream = (.ok code, middle)) :
    code ∈ rules.language.grammar.successors observed.cursor.code ∧
      ∃ part, rules.language.grammar.parts[code]? = some part := by
  obtain ⟨part, hp⟩ := h.part
  obtain ⟨hmem, next, hnext, _⟩ := Rules.choosePart_ok hp (congrArg Prod.fst hc)
  exact ⟨hmem, next, hnext⟩

theorem Walks.observe_ne_error (h : Walks rules past session) (error : WalkError) :
    session.observe rules ≠ .error error := by
  obtain ⟨part, hp⟩ := h.part
  obtain ⟨observed, hs⟩ := observe_of_part hp
  intro he
  cases he.symm.trans hs

theorem Walks.render_ne_error (h : Walks rules past observed)
    (hc : rules.choosePart observed.cursor observed.history stream = (.ok code, middle))
    (entry : Entry) (situation : Situation) (error : WalkError) :
    rules.render entry code situation ≠ .error error := by
  obtain ⟨_, part, hp⟩ := h.chosen hc
  rw [Rules.render, Grammar.role_eq hp]
  intro he
  cases he

theorem Walks.placed (h : Walks rules past observed) {entry : Entry}
    (hmem : code ∈ rules.language.grammar.successors observed.cursor.code)
    (hoffers : rules.language.Offers code entry) (hopen : observed.finished = false)
    {pending : Pending} :
    Walks rules (past ++ [⟨entry, code, form⟩])
      { observed with
        pending, cursor := ⟨code, some entry⟩, forms := observed.forms ++ [form] } where
  head := by rw [cursors_concat]; rfl
  chain := by
    rw [cursors_concat]
    have hhead := h.head
    cases hcursors : cursors rules past with
    | nil => simp [cursors] at hcursors
    | cons cursor rest =>
      rw [hcursors, List.head?_cons, Option.some.injEq] at hhead
      rw [List.isChain_cons_cons]
      refine ⟨?_, hcursors ▸ h.chain⟩
      rw [hhead]
      exact hmem
  offered := by
    intro placement hplaced
    rcases List.mem_append.1 hplaced with hearlier | hlast
    · exact h.offered placement hearlier
    · rw [List.mem_singleton.1 hlast]
      exact hoffers
  ended := by
    intro hf
    rw [hopen] at hf
    cases hf

theorem Walks.transition (h : Walks rules past session)
    (ht : Transition rules session stream answer next rest) :
    Walks rules (past ++ (Placement.ofAnswer? answer).toList) next ∧
      (answer = .ok .finish → next.finished = true) ∧
      ∀ fault, answer ≠ .error (.grammar fault) := by
  cases ht with
  | ended hf => exact ⟨by simpa using h, fun _ => hf, by simp⟩
  | tooLong hf hl => exact ⟨by simpa using h, by simp, by simp⟩
  | unknown ho hs => exact absurd hs (h.observe_ne_error _)
  | partless ho hs hc =>
    have hwalks := h.observe hs
    obtain ⟨part, hp⟩ := hwalks.part
    refine ⟨by simpa using hwalks, by simp, ?_⟩
    rintro fault he
    cases he
    exact Rules.choosePart_ne_grammar hp fault (congrArg Prod.fst hc)
  | wordless ho hs hc hw =>
    have hwalks := h.observe hs
    obtain ⟨_, part, hp⟩ := hwalks.chosen hc
    refine ⟨?_, by simp, ?_⟩
    · rw [Placement.ofAnswer?_error, Option.toList_none, List.append_nil]
      exact hwalks.congr rfl rfl
    rintro fault he
    cases he
    exact Rules.nextWord_ne_grammar hp fault (congrArg Prod.fst hw)
  | finishes ho hs hc hw =>
    have hwalks := h.observe hs
    obtain ⟨hmem, part, hp⟩ := hwalks.chosen hc
    have hr := Rules.role_of_finish hp (congrArg Prod.fst hw)
    refine ⟨?_, fun _ => rfl, by simp⟩
    rw [Placement.ofAnswer?_finish, Option.toList_none, List.append_nil]
    exact { hwalks with ended := fun _ => ⟨_, hmem, hr ▸ Grammar.role_eq hp⟩ }
  | formless ho hs hc hw hf => exact absurd hf ((h.observe hs).render_ne_error hc _ _ _)
  | places ho hs hc hw hf =>
    have hwalks := h.observe hs
    obtain ⟨hmem, part, hp⟩ := hwalks.chosen hc
    obtain ⟨role, hobserves⟩ := observe_ok hs
    have hoffers := Rules.offers_of_word hp (congrArg Prod.fst hw)
    exact ⟨hwalks.placed hmem hoffers (hobserves.finished.trans ho.1), by simp, by simp⟩

theorem Reached.walks (h : Reached rules past session) : Walks rules past session := by
  induction h with
  | start => exact walks_start rules
  | step stream _ ih => exact (ih.transition (step_transition rules _ stream)).1

theorem codes_cursors (rules : Rules) (past : List Placement) :
    ((cursors rules past).map Cursor.code).reverse =
      rules.language.grammar.start :: past.map Placement.code := by
  simp [cursors, Function.comp_def, Placement.cursor]

/-- Whatever steps are taken from the start, the words placed form a walk of the grammar and come
from the vocabularies of their parts, the sentence ends only where it may end, and no step asks the
grammar for what it does not define. -/
theorem words_form_walk (rules : Rules) (steps : Nat) (stream : RandomStream) :
    let start := rules.language.grammar.start
    let words := (ofStart start).placements rules steps stream
    (start :: words.map Placement.code).IsChain
        (fun code successor => successor ∈ rules.language.grammar.successors code) ∧
      (∀ word ∈ words, rules.language.Offers word.code word.entry) ∧
      ∀ item ∈ (ofStart start).trace rules steps stream,
        (item.1 = .ok .finish → rules.language.grammar.CanEnd item.2.1.cursor.code) ∧
          ∀ fault, item.1 ≠ .error (.grammar fault) := by
  intro start words
  have hstart : Reached rules [] (ofStart start) := .start
  obtain ⟨last, hlast⟩ := hstart.placements steps stream
  refine ⟨?_, hlast.walks.offered, ?_⟩
  · rw [← codes_cursors rules words, List.isChain_reverse, List.isChain_map]
    exact hlast.walks.chain
  · intro item hmem
    obtain ⟨earlier, later, htrace⟩ := List.append_of_mem hmem
    obtain ⟨reached, rest, hreached, hitem⟩ := hstart.trace htrace
    obtain ⟨hwalks, hfinished, herror⟩ :=
      hreached.walks.transition (step_transition rules reached rest)
    rw [hitem]
    exact ⟨fun hend => hwalks.ended (hfinished hend), herror⟩

end Session

end SentenceWalk
