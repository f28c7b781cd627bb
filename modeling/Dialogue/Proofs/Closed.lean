import Dialogue.Proofs.Accepted
import Dialogue.Proofs.Segments
import Mathlib.Data.List.Nodup

/-!
# Machines that come from lists

What is compiled is closed: every reference, in a body or in a transition, leads to one state of
the machine, and never to the start state (`Closed`).  A state is left in the middle of its body
through guarded blocks only, and at the end in one way (`Closing`), which is told by the last
action of the body and by the state that stands behind.

References are checked for the whole list, and what a segment keeps stands in the list; so the
labels of `WellFormed.resolved` are the ids that a machine needs.
-/

namespace Dialogue

/-- A transition out of the middle of a body. -/
def Transition.isGuarded : Transition → Bool
  | .conditional _ _ | .conditionalFinish _ => true
  | _ => false

/-- How the `i`-th of the states is left at the end of its body. -/
inductive Closing (states : List State) (i : Nat) (body : List Action) :
    List Transition → Prop where
  | jump {target : String} (h : body.getLast? = some (.jump target)) :
      Closing states i body [.jump target]
  | choice {options : List ChoiceOption} (h : body.getLast? = some (.choice options))
      (offers : options ≠ []) :
      Closing states i body (options.map fun o => .choice o.text o.target)
  | finish (h : body.getLast? = some .finish) : Closing states i body [.finish]
  | fallthrough {next : State} (h : ∀ a, body.getLast? = some a → a.isTerminator = false)
      (behind : states[i + 1]? = some next) : Closing states i body [.fallthrough next.id]
  | exhausted (h : ∀ a, body.getLast? = some a → a.isTerminator = false)
      (last : states.length = i + 1) : Closing states i body [.exhausted]

/-- The name leads to one state, which is not the start state. -/
def Machine.Reaches (m : Machine) (name : String) : Prop :=
  m.stateIds.count name = 1 ∧ name ≠ startState

/-- The machine is closed, and its states are those of the list `xs`. -/
structure Closed (xs : List Action) (m : Machine) : Prop where
  occupied : m.states ≠ []
  distinct : m.stateIds.Nodup
  initial : m.stateIds.head? = some m.initial
  /-- there is a start state unless the list opens with a label -/
  ids : (∃ name rest, xs = .label name :: rest) ∧ m.stateIds = labelNames xs ∨
    (¬ ∃ name rest, xs = .label name :: rest) ∧ m.stateIds = startState :: labelNames xs
  targets : ∀ s ∈ m.states, ∀ t ∈ s.transitions, ∀ name, t.target? = some name → m.Reaches name
  references : ∀ s ∈ m.states, ∀ a, Occurs a s.body → ∀ name ∈ a.ownTargets, m.Reaches name
  transitions : ∀ (i : Nat) (s : State), m.states[i]? = some s → ∃ guards closing,
    s.transitions = guards ++ closing ∧ (∀ t ∈ guards, t.isGuarded = true) ∧
      Closing m.states i s.body closing

/-! ### Ids -/

theorem stateIds_compileChecked (xs : List Action) :
    (compileChecked xs).machine.stateIds = (Segment.ofActions xs).map (·.id) :=
  Segment.ids_states _

theorem stateIds_eq {xs : List Action} (h : xs ≠ []) :
    (∃ name rest, xs = .label name :: rest) ∧
        (compileChecked xs).machine.stateIds = labelNames xs ∨
      (¬ ∃ name rest, xs = .label name :: rest) ∧
        (compileChecked xs).machine.stateIds = startState :: labelNames xs := by
  have ids := Segment.ids_split xs
  rw [stateIds_compileChecked]
  by_cases hl : (Segment.split xs).1 = []
  · refine Or.inl ⟨(Segment.lead_eq_nil_iff.mp hl).resolve_left h, ?_⟩
    rw [Segment.ofActions_of_lead_nil hl, ids, labelNames]
  · refine Or.inr ⟨fun ho => hl (Segment.lead_eq_nil_iff.mpr (Or.inr ho)), ?_⟩
    rw [Segment.ofActions_of_lead_ne_nil hl, List.map_cons, ids, labelNames]

theorem WellFormed.labelNames_nodup {xs : List Action} (h : WellFormed xs) :
    (labelNames xs).Nodup := by
  rw [List.Nodup, labelNames, List.pairwise_filterMap, List.pairwise_iff_getElem]
  intro i j hi hj hij name hn name' hn' e
  subst e
  have hi' := List.getElem?_eq_getElem hi
  have hj' := List.getElem?_eq_getElem hj
  rw [Segment.label?_eq_some.mp hn] at hi'
  rw [Segment.label?_eq_some.mp hn'] at hj'
  exact absurd (h.distinct i j name hi' hj') (Nat.ne_of_lt hij)

/-- No label has the name of the start state. -/
theorem WellFormed.ne_startState {xs : List Action} (h : WellFormed xs) {name : String}
    (hn : .label name ∈ xs) : name ≠ startState := by
  rintro rfl
  exact (h.named _ hn).2 isReserved_startState

/-- So only the segment in front of all labels gives the start state. -/
theorem WellFormed.segment_ne_startState {xs : List Action} (h : WellFormed xs) :
    ∀ s ∈ (Segment.split xs).2, s.id ≠ startState := by
  intro s hs
  refine h.ne_startState (mem_labelNames.mp ?_)
  rw [labelNames, ← Segment.ids_split]
  exact List.mem_map_of_mem hs

theorem WellFormed.stateIds_nodup {xs : List Action} (h : WellFormed xs) :
    (compileChecked xs).machine.stateIds.Nodup := by
  rcases stateIds_eq h.nonempty with ⟨-, e⟩ | ⟨-, e⟩
  · rw [e]
    exact h.labelNames_nodup
  · rw [e, List.nodup_cons]
    exact ⟨fun hm => h.ne_startState (mem_labelNames.mp hm) rfl, h.labelNames_nodup⟩

theorem mem_stateIds_of_label {xs : List Action} (h : xs ≠ []) {name : String}
    (hn : .label name ∈ xs) : name ∈ (compileChecked xs).machine.stateIds := by
  rcases stateIds_eq h with ⟨-, e⟩ | ⟨-, e⟩
  · rw [e]
    exact mem_labelNames.mpr hn
  · rw [e]
    exact List.mem_cons_of_mem _ (mem_labelNames.mpr hn)

/-- **Labels are reached.** -/
theorem WellFormed.reaches {xs : List Action} (h : WellFormed xs) {name : String}
    (hn : .label name ∈ xs) : (compileChecked xs).machine.Reaches name :=
  ⟨List.count_eq_one_of_mem h.stateIds_nodup (mem_stateIds_of_label h.nonempty hn),
    h.ne_startState hn⟩

/-! ### Bodies and transitions -/

/-- A state comes from the segment at its place. -/
theorem exists_segment {xs : List Action} {i : Nat} {s : State}
    (h : (compileChecked xs).machine.states[i]? = some s) :
    ∃ g, (Segment.ofActions xs)[i]? = some g ∧
      s = g.state (((Segment.ofActions xs)[i + 1]?).map (·.id)) := by
  have h' : (Segment.states (Segment.ofActions xs))[i]? = some s := h
  rw [Segment.states_getElem?, Option.map_eq_some_iff] at h'
  obtain ⟨g, hg, e⟩ := h'
  exact ⟨g, hg, e.symm⟩

theorem body_subset {xs : List Action} {s : State}
    (h : s ∈ (compileChecked xs).machine.states) : s.body ⊆ xs := by
  obtain ⟨i, hi⟩ := List.getElem?_of_mem h
  obtain ⟨g, hg, rfl⟩ := exists_segment hi
  exact fun a ha => Segment.subset_of_mem (List.mem_of_getElem? hg) (Segment.cut_subset _ ha)

/-- What leads out of the guarded blocks of a body leads where an action of a block refers to. -/
theorem guarded_target {body : List Action} {t : Transition} (h : t ∈ Segment.guarded body) :
    t.isGuarded = true ∧ ∀ name, t.target? = some name →
      ∃ condition block a, .conditional condition block ∈ body ∧ a ∈ block ∧ name ∈ a.targets := by
  simp only [Segment.guarded, List.mem_flatMap] at h
  obtain ⟨b, hb, h⟩ := h
  cases b with
  | conditional condition block =>
      simp only [Segment.guardedTransitions, List.mem_flatMap] at h
      obtain ⟨a, ha, h⟩ := h
      cases a with
      | finish =>
          cases List.mem_singleton.mp h
          refine ⟨rfl, fun name e => ?_⟩
          cases e
      | checkpoint name => cases h
      | _ =>
          obtain ⟨target, ht, rfl⟩ := List.mem_map.mp h
          refine ⟨rfl, fun name e => ?_⟩
          cases e
          exact ⟨condition, block, _, hb, ha, ht⟩
  | _ => cases h

theorem closing_target {body : List Action} {next : Option String} {t : Transition}
    (h : t ∈ Segment.closing body next) {name : String} (e : t.target? = some name) :
    (∃ a ∈ body, name ∈ a.ownTargets) ∨ next = some name := by
  unfold Segment.closing at h
  split at h
  · next target hb =>
      cases List.mem_singleton.mp h
      cases e
      exact Or.inl ⟨_, List.mem_of_getLast? hb, by simp [Action.ownTargets]⟩
  · next options hb =>
      obtain ⟨o, ho, rfl⟩ := List.mem_map.mp h
      cases e
      exact Or.inl ⟨_, List.mem_of_getLast? hb, List.mem_map.mpr ⟨o, ho, rfl⟩⟩
  · cases List.mem_singleton.mp h
    cases e
  · cases next with
    | none =>
        cases List.mem_singleton.mp h
        cases e
    | some id =>
        cases List.mem_singleton.mp h
        cases e
        exact Or.inr rfl

/-- The last transitions of the `i`-th state close it. -/
theorem closing_closes {states : List State} {i : Nat} {body : List Action}
    (hi : i < states.length) (offers : ∀ options, .choice options ∈ body → options ≠ []) :
    Closing states i body (Segment.closing body ((states[i + 1]?).map (·.id))) := by
  unfold Segment.closing
  split
  · next target hb => exact .jump hb
  · next options hb => exact .choice hb (offers options (List.mem_of_getLast? hb))
  · next hb => exact .finish hb
  · next hj hc hf =>
      have on : ∀ a, body.getLast? = some a → a.isTerminator = false := by
        intro a ha
        cases a with
        | jump target => exact absurd ha (hj target)
        | choice options => exact absurd ha (hc options)
        | finish => exact absurd ha hf
        | _ => rfl
      cases e : states[i + 1]? with
      | none =>
          have := List.getElem?_eq_none_iff.mp e
          exact .exhausted on (by omega)
      | some next => exact .fallthrough on e

/-- The id behind a state is the id of a label. -/
theorem next_is_label {xs : List Action} (h : xs ≠ []) {i : Nat} {name : String}
    (e : ((compileChecked xs).machine.states[i + 1]?).map (·.id) = some name) :
    .label name ∈ xs := by
  have ids : (compileChecked xs).machine.stateIds[i + 1]? = some name := by
    rw [Machine.stateIds, List.getElem?_map, e]
  rcases stateIds_eq h with ⟨-, e'⟩ | ⟨-, e'⟩
  · rw [e'] at ids
    exact mem_labelNames.mp (List.mem_of_getElem? ids)
  · rw [e', List.getElem?_cons_succ] at ids
    exact mem_labelNames.mp (List.mem_of_getElem? ids)

/-- The transitions of a state, read off its body and the state behind it. -/
theorem transitions_eq {xs : List Action} {i : Nat} {s : State}
    (h : (compileChecked xs).machine.states[i]? = some s) :
    s.transitions = Segment.guarded s.body ++
      Segment.closing s.body (((compileChecked xs).machine.states[i + 1]?).map (·.id)) := by
  obtain ⟨g, hg, rfl⟩ := exists_segment h
  have behind : ((compileChecked xs).machine.states[i + 1]?).map (·.id) =
      ((Segment.ofActions xs)[i + 1]?).map (·.id) := by
    rw [← List.getElem?_map, ← List.getElem?_map]
    exact congrArg (·[i + 1]?) (stateIds_compileChecked xs)
  rw [behind]
  rfl

namespace WellFormed

theorem reference_reaches {xs : List Action} (h : WellFormed xs) {s : State}
    (hs : s ∈ (compileChecked xs).machine.states) {a : Action} (ha : Occurs a s.body)
    {name : String} (hn : name ∈ a.ownTargets) : (compileChecked xs).machine.Reaches name :=
  h.reaches (h.resolved a (ha.mono (body_subset hs)) name hn)

theorem target_reaches {xs : List Action} (h : WellFormed xs) {s : State}
    (hs : s ∈ (compileChecked xs).machine.states) {t : Transition} (ht : t ∈ s.transitions)
    {name : String} (e : t.target? = some name) : (compileChecked xs).machine.Reaches name := by
  obtain ⟨i, hi⟩ := List.getElem?_of_mem hs
  rw [transitions_eq hi, List.mem_append] at ht
  rcases ht with ht | ht
  · obtain ⟨c, b, a, hb, ha, hn⟩ := (guarded_target ht).2 name e
    -- blocks hold no blocks, so what the action refers to it refers to itself
    have flat := (h.flat c b (.here (body_subset hs hb)) a (.here ha)).2
    rw [Action.targets_eq_ownTargets flat] at hn
    exact h.reference_reaches hs (.inside hb (.here ha)) hn
  · rcases closing_target ht e with ⟨a, ha, hn⟩ | hn
    · exact h.reference_reaches hs (.here ha) hn
    · exact h.reaches (next_is_label h.nonempty hn)

theorem closed {xs : List Action} (h : WellFormed xs) :
    Closed xs (compileChecked xs).machine where
  occupied := states_compileChecked_ne_nil h.nonempty
  distinct := h.stateIds_nodup
  initial := by
    have first : (compileChecked xs).machine.stateIds.head? =
        (compileChecked xs).machine.states.head?.map (·.id) := List.head?_map
    cases e : (compileChecked xs).machine.states with
    | nil => exact absurd e (states_compileChecked_ne_nil h.nonempty)
    | cons s ss =>
        have initial : (compileChecked xs).machine.initial =
            ((compileChecked xs).machine.states.head?.map (·.id)).getD startState := rfl
        rw [first, initial, e]
        rfl
  ids := stateIds_eq h.nonempty
  targets s hs t ht name e := h.target_reaches hs ht e
  references s hs a ha name hn := h.reference_reaches hs ha hn
  transitions i s hi := by
    have hs := List.mem_of_getElem? hi
    refine ⟨_, _, transitions_eq hi, fun t ht => (guarded_target ht).1, ?_⟩
    refine closing_closes (List.getElem?_eq_some_iff.mp hi).1 fun options ho e => ?_
    subst e
    exact h.offering (.here (body_subset hs ho))

end WellFormed

/-- **Every machine that is compiled is closed.** -/
theorem compile_closed {xs : List Action} {c : Compilation} (h : compile xs = .ok c) :
    Closed xs c.machine := by
  obtain ⟨hw, rfl⟩ := compile_eq_ok_iff.mp h
  exact hw.closed

/-- A dialogue with a lead, a guarded jump, an action behind a choice, and a state that is fallen
through to. -/
def sampleDialogue : List Action :=
  [.say none "Still up?" none, .conditional (.time .night) [.jump "bed"],
    .choice [⟨"Work", "desk"⟩, ⟨"Sleep", "bed"⟩], .idleChats,
    .label "desk", .checkpoint "desk", .label "bed", .finish]

theorem compile_sampleDialogue :
    compile sampleDialogue = .ok (compileChecked sampleDialogue) :=
  compile_of_isOk (by decide +kernel)

theorem sampleDialogue_closed :
    compile sampleDialogue = .ok (compileChecked sampleDialogue) ∧
      Closed sampleDialogue (compileChecked sampleDialogue).machine :=
  ⟨compile_sampleDialogue, compile_closed compile_sampleDialogue⟩

end Dialogue
