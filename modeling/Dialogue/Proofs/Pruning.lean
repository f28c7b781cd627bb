import Dialogue.Proofs.Pieces

/-!
# Machines written out again

A machine is written out as a list of actions: each state gives its label, unless it is the start
state, and what it performs (`Machine.actions`).  For a machine that was compiled this is the list
it came from, without the actions that are never reached.

`compile_pruned`: what is written out compiles to the machine it was written from, and nothing in
it is never reached.  Labels do not stand among dead actions, so the shorter list is cut into
segments at the same places; and a state depends on the actions of its segment up to the first
terminator only.
-/

namespace Dialogue

/-- The stretch of a list that a state stands for.  The start state has no label. -/
def State.actions (s : State) : List Action :=
  (if s.id = startState then [] else [.label s.id]) ++ s.body

/-- The machine, written out as a list. -/
def Machine.actions (m : Machine) : List Action := m.states.flatMap State.actions

namespace Segment

/-! ### Segments without dead actions -/

/-- The segment without the actions that are never reached. -/
def pruned (s : Segment) : Segment := { s with actions := (cut s.actions).1 }

/-- What is kept is kept again, and nothing is cut off it. -/
theorem cut_cut (xs : List Action) : cut (cut xs).1 = ((cut xs).1, 0) := by
  induction xs with
  | nil => rfl
  | cons a xs ih =>
      cases ha : a.isTerminator with
      | true => rw [cut_terminator ha, cut_terminator ha]; rfl
      | false => rw [cut_cons ha, cut_cons ha, ih]

theorem state_pruned (s : Segment) (next : Option String) : s.pruned.state next = s.state next := by
  unfold state
  simp only [pruned, cut_cut]

theorem warning?_pruned (s : Segment) : s.pruned.warning? = none := by
  unfold warning?
  simp only [pruned, cut_cut, if_true]

theorem states_map_pruned (ss : List Segment) : states (ss.map pruned) = states ss := by
  induction ss with
  | nil => rfl
  | cons s ss ih =>
      have next : ((ss.map pruned).head?.map (·.id)) = ss.head?.map (·.id) := by
        cases ss <;> rfl
      rw [List.map_cons, states, next, state_pruned, ih, states]

theorem filterMap_warning?_pruned (ss : List Segment) :
    (ss.map pruned).filterMap warning? = [] := by
  refine List.filterMap_eq_nil_iff.mpr fun s hs => ?_
  obtain ⟨g, -, rfl⟩ := List.mem_map.mp hs
  exact g.warning?_pruned

/-! ### Segments joined and split -/

theorem split_lead {lead : List Action} (h : ∀ name, .label name ∉ lead) (ys : List Action) :
    split (lead ++ ys) = (lead ++ (split ys).1, (split ys).2) := by
  induction lead with
  | nil => rfl
  | cons a lead ih =>
      have unlabelled : a.label? = none := by
        cases ha : a.label? with
        | none => rfl
        | some name => exact absurd (label?_eq_some.mp ha ▸ List.mem_cons_self) (h name)
      rw [List.cons_append, split_cons unlabelled,
        ih fun name hm => h name (List.mem_cons_of_mem a hm), List.cons_append]

/-- **Splitting undoes joining**, where segments hold no labels. -/
theorem split_join {ss : List Segment} (hs : ∀ s ∈ ss, ∀ name, .label name ∉ s.actions) :
    split (join ss) = ([], ss) := by
  induction ss with
  | nil => rfl
  | cons s ss ih =>
      obtain ⟨here, later⟩ := List.forall_mem_cons.mp hs
      rw [join, split_label, split_lead here, ih later, List.append_nil]

/-- The states of labelled segments, written out. -/
theorem flatMap_actions_states {ss : List Segment} (h : ∀ s ∈ ss, s.id ≠ startState) :
    (states ss).flatMap State.actions = join (ss.map pruned) := by
  induction ss with
  | nil => rfl
  | cons s ss ih =>
      obtain ⟨hs, hss⟩ := List.forall_mem_cons.mp h
      have first : (s.state (ss.head?.map (·.id))).actions = .label s.id :: s.pruned.actions := by
        have named : (s.state (ss.head?.map (·.id))).id ≠ startState := hs
        rw [State.actions, if_neg named]
        rfl
      rw [states, List.flatMap_cons, first, ih hss, List.map_cons, join, List.cons_append]
      rfl

end Segment

namespace WellFormed

variable {xs : List Action}

theorem actions_eq (h : WellFormed xs) :
    (compileChecked xs).machine.actions =
      (Segment.cut (Segment.split xs).1).1 ++
        Segment.join ((Segment.split xs).2.map Segment.pruned) := by
  have written := Segment.flatMap_actions_states h.segment_ne_startState
  rw [Machine.actions, compileChecked]
  by_cases hl : (Segment.split xs).1 = []
  · rw [Segment.ofActions_of_lead_nil hl, written, hl]
    rfl
  · have start : ∀ next, (Segment.state ⟨startState, (Segment.split xs).1⟩ next).actions =
        (Segment.cut (Segment.split xs).1).1 := by
      intro next
      rw [State.actions, if_pos (show (Segment.state _ next).id = startState from rfl)]
      rfl
    rw [Segment.ofActions_of_lead_ne_nil hl, Segment.states, List.flatMap_cons, start, written]

theorem split_actions (h : WellFormed xs) :
    Segment.split (compileChecked xs).machine.actions =
      ((Segment.cut (Segment.split xs).1).1, (Segment.split xs).2.map Segment.pruned) := by
  have unlabelled := Segment.label_not_mem_split xs
  have segments : ∀ s ∈ (Segment.split xs).2.map Segment.pruned, ∀ name,
      .label name ∉ s.actions := by
    intro s hs name
    obtain ⟨g, hg, rfl⟩ := List.mem_map.mp hs
    exact fun hm => (unlabelled name).2 g hg (Segment.cut_subset _ hm)
  rw [h.actions_eq, Segment.split_lead fun name hm => (unlabelled name).1 (Segment.cut_subset _ hm),
    Segment.split_join segments, List.append_nil]

/-- **What is written out has the segments of the list, each without its dead actions.** -/
theorem ofActions_actions (h : WellFormed xs) :
    Segment.ofActions (compileChecked xs).machine.actions =
      (Segment.ofActions xs).map Segment.pruned := by
  have split := h.split_actions
  by_cases hl : (Segment.split xs).1 = []
  · have lead : (Segment.split (compileChecked xs).machine.actions).1 = [] := by
      rw [split, hl]
      rfl
    rw [Segment.ofActions_of_lead_nil lead, Segment.ofActions_of_lead_nil hl, split]
  · have lead : (Segment.split (compileChecked xs).machine.actions).1 ≠ [] := by
      rw [split]
      exact Segment.cut_ne_nil hl
    rw [Segment.ofActions_of_lead_ne_nil lead, Segment.ofActions_of_lead_ne_nil hl, split]
    rfl

/-! ### What is written out is well-formed -/

theorem labelNames_actions (h : WellFormed xs) :
    labelNames (compileChecked xs).machine.actions = labelNames xs := by
  rw [labelNames, labelNames, ← Segment.ids_split, ← Segment.ids_split, h.split_actions,
    List.map_map]
  rfl

theorem actions_subset (h : WellFormed xs) : (compileChecked xs).machine.actions ⊆ xs := by
  intro a ha
  obtain ⟨s, hs, ha⟩ := List.mem_flatMap.mp ha
  rcases List.mem_append.mp ha with label | body
  · -- a label that is written out is the id of a state
    by_cases start : s.id = startState
    · rw [if_pos start] at label
      cases label
    · rw [if_neg start, List.mem_singleton] at label
      have id : s.id ∈ (compileChecked xs).machine.stateIds.filter (· ≠ startState) :=
        List.mem_filter.mpr ⟨List.mem_map_of_mem hs, decide_eq_true start⟩
      rw [h.filter_stateIds] at id
      rw [label]
      exact mem_labelNames.mp id
  · exact body_subset hs body

/-- Where no name is repeated, a label has one place. -/
theorem place_unique_of_nodup (h : (labelNames xs).Nodup) {i j : Nat} {name : String}
    (hi : xs[i]? = some (.label name)) (hj : xs[j]? = some (.label name)) : i = j := by
  rw [List.Nodup, labelNames, List.pairwise_filterMap, List.pairwise_iff_getElem] at h
  refine place_unique (fun {i j} hij hi hj => ?_) hi hj
  obtain ⟨li, ei⟩ := List.getElem?_eq_some_iff.mp hi
  obtain ⟨lj, ej⟩ := List.getElem?_eq_some_iff.mp hj
  exact h i j li lj hij name (by rw [ei]; rfl) name (by rw [ej]; rfl) rfl

/-- References keep their labels, for no label is among the dead actions. -/
theorem actions (h : WellFormed xs) : WellFormed (compileChecked xs).machine.actions where
  nonempty := by
    intro e
    have segments := h.ofActions_actions
    rw [e] at segments
    exact Segment.ofActions_ne_nil h.nonempty (List.map_eq_nil_iff.mp segments.symm)
  named name hm := h.named name (h.actions_subset hm)
  distinct _ _ _ := place_unique_of_nodup (h.labelNames_actions ▸ h.labelNames_nodup)
  flat condition block hb := h.flat condition block (hb.mono h.actions_subset)
  offering ho := h.offering (ho.mono h.actions_subset)
  resolved a ha target ht := by
    have label := h.resolved a (ha.mono h.actions_subset) target ht
    rw [← mem_labelNames] at label ⊢
    rwa [h.labelNames_actions]

end WellFormed

/-! ### Compiling again -/

theorem WellFormed.compileChecked_actions {xs : List Action} (h : WellFormed xs) :
    compileChecked (compileChecked xs).machine.actions = ⟨(compileChecked xs).machine, []⟩ := by
  have again : compileChecked (compileChecked xs).machine.actions =
      { machine :=
          { initial := ((Segment.states ((Segment.ofActions xs).map Segment.pruned)).head?.map
              (·.id)).getD startState
            states := Segment.states ((Segment.ofActions xs).map Segment.pruned) }
        warnings := ((Segment.ofActions xs).map Segment.pruned).filterMap Segment.warning? } := by
    rw [compileChecked, h.ofActions_actions]
  rw [again, Segment.states_map_pruned, Segment.filterMap_warning?_pruned]
  rfl

/-- **A compiled machine, written out, compiles to itself**, and nothing in it is never reached.
What is written out is the list without the dead actions that were warned of. -/
theorem compile_pruned {xs : List Action} {c : Compilation} (h : compile xs = .ok c) :
    compile c.machine.actions = .ok ⟨c.machine, []⟩ ∧
      ∃ pieces, Accounted xs c pieces ∧
        xs = pieces.flatMap (fun p => p.state.actions ++ p.dead) ∧
          c.machine.actions = pieces.flatMap fun p => p.state.actions := by
  obtain ⟨hw, rfl⟩ := compile_eq_ok_iff.mp h
  refine ⟨compile_eq_ok_iff.mpr ⟨hw.actions, hw.compileChecked_actions⟩, _, hw.accounted, ?_, ?_⟩
  · exact hw.accounted.whole.symm
  · rw [Machine.actions, ← hw.accounted.states, List.flatMap_map]

/-- The line behind the choice is not written out. -/
theorem sampleDialogue_pruned :
    compile sampleDialogue = .ok (compileChecked sampleDialogue) ∧
      compile (compileChecked sampleDialogue).machine.actions =
        .ok ⟨(compileChecked sampleDialogue).machine, []⟩ ∧
      ∃ pieces, Accounted sampleDialogue (compileChecked sampleDialogue) pieces ∧
        sampleDialogue = pieces.flatMap (fun p => p.state.actions ++ p.dead) ∧
          (compileChecked sampleDialogue).machine.actions =
            pieces.flatMap fun p => p.state.actions :=
  ⟨compile_sampleDialogue, compile_pruned compile_sampleDialogue⟩

end Dialogue
