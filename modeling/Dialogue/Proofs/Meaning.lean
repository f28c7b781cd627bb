import Dialogue.Proofs.Closed
import Dialogue.Proofs.Perform

/-!
# Compiling keeps the meaning

The run of a list and the run of its machine perform the same actions in the same order, whatever
is answered, and one stops exactly if the other does (`compile_keeps_meaning`).

Places of the list and places of the states stand for each other (`Corresponds`) in two ways: both
stand before the same end of the list, or the list stands at a label and the machine at the
beginning of its state, where the list is one silent step behind.  From places that stand for
each other a step of the list is made by one step of the machine or by none (`follow_step`); the
end of a body without terminator is the label of the next state, which the machine passes by
falling through.
-/

namespace Dialogue

open Segment (ofActions join cut)

/-! ### Places of the list -/

theorem getElem?_of_drop {xs rest : List Action} {i : Nat} {a : Action}
    (h : xs.drop i = a :: rest) : xs[i]? = some a ∧ xs.drop (i + 1) = rest := by
  constructor
  · rw [← List.head?_drop, h, List.head?_cons]
  · rw [← List.tail_drop, h, List.tail_cons]

theorem drop_of_getElem? {xs : List Action} {i : Nat} {a : Action} (h : xs[i]? = some a) :
    xs.drop i = a :: xs.drop (i + 1) := by
  obtain ⟨hi, e⟩ := List.getElem?_eq_some_iff.mp h
  rw [List.drop_eq_getElem_cons hi, e]

/-- Behind a label of the list stands what its segment holds, and all later segments. -/
theorem Segment.exists_of_label {xs : List Action} {name : String} : ∀ {i : Nat},
    xs[i]? = some (.label name) → ∃ k g, (split xs).2[k]? = some g ∧ g.id = name ∧
      xs.drop (i + 1) = g.actions ++ join ((split xs).2.drop (k + 1)) := by
  induction xs with
  | nil => intro i h; cases h
  | cons a xs ih =>
      intro i h
      cases i with
      | zero =>
          cases h
          refine ⟨0, ⟨name, (split xs).1⟩, by rw [split_label]; rfl, rfl, ?_⟩
          rw [split_label]
          exact (join_split xs).symm
      | succ i =>
          obtain ⟨k, g, hk, hn, e⟩ := ih h
          cases ha : a.label? with
          | none => exact ⟨k, g, by rwa [split_cons ha], hn, by rwa [split_cons ha]⟩
          | some n =>
              obtain rfl := label?_eq_some.mp ha
              exact ⟨k + 1, g, hk, hn, e⟩

theorem Segment.exists_ofActions_of_label {xs : List Action} {name : String} {i : Nat}
    (h : xs[i]? = some (.label name)) : ∃ k g, (ofActions xs)[k]? = some g ∧ g.id = name ∧
      xs.drop (i + 1) = g.actions ++ join ((ofActions xs).drop (k + 1)) := by
  obtain ⟨k, g, hk, hn, e⟩ := exists_of_label h
  by_cases hl : (split xs).1 = []
  · rw [ofActions_of_lead_nil hl]
    exact ⟨k, g, hk, hn, e⟩
  · rw [ofActions_of_lead_ne_nil hl]
    exact ⟨k + 1, g, hk, hn, e⟩

theorem labelAt?_eq_some {xs : List Action} {name : String} {i : Nat}
    (h : labelAt? xs name = some i) : xs[i]? = some (.label name) := by
  obtain ⟨hi, e, -⟩ := List.findIdx?_eq_some_iff_getElem.mp h
  rw [List.getElem?_eq_getElem hi, Segment.label?_eq_some.mp (beq_iff_eq.mp e)]

theorem exists_labelAt? {xs : List Action} {name : String} (h : .label name ∈ xs) :
    ∃ i, labelAt? xs name = some i := by
  cases e : labelAt? xs name with
  | some i => exact ⟨i, rfl⟩
  | none =>
      have := List.findIdx?_eq_none_iff.mp e _ h
      simp [Action.label?] at this

/-! ### Places of the states -/

/-- The state of the `k`-th segment `g` of the list. -/
def stateOf (xs : List Action) (k : Nat) (g : Segment) : State :=
  g.state (((ofActions xs)[k + 1]?).map (·.id))

theorem Machine.state?_of_getElem? {m : Machine} (h : m.stateIds.Nodup) {k : Nat} {s : State}
    (hk : m.states[k]? = some s) : m.state? s.id = some s := by
  obtain ⟨hk', e⟩ := List.getElem?_eq_some_iff.mp hk
  rw [state?, List.find?_eq_some_iff_getElem]
  refine ⟨by simp, k, hk', e, fun j hj => ?_⟩
  have ne := List.pairwise_iff_getElem.mp h j k (by simp [stateIds]; omega) (by simpa [stateIds])
    hj
  simp only [stateIds, List.getElem_map] at ne
  simpa [e] using ne

/-- A machine is entered at the state of a segment by its id. -/
theorem WellFormed.enter? {xs : List Action} (h : WellFormed xs) {k : Nat} {g : Segment}
    (hk : (ofActions xs)[k]? = some g) :
    (compileChecked xs).machine.enter? g.id = some (stateOf xs k g, 0) := by
  have place : (compileChecked xs).machine.states[k]? = some (stateOf xs k g) := by
    show (Segment.states (ofActions xs))[k]? = _
    rw [Segment.states_getElem?, hk]
    rfl
  have found := Machine.state?_of_getElem? h.stateIds_nodup place
  rw [Machine.enter?, show g.id = (stateOf xs k g).id from rfl, found]
  rfl

/-! ### Places that stand for each other -/

/-- The place `i` of the list stands for a place of a state of its machine: both are followed by
the same end of the list, or the list stands at the label of the state. -/
inductive Corresponds (xs : List Action) : Nat → State × Nat → Prop where
  | within {k i j : Nat} {g : Segment} (hk : (ofActions xs)[k]? = some g)
      (hj : j ≤ (cut g.actions).1.length)
      (rest : xs.drop i = g.actions.drop j ++ join ((ofActions xs).drop (k + 1)))
      /- the end of a body is reached only where nothing is cut off -/
      (ended : j = (cut g.actions).1.length → (cut g.actions).1 = g.actions ∧
        ∀ a, g.actions.getLast? = some a → a.isTerminator = false) :
      Corresponds xs i (stateOf xs k g, j)
  | atLabel {k i : Nat} {g : Segment} (hk : (ofActions xs)[k]? = some g)
      (rest : xs.drop i = .label g.id :: (g.actions ++ join ((ofActions xs).drop (k + 1)))) :
      Corresponds xs i (stateOf xs k g, 0)

theorem Corresponds.begin {xs : List Action} {k i : Nat} {g : Segment}
    (hk : (ofActions xs)[k]? = some g)
    (rest : xs.drop i = g.actions ++ join ((ofActions xs).drop (k + 1))) :
    Corresponds xs i (stateOf xs k g, 0) := by
  refine .within hk (Nat.zero_le _) rest fun h => ?_
  have empty : (cut g.actions).1 = [] := List.length_eq_zero_iff.mp h.symm
  have nothing : g.actions = [] := by
    by_contra ne
    obtain ⟨a, ys, e⟩ := List.exists_cons_of_ne_nil ne
    rw [e] at empty
    cases ha : a.isTerminator with
    | true => rw [Segment.cut_terminator ha] at empty; cases empty
    | false => rw [Segment.cut_cons ha] at empty; cases empty
  rw [empty, nothing]
  exact ⟨rfl, nofun⟩

/-- A label of the list stands for the beginning of its state. -/
theorem corresponds_of_label {xs : List Action} (h : WellFormed xs) {name : String} {i : Nat}
    (hi : xs[i]? = some (.label name)) :
    ∃ t, (compileChecked xs).machine.enter? name = some t ∧ Corresponds xs i t := by
  obtain ⟨k, g, hk, rfl, e⟩ := Segment.exists_ofActions_of_label hi
  exact ⟨_, h.enter? hk, .atLabel hk (by rw [drop_of_getElem? hi, e])⟩

theorem corresponds_goto {xs : List Action} (h : WellFormed xs) {name : String}
    (hn : .label name ∈ xs) :
    Option.Rel (Corresponds xs) (labelAt? xs name) ((compileChecked xs).machine.enter? name) := by
  obtain ⟨i, hi⟩ := exists_labelAt? hn
  obtain ⟨t, ht, hc⟩ := corresponds_of_label h (labelAt?_eq_some hi)
  rw [hi, ht]
  exact .some hc

theorem corresponds_start {xs : List Action} (h : WellFormed xs) :
    Option.Rel (Corresponds xs) (some 0)
      ((compileChecked xs).machine.enter? (compileChecked xs).machine.initial) := by
  obtain ⟨a, rest, e⟩ := List.exists_cons_of_ne_nil h.nonempty
  have first := h.closed.initial
  rw [stateIds_compileChecked, List.head?_map, Option.map_eq_some_iff] at first
  obtain ⟨g, hg, hi⟩ := first
  rw [List.head?_eq_getElem?] at hg
  by_cases hl : (Segment.split xs).1 = []
  · obtain ⟨name, ys, rfl⟩ := (Segment.lead_eq_nil_iff.mp hl).resolve_left h.nonempty
    obtain ⟨t, ht, hc⟩ := corresponds_of_label h (i := 0) rfl
    rw [Segment.ofActions_of_lead_nil hl, Segment.split_label] at hg
    cases hg
    rw [← hi, ht]
    exact .some hc
  · have whole := Segment.join_split xs
    rw [← hi, h.enter? hg]
    refine .some (.begin hg ?_)
    rw [Segment.ofActions_of_lead_ne_nil hl] at hg ⊢
    cases hg
    exact whole.symm

/-! ### Steps -/

variable {xs : List Action} {o : Oracle} {told : List Action}

/-- What is performed of a body is performed of the list, and leads to corresponding places. -/
theorem follow_action (h : WellFormed xs) {i : Nat} {a : Action} (ha : a ∈ xs) {t : State × Nat}
    (on : (o.perform told a).2 = .on → Corresponds xs (i + 1) t) :
    Option.Rel (Corresponds xs) ((o.perform told a).2.lead (i + 1) (labelAt? xs))
      ((o.perform told a).2.lead t (compileChecked xs).machine.enter?) := by
  cases e : (o.perform told a).2 with
  | on => exact .some (on e)
  | stop => exact .none
  | goto name =>
      obtain ⟨b, hb, hn⟩ := Oracle.ownTargets_of_perform e
      have occurs : Occurs b xs := hb.mono (by simpa using ha)
      exact corresponds_goto h (h.resolved b occurs name hn)

/-- The last transition of a state, where its body does not end in a terminator. -/
theorem getLast?_transitions {g : Segment} {next : Option String}
    (h : ∀ a, (cut g.actions).1.getLast? = some a → a.isTerminator = false) :
    (g.state next).transitions.getLast? =
      some (match next with | some id => .fallthrough id | none => .exhausted) := by
  have closing : Segment.closing (cut g.actions).1 next =
      [match next with | some id => .fallthrough id | none => .exhausted] := by
    unfold Segment.closing
    split
    · next target e => exact absurd (h _ e) (by simp [Action.isTerminator])
    · next options e => exact absurd (h _ e) (by simp [Action.isTerminator])
    · next e => exact absurd (h _ e) (by simp [Action.isTerminator])
    · rfl
  simp only [Segment.state, closing, List.getLast?_concat]

/-- An action of the body is performed by both. -/
theorem follow_within (h : WellFormed xs) {k i j : Nat} {g : Segment}
    (hk : (ofActions xs)[k]? = some g) (hj : j < (cut g.actions).1.length)
    (rest : xs.drop i = g.actions.drop j ++ join ((ofActions xs).drop (k + 1))) :
    Process.Agree (Corresponds xs) ((o.onList xs).next ⟨told, some i⟩)
      ((o.onMachine (compileChecked xs).machine).next ⟨told, some (stateOf xs k g, j)⟩) := by
  obtain ⟨a, kept⟩ : ∃ a, (stateOf xs k g).body[j]? = some a := ⟨_, List.getElem?_eq_getElem hj⟩
  rw [drop_of_getElem? (Segment.getElem?_of_cut kept), List.cons_append] at rest
  obtain ⟨here, behind⟩ := getElem?_of_drop rest
  rw [Oracle.next_onList here, Oracle.next_onMachine kept]
  refine ⟨rfl, follow_action h (List.mem_of_getElem? here) fun on => ?_⟩
  refine .within hk hj behind fun last => ?_
  -- the action leads on, so it is no terminator, and nothing is cut off behind it
  have final : (cut g.actions).1.getLast? = some a := by
    rw [List.getLast?_eq_getElem?, ← last, Nat.add_sub_cancel]
    exact kept
  have all := Segment.cut_eq_self final (Oracle.isTerminator_of_perform on)
  refine ⟨all, fun b hb => ?_⟩
  rw [← all, final] at hb
  cases hb
  exact Oracle.isTerminator_of_perform on

/-- Behind a segment of which nothing is cut off, the machine falls through to the state of the
label that the list stands at. -/
theorem follow_end (h : WellFormed xs) {k i : Nat} {g : Segment}
    (all : (cut g.actions).1 = g.actions)
    (last : ∀ a, g.actions.getLast? = some a → a.isTerminator = false)
    (rest : xs.drop i = join ((ofActions xs).drop (k + 1))) :
    Process.Agree (Corresponds xs) ((o.onList xs).next ⟨told, some i⟩)
      ((o.onMachine (compileChecked xs).machine).next
        ⟨told, some (stateOf xs k g, (cut g.actions).1.length)⟩) := by
  have past : (stateOf xs k g).body[(cut g.actions).1.length]? = none :=
    List.getElem?_eq_none (Nat.le_refl _)
  have transition : (stateOf xs k g).transitions.getLast? =
      some (match ((ofActions xs)[k + 1]?).map (·.id) with
        | some id => .fallthrough id
        | none => .exhausted) := getLast?_transitions (by rwa [all])
  cases hn : (ofActions xs)[k + 1]? with
  | none =>
      -- no label is left, so the list is at its end as well
      rw [List.drop_eq_nil_of_le (List.getElem?_eq_none_iff.mp hn)] at rest
      have past' : xs[i]? = none := by
        rw [← List.head?_drop, rest]
        rfl
      rw [hn] at transition
      rw [Oracle.next_onList_of_end past', Oracle.next_onMachine_of_exhausted past transition]
      exact ⟨rfl, .none⟩
  | some g' =>
      obtain ⟨hk', e⟩ := List.getElem?_eq_some_iff.mp hn
      rw [List.drop_eq_getElem_cons hk', e, join] at rest
      obtain ⟨here, behind⟩ := getElem?_of_drop rest
      rw [hn] at transition
      rw [Oracle.next_onList here, Oracle.next_onMachine_of_fallthrough past transition,
        h.enter? hn]
      exact ⟨List.append_nil told, .some (.begin hn behind)⟩

/-- **A step of the list, followed** by one step of the machine or by none. -/
theorem follow_step (h : WellFormed xs) {i : Nat} {t : State × Nat} (hc : Corresponds xs i t) :
    ∃ k, Process.Agree (Corresponds xs) ((o.onList xs).next ⟨told, some i⟩)
      ((o.onMachine (compileChecked xs).machine).next^[k] ⟨told, some t⟩) := by
  cases hc with
  | @atLabel k _ g hk rest =>
      obtain ⟨here, behind⟩ := getElem?_of_drop rest
      refine ⟨0, ?_⟩
      rw [Oracle.next_onList here]
      exact ⟨List.append_nil told, .some (.begin hk behind)⟩
  | @within k _ j g hk hj rest ended =>
      refine ⟨1, ?_⟩
      rw [Function.iterate_one]
      rcases Nat.lt_or_eq_of_le hj with lt | rfl
      · exact follow_within h hk lt rest
      · obtain ⟨all, last⟩ := ended rfl
        rw [all, List.drop_length, List.nil_append] at rest
        exact follow_end h all last rest

theorem simulation (h : WellFormed xs) (o : Oracle) :
    Process.Simulation (o.onList xs) (o.onMachine (compileChecked xs).machine)
      (Corresponds xs) where
  start := corresponds_start h
  step _ _ _ hc := follow_step h hc

/-- **Compiling keeps the meaning.**  Whatever an oracle answers, what the list and its machine
perform first is the same, however much of it is asked for; there is one answer to that; and one
of the two runs stops exactly if the other does. -/
theorem compile_keeps_meaning {c : Compilation} (h : compile xs = .ok c) (o : Oracle) :
    (∀ n out, (o.onList xs).Tells n out ↔ (o.onMachine c.machine).Tells n out) ∧
    (∀ n, ∃ out, (o.onList xs).Tells n out ∧ ∀ out', (o.onList xs).Tells n out' → out' = out) ∧
    ((o.onList xs).Stops ↔ (o.onMachine c.machine).Stops) := by
  obtain ⟨hw, rfl⟩ := compile_eq_ok_iff.mp h
  have total := Oracle.exists_tells_onList o xs
  refine ⟨fun n out => (simulation hw o).tells_iff total, fun n => ?_,
    (simulation hw o).stops_iff total⟩
  obtain ⟨out, ht⟩ := total n
  exact ⟨out, ht, fun out' ht' => ht'.unique ht⟩

theorem sampleDialogue_keeps_meaning :
    let o : Oracle := { holds := fun told _ => told.length == 2, picks := fun _ _ => 1 }
    compile sampleDialogue = .ok (compileChecked sampleDialogue) ∧
      ∀ n out, (o.onList sampleDialogue).Tells n out ↔
        (o.onMachine (compileChecked sampleDialogue).machine).Tells n out :=
  ⟨compile_sampleDialogue, (compile_keeps_meaning compile_sampleDialogue _).1⟩

end Dialogue
