import Dialogue.Proofs.Closed
import Dialogue.Proofs.Perform

/-!
# The exits of a state

Each transition of a state stands for one way out of it: for an action of a guarded block, for the
action at the end of the body, or for the end itself where no action leads away.  A choice has an
exit for each option.  `State.exits` lists the transitions with their origins, and a run of the
machine leaves a state by one of them (`Oracle.LeavesBy`).

**Which exits are taken** (`compile_exits`).  For every exit of a state there are answers under
which the run that enters the state leaves it by just that exit, unless the exit stands in its
block behind another jump, choice or finish.

The body of a state is cut behind the first action that leads away.  Blocks are not: their
transitions are collected to the end.  So what stands in a block behind a finish is listed among
the transitions, and no run ever takes it (`jump_behind_finish_not_taken`).
-/

namespace Dialogue

/-- Where in a state a transition comes from; of a choice, the option `k`. -/
inductive Origin where
  /-- the action `j` of the block that stands at `i` -/
  | inBlock (i j k : Nat)
  /-- the last action of the body -/
  | last (k : Nat)
  /-- the end of the body -/
  | behind
  deriving DecidableEq, Repr

structure Exit where
  origin : Origin
  transition : Transition
  deriving DecidableEq, Repr

namespace Segment

/-- The exits out of the block that stands at `i`. -/
def blockExits (i : Nat) (condition : Condition) (block : List Action) : List Exit :=
  block.zipIdx.flatMap fun (a, j) =>
    (guardedTransitions condition [a]).zipIdx.map fun (t, k) => ⟨.inBlock i j k, t⟩

/-- The exits out of the guarded blocks of a body. -/
def guardedExits (body : List Action) : List Exit :=
  body.zipIdx.flatMap fun
    | (.conditional condition block, i) => blockExits i condition block
    | _ => []

/-- The exits at the end of a body, with the transitions `ts`. -/
def closingExits (body : List Action) (ts : List Transition) : List Exit :=
  ts.zipIdx.map fun (t, k) =>
    ⟨if body.getLast?.any Action.isTerminator then .last k else .behind, t⟩

end Segment

/-- The transitions of a state with their origins. -/
def State.exits (s : State) : List Exit :=
  Segment.guardedExits s.body ++
    Segment.closingExits s.body (s.transitions.drop (Segment.guardedExits s.body).length)

/-- Nothing leads away from a block of the body before the origin is reached. -/
def Origin.Reached (body : List Action) : Origin → Prop
  | .inBlock i j _ => ∀ condition block, body[i]? = some (.conditional condition block) →
      ∀ a ∈ block.take j, a.isTerminator = false
  | _ => True

/-- Where an action leads away to: to names, or to an end. -/
def Action.outlets : Action → List (Option String)
  | .jump target => [some target]
  | .choice options => options.map (some ·.target)
  | .finish => [none]
  | _ => []

namespace Oracle

/-- The run that enters the state arrives at the place `i` of its body. -/
def Arrives (o : Oracle) (m : Machine) (s : State) (i : Nat) (told : List Action) : Prop :=
  (o.onMachine m).next^[i] ⟨[], some (s, 0)⟩ = ⟨told, some (s, i)⟩

/-- The action leads away when it is performed as the last of `told`, a choice by its option
`k`. -/
def LeadsAway (o : Oracle) (told : List Action) (k : Nat) : Action → Prop
  | .jump _ | .finish => k = 0
  | .choice options => o.picks told options = k ∧ k < options.length
  | _ => False

/-- The run that enters the state leaves it by that exit: it performs the actions up to the
origin, the action there leads away, and the run goes where the transition says. -/
inductive LeavesBy (o : Oracle) (m : Machine) (s : State) : Exit → Prop where
  | inBlock {told block : List Action} {condition : Condition} {i j k : Nat} {a : Action}
      {t : Transition} (arrives : o.Arrives m s i told)
      (guarded : s.body[i]? = some (.conditional condition block)) (place : block[j]? = some a)
      (leads : o.LeadsAway (told ++ .conditional condition block :: block.take (j + 1)) k a)
      (next : (o.onMachine m).next ⟨told, some (s, i)⟩ =
        ⟨told ++ .conditional condition block :: block.take (j + 1),
          t.target?.bind m.enter?⟩) :
      LeavesBy o m s ⟨.inBlock i j k, t⟩
  | last {told : List Action} {i k : Nat} {a : Action} {t : Transition}
      (arrives : o.Arrives m s i told) (place : s.body[i]? = some a)
      (ends : i + 1 = s.body.length) (leads : o.LeadsAway (told ++ [a]) k a)
      (next : (o.onMachine m).next ⟨told, some (s, i)⟩ =
        ⟨told ++ [a], t.target?.bind m.enter?⟩) :
      LeavesBy o m s ⟨.last k, t⟩
  | behind {told : List Action} {t : Transition} (arrives : o.Arrives m s s.body.length told)
      (next : (o.onMachine m).next ⟨told, some (s, s.body.length)⟩ =
        ⟨told, t.target?.bind m.enter?⟩) :
      LeavesBy o m s ⟨.behind, t⟩

end Oracle

/-! ### Transitions and their origins -/

theorem flatMap_zipIdx {α β : Type} (f : α → List β) (l : List α) :
    l.zipIdx.flatMap (fun p => f p.1) = l.flatMap f := by
  conv_rhs => rw [← List.zipIdx_map_fst 0 l]
  rw [List.flatMap_map]

namespace Segment

theorem guardedTransitions_eq (condition : Condition) (block : List Action) :
    guardedTransitions condition block =
      block.flatMap fun a => guardedTransitions condition [a] := by
  simp only [guardedTransitions, List.flatMap_singleton]

/-- Without their origins the exits of a block are its transitions. -/
theorem map_transition_blockExits (i : Nat) (condition : Condition) (block : List Action) :
    (blockExits i condition block).map (·.transition) = guardedTransitions condition block := by
  rw [guardedTransitions_eq, ← flatMap_zipIdx, blockExits, List.map_flatMap]
  refine congrArg (List.flatMap · block.zipIdx) (funext fun p => ?_)
  rw [List.map_map]
  exact List.zipIdx_map_fst 0 _

theorem map_transition_guardedExits (body : List Action) :
    (guardedExits body).map (·.transition) = guarded body := by
  rw [guarded, ← flatMap_zipIdx, guardedExits, List.map_flatMap]
  refine congrArg (List.flatMap · body.zipIdx) (funext fun p => ?_)
  obtain ⟨a, i⟩ := p
  cases a with
  | conditional condition block => exact map_transition_blockExits i condition block
  | _ => rfl

theorem map_transition_closingExits (body : List Action) (ts : List Transition) :
    (closingExits body ts).map (·.transition) = ts := by
  rw [closingExits, List.map_map]
  exact List.zipIdx_map_fst 0 _

theorem exits_state (s : Segment) (next : Option String) :
    (s.state next).exits = guardedExits (cut s.actions).1 ++
      closingExits (cut s.actions).1 (closing (cut s.actions).1 next) := by
  have guards : (s.state next).transitions.drop (guardedExits (cut s.actions).1).length =
      closing (cut s.actions).1 next := by
    have length := congrArg List.length (map_transition_guardedExits (cut s.actions).1)
    rw [List.length_map] at length
    exact length ▸ List.drop_left
  exact congrArg (fun ts => guardedExits (cut s.actions).1 ++ closingExits (cut s.actions).1 ts)
    guards

/-- Without their origins the exits of a state are its transitions. -/
theorem map_transition_exits (s : Segment) (next : Option String) :
    (s.state next).exits.map (·.transition) = (s.state next).transitions := by
  rw [exits_state, List.map_append, map_transition_guardedExits, map_transition_closingExits]
  rfl

/-- Where an exit out of a block comes from. -/
theorem exists_of_mem_guardedExits {body : List Action} {e : Exit} (h : e ∈ guardedExits body) :
    ∃ i j k condition block a t, e = ⟨.inBlock i j k, t⟩ ∧
      body[i]? = some (.conditional condition block) ∧ block[j]? = some a ∧
        (guardedTransitions condition [a])[k]? = some t := by
  simp only [guardedExits, List.mem_flatMap] at h
  obtain ⟨⟨b, i⟩, hb, h⟩ := h
  cases b with
  | conditional condition block =>
      simp only [blockExits, List.mem_flatMap] at h
      obtain ⟨⟨a, j⟩, ha, h⟩ := h
      obtain ⟨⟨t, k⟩, ht, rfl⟩ := List.mem_map.mp h
      exact ⟨i, j, k, condition, block, a, t, rfl, mem_zipIdx_iff.mp hb, mem_zipIdx_iff.mp ha,
        List.mem_zipIdx_iff_getElem?.mp ht⟩
  | _ => cases h

/-- Where an exit at the end of a body comes from. -/
theorem closingExits_cases {body : List Action} {ts : List Transition} {e : Exit}
    (h : e ∈ closingExits body ts) :
    (∃ k a t, e = ⟨.last k, t⟩ ∧ body.getLast? = some a ∧ a.isTerminator = true ∧
        ts[k]? = some t) ∨
      ∃ t ∈ ts, e = ⟨.behind, t⟩ ∧ body.getLast?.any Action.isTerminator = false := by
  obtain ⟨⟨t, k⟩, ht, rfl⟩ := List.mem_map.mp h
  have listed := List.mem_zipIdx_iff_getElem?.mp ht
  cases away : body.getLast?.any Action.isTerminator with
  | true =>
      obtain ⟨a, last, ha⟩ := (Option.any_eq_true _ _).mp away
      exact Or.inl ⟨k, a, t, rfl, last, ha, listed⟩
  | false => exact Or.inr ⟨t, List.mem_of_getElem? listed, rfl, rfl⟩

/-- The transitions of an action in a block lead where the action does. -/
theorem map_target?_guardedTransitions (condition : Condition) {a : Action}
    (flat : ∀ c b, a ≠ .conditional c b) :
    (guardedTransitions condition [a]).map (·.target?) = a.outlets := by
  cases a with
  | conditional c b => exact absurd rfl (flat c b)
  | choice options =>
      simp [guardedTransitions, Action.targets, Action.outlets, Transition.target?]
  | _ => rfl

/-- The transitions of the last action of a body lead where the action does. -/
theorem map_target?_closing {body : List Action} {a : Action} (h : body.getLast? = some a)
    (ha : a.isTerminator = true) (next : Option String) :
    (closing body next).map (·.target?) = a.outlets := by
  unfold closing
  rw [h]
  cases a with
  | choice options => simp [Action.outlets, Transition.target?]
  | jump target => rfl
  | finish => rfl
  | _ => cases ha

end Segment

/-! ### Blocks -/

namespace Oracle

variable {o : Oracle} {told : List Action} {m : Machine} {s : State}

/-- A block is performed past what leads nowhere. -/
theorem performBlock_append {before : List Action} (h : ∀ a ∈ before, a.isTerminator = false)
    (told rest : List Action) : o.performBlock told (before ++ rest) =
      (before ++ (o.performBlock (told ++ before) rest).1,
        (o.performBlock (told ++ before) rest).2) := by
  induction before generalizing told with
  | nil => rw [List.append_nil]; rfl
  | cons a before ih =>
      obtain ⟨ha, hb⟩ := List.forall_mem_cons.mp h
      rw [List.cons_append, performBlock, exit_of_not_isTerminator ha]
      simp only [ih hb, List.append_assoc, List.cons_append, List.nil_append]

theorem performBlock_of_exit {a : Action} (h : o.exit (told ++ [a]) a ≠ .on)
    (rest : List Action) :
    o.performBlock told (a :: rest) = ([a], o.exit (told ++ [a]) a) := by
  rw [performBlock]
  cases e : o.exit (told ++ [a]) a with
  | on => exact absurd e h
  | _ => rfl

/-- An action that leads away is the last one of its block that is performed. -/
theorem performBlock_of_reached {block : List Action} {j : Nat} {a : Action}
    (place : block[j]? = some a) (reached : ∀ b ∈ block.take j, b.isTerminator = false)
    (h : o.exit (told ++ block.take (j + 1)) a ≠ .on) :
    o.performBlock told block =
      (block.take (j + 1), o.exit (told ++ block.take (j + 1)) a) := by
  have whole : block = block.take j ++ a :: block.drop (j + 1) := by
    obtain ⟨hj, rfl⟩ := List.getElem?_eq_some_iff.mp place
    rw [← List.drop_eq_getElem_cons hj, List.take_append_drop]
  have upTo : block.take (j + 1) = block.take j ++ [a] := by
    rw [List.take_add_one, place]
    rfl
  rw [upTo, ← List.append_assoc] at h ⊢
  calc o.performBlock told block
      = o.performBlock told (block.take j ++ a :: block.drop (j + 1)) := by rw [← whole]
    _ = _ := by rw [performBlock_append reached, performBlock_of_exit h]

/-- No more of a block is performed than up to a terminator. -/
theorem length_performBlock_le {block : List Action} {j : Nat} {a : Action}
    (h : block[j]? = some a) (ha : a.isTerminator = true) (told : List Action) :
    (o.performBlock told block).1.length ≤ j + 1 := by
  induction block generalizing j told with
  | nil => cases h
  | cons b rest ih =>
      rw [performBlock]
      cases e : o.exit (told ++ [b]) b with
      | on =>
          cases j with
          | zero =>
              cases h
              rw [isTerminator_of_exit e] at ha
              cases ha
          | succ j => simpa using ih h (told ++ [b])
      | _ => simp

/-! ### Through a body -/

/-- Past every place whose action leads on. -/
theorem arrives_of_on {i : Nat} (hi : i ≤ s.body.length)
    (on : ∀ n a, n < i → s.body[n]? = some a → o.perform (s.body.take n) a = ([a], .on)) :
    o.Arrives m s i (s.body.take i) := by
  induction i with
  | zero => rfl
  | succ i ih =>
      -- one more step, from the place before
      have before := ih (by omega) fun n a hn => on n a (by omega)
      have place := List.getElem?_eq_getElem (l := s.body) (i := i) (by omega)
      rw [Arrives, Function.iterate_succ_apply', before, next_onMachine place,
        on i _ (by omega) place, List.take_add_one, place]
      rfl

/-- The oracle that grants the block at the place `i` only, and picks the option `k` always. -/
def heading (i k : Nat) : Oracle where
  holds told _ := told.length == i + 1
  picks _ _ := k

theorem arrives_heading {i k : Nat} (unlabelled : ∀ name, .label name ∉ s.body)
    (hi : i ≤ s.body.length)
    (on : ∀ n a, n < i → s.body[n]? = some a → a.isTerminator = false) :
    (heading i k).Arrives m s i (s.body.take i) := by
  refine arrives_of_on hi fun n a hn place => ?_
  cases a with
  | label name => exact absurd (List.mem_of_getElem? place) (unlabelled name)
  | conditional condition block =>
      -- a block before `i` is asked when less is told, and denied
      have denied : (heading i k).holds (s.body.take n ++ [.conditional condition block])
          condition = false := by
        simp only [heading, List.length_append, List.length_take, List.length_singleton,
          beq_eq_false_iff_ne]
        omega
      rw [perform]
      simp only [denied, Bool.false_eq_true, if_false]
  | jump target => cases on n _ hn place
  | choice options => cases on n _ hn place
  | finish => cases on n _ hn place
  | _ => rfl

/-! ### Out of a body -/

theorem exit_ne_on {k : Nat} {a : Action} (h : o.LeadsAway told k a) : o.exit told a ≠ .on := by
  intro on
  cases a with
  | choice options =>
      obtain ⟨rfl, hk⟩ := h
      simp only [exit, List.getElem?_eq_getElem hk] at on
      cases on
  | jump target => cases on
  | finish => cases on
  | _ => exact h.elim

/-- An action leads away by each of its outlets. -/
theorem leadsAway_of_outlets {a : Action} {k : Nat} {goal : Option String}
    (h : a.outlets[k]? = some goal) (picks : ∀ told options, o.picks told options = k)
    (told : List Action) :
    o.LeadsAway told k a ∧ ∀ {σ : Type} (behind : σ) (enter? : String → Option σ),
      (o.exit told a).lead behind enter? = goal.bind enter? := by
  cases a with
  | jump target =>
      obtain ⟨rfl, rfl⟩ : k = 0 ∧ some target = goal := by
        simpa [Action.outlets, List.getElem?_singleton] using h
      exact ⟨rfl, fun _ _ => rfl⟩
  | finish =>
      obtain ⟨rfl, rfl⟩ : k = 0 ∧ none = goal := by
        simpa [Action.outlets, List.getElem?_singleton] using h
      exact ⟨rfl, fun _ _ => rfl⟩
  | choice options =>
      simp only [Action.outlets, List.getElem?_map, Option.map_eq_some_iff] at h
      obtain ⟨option, place, rfl⟩ := h
      refine ⟨⟨picks _ _, (List.getElem?_eq_some_iff.mp place).1⟩, fun _ _ => ?_⟩
      simp only [exit, picks, place]
      rfl
  | _ => cases h

/-! ### Exits that are taken -/

/-- An exit that is taken is reached. -/
theorem LeavesBy.reached {e : Exit} (h : o.LeavesBy m s e) : e.origin.Reached s.body := by
  cases h with
  | last arrives place ends leads next => exact trivial
  | behind arrives next => exact trivial
  | @inBlock told block condition i j k a t arrives guarded place leads next =>
      intro condition' block' guarded' b hb
      cases guarded.symm.trans guarded'
      -- a terminator before the origin would have ended the block too early
      by_contra hn
      obtain ⟨n, hn', earlier⟩ : ∃ n, n < j ∧ block[n]? = some b := by
        obtain ⟨n, hn', rfl⟩ := List.mem_take_iff_getElem.mp hb
        exact ⟨n, by omega, List.getElem?_eq_getElem _⟩
      have hj := (List.getElem?_eq_some_iff.mp place).1
      rw [next_onMachine guarded] at next
      have performed := List.append_cancel_left (congrArg Moment.told next)
      simp only [perform] at performed
      split at performed
      · have short := length_performBlock_le (o := o) earlier (Bool.not_eq_false _ ▸ hn)
          (told ++ [.conditional condition block])
        rw [List.tail_eq_of_cons_eq performed, List.length_take] at short
        omega
      · have := congrArg List.length performed
        simp only [List.length_cons, List.length_nil, List.length_take] at this
        omega

variable {i j k : Nat} {a : Action} {t : Transition}

/-- Into the block of the origin, and past what stands before it. -/
theorem leavesBy_inBlock {condition : Condition} {block : List Action}
    (unlabelled : ∀ name, .label name ∉ s.body)
    (on : ∀ n b, n < i → s.body[n]? = some b → b.isTerminator = false)
    (guarded : s.body[i]? = some (.conditional condition block)) (place : block[j]? = some a)
    (listed : (Segment.guardedTransitions condition [a])[k]? = some t)
    (flat : ∀ c b, a ≠ .conditional c b) (reached : ∀ b ∈ block.take j, b.isTerminator = false) :
    (heading i k).LeavesBy m s ⟨.inBlock i j k, t⟩ := by
  have hi := Nat.le_of_lt (List.getElem?_eq_some_iff.mp guarded).1
  have outlet : a.outlets[k]? = some t.target? := by
    rw [← Segment.map_target?_guardedTransitions condition flat, List.getElem?_map, listed]
    rfl
  have granted : (heading i k).holds (s.body.take i ++ [.conditional condition block])
      condition = true := by
    simp only [heading, List.length_append, List.length_take, List.length_singleton, beq_iff_eq]
    omega
  obtain ⟨leads, goes⟩ := leadsAway_of_outlets (o := heading i k) outlet (fun _ _ => rfl)
    (s.body.take i ++ .conditional condition block :: block.take (j + 1))
  have away := exit_ne_on leads
  -- what a block is told begins with the block itself
  rw [List.append_cons] at away
  refine .inBlock (arrives_heading unlabelled hi on) guarded place leads ?_
  rw [next_onMachine guarded]
  simp only [perform, granted, if_true, performBlock_of_reached place reached away]
  rw [← List.append_cons, goes]

/-- To the last action of the body, where it leads away. -/
theorem leavesBy_last {next : Option String} (unlabelled : ∀ name, .label name ∉ s.body)
    (ends : i + 1 = s.body.length)
    (on : ∀ n b, n < i → s.body[n]? = some b → b.isTerminator = false)
    (place : s.body[i]? = some a) (ha : a.isTerminator = true)
    (listed : (Segment.closing s.body next)[k]? = some t) :
    (heading i k).LeavesBy m s ⟨.last k, t⟩ := by
  have last : s.body.getLast? = some a := by
    rw [List.getLast?_eq_getElem?, ← ends, Nat.add_sub_cancel, place]
  have outlet : a.outlets[k]? = some t.target? := by
    rw [← Segment.map_target?_closing last ha next, List.getElem?_map, listed]
    rfl
  obtain ⟨leads, goes⟩ := leadsAway_of_outlets (o := heading i k) outlet (fun _ _ => rfl)
    (s.body.take i ++ [a])
  refine .last (arrives_heading unlabelled (by omega) on) place ends leads ?_
  have performed : (heading i k).perform (s.body.take i) a =
      ([a], (heading i k).exit (s.body.take i ++ [a]) a) := by
    cases a with
    | label name => cases ha
    | conditional condition block => cases ha
    | _ => rfl
  rw [next_onMachine place, performed, goes]

/-- Past everything, where no action leads away. -/
theorem leavesBy_behind (unlabelled : ∀ name, .label name ∉ s.body)
    (on : ∀ (n : Nat) (b : Action), s.body[n]? = some b → b.isTerminator = false)
    (last : s.transitions.getLast? = some t) (ht : t = .exhausted ∨ ∃ name, t = .fallthrough name) :
    (heading s.body.length k).LeavesBy m s ⟨.behind, t⟩ := by
  have arrives := arrives_heading (k := k) (m := m) unlabelled (Nat.le_refl _) fun n b _ => on n b
  refine .behind arrives ?_
  have ended : s.body[s.body.length]? = none := List.getElem?_eq_none (Nat.le_refl _)
  rcases ht with rfl | ⟨name, rfl⟩
  · exact next_onMachine_of_exhausted ended last
  · exact next_onMachine_of_fallthrough ended last

end Oracle

/-! ### Exits of compiled states -/

/-- Where nothing leads away at the end of a body, there is one transition behind it. -/
theorem Segment.closing_of_on {body : List Action} (next : Option String)
    (h : body.getLast?.any Action.isTerminator = false) :
    ∃ t, closing body next = [t] ∧ (t = .exhausted ∨ ∃ name, t = .fallthrough name) := by
  unfold closing
  split
  · next target last =>
      rw [last] at h
      cases h
  · next options last =>
      rw [last] at h
      cases h
  · next last =>
      rw [last] at h
      cases h
  · cases next with
    | none => exact ⟨_, rfl, Or.inl rfl⟩
    | some name => exact ⟨_, rfl, Or.inr ⟨name, rfl⟩⟩

section

variable {xs : List Action} {g : Segment} {next : Option String} {e : Exit}

theorem label_not_mem_body (hg : g ∈ Segment.ofActions xs) (name : String) :
    .label name ∉ (g.state next).body :=
  fun h => Segment.label_not_mem hg name (Segment.cut_subset _ h)

/-- An exit out of a block is taken, if nothing leads away from its block before. -/
theorem WellFormed.leavesBy_guardedExit (h : WellFormed xs) (hg : g ∈ Segment.ofActions xs)
    (he : e ∈ Segment.guardedExits (g.state next).body)
    (reached : e.origin.Reached (g.state next).body) (m : Machine) :
    ∃ o : Oracle, o.LeavesBy m (g.state next) e := by
  obtain ⟨i, j, k, condition, block, a, t, rfl, guarded, place, listed⟩ :=
    Segment.exists_of_mem_guardedExits he
  have hi := (List.getElem?_eq_some_iff.mp guarded).1
  have on : ∀ n b, n < i → (g.state next).body[n]? = some b → b.isTerminator = false :=
    fun n b hn hb => Segment.not_isTerminator_of_cut hb (Nat.lt_of_le_of_lt hn hi)
  have occurs : Occurs (.conditional condition block) xs :=
    .here (Segment.subset_of_mem hg (Segment.cut_subset _ (List.mem_of_getElem? guarded)))
  have flat := (h.flat condition block occurs a (.here (List.mem_of_getElem? place))).2
  exact ⟨_, Oracle.leavesBy_inBlock (label_not_mem_body hg) on guarded place listed flat
    (reached condition block guarded)⟩

/-- An exit at the end of a body is taken. -/
theorem leavesBy_closingExit (hg : g ∈ Segment.ofActions xs)
    (he : e ∈ Segment.closingExits (g.state next).body
      (Segment.closing (g.state next).body next)) (m : Machine) :
    ∃ o : Oracle, o.LeavesBy m (g.state next) e := by
  have on : ∀ (n : Nat) (b : Action), n + 1 < (g.state next).body.length →
      (g.state next).body[n]? = some b → b.isTerminator = false :=
    fun n b hn hb => Segment.not_isTerminator_of_cut hb hn
  rcases Segment.closingExits_cases he with ⟨k, a, t, rfl, last, ha, listed⟩ |
    ⟨t, listed, rfl, stays⟩
  · have ends : (g.state next).body.length - 1 + 1 = (g.state next).body.length :=
      Nat.sub_add_cancel (List.length_pos_of_mem (List.mem_of_getLast? last))
    rw [List.getLast?_eq_getElem?] at last
    exact ⟨_, Oracle.leavesBy_last (label_not_mem_body hg) ends (fun n b hn => on n b (by omega))
      last ha listed⟩
  · obtain ⟨t', closes, ht⟩ := Segment.closing_of_on next stays
    rw [closes, List.mem_singleton] at listed
    subst listed
    have last : (g.state next).transitions.getLast? = some t := by
      show (Segment.guarded _ ++ Segment.closing (g.state next).body next).getLast? = some t
      rw [closes, List.getLast?_concat]
    refine ⟨Oracle.heading _ 0, Oracle.leavesBy_behind (label_not_mem_body hg) ?_ last ht⟩
    intro n b hb
    by_cases hn : n + 1 < (g.state next).body.length
    · exact on n b hn hb
    · -- the last action, which leads nowhere
      have hl := (List.getElem?_eq_some_iff.mp hb).1
      have place : (g.state next).body.length - 1 = n := by omega
      rw [List.getLast?_eq_getElem?, place, hb] at stays
      exact stays

end

/-- **Every exit of a state is taken by some run**, unless it stands behind another of its
block; and the exits are the transitions with their origins. -/
theorem compile_exits {xs : List Action} {c : Compilation} (h : compile xs = .ok c) :
    ∀ s ∈ c.machine.states, s.exits.map (·.transition) = s.transitions ∧
      ∀ e ∈ s.exits, (∃ o : Oracle, o.LeavesBy c.machine s e) ↔ e.origin.Reached s.body := by
  obtain ⟨hw, rfl⟩ := compile_eq_ok_iff.mp h
  intro s hs
  obtain ⟨i, hi⟩ := List.getElem?_of_mem hs
  obtain ⟨g, hg, rfl⟩ := exists_segment hi
  have hg := List.mem_of_getElem? hg
  constructor
  · exact Segment.map_transition_exits g _
  · intro e he
    constructor
    · rintro ⟨o, ho⟩
      exact ho.reached
    · intro reached
      rw [Segment.exits_state] at he
      rcases List.mem_append.mp he with he | he
      · exact hw.leavesBy_guardedExit hg he reached _
      · exact leavesBy_closingExit hg he _

theorem sampleDialogue_exits :
    compile sampleDialogue = .ok (compileChecked sampleDialogue) ∧
      ∀ s ∈ (compileChecked sampleDialogue).machine.states,
        s.exits.map (·.transition) = s.transitions ∧ ∀ e ∈ s.exits,
          (∃ o : Oracle, o.LeavesBy (compileChecked sampleDialogue).machine s e) ↔
            e.origin.Reached s.body :=
  ⟨compile_sampleDialogue, compile_exits compile_sampleDialogue⟩

/-- A dialogue with a block that goes on behind its finish. -/
def finishedDialogue : List Action :=
  [.label "a", .conditional (.time .night) [.finish, .jump "a"]]

/-- The jump behind the finish has a transition, but it is the transition of no exit that a run
takes. -/
theorem jump_behind_finish_not_taken :
    compile finishedDialogue = .ok (compileChecked finishedDialogue) ∧
      ∃ s ∈ (compileChecked finishedDialogue).machine.states,
        .conditional (.time .night) "a" ∈ s.transitions ∧
          ∀ e ∈ s.exits, e.transition = .conditional (.time .night) "a" →
            ∀ o : Oracle, ¬ o.LeavesBy (compileChecked finishedDialogue).machine s e := by
  refine ⟨compile_of_isOk (by decide +kernel), _, List.mem_singleton_self _, ?_, ?_⟩
  · exact List.mem_cons_of_mem _ List.mem_cons_self
  · intro e he ht o ho
    have exits : e ∈ [⟨.inBlock 0 0 0, .conditionalFinish (.time .night)⟩,
        ⟨.inBlock 0 1 0, .conditional (.time .night) "a"⟩, ⟨.behind, .exhausted⟩] := he
    obtain rfl : e = ⟨.inBlock 0 1 0, .conditional (.time .night) "a"⟩ := by
      simp only [List.mem_cons, List.not_mem_nil, or_false] at exits
      rcases exits with rfl | rfl | rfl
      · cases ht
      · rfl
      · cases ht
    have reached := ho.reached (.time .night) [.finish, .jump "a"] rfl .finish
      List.mem_cons_self
    cases reached

end Dialogue
