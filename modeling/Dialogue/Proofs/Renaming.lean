import Dialogue.Proofs.Pieces
import Mathlib.Logic.Equiv.Basic

/-!
# No label name is special

Labels are told apart by their names, and a name must be a word that is not reserved; nothing else
of a name counts.  So where the labels of a list, and the references to them, get other names that
are told apart in the same way (`IsRenaming`), the list is compiled, or refused, as before
(`compile_rename`): the machine is the same up to the names (`Machine.rename`), and so are the
warnings and the fault.

The checks are followed through both lists at once.  For a list that passes them the segments are
renamed one by one; the start state keeps its name, for no label has that name before or after.
-/

namespace Dialogue

/-- A change of names by which no two names fall together, and which keeps apart words from other
names and reserved names from the rest. -/
structure IsRenaming (r : String → String) : Prop where
  injective : Function.Injective r
  word : ∀ name, IsWord (r name) ↔ IsWord name
  reserved : ∀ name, IsReserved (r name) ↔ IsReserved name

/-- Two proper names may be exchanged, and so may two that are refused alike. -/
theorem isRenaming_swap {a b : String} (word : IsWord a ↔ IsWord b)
    (reserved : IsReserved a ↔ IsReserved b) : IsRenaming (Equiv.swap a b) where
  injective := (Equiv.swap a b).injective
  word name := by
    rw [Equiv.swap_apply_def]
    split
    · next e => rw [e, word]
    split
    · next e => rw [e, word]
    · rfl
  reserved name := by
    rw [Equiv.swap_apply_def]
    split
    · next e => rw [e, reserved]
    split
    · next e => rw [e, reserved]
    · rfl

/-! ### Renaming labels and references -/

def ChoiceOption.rename (r : String → String) (o : ChoiceOption) : ChoiceOption :=
  { o with target := r o.target }

namespace Action

variable (r : String → String)

mutual

/-- The action with other names for labels, guarded blocks included. -/
def rename : Action → Action
  | label name => label (r name)
  | choice options => choice (options.map (·.rename r))
  | checkpoint name => checkpoint (r name)
  | conditional condition block => conditional condition (renameAll block)
  | jump name => jump (r name)
  | a => a

def renameAll : List Action → List Action
  | [] => []
  | a :: rest => a.rename :: renameAll rest

end

end Action

/-- The name of a state whose label is renamed.  The start state has none. -/
def stateName (r : String → String) (id : String) : String :=
  if id = startState then id else r id

def Transition.rename (r : String → String) : Transition → Transition
  | jump target => jump (r target)
  | choice text target => choice text (r target)
  | conditional condition target => conditional condition (r target)
  | fallthrough target => fallthrough (r target)
  | t => t

def State.rename (r : String → String) (s : State) : State where
  id := stateName r s.id
  body := s.body.map (·.rename r)
  transitions := s.transitions.map (·.rename r)

def Machine.rename (r : String → String) (m : Machine) : Machine where
  initial := stateName r m.initial
  states := m.states.map (·.rename r)

def Unreached.rename (r : String → String) (u : Unreached) : Unreached :=
  { u with state := stateName r u.state }

/-- `c'` is what `c` is, under other names. -/
structure Compilation.Renamed (r : String → String) (c c' : Compilation) : Prop where
  machine : c'.machine = c.machine.rename r
  warnings : ∃ told : List Unreached, (∀ u ∈ told, u.state ∈ c.machine.stateIds) ∧
    c.warnings = told.map (·.text) ∧ c'.warnings = told.map fun u => (u.rename r).text

namespace CompileFault

def rename (r : String → String) : CompileFault → CompileFault
  | malformedLabel name index => malformedLabel (r name) index
  | reservedLabel name index => reservedLabel (r name) index
  | duplicateLabel name index => duplicateLabel (r name) index
  | nestedLabel name index => nestedLabel (r name) index
  | unknownLabel name kind index => unknownLabel (r name) kind index
  | f => f

/-- The place of the action at fault, which its message names. -/
def index? : CompileFault → Option Nat
  | noActions | noStates _ => none
  | malformedLabel _ index | reservedLabel _ index | duplicateLabel _ index
  | nestedLabel _ index | emptyChoice index | nestedConditional index
  | unknownLabel _ _ index => some index

theorem code_rename (r : String → String) (f : CompileFault) : (f.rename r).code = f.code := by
  cases f <;> rfl

theorem index?_rename (r : String → String) (f : CompileFault) :
    (f.rename r).index? = f.index? := by
  cases f <;> rfl

end CompileFault

namespace Action

variable (r : String → String)

theorem renameAll_eq_map (xs : List Action) : renameAll r xs = xs.map (rename r) := by
  induction xs with
  | nil => rfl
  | cons a xs ih => rw [renameAll, ih, List.map_cons]

theorem kind_rename (a : Action) : (a.rename r).kind = a.kind := by
  cases a <;> simp [rename, kind]

theorem isTerminator_rename (a : Action) : (a.rename r).isTerminator = a.isTerminator := by
  cases a <;> simp [rename, isTerminator]

theorem label?_rename (a : Action) : (a.rename r).label? = a.label?.map r := by
  cases a <;> simp [rename, label?]

mutual

theorem targets_rename : ∀ a : Action, (a.rename r).targets = a.targets.map r
  | .conditional _ block => by
      simp only [rename, targets]
      exact targetsOf_renameAll block
  | .choice options => by
      simp only [rename, targets, List.map_map]
      rfl
  | .label _ | .say _ _ _ | .setFlag _ _ _ | .modifyFlag _ _ _ _ | .display _ _ _ | .remove _
  | .playSound _ | .checkpoint _ | .idleChats | .unlockDialogue _ | .jump _ | .finish => by
      simp [rename, targets]

theorem targetsOf_renameAll : ∀ xs : List Action,
    targetsOf (renameAll r xs) = (targetsOf xs).map r
  | [] => rfl
  | a :: rest => by
      rw [renameAll, targetsOf, targetsOf, List.map_append, targets_rename a,
        targetsOf_renameAll rest]

end

end Action

theorem labelNames_rename (r : String → String) (xs : List Action) :
    labelNames (xs.map (·.rename r)) = (labelNames xs).map r := by
  simp only [labelNames, List.filterMap_map, List.map_filterMap]
  exact List.filterMap_congr fun a _ => a.label?_rename r

/-! ### The checks -/

section

variable {r : String → String} (hr : IsRenaming r)

include hr

theorem IsRenaming.isLabelName (name : String) : isLabelName (r name) = isLabelName name := by
  rw [Bool.eq_iff_iff, isLabelName_iff, isLabelName_iff, hr.word]

theorem IsRenaming.startsWith_reserved (name : String) :
    (r name).startsWith reservedPrefix = name.startsWith reservedPrefix := by
  rw [Bool.eq_iff_iff, startsWith_reserved_iff, startsWith_reserved_iff, hr.reserved]

theorem checkLabels_rename (xs : List Action) (seen : List String) (i : Nat) :
    checkLabels (seen.map r) i (xs.map (·.rename r)) =
      (checkLabels seen i xs).mapError (·.rename r) := by
  induction xs generalizing seen i with
  | nil => rfl
  | cons a xs ih =>
      rw [List.map_cons, checkLabels, checkLabels, a.label?_rename r]
      cases a.label? with
      | none => exact ih seen (i + 1)
      | some name =>
          have repeated : r name ∈ seen.map r ↔ name ∈ seen :=
            List.mem_map_of_injective hr.injective
          simp only [Option.map_some, hr.isLabelName, hr.startsWith_reserved, repeated]
          split
          · rfl
          split
          · rfl
          split
          · rfl
          · exact ih (name :: seen) (i + 1)

theorem checkTargets_rename (labels : List String) (kind : String) (i : Nat)
    (targets : List String) :
    checkTargets (labels.map r) kind i (targets.map r) =
      (checkTargets labels kind i targets).mapError (·.rename r) := by
  induction targets with
  | nil => rfl
  | cons target targets ih =>
      have declared : r target ∈ labels.map r ↔ target ∈ labels :=
        List.mem_map_of_injective hr.injective
      rw [List.map_cons, checkTargets, checkTargets]
      simp only [declared]
      split
      · exact ih
      · rfl

theorem checkInner_rename (labels : List String) (i : Nat) (a : Action) :
    checkInner (labels.map r) i (a.rename r) =
      (checkInner labels i a).mapError (·.rename r) := by
  have targets := checkTargets_rename hr labels a.kind i a.targets
  rw [← a.targets_rename r, ← a.kind_rename r] at targets
  cases a with
  | label name => rfl
  | conditional condition block => rfl
  | choice options =>
      cases options with
      | nil => rfl
      | cons o os => exact targets
  | _ => exact targets

theorem checkBlock_rename (labels : List String) (i : Nat) (block : List Action) :
    checkBlock (labels.map r) i (block.map (·.rename r)) =
      (checkBlock labels i block).mapError (·.rename r) := by
  induction block with
  | nil => rfl
  | cons a rest ih =>
      rw [List.map_cons, checkBlock, checkBlock, checkInner_rename hr]
      cases checkInner labels i a with
      | error f => rfl
      | ok _ => exact ih

theorem checkAction_rename (labels : List String) (i : Nat) (a : Action) :
    checkAction (labels.map r) i (a.rename r) =
      (checkAction labels i a).mapError (·.rename r) := by
  have targets := checkTargets_rename hr labels a.kind i a.targets
  rw [← a.targets_rename r, ← a.kind_rename r] at targets
  cases a with
  | conditional condition block =>
      rw [Action.rename, Action.renameAll_eq_map]
      exact checkBlock_rename hr labels i block
  | choice options =>
      cases options with
      | nil => rfl
      | cons o os => exact targets
  | _ => exact targets

theorem checkActions_rename (labels : List String) (i : Nat) (xs : List Action) :
    checkActions (labels.map r) i (xs.map (·.rename r)) =
      (checkActions labels i xs).mapError (·.rename r) := by
  induction xs generalizing i with
  | nil => rfl
  | cons a rest ih =>
      rw [List.map_cons, checkActions, checkActions, checkAction_rename hr]
      cases checkAction labels i a with
      | error f => rfl
      | ok _ => exact ih (i + 1)

/-- **The check finds the same**, up to the names. -/
theorem check_rename (xs : List Action) :
    check (xs.map (·.rename r)) = (check xs).mapError (·.rename r) := by
  have labels := checkLabels_rename hr xs [] 0
  rw [check, check, labelNames_rename]
  cases xs with
  | nil => rfl
  | cons a rest =>
      rw [List.map_nil] at labels
      rw [if_neg (by simp), if_neg (by simp), labels]
      cases checkLabels [] 0 (a :: rest) with
      | error f => rfl
      | ok _ => exact checkActions_rename hr _ 0 (a :: rest)

end

/-! ### Segments -/

namespace Segment

variable (r : String → String)

def rename (s : Segment) : Segment where
  id := stateName r s.id
  actions := s.actions.map (·.rename r)

theorem split_rename {xs : List Action} (h : ∀ name, .label name ∈ xs → name ≠ startState) :
    split (xs.map (·.rename r)) =
      ((split xs).1.map (·.rename r), (split xs).2.map (·.rename r)) := by
  induction xs with
  | nil => rfl
  | cons a xs ih =>
      have later := ih fun name hm => h name (List.mem_cons_of_mem a hm)
      cases ha : a.label? with
      | none =>
          have none : (a.rename r).label? = none := by rw [a.label?_rename r, ha]; rfl
          rw [List.map_cons, split_cons none, split_cons ha, later, List.map_cons]
      | some name =>
          obtain rfl := label?_eq_some.mp ha
          have named : stateName r name = r name := if_neg (h name List.mem_cons_self)
          rw [List.map_cons, Action.rename, split_label, split_label, later, List.map_cons, rename,
            named]
          rfl

theorem ofActions_rename {xs : List Action} (h : ∀ name, .label name ∈ xs → name ≠ startState) :
    ofActions (xs.map (·.rename r)) = (ofActions xs).map (·.rename r) := by
  have split := split_rename r h
  by_cases hl : (Segment.split xs).1 = []
  · rw [ofActions_of_lead_nil hl, ofActions_of_lead_nil (by rw [split, hl]; rfl), split]
  · have hl' : (Segment.split (xs.map (·.rename r))).1 ≠ [] := by rw [split]; simpa using hl
    rw [ofActions_of_lead_ne_nil hl, ofActions_of_lead_ne_nil hl', split]
    rfl

theorem cut_rename (xs : List Action) :
    cut (xs.map (·.rename r)) = ((cut xs).1.map (·.rename r), (cut xs).2) := by
  induction xs with
  | nil => rfl
  | cons a xs ih =>
      have same := a.isTerminator_rename r
      cases ha : a.isTerminator with
      | true =>
          rw [List.map_cons, cut_terminator (same.trans ha), cut_terminator ha, List.length_map]
          rfl
      | false =>
          rw [List.map_cons, cut_cons (same.trans ha), cut_cons ha, ih]
          rfl

theorem guardedTransitions_rename (condition : Condition) (block : List Action) :
    guardedTransitions condition (block.map (·.rename r)) =
      (guardedTransitions condition block).map (·.rename r) := by
  rw [guardedTransitions, guardedTransitions, List.flatMap_map, List.map_flatMap]
  refine List.flatMap_congr fun a _ => ?_
  have targets : ((a.rename r).targets.map (Transition.conditional condition)) =
      (a.targets.map (Transition.conditional condition)).map (·.rename r) := by
    rw [a.targets_rename r, List.map_map, List.map_map]
    rfl
  cases a with
  | finish => rfl
  | checkpoint name => rfl
  | _ => exact targets

theorem guarded_rename (body : List Action) :
    guarded (body.map (·.rename r)) = (guarded body).map (·.rename r) := by
  rw [guarded, guarded, List.flatMap_map, List.map_flatMap]
  refine List.flatMap_congr fun a _ => ?_
  cases a with
  | conditional condition block =>
      rw [Action.rename, Action.renameAll_eq_map]
      exact guardedTransitions_rename r condition block
  | _ => rfl

theorem closing_rename (body : List Action) (next : Option String) :
    closing (body.map (·.rename r)) (next.map r) = (closing body next).map (·.rename r) := by
  unfold closing
  rw [List.getLast?_map]
  cases body.getLast? with
  | none => cases next <;> rfl
  | some a =>
      cases a with
      | jump target => rfl
      | finish => rfl
      | choice options => simp [Action.rename, ChoiceOption.rename, Transition.rename]
      | _ => cases next <;> rfl

end Segment

/-! ### Pieces -/

def Piece.rename (r : String → String) (p : Piece) : Piece where
  state := p.state.rename r
  dead := p.dead.map (·.rename r)

theorem Piece.unreached_rename (r : String → String) (p : Piece) :
    (p.rename r).unreached = p.unreached.rename r := by
  have kind : ((p.rename r).state.body.getLast?.map Action.kind) =
      p.state.body.getLast?.map Action.kind := by
    rw [Piece.rename, State.rename, List.getLast?_map, Option.map_map]
    exact Option.map_congr fun a _ => a.kind_rename r
  rw [unreached, kind, Piece.rename, List.length_map]
  rfl

theorem Piece.allUnreached_rename (r : String → String) (pieces : List Piece) :
    allUnreached (pieces.map (·.rename r)) = (allUnreached pieces).map (·.rename r) := by
  have dead : ∀ p : Piece, (p.rename r).dead.isEmpty = p.dead.isEmpty := fun p =>
    List.isEmpty_map
  simp only [allUnreached, List.filter_map, List.map_map, Function.comp_def, dead,
    Piece.unreached_rename]

namespace Segment

variable (r : String → String)

theorem piece_rename (s : Segment) {next : Option String} (h : next ≠ some startState) :
    (s.rename r).piece (next.map (stateName r)) = (s.piece next).rename r := by
  have named : next.map (stateName r) = next.map r := by
    cases next with
    | none => rfl
    | some id => exact congrArg some (if_neg fun e => h (congrArg some e))
  have dead : (s.rename r).dead = s.dead.map (·.rename r) := by
    rw [Segment.dead, Segment.dead, rename, cut_rename, List.length_map, List.map_drop]
  have transitions : guarded ((cut s.actions).1.map (·.rename r)) ++
        closing ((cut s.actions).1.map (·.rename r)) (next.map r) =
      (guarded (cut s.actions).1 ++ closing (cut s.actions).1 next).map (·.rename r) := by
    rw [guarded_rename, closing_rename, List.map_append]
  rw [piece, dead, named, state, rename, cut_rename, transitions]
  rfl

/-- Only the first state can be the start state. -/
theorem pieces_rename {ss : List Segment} (h : ∀ s ∈ ss.tail, s.id ≠ startState) :
    pieces (ss.map (·.rename r)) = (pieces ss).map (·.rename r) := by
  induction ss with
  | nil => rfl
  | cons s ss ih =>
      have next : (ss.map (·.rename r)).head?.map (·.id) =
          (ss.head?.map (·.id)).map (stateName r) := by
        cases ss <;> rfl
      have behind : ss.head?.map (·.id) ≠ some startState := by
        cases ss with
        | nil => exact nofun
        | cons t ss => exact fun e => h t List.mem_cons_self (Option.some.inj e)
      rw [List.map_cons, pieces, next, piece_rename r s behind,
        ih fun t ht => h t (List.mem_of_mem_tail ht), pieces, List.map_cons]

end Segment

/-! ### Compilations -/

theorem Piece.state_of_mem_allUnreached {pieces : List Piece} {u : Unreached}
    (h : u ∈ allUnreached pieces) : u.state ∈ (pieces.map (·.state)).map (·.id) := by
  obtain ⟨p, hp, rfl⟩ := List.mem_map.mp h
  have found : p.state ∈ pieces.map (·.state) := List.mem_map_of_mem (List.mem_filter.mp hp).1
  exact List.mem_map_of_mem found

/-- The machine with these states begins with the first of them. -/
theorem Machine.rename_ofStates (r : String → String) (states : List State) :
    ({ initial := ((states.map (·.rename r)).head?.map (·.id)).getD startState
       states := states.map (·.rename r) } : Machine) =
      Machine.rename r { initial := (states.head?.map (·.id)).getD startState, states } := by
  cases states with
  | nil => rfl
  | cons s states => rfl

theorem WellFormed.renamed {xs : List Action} (h : WellFormed xs) (r : String → String) :
    (compileChecked xs).Renamed r (compileChecked (xs.map (·.rename r))) := by
  have segments := Segment.ofActions_rename r fun name => h.ne_startState
  have behind : ∀ s ∈ (Segment.ofActions xs).tail, s.id ≠ startState := by
    by_cases hl : (Segment.split xs).1 = []
    · rw [Segment.ofActions_of_lead_nil hl]
      exact fun s hs => h.segment_ne_startState s (List.mem_of_mem_tail hs)
    · rw [Segment.ofActions_of_lead_ne_nil hl]
      exact h.segment_ne_startState
  have pieces := Segment.pieces_rename r behind
  have states : Segment.states ((Segment.ofActions xs).map (·.rename r)) =
      (Segment.states (Segment.ofActions xs)).map (·.rename r) := by
    rw [← Segment.map_state_pieces, ← Segment.map_state_pieces, pieces, List.map_map, List.map_map]
    rfl
  constructor
  case machine =>
    rw [compileChecked, segments]
    dsimp only
    rw [states]
    exact Machine.rename_ofStates r _
  case warnings =>
    refine ⟨Piece.allUnreached (Segment.pieces (Segment.ofActions xs)), fun u hu => ?_,
      Segment.filterMap_warning? _, ?_⟩
    · have state := Piece.state_of_mem_allUnreached hu
      rw [Segment.map_state_pieces] at state
      exact state
    · rw [compileChecked, segments]
      dsimp only
      rw [Segment.filterMap_warning?, pieces, Piece.allUnreached_rename, List.map_map]
      rfl

/-- **No label name is special.**  Under other names a list is compiled as before, or refused as
before, up to the names. -/
theorem compile_rename {r : String → String} (hr : IsRenaming r) (xs : List Action) :
    ((∃ c, compile (xs.map (·.rename r)) = .ok c) ↔ ∃ c, compile xs = .ok c) ∧
      (∀ c, compile xs = .ok c → ∃ c', compile (xs.map (·.rename r)) = .ok c' ∧ c.Renamed r c') ∧
        ∀ f, compile xs = .error f →
          compile (xs.map (·.rename r)) = .error (f.rename r) ∧
            (f.rename r).failure.code = f.failure.code ∧ (f.rename r).index? = f.index? := by
  have checks := check_rename hr xs
  cases e : check xs with
  | error f =>
      rw [e] at checks
      have refused := compile_eq_error_iff.mpr e
      have refused' : compile (xs.map (·.rename r)) = .error (f.rename r) :=
        compile_eq_error_iff.mpr checks
      refine ⟨by simp [refused, refused'], fun c h => ?_, fun g h => ?_⟩
      · rw [refused] at h
        cases h
      · rw [refused] at h
        cases h
        exact ⟨refused', f.code_rename r, f.index?_rename r⟩
  | ok _ =>
      rw [e] at checks
      have wf : WellFormed xs := check_eq_ok_iff.mp e
      have compiled : compile xs = .ok (compileChecked xs) := compile_eq_ok_iff.mpr ⟨wf, rfl⟩
      have compiled' : compile (xs.map (·.rename r)) =
          .ok (compileChecked (xs.map (·.rename r))) :=
        compile_eq_ok_iff.mpr ⟨check_eq_ok_iff.mp checks, rfl⟩
      refine ⟨by simp [compiled, compiled'], fun c h => ?_, fun f h => ?_⟩
      · rw [compiled] at h
        cases h
        exact ⟨_, compiled', wf.renamed r⟩
      · rw [compiled] at h
        cases h

theorem sampleDialogue_renamed :
    IsRenaming (Equiv.swap "desk" "bed") ∧
      compile sampleDialogue = .ok (compileChecked sampleDialogue) ∧
        ∃ c', compile (sampleDialogue.map (·.rename (Equiv.swap "desk" "bed"))) = .ok c' ∧
          (compileChecked sampleDialogue).Renamed (Equiv.swap "desk" "bed") c' := by
  have words : IsWord "desk" ↔ IsWord "bed" :=
    iff_of_true (isLabelName_iff.mp (by decide)) (isLabelName_iff.mp (by decide))
  have free : IsReserved "desk" ↔ IsReserved "bed" := by
    unfold IsReserved
    decide
  have swapped := isRenaming_swap words free
  exact ⟨swapped, compile_sampleDialogue,
    (compile_rename swapped sampleDialogue).2.1 _ compile_sampleDialogue⟩

end Dialogue
