import Dialogue.Compile
import Dialogue.Proofs.FirstFault
import Dialogue.Proofs.Occurrence
import Dialogue.Proofs.Segments
import Mathlib.Tactic.ByContra

/-!
# Which lists are compiled

A list of actions is well-formed when every label has a proper name of its own, blocks hold
neither labels nor blocks, every choice offers something, and every reference has its label
(`WellFormed`).  A list that is not is refused for its first fault.  Two rounds look for it:

* `LabelFault`: what is wrong with a label of the list, whatever else the list holds;
* `VisitFault`: what is wrong with an action met on a walk through the list (`walk`), where a
  block is met before what it holds.

The second round counts only where the first finds nothing.  `compile_outcome`: a list is
compiled exactly when it is well-formed, and otherwise it is refused exactly for that fault.
-/

namespace Dialogue

/-! ### Names -/

/-- A letter or digit of ASCII, or the underscore. -/
def WordChar (c : Char) : Prop :=
  ('A' ≤ c ∧ c ≤ 'Z') ∨ ('a' ≤ c ∧ c ≤ 'z') ∨ ('0' ≤ c ∧ c ≤ '9') ∨ c = '_'

def IsWord (name : String) : Prop := name ≠ "" ∧ ∀ c ∈ name.toList, WordChar c

def IsReserved (name : String) : Prop := ['_', '_'] <+: name.toList

theorem isWordChar_iff {c : Char} : isWordChar c = true ↔ WordChar c := by
  have upper : c.isUpper = decide ('A' ≤ c ∧ c ≤ 'Z') := rfl
  have lower : c.isLower = (decide ('a' ≤ c) && decide (c ≤ 'z')) := rfl
  have digit : c.isDigit = (decide ('0' ≤ c) && decide (c ≤ '9')) := rfl
  have word : isWordChar c = (((c.isUpper || c.isLower) || c.isDigit) || c == '_') := rfl
  rw [word, upper, lower, digit, WordChar]
  simp only [Bool.or_eq_true, Bool.and_eq_true, decide_eq_true_eq, beq_iff_eq, or_assoc]

theorem isLabelName_iff {name : String} : isLabelName name = true ↔ IsWord name := by
  simp only [isLabelName, IsWord, Bool.and_eq_true, Bool.not_eq_true', List.all_eq_true,
    isWordChar_iff, String.isEmpty_eq_false_iff]

theorem startsWith_reserved_iff {name : String} :
    name.startsWith reservedPrefix = true ↔ IsReserved name := by
  rw [String.startsWith_string_iff]
  rfl

theorem isReserved_startState : IsReserved startState := ⟨"start__".toList, rfl⟩

/-! ### Labels -/

/-- What is wrong with an action of the list `xs` that is a label, at the place that is given
with it. -/
inductive LabelFault (xs : List Action) : Action × Nat → CompileFault → Prop where
  | malformed {name : String} {i : Nat} (h : ¬ IsWord name) :
      LabelFault xs (.label name, i) (.malformedLabel name i)
  | reserved {name : String} {i : Nat} (h : IsWord name) (hr : IsReserved name) :
      LabelFault xs (.label name, i) (.reservedLabel name i)
  | duplicate {name : String} {i : Nat} (h : IsWord name) (hr : ¬ IsReserved name)
      (hd : .label name ∈ xs.take i) : LabelFault xs (.label name, i) (.duplicateLabel name i)

theorem LabelFault.unique {xs : List Action} (p : Action × Nat) (f g : CompileFault)
    (hf : LabelFault xs p f) (hg : LabelFault xs p g) : f = g := by
  cases hf <;> cases hg <;> first | rfl | contradiction

theorem mem_labelNames {xs : List Action} {name : String} :
    name ∈ labelNames xs ↔ .label name ∈ xs := by
  simp only [labelNames, List.mem_filterMap]
  constructor
  · rintro ⟨a, ha, e⟩
    cases a with
    | label n => cases e; exact ha
    | _ => cases e
  · exact fun h => ⟨_, h, rfl⟩

/-- One label is checked: it is refused for its fault, or passed over when it has none. -/
theorem checkLabels_label {xs : List Action} {seen : List String} {name : String} {i : Nat}
    (rest : List Action) (hs : name ∈ seen ↔ .label name ∈ xs.take i) :
    (∃ f, LabelFault xs (.label name, i) f ∧
      checkLabels seen i (.label name :: rest) = .error f) ∨
    (∀ f, ¬ LabelFault xs (.label name, i) f) ∧
      checkLabels seen i (.label name :: rest) = checkLabels (name :: seen) (i + 1) rest := by
  simp only [checkLabels, Action.label?]
  by_cases hw : IsWord name
  · rw [isLabelName_iff.mpr hw]
    by_cases hr : IsReserved name
    · exact Or.inl ⟨_, .reserved hw hr, by simp [startsWith_reserved_iff.mpr hr]⟩
    · have hr' : ¬ name.startsWith reservedPrefix = true := fun h =>
        hr (startsWith_reserved_iff.mp h)
      by_cases hd : name ∈ seen
      · exact Or.inl ⟨_, .duplicate hw hr (hs.mp hd), by simp [hr', hd]⟩
      · refine Or.inr ⟨fun f hf => ?_, by simp [hr', hd]⟩
        cases hf with
        | malformed h => exact h hw
        | reserved _ h => exact hr h
        | duplicate _ _ h => exact hd (hs.mpr h)
  · refine Or.inl ⟨_, .malformed hw, ?_⟩
    have hw' : isLabelName name = false :=
      Bool.eq_false_iff.mpr fun h => hw (isLabelName_iff.mp h)
    simp [hw']

/-- The labels behind `before` are checked with the labels of `before` in mind. -/
theorem checkLabels_verdict (rest : List Action) : ∀ {before : List Action} {seen : List String},
    (∀ name, name ∈ seen ↔ .label name ∈ before) →
      Verdict (LabelFault (before ++ rest)) (rest.zipIdx before.length)
        (checkLabels seen before.length rest) := by
  induction rest with
  | nil => exact fun _ => .nil
  | cons a rest ih =>
      intro before seen hs
      have later : ∀ {seen' : List String}, (∀ name, name ∈ seen' ↔ .label name ∈ before ++ [a]) →
          Verdict (LabelFault (before ++ a :: rest)) (rest.zipIdx (before.length + 1))
            (checkLabels seen' (before.length + 1) rest) := fun hs' => by
        simpa using @ih (before ++ [a]) _ hs'
      rw [List.zipIdx_cons]
      cases a with
      | label name =>
          have hs' : name ∈ seen ↔
              .label name ∈ (before ++ .label name :: rest).take before.length := by
            rw [hs name, List.take_left]
          rcases checkLabels_label rest hs' with ⟨f, hf, e⟩ | ⟨hf, e⟩
          · rw [e]
            exact .cons_error hf
          · rw [e]
            exact .cons hf (later fun n => by simp [hs n, or_comm])
      | _ => exact .cons (fun f hf => nomatch hf) (later fun n => by simp [hs n])

/-! ### The walk -/

/-- An action that is met on a walk, with the place in the list of the action itself or of the
outermost block around it. -/
structure Visit where
  index : Nat
  nested : Bool
  action : Action

mutual

/-- A block is met before what it holds. -/
def visits (index : Nat) (nested : Bool) : Action → List Visit
  | .conditional condition block =>
    ⟨index, nested, .conditional condition block⟩ :: blockVisits index block
  | a => [⟨index, nested, a⟩]

def blockVisits (index : Nat) : List Action → List Visit
  | [] => []
  | a :: rest => visits index true a ++ blockVisits index rest

end

/-- The walk through the actions from the `index`-th on. -/
def walk (index : Nat) : List Action → List Visit
  | [] => []
  | a :: rest => visits index false a ++ walk (index + 1) rest

/-- What is wrong with an action that is met in the list `xs`. -/
inductive VisitFault (xs : List Action) : Visit → CompileFault → Prop where
  | label {name : String} {i : Nat} :
      VisitFault xs ⟨i, true, .label name⟩ (.nestedLabel name i)
  | block {condition : Condition} {block : List Action} {i : Nat} :
      VisitFault xs ⟨i, true, .conditional condition block⟩ (.nestedConditional i)
  | choice {nested : Bool} {i : Nat} : VisitFault xs ⟨i, nested, .choice []⟩ (.emptyChoice i)
  | target {a : Action} {nested : Bool} {i : Nat} {f : CompileFault}
      (h : FirstFault (fun t f => .label t ∉ xs ∧ f = .unknownLabel t a.kind i) a.ownTargets f) :
      VisitFault xs ⟨i, nested, a⟩ f

theorem VisitFault.unique {xs : List Action} (v : Visit) (f g : CompileFault)
    (hf : VisitFault xs v f) (hg : VisitFault xs v g) : f = g := by
  have none : ∀ {F : String → CompileFault → Prop} {h : CompileFault}, ¬ FirstFault F [] h := by
    rintro F h ⟨before, p, after, e, -, -⟩
    simp at e
  cases hf with
  | target hf =>
      cases hg with
      | target hg => exact FirstFault.unique (fun _ _ _ h k => h.2.trans k.2.symm) hf hg
      | _ => exact absurd hf none
  | _ =>
      cases hg with
      | target hg => exact absurd hg none
      | _ => rfl

/-! ### The checks follow the walk -/

theorem checkTargets_verdict (xs : List Action) (kind : String) (i : Nat) (ts : List String) :
    Verdict (fun t f => .label t ∉ xs ∧ f = .unknownLabel t kind i) ts
      (checkTargets (labelNames xs) kind i ts) := by
  induction ts with
  | nil => exact .nil
  | cons t ts ih =>
      rw [checkTargets]
      split
      · next h => exact .cons (fun f hf => hf.1 (mem_labelNames.mp h)) ih
      · next h => exact .cons_error ⟨fun ht => h (mem_labelNames.mpr ht), rfl⟩

/-- Where an action can only be at fault by its references, checking these is enough. -/
theorem ownTargets_verdict {xs : List Action} {a : Action} {nested : Bool} {i : Nat}
    (h : ∀ f, VisitFault xs ⟨i, nested, a⟩ f →
      FirstFault (fun t f => .label t ∉ xs ∧ f = .unknownLabel t a.kind i) a.ownTargets f) :
    Verdict (VisitFault xs) [⟨i, nested, a⟩]
      (checkTargets (labelNames xs) a.kind i a.ownTargets) := by
  have targets := checkTargets_verdict xs a.kind i a.ownTargets
  cases e : checkTargets (labelNames xs) a.kind i a.ownTargets with
  | error f =>
      rw [e] at targets
      exact .cons_error (.target targets)
  | ok _ =>
      rw [e] at targets
      exact .cons (fun f hf => not_firstFault_of_faultless targets (h f hf)) .nil

theorem checkInner_verdict {xs : List Action} {i : Nat} (a : Action) :
    Verdict (VisitFault xs) (visits i true a) (checkInner (labelNames xs) i a) := by
  cases a with
  | label name => exact .cons_error .label
  | conditional condition block => exact .cons_error .block
  | choice options =>
      cases options with
      | nil => exact .cons_error .choice
      | cons o os => exact ownTargets_verdict fun f hf => by cases hf; assumption
  | _ => exact ownTargets_verdict fun f hf => by cases hf; assumption

theorem checkBlock_verdict {xs : List Action} {i : Nat} (block : List Action) :
    Verdict (VisitFault xs) (blockVisits i block) (checkBlock (labelNames xs) i block) := by
  induction block with
  | nil => exact .nil
  | cons a rest ih => exact (checkInner_verdict a).append ih

theorem checkAction_verdict {xs : List Action} {i : Nat} (a : Action) :
    Verdict (VisitFault xs) (visits i false a) (checkAction (labelNames xs) i a) := by
  cases a with
  | conditional condition block =>
      refine .cons (fun f hf => ?_) (checkBlock_verdict block)
      cases hf with
      | target h => exact not_firstFault_of_faultless (by simp [Faultless, Action.ownTargets]) h
  | choice options =>
      cases options with
      | nil => exact .cons_error .choice
      | cons o os => exact ownTargets_verdict fun f hf => by cases hf; assumption
  | _ => exact ownTargets_verdict fun f hf => by cases hf; assumption

theorem checkActions_verdict {xs : List Action} (rest : List Action) : ∀ {i : Nat},
    Verdict (VisitFault xs) (walk i rest) (checkActions (labelNames xs) i rest) := by
  induction rest with
  | nil => exact .nil
  | cons a rest ih => exact (checkAction_verdict a).append ih

/-! ### A walk meets what occurs -/

theorem mem_blockVisits_of_occurs {a : Action} {block : List Action} (h : Occurs a block) :
    ∀ i, ⟨i, true, a⟩ ∈ blockVisits i block := by
  have mem : ∀ {b : Action} {ys : List Action} {v : Visit} {i : Nat}, b ∈ ys →
      v ∈ visits i true b → v ∈ blockVisits i ys := by
    intro b ys v i hb hv
    induction ys with
    | nil => cases hb
    | cons c ys ih =>
        rw [blockVisits, List.mem_append]
        rcases List.mem_cons.mp hb with rfl | hb
        · exact Or.inl hv
        · exact Or.inr (ih hb)
  intro i
  induction h with
  | here h => exact mem h (by cases a <;> simp [visits])
  | inside h _ ih => exact mem h (List.mem_cons_of_mem _ ih)

mutual

theorem occurs_of_mem_visits {i : Nat} {v : Visit} : ∀ {a : Action},
    v ∈ visits i true a → v.nested = true ∧ Occurs v.action [a]
  | .conditional condition block, h => by
      rw [visits, List.mem_cons] at h
      rcases h with rfl | h
      · exact ⟨rfl, .here (by simp)⟩
      · obtain ⟨hn, ho⟩ := occurs_of_mem_blockVisits h
        exact ⟨hn, .inside (List.mem_singleton_self _) ho⟩
  | .label _, h | .say _ _ _, h | .choice _, h | .setFlag _ _ _, h | .modifyFlag _ _ _ _, h
  | .display _ _ _, h | .remove _, h | .playSound _, h | .checkpoint _, h | .idleChats, h
  | .unlockDialogue _, h | .jump _, h | .finish, h => by
      cases List.mem_singleton.mp h
      exact ⟨rfl, .here (by simp)⟩

theorem occurs_of_mem_blockVisits {i : Nat} {v : Visit} : ∀ {block : List Action},
    v ∈ blockVisits i block → v.nested = true ∧ Occurs v.action block
  | a :: rest, h => by
      rw [blockVisits, List.mem_append] at h
      rcases h with h | h
      · obtain ⟨hn, ho⟩ := occurs_of_mem_visits h
        exact ⟨hn, ho.mono (by simp)⟩
      · obtain ⟨hn, ho⟩ := occurs_of_mem_blockVisits h
        exact ⟨hn, ho.mono (List.subset_cons_self a rest)⟩

end

theorem mem_walk {xs : List Action} {v : Visit} : ∀ {i : Nat},
    v ∈ walk i xs ↔ ∃ j a, xs[j]? = some a ∧ v ∈ visits (i + j) false a := by
  induction xs with
  | nil => simp [walk]
  | cons a rest ih =>
      intro i
      rw [walk, List.mem_append, ih]
      constructor
      · rintro (h | ⟨j, b, e, h⟩)
        · exact ⟨0, a, rfl, h⟩
        · exact ⟨j + 1, b, e, by rwa [show i + (j + 1) = i + 1 + j by omega]⟩
      · rintro ⟨j, b, e, h⟩
        cases j with
        | zero => cases e; exact Or.inl h
        | succ j => exact Or.inr ⟨j, b, e, by rwa [show i + 1 + j = i + (j + 1) by omega]⟩

/-- Everything that occurs in a list is met. -/
theorem exists_visit_of_occurs {a : Action} {xs : List Action} (h : Occurs a xs) :
    ∃ i nested, ⟨i, nested, a⟩ ∈ walk 0 xs := by
  rcases h.cases_block with h | ⟨condition, block, h, t⟩
  · obtain ⟨j, e⟩ := List.getElem?_of_mem h
    exact ⟨0 + j, false, mem_walk.mpr ⟨j, a, e, by cases a <;> simp [visits]⟩⟩
  · obtain ⟨j, e⟩ := List.getElem?_of_mem h
    exact ⟨0 + j, true,
      mem_walk.mpr ⟨j, _, e, List.mem_cons_of_mem _ (mem_blockVisits_of_occurs t _)⟩⟩

/-- What occurs in a block is met as nested. -/
theorem exists_nested_visit {a : Action} {condition : Condition} {block xs : List Action}
    (h : Occurs (.conditional condition block) xs) (t : Occurs a block) :
    ∃ i, ⟨i, true, a⟩ ∈ walk 0 xs := by
  obtain ⟨c, b, hb, tb⟩ : ∃ c b, .conditional c b ∈ xs ∧ Occurs a b := by
    rcases h.cases_block with h | ⟨c, b, hb, tb⟩
    · exact ⟨condition, block, h, t⟩
    · exact ⟨c, b, hb, tb.trans t⟩
  obtain ⟨j, e⟩ := List.getElem?_of_mem hb
  exact ⟨0 + j, mem_walk.mpr ⟨j, _, e, List.mem_cons_of_mem _ (mem_blockVisits_of_occurs tb _)⟩⟩

/-- Only what occurs is met, and only what occurs in a block is met as nested. -/
theorem occurs_of_mem_walk {xs : List Action} {v : Visit} {i : Nat} (h : v ∈ walk i xs) :
    Occurs v.action xs ∧ (v.nested = true →
      ∃ condition block, .conditional condition block ∈ xs ∧ Occurs v.action block) := by
  obtain ⟨j, a, e, h⟩ := mem_walk.mp h
  have ha : a ∈ xs := List.mem_of_getElem? e
  have plain : v = ⟨i + j, false, a⟩ → Occurs v.action xs ∧ (v.nested = true →
      ∃ condition block, .conditional condition block ∈ xs ∧ Occurs v.action block) := by
    rintro rfl
    exact ⟨.here ha, nofun⟩
  cases a with
  | conditional condition block =>
      rcases List.mem_cons.mp h with h | h
      · exact plain h
      · obtain ⟨-, ho⟩ := occurs_of_mem_blockVisits h
        exact ⟨.inside ha ho, fun _ => ⟨condition, block, ha, ho⟩⟩
  | _ => exact plain (List.mem_singleton.mp h)

/-! ### Well-formed lists -/

structure WellFormed (xs : List Action) : Prop where
  nonempty : xs ≠ []
  named : ∀ name, .label name ∈ xs → IsWord name ∧ ¬ IsReserved name
  distinct : ∀ (i j : Nat) (name : String),
    xs[i]? = some (.label name) → xs[j]? = some (.label name) → i = j
  /-- a block holds neither labels nor blocks -/
  flat : ∀ condition block, Occurs (.conditional condition block) xs → ∀ a, Occurs a block →
    (∀ name, a ≠ .label name) ∧ ∀ c b, a ≠ .conditional c b
  offering : ¬ Occurs (.choice []) xs
  resolved : ∀ a, Occurs a xs → ∀ target ∈ a.ownTargets, .label target ∈ xs

theorem mem_zipIdx_iff {xs : List Action} {a : Action} {i : Nat} :
    (a, i) ∈ xs.zipIdx ↔ xs[i]? = some a :=
  List.mem_zipIdx_iff_getElem?

/-- A label is a repetition when an earlier place has the same name. -/
theorem mem_take_of_lt {xs : List Action} {a : Action} {i j : Nat} (h : xs[j]? = some a)
    (hj : j < i) : a ∈ xs.take i := by
  refine List.mem_of_getElem? (i := j) ?_
  rw [List.getElem?_take_of_lt hj, h]

theorem WellFormed.labels_faultless {xs : List Action} (h : WellFormed xs) :
    Faultless (LabelFault xs) xs.zipIdx := by
  rintro ⟨a, i⟩ hp f hf
  have place := mem_zipIdx_iff.mp hp
  cases hf with
  | malformed hw => exact hw (h.named _ (List.mem_of_getElem? place)).1
  | reserved _ hr => exact (h.named _ (List.mem_of_getElem? place)).2 hr
  | duplicate _ _ hd =>
      obtain ⟨j, hj⟩ := List.getElem?_of_mem hd
      rw [List.getElem?_take] at hj
      split at hj
      · next hlt => exact absurd (h.distinct _ _ _ hj place) (Nat.ne_of_lt hlt)
      · cases hj

theorem WellFormed.visits_faultless {xs : List Action} (h : WellFormed xs) :
    Faultless (VisitFault xs) (walk 0 xs) := by
  intro v hv f hf
  obtain ⟨ho, hn⟩ := occurs_of_mem_walk hv
  cases hf with
  | label =>
      obtain ⟨c, b, hb, t⟩ := hn rfl
      exact (h.flat c b (.here hb) _ t).1 _ rfl
  | block =>
      obtain ⟨c, b, hb, t⟩ := hn rfl
      exact (h.flat c b (.here hb) _ t).2 _ _ rfl
  | choice => exact h.offering ho
  | target ht =>
      obtain ⟨before, t, after, e, -, hl, -⟩ := ht
      exact hl (h.resolved _ ho t (by rw [e]; simp))

section Faultless

variable {xs : List Action}

theorem named_of_faultless (h : Faultless (LabelFault xs) xs.zipIdx) {name : String}
    (hm : .label name ∈ xs) : IsWord name ∧ ¬ IsReserved name := by
  obtain ⟨i, hi⟩ := List.getElem?_of_mem hm
  have fault := h _ (mem_zipIdx_iff.mpr hi)
  have word : IsWord name := by
    by_contra hw
    exact fault _ (.malformed hw)
  exact ⟨word, fun hr => fault _ (.reserved word hr)⟩

/-- An action with no second place behind any place of it has one place. -/
theorem place_unique {a : Action}
    (apart : ∀ {i j : Nat}, i < j → xs[i]? = some a → xs[j]? ≠ some a) {i j : Nat}
    (hi : xs[i]? = some a) (hj : xs[j]? = some a) : i = j := by
  rcases Nat.lt_trichotomy i j with hij | hij | hij
  · exact absurd hj (apart hij hi)
  · exact hij
  · exact absurd hi (apart hij hj)

theorem distinct_of_faultless (h : Faultless (LabelFault xs) xs.zipIdx) {i j : Nat}
    {name : String} (hi : xs[i]? = some (.label name)) (hj : xs[j]? = some (.label name)) :
    i = j := by
  refine place_unique (fun {i j} hij hi hj => ?_) hi hj
  -- of two places with the same label the later one would be a duplicate
  obtain ⟨word, free⟩ := named_of_faultless h (List.mem_of_getElem? hi)
  exact h _ (mem_zipIdx_iff.mpr hj) _ (.duplicate word free (mem_take_of_lt hi hij))

theorem resolved_of_faultless (h : Faultless (VisitFault xs) (walk 0 xs)) {a : Action}
    (ha : Occurs a xs) {target : String} (ht : target ∈ a.ownTargets) : .label target ∈ xs := by
  obtain ⟨i, nested, hi⟩ := exists_visit_of_occurs ha
  have targets := checkTargets_verdict xs a.kind i a.ownTargets
  by_contra hm
  cases e : checkTargets (labelNames xs) a.kind i a.ownTargets with
  | error f =>
      rw [e] at targets
      exact h _ hi _ (.target targets)
  | ok _ =>
      rw [e] at targets
      exact targets target ht _ ⟨hm, rfl⟩

/-- **A non-empty list without faults is well-formed**, and conversely. -/
theorem wellFormed_iff_faultless :
    WellFormed xs ↔
      xs ≠ [] ∧ Faultless (LabelFault xs) xs.zipIdx ∧ Faultless (VisitFault xs) (walk 0 xs) := by
  constructor
  · exact fun h => ⟨h.nonempty, h.labels_faultless, h.visits_faultless⟩
  · rintro ⟨hne, hl, hv⟩
    constructor
    case nonempty => exact hne
    case named => exact fun name hm => named_of_faultless hl hm
    case distinct => exact fun i j name hi hj => distinct_of_faultless hl hi hj
    case flat =>
      intro condition block hb a ha
      obtain ⟨i, hi⟩ := exists_nested_visit hb ha
      refine ⟨?_, ?_⟩
      · rintro name rfl
        exact hv _ hi _ .label
      · rintro c b rfl
        exact hv _ hi _ .block
    case offering =>
      intro ho
      obtain ⟨i, nested, hi⟩ := exists_visit_of_occurs ho
      exact hv _ hi _ .choice
    case resolved => exact fun a ha target ht => resolved_of_faultless hv ha ht

end Faultless

/-! ### The outcome -/

theorem check_verdicts {xs : List Action} (h : xs ≠ []) :
    ∃ r s, check xs = (do r; s) ∧ Verdict (LabelFault xs) xs.zipIdx r ∧
      Verdict (VisitFault xs) (walk 0 xs) s := by
  refine ⟨checkLabels [] 0 xs, checkActions (labelNames xs) 0 xs, ?_, ?_, checkActions_verdict xs⟩
  · rw [check, if_neg (by simpa using h)]
  · exact @checkLabels_verdict xs [] [] (by simp)

theorem check_eq_ok_iff {xs : List Action} : check xs = .ok () ↔ WellFormed xs := by
  rw [wellFormed_iff_faultless]
  by_cases h : xs = []
  · subst h
    simp [check]
  · obtain ⟨r, s, e, hr, hs⟩ := check_verdicts h
    rw [e, ← hr.ok_iff, ← hs.ok_iff]
    cases r with
    | error f => simp [bind, Except.bind, h]
    | ok _ => simp [bind, Except.bind, h]

theorem check_eq_error_iff {xs : List Action} (h : xs ≠ []) {f : CompileFault} :
    check xs = .error f ↔ FirstFault (LabelFault xs) xs.zipIdx f ∨
      Faultless (LabelFault xs) xs.zipIdx ∧ FirstFault (VisitFault xs) (walk 0 xs) f := by
  obtain ⟨r, s, e, hr, hs⟩ := check_verdicts h
  rw [e, ← hr.ok_iff, ← hr.error_iff LabelFault.unique, ← hs.error_iff VisitFault.unique]
  cases r with
  | error g => simp [bind, Except.bind]
  | ok _ => simp [bind, Except.bind]

theorem states_compileChecked_ne_nil {xs : List Action} (h : xs ≠ []) :
    (compileChecked xs).machine.states ≠ [] :=
  Segment.states_ne_nil (Segment.ofActions_ne_nil h)

/-- A list that has been checked gives states, so it is refused by the check or not at all. -/
theorem compile_eq (xs : List Action) :
    compile xs = (check xs).map fun _ => compileChecked xs := by
  rw [compile]
  cases e : check xs with
  | error f => rfl
  | ok _ =>
      have states := states_compileChecked_ne_nil (check_eq_ok_iff.mp e).nonempty
      simp [bind, Except.bind, pure, Except.pure, Except.map, states]

/-- A list that is compiled is well-formed, and its compilation is that of a checked list. -/
theorem compile_eq_ok_iff {xs : List Action} {c : Compilation} :
    compile xs = .ok c ↔ WellFormed xs ∧ compileChecked xs = c := by
  rw [compile_eq, ← check_eq_ok_iff]
  cases check xs with
  | error f => simp [Except.map]
  | ok _ => simp [Except.map]

theorem compile_of_isOk {xs : List Action} (h : (compile xs).isOk = true) :
    compile xs = .ok (compileChecked xs) := by
  cases e : compile xs with
  | error f =>
      rw [e] at h
      cases h
  | ok c => rw [(compile_eq_ok_iff.mp e).2]

theorem compile_eq_error_iff {xs : List Action} {f : CompileFault} :
    compile xs = .error f ↔ check xs = .error f := by
  rw [compile_eq]
  cases check xs with
  | error f => simp [Except.map]
  | ok _ => simp [Except.map]

theorem kind_of_labelFault {xs : List Action} {p : Action × Nat} {f : CompileFault}
    (h : LabelFault xs p f) : f.failure.kind = .script := by
  cases h <;> rfl

theorem kind_of_visitFault {xs : List Action} {v : Visit} {f : CompileFault}
    (h : VisitFault xs v f) : f.failure.kind = .script := by
  cases h with
  | target h =>
      obtain ⟨-, t, -, -, -, -, rfl⟩ := h
      rfl
  | _ => rfl

/-- **Which lists are compiled, and why the others are not.**  A list is compiled exactly when
it is well-formed.  The empty list is refused as empty.  Any other list is refused exactly for
the fault of its first label that is at fault or, where no label is, for the first fault on a
walk through it; both are the author's to mend. -/
theorem compile_outcome (xs : List Action) :
    ((∃ c, compile xs = .ok c) ↔ WellFormed xs) ∧
    ∀ f, compile xs = .error f ↔
      xs = [] ∧ f = .noActions ∨
      xs ≠ [] ∧ f.failure.kind = .script ∧
        (FirstFault (LabelFault xs) xs.zipIdx f ∨
          Faultless (LabelFault xs) xs.zipIdx ∧ FirstFault (VisitFault xs) (walk 0 xs) f) := by
  refine ⟨?_, fun f => ?_⟩
  · simp [compile_eq_ok_iff]
  · rw [compile_eq_error_iff]
    by_cases h : xs = []
    · subst h
      simp [check, eq_comm]
    · have script : FirstFault (LabelFault xs) xs.zipIdx f ∨
          Faultless (LabelFault xs) xs.zipIdx ∧ FirstFault (VisitFault xs) (walk 0 xs) f →
          f.failure.kind = .script := by
        rintro (⟨-, p, -, -, -, hp⟩ | ⟨-, -, v, -, -, -, hv⟩)
        · exact kind_of_labelFault hp
        · exact kind_of_visitFault hv
      rw [check_eq_error_iff h]
      refine ⟨fun hf => Or.inr ⟨h, script hf, hf⟩, ?_⟩
      rintro (⟨e, -⟩ | ⟨-, -, hf⟩)
      · exact absurd e h
      · exact hf

end Dialogue
