import Dialogue.Action

/-!
# Occurrences

An action occurs in a list when it stands in the list itself or, at any depth, in a guarded
block of the list.  The labels an action itself refers to are told apart from those that what
it holds refers to; only a guarded block has others (`Action.targets_eq_ownTargets`).
-/

namespace Dialogue

/-- `a` stands in the list or, at any depth, in a guarded block of it. -/
inductive Occurs (a : Action) : List Action → Prop where
  | here {xs : List Action} (h : a ∈ xs) : Occurs a xs
  | inside {xs block : List Action} {condition : Condition}
      (h : .conditional condition block ∈ xs) (t : Occurs a block) : Occurs a xs

/-- The labels that the action itself refers to, in order. -/
def Action.ownTargets : Action → List String
  | .jump target | .checkpoint target => [target]
  | .choice options => options.map (·.target)
  | _ => []

namespace Occurs

/-- What occurs in a block of a list occurs in the list. -/
theorem trans {a : Action} {condition : Condition} {block xs : List Action}
    (h : Occurs (.conditional condition block) xs) (t : Occurs a block) : Occurs a xs := by
  induction h with
  | here h => exact .inside h t
  | inside h _ ih => exact .inside h ih

theorem mono {a : Action} {xs ys : List Action} (h : Occurs a xs) (hs : xs ⊆ ys) :
    Occurs a ys := by
  cases h with
  | here h => exact .here (hs h)
  | inside h t => exact .inside (hs h) t

/-- What occurs in a list stands in it, or occurs in a block that stands in it. -/
theorem cases_block {a : Action} {xs : List Action} (h : Occurs a xs) :
    a ∈ xs ∨ ∃ condition block, .conditional condition block ∈ xs ∧ Occurs a block := by
  cases h with
  | here h => exact Or.inl h
  | inside h t => exact Or.inr ⟨_, _, h, t⟩

end Occurs

theorem Action.targets_eq_ownTargets {a : Action}
    (h : ∀ condition block, a ≠ .conditional condition block) : a.targets = a.ownTargets := by
  cases a with
  | conditional condition block => exact absurd rfl (h condition block)
  | _ => simp [Action.targets, Action.ownTargets]

end Dialogue
