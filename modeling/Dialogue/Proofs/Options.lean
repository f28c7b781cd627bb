import Dialogue.Proofs.Calls
import Dialogue.Proofs.FirstFault
import Dialogue.Proofs.Walks

/-!
# The options of a choice

A value holds an option if it is a pair, or a map with both names (`ChoiceOption.Holds`); it stands
for the option if what it holds are texts (`ChoiceOption.WrittenAs`).  Any other value is refused,
for one reason only (`ChoiceOption.RefusedAs`): its shape, which is told with its index, or the part
that is no text.  Of a pair the target is looked at first, of a map the text.

The options of a choice are read one from each value and in order, if every value stands for one.
Otherwise the first value that does not decides, whatever comes after it, and the call that is
refused leaves everything as it was (`Vocabulary.choice_outcome`).
-/

namespace Dialogue

open Script (Ending Eval Frame Pos Setting State Value)

namespace ChoiceOption

/-- The value holds a text and a target: in this order, or by these names among any others. -/
inductive Holds : Value → Value → Value → Prop where
  | pair (text target : Value) : Holds (.array [text, target]) text target
  | map {fields : List (String × Value)} {text target : Value}
      (hasText : fields.lookup "text" = some text)
      (hasTarget : fields.lookup "target" = some target) : Holds (.map fields) text target

/-- The value stands for the option. -/
def WrittenAs (v : Value) (o : ChoiceOption) : Prop := Holds v (.string o.text) (.string o.target)

def IsText (v : Value) : Prop := ∃ s, v = .string s

/-- Why a value is refused as the option of an index. -/
inductive RefusedAs (index : Nat) : Value → Refusal → Prop where
  | size {items : List Value} (noPair : items.length ≠ 2) :
      RefusedAs index (.array items) (.optionSize index items.length)
  | names {fields : List (String × Value)}
      (lacks : fields.lookup "text" = none ∨ fields.lookup "target" = none) :
      RefusedAs index (.map fields) (.optionNames index)
  | type {v : Value} (noArray : ∀ items, v ≠ .array items) (noMap : ∀ fields, v ≠ .map fields) :
      RefusedAs index v (.optionType index v.fullTypeName)
  | pairTarget {text target : Value} (noText : ¬ IsText target) :
      RefusedAs index (.array [text, target]) (.noText "choice target" target.fullTypeName)
  | pairText {text target : Value} (isText : IsText target) (noText : ¬ IsText text) :
      RefusedAs index (.array [text, target]) (.noText "choice text" text.fullTypeName)
  | mapText {fields : List (String × Value)} {text target : Value}
      (holds : Holds (.map fields) text target) (noText : ¬ IsText text) :
      RefusedAs index (.map fields) (.noText "choice text" text.fullTypeName)
  | mapTarget {fields : List (String × Value)} {text target : Value}
      (holds : Holds (.map fields) text target) (isText : IsText text)
      (noText : ¬ IsText target) :
      RefusedAs index (.map fields) (.noText "choice target" target.fullTypeName)

/-- A value stands for an option, or it is refused. -/
theorem writtenAs_or_refusedAs (index : Nat) (v : Value) :
    (∃ o, WrittenAs v o) ∨ ∃ why, RefusedAs index v why := by
  cases v with
  | array items =>
      match items with
      | [text, target] =>
          by_cases isTarget : IsText target
          · by_cases isText : IsText text
            · obtain ⟨⟨text, rfl⟩, ⟨target, rfl⟩⟩ := And.intro isText isTarget
              exact .inl ⟨⟨text, target⟩, .pair _ _⟩
            · exact .inr ⟨_, .pairText isTarget isText⟩
          · exact .inr ⟨_, .pairTarget isTarget⟩
      | [] | [_] => exact .inr ⟨_, .size nofun⟩
      | _ :: _ :: _ :: _ => exact .inr ⟨_, .size (by simp)⟩
  | map fields =>
      cases hasText : fields.lookup "text" with
      | none => exact .inr ⟨_, .names (.inl hasText)⟩
      | some text =>
          cases hasTarget : fields.lookup "target" with
          | none => exact .inr ⟨_, .names (.inr hasTarget)⟩
          | some target =>
              by_cases isText : IsText text
              · by_cases isTarget : IsText target
                · obtain ⟨⟨text, rfl⟩, ⟨target, rfl⟩⟩ := And.intro isText isTarget
                  exact .inl ⟨⟨text, target⟩, .map hasText hasTarget⟩
                · exact .inr ⟨_, .mapTarget (.map hasText hasTarget) isText isTarget⟩
              · exact .inr ⟨_, .mapText (.map hasText hasTarget) isText⟩
  | _ => exact .inr ⟨_, .type nofun nofun⟩

end ChoiceOption

namespace Vocabulary

open ChoiceOption (Holds IsText RefusedAs WrittenAs writtenAs_or_refusedAs)

variable {index : Nat} {v : Value} {o : ChoiceOption} {why : Refusal}
  {items : List Value}

/-! ### One option -/

theorem textOf_of_not_isText (what : String) (h : ¬ IsText v) :
    textOf what v = .error (.noText what v.fullTypeName) := by
  cases v with
  | string s => exact absurd ⟨s, rfl⟩ h
  | _ => rfl

theorem optionOf_of_holds {fields : List (String × Value)} {text target : Value}
    (h : Holds (.map fields) text target) :
    optionOf index (.map fields) = (do
      let text ← textOf "choice text" text
      let target ← textOf "choice target" target
      pure ⟨text, target⟩) := by
  cases h with
  | map hasText hasTarget => simp only [optionOf, hasText, hasTarget]

theorem optionOf_of_writtenAs (h : WrittenAs v o) : optionOf index v = .ok o := by
  cases h with
  | pair => rfl
  | map hasText hasTarget => exact optionOf_of_holds (.map hasText hasTarget)

theorem optionOf_of_refusedAs (h : RefusedAs index v why) : optionOf index v = .error why := by
  cases h with
  | @size items noPair =>
      match items, noPair with
      | [], _ | [_], _ | _ :: _ :: _ :: _, _ => rfl
  | names lacks =>
      rw [optionOf]
      split
      · simp_all
      · rfl
  | type noArray noMap =>
      cases v with
      | array items => exact absurd rfl (noArray items)
      | map fields => exact absurd rfl (noMap fields)
      | _ => rfl
  | pairTarget noText =>
      rw [optionOf, textOf_of_not_isText "choice target" noText]
      rfl
  | pairText isText noText =>
      obtain ⟨target, rfl⟩ := isText
      rw [optionOf, textOf_of_not_isText "choice text" noText]
      rfl
  | mapText holds noText =>
      rw [optionOf_of_holds holds, textOf_of_not_isText "choice text" noText]
      rfl
  | mapTarget holds isText noText =>
      obtain ⟨text, rfl⟩ := isText
      rw [optionOf_of_holds holds, textOf_of_not_isText "choice target" noText]
      rfl

theorem optionOf_eq_ok_iff : optionOf index v = .ok o ↔ WrittenAs v o := by
  refine ⟨fun h => ?_, optionOf_of_writtenAs⟩
  obtain ⟨o', written⟩ | ⟨why, refused⟩ := writtenAs_or_refusedAs index v
  · rw [optionOf_of_writtenAs written] at h
    cases h
    exact written
  · rw [optionOf_of_refusedAs refused] at h
    cases h

/-! ### All options -/

/-- A value is refused as the option of its index. -/
def OptionFault (place : Value × Nat) (why : Refusal) : Prop := RefusedAs place.2 place.1 why

theorem not_optionFault_iff : (∀ why, ¬ OptionFault (v, index) why) ↔ ∃ o, WrittenAs v o := by
  constructor
  · intro h
    exact (writtenAs_or_refusedAs index v).resolve_right fun ⟨why, refused⟩ => h why refused
  · rintro ⟨o, written⟩ why refused
    have both := (optionOf_of_writtenAs written).symm.trans (optionOf_of_refusedAs refused)
    cases both

theorem OptionFault.unique (place : Value × Nat) (why why' : Refusal) (h : OptionFault place why)
    (h' : OptionFault place why') : why = why' := by
  have both := (optionOf_of_refusedAs h).symm.trans (optionOf_of_refusedAs h')
  cases both
  rfl

/-- **One option is read from each value, in order.** -/
theorem optionsFrom_eq_ok_iff {options : List ChoiceOption} :
    optionsFrom index items = .ok options ↔ List.Forall₂ WrittenAs items options := by
  induction items generalizing index options with
  | nil => simp [optionsFrom, eq_comm]
  | cons v rest ih =>
      rw [optionsFrom, List.forall₂_cons_left_iff, bind_eq_ok_iff]
      constructor
      · rintro ⟨o, first, h⟩
        obtain ⟨more, others, rfl⟩ := map_eq_ok_iff.mp h
        exact ⟨o, more, optionOf_eq_ok_iff.mp first, ih.mp others, rfl⟩
      · rintro ⟨o, more, first, others, rfl⟩
        exact ⟨o, optionOf_eq_ok_iff.mpr first, map_eq_ok_iff.mpr ⟨more, ih.mpr others, rfl⟩⟩

/-- **The values are gone through up to the first that is refused.** -/
theorem optionsFrom_verdict :
    Verdict OptionFault (items.zipIdx index) ((optionsFrom index items).map fun _ => ()) := by
  induction items generalizing index with
  | nil => exact .nil
  | cons v rest ih =>
      rw [List.zipIdx_cons, optionsFrom]
      obtain ⟨o, written⟩ | ⟨why, refused⟩ := writtenAs_or_refusedAs index v
      · rw [optionOf_of_writtenAs written]
        have each : ∀ why, ¬ OptionFault (v, index) why := not_optionFault_iff.mpr ⟨o, written⟩
        have later := Verdict.cons each (@ih (index + 1))
        cases read : optionsFrom (index + 1) rest with
        | ok options => rwa [read] at later
        | error why => rwa [read] at later
      · rw [optionOf_of_refusedAs refused]
        exact .cons_error refused

/-! ### The call -/

/-- What goes on after an index with a blank names that index. -/
theorem names_index (index : Nat) (rest : String) (h : [' '] <+: rest.toList) :
    s!"choice option #{index} ".toList <+:
      ("choice option #" ++ toString index ++ rest).toList := by
  have front : s!"choice option #{index} ".toList =
      ("choice option #" ++ toString index).toList ++ [' '] := String.toList_append
  have whole : ("choice option #" ++ toString index ++ rest).toList =
      ("choice option #" ++ toString index).toList ++ rest.toList := String.toList_append
  rw [front, whole, List.prefix_append_right_inj]
  exact h

/-- A value of the wrong shape is refused by its index. -/
theorem message_names_index (h : RefusedAs index v why)
    (misshapen : ∀ text target, ¬ Holds v text target) :
    s!"choice option #{index} ".toList <+: why.message.toList := by
  cases h with
  | @size items noPair =>
      have told : (Refusal.optionSize index items.length).message = "choice option #" ++
          toString index ++ (" must be [text, target], got " ++
            (toString items.length ++ " element(s)")) := by
        simp only [← String.append_assoc]
        rfl
      rw [told]
      refine names_index index _ ?_
      rw [String.toList_append]
      exact ⟨_, rfl⟩
  | names => exact names_index index _ ⟨_, rfl⟩
  | type =>
      refine (names_index index " must be an array or a map, got " ⟨_, rfl⟩).trans ?_
      exact ⟨v.fullTypeName.toList, String.toList_append.symm⟩
  | pairTarget | pairText => exact absurd (.pair _ _) (misshapen _ _)
  | mapText holds | mapTarget holds => exact absurd holds (misshapen _ _)

section Call

variable (g : Setting) (n : Nat) (fr : Frame) (pos : Pos) (s : Script.State)

theorem run_choice (items : List Value) :
    Eval.native g (n + 1) fr "choice" [.array items] pos s =
      match optionsOf items with
      | .ok options => .ok .unit { s with recorder := s.recorder.record (.choice options) }
      | .error why =>
        .error (.fault { cause := .raised (.string why.message), pos := some pos }) s := by
  have found : find? "choice" [.array items] = some (.ofAction .choice (optionsOf items)) := rfl
  rw [Eval.native_of_find? found]
  cases optionsOf items <;> rfl

/-- There is no choice of anything but an array. -/
theorem run_choice_of_other {args : List Value} (h : ∀ items, args ≠ [.array items]) :
    Eval.native g (n + 1) fr "choice" args pos s =
      .error (.fault { cause := .noFunctionFor "choice" args, pos := some pos }) s := by
  have plain : plain? "choice" args = none := by
    unfold plain?
    split <;> simp_all
  have answer : Script.Builtin.answer? "choice" args = none := rfl
  rw [Eval.native.eq_def]
  simp only [answer, find?_eq_none rfl plain]
  rfl

end Call

/-- A call that raises leaves everything as it was. -/
theorem state_of_choice_error {g : Setting} {n : Nat} {fr : Frame} {args : List Value} {pos : Pos}
    {s t : Script.State} {e : Ending}
    (h : Eval.native g n fr "choice" args pos s = .error e t) : t = s := by
  cases n with
  | zero =>
      rw [Eval.native] at h
      cases h
      rfl
  | succ n =>
      by_cases array : ∃ items, args = [.array items]
      · obtain ⟨items, rfl⟩ := array
        rw [run_choice] at h
        cases read : optionsOf items with
        | ok options =>
            rw [read] at h
            cases h
        | error why =>
            rw [read] at h
            cases h
            rfl
      · rw [run_choice_of_other g n fr pos s (by simpa using array)] at h
        cases h
        rfl

/-- **The options of a choice are read exactly and in order**, or the first value that is none is
refused, by its index if its shape is wrong.  A call that raises records nothing. -/
theorem choice_outcome :
    (∀ items options, optionsOf items = .ok options ↔ List.Forall₂ WrittenAs items options) ∧
    (∀ items, (∃ options, optionsOf items = .ok options) ↔ ∀ v ∈ items, ∃ o, WrittenAs v o) ∧
    (∀ items why, optionsOf items = .error why ↔ FirstFault OptionFault items.zipIdx why) ∧
    (∀ index v why, RefusedAs index v why → (∀ text target, ¬ Holds v text target) →
      s!"choice option #{index} ".toList <+: why.message.toList) ∧
    (∀ g n fr items pos s, Eval.native g (n + 1) fr "choice" [.array items] pos s =
      match optionsOf items with
      | .ok options => .ok .unit { s with recorder := s.recorder.record (.choice options) }
      | .error why =>
        .error (.fault { cause := .raised (.string why.message), pos := some pos }) s) ∧
    ∀ g n fr args pos s e t, Eval.native g n fr "choice" args pos s = .error e t → t = s := by
  refine ⟨fun _ _ => optionsFrom_eq_ok_iff, fun items => ?_, fun items why => ?_,
    fun _ _ _ => message_names_index, fun g n fr items pos s => run_choice g n fr pos s items,
    fun _ _ _ _ _ _ _ _ => state_of_choice_error⟩
  · have read : (∃ options, optionsOf items = .ok options) ↔
        (optionsOf items).map (fun _ => ()) = .ok () := by
      rw [map_eq_ok_iff]
      simp
    have each : Faultless OptionFault items.zipIdx ↔
        ∀ v ∈ items.zipIdx.map Prod.fst, ∃ o, WrittenAs v o := by
      rw [List.forall_mem_map]
      exact forall₂_congr fun _ _ => not_optionFault_iff
    rw [List.zipIdx_map_fst] at each
    rw [read, ← each]
    exact optionsFrom_verdict.ok_iff
  · rw [← map_eq_error_iff (f := fun _ => ())]
    exact optionsFrom_verdict.error_iff OptionFault.unique

/-- A map may give the target first, and more than is asked for. -/
example : optionsOf [.array [.string "Stay", .string "stay"],
    .map [("hint", .unit), ("target", .string "leave"), ("text", .string "Leave")]] =
      .ok [⟨"Stay", "stay"⟩, ⟨"Leave", "leave"⟩] := by
  decide +kernel

end Vocabulary

end Dialogue
