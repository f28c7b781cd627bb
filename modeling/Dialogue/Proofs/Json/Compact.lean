import Dialogue.Proofs.Json.Numerals

/-!
# Compact text is one line

Without blanks between its parts, the text of a value holds no line end: a line end inside a
string is escaped, and the other parts are numerals, words and signs (`newline_not_mem_compact`).
-/

namespace Dialogue.Json

open Reader (Solid)

theorem newline_not_mem_of_solid {text : List Char} (h : Solid text) : '\n' ∉ text :=
  fun hm => absurd (h _ hm) (by decide)

theorem Signed.solid {text : List Char} (h : Signed text) : Solid text := by
  obtain h | ⟨digits, rfl, h⟩ := h
  · exact h.solid
  · exact solid_cons.mpr ⟨by decide, h.solid⟩

theorem newline_not_mem_escapedChar (c : Char) : '\n' ∉ escapedChar c := by
  have hex : ∀ n < 16, hexDigit n ≠ '\n' := by decide
  unfold escapedChar
  split
  case h_8 hc _ _ =>
    split
    · have high := hex (c.toNat / 16) (by omega)
      have low := hex (c.toNat % 16) (by omega)
      simp [high.symm, low.symm]
    · exact fun hm => hc (List.mem_singleton.mp hm).symm
  all_goals decide

theorem newline_not_mem_stringText (s : String) : '\n' ∉ stringText s := by
  simp [stringText, newline_not_mem_escapedChar]

theorem newline_not_mem_atomText (v : Json) : '\n' ∉ atomText v := by
  cases v with
  | int n => exact newline_not_mem_of_solid (signed_intText n).solid
  | float x =>
      cases hx : x.isFinite with
      | true => exact newline_not_mem_of_solid (signed_floatText hx).solid
      | false =>
          rw [atomText, floatText, hx, if_neg Bool.false_ne_true]
          decide
  | string s => exact newline_not_mem_stringText s
  | bool b => cases b <;> decide
  | null => decide
  | array _ | object _ => simp [atomText]

theorem line_tight (level : Nat) : Spacing.tight.line level = [] := rfl

theorem value_tight : Spacing.tight.value = [] := rfl

mutual

theorem newline_not_mem_chars (level : Nat) : ∀ v : Json, '\n' ∉ v.chars .tight level
  | .array [] | .object [] => newline_not_mem_atomText _
  | .array (item :: items) => by
      have first := newline_not_mem_chars (level + 1) item
      have others := newline_not_mem_moreItems (level + 1) items
      simp [chars, line_tight, first, others]
  | .object ((name, value) :: fields) => by
      have first := newline_not_mem_chars (level + 1) value
      have others := newline_not_mem_moreFields (level + 1) fields
      simp [chars, line_tight, value_tight, newline_not_mem_stringText name, first, others]
  | .null | .bool _ | .int _ | .float _ | .string _ => newline_not_mem_atomText _

theorem newline_not_mem_moreItems (level : Nat) :
    ∀ items : List Json, '\n' ∉ moreItems .tight level items
  | [] => by simp [moreItems]
  | item :: items => by
      have first := newline_not_mem_chars level item
      have others := newline_not_mem_moreItems level items
      simp [moreItems, line_tight, first, others]

theorem newline_not_mem_moreFields (level : Nat) :
    ∀ fields : List (String × Json), '\n' ∉ moreFields .tight level fields
  | [] => by simp [moreFields]
  | (name, value) :: fields => by
      have first := newline_not_mem_chars level value
      have others := newline_not_mem_moreFields level fields
      simp [moreFields, line_tight, value_tight, newline_not_mem_stringText name, first, others]

end

/-- **The compact text of a value is one line.** -/
theorem newline_not_mem_compact (v : Json) : '\n' ∉ v.compact.toList := by
  rw [compact, String.toList_ofList]
  exact newline_not_mem_chars 0 v

end Dialogue.Json
