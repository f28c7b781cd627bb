/-!
# The first fault

A checker goes through places in order and stops at the first that is at fault.  `FirstFault`
says which fault that is, without any checker: some place has the fault, and no place before it
has one.

`Verdict` says what an answer of a checker tells of the places it went through.  Verdicts on two
stretches make a verdict on both (`Verdict.append`), so a checker is followed by its own
recursion; where every place has at most one fault, a verdict settles the answer both ways
(`Verdict.ok_iff`, `Verdict.error_iff`).
-/

namespace Dialogue

/-- No place is at fault. -/
def Faultless {α ε : Type} (Fault : α → ε → Prop) (places : List α) : Prop :=
  ∀ p ∈ places, ∀ f, ¬ Fault p f

/-- The first of the places that is at fault has the fault `f`. -/
def FirstFault {α ε : Type} (Fault : α → ε → Prop) (places : List α) (f : ε) : Prop :=
  ∃ before p after, places = before ++ p :: after ∧ Faultless Fault before ∧ Fault p f

/-- What an answer tells of the places that were gone through for it. -/
def Verdict {α ε : Type} (Fault : α → ε → Prop) (places : List α) : Except ε Unit → Prop
  | .ok _ => Faultless Fault places
  | .error f => FirstFault Fault places f

variable {α ε : Type} {Fault : α → ε → Prop}

theorem faultless_append {ps qs : List α} :
    Faultless Fault (ps ++ qs) ↔ Faultless Fault ps ∧ Faultless Fault qs := by
  simp only [Faultless, List.forall_mem_append]

theorem not_firstFault_of_faultless {places : List α} {f : ε}
    (h : Faultless Fault places) : ¬ FirstFault Fault places f := by
  rintro ⟨before, p, after, rfl, -, hp⟩
  exact h p (by simp) f hp

/-- A place at fault hides the places after it; one that is not is passed over. -/
theorem firstFault_cons {p : α} {ps : List α} {f : ε} :
    FirstFault Fault (p :: ps) f ↔ Fault p f ∨ (∀ g, ¬ Fault p g) ∧ FirstFault Fault ps f := by
  constructor
  · rintro ⟨before, q, after, e, hb, hq⟩
    cases before with
    | nil => cases e; exact Or.inl hq
    | cons r before =>
        cases e
        exact Or.inr ⟨hb p (by simp), before, q, after, rfl,
          fun r hr => hb r (List.mem_cons_of_mem _ hr), hq⟩
  · rintro (hp | ⟨hp, before, q, after, rfl, hb, hq⟩)
    · exact ⟨[], p, ps, rfl, by simp [Faultless], hp⟩
    · refine ⟨p :: before, q, after, rfl, fun r hr => ?_, hq⟩
      rcases List.mem_cons.mp hr with rfl | hr
      · exact hp
      · exact hb r hr

/-- Where every place has at most one fault, there is at most one first fault. -/
theorem FirstFault.unique (hF : ∀ p f g, Fault p f → Fault p g → f = g) :
    ∀ {places : List α} {f g : ε},
      FirstFault Fault places f → FirstFault Fault places g → f = g := by
  intro places
  induction places with
  | nil => rintro f g ⟨before, p, after, e, -, -⟩; simp at e
  | cons p ps ih =>
      intro f g hf hg
      rcases firstFault_cons.mp hf with hf | ⟨hp, hf⟩ <;>
        rcases firstFault_cons.mp hg with hg | ⟨hp', hg⟩
      · exact hF p f g hf hg
      · exact absurd hf (hp' f)
      · exact absurd hg (hp g)
      · exact ih hf hg

namespace Verdict

theorem nil : Verdict Fault [] (.ok ()) := by
  simp [Verdict, Faultless]

theorem cons_error {p : α} {ps : List α} {f : ε} (h : Fault p f) :
    Verdict Fault (p :: ps) (.error f) :=
  firstFault_cons.mpr (Or.inl h)

theorem cons {p : α} {ps : List α} {r : Except ε Unit}
    (hp : ∀ f, ¬ Fault p f) (h : Verdict Fault ps r) : Verdict Fault (p :: ps) r := by
  cases r with
  | error f => exact firstFault_cons.mpr (Or.inr ⟨hp, h⟩)
  | ok _ =>
      intro q hq
      rcases List.mem_cons.mp hq with rfl | hq
      · exact hp
      · exact h q hq

/-- **Two stretches, one after the other.** -/
theorem append {ps qs : List α} {r s : Except ε Unit}
    (hp : Verdict Fault ps r) (hq : Verdict Fault qs s) :
    Verdict Fault (ps ++ qs) (do r; s) := by
  cases r with
  | error f =>
      obtain ⟨before, p, after, rfl, hb, hf⟩ := hp
      exact ⟨before, p, after ++ qs, by simp, hb, hf⟩
  | ok _ =>
      cases s with
      | error f =>
          obtain ⟨before, q, after, rfl, hb, hf⟩ := hq
          exact ⟨ps ++ before, q, after, by simp, faultless_append.mpr ⟨hp, hb⟩, hf⟩
      | ok _ => exact faultless_append.mpr ⟨hp, hq⟩

theorem ok_iff {places : List α} {r : Except ε Unit}
    (h : Verdict Fault places r) : r = .ok () ↔ Faultless Fault places := by
  cases r with
  | ok _ => exact ⟨fun _ => h, fun _ => rfl⟩
  | error f => exact ⟨nofun, fun hn => absurd h (not_firstFault_of_faultless hn)⟩

theorem error_iff (hF : ∀ p f g, Fault p f → Fault p g → f = g) {places : List α}
    {r : Except ε Unit} {f : ε} (h : Verdict Fault places r) : r = .error f ↔ FirstFault Fault places f := by
  cases r with
  | ok _ => exact ⟨nofun, fun hf => absurd hf (not_firstFault_of_faultless h)⟩
  | error g =>
      refine ⟨fun e => ?_, fun hf => ?_⟩
      · cases e; exact h
      · rw [FirstFault.unique hF h hf]

end Verdict

end Dialogue
