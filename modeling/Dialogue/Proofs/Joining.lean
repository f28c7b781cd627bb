import Dialogue.Proofs.Closed

/-!
# Lists one after the other

Where a list that opens with a label stands behind another list, and no label is in both, the two
are compiled together as they are compiled alone (`compile_append`).  The states of the second list
stand behind those of the first, with nothing changed but the end of the last state of the first
list: where the first list ran out, it now goes on with the label (`State.onto`).

So a dialogue may be cut before any label into parts that refer to labels of their own only, and
each part is compiled without looking at the others.
-/

namespace Dialogue

/-- The state, where what comes behind it is the state `next`. -/
def State.onto (next : String) (s : State) : State :=
  if s.transitions.getLast? = some .exhausted then
    { s with transitions := s.transitions.dropLast ++ [.fallthrough next] }
  else s

/-- A compilation, and behind it one that begins with the state `next`. -/
def Compilation.followedBy (a : Compilation) (next : String) (b : Compilation) : Compilation where
  machine :=
    { initial := a.machine.initial
      states := a.machine.states.dropLast ++
        (a.machine.states.getLast?.map (State.onto next)).toList ++ b.machine.states }
  warnings := a.warnings ++ b.warnings

/-! ### Well-formed lists -/

theorem Occurs.of_append {a : Action} {xs ys : List Action} (h : Occurs a (xs ++ ys)) :
    Occurs a xs ∨ Occurs a ys := by
  rcases h.cases_block with h | ⟨condition, block, h, t⟩
  · rcases List.mem_append.mp h with h | h
    · exact Or.inl (.here h)
    · exact Or.inr (.here h)
  · rcases List.mem_append.mp h with h | h
    · exact Or.inl (.inside h t)
    · exact Or.inr (.inside h t)

/-- Well-formed lists that share no label make up a well-formed list. -/
theorem WellFormed.append {xs ys : List Action} (hx : WellFormed xs) (hy : WellFormed ys)
    (apart : ∀ name, .label name ∈ ys → .label name ∉ xs) : WellFormed (xs ++ ys) where
  nonempty := List.append_ne_nil_of_left_ne_nil hx.nonempty ys
  named name h := (List.mem_append.mp h).elim (hx.named name) (hy.named name)
  distinct i j name hi hj := by
    rw [List.getElem?_append] at hi hj
    by_cases li : i < xs.length
    · rw [if_pos li] at hi
      by_cases lj : j < xs.length
      · rw [if_pos lj] at hj
        exact hx.distinct i j name hi hj
      · rw [if_neg lj] at hj
        exact absurd (List.mem_of_getElem? hi) (apart name (List.mem_of_getElem? hj))
    · rw [if_neg li] at hi
      by_cases lj : j < xs.length
      · rw [if_pos lj] at hj
        exact absurd (List.mem_of_getElem? hj) (apart name (List.mem_of_getElem? hi))
      · rw [if_neg lj] at hj
        have := hy.distinct _ _ name hi hj
        omega
  flat condition block h := h.of_append.elim (hx.flat condition block) (hy.flat condition block)
  offering h := h.of_append.elim hx.offering hy.offering
  resolved a h target ht := by
    rcases h.of_append with h | h
    · exact List.mem_append_left _ (hx.resolved a h target ht)
    · exact List.mem_append_right _ (hy.resolved a h target ht)

namespace Segment

/-! ### Segments -/

theorem split_append {ys : List Action} (h : (split ys).1 = []) (xs : List Action) :
    split (xs ++ ys) = ((split xs).1, (split xs).2 ++ (split ys).2) := by
  induction xs with
  | nil => exact Prod.ext h rfl
  | cons a xs ih =>
      cases ha : a.label? with
      | none => rw [List.cons_append, split_cons ha, split_cons ha, ih]
      | some name =>
          obtain rfl := label?_eq_some.mp ha
          rw [List.cons_append, split_label, split_label, ih, List.cons_append]

theorem ofActions_append {ys : List Action} (h : (split ys).1 = []) (xs : List Action) :
    ofActions (xs ++ ys) = ofActions xs ++ ofActions ys := by
  have whole := split_append h xs
  have lead : (split (xs ++ ys)).1 = (split xs).1 := by rw [whole]
  by_cases hl : (split xs).1 = []
  · rw [ofActions_of_lead_nil (lead.trans hl), ofActions_of_lead_nil hl, ofActions_of_lead_nil h,
      whole]
  · rw [ofActions_of_lead_ne_nil (lead ▸ hl), ofActions_of_lead_ne_nil hl,
      ofActions_of_lead_nil h, whole, List.cons_append]

/-- More segments behind the last one change its state only. -/
theorem states_append (ss : List Segment) (g : Segment) (ts : List Segment) :
    ∃ before, states (ss ++ [g]) = before ++ [g.state none] ∧
      states (ss ++ g :: ts) = before ++ g.state (ts.head?.map (·.id)) :: states ts := by
  induction ss with
  | nil => exact ⟨[], rfl, rfl⟩
  | cons s ss ih =>
      obtain ⟨before, e, e'⟩ := ih
      -- what comes behind `s` is the same in both
      have next : ((ss ++ [g]).head?.map (·.id)) = (ss ++ g :: ts).head?.map (·.id) := by
        cases ss <;> rfl
      refine ⟨s.state ((ss ++ [g]).head?.map (·.id)) :: before, ?_, ?_⟩
      · rw [List.cons_append, states, e, List.cons_append]
      · rw [List.cons_append, states, e', next, List.cons_append]

/-! ### The end of a state -/

theorem exhausted_not_mem_guarded (body : List Action) : .exhausted ∉ guarded body :=
  fun h => nomatch (guarded_target h).1

/-- What comes behind a state matters only where it runs out. -/
theorem closing_cases (body : List Action) (next : String) :
    closing body none = closing body (some next) ∧ .exhausted ∉ closing body none ∨
      closing body none = [.exhausted] ∧ closing body (some next) = [.fallthrough next] := by
  unfold closing
  split
  · exact Or.inl ⟨rfl, by simp⟩
  · exact Or.inl ⟨rfl, by simp⟩
  · exact Or.inl ⟨rfl, by simp⟩
  · exact Or.inr ⟨rfl, rfl⟩

theorem onto_state (s : Segment) (next : String) :
    (s.state none).onto next = s.state (some next) := by
  have transitions : ∀ next?, (s.state next?).transitions =
      guarded (cut s.actions).1 ++ closing (cut s.actions).1 next? := fun _ => rfl
  rcases closing_cases (cut s.actions).1 next with ⟨same, out⟩ | ⟨ends, goesOn⟩
  · have never : (s.state none).transitions.getLast? ≠ some .exhausted := by
      intro h
      rcases List.mem_append.mp (transitions none ▸ List.mem_of_getLast? h) with h | h
      · exact exhausted_not_mem_guarded _ h
      · exact out h
    rw [State.onto, if_neg never]
    unfold state
    simp only [same]
  · have last : (s.state none).transitions.getLast? = some .exhausted := by
      rw [transitions, ends, List.getLast?_concat]
    rw [State.onto, if_pos last, transitions, ends, List.dropLast_concat]
    unfold state
    simp only [goesOn]

end Segment

/-! ### Compilations -/

theorem compileChecked_append {xs rest : List Action} (name : String) (h : xs ≠ []) :
    compileChecked (xs ++ .label name :: rest) =
      (compileChecked xs).followedBy name (compileChecked (.label name :: rest)) := by
  have lead : (Segment.split (.label name :: rest)).1 = [] := rfl
  have segments := Segment.ofActions_append lead xs
  have opening : Segment.ofActions (.label name :: rest) =
      ⟨name, (Segment.split rest).1⟩ :: (Segment.split rest).2 := Segment.ofActions_of_lead_nil lead
  obtain ⟨ss, g, e⟩ : ∃ ss g, Segment.ofActions xs = ss ++ [g] :=
    ⟨_, _, (List.dropLast_concat_getLast (Segment.ofActions_ne_nil h)).symm⟩
  obtain ⟨before, alone, together⟩ :=
    Segment.states_append ss g (Segment.ofActions (.label name :: rest))
  rw [e, List.append_assoc, List.singleton_append] at segments
  have warned : (ss ++ g :: Segment.ofActions (.label name :: rest)).filterMap Segment.warning? =
      (ss ++ [g]).filterMap Segment.warning? ++
        (Segment.ofActions (.label name :: rest)).filterMap Segment.warning? := by
    rw [← List.filterMap_append, List.append_assoc, List.singleton_append]
  simp only [compileChecked, Compilation.followedBy, Compilation.mk.injEq, Machine.mk.injEq]
  refine ⟨⟨?_, ?_⟩, ?_⟩
  · rw [segments, together, e, alone]
    cases before <;> rfl
  · rw [segments, together, e, alone, List.dropLast_concat, List.getLast?_concat, Option.map_some,
      Segment.onto_state, opening]
    simp
  · rw [segments, e, warned]

/-- **Two lists are compiled together as they are compiled alone**, where the second opens with a
label and they have no label in common. -/
theorem compile_append {xs ys : List Action} {a b : Compilation} {name : String}
    (hx : compile xs = .ok a) (hy : compile ys = .ok b) (opens : ys.head? = some (.label name))
    (apart : ∀ n, .label n ∈ ys → .label n ∉ xs) :
    compile (xs ++ ys) = .ok (a.followedBy name b) := by
  obtain ⟨wx, rfl⟩ := compile_eq_ok_iff.mp hx
  obtain ⟨wy, rfl⟩ := compile_eq_ok_iff.mp hy
  refine compile_eq_ok_iff.mpr ⟨wx.append wy apart, ?_⟩
  obtain ⟨rest, rfl⟩ := List.head?_eq_some_iff.mp opens
  exact compileChecked_append name wx.nonempty

/-- A dialogue that runs out at a gate. -/
def gateDialogue : List Action :=
  [.choice [⟨"Leave", "gate"⟩], .idleChats, .label "gate", .checkpoint "gate"]

def bedDialogue : List Action := [.label "bed", .conditional (.time .night) [.finish], .jump "bed"]

theorem compile_gateDialogue : compile gateDialogue = .ok (compileChecked gateDialogue) :=
  compile_of_isOk (by decide +kernel)

theorem compile_bedDialogue : compile bedDialogue = .ok (compileChecked bedDialogue) :=
  compile_of_isOk (by decide +kernel)

theorem compile_gate_bed :
    compile gateDialogue = .ok (compileChecked gateDialogue) ∧
      compile bedDialogue = .ok (compileChecked bedDialogue) ∧
        bedDialogue.head? = some (.label "bed") ∧
          (∀ n, .label n ∈ bedDialogue → .label n ∉ gateDialogue) ∧
            compile (gateDialogue ++ bedDialogue) =
              .ok ((compileChecked gateDialogue).followedBy "bed" (compileChecked bedDialogue)) := by
  have apart : ∀ n, .label n ∈ bedDialogue → .label n ∉ gateDialogue := by
    intro n h
    obtain rfl : n = "bed" := by simpa [bedDialogue] using h
    simp [gateDialogue]
  exact ⟨compile_gateDialogue, compile_bedDialogue, rfl, apart,
    compile_append compile_gateDialogue compile_bedDialogue rfl apart⟩

end Dialogue
