import Dialogue.Proofs.Script.Runs

/-!
# Writing without reading

A script writes to the recorder and never reads it.  So its code runs alike whatever was recorded
before, and what it records stands behind that (`WritesOnly`): the code goes on in the innermost
open block and leaves the blocks around as they are.  A block is opened for a body alone and closed
when the body ends, however it ends (`writesOnly_guarded`); so no block is open at the end of an
execution but the outermost, in which it began (`openBlocks_execute`).
-/

namespace Dialogue.Script

variable {ε α : Type}

/-- The state, where what it has recorded stands behind what `r` holds. -/
def State.behind (r : Recorder) (s : State) : State :=
  { s with recorder := ⟨r.top ++ s.recorder.top, r.outer⟩ }

/-- How a run ends behind the recorder `r`. -/
def after (r : Recorder) : EStateM.Result ε State α → EStateM.Result ε State α
  | .ok a s => .ok a (s.behind r)
  | .error e s => .error e (s.behind r)

/-- The code runs alike whatever recorder it finds, and only adds to its innermost block. -/
def WritesOnly (x : EStateM ε State α) : Prop :=
  ∀ (s : State) (r : Recorder), x { s with recorder := r } = after r (x { s with recorder := {} })

theorem State.behind_fresh (s : State) (r : Recorder) :
    State.behind r { s with recorder := {} } = { s with recorder := r } := by
  simp [State.behind]

theorem State.behind_behind (s : State) (r r' : Recorder) :
    (s.behind r').behind r = s.behind ⟨r.top ++ r'.top, r.outer⟩ := by
  simp [State.behind]

theorem after_after (r r' : Recorder) (e : EStateM.Result ε State α) :
    after r (after r' e) = after ⟨r.top ++ r'.top, r.outer⟩ e := by
  cases e <;> simp [after, State.behind_behind]

namespace WritesOnly

theorem run {x : EStateM ε State α} (h : WritesOnly x) (s : State) :
    x s = after s.recorder (x { s with recorder := {} }) := h s s.recorder

/-- Only more is recorded, in the same block. -/
theorem outer {x : EStateM ε State α} (h : WritesOnly x) {s s' : State} {a : α}
    (hx : x s = .ok a s') : s'.recorder.outer = s.recorder.outer := by
  rw [h.run] at hx
  cases e : x { s with recorder := {} } with
  | error _ t =>
      rw [e] at hx
      cases hx
  | ok b t =>
      rw [e] at hx
      cases hx
      rfl

/-- Code that leaves the recorder alone. -/
theorem of_left {x : EStateM ε State α}
    (h : ∀ s r, x { s with recorder := r } =
      match x s with
      | .ok a s' => .ok a { s' with recorder := r }
      | .error e s' => .error e { s' with recorder := r }) : WritesOnly x := by
  intro s r
  rw [h s r, h s {}]
  cases x s with
  | ok a s' => simp [after, State.behind_fresh]
  | error e s' => simp [after, State.behind_fresh]

theorem pure (a : α) : WritesOnly (pure a : EStateM ε State α) := of_left fun _ _ => rfl

theorem throw (e : ε) : WritesOnly (throw e : EStateM ε State α) := of_left fun _ _ => rfl

theorem bind {β : Type} {x : EStateM ε State α} {f : α → EStateM ε State β} (hx : WritesOnly x)
    (hf : ∀ a, WritesOnly (f a)) : WritesOnly (x >>= f) := by
  intro s r
  change EStateM.bind x f _ = after r (EStateM.bind x f _)
  unfold EStateM.bind
  rw [hx s r]
  cases x { s with recorder := {} } with
  | error e t => rfl
  | ok a t =>
      -- what `f` finds was recorded by `x`, once behind `r` and once alone
      calc f a (t.behind r)
          = after ⟨r.top ++ t.recorder.top, r.outer⟩ (f a { t with recorder := {} }) := hf a t _
        _ = after r (after t.recorder (f a { t with recorder := {} })) := (after_after r _ _).symm
        _ = after r (f a t) := by rw [← (hf a).run t]

theorem attempt {x : Eval α} (hx : WritesOnly x) : WritesOnly (Eval.attempt x) := by
  intro s r
  unfold Eval.attempt
  rw [hx s r]
  cases x { s with recorder := {} } <;> rfl

end WritesOnly

namespace Eval

/-- How a guarded body is run: in a block of its own, which is closed whatever the ending. -/
theorem run_guarded (condition : Condition) (body : Eval Unit) (s : State) :
    guarded condition body s =
      match body { s with recorder := s.recorder.openBlock } with
      | .ok () s' =>
        let (actions, recorder) := s'.recorder.closeBlock
        .ok () { s' with recorder := recorder.record (.conditional condition actions) }
      | .error e s' => .error e { s' with recorder := s'.recorder.closeBlock.2 } := by
  change EStateM.bind (attempt body) _ { s with recorder := s.recorder.openBlock } = _
  rw [EStateM.bind, attempt]
  cases body { s with recorder := s.recorder.openBlock } with
  | ok _ s' => rfl
  | error e s' => rfl

/-- A guarded body leaves its block behind; only if it comes to its end the block is recorded. -/
theorem writesOnly_guarded (condition : Condition) {body : Eval Unit} (h : WritesOnly body) :
    WritesOnly (guarded condition body) := by
  intro s r
  have inside : ∀ r : Recorder, body { s with recorder := r.openBlock } =
      after r.openBlock (body { s with recorder := {} }) := fun r => h s r.openBlock
  rw [run_guarded, run_guarded]
  dsimp only
  rw [inside r, inside {}]
  cases body { s with recorder := {} } with
  | ok _ t => simp [after, State.behind, Recorder.openBlock, Recorder.closeBlock, Recorder.record]
  | error e t => simp [after, State.behind, Recorder.openBlock, Recorder.closeBlock]

/-- **All code of a script only writes to the recorder.** -/
theorem inherited_writesOnly : Inherited fun {_} => WritesOnly where
  pure := .pure
  throw := .throw
  bind := .bind
  attempt := .attempt
  tick g := .of_left fun s r => by
    rw [run_tick, run_tick]
    dsimp only
    split
    · rfl
    · rfl
  tell event := .of_left fun _ _ => rfl
  allocate c := .of_left fun _ _ => rfl
  cellAt n := .of_left fun _ _ => rfl
  changeCell n f := .of_left fun _ _ => rfl
  outermost := .of_left fun _ _ => rfl
  declare f := .of_left fun _ _ => rfl
  record a s r := by
    change EStateM.Result.ok () _ = EStateM.Result.ok () _
    simp [State.behind, Recorder.record]
  guarded condition _ hb := writesOnly_guarded condition hb

end Eval

/-! ### Executions -/

theorem writesOnly_part {x : Eval α} (h : WritesOnly x) : WritesOnly (part x) := by
  intro s r
  have run : x { s with recorder := r, operations := 0 } =
      after r (x { s with recorder := {}, operations := 0 }) := h { s with operations := 0 } r
  unfold part
  dsimp only
  rw [run]
  cases x { s with recorder := {}, operations := 0 } with
  | ok _ t => rfl
  | error ending t => cases ending <;> rfl

theorem writesOnly_mainPart (g : Setting) : WritesOnly (mainPart g) :=
  writesOnly_part (Eval.inherited_writesOnly.main fuel g.program.main)

/-- The entry point is run with what was declared outside of functions. -/
theorem run_entryPart (g : Setting) (f : Function) (s : State) :
    entryPart g f s =
      match part (Eval.stmt g fuel { environment := s.outermost } f.body) s with
      | .ok _ t => .ok () t
      | .error fault t =>
        .error (if fault.cause.isFinal then { fault with pos := none } else fault) t := by
  change EStateM.tryCatch (part _) _ s = _
  delta EStateM.tryCatch
  dsimp only
  cases part (Eval.stmt g fuel { environment := s.outermost } f.body) s <;> rfl

theorem writesOnly_entryPart (g : Setting) (f : Function) : WritesOnly (entryPart g f) := by
  intro s r
  have body := writesOnly_part
    ((Eval.inherited_writesOnly.below fuel).stmt (g := g) { environment := s.outermost } f.body)
  rw [run_entryPart, run_entryPart]
  dsimp only
  rw [body s r]
  cases part (Eval.stmt g fuel { environment := s.outermost } f.body) { s with recorder := {} } with
  | ok _ t => rfl
  | error fault t => rfl

/-- **How an execution goes**: the statements outside of functions are run, and then the entry point
if there is one. -/
theorem run_parts (g : Setting) (entryPoint : String) (s : State) :
    parts g entryPoint s =
      match mainPart g s with
      | .error fault t => .error fault t
      | .ok () t =>
        match g.program.function? entryPoint 0 with
        | none =>
          .ok { actions := t.recorder.top, openBlocks := t.recorder.depth, hasEntryPoint := false,
                mainOperations := t.operations, entryOperations := 0 } { t with operations := 0 }
        | some f =>
          match entryPart g f t with
          | .error fault u => .error fault u
          | .ok () u =>
            .ok { actions := u.recorder.top, openBlocks := u.recorder.depth, hasEntryPoint := true,
                  mainOperations := t.operations, entryOperations := u.operations } u := by
  change EStateM.bind (mainPart g) _ s = _
  rw [EStateM.bind]
  cases mainPart g s with
  | error fault t => rfl
  | ok _ t =>
      change EStateM.bind EStateM.get _ t = _
      rw [EStateM.bind]
      dsimp only [EStateM.get]
      cases g.program.function? entryPoint 0 with
      | none => rfl
      | some f =>
          change EStateM.bind (entryPart g f) _ t = _
          rw [EStateM.bind]
          dsimp only
          cases entryPart g f t <;> rfl

/-- An execution that comes to its end. -/
theorem execute_eq_ok {g : Setting} {entryPoint : String} {events : List Event} {e : Execution}
    (h : execute g entryPoint = (events, .ok e)) :
    ∃ s, mainPart g {} = .ok () s ∧
      (g.program.function? entryPoint 0 = none ∧
          e = ⟨s.recorder.top, s.recorder.depth, false, s.operations, 0⟩ ∨
        ∃ f t, g.program.function? entryPoint 0 = some f ∧ entryPart g f s = .ok () t ∧
          e = ⟨t.recorder.top, t.recorder.depth, true, s.operations, t.operations⟩) := by
  unfold execute at h
  rw [EStateM.run, run_parts] at h
  cases main : mainPart g {} with
  | error fault s =>
      rw [main] at h
      cases h
  | ok _ s =>
      refine ⟨s, rfl, ?_⟩
      rw [main] at h
      dsimp only at h
      cases defines : g.program.function? entryPoint 0 with
      | none =>
          rw [defines] at h
          cases h
          exact Or.inl ⟨rfl, rfl⟩
      | some f =>
          rw [defines] at h
          dsimp only at h
          cases entry : entryPart g f s with
          | error fault t =>
              rw [entry] at h
              cases h
          | ok _ t =>
              rw [entry] at h
              cases h
              exact Or.inr ⟨f, t, rfl, entry, rfl⟩

/-- **After an execution no block is open but the outermost.** -/
theorem openBlocks_execute {g : Setting} {entryPoint : String} {events : List Event}
    {e : Execution} (h : execute g entryPoint = (events, .ok e)) : e.openBlocks = 0 := by
  obtain ⟨s, main, ⟨-, rfl⟩ | ⟨f, t, -, entry, rfl⟩⟩ := execute_eq_ok h
  all_goals have around : s.recorder.outer = [] := (writesOnly_mainPart g).outer main
  · exact congrArg List.length around
  · have same := (writesOnly_entryPart g f).outer entry
    exact congrArg List.length (same.trans around)

end Dialogue.Script
