import Dialogue.Script.Execution

/-!
# What every run inherits

The evaluator is put together of few small parts: they count operations, tell events, look at
cells and change them, see and declare variables, and record actions, some of them in blocks.  A
relation between the runs in two settings that holds of these parts, and that passes to what is put
together of them (`Congruence`), holds of all code that a script can have run (`Congruence.below`,
`Congruence.main`).  A property of runs is such a relation too, in one setting (`Inherited`).

The relation passes to code that is tried only where too many operations are not forgotten in what
follows.  That is so wherever the evaluator tries code (`Passes`): mostly because the failure goes
on, and behind a handler because no statement of it is run (`passes_handle`).

The induction is on the fuel.  `Congruence.Below` holds the relation for all parts of the evaluator
with some fuel, and each part has a lemma that goes one step up.
-/

namespace Dialogue.Script.Eval

/-- What a run sees of the variables outside of functions. -/
def outermost : Eval Environment := fun s => .ok s.outermost s

/-- Changes what is declared outside of functions. -/
def declare (f : Environment → Environment) : Eval Unit :=
  modify fun s => { s with outermost := f s.outermost }

/-- How a loop goes on behind a turn. -/
def onward (goOn : Eval Value) : Except Ending Value → Eval Value
  | .ok _ | .error .skip => goOn
  | .error (.leave v) => return v
  | .error e => throw e

/-- How it goes on behind the handler of a fault, which `throw;` throws again. -/
def rethrow (f : Fault) : Except Ending Value → Eval Value
  | .ok _ => return .unit
  | .error (.fault ⟨.raised .unit, [], pos⟩) => throw (.fault { f with pos })
  | .error e => throw e

/-- How it goes on behind code that was tried. -/
def handle (g : Setting) (n : Nat) (fr : Frame) (name : Option String) (handler : Stmt) :
    Except Ending Value → Eval Value
  | .ok v => return v
  | .error (.fault f) => do
    if f.cause.isFinal then throw (.fault f)
    let inner ←
      match name with
      | none => pure fr
      | some caught => do
        let cell ← allocate { value := f.caught g.unit }
        pure { fr with environment := (caught, cell) :: fr.environment }
    rethrow f (← attempt (stmt g n inner handler))
  | .error e => throw e

theorem stmt_attempt (g : Setting) (n : Nat) (fr : Frame) (body : Stmt) (name : Option String)
    (handler : Stmt) : stmt g (n + 1) fr (.attempt body name handler) =
      tick g >>= fun _ => attempt (stmt g n fr body) >>= handle g n fr name handler := by
  rw [stmt.eq_def]
  rfl

/-! ### How runs end -/

/-- The state in which a run ends. -/
def ended {ε α : Type} : EStateM.Result ε State α → State
  | .ok _ s | .error _ s => s

/-- The ending of a run as a value. -/
def outcome {α : Type} : EStateM.Result Ending State α → Except Ending α
  | .ok a _ => .ok a
  | .error e _ => .error e

section

variable {α β : Type} {x : Eval α} {s t : State} {e : Ending}

theorem bind_of_ok {f : α → Eval β} {a : α} (run : x s = .ok a t) : (x >>= f) s = f a t := by
  change EStateM.bind x f s = _
  rw [EStateM.bind, run]

theorem bind_of_error {f : α → Eval β} (run : x s = .error e t) : (x >>= f) s = .error e t := by
  change EStateM.bind x f s = _
  rw [EStateM.bind, run]

/-- Behind code that was tried it goes on in the state in which the code ended. -/
theorem run_tried (x : Eval α) (f : Except Ending α → Eval β) (s : State) :
    (attempt x >>= f) s = f (outcome (x s)) (ended (x s)) := by
  have tried : attempt x s = .ok (outcome (x s)) (ended (x s)) := by
    unfold attempt
    cases x s <;> rfl
  exact bind_of_ok tried

theorem run_tick (g : Setting) (s : State) :
    tick g s =
      (if g.maxOperations ≠ 0 ∧ g.maxOperations < s.operations + 1 then
        fail .tooManyOperations none else return ()) { s with operations := s.operations + 1 } :=
  rfl

/-- An ending with which a part of an execution fails. -/
inductive Fails : Ending → Prop where
  | fault (f : Fault) : Fails (.fault f)
  | starved : Fails .starved

/-- How a run comes out that fails. -/
inductive Failed : EStateM.Result Ending State α → Prop where
  | error {e : Ending} {s : State} (h : Fails e) : Failed (.error e s)

theorem Failed.bind (h : Failed (x s)) (f : α → Eval β) : Failed ((x >>= f) s) := by
  generalize run : x s = result at h
  cases h with
  | error fails =>
      rw [bind_of_error run]
      exact .error fails

/-- More operations are counted than may be carried out. -/
def Exceeds (g : Setting) (s : State) : Prop :=
  g.maxOperations ≠ 0 ∧ g.maxOperations < s.operations

/-- What follows code that was tried fails if the code failed with too many operations. -/
def Passes (g : Setting) (f : Except Ending α → Eval β) : Prop :=
  ∀ e s, Fails e → Exceeds g s → Failed (f (.error e) s)

end

/-- With too many operations counted no statement is run. -/
theorem failed_stmt {g : Setting} {s : State} (h : Exceeds g s) (n : Nat) (fr : Frame)
    (body : Stmt) : Failed (stmt g n fr body s) := by
  cases n with
  | zero =>
      rw [stmt.eq_def]
      exact .error .starved
  | succ n =>
      have ticks : Failed (tick g s) := by
        rw [run_tick, if_pos ⟨h.1, Nat.lt_succ_of_lt h.2⟩]
        exact .error (.fault _)
      rw [stmt.eq_def]
      exact ticks.bind _

theorem store_ok_or_failed (spot : Spot) (v : Value) (pos : Pos) (s : State) :
    (∃ t, store spot v pos s = .ok () t) ∨ Failed (store spot v pos s) := by
  obtain ⟨old, _ | ⟨cell, keys⟩⟩ := spot
  · exact Or.inl ⟨s, rfl⟩
  · have read : readCell cell s = .ok (s.cells.getD cell { value := .unit }).value s := rfl
    unfold Eval.store
    dsimp only
    rw [bind_of_ok read]
    cases (s.cells.getD cell { value := .unit }).value.setParts keys v pos with
    | ok new => exact Or.inl ⟨_, rfl⟩
    | error f => exact Or.inr (.error (.fault _))

theorem failed_rethrow {e : Ending} (h : Fails e) (f : Fault) (s : State) :
    Failed (rethrow f (.error e) s) := by
  generalize raised : (Except.error e : Except Ending Value) = ending
  unfold rethrow
  split
  · cases raised
  · exact .error (.fault _)
  · cases raised
    exact .error h

/-- A handler may catch what failed with too many operations, but no statement of it is run. -/
theorem passes_handle (g : Setting) (n : Nat) (fr : Frame) (name : Option String)
    (handler : Stmt) : Passes g (handle g n fr name handler) := by
  have handled (inner : Frame) (f : Fault) {s : State} (exceeds : Exceeds g s) :
      Failed ((attempt (stmt g n inner handler) >>= rethrow f) s) := by
    have failed := failed_stmt exceeds n inner handler
    rw [run_tried]
    generalize stmt g n inner handler s = result at failed
    cases failed with
    | error fails => exact failed_rethrow fails f _
  intro e s fails exceeds
  cases fails with
  | starved => exact .error .starved
  | fault f =>
      unfold Eval.handle
      dsimp only
      split
      · exact .error (.fault _)
      · cases name with
        | none => exact handled _ f exceeds
        | some name => exact handled _ f exceeds

/-! ### Congruences -/

/-- A relation between runs in two settings of one program that holds between the small parts of
the evaluator, and between what is put together of related parts. -/
structure Congruence (g g' : Setting) (R : {α : Type} → Eval α → Eval α → Prop) : Prop where
  program : g'.program = g.program
  unit : g'.unit = g.unit
  protected pure : ∀ {α : Type} (a : α), R (pure a) (pure a)
  protected throw : ∀ {α : Type} (e : Ending), R (throw e : Eval α) (throw e)
  protected bind : ∀ {α β : Type} {x x' : Eval α} {f f' : α → Eval β},
    R x x' → (∀ a, R (f a) (f' a)) → R (x >>= f) (x' >>= f')
  protected tried : ∀ {α β : Type} {x x' : Eval α} {f f' : Except Ending α → Eval β},
    R x x' → (∀ ending, R (f ending) (f' ending)) → Passes g f →
      R (attempt x >>= f) (attempt x' >>= f')
  protected tick : R (tick g) (tick g')
  protected tell : ∀ event, R (tell event) (tell event)
  protected allocate : ∀ c, R (allocate c) (allocate c)
  protected cellAt : ∀ n, R (cellAt n) (cellAt n)
  protected changeCell : ∀ n f, R (changeCell n f) (changeCell n f)
  protected outermost : R outermost outermost
  protected declare : ∀ f, R (declare f) (declare f)
  protected record : ∀ a, R (record a) (record a)
  protected guarded : ∀ condition {body body' : Eval Unit},
    R body body' → R (guarded condition body) (guarded condition body')

namespace Congruence

variable {g g' : Setting} {R : {α : Type} → Eval α → Eval α → Prop} {α β : Type}

/-! ### Ways to put runs together -/

protected theorem ite (_ : Congruence g g' R) {c : Prop} [Decidable c] {x x' y y' : Eval α}
    (hx : R x x') (hy : R y y') : R (if c then x else y) (if c then x' else y') := by
  split
  · exact hx
  · exact hy

section

variable (h : Congruence g g' R)

include h

/-- Code that looks at the state only for what is declared outside of functions. -/
protected theorem seen {f f' : State → Eval α}
    (same : ∀ s, f s = f { outermost := s.outermost })
    (same' : ∀ s, f' s = f' { outermost := s.outermost }) (hf : ∀ s, R (f s) (f' s)) :
    R (get >>= f) (get >>= f') := by
  have look {f : State → Eval α} (same : ∀ s, f s = f { outermost := s.outermost }) :
      (get >>= f) = (Eval.outermost >>= fun seen => f { outermost := seen }) := by
    funext s
    exact congrFun (same s) s
  rw [look same, look same']
  exact h.bind h.outermost fun _ => hf _

protected theorem map {x x' : Eval α} (f : α → β) (hx : R x x') : R (f <$> x) (f <$> x') := by
  rw [← bind_pure_comp, ← bind_pure_comp]
  exact h.bind hx fun a => h.pure (f a)

/-- Where a condition holds something is run first; the run goes on as `f` in any case. -/
protected theorem first_if {c : Prop} [Decidable c] {x x' : Eval Unit}
    {f f' : Unit → Eval α} (hx : R x x') (hf : ∀ a, R (f a) (f' a)) :
    R (if c then x >>= f else f ()) (if c then x' >>= f' else f' ()) :=
  h.ite (h.bind hx hf) (hf ())

protected theorem first_unless {c : Prop} [Decidable c] {x x' : Eval Unit}
    {f f' : Unit → Eval α} (hx : R x x') (hf : ∀ a, R (f a) (f' a)) :
    R (if c then f () else x >>= f) (if c then f' () else x' >>= f') :=
  h.ite (hf ()) (h.bind hx hf)

protected theorem discard {x x' : Eval α} (hx : R x x') : R (discard x) (discard x') := h.map _ hx

/-! ### The small parts -/

protected theorem fail (cause : Cause) (pos : Option Pos) :
    R (fail cause pos : Eval α) (fail cause pos : Eval α) :=
  h.throw _

protected theorem ofParts (x : Except PartFault α) : R (ofParts x) (ofParts x) := by
  cases x with
  | ok a => exact h.pure a
  | error f => exact h.fail _ _

protected theorem ofOperator (sign : String) (operands : List Value) (pos : Pos)
    (place : Option Pos) (x : Except OperatorFault α) :
    R (ofOperator sign operands pos place x) (ofOperator sign operands pos place x) := by
  unfold Eval.ofOperator
  split
  · exact h.pure _
  all_goals exact h.fail _ _

protected theorem truth (v : Value) (pos : Pos) : R (truth v pos) (truth v pos) := by
  unfold Eval.truth
  split
  · exact h.pure _
  · exact h.fail _ _

protected theorem callable (v : Value) (pos : Pos) : R (callable v pos) (callable v pos) :=
  h.ite (h.pure _) (h.fail _ _)

protected theorem textOf (v : Value) (pos : Pos) : R (textOf v pos) (textOf v pos) := by
  unfold Eval.textOf
  split
  · exact h.pure _
  · exact h.fail _ _

protected theorem writeCell (n : Nat) (v : Value) : R (writeCell n v) (writeCell n v) :=
  h.changeCell n _

protected theorem readCell (n : Nat) : R (readCell n) (readCell n) :=
  h.bind (h.cellAt n) fun _ => h.pure _

protected theorem allocateAll (vs : List (String × Value)) :
    R (allocateAll vs) (allocateAll vs) := by
  induction vs with
  | nil => exact h.pure _
  | cons v vs ih => exact h.bind (h.allocate _) fun _ => h.bind ih fun _ => h.pure _

protected theorem parameters (params : List String) (args : List Value) :
    R (Eval.bind params args) (Eval.bind params args) :=
  h.bind (h.allocateAll _) fun _ => h.pure _

protected theorem cellOf (fr : Frame) (name : String) (away : Option Nat) (pos : Pos) :
    R (cellOf fr name away pos) (cellOf fr name away pos) := by
  unfold Eval.cellOf
  dsimp only
  split
  · refine h.bind (h.cellAt _) fun c => h.ite ?_ (h.pure _)
    exact h.bind (h.fail _ _) fun _ => h.pure _
  · exact h.fail _ _

protected theorem whileInUse (n : Nat) {steps steps' : Eval Value} (hs : R steps steps') :
    R (whileInUse n steps) (whileInUse n steps') := by
  refine h.bind (h.cellAt n) fun c => h.ite ?_ hs
  refine h.bind (h.changeCell n _) fun _ => h.tried hs (fun ending => ?_) ?_
  · refine h.bind (h.changeCell n _) fun _ => ?_
    cases ending with
    | ok v => exact h.pure v
    | error e => exact h.throw e
  · exact fun _ _ fails _ => .error fails

protected theorem objectOf (fr : Frame) (pos : Pos) : R (objectOf fr pos) (objectOf fr pos) := by
  unfold Eval.objectOf
  split
  · exact h.pure _
  · exact h.fail _ _

protected theorem spotOf (n : Nat) : R (spotOf n) (spotOf n) :=
  h.bind (h.readCell n) fun _ => h.pure _

protected theorem isFixed (s : Spot) : R (isFixed s) (isFixed s) := by
  unfold Eval.isFixed
  split
  · exact h.bind (h.cellAt _) fun _ => h.pure _
  · exact h.pure _

protected theorem store (s : Spot) (v : Value) (pos : Pos) : R (store s v pos) (store s v pos) := by
  unfold Eval.store
  split
  · refine h.bind (h.readCell _) fun old => h.bind (h.ofParts _) fun new => h.writeCell _ new
  · exact h.pure _

protected theorem combine (op : Option Binary) (old new : Value) (pos : Pos) :
    R (combine op old new pos) (combine op old new pos) := by
  unfold Eval.combine
  split
  case h_4 => exact h.ofOperator _ _ _ _ _
  all_goals exact h.pure _

protected theorem assign (op : Option Binary) (s : Spot) (new : Value) (root : String)
    (rootPos pos : Pos) :
    R (assign op s new root rootPos pos) (assign op s new root rootPos pos) := by
  refine h.bind (h.isFixed s) fun fixed => h.first_if (h.fail _ _) fun _ => ?_
  exact h.bind (h.combine _ _ _ _) fun v => h.store s v pos

protected theorem assignPart (op : Option Binary) (s : Spot) (key : Key) (new : Value)
    (root : String) (rootPos pos : Pos) :
    R (assignPart op s key new root rootPos pos)
      (assignPart op s key new root rootPos pos) := by
  have field (k : Key) (home : Option (Nat × List Key)) :=
    h.bind (h.ofParts (s.value.part k)) fun v => h.assign op ⟨v, home⟩ new root rootPos pos
  unfold Eval.assignPart
  split
  · refine h.ite (field _ _) (h.bind (h.ofParts _) fun _ => h.bind (h.store _ _ _) fun _ => ?_)
    exact field _ _
  · refine h.ite (field _ _) (h.bind (h.ofParts _) fun _ => h.bind (h.store _ _ _) fun _ => ?_)
    exact field _ _
  · refine h.ite (h.bind (h.ofParts _) fun old => ?_) (h.bind (h.pure _) fun old => ?_)
    all_goals exact h.bind (h.combine _ _ _ _) fun _ => h.discard (h.ofParts _)
  · split
    · exact h.assign _ _ _ _ _ _
    · exact h.discard (h.ofParts _)
    · exact h.fail _ _

protected theorem rethrow (f : Fault) (ending : Except Ending Value) :
    R (rethrow f ending) (rethrow f ending) := by
  unfold Eval.rethrow
  split
  · exact h.pure _
  · exact h.throw _
  · exact h.throw _

protected theorem turn {x x' goOn goOn' : Eval Value} (hx : R x x') (hg : R goOn goOn') :
    R (attempt x >>= onward goOn) (attempt x' >>= onward goOn') := by
  refine h.tried hx (fun ending => ?_) fun e s fails _ => ?_
  · unfold onward
    split
    · exact hg
    · exact hg
    · exact h.pure _
    · exact h.throw _
  · cases fails with
    | fault f => exact .error (.fault f)
    | starved => exact .error .starved

end

/-! ### The evaluator -/

/-- Every part of the evaluator is in the relation if it has fuel `n`. -/
structure Below (g g' : Setting) (R : {α : Type} → Eval α → Eval α → Prop) (n : Nat) : Prop where
  expr : ∀ fr e, R (expr g n fr e) (expr g' n fr e)
  exprs : ∀ fr es, R (exprs g n fr es) (exprs g' n fr es)
  fieldsOf : ∀ fr fields, R (fieldsOf g n fr fields) (fieldsOf g' n fr fields)
  capture : ∀ fr captured, R (capture g n fr captured) (capture g' n fr captured)
  stepsOf : ∀ fr ss, R (stepsOf g n fr ss) (stepsOf g' n fr ss)
  follow : ∀ fr spot taken, R (follow g n fr spot taken) (follow g' n fr spot taken)
  run : ∀ fr callee body pos, R (run g n fr callee body pos) (run g' n fr callee body pos)
  runOn : ∀ fr spot callee body pos,
      R (runOn g n fr spot callee body pos) (runOn g' n fr spot callee body pos)
  callNamed : ∀ fr name args pos,
      R (callNamed g n fr name args pos) (callNamed g' n fr name args pos)
  callNamedOn : ∀ fr spot name args pos,
      R (callNamedOn g n fr spot name args pos) (callNamedOn g' n fr spot name args pos)
  nativeOn : ∀ fr spot name args pos,
      R (nativeOn g n fr spot name args pos) (nativeOn g' n fr spot name args pos)
  native : ∀ fr name args pos, R (native g n fr name args pos) (native g' n fr name args pos)
  apply : ∀ level f args pos, R (apply g n level f args pos) (apply g' n level f args pos)
  applyOn : ∀ level spot f args pos,
      R (applyOn g n level spot f args pos) (applyOn g' n level spot f args pos)
  method : ∀ fr spot name args argPos pos,
      R (method g n fr spot name args argPos pos) (method g' n fr spot name args argPos pos)
  call : ∀ fr name args pos, R (call g n fr name args pos) (call g' n fr name args pos)
  stmt : ∀ fr s, R (stmt g n fr s) (stmt g' n fr s)
  assignTo : ∀ fr op target new pos,
      R (assignTo g n fr op target new pos) (assignTo g' n fr op target new pos)
  stmts : ∀ fr body, R (stmts g n fr body) (stmts g' n fr body)
  switch : ∀ fr listed otherwise,
      R (switch g n fr listed otherwise) (switch g' n fr listed otherwise)
  turns : ∀ fr cond body, R (turns g n fr cond body) (turns g' n fr cond body)
  again : ∀ fr body cond goOn, R (again g n fr body cond goOn) (again g' n fr body cond goOn)
  each : ∀ fr cell count i supply body,
      R (each g n fr cell count i supply body) (each g' n fr cell count i supply body)

section

variable (h : Congruence g g' R) {n : Nat} (ih : Below g g' R n)

include h ih

theorem expr_succ (fr : Frame) (e : Expr) : R (expr g (n + 1) fr e) (expr g' (n + 1) fr e) := by
  rw [Eval.expr.eq_def g, Eval.expr.eq_def g']
  refine h.bind h.tick fun _ => ?_
  cases e with
  | literal l pos => exact h.pure _
  | template parts pos => exact h.bind (ih.exprs _ _) fun _ => h.pure _
  | array items pos => exact h.bind (ih.exprs _ _) fun _ => h.pure _
  | map fields pos => exact h.bind (ih.fieldsOf _ _) fun _ => h.pure _
  | var name away pos => exact h.bind (h.cellOf _ _ _ _) fun _ => h.readCell _
  | this pos => exact h.bind (h.objectOf _ _) fun _ => h.readCell _
  | function name pos => exact h.pure _
  | closure captured params body pos => exact h.bind (ih.capture _ _) fun _ => h.pure _
  | call name args pos => exact ih.call _ _ _ _
  | chain base ss pos =>
      refine h.bind (ih.stepsOf _ _) fun taken => ?_
      split
      · refine h.bind (h.cellOf _ _ _ _) fun cell => h.whileInUse _ ?_
        exact h.bind (h.spotOf _) fun _ => ih.follow _ _ _
      · exact h.bind (h.objectOf _ _) fun _ => h.bind (h.spotOf _) fun _ => ih.follow _ _ _
      · exact h.bind (ih.expr _ _) fun _ => ih.follow _ _ _
  | unary op arg pos => exact h.bind (ih.expr _ _) fun _ => h.ofOperator _ _ _ _ _
  | binary op left right pos =>
      exact h.bind (ih.expr _ _) fun _ => h.bind (ih.expr _ _) fun _ => h.ofOperator _ _ _ _ _
  | choice op left right pos =>
      have second := h.bind (ih.expr fr right) fun v =>
        h.bind (h.truth v right.pos) fun b => h.pure (Value.bool b)
      cases op with
      | and =>
          exact h.bind (ih.expr _ _) fun _ => h.bind (h.truth _ _) fun _ => h.ite second (h.pure _)
      | or =>
          exact h.bind (ih.expr _ _) fun _ => h.bind (h.truth _ _) fun _ => h.ite (h.pure _) second
      | coalesce =>
          refine h.bind (ih.expr _ _) fun v => ?_
          split
          · exact ih.expr _ _
          · exact h.pure _
  | range first last inclusive pos =>
      refine h.bind (ih.expr _ _) fun x => h.bind (ih.expr _ _) fun y => ?_
      split
      · exact h.pure _
      · exact h.fail _ _
  | stmt body pos => exact ih.stmt _ _

theorem exprs_succ (fr : Frame) (es : List Expr) :
    R (exprs g (n + 1) fr es) (exprs g' (n + 1) fr es) := by
  rw [Eval.exprs.eq_def g, Eval.exprs.eq_def g']
  cases es with
  | nil => exact h.pure _
  | cons e rest => exact h.bind (ih.expr _ _) fun _ => h.bind (ih.exprs _ _) fun _ => h.pure _

theorem fieldsOf_succ (fr : Frame) (fields : List (String × Expr)) :
    R (fieldsOf g (n + 1) fr fields) (fieldsOf g' (n + 1) fr fields) := by
  rw [Eval.fieldsOf.eq_def g, Eval.fieldsOf.eq_def g']
  cases fields with
  | nil => exact h.pure _
  | cons f rest =>
      exact h.bind (ih.expr _ _) fun _ => h.bind (ih.fieldsOf _ _) fun _ => h.pure _

theorem capture_succ (fr : Frame) (captured : List (String × Expr)) :
    R (capture g (n + 1) fr captured) (capture g' (n + 1) fr captured) := by
  rw [Eval.capture.eq_def g, Eval.capture.eq_def g']
  cases captured with
  | nil => exact h.pure _
  | cons f rest =>
      dsimp only
      split
      · refine h.bind (h.cellOf _ _ _ _) fun cell => h.bind (h.changeCell _ _) fun _ => ?_
        exact h.bind (ih.capture _ _) fun _ => h.pure _
      · exact h.bind (ih.expr _ _) fun _ => h.bind (ih.capture _ _) fun _ => h.pure _

theorem stepsOf_succ (fr : Frame) (ss : List Step) :
    R (stepsOf g (n + 1) fr ss) (stepsOf g' (n + 1) fr ss) := by
  rw [Eval.stepsOf.eq_def g, Eval.stepsOf.eq_def g']
  cases ss with
  | nil => exact h.pure _
  | cons s rest =>
      have others (t : Taken) := h.bind (ih.stepsOf fr rest) fun taken => h.pure (t :: taken)
      cases s with
      | property name pos => exact h.bind (h.pure _) others
      | index e bracket => exact h.bind (ih.expr _ _) fun _ => h.bind (h.pure _) others
      | method name args pos => exact h.bind (ih.exprs _ _) fun _ => h.bind (h.pure _) others
      | present => exact h.bind (h.pure _) others

theorem follow_succ (fr : Frame) (spot : Spot) (taken : List Taken) :
    R (follow g (n + 1) fr spot taken) (follow g' (n + 1) fr spot taken) := by
  rw [Eval.follow.eq_def g, Eval.follow.eq_def g']
  cases taken with
  | nil => exact h.pure _
  | cons t rest =>
      cases t with
      | key k => exact h.bind (h.ofParts _) fun _ => ih.follow _ _ _
      | method name args argPos pos =>
          exact h.bind (ih.method _ _ _ _ _ _) fun _ => ih.follow _ _ _
      | present => exact h.ite (h.pure _) (ih.follow _ _ _)

theorem run_succ (fr : Frame) (callee : Callee) (body : Stmt) (pos : Pos) :
    R (run g (n + 1) fr callee body pos) (run g' (n + 1) fr callee body pos) := by
  rw [Eval.run.eq_def g, Eval.run.eq_def g']
  refine h.bind h.tick fun _ => ?_
  refine h.first_if (h.fail _ _) fun _ => h.tried (ih.stmt _ _) (fun ending => ?_) ?_
  · split
    · exact h.pure _
    · exact h.pure _
    · exact h.throw _
    · exact h.throw _
  · intro e s fails _
    cases fails with
    | fault f => exact .error (.fault _)
    | starved => exact .error .starved

theorem runOn_succ (fr : Frame) (spot : Spot) (callee : Callee) (body : Stmt) (pos : Pos) :
    R (runOn g (n + 1) fr spot callee body pos) (runOn g' (n + 1) fr spot callee body pos) := by
  rw [Eval.runOn.eq_def g, Eval.runOn.eq_def g']
  refine h.bind (h.isFixed _) fun fixed => h.bind (h.allocate _) fun object => ?_
  refine h.tried (ih.run _ _ _ _) (fun ending => ?_) fun e s fails _ => ?_
  · refine h.bind (h.readCell _) fun v => h.bind (h.store _ _ _) fun _ => ?_
    cases ending with
    | ok v => exact h.pure _
    | error e => exact h.throw _
  · -- to put the object back may fail too, and then with a fault of its own
    change Failed ((store spot _ pos >>= fun _ => throw e) s)
    obtain ⟨t, stored⟩ | failed := store_ok_or_failed spot _ pos s
    · rw [bind_of_ok stored]
      exact .error fails
    · exact failed.bind _

theorem callNamed_succ (fr : Frame) (name : String) (args : List Value) (pos : Pos) :
    R (callNamed g (n + 1) fr name args pos) (callNamed g' (n + 1) fr name args pos) := by
  rw [Eval.callNamed.eq_def g, Eval.callNamed.eq_def g', h.program]
  dsimp only
  split
  · exact h.ite (h.pure _) (h.bind (h.parameters _ _) fun _ => ih.run _ _ _ _)
  · exact ih.native _ _ _ _

theorem callNamedOn_succ (fr : Frame) (spot : Spot) (name : String) (args : List Value)
    (pos : Pos) :
    R (callNamedOn g (n + 1) fr spot name args pos)
      (callNamedOn g' (n + 1) fr spot name args pos) := by
  rw [Eval.callNamedOn.eq_def g, Eval.callNamedOn.eq_def g', h.program]
  dsimp only
  split
  · exact h.ite (h.pure _) (h.bind (h.parameters _ _) fun _ => ih.runOn _ _ _ _ _)
  · exact ih.nativeOn _ _ _ _ _

theorem nativeOn_succ (fr : Frame) (spot : Spot) (name : String) (args : List Value)
    (pos : Pos) :
    R (nativeOn g (n + 1) fr spot name args pos)
      (nativeOn g' (n + 1) fr spot name args pos) := by
  rw [Eval.nativeOn.eq_def g, Eval.nativeOn.eq_def g']
  dsimp only
  split
  · refine h.bind (h.isFixed _) fun fixed => h.first_if (h.fail _ _) fun _ => ?_
    exact h.bind (h.store _ _ _) fun _ => h.pure _
  · exact ih.native _ _ _ _

theorem native_succ (fr : Frame) (name : String) (args : List Value) (pos : Pos) :
    R (native g (n + 1) fr name args pos) (native g' (n + 1) fr name args pos) := by
  rw [Eval.native.eq_def g, Eval.native.eq_def g', h.unit]
  dsimp only
  split
  · exact h.throw _
  · exact h.throw _
  · exact h.bind (h.tell _) fun _ => h.pure _
  · exact h.bind (h.tell _) fun _ => h.pure _
  · exact h.bind (h.tell _) fun _ => h.pure _
  · exact h.bind (h.tell _) fun _ => h.pure _
  · exact h.bind (h.ofOperator _ _ _ _ _) fun _ => h.pure _
  · split
    · exact h.pure _
    · exact h.throw _
    · split
      · exact h.bind (h.record _) fun _ => h.pure _
      · exact h.bind (h.guarded _ (h.discard (ih.apply _ _ _ _))) fun _ => h.pure _
      · exact h.pure _
      · exact h.fail _ _
      · exact h.fail _ _

theorem apply_succ (level : Nat) (f : Value) (args : List Value) (pos : Pos) :
    R (apply g (n + 1) level f args pos) (apply g' (n + 1) level f args pos) := by
  rw [Eval.apply.eq_def g, Eval.apply.eq_def g']
  cases f with
  | closure params body environment copies =>
      refine h.first_unless (h.fail _ _) fun _ => h.bind (h.parameters _ _) fun _ => ?_
      exact h.bind (h.allocateAll _) fun _ => ih.run _ _ _ _
  | function name => exact ih.callNamed _ _ _ _
  | given f first => exact ih.apply _ _ _ _
  | _ => exact h.fail _ _

theorem applyOn_succ (level : Nat) (spot : Spot) (f : Value) (args : List Value) (pos : Pos) :
    R (applyOn g (n + 1) level spot f args pos) (applyOn g' (n + 1) level spot f args pos) := by
  rw [Eval.applyOn.eq_def g, Eval.applyOn.eq_def g']
  cases f with
  | closure params body environment copies =>
      refine h.first_unless (h.fail _ _) fun _ => h.bind (h.parameters _ _) fun _ => ?_
      exact h.bind (h.allocateAll _) fun _ => ih.runOn _ _ _ _ _
  | function name => exact ih.callNamedOn _ _ _ _ _
  | given f first => exact ih.applyOn _ _ _ _ _
  | _ => exact h.fail _ _

theorem method_succ (fr : Frame) (spot : Spot) (name : String) (args : List Value)
    (argPos pos : Pos) :
    R (method g (n + 1) fr spot name args argPos pos)
      (method g' (n + 1) fr spot name args argPos pos) := by
  rw [Eval.method.eq_def g, Eval.method.eq_def g']
  dsimp only
  split
  · exact h.bind (h.callable _ _) fun _ => h.pure _
  · split
    · exact h.bind (h.cellAt _) fun _ => h.pure _
    · exact h.pure _
  · exact h.bind (h.callable _ _) fun _ => ih.applyOn _ _ _ _ _
  · refine h.ite (ih.apply _ _ _ _) ?_
    split
    · exact h.fail _ _
    · exact h.bind (h.callable _ _) fun _ => ih.applyOn _ _ _ _ _
  · split
    · exact h.ite (ih.applyOn _ _ _ _ _) (ih.callNamedOn _ _ _ _ _)
    · exact ih.callNamedOn _ _ _ _ _
  · exact ih.callNamedOn _ _ _ _ _

theorem call_succ (fr : Frame) (name : String) (args : List Expr) (pos : Pos) :
    R (call g (n + 1) fr name args pos) (call g' (n + 1) fr name args pos) := by
  rw [Eval.call.eq_def g, Eval.call.eq_def g', h.program]
  dsimp only
  split
  · refine h.bind (ih.expr _ _) fun f => h.bind (h.callable _ _) fun _ => ?_
    exact h.bind (ih.exprs _ _) fun _ => ih.apply _ _ _ _
  · refine h.bind (ih.expr _ _) fun f => h.bind (h.callable _ _) fun _ => ?_
    exact h.bind (ih.exprs _ _) fun _ => h.pure _
  · refine h.bind (ih.expr _ _) fun v => h.bind (h.textOf _ _) fun s => ?_
    exact h.ite (h.pure _) (h.fail _ _)
  · exact h.bind (h.cellOf _ _ _ _) fun _ => h.bind (h.cellAt _) fun _ => h.pure _
  · exact h.bind (ih.expr _ _) fun _ => h.pure _
  · exact h.bind (ih.expr _ _) fun _ => h.bind (h.textOf _ _) fun _ => h.pure _
  · refine h.bind (ih.expr _ _) fun v => h.bind (h.textOf _ _) fun s => ?_
    refine h.bind (ih.expr _ _) fun count => ?_
    split
    · exact h.pure _
    · exact h.fail _ _
  · refine h.bind (ih.exprs _ _) fun vs => h.bind (h.cellOf _ _ _ _) fun cell => ?_
    refine h.bind (h.cellAt _) fun c => ?_
    split
    · exact ih.callNamed _ _ _ _
    · exact ih.nativeOn _ _ _ _ _
  · refine h.bind (h.objectOf _ _) fun cell => h.bind (ih.exprs _ _) fun vs => ?_
    split
    · exact h.bind (h.readCell _) fun _ => ih.callNamed _ _ _ _
    · exact h.bind (h.spotOf _) fun _ => ih.nativeOn _ _ _ _ _
  · refine h.bind (ih.exprs _ _) fun vs => ?_
    split
    · exact ih.callNamed _ _ _ _
    · split
      · exact ih.callNamed _ _ _ _
      · exact ih.nativeOn _ _ _ _ _

protected theorem handle (fr : Frame) (name : Option String) (handler : Stmt)
    (ending : Except Ending Value) :
    R (handle g n fr name handler ending) (handle g' n fr name handler ending) := by
  have handled (inner : Frame) (f : Fault) : R (attempt (stmt g n inner handler) >>= rethrow f)
      (attempt (stmt g' n inner handler) >>= rethrow f) :=
    h.tried (ih.stmt inner handler) (h.rethrow f) fun _ s fails _ => failed_rethrow fails f s
  unfold Eval.handle
  split
  · exact h.pure _
  · rw [h.unit]
    refine h.first_if (h.throw _) fun _ => ?_
    cases name with
    | none => exact h.bind (h.pure _) fun inner => handled inner _
    | some name =>
        refine h.bind (h.allocate _) fun cell => ?_
        exact h.bind (h.pure _) fun inner => handled inner _
  · exact h.throw _

theorem stmt_succ (fr : Frame) (s : Stmt) : R (stmt g (n + 1) fr s) (stmt g' (n + 1) fr s) := by
  rw [Eval.stmt.eq_def g, Eval.stmt.eq_def g']
  refine h.bind h.tick fun _ => ?_
  cases s with
  | nothing => exact h.pure _
  | expr e => exact ih.expr _ _
  | declare name constant place value =>
      cases value with
      | none => exact h.pure _
      | some e => exact h.bind (ih.expr _ _) fun _ => h.pure _
  | assign op target value pos =>
      dsimp only
      split
      · refine h.bind (h.discard (h.objectOf _ _)) fun _ => h.bind (ih.expr _ _) fun new => ?_
        exact h.bind (ih.assignTo _ _ _ _ _) fun _ => h.pure _
      · refine h.bind (ih.expr _ _) fun new => ?_
        exact h.bind (ih.assignTo _ _ _ _ _) fun _ => h.pure _
  | block body => exact ih.stmts _ _
  | branch cond yes no =>
      refine h.bind (ih.expr _ _) fun v => h.bind (h.truth _ _) fun b => h.ite (ih.stmt _ _) ?_
      cases no with
      | none => exact h.pure _
      | some s => exact ih.stmt _ _
  | switch subject listed otherwise => exact h.bind (ih.expr _ _) fun _ => ih.switch _ _ _
  | loop cond body => exact ih.turns _ _ _
  | again body cond goOn => exact ih.again _ _ _ _
  | each item counter source body =>
      refine h.bind (ih.expr _ _) fun v => ?_
      split
      · exact h.fail _ _
      · refine h.bind (h.allocate _) fun cell => h.bind (h.allocate _) fun count => ?_
        exact ih.each _ _ _ _ _ _
  | leave value =>
      cases value with
      | none => exact h.throw _
      | some e => exact h.bind (ih.expr _ _) fun _ => h.throw _
  | skip => exact h.throw _
  | giveBack value =>
      cases value with
      | none => exact h.throw _
      | some e => exact h.bind (ih.expr _ _) fun _ => h.throw _
  | raise value pos =>
      cases value with
      | none => exact h.fail _ _
      | some e => exact h.bind (ih.expr _ _) fun _ => h.fail _ _
  | attempt body name handler =>
      exact h.tried (ih.stmt _ _) (h.handle ih fr name handler) (passes_handle g n fr name handler)

theorem assignTo_succ (fr : Frame) (op : Option Binary) (target : Expr) (new : Value)
    (pos : Pos) :
    R (assignTo g (n + 1) fr op target new pos) (assignTo g' (n + 1) fr op target new pos) := by
  rw [Eval.assignTo.eq_def g, Eval.assignTo.eq_def g']
  cases target with
  | var name away p =>
      refine h.bind (h.cellOf _ _ _ _) fun cell => h.bind (h.spotOf _) fun spot => ?_
      exact h.assign _ _ _ _ _ _
  | this p =>
      refine h.bind (h.objectOf _ _) fun cell => h.bind (h.spotOf _) fun spot => ?_
      exact h.assign _ _ _ _ _ _
  | chain base ss p =>
      refine h.bind (ih.stepsOf _ _) fun taken => ?_
      dsimp only
      split
      · refine h.bind (h.cellOf _ _ _ _) fun cell => h.bind (h.pure _) fun _ => ?_
        refine h.bind (h.spotOf _) fun spot => h.bind (h.ofParts _) fun found => ?_
        split
        · exact h.assignPart _ _ _ _ _ _ _
        · exact h.pure _
      · refine h.bind (h.objectOf _ _) fun cell => h.bind (h.pure _) fun _ => ?_
        refine h.bind (h.spotOf _) fun spot => h.bind (h.ofParts _) fun found => ?_
        split
        · exact h.assignPart _ _ _ _ _ _ _
        · exact h.pure _
  | _ => exact h.pure _

theorem stmts_succ (fr : Frame) (body : List Stmt) :
    R (stmts g (n + 1) fr body) (stmts g' (n + 1) fr body) := by
  rw [Eval.stmts.eq_def g, Eval.stmts.eq_def g']
  split
  case h_1 => exact h.throw _
  case h_2 => exact h.pure _
  case h_3 fr _ _ _ fuel name constant place value rest hn =>
    cases hn
    have declared (v : Value) :=
      h.bind (h.allocate { value := v, constant := if constant then some v else none }) fun cell =>
        ih.stmts { fr with environment := withVariable fr.environment name cell place } rest
    refine h.bind h.tick fun _ => ?_
    cases value with
    | none => exact h.bind (h.pure _) declared
    | some e => exact h.bind (ih.expr _ _) declared
  case h_4 hn =>
    cases hn
    exact ih.stmt _ _
  case h_5 hn =>
    cases hn
    exact h.bind (ih.stmt _ _) fun _ => ih.stmts _ _

theorem switch_succ (fr : Frame) (listed : List Case) (otherwise : Option Stmt) :
    R (switch g (n + 1) fr listed otherwise) (switch g' (n + 1) fr listed otherwise) := by
  cases listed with
  | nil =>
      cases otherwise with
      | none => rw [Eval.switch, Eval.switch]; exact h.pure _
      | some s => rw [Eval.switch, Eval.switch]; exact ih.stmt _ _
  | cons c rest =>
      obtain ⟨vs, cond, body⟩ := c
      cases cond with
      | none => rw [Eval.switch, Eval.switch]; exact ih.stmt _ _
      | some cond =>
          rw [Eval.switch, Eval.switch]
          refine h.bind (ih.expr _ _) fun v => h.bind (h.truth _ _) fun b => ?_
          exact h.ite (ih.stmt _ _) (ih.switch _ _ _)

theorem turns_succ (fr : Frame) (cond : Option Expr) (body : Stmt) :
    R (turns g (n + 1) fr cond body) (turns g' (n + 1) fr cond body) := by
  have taken (goOn : Bool) := h.ite (c := goOn = true)
    (h.turn (ih.stmt fr body) (ih.turns fr cond body)) (h.pure Value.unit)
  rw [Eval.turns.eq_def g, Eval.turns.eq_def g']
  cases cond with
  | none => exact h.bind (h.pure _) taken
  | some c => exact h.bind (ih.expr _ _) fun _ => h.bind (h.truth _ _) taken

theorem again_succ (fr : Frame) (body : Stmt) (cond : Expr) (goOn : Bool) :
    R (again g (n + 1) fr body cond goOn) (again g' (n + 1) fr body cond goOn) := by
  rw [Eval.again.eq_def g, Eval.again.eq_def g']
  refine h.turn (ih.stmt _ _) ?_
  refine h.bind (ih.expr _ _) fun v => h.bind (h.truth _ _) fun b => ?_
  exact h.ite (ih.again _ _ _ _) (h.pure _)

theorem each_succ (fr : Frame) (cell count i : Nat) (supply : Supply) (body : Stmt) :
    R (each g (n + 1) fr cell count i supply body)
      (each g' (n + 1) fr cell count i supply body) := by
  rw [Eval.each.eq_def g, Eval.each.eq_def g']
  dsimp only
  split
  · exact h.pure _
  · refine h.bind h.tick fun _ => h.bind (h.writeCell _ _) fun _ => ?_
    exact h.bind (h.writeCell _ _) fun _ => h.turn (ih.stmt _ _) (ih.each _ _ _ _ _ _)

end

/-- **Every part of the evaluator is in the relation**, with any fuel. -/
theorem below (h : Congruence g g' R) (n : Nat) : Below g g' R n := by
  induction n with
  | zero =>
      constructor
      all_goals
        intros
        simp only [Eval.expr, Eval.exprs, Eval.fieldsOf, Eval.capture, Eval.stepsOf, Eval.follow,
          Eval.run, Eval.runOn, Eval.callNamed, Eval.callNamedOn, Eval.nativeOn, Eval.native,
          Eval.apply, Eval.applyOn, Eval.method, Eval.call, Eval.stmt, Eval.assignTo, Eval.stmts,
          Eval.switch, Eval.turns, Eval.again, Eval.each]
        exact h.throw _
  | succ n ih =>
      exact {
        expr := h.expr_succ ih
        exprs := h.exprs_succ ih
        fieldsOf := h.fieldsOf_succ ih
        capture := h.capture_succ ih
        stepsOf := h.stepsOf_succ ih
        follow := h.follow_succ ih
        run := h.run_succ ih
        runOn := h.runOn_succ ih
        callNamed := h.callNamed_succ ih
        callNamedOn := h.callNamedOn_succ ih
        nativeOn := h.nativeOn_succ ih
        native := h.native_succ ih
        apply := h.apply_succ ih
        applyOn := h.applyOn_succ ih
        method := h.method_succ ih
        call := h.call_succ ih
        stmt := h.stmt_succ ih
        assignTo := h.assignTo_succ ih
        stmts := h.stmts_succ ih
        switch := h.switch_succ ih
        turns := h.turns_succ ih
        again := h.again_succ ih
        each := h.each_succ ih
      }

/-- **The statements outside of functions are in the relation.** -/
protected theorem main (h : Congruence g g' R) (n : Nat) (body : List Stmt) :
    R (main g n body) (main g' n body) := by
  induction body with
  | nil => exact h.pure _
  | cons s rest ih =>
      rw [Eval.main.eq_def g, Eval.main.eq_def g']
      refine h.seen (fun _ => rfl) (fun _ => rfl) fun state => ?_
      cases s with
      | declare name constant place value =>
          have declared (v : Value) :=
            h.bind (h.allocate { value := v, constant := if constant then some v else none })
              fun cell => h.bind (h.declare (withVariable · name cell place)) fun _ => ih
          refine h.bind h.tick fun _ => ?_
          cases value with
          | none => exact h.bind (h.pure _) declared
          | some e => exact h.bind ((h.below n).expr _ _) declared
      | _ => exact h.bind (h.discard ((h.below n).stmt _ _)) fun _ => ih

end Congruence

/-! ### Properties of runs -/

/-- A property that every small part of the evaluator has, and that what is put together has if
its parts have it. -/
structure Inherited (P : {α : Type} → Eval α → Prop) : Prop where
  protected pure : ∀ {α : Type} (a : α), P (pure a)
  protected throw : ∀ {α : Type} (e : Ending), P (throw e : Eval α)
  protected bind : ∀ {α β : Type} {x : Eval α} {f : α → Eval β},
    P x → (∀ a, P (f a)) → P (x >>= f)
  protected attempt : ∀ {α : Type} {x : Eval α}, P x → P (attempt x)
  protected tick : ∀ g, P (tick g)
  protected tell : ∀ event, P (tell event)
  protected allocate : ∀ c, P (allocate c)
  protected cellAt : ∀ n, P (cellAt n)
  protected changeCell : ∀ n f, P (changeCell n f)
  protected outermost : P outermost
  protected declare : ∀ f, P (declare f)
  protected record : ∀ a, P (record a)
  protected guarded : ∀ condition {body : Eval Unit}, P body → P (guarded condition body)

namespace Inherited

variable {g : Setting} {P : {α : Type} → Eval α → Prop}

/-- A property of runs relates a run that has it to any other. -/
theorem congruence (h : Inherited P) : Congruence g g fun {_} x _ => P x where
  program := rfl
  unit := rfl
  pure := h.pure
  throw := h.throw
  bind := h.bind
  tried hx hf _ := h.bind (h.attempt hx) hf
  tick := h.tick g
  tell := h.tell
  allocate := h.allocate
  cellAt := h.cellAt
  changeCell := h.changeCell
  outermost := h.outermost
  declare := h.declare
  record := h.record
  guarded condition _ _ := h.guarded condition

/-- **Every part of the evaluator has what the small parts have**, with any fuel. -/
theorem below (h : Inherited P) (n : Nat) : Congruence.Below g g (fun {_} x _ => P x) n :=
  h.congruence.below n

/-- **What the small parts of the evaluator have, and what is put together of them has, the
statements outside of functions have too.** -/
protected theorem main (h : Inherited P) (n : Nat) (body : List Stmt) : P (main g n body) :=
  h.congruence.main n body

protected theorem handle (h : Inherited P) {n : Nat} (fr : Frame) (name : Option String)
    (handler : Stmt) (ending : Except Ending Value) : P (handle g n fr name handler ending) :=
  h.congruence.handle (h.below n) fr name handler ending

end Inherited

end Dialogue.Script.Eval
