import Dialogue.Proofs.Atomicity

/-!
# What is recorded is what was called

What a script does to the recorder is a list of calls, in which blocks and what is tried hold
lists of their own (`Call`).  `Call.recordedAll` says what a list of calls records, and how it is
cut short:

* a block is recorded under its condition with all that its body records, and not at all if the body
  is cut short;
* what was recorded before an ending that is caught stays recorded, and the calls behind go on.

Calls that are carried out one by one come to that in any block, and leave the blocks around as they
are (`Call.performAll_eq`).  All code of a script makes calls (`Eval.inherited_makes`), and records
and ends as they do (`Eval.Makes.left`); each function of the vocabulary makes one call at most
(`Eval.makes_native`).  So an execution records what the calls of its two parts denote, and has
closed every block in the end (`recorded_as_called`).
-/

namespace Dialogue

/-- Records actions one after the other. -/
def Recorder.recordAll (r : Recorder) (actions : List Action) : Recorder :=
  ⟨r.top ++ actions, r.outer⟩

theorem Recorder.recordAll_nil (r : Recorder) : r.recordAll [] = r :=
  congrArg (Recorder.mk · r.outer) (List.append_nil r.top)

theorem Recorder.recordAll_recordAll (r : Recorder) (as bs : List Action) :
    (r.recordAll as).recordAll bs = r.recordAll (as ++ bs) :=
  congrArg (Recorder.mk · r.outer) (List.append_assoc r.top as bs)

namespace Script

/-- The state after actions have been recorded. -/
def State.recording (s : State) (actions : List Action) : State :=
  { s with recorder := s.recorder.recordAll actions }

theorem State.recording_nil (s : State) : s.recording [] = s := by
  rw [State.recording, Recorder.recordAll_nil]

theorem State.recording_recording (s : State) (as bs : List Action) :
    (s.recording as).recording bs = s.recording (as ++ bs) := by
  simp only [State.recording, Recorder.recordAll_recordAll]

/-! ### What is recorded -/

/-- What a run records in the block where it begins, and how it is cut short, if it is. -/
structure Recorded where
  actions : List Action := []
  ending : Option Ending := none

namespace Recorded

/-- What is recorded of a block with this body. -/
def under (condition : Condition) : Recorded → Recorded
  | ⟨actions, none⟩ => ⟨[.conditional condition actions], none⟩
  | ⟨_, some e⟩ => ⟨[], some e⟩

def caught (d : Recorded) : Recorded := { d with ending := none }

/-- Nothing follows what is cut short. -/
def andThen : Recorded → Recorded → Recorded
  | ⟨actions, none⟩, later => { later with actions := actions ++ later.actions }
  | ⟨actions, some e⟩, _ => ⟨actions, some e⟩

theorem andThen_nothing (d : Recorded) : d.andThen {} = d := by
  rcases d with ⟨actions, _ | e⟩
  · exact congrArg (Recorded.mk · none) (List.append_nil actions)
  · rfl

theorem andThen_assoc (d d' d'' : Recorded) :
    (d.andThen d').andThen d'' = d.andThen (d'.andThen d'') := by
  rcases d with ⟨actions, _ | e⟩
  · rcases d' with ⟨more, _ | e⟩
    · exact congrArg (Recorded.mk · d''.ending) (List.append_assoc actions more d''.actions)
    · rfl
  · rfl

/-- How a run ends that has recorded this and changed nothing else. -/
def finish (s : State) : Recorded → EStateM.Result Ending State Unit
  | ⟨actions, none⟩ => .ok () (s.recording actions)
  | ⟨actions, some e⟩ => .error e (s.recording actions)

/-- A run has recorded this behind what `r` holds, and ends so. -/
def Left {α : Type} (r : Recorder) (d : Recorded) : EStateM.Result Ending State α → Prop
  | .ok _ t => d.ending = none ∧ t.recorder = r.recordAll d.actions
  | .error e t => d.ending = some e ∧ t.recorder = r.recordAll d.actions

theorem finish_raise (s : State) (e : Ending) : finish s ⟨[], some e⟩ = .error e s := by
  rw [finish, s.recording_nil]

end Recorded

/-! ### Calls -/

/-- What a piece of a script does to the recorder. -/
inductive Call where
  | record (action : Action)
  /-- nothing is recorded, and the run is cut short -/
  | raise (ending : Ending)
  | block (condition : Condition) (body : List Call)
  /-- calls of which an ending is caught -/
  | attempt (body : List Call)

namespace Call

mutual

/-- What a call denotes. -/
def recorded : Call → Recorded
  | record a => { actions := [a] }
  | raise e => { ending := some e }
  | block condition body => (recordedAll body).under condition
  | attempt body => (recordedAll body).caught

def recordedAll : List Call → Recorded
  | [] => {}
  | call :: rest => call.recorded.andThen (recordedAll rest)

end

mutual

/-- Carries out a call. -/
def perform : Call → Eval Unit
  | record a => Eval.record a
  | raise e => throw e
  | block condition body => Eval.guarded condition (performAll body)
  | attempt body => discard (Eval.attempt (performAll body))

def performAll : List Call → Eval Unit
  | [] => return ()
  | call :: rest => do
    call.perform
    performAll rest

end

theorem recordedAll_singleton (call : Call) : recordedAll [call] = call.recorded :=
  call.recorded.andThen_nothing

theorem recordedAll_append (before rest : List Call) :
    recordedAll (before ++ rest) = (recordedAll before).andThen (recordedAll rest) := by
  induction before with
  | nil => rfl
  | cons call before ih =>
      calc recordedAll (call :: (before ++ rest))
          = call.recorded.andThen ((recordedAll before).andThen (recordedAll rest)) := by
            rw [recordedAll, ih]
        _ = (recordedAll (call :: before)).andThen (recordedAll rest) := by
            rw [recordedAll, Recorded.andThen_assoc]

end Call

/-! ### Calls that are carried out -/

namespace Recorded

/-- A block is closed whatever its body does. -/
theorem finish_guarded {condition : Condition} {body : Eval Unit} {s : State} {d : Recorded}
    (h : body { s with recorder := s.recorder.openBlock } =
      d.finish { s with recorder := s.recorder.openBlock }) :
    Eval.guarded condition body s = (d.under condition).finish s := by
  rw [Eval.run_guarded, h]
  rcases d with ⟨actions, _ | e⟩
  · rfl
  · exact (finish_raise s e).symm

theorem finish_attempt {x : Eval Unit} {s : State} {d : Recorded} (h : x s = d.finish s) :
    discard (Eval.attempt x) s = d.caught.finish s := by
  change EStateM.map _ (Eval.attempt x) s = _
  rw [EStateM.map, Eval.attempt, h]
  rcases d with ⟨actions, _ | e⟩
  · rfl
  · rfl

theorem finish_bind {x y : Eval Unit} {s : State} {d d' : Recorded} (hx : x s = d.finish s)
    (hy : ∀ t, y t = d'.finish t) : (x >>= fun _ => y) s = (d.andThen d').finish s := by
  change EStateM.bind x _ s = _
  rw [EStateM.bind, hx]
  rcases d with ⟨actions, _ | e⟩
  · dsimp only [finish]
    rw [hy]
    rcases d' with ⟨more, _ | e⟩
    · exact congrArg (EStateM.Result.ok ()) (s.recording_recording actions more)
    · exact congrArg (EStateM.Result.error e) (s.recording_recording actions more)
  · rfl

end Recorded

namespace Call

mutual

theorem perform_eq (call : Call) (s : State) : call.perform s = call.recorded.finish s := by
  cases call with
  | record a => rfl
  | raise e => exact (Recorded.finish_raise s e).symm
  | block condition body => exact Recorded.finish_guarded (performAll_eq body _)
  | attempt body => exact Recorded.finish_attempt (performAll_eq body s)

/-- **Calls record what they denote, in any block**, and leave the blocks around as they are. -/
theorem performAll_eq (calls : List Call) (s : State) :
    performAll calls s = (recordedAll calls).finish s := by
  cases calls with
  | nil => exact congrArg (EStateM.Result.ok ()) s.recording_nil.symm
  | cons call rest => exact Recorded.finish_bind (perform_eq call s) (performAll_eq rest)

end

end Call

example (a b : Action) (c : Condition) (e : Ending) :
    Call.recordedAll [.attempt [.record a, .block c [.record b, .raise e], .record b],
      .block c [.record a]] = { actions := [a, .conditional c [a]] } := rfl

/-! ### Calls that a run makes -/

namespace Eval

/-- The small parts of the evaluator that do nothing to the recorder. -/
inductive Quiet : {α : Type} → Eval α → Prop where
  | pure {α : Type} (a : α) : Quiet (pure a)
  | throw {α : Type} (e : Ending) : Quiet (throw e : Eval α)
  | tick (g : Setting) : Quiet (tick g)
  | tell (event : Event) : Quiet (tell event)
  | allocate (c : Cell) : Quiet (allocate c)
  | cellAt (n : Nat) : Quiet (cellAt n)
  | changeCell (n : Nat) (f : Cell → Cell) : Quiet (changeCell n f)
  | outermost : Quiet outermost
  | declare (f : Environment → Environment) : Quiet (declare f)

/-- The calls that a run from a state makes, in the order in which it makes them. -/
inductive Makes : {α : Type} → Eval α → State → List Call → Prop where
  | quiet {α : Type} {x : Eval α} {s t : State} {a : α} (h : Quiet x) (run : x s = .ok a t) :
      Makes x s []
  | raise {α : Type} {x : Eval α} {s t : State} {e : Ending} (h : Quiet x)
      (run : x s = .error e t) : Makes x s [.raise e]
  | record {a : Action} {s : State} : Makes (record a) s [.record a]
  | guarded {condition : Condition} {body : Eval Unit} {s : State} {calls : List Call}
      (h : Makes body { s with recorder := s.recorder.openBlock } calls) :
      Makes (guarded condition body) s [.block condition calls]
  | attempt {α : Type} {x : Eval α} {s : State} {calls : List Call} (h : Makes x s calls) :
      Makes (attempt x) s [.attempt calls]
  | bind {α β : Type} {x : Eval α} {f : α → Eval β} {s t : State} {a : α} {calls more : List Call}
      (hx : Makes x s calls) (run : x s = .ok a t) (hf : Makes (f a) t more) :
      Makes (x >>= f) s (calls ++ more)
  | stop {α β : Type} {x : Eval α} {f : α → Eval β} {s t : State} {e : Ending}
      {calls : List Call} (hx : Makes x s calls) (run : x s = .error e t) : Makes (x >>= f) s calls

variable {α β : Type}

theorem Quiet.recorder {x : Eval α} (h : Quiet x) (s : State) :
    match x s with
    | .ok _ t | .error _ t => t.recorder = s.recorder := by
  cases h with
  | tick g =>
      rw [run_tick]
      by_cases exceeded : g.maxOperations ≠ 0 ∧ g.maxOperations < s.operations + 1
      · rw [if_pos exceeded]
        rfl
      · rw [if_neg exceeded]
        rfl
  | _ => rfl

theorem left_guarded {condition : Condition} {body : Eval Unit} {s : State} {d : Recorded}
    (h : d.Left s.recorder.openBlock (body { s with recorder := s.recorder.openBlock })) :
    (d.under condition).Left s.recorder (guarded condition body s) := by
  rw [run_guarded]
  revert h
  rcases body { s with recorder := s.recorder.openBlock } with ⟨_, t⟩ | ⟨e, t⟩
  · rintro ⟨ending, recorder⟩
    rcases d with ⟨actions, _ | e⟩
    · dsimp only at recorder ⊢
      rw [recorder]
      exact ⟨rfl, rfl⟩
    · cases ending
  · rintro ⟨ending, recorder⟩
    rcases d with ⟨actions, _ | e'⟩
    · cases ending
    · dsimp only at recorder ⊢
      rw [recorder]
      exact ⟨ending, s.recorder.recordAll_nil.symm⟩

theorem left_attempt {x : Eval α} {s : State} {d : Recorded} (h : d.Left s.recorder (x s)) :
    d.caught.Left s.recorder (attempt x s) := by
  unfold Eval.attempt
  revert h
  rcases x s with ⟨a, t⟩ | ⟨e, t⟩
  · exact fun ⟨_, recorder⟩ => ⟨rfl, recorder⟩
  · exact fun ⟨_, recorder⟩ => ⟨rfl, recorder⟩

theorem left_andThen {d d' : Recorded} {r : Recorder} {a : α} {t : State}
    {result : EStateM.Result Ending State β}
    (h : d.Left r (.ok a t : EStateM.Result Ending State α)) (h' : d'.Left t.recorder result) :
    (d.andThen d').Left r result := by
  obtain ⟨ending, recorder⟩ := h
  rcases d with ⟨actions, _ | e⟩
  · rw [recorder] at h'
    cases result with
    | ok b u => exact ⟨h'.1, h'.2.trans (r.recordAll_recordAll actions d'.actions)⟩
    | error e u => exact ⟨h'.1, h'.2.trans (r.recordAll_recordAll actions d'.actions)⟩
  · cases ending

/-- **A run records what its calls denote**, and ends as they do. -/
theorem Makes.left {x : Eval α} {s : State} {calls : List Call} (h : Makes x s calls) :
    (Call.recordedAll calls).Left s.recorder (x s) := by
  induction h with
  | @quiet α x s t a h run =>
      have same := h.recorder s
      rw [run] at same ⊢
      exact ⟨rfl, same.trans s.recorder.recordAll_nil.symm⟩
  | @raise α x s t e h run =>
      have same := h.recorder s
      rw [run] at same ⊢
      exact ⟨rfl, same.trans s.recorder.recordAll_nil.symm⟩
  | record => exact ⟨rfl, rfl⟩
  | guarded h ih =>
      rw [Call.recordedAll_singleton, Call.recorded]
      exact left_guarded ih
  | attempt h ih =>
      rw [Call.recordedAll_singleton, Call.recorded]
      exact left_attempt ih
  | bind hx run hf ihx ihf =>
      rw [bind_of_ok run, Call.recordedAll_append]
      rw [run] at ihx
      exact left_andThen ihx ihf
  | @stop α β x f s t e calls hx run ih =>
      rw [bind_of_error run]
      rw [run] at ih
      exact ih

/-- **All code of a script makes calls.** -/
theorem inherited_makes : Inherited fun {_} x => ∀ s, ∃ calls, Makes x s calls :=
  have quiet {α : Type} {x : Eval α} (h : Quiet x) (s : State) : ∃ calls, Makes x s calls := by
    cases run : x s with
    | ok a t => exact ⟨_, .quiet h run⟩
    | error e t => exact ⟨_, .raise h run⟩
  { pure := fun a => quiet (.pure a)
    throw := fun e => quiet (.throw e)
    bind := fun {_ _ x f} hx hf s => by
      obtain ⟨calls, made⟩ := hx s
      cases run : x s with
      | ok a t =>
          obtain ⟨more, behind⟩ := hf a t
          exact ⟨_, made.bind run behind⟩
      | error e t => exact ⟨_, made.stop run⟩
    attempt := fun hx s => (hx s).imp' _ fun _ made => .attempt made
    tick := fun g => quiet (.tick g)
    tell := fun event => quiet (.tell event)
    allocate := fun c => quiet (.allocate c)
    cellAt := fun n => quiet (.cellAt n)
    changeCell := fun n f => quiet (.changeCell n f)
    outermost := quiet .outermost
    declare := fun f => quiet (.declare f)
    record := fun a _ => ⟨_, .record⟩
    guarded := fun condition _ hb s => (hb _).imp' _ fun _ made => .guarded made }

/-- To give back a value is no call. -/
theorem makes_giving {x : Eval α} {s : State} {calls : List Call} (h : Makes x s calls) (b : β) :
    Makes (x >>= fun _ => pure b) s calls := by
  cases run : x s with
  | ok a t =>
      have silent : Makes (pure b : Eval β) t [] := .quiet (.pure b) rfl
      have made : Makes (x >>= fun _ => pure b) s (calls ++ []) := h.bind run silent
      rwa [List.append_nil] at made
  | error e t => exact h.stop run

theorem makes_discard {x : Eval α} {s : State} {calls : List Call} (h : Makes x s calls) :
    Makes (discard x) s calls := by
  have gives : (discard x : Eval PUnit) = x >>= fun _ => pure () := (bind_pure_comp _ x).symm
  rw [gives]
  exact makes_giving h ()

/-- What is recorded before an ending that is caught stays recorded, and the run goes on. -/
theorem makes_tried {g : Setting} {n : Nat} {fr : Frame} {body handler : Stmt}
    {name : Option String} {s t : State} {calls : List Call} (counted : tick g s = .ok () t)
    (h : Makes (stmt g n fr body) t calls) :
    ∃ more, Makes (stmt g (n + 1) fr (.attempt body name handler)) s (.attempt calls :: more) := by
  have tried : ∃ ending u, attempt (stmt g n fr body) t = .ok ending u := by
    unfold attempt
    rcases stmt g n fr body t with ⟨v, u⟩ | ⟨e, u⟩
    · exact ⟨_, _, rfl⟩
    · exact ⟨_, _, rfl⟩
  obtain ⟨ending, u, run⟩ := tried
  obtain ⟨more, behind⟩ :=
    inherited_makes.handle (g := g) (n := n) fr name handler ending u
  rw [stmt_attempt]
  exact ⟨more, Makes.bind (.quiet (.tick g) counted) counted (Makes.bind (.attempt h) run behind)⟩

end Eval

end Script

/-! ### Calls of the vocabulary -/

namespace Vocabulary

open Script (Value Setting Pos Call)

theorem find?_eq_none {name : String} {args : List Value} (block : block? name args = none)
    (plain : plain? name args = none) : find? name args = none := by
  unfold find?
  rw [block, plain]
  cases args.getLast? <;> simp

/-- No function of the vocabulary is one of the language too. -/
theorem answer?_of_find? {name : String} {args : List Value} {d : Deed}
    (h : find? name args = some d) : Script.Builtin.answer? name args = none := by
  unfold Script.Builtin.answer?
  split
  case h_15 => rfl
  all_goals
    rw [find?_eq_none rfl rfl] at h
    cases h

/-- How a deed is done by a call at a place, where so many calls are open. -/
def Deed.run (g : Setting) (n level : Nat) (pos : Pos) : Deed → Script.Eval Value
  | record a => do
    Script.Eval.record a
    return .unit
  | guarded condition body => do
    Script.Eval.guarded condition (discard (Script.Eval.apply g n (level + 2) body [] pos))
    return .unit
  | answer text => return .string text
  | refuse why => Script.Eval.fail (.raised (.string why.message)) pos

/-- The calls that a deed makes.  A block makes those of its body; arguments are refused before
anything is recorded. -/
inductive Deed.Makes (g : Setting) (n level : Nat) (pos : Pos) (s : Script.State) :
    Deed → List Call → Prop where
  | record (a : Action) : Makes g n level pos s (.record a) [.record a]
  | guarded {condition : Condition} {body : Value} {calls : List Call}
      (h : Script.Eval.Makes (Script.Eval.apply g n (level + 2) body [] pos)
        { s with recorder := s.recorder.openBlock } calls) :
      Makes g n level pos s (.guarded condition body) [.block condition calls]
  | answer (text : String) : Makes g n level pos s (.answer text) []
  | refuse (why : Refusal) : Makes g n level pos s (.refuse why)
      [.raise (.fault { cause := .raised (.string why.message), pos := some pos })]

end Vocabulary

namespace Script

namespace Eval

theorem native_of_find? {g : Setting} {n : Nat} {fr : Frame} {name : String} {args : List Value}
    {pos : Pos} {d : Vocabulary.Deed} (h : Vocabulary.find? name args = some d) :
    native g (n + 1) fr name args pos = d.run g n fr.level pos := by
  rw [native.eq_def]
  dsimp only
  split
  case h_8 =>
    rw [Vocabulary.answer?_of_find? h, h]
    cases d <;> rfl
  all_goals
    rw [Vocabulary.find?_eq_none rfl rfl] at h
    cases h

theorem makes_native {g : Setting} {n : Nat} {fr : Frame} {name : String} {args : List Value}
    {pos : Pos} {d : Vocabulary.Deed} {s : State} {calls : List Call}
    (h : Vocabulary.find? name args = some d) (makes : d.Makes g n fr.level pos s calls) :
    Makes (native g (n + 1) fr name args pos) s calls := by
  rw [native_of_find? h]
  cases makes with
  | record a => exact makes_giving .record _
  | guarded makes => exact makes_giving (.guarded (makes_discard makes)) _
  | answer text => exact .quiet (.pure _) rfl
  | refuse why => exact .raise (.throw _) rfl

end Eval

/-! ### Executions -/

theorem recorder_of_part {α : Type} {x : Eval α} {s t : State} {calls : List Call}
    (h : Eval.Makes x { s with operations := 0 } calls) (ends : part x s = .ok () t) :
    t.recorder = s.recorder.recordAll (Call.recordedAll calls).actions := by
  have left := h.left
  unfold part at ends
  cases run : x { s with operations := 0 } with
  | ok a u =>
      rw [run] at ends left
      cases ends
      exact left.2
  | error e u =>
      rw [run] at ends left
      cases e
      case fault => cases ends
      case starved => cases ends
      all_goals
        cases ends
        exact left.2

/-- What an execution recorded is what the calls of its parts denote. -/
inductive Denoted (g : Setting) (entryPoint : String) (e : Execution) : Prop where
  | mainOnly {calls : List Call} (lacks : g.program.function? entryPoint 0 = none)
      (made : Eval.Makes (Eval.main g fuel g.program.main) {} calls)
      (actions : e.actions = (Call.recordedAll calls).actions)
  | both {f : Function} {s : State} {calls more : List Call}
      (defines : g.program.function? entryPoint 0 = some f)
      (made : Eval.Makes (Eval.main g fuel g.program.main) {} calls)
      (main : mainPart g {} = .ok () s)
      (behind : Eval.Makes (Eval.stmt g fuel { environment := s.outermost } f.body)
        { s with operations := 0 } more)
      (actions : e.actions = (Call.recordedAll calls).actions ++ (Call.recordedAll more).actions)

theorem part_of_entryPart {g : Setting} {f : Function} {s t : State}
    (h : entryPart g f s = .ok () t) :
    part (Eval.stmt g fuel { environment := s.outermost } f.body) s = .ok () t := by
  rw [run_entryPart] at h
  cases body : part (Eval.stmt g fuel { environment := s.outermost } f.body) s with
  | error fault u =>
      rw [body] at h
      cases h
  | ok _ u =>
      rw [body] at h
      cases h
      rfl

theorem denoted_execute {g : Setting} {entryPoint : String} {events : List Event} {e : Execution}
    (h : execute g entryPoint = (events, .ok e)) : Denoted g entryPoint e := by
  obtain ⟨calls, made⟩ := Eval.inherited_makes.main fuel (g := g) g.program.main {}
  obtain ⟨s, main, cases⟩ := execute_eq_ok h
  have before := recorder_of_part made main
  rcases cases with ⟨lacks, rfl⟩ | ⟨f, t, defines, entry, rfl⟩
  · exact .mainOnly lacks made (congrArg Recorder.top before)
  · obtain ⟨more, behind⟩ := (Eval.inherited_makes.below fuel (g := g)).stmt
      { environment := s.outermost } f.body { s with operations := 0 }
    have after := recorder_of_part behind (part_of_entryPart entry)
    rw [before] at after
    exact .both defines made main behind (congrArg Recorder.top after)

end Script

/-- No unit is refused for a block that is left open. -/
theorem SourceUnit.run_ne_unbalanced (options : ScriptOptions) (tree : FileTree) (unit : UnitName)
    (path : String) : (run options tree unit path).2 ≠ .error (unbalanced unit) := by
  intro refused
  have came := came_run options tree unit path
  rw [refused] at came
  have code : (unbalanced unit).code = "SANDBOX_RECORDER_UNBALANCED" := rfl
  generalize unbalanced unit = failure at came code
  cases came with
  | unreadable => simp [readFailure] at code
  | malformed => simp [syntaxFailure] at code
  | broken => simp [scriptFailure] at code
  | entryBroken => simp [scriptFailure] at code

namespace Script

/-- **What a script records is what its calls denote**: in any block, for all code of a script and
each function of the vocabulary, and for an execution as a whole. -/
theorem recorded_as_called :
    (∀ calls s, Call.performAll calls s = (Call.recordedAll calls).finish s) ∧
      (∀ g n fr body s, ∃ calls, Eval.Makes (Eval.stmt g n fr body) s calls) ∧
      (∀ {α : Type} (x : Eval α) s calls, Eval.Makes x s calls →
        (Call.recordedAll calls).Left s.recorder (x s)) ∧
      (∀ g n fr name args pos s d calls, Vocabulary.find? name args = some d →
        d.Makes g n fr.level pos s calls →
          Eval.Makes (Eval.native g (n + 1) fr name args pos) s calls) ∧
      (∀ g n fr body name handler s t calls, Eval.tick g s = .ok () t →
        Eval.Makes (Eval.stmt g n fr body) t calls → ∃ more,
          Eval.Makes (Eval.stmt g (n + 1) fr (.attempt body name handler)) s
            (.attempt calls :: more)) ∧
      (∀ g entryPoint events e, execute g entryPoint = (events, .ok e) →
        e.openBlocks = 0 ∧ Denoted g entryPoint e) ∧
      ∀ options tree unit path,
        (SourceUnit.run options tree unit path).2 ≠ .error (SourceUnit.unbalanced unit) :=
  ⟨Call.performAll_eq, fun _ n fr body => (Eval.inherited_makes.below n).stmt fr body,
    fun _ _ _ made => made.left, fun _ _ _ _ _ _ _ _ _ => Eval.makes_native,
    fun _ _ _ _ _ _ _ _ _ => Eval.makes_tried,
    fun _ _ _ _ h => ⟨openBlocks_execute h, denoted_execute h⟩, SourceUnit.run_ne_unbalanced⟩

end Script

end Dialogue
