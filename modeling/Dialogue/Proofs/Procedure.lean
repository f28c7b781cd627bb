import Dialogue.Request

/-!
# Requests, access by access

A request is carried out on files that are a value.  Which of them it asks for, and by which
paths, does not show in what it comes to.  So a request is written out here once more as a
procedure: it does nothing with files but to ask for one access after the other, and goes on with
what comes back.  Carried out on the files, the procedure comes to what the request comes to
(`Procedure.run_request`), so these accesses are all that it needs (`Procedure.accesses`).

`Procedure.Always` says of a procedure what its accesses and its result are like, whatever comes
back.
-/

namespace Dialogue

/-! ### Accesses -/

/-- A use of the files, at a path. -/
inductive Access where
  | isFolder (path : String)
  | isFile (path : String)
  | pathExists (path : String)
  | readText (path : String)
  | makeFolders (path : String)
  | write (path : String) (content : Content)
  deriving DecidableEq, Repr

namespace Access

def path : Access → String
  | isFolder path | isFile path | pathExists path | readText path | makeFolders path
  | write path _ => path

/-- What comes back. -/
def Reply : Access → Type
  | isFolder _ | isFile _ | pathExists _ => Bool
  | readText _ => Except FileFault String
  | makeFolders _ | write _ _ => Option FileFault

/-- Carries out an access: the files that are left, and what comes back. -/
def carryOut (t : FileTree) : (a : Access) → FileTree × a.Reply
  | isFolder path => (t, t.isFolder path)
  | isFile path => (t, t.isFile path)
  | pathExists path => (t, t.pathExists path)
  | readText path => (t, t.readText path)
  | makeFolders path => t.makeFolders path
  | write path content =>
    match t.write path content with
    | .error fault => (t, some fault)
    | .ok left => (left, none)

end Access

/-! ### Procedures -/

/-- What asks for one access after the other. -/
inductive Procedure (α : Type) where
  | done (result : α)
  | ask (access : Access) (next : access.Reply → Procedure α)

namespace Procedure

variable {α β : Type}

def bind : Procedure α → (α → Procedure β) → Procedure β
  | done a, f => f a
  | ask access next, f => ask access fun reply => (next reply).bind f

instance : Monad Procedure where
  pure := done
  bind := bind

def isFolder (path : String) : Procedure Bool := ask (.isFolder path) done

def isFile (path : String) : Procedure Bool := ask (.isFile path) done

def pathExists (path : String) : Procedure Bool := ask (.pathExists path) done

def readText (path : String) : Procedure (Except FileFault String) := ask (.readText path) done

def makeFolders (path : String) : Procedure (Option FileFault) := ask (.makeFolders path) done

def write (path : String) (content : Content) : Procedure (Option FileFault) :=
  ask (.write path content) done

/-! ### Carrying out a procedure -/

/-- The files that are left, and the result. -/
def run : Procedure α → FileTree → FileTree × α
  | done a, t => (t, a)
  | ask access next, t => (next (access.carryOut t).2).run (access.carryOut t).1

/-- The accesses that are asked for, in order. -/
def accesses : Procedure α → FileTree → List Access
  | done _, _ => []
  | ask access next, t => access :: (next (access.carryOut t).2).accesses (access.carryOut t).1

section Run

variable (m : Procedure α) (f : α → Procedure β) (t : FileTree)

@[simp]
theorem run_pure (a : α) : (pure a : Procedure α).run t = (t, a) := rfl

@[simp]
theorem run_bind : (m >>= f).run t = (f (m.run t).2).run (m.run t).1 := by
  induction m generalizing t with
  | done a => rfl
  | ask access next ih => exact ih _ _

@[simp]
theorem accesses_pure (a : α) : (pure a : Procedure α).accesses t = [] := rfl

@[simp]
theorem accesses_bind :
    (m >>= f).accesses t = m.accesses t ++ (f (m.run t).2).accesses (m.run t).1 := by
  induction m generalizing t with
  | done a => rfl
  | ask access next ih => exact congrArg (access :: ·) (ih _ _)

variable (path : String)

@[simp]
theorem run_isFolder : (isFolder path).run t = (t, t.isFolder path) := rfl

@[simp]
theorem run_isFile : (isFile path).run t = (t, t.isFile path) := rfl

@[simp]
theorem run_pathExists : (pathExists path).run t = (t, t.pathExists path) := rfl

@[simp]
theorem run_readText : (readText path).run t = (t, t.readText path) := rfl

@[simp]
theorem run_makeFolders : (makeFolders path).run t = t.makeFolders path := rfl

@[simp]
theorem run_write (content : Content) :
    (write path content).run t =
      match t.write path content with
      | .error fault => (t, some fault)
      | .ok left => (left, none) := rfl

end Run

/-! ### Whatever comes back -/

/-- Whatever comes back, the accesses are as `P` says and the result is as `Q` says. -/
def Always (P : Access → Prop) (Q : α → Prop) : Procedure α → Prop
  | done a => Q a
  | ask access next => P access ∧ ∀ reply, (next reply).Always P Q

namespace Always

variable {P : Access → Prop} {Q : α → Prop} {R : β → Prop} {m : Procedure α}
  {f : α → Procedure β}

theorem pure {a : α} (h : Q a) : (Pure.pure a : Procedure α).Always P Q := h

/-- An access, and then whatever comes back. -/
theorem ask {access : Access} (h : P access) : (Procedure.ask access done).Always P fun _ => True :=
  ⟨h, fun _ => trivial⟩

theorem bind (h : m.Always P Q) (hf : ∀ a, Q a → (f a).Always P R) : (m >>= f).Always P R := by
  induction m with
  | done a => exact hf a h
  | ask access next ih => exact ⟨h.1, fun reply => ih reply (h.2 reply)⟩

theorem accesses (h : m.Always P Q) (t : FileTree) : ∀ a ∈ m.accesses t, P a := by
  induction m generalizing t with
  | done a => exact nofun
  | ask access next ih => exact List.forall_mem_cons.mpr ⟨h.1, ih _ (h.2 _) _⟩

theorem result (h : m.Always P Q) (t : FileTree) : Q (m.run t).2 := by
  induction m generalizing t with
  | done a => exact h
  | ask access next ih => exact ih _ (h.2 _) _

end Always

/-! ### Loading a project -/

/-- `Project.readManifest`, access by access. -/
def readManifest (slug dir : String) : Procedure (List Event × Except Failure Manifest) := do
  let path := Path.join dir Project.manifestFile
  match ← isFile path with
  | true =>
    match ← readText path with
    | .error fault => return ([], .error (Project.unreadable path fault))
    | .ok text => return ([], (Manifest.parse text).mapError (·.failure))
  | false =>
    return ([⟨.debug, "no manifest, using default group", [("project", slug)]⟩],
      .ok (Manifest.fallback slug))

/-- `Project.load`, access by access. -/
def load (config : Config) (slug : String) : Procedure (List Event × Except Failure Project) :=
  if !isSlug slug then return ([], .error (Project.invalidSlug slug))
  else do
    let dir := config.projectDir slug
    match ← isFolder dir with
    | false => return ([], .error (Project.missing config.projectsDir slug))
    | true =>
      let (events, manifest) ← readManifest slug dir
      return (events, manifest.map fun m =>
        { slug, dir, manifest := m, groups := m.groups config.defaultSource })

theorem run_readManifest (slug dir : String) (t : FileTree) :
    (readManifest slug dir).run t = (t, Project.readManifest t slug dir) := by
  simp only [readManifest, Project.readManifest, run_bind, run_isFile]
  cases t.isFile (Path.join dir Project.manifestFile) with
  | false => rfl
  | true =>
      simp only [run_bind, run_readText, if_true]
      cases t.readText (Path.join dir Project.manifestFile) <;> rfl

theorem run_load (config : Config) (slug : String) (t : FileTree) :
    (load config slug).run t = (t, Project.load config t slug) := by
  unfold load Project.load
  split
  · rfl
  · simp only [run_bind, run_isFolder]
    cases t.isFolder (config.projectDir slug) with
    | false => rfl
    | true => simp only [run_bind, run_readManifest, run_pure, Bool.not_true, Bool.false_eq_true,
        if_false]

/-! ### Running a group -/

/-- `SourceUnit.run`, access by access. -/
def runUnit (options : ScriptOptions) (unit : UnitName) (path : String) :
    Procedure (List Event × Except Failure UnitRun) := do
  match ← pathExists path with
  | true =>
    match ← readText path with
    | .error fault => return ([], .error (SourceUnit.readFailure path fault))
    | .ok source => return SourceUnit.runSource options unit source
  | false => return ([SourceUnit.missing unit path], .ok ⟨.skipped, []⟩)

/-- `GroupRun.files`, access by access. -/
def runFiles (options : ScriptOptions) (p : Project) (group : String) :
    List String → Procedure (Told (List Action))
  | [] => return ⟨[], [], .ok []⟩
  | file :: rest => do
    let unit : UnitName := ⟨p.slug, group, file⟩
    match ← runUnit options unit (Path.join p.dir file) with
    | (events, .error f) => return ⟨[], events, .error f⟩
    | (events, .ok run) =>
      let later ← runFiles options p group rest
      return { logs := GroupRun.fileLine options group file run :: later.logs
               events := events ++ GroupRun.incomplete options unit run ++ later.events
               result := later.result.map (run.actions ++ ·) }

/-- `GroupRun.run`, access by access. -/
def runGroup (options : ScriptOptions) (p : Project) (g : ScriptGroup) :
    Procedure (Told (Option Compilation)) := do
  let ran ← runFiles options p g.slug g.sourceFiles
  match ran.result with
  | .error f => return ⟨ran.logs, ran.events, .error f⟩
  | .ok actions =>
    let compiled := GroupRun.compileActions p g.slug actions
    return ⟨ran.logs ++ compiled.logs, ran.events ++ compiled.events, compiled.result⟩

section Groups

variable (options : ScriptOptions) (config : Config) (p : Project) (group : String) (t : FileTree)

theorem run_runUnit (unit : UnitName) (path : String) :
    (runUnit options unit path).run t = (t, SourceUnit.run options t unit path) := by
  simp only [runUnit, SourceUnit.run, run_bind, run_pathExists]
  cases t.pathExists path with
  | false => rfl
  | true =>
      simp only [run_bind, run_readText, if_true]
      cases t.readText path <;> rfl

theorem run_runFiles (sources : List String) :
    (runFiles options p group sources).run t =
      (t, GroupRun.files options t p group sources) := by
  induction sources with
  | nil => rfl
  | cons file rest ih =>
      simp only [runFiles, GroupRun.files, run_bind, run_runUnit]
      rcases SourceUnit.run options t ⟨p.slug, group, file⟩ (Path.join p.dir file) with
        ⟨events, f | ran⟩
      · rfl
      · simp only [run_bind, ih, run_pure]

theorem run_runGroup (g : ScriptGroup) :
    (runGroup options p g).run t = (t, GroupRun.run options t p g) := by
  simp only [runGroup, GroupRun.run, run_bind, run_runFiles]
  cases (GroupRun.files options t p g.slug g.sourceFiles).result <;> rfl

/-! ### Keeping artifacts -/

/-- `Artifact.keep`, access by access. -/
def keep (m : Machine) : Procedure (Option Failure) := do
  let dir := config.artifactDir p.dir
  let path := config.artifactPath p.dir group
  match ← makeFolders dir with
  | some fault => return some (Artifact.unwritable dir fault)
  | none =>
    match ← write path (.text m.artifact) with
    | some fault => return some (Artifact.unwritable path fault)
    | none => return none

/-- `Request.settle`, access by access. -/
def settle (kept : Bool) :
    Except Failure (Option Compilation) → Procedure (Except Failure (List Event × GroupOutcome))
  | .error f => return .error f
  | .ok none => return .ok ([], .empty)
  | .ok (some c) =>
    let outcome := GroupOutcome.success c.machine.states.length
    if kept then do
      match ← keep config p group c.machine with
      | some f => return .error f
      | none =>
        return .ok ([Artifact.written (config.artifactPath p.dir group)], outcome)
    else return .ok ([], outcome)

/-- `Request.compileGroups`, access by access.  The files are no part of what it gives. -/
def compileGroups (kept : Bool) : List ScriptGroup → Procedure GroupsRun
  | [] => return { tree := {} }
  | g :: rest => do
    let ran ← runGroup config.scriptOptions p g
    match ← settle config p g.slug kept ran.result with
    | .error f =>
      return { tree := {}, logs := ran.logs, events := ran.events, groups := [.failed g.slug f],
               failure? := some f }
    | .ok (events, outcome) =>
      let later ← compileGroups kept rest
      return { later with
        logs := ran.logs ++ later.logs
        events := ran.events ++ events ++ later.events
        groups := ⟨g.slug, outcome⟩ :: later.groups }

theorem run_keep (m : Machine) :
    (keep config p group m).run t = Artifact.keep config p group m t := by
  unfold keep Artifact.keep
  simp only [run_bind, run_makeFolders]
  rcases t.makeFolders (config.artifactDir p.dir) with ⟨made, fault | none⟩
  · simp only [run_bind, run_write]
    rcases made.write (config.artifactPath p.dir group) (.text m.artifact) with fault | left <;> rfl
  · rfl

theorem run_settle (kept : Bool) (result : Except Failure (Option Compilation)) :
    (settle config p group kept result).run t = Request.settle config p kept t group result := by
  rcases result with f | _ | c
  · rfl
  · rfl
  · cases kept with
    | false => rfl
    | true =>
        simp only [settle, Request.settle, if_true, run_bind, run_keep]
        rcases Artifact.keep config p group c.machine t with ⟨left, _ | f⟩ <;> rfl

theorem run_compileGroups (kept : Bool) (groups : List ScriptGroup) :
    (compileGroups config p kept groups).run t =
      ((Request.compileGroups config p kept t groups).tree,
        { Request.compileGroups config p kept t groups with tree := {} }) := by
  induction groups generalizing t with
  | nil => rfl
  | cons g rest ih =>
      simp only [compileGroups, Request.compileGroups, run_bind, run_runGroup, run_settle]
      rcases Request.settle config p kept t g.slug
        (GroupRun.run config.scriptOptions t p g).result with ⟨left, f | ⟨events, outcome⟩⟩
      · rfl
      · simp only [run_bind, ih, run_pure]

end Groups

/-! ### Requests -/

/-- `Request.compileAll`, access by access. -/
def compileAll (config : Config) (p : Project) (filter : Option String) (kept : Bool) :
    Procedure Answer :=
  match p.select filter with
  | .error f => return Request.refused {} f
  | .ok groups => return Request.answerOf kept (← compileGroups config p kept groups)

/-- `Request.previewGroup`, access by access. -/
def previewGroup (config : Config) (p : Project) (group : Option String) : Procedure Answer :=
  match p.chosen group with
  | .error f => return Request.refused {} f
  | .ok g => do
    let ran ← runGroup config.scriptOptions p g
    return { tree := {}, events := ran.events, result := Request.showing g.slug ran }

/-- `Request.compileProject`, access by access. -/
def compileProject (r : Request) (config : Config) (p : Project) : Procedure Answer :=
  match r.mode with
  | .preview => previewGroup config p r.group
  | .persist => compileAll config p r.group true
  | .check => compileAll config p r.group false

/-- `Request.run`, access by access. -/
def request (r : Request) (config : Config) : Procedure Answer := do
  let (loadEvents, loaded) ← load config r.project
  let a ←
    match loaded with
    | .error f => pure (Request.refused {} f)
    | .ok p => do
      let a ← compileProject r config p
      pure { a with events := r.requested p :: a.events }
  let last :=
    match a.result with
    | .error f => [r.aborted f]
    | .ok _ => []
  return { a with events := loadEvents ++ a.events ++ last }

section Requests

variable (r : Request) (config : Config) (p : Project) (t : FileTree)

theorem run_compileAll (filter : Option String) (kept : Bool) :
    (compileAll config p filter kept).run t =
      ((Request.compileAll config p filter kept t).tree,
        { Request.compileAll config p filter kept t with tree := {} }) := by
  unfold compileAll Request.compileAll
  cases p.select filter with
  | error f => rfl
  | ok groups =>
      simp only [run_bind, run_compileGroups, run_pure]
      rfl

theorem run_compileProject :
    (compileProject r config p).run t =
      ((r.compileProject config p t).tree, { r.compileProject config p t with tree := {} }) := by
  unfold compileProject Request.compileProject
  cases r.mode with
  | persist | check => exact run_compileAll ..
  | preview =>
      unfold previewGroup Request.previewGroup
      cases p.chosen r.group with
      | error f => rfl
      | ok g => simp only [run_bind, run_runGroup, run_pure]

/-- **The procedure comes to what the request comes to**: to its files and to its answer. -/
theorem run_request :
    (request r config).run t = ((r.run config t).tree, { r.run config t with tree := {} }) := by
  unfold request Request.run
  simp only [run_bind, run_load]
  rcases Project.load config t r.project with ⟨events, f | p⟩
  · rfl
  · -- the last event hangs on whether the request has failed
    cases hr : (r.compileProject config p t).result <;>
      simp only [run_bind, run_compileProject, run_pure, hr]

end Requests

end Procedure

end Dialogue
