import Dialogue.Proofs.Keeping
import Dialogue.Proofs.Procedure
import Dialogue.Proofs.Sequence
import Dialogue.Proofs.Sources

/-!
# A request stays in the folder of its project

The paths that a request asks for are put together from texts that anybody may have written: the
name of the project, the slugs and sources in its manifest.  A slug is one name, and a source
goes down, so all these paths go down from the folder of the project, and artifacts lie right in
the folder for them (`Request.stays_in_project`).  Nothing hangs on the files there are, since
the procedure of a request keeps to these paths whatever comes back (`Procedure.always_load`,
`Procedure.always_compileProject`).
-/

namespace Dialogue

open Dialogue.Path (Step)

/-! ### Paths of a project -/

/-- The steps to the folder of a project, and from there down. -/
def Config.stepsBelow (c : Config) (project : String) (names : List String) : List Step :=
  Path.steps c.projectsDir ++ (project :: names).map .down

/-- The path goes down from the folder of the project. -/
def Config.Below (c : Config) (project path : String) : Prop :=
  ∃ names, Path.steps path = c.stepsBelow project names

namespace Config

variable {c : Config} {project slug : String}

theorem stepsBelow_append (names more : List String) :
    c.stepsBelow project names ++ more.map .down = c.stepsBelow project (names ++ more) := by
  simp [stepsBelow]

theorem steps_projectDir (hp : isSlug project = true) :
    Path.steps (c.projectDir project) = c.stepsBelow project [] :=
  Path.steps_join_name c.projectsDir (isName_of_isSlug hp)

theorem isBase_projectDir (hp : isSlug project = true) : Path.IsBase (c.projectDir project) :=
  Path.isBase_join _ (isName_of_isSlug hp)

theorem steps_join_projectDir {name : String} (hp : isSlug project = true)
    (hn : Path.IsName name) :
    Path.steps (Path.join (c.projectDir project) name) = c.stepsBelow project [name] := by
  rw [Path.steps_join (isBase_projectDir hp) hn, steps_projectDir hp]
  exact stepsBelow_append [] [name]

theorem steps_source {file : String} (hp : isSlug project = true)
    (hf : Path.isContained file = true) :
    Path.steps (Path.join (c.projectDir project) file) =
      c.stepsBelow project (Path.names file) := by
  rw [(isBase_projectDir hp).steps_join_contained hf, steps_projectDir hp]
  exact stepsBelow_append [] (Path.names file)

theorem steps_artifactDir (hc : c.generatedDir = "generated") (hp : isSlug project = true) :
    Path.steps (c.artifactDir (c.projectDir project)) = c.stepsBelow project ["generated"] := by
  rw [artifactDir, hc, steps_join_projectDir hp isName_generated]

theorem steps_artifactPath (hc : c.generatedDir = "generated") (hp : isSlug project = true)
    (hs : isSlug slug = true) :
    Path.steps (c.artifactPath (c.projectDir project) slug) =
      c.stepsBelow project ["generated", slug ++ ".json"] := by
  have hb : Path.IsBase (c.artifactDir (c.projectDir project)) :=
    Path.isBase_join _ (Artifact.isName_generatedDir hc)
  rw [artifactPath, Path.steps_join hb (isName_artifact hs), steps_artifactDir hc hp]
  exact stepsBelow_append ["generated"] [slug ++ ".json"]

/-- Different groups have different artifacts. -/
theorem eq_of_steps_artifactPath {other : String} (hc : c.generatedDir = "generated")
    (hp : isSlug project = true) (hs : isSlug slug = true) (ho : isSlug other = true)
    (h : Path.steps (c.artifactPath (c.projectDir project) slug) =
      Path.steps (c.artifactPath (c.projectDir project) other)) : slug = other := by
  rw [steps_artifactPath hc hp hs, steps_artifactPath hc hp ho, stepsBelow, stepsBelow] at h
  have hnames := List.append_cancel_left h
  simp only [List.map_cons, List.map_nil, List.cons.injEq, Step.down.injEq, true_and,
    and_true] at hnames
  exact eq_of_artifact_name hnames

end Config

/-! ### Projects of any manifest -/

/-- What a project is like, whatever the manifest. -/
structure Project.Enclosed (config : Config) (project : String) (p : Project) : Prop where
  isSlug : isSlug project = true
  dir : p.dir = config.projectDir project
  nonempty : p.groups ≠ []
  groups : Manifest.WellNamed p.groups
  sources : ∀ g ∈ p.groups, ∀ file ∈ g.sourceFiles, Path.isContained file = true

theorem Manifest.enclosed {config : Config} {project : String} {m : Manifest}
    (h : m.validate = .ok ()) (hp : isSlug project = true)
    (hs : Path.isContained config.defaultSource = true) :
    Project.Enclosed config project
      { slug := project, dir := config.projectDir project, manifest := m,
        groups := m.groups config.defaultSource } where
  isSlug := hp
  dir := rfl
  nonempty := m.groups_ne_nil _
  groups := wellNamed_groups (wellNamed_of_validate h) _
  sources := contained_groups h hs

/-! ### What a procedure asks for -/

/-- The access reads below the folder of the project, makes the folder of artifacts or writes the
artifact of one of these groups. -/
def Access.Stays (config : Config) (project : String) (slugs : List String) : Access → Prop
  | isFolder path | isFile path | pathExists path | readText path => config.Below project path
  | makeFolders path => path = config.artifactDir (config.projectDir project)
  | write path _ => ∃ slug ∈ slugs, path = config.artifactPath (config.projectDir project) slug

namespace Procedure

section Loading

variable {config : Config} {project : String} {slugs : List String}

theorem always_readManifest (hp : isSlug project = true) :
    (readManifest project (config.projectDir project)).Always
      (Access.Stays config project slugs)
      fun told => ∀ m, told.2 = .ok m → m.validate = .ok () := by
  have hpath : config.Below project (Path.join (config.projectDir project) Project.manifestFile) :=
    ⟨_, Config.steps_join_projectDir hp isName_manifestFile⟩
  refine .bind (.ask hpath) fun found _ => ?_
  cases found with
  | false => exact .pure fun m hm => by cases hm; rfl
  | true =>
      refine .bind (.ask hpath) fun read _ => ?_
      cases read with
      | error fault => exact .pure nofun
      | ok text => exact .pure fun m hm => Manifest.validate_of_parse (mapError_eq_ok_iff.mp hm)

theorem always_load (hs : Path.isContained config.defaultSource = true) :
    (load config project).Always (Access.Stays config project slugs)
      fun told => ∀ p, told.2 = .ok p → p.Enclosed config project := by
  unfold load
  split
  · exact .pure nofun
  · rename_i hslug
    -- only a slug comes this far, so the project is one name down
    have hp : isSlug project = true := by simpa using hslug
    refine .bind (.ask ⟨_, Config.steps_projectDir hp⟩) fun found _ => ?_
    cases found with
    | false => exact .pure nofun
    | true =>
        refine .bind (always_readManifest hp) fun (events, manifest) hm => .pure fun p hl => ?_
        cases manifest with
        | error f => cases hl
        | ok m =>
            cases hl
            exact Manifest.enclosed (hm m rfl) hp hs

end Loading

section Groups

variable {config : Config} {project : String} {p : Project} {options : ScriptOptions}
  {slugs : List String} {group : String}

theorem always_runUnit {unit : UnitName} {path : String} (h : config.Below project path) :
    (runUnit options unit path).Always (Access.Stays config project slugs) fun _ => True := by
  refine .bind (.ask h) fun found _ => ?_
  cases found with
  | false => exact .pure trivial
  | true =>
      refine .bind (.ask h) fun read _ => ?_
      cases read <;> exact .pure trivial

theorem always_runFiles {sources : List String} (hp : p.Enclosed config project)
    (hs : ∀ file ∈ sources, Path.isContained file = true) :
    (runFiles options p group sources).Always (Access.Stays config project slugs)
      fun _ => True := by
  induction sources with
  | nil => exact .pure trivial
  | cons file rest ih =>
      obtain ⟨hfile, hrest⟩ := List.forall_mem_cons.mp hs
      have hpath : config.Below project (Path.join p.dir file) :=
        ⟨_, hp.dir ▸ Config.steps_source hp.isSlug hfile⟩
      refine .bind (always_runUnit hpath) fun (events, ran) _ => ?_
      cases ran with
      | error f => exact .pure trivial
      | ok ran => exact .bind (ih hrest) fun _ _ => .pure trivial

theorem always_runGroup {g : ScriptGroup} (hp : p.Enclosed config project) (hg : g ∈ p.groups) :
    (runGroup options p g).Always (Access.Stays config project slugs) fun _ => True := by
  refine .bind (always_runFiles hp (hp.sources g hg)) fun ran _ => ?_
  obtain ⟨logs, events, f | actions⟩ := ran
  · exact .pure trivial
  · exact .pure trivial

theorem always_keep {m : Machine} (hp : p.Enclosed config project) (hg : group ∈ slugs) :
    (keep config p group m).Always (Access.Stays config project slugs) fun _ => True := by
  refine .bind (.ask (congrArg config.artifactDir hp.dir)) fun fault? _ => ?_
  cases fault? with
  | some fault => exact .pure trivial
  | none =>
      have hpath : config.artifactPath p.dir group =
          config.artifactPath (config.projectDir project) group := by rw [hp.dir]
      refine .bind (.ask ⟨group, hg, hpath⟩) fun fault? _ => ?_
      cases fault? <;> exact .pure trivial

theorem always_settle {kept : Bool} {result : Except Failure (Option Compilation)}
    (hp : p.Enclosed config project) (hg : group ∈ slugs) :
    (settle config p group kept result).Always (Access.Stays config project slugs)
      fun _ => True := by
  obtain f | _ | c := result
  · exact .pure trivial
  · exact .pure trivial
  · cases kept with
    | false => exact .pure trivial
    | true =>
        refine .bind (always_keep hp hg) fun f? _ => ?_
        cases f? <;> exact .pure trivial

theorem always_compileGroups {kept : Bool} {groups : List ScriptGroup}
    (hp : p.Enclosed config project) (hg : groups ⊆ p.groups) :
    (compileGroups config p kept groups).Always
      (Access.Stays config project (p.groups.map (·.slug))) fun _ => True := by
  induction groups with
  | nil => exact .pure trivial
  | cons g rest ih =>
      obtain ⟨hmem, hrest⟩ := List.cons_subset.mp hg
      refine .bind (always_runGroup hp hmem) fun ran _ => ?_
      refine .bind (always_settle hp (List.mem_map_of_mem hmem)) fun settled _ => ?_
      obtain f | ⟨events, outcome⟩ := settled
      · exact .pure trivial
      · exact .bind (ih hrest) fun _ _ => .pure trivial

/-- **A request reads below the folder of the project and writes artifacts of its groups**,
whatever comes back. -/
theorem always_compileProject (r : Request) (hp : p.Enclosed config project) :
    (compileProject r config p).Always
      (Access.Stays config project (p.groups.map (·.slug))) fun _ => True := by
  have hall (kept : Bool) : (compileAll config p r.group kept).Always
      (Access.Stays config project (p.groups.map (·.slug))) fun _ => True := by
    unfold compileAll
    cases hg : p.select r.group with
    | error f => exact .pure trivial
    | ok groups =>
        exact .bind (always_compileGroups hp (Project.select_subset hg)) fun _ _ => .pure trivial
  unfold compileProject
  cases r.mode with
  | persist | check => exact hall _
  | preview =>
      unfold previewGroup
      cases hg : p.chosen r.group with
      | error f => exact .pure trivial
      | ok g => exact .bind (always_runGroup hp (Project.mem_of_chosen hg)) fun _ _ => .pure trivial

end Groups

/-! ### What a request asks for -/

section Requests

variable {r : Request} {config : Config} {t : FileTree} {a : Access}

theorem accesses_request :
    (request r config).accesses t = (load config r.project).accesses t ++
      match (Project.load config t r.project).2 with
      | .error _ => []
      | .ok p => (compileProject r config p).accesses t := by
  simp only [request, accesses_bind, run_load]
  rcases (Project.load config t r.project).2 with f | p
  · rfl
  · simp only [accesses_bind, accesses_pure, List.append_nil]

/-- A request for what is no slug asks for nothing. -/
theorem accesses_request_of_not_slug (h : isSlug r.project = false) :
    (request r config).accesses t = [] := by
  have hl : (Project.load config t r.project).2 = .error (Project.invalidSlug r.project) := by
    simp [Project.load, h]
  simp [accesses_request, hl, load, h]

theorem enclosed_of_load (hs : Path.isContained config.defaultSource = true) {p : Project}
    (h : (Project.load config t r.project).2 = .ok p) : p.Enclosed config r.project := by
  have halways : (load config r.project).Always (Access.Stays config r.project []) _ := always_load hs
  have hresult := halways.result t
  rw [run_load] at hresult
  exact hresult p h

/-- An access is one of loading the project, or one of compiling the project that was loaded. -/
theorem stays_of_mem (hs : Path.isContained config.defaultSource = true)
    (ha : a ∈ (request r config).accesses t) :
    a.Stays config r.project [] ∨
      ∃ p, (Project.load config t r.project).2 = .ok p ∧
        a.Stays config r.project (p.groups.map (·.slug)) := by
  rw [accesses_request] at ha
  obtain ha | ha := List.mem_append.mp ha
  · exact .inl ((always_load hs).accesses t a ha)
  · cases hl : (Project.load config t r.project).2 with
    | error f =>
        rw [hl] at ha
        cases ha
    | ok p =>
        rw [hl] at ha
        exact .inr ⟨p, rfl, (always_compileProject r (enclosed_of_load hs hl)).accesses t a ha⟩

end Requests

end Procedure

theorem Access.Stays.below {config : Config} {project : String} {slugs : List String}
    {a : Access} (h : a.Stays config project slugs) (hc : config.generatedDir = "generated")
    (hp : isSlug project = true) (hs : ∀ slug ∈ slugs, isSlug slug = true) :
    config.Below project a.path := by
  cases a with
  | isFolder | isFile | pathExists | readText => exact h
  | makeFolders path =>
      obtain rfl := h
      exact ⟨_, Config.steps_artifactDir hc hp⟩
  | write path content =>
      obtain ⟨slug, hslug, rfl⟩ := h
      exact ⟨_, Config.steps_artifactPath hc hp (hs slug hslug)⟩

/-- A request asks only for what lies in the folder of its project. -/
structure StaysInProject (config : Config) (r : Request) (tree : FileTree) : Prop where
  /-- with these accesses the request comes to its answer -/
  carried : (Procedure.request r config).run tree =
    ((r.run config tree).tree, { r.run config tree with tree := {} })
  below : ∀ a ∈ (Procedure.request r config).accesses tree, config.Below r.project a.path
  made : ∀ path, .makeFolders path ∈ (Procedure.request r config).accesses tree →
    Path.steps path = config.stepsBelow r.project ["generated"]
  written : ∀ path content, .write path content ∈ (Procedure.request r config).accesses tree →
    ∃ p, (Project.load config tree r.project).2 = .ok p ∧ ∃ g ∈ p.groups,
      path = config.artifactPath p.dir g.slug ∧
      Path.steps path = config.stepsBelow r.project ["generated", g.slug ++ ".json"]
  refused : isSlug r.project = false → (Procedure.request r config).accesses tree = []
  /-- a project that is loaded has groups, with slugs for names, and different ones -/
  loaded : ∀ p, (Project.load config tree r.project).2 = .ok p →
    p.groups ≠ [] ∧ Manifest.WellNamed p.groups
  distinct : ∀ p, (Project.load config tree r.project).2 = .ok p →
    (p.groups.map fun g => Path.steps (config.artifactPath p.dir g.slug)).Nodup

namespace Request

/-- **A request never leaves the folder of its project**, whatever it is asked for and whatever
the manifest says. -/
theorem stays_in_project {config : Config} (hc : config.generatedDir = "generated")
    (hs : config.defaultSource = "main.rhai") (r : Request) (tree : FileTree) :
    StaysInProject config r tree := by
  have hcontained : Path.isContained config.defaultSource = true := by
    rw [hs]
    decide +kernel
  have henclosed {p : Project} (hl : (Project.load config tree r.project).2 = .ok p) :
      p.Enclosed config r.project := Procedure.enclosed_of_load hcontained hl
  have hslug {a : Access} (ha : a ∈ (Procedure.request r config).accesses tree) :
      isSlug r.project = true := by
    by_contra hno
    rw [Procedure.accesses_request_of_not_slug (by simpa using hno)] at ha
    cases ha
  constructor
  case carried => exact Procedure.run_request r config tree
  case below =>
    intro a ha
    obtain h | ⟨p, hl, h⟩ := Procedure.stays_of_mem hcontained ha
    · exact h.below hc (hslug ha) nofun
    · refine h.below hc (hslug ha) fun slug hmem => ?_
      obtain ⟨g, hg, rfl⟩ := List.mem_map.mp hmem
      exact (henclosed hl).groups.slugs g hg
  case made =>
    intro path ha
    have hpath : path = config.artifactDir (config.projectDir r.project) := by
      obtain h | ⟨_, -, h⟩ := Procedure.stays_of_mem hcontained ha <;> exact h
    rw [hpath, Config.steps_artifactDir hc (hslug ha)]
  case written =>
    intro path content ha
    obtain ⟨_, hnil, -⟩ | ⟨p, hl, slug, hmem, rfl⟩ := Procedure.stays_of_mem hcontained ha
    · cases hnil
    · obtain ⟨g, hg, rfl⟩ := List.mem_map.mp hmem
      have hp := henclosed hl
      exact ⟨p, hl, g, hg, by rw [hp.dir],
        Config.steps_artifactPath hc hp.isSlug (hp.groups.slugs g hg)⟩
  case refused => exact Procedure.accesses_request_of_not_slug
  case loaded => exact fun p hl => ⟨(henclosed hl).nonempty, (henclosed hl).groups⟩
  case distinct =>
    intro p hl
    have hp := henclosed hl
    have hslugs := hp.groups.distinct
    refine List.Nodup.map_on (fun g hg g' hg' he => ?_) hslugs.of_map
    rw [hp.dir] at he
    exact List.inj_on_of_nodup_map hslugs hg hg' (Config.eq_of_steps_artifactPath hc hp.isSlug
      (hp.groups.slugs g hg) (hp.groups.slugs g' hg') he)

end Request

theorem stays_in_project_threeGroups :
    StaysInProject {} ⟨"demo", .persist, none⟩ threeGroups ∧
      ((Procedure.request ⟨"demo", .persist, none⟩ {}).accesses threeGroups).map (·.path) =
        ["projects/demo", "projects/demo/manifest.json", "projects/demo/manifest.json",
          "projects/demo/a.rhai", "projects/demo/a.rhai", "projects/demo/generated",
          "projects/demo/generated/one.json", "projects/demo/b.rhai", "projects/demo/b.rhai"] :=
  ⟨Request.stays_in_project rfl rfl _ _, by decide +kernel⟩

end Dialogue
