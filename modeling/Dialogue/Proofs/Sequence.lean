import Dialogue.Proofs.Answers

/-!
# A project group by group

Compiling a project is compiling its groups by requests of their own, in order, each on the files
that the one before left, up to the first that fails (`run_all_eq_each`).  Nothing passes from
one group to the next but the files: the log and the reports are those of the single requests
(`AddsUp`), and no group after the one that failed has a report, a line of the log or a changed
artifact (`InOrder`).

The project has to be the same for each of the requests.  A group changes the folder of artifacts
and its own artifact at most, so the folder of the project and the manifest are there as they
were (`Project.load_congr`).
-/

namespace Dialogue

/-! ### Groups in order -/

/-- An answer tells of groups in order and of none after the one that failed. -/
structure InOrder (loc : Location) (groups : List ScriptGroup) (tree : FileTree)
    (whole : Answer) : Prop where
  slugs : whole.groups.map (·.slug) = (groups.take whole.groups.length).map (·.slug)
  finished : whole.failure? = none →
    whole.groups.length = groups.length ∧ ∀ r ∈ whole.groups, r.outcome.status ≠ .failed
  failed : ∀ f, whole.failure? = some f →
    ∃ before slug, whole.groups = before ++ [.failed slug f] ∧
      ∀ r ∈ before, r.outcome.status ≠ .failed
  unreported : ∀ g ∈ groups.drop whole.groups.length, ∀ r ∈ whole.groups, g.slug ≠ r.slug
  silent : ∀ g ∈ groups.drop whole.groups.length, ∀ line ∈ whole.logs, ¬ LineOf g.slug line
  untouched : ∀ g ∈ groups.drop whole.groups.length,
    whole.tree.lookup (artifactAt loc g.slug) = tree.lookup (artifactAt loc g.slug)

namespace InOrder

variable {kept : Bool} {loc : Location} {g : ScriptGroup} {rest : List ScriptGroup}
  {tree : FileTree} {one later : GroupsRun}

theorem nil : InOrder loc [] tree (Request.answerOf kept { tree }) where
  slugs := rfl
  finished _ := by simp
  failed f h := by simp at h
  unreported := by simp
  silent := by simp
  untouched := by simp

/-- A group that fails is the last one. -/
theorem stop (h : One loc g.slug tree one) {f : Failure} (hf : one.failure? = some f)
    (hw : Manifest.WellNamed (g :: rest)) :
    InOrder loc (g :: rest) tree (Request.answerOf kept one) where
  slugs := by simp [h.failed f hf, GroupReport.failed]
  finished hn := by simp [hf] at hn
  failed f' hf' := by
    rw [Request.failure?_answerOf] at hf'
    exact ⟨[], g.slug, by simp [h.failed f' hf'], by simp⟩
  unreported g' hg' r hr := by
    rw [Request.groups_answerOf, h.failed f hf] at hg' hr
    rw [List.mem_singleton.mp hr]
    exact (hw.ne_of_mem hg').symm
  silent g' hg' line hl hl' := by
    rw [Request.groups_answerOf, h.failed f hf] at hg'
    rw [Request.logs_answerOf] at hl
    exact hw.ne_of_mem hg' ((h.lines line hl).unique hl' hw.head (hw.tail.slugs g' hg'))
  untouched g' hg' := by
    rw [Request.groups_answerOf, h.failed f hf] at hg'
    exact h.changes.others _ (not_kept_artifactAt loc (hw.ne_of_mem hg'))

/-- After a group that does not fail come the others. -/
theorem cons (h : One loc g.slug tree one) (hf : one.failure? = none)
    (hw : Manifest.WellNamed (g :: rest))
    (hrest : InOrder loc rest one.tree (Request.answerOf kept later)) :
    InOrder loc (g :: rest) tree (Request.answerOf kept (one.followedBy later)) := by
  obtain ⟨outcome, hstatus, hgroups⟩ := h.finished hf
  obtain ⟨slugs, finished, failed, unreported, silent, untouched⟩ := hrest
  simp only [Request.failure?_answerOf, Request.groups_answerOf, Request.logs_answerOf,
    Request.tree_answerOf] at slugs finished failed unreported silent untouched
  have hall : (one.followedBy later).groups = ⟨g.slug, outcome⟩ :: later.groups := by
    simp [GroupsRun.followedBy, hgroups]
  constructor <;> simp only [Request.failure?_answerOf, Request.groups_answerOf,
    Request.logs_answerOf, Request.tree_answerOf, hall]
  case slugs => simp [slugs]
  case finished =>
    intro hl
    exact ⟨congrArg (· + 1) (finished hl).1, List.forall_mem_cons.mpr ⟨hstatus, (finished hl).2⟩⟩
  case failed =>
    intro f hl
    obtain ⟨before, slug, hb, hok⟩ := failed f hl
    exact ⟨⟨g.slug, outcome⟩ :: before, slug, by rw [hb]; rfl,
      List.forall_mem_cons.mpr ⟨hstatus, hok⟩⟩
  case unreported =>
    intro g' hg'
    exact List.forall_mem_cons.mpr ⟨(hw.ne_of_mem (List.mem_of_mem_drop hg')).symm,
      unreported g' hg'⟩
  case silent =>
    intro g' hg' line hl hl'
    have hg : g' ∈ rest := List.mem_of_mem_drop hg'
    -- a line is the first group's, which has another slug, or stands in the later log
    rcases List.mem_append.mp hl with hl | hl
    · exact hw.ne_of_mem hg ((h.lines line hl).unique hl' hw.head (hw.tail.slugs g' hg))
    · exact silent g' hg' line hl hl'
  case untouched =>
    intro g' hg'
    have hne : g.slug ≠ g'.slug := hw.ne_of_mem (List.mem_of_mem_drop hg')
    exact (untouched g' hg').trans (h.changes.others _ (not_kept_artifactAt loc hne))

theorem compileGroups {config : Config} {p : Project} {groups : List ScriptGroup}
    (hc : config.generatedDir = "generated") (hd : tree.FolderAt p.dir loc)
    (hb : Path.IsBase p.dir) (hw : Manifest.WellNamed groups) :
    InOrder loc groups tree
      (Request.answerOf kept (Request.compileGroups config p kept tree groups)) := by
  induction groups generalizing tree with
  | nil => exact .nil
  | cons g rest ih =>
      have hone := Request.one_compileGroups hc hd hb hw.head kept
      cases hf : (Request.compileGroups config p kept tree [g]).failure? with
      | some f =>
          rw [Request.compileGroups_cons_of_failed hf]
          exact .stop hone hf hw
      | none =>
          rw [Request.compileGroups_cons_of_finished hf]
          exact .cons hone hf hw (ih (hd.mono hone.changes.folders) hw.tail)

end InOrder

/-! ### Single requests -/

/-- Requests for one group each, in order, up to the first that fails. -/
def Request.each (r : Request) (config : Config) (tree : FileTree) : List String → List Answer
  | [] => []
  | slug :: rest =>
    let a := { r with group := some slug : Request }.run config tree
    match a.failure? with
    | some _ => [a]
    | none => a :: each r config a.tree rest

/-- An answer is what the answers of single requests come to. -/
structure AddsUp (tree : FileTree) (runs : List Answer) (whole : Answer) : Prop where
  /-- the files are those that the last request left -/
  files : whole.tree = runs.foldl (fun _ a => a.tree) tree
  logs : whole.logs = runs.flatMap (·.logs)
  reports : whole.groups = runs.flatMap (·.groups)
  count : whole.groups.length = runs.length
  succeeds : whole.failure? = none ↔ ∀ a ∈ runs, a.failure? = none
  fails : ∀ f, whole.failure? = some f ↔
    ∃ before last, runs = before ++ [last] ∧ (∀ a ∈ before, a.failure? = none) ∧
      last.failure? = some f

/-- An answer tells what compiling groups comes to, events apart. -/
structure Answer.Tells (a : Answer) (r : GroupsRun) : Prop where
  tree : a.tree = r.tree
  failure? : a.failure? = r.failure?
  logs : a.logs = r.logs
  groups : a.groups = r.groups

theorem Answer.Tells.of_answerOf {kept : Bool} {a : Answer} {r : GroupsRun}
    (ht : a.tree = (Request.answerOf kept r).tree)
    (hr : a.result = (Request.answerOf kept r).result) : a.Tells r where
  tree := ht
  failure? := by rw [Answer.failure?, hr, ← Answer.failure?, Request.failure?_answerOf]
  logs := by rw [Answer.logs, hr, ← Answer.logs, Request.logs_answerOf]
  groups := by rw [Answer.groups, hr, ← Answer.groups, Request.groups_answerOf]

namespace AddsUp

variable {kept : Bool} {tree : FileTree} {a : Answer} {runs : List Answer}
  {one later : GroupsRun}

theorem nil : AddsUp tree [] (Request.answerOf kept { tree }) where
  files := rfl
  logs := rfl
  reports := rfl
  count := rfl
  succeeds := by simp
  fails f := by simp

theorem stop (ha : a.Tells one) {f : Failure} (hf : one.failure? = some f)
    (hc : one.groups.length = 1) : AddsUp tree [a] (Request.answerOf kept one) where
  files := ha.tree.symm
  logs := by simp [ha.logs]
  reports := by simp [ha.groups]
  count := by simp [hc]
  succeeds := by simp [hf, ha.failure?]
  fails f' := by
    rw [Request.failure?_answerOf]
    constructor
    · intro hf'
      exact ⟨[], a, rfl, by simp, ha.failure?.trans hf'⟩
    · rintro ⟨before, last, hr, -, hl⟩
      rcases before with _ | ⟨b, _ | ⟨b', before⟩⟩ <;> cases hr
      exact ha.failure?.symm.trans hl

theorem cons (ha : a.Tells one) (hf : one.failure? = none) (hc : one.groups.length = 1)
    (hrest : AddsUp one.tree runs (Request.answerOf kept later)) :
    AddsUp tree (a :: runs) (Request.answerOf kept (one.followedBy later)) := by
  have haf : a.failure? = none := ha.failure?.trans hf
  obtain ⟨files, logs, reports, count, succeeds, fails⟩ := hrest
  simp only [Request.failure?_answerOf, Request.groups_answerOf, Request.logs_answerOf,
    Request.tree_answerOf] at files logs reports count succeeds fails
  constructor <;> simp only [Request.failure?_answerOf, Request.groups_answerOf,
    Request.logs_answerOf, Request.tree_answerOf, GroupsRun.followedBy]
  case files => rw [List.foldl_cons, ha.tree, files]
  case logs => rw [List.flatMap_cons, ha.logs, logs]
  case reports => rw [List.flatMap_cons, ha.groups, reports]
  case count => rw [List.length_append, hc, count, List.length_cons, Nat.add_comm]
  case succeeds => rw [succeeds, List.forall_mem_cons, and_iff_right haf]
  case fails =>
    intro f
    rw [fails f]
    constructor
    · rintro ⟨before, last, rfl, hb, hl⟩
      exact ⟨a :: before, last, rfl, List.forall_mem_cons.mpr ⟨haf, hb⟩, hl⟩
    · rintro ⟨before, last, hr, hb, hl⟩
      cases before with
      | nil =>
          -- the last request would be the first, which did not fail
          cases hr
          cases haf.symm.trans hl
      | cons b before =>
          cases hr
          exact ⟨before, last, rfl, (List.forall_mem_cons.mp hb).2, hl⟩

end AddsUp

/-- A request for one group is answered by what compiling it comes to. -/
theorem Request.tells_run {r : Request} {config : Config} {tree : FileTree} {p : Project}
    {g : ScriptGroup} (hm : r.mode ≠ .preview)
    (hl : (Project.load config tree r.project).2 = .ok p) (hg : g ∈ p.groups) :
    ({ r with group := some g.slug : Request }.run config tree).Tells
      (compileGroups config p (r.mode == .persist) tree [g]) := by
  obtain ⟨htree, hresult⟩ := run_of_load_ok (r := { r with group := some g.slug }) hl
  have he : compileProject { r with group := some g.slug } config p tree =
      answerOf (r.mode == .persist) (compileGroups config p (r.mode == .persist) tree [g]) := by
    rw [compileProject_of_ne_preview (r := { r with group := some g.slug }) hm]
    simp only [compileAll, (Project.loaded_of_load hl).select hg]
  rw [he] at htree hresult
  exact .of_answerOf htree hresult

theorem AddsUp.each {r : Request} {config : Config} {tree : FileTree} {p : Project}
    {loc : Location} {groups : List ScriptGroup} (hc : config.generatedDir = "generated")
    (hm : r.mode ≠ .preview) (hl : (Project.load config tree r.project).2 = .ok p)
    (hd : tree.FolderAt p.dir loc) (hg : ∀ g ∈ groups, g ∈ p.groups) :
    AddsUp tree (r.each config tree (groups.map (·.slug)))
      (Request.answerOf (r.mode == .persist)
        (Request.compileGroups config p (r.mode == .persist) tree groups)) := by
  induction groups generalizing tree with
  | nil => exact .nil
  | cons g rest ih =>
      have hp := Project.loaded_of_load hl
      have hone := Request.one_compileGroups hc hd hp.isBase
        (hp.groups.slugs g (hg g List.mem_cons_self)) (r.mode == .persist)
      have htells := Request.tells_run hm hl (hg g List.mem_cons_self)
      cases hf : (Request.compileGroups config p (r.mode == .persist) tree [g]).failure? with
      | some f =>
          rw [Request.compileGroups_cons_of_failed hf, List.map_cons]
          simp only [Request.each, htells.failure?, hf]
          exact .stop htells hf hone.count
      | none =>
          -- the project is the same for the groups that are left
          have hl' : (Project.load config (Request.compileGroups config p (r.mode == .persist)
              tree [g]).tree r.project).2 = .ok p := by
            rw [Project.load_congr (hp.dir ▸ hd) hone.changes (not_kept_manifest loc g.slug), hl]
          rw [Request.compileGroups_cons_of_finished hf, List.map_cons]
          simp only [Request.each, htells.failure?, hf, htells.tree]
          exact .cons htells hf hone.count
            (ih hl' (hd.mono hone.changes.folders) fun g' hg' => hg g' (List.mem_cons_of_mem g hg'))

/-! ### The two ways compared -/

section Congr

variable {loc : Location} {groups : List ScriptGroup} {tree : FileTree} {runs : List Answer}
  {whole whole' : Answer}

theorem AddsUp.congr (h : AddsUp tree runs whole) (ht : whole'.tree = whole.tree)
    (hr : whole'.result = whole.result) : AddsUp tree runs whole' := by
  obtain ⟨left, events, result⟩ := whole
  obtain ⟨left', events', result'⟩ := whole'
  cases ht
  cases hr
  exact ⟨h.files, h.logs, h.reports, h.count, h.succeeds, h.fails⟩

theorem InOrder.congr (h : InOrder loc groups tree whole) (ht : whole'.tree = whole.tree)
    (hr : whole'.result = whole.result) : InOrder loc groups tree whole' := by
  obtain ⟨left, events, result⟩ := whole
  obtain ⟨left', events', result'⟩ := whole'
  cases ht
  cases hr
  exact ⟨h.slugs, h.finished, h.failed, h.unreported, h.silent, h.untouched⟩

end Congr

/-- **Compiling a project is compiling its groups by requests of their own**, in order, up to the
first that fails.  Where the project does not load, no request does anything. -/
theorem run_all_eq_each (config : Config) (hc : config.generatedDir = "generated") (r : Request)
    (hm : r.mode ≠ .preview) (tree : FileTree) :
    (∀ f, (Project.load config tree r.project).2 = .error f → ∀ group?,
      let a := { r with group := group? : Request }.run config tree
      a.tree = tree ∧ a.result = .error { failure := f, logs := [], groups := [] }) ∧
    ∀ p, (Project.load config tree r.project).2 = .ok p →
      let whole := { r with group := none : Request }.run config tree
      let runs := r.each config tree (p.groups.map (·.slug))
      AddsUp tree runs whole ∧
        (∃ loc, tree.FolderAt p.dir loc ∧ InOrder loc p.groups tree whole) ∧
        (whole.failure? = none → ∃ report, whole.result = .ok (.report report)) := by
  refine ⟨fun f hl group? => ?_, fun p hl => ?_⟩
  · exact Request.run_of_load_error (r := { r with group := group? }) hl
  · intro whole runs
    have hp := Project.loaded_of_load hl
    obtain ⟨loc, hd⟩ := hp.folderAt
    obtain ⟨htree, hresult⟩ := Request.run_of_load_ok (r := { r with group := none }) hl
    rw [Request.compileProject_of_ne_preview (r := { r with group := none }) hm]
      at htree hresult
    have hsum := AddsUp.each hc hm hl hd fun g hg => hg
    have horder : InOrder loc p.groups tree (Request.answerOf (r.mode == .persist)
        (Request.compileGroups config p (r.mode == .persist) tree p.groups)) :=
      .compileGroups hc hd hp.isBase hp.groups
    refine ⟨hsum.congr htree hresult, ⟨loc, hd, horder.congr htree hresult⟩, fun hf => ?_⟩
    have htells := Answer.Tells.of_answerOf htree hresult
    rw [hresult]
    exact (Request.report_answerOf _ _).mpr (htells.failure?.symm.trans hf)

/-- A project of three groups, the second of which has a jump to nowhere. -/
def threeGroups : FileTree :=
  ⟨[(["projects"], .folder), (["projects", "demo"], .folder),
    (["projects", "demo", "manifest.json"], .file (.text
      "\x7b\"slug\":\"demo\",\"name\":\"\",\"script_groups\":
        [[\"one\",\"\",[\"a.rhai\"]],[\"two\",\"\",[\"b.rhai\"]],[\"three\",\"\"]]\x7d")),
    (["projects", "demo", "a.rhai"], .file (.text "label(\"again\"); jump(\"again\");")),
    (["projects", "demo", "b.rhai"], .file (.text "jump(\"nowhere\");"))]⟩

theorem run_all_eq_each_threeGroups :
    ∃ p, (Project.load {} threeGroups "demo").2 = .ok p ∧
      AddsUp threeGroups
        (Request.each ⟨"demo", .persist, none⟩ {} threeGroups (p.groups.map (·.slug)))
        (Request.run ⟨"demo", .persist, none⟩ {} threeGroups) ∧
      (Request.run ⟨"demo", .persist, none⟩ {} threeGroups).groups.map (·.outcome.status) =
        [.success, .failed] := by
  obtain ⟨herror, hok⟩ := run_all_eq_each {} rfl ⟨"demo", .persist, none⟩ nofun threeGroups
  have hg : (Request.run ⟨"demo", .persist, none⟩ {} threeGroups).groups.map (·.outcome.status) =
      [.success, .failed] := by decide +kernel
  cases hl : (Project.load {} threeGroups "demo").2 with
  | error f =>
      rw [Answer.groups_of_error (herror f hl none).2] at hg
      cases hg
  | ok p => exact ⟨p, rfl, (hok p hl).1, hg⟩

end Dialogue
