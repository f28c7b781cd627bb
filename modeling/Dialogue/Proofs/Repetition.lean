import Dialogue.Proofs.Frame
import Dialogue.Proofs.Prediction
import Dialogue.Proofs.Ways

/-!
# Persisting once more

A run that follows on one like it finds the artifacts of all its groups as it will leave them: of
the first group already, that the first run wrote before the others ran.  But groups do not read
artifacts (`ReadsElsewhere`), and to keep an artifact where it was kept is to change nothing
(`Artifact.keep_again`).  So the second run comes to what the first one came to, group by group,
and fails where it failed (`Request.compileGroups_again`, `Request.persist_again`).
-/

namespace Dialogue

open FileTree (ChangesOnly)

/-! ### Sources that are no artifacts -/

/-- A source is not read from the folder of artifacts. -/
structure ReadsElsewhere (loc : Location) (file : String) : Prop where
  name : (Path.names file).head? ≠ some "generated"
  /-- only the default source may leave the folder of the project, and then come back from there -/
  outside : Path.isContained file = false →
    ∀ front, front <+: Path.steps file → ¬ loc ++ ["generated"] <+: loc.follow front

theorem ReadsElsewhere.not_inside {loc : Location} {file : String} (h : ReadsElsewhere loc file)
    {front : List Path.Step} (hf : front <+: Path.steps file) :
    ¬ loc ++ ["generated"] <+: loc.follow front := by
  cases hc : Path.isContained file with
  | false => exact h.outside hc front hf
  | true =>
      have hsteps : ∀ s ∈ Path.steps file, s = .here ∨ ∃ name, s = .down name := by
        simp only [Path.isContained, Bool.and_eq_true, List.all_eq_true] at hc
        intro s hs
        have := hc.2 s hs
        cases s with
        | here => exact .inl rfl
        | down name => exact .inr ⟨name, rfl⟩
        | root | up => cases this
      rw [Location.follow_names fun s hs => hsteps s (hf.subset hs), List.prefix_append_right_inj]
      rintro ⟨names, hnames⟩
      obtain ⟨rest, hrest⟩ := hf.filterMap Path.Step.name?
      refine h.name ?_
      rw [Path.names, ← hrest, ← hnames]
      rfl

/-- Changes in the folder of artifacts are not read. -/
theorem ReadsElsewhere.entryAt {t t' : FileTree} {dir file : String} {loc : Location}
    (h : ReadsElsewhere loc file) (hd : t.FolderAt dir loc) (hb : Path.IsBase dir)
    (hc : ChangesOnly (loc ++ ["generated"] <+: ·) t t') :
    t'.entryAt (Path.join dir file) = t.entryAt (Path.join dir file) :=
  hd.entryAt_of_way (hd.mono hc.folders) hb fun _ hf => hc.others _ (h.not_inside hf)

theorem Kept.inside {loc q : Location} {slug : String} (h : Kept loc slug q) :
    loc ++ ["generated"] <+: q := by
  obtain rfl | rfl := h
  · exact List.prefix_refl _
  · exact ⟨[slug ++ ".json"], by simp [artifactAt]⟩

/-! ### Groups once more -/

namespace Request

section Groups

variable {config : Config} {p : Project} {tree s : FileTree} {loc : Location}
  {groups : List ScriptGroup}

/-- **Groups once more come to the same**, on the files that they left, and leave them the
same. -/
theorem compileGroups_again (hc : config.generatedDir = "generated")
    (hd : tree.FolderAt p.dir loc) (hb : Path.IsBase p.dir) (hw : Manifest.WellNamed groups)
    (hreads : ∀ g ∈ groups, ∀ file ∈ g.sourceFiles, ReadsElsewhere loc file)
    (hs : ChangesOnly (fun _ => False) (compileGroups config p true tree groups).tree s) :
    ∃ s', compileGroups config p true s groups =
        { compileGroups config p true tree groups with tree := s' } ∧
      ChangesOnly (fun _ => False) s s' := by
  induction groups generalizing tree s with
  | nil => exact ⟨s, rfl, .refl _ _⟩
  | cons g rest ih =>
      obtain ⟨hg, hreads⟩ := List.forall_mem_cons.mp hreads
      -- the files have changed since the group ran, but not where it reads
      have hall := (changes_compileGroups hc hd hb hw).mono
        (Q := (loc ++ ["generated"] <+: ·)) (by rintro q ⟨_, -, hq⟩; exact hq.inside)
      have hsince := hall.trans (hs.mono fun _ => False.elim)
      have hds : s.FolderAt p.dir loc := hd.mono hsince.folders
      have hran : GroupRun.run config.scriptOptions s p g =
          GroupRun.run config.scriptOptions tree p g :=
        GroupRun.run_congr fun file hfile => congrArg _ ((hg file hfile).entryAt hd hb hsince)
      rcases hr : (GroupRun.run config.scriptOptions tree p g).result with f | _ | c
      · simp only [compileGroups, hran, settle, hr] at hs ⊢
        exact ⟨s, rfl, .refl _ _⟩
      · simp only [compileGroups, settle, hr] at hs
        obtain ⟨s', hagain, hsame⟩ := ih hd hw.tail hreads hs
        refine ⟨s', ?_, hsame⟩
        simp only [compileGroups, hran, settle, hr, hagain]
      · cases hk : Artifact.keep config p g.slug c.machine tree with
        | mk left fault? =>
            cases fault? with
            | some f =>
                simp only [compileGroups, settle, hr, hk, if_true] at hs
                obtain ⟨s', hk', hsame⟩ := Artifact.keep_again hc hd hds hb hw.head hk
                  (hs.others _ id) (hs.others _ id)
                refine ⟨s', ?_, hsame⟩
                simp only [compileGroups, hran, settle, hr, hk, hk', if_true]
            | none =>
                simp only [compileGroups, settle, hr, hk, if_true] at hs
                have hleft := Artifact.keep_changes hc hd hb hw.head c.machine
                rw [hk] at hleft
                have hdl : left.FolderAt p.dir loc := hd.mono hleft.folders
                -- the groups behind it have left its artifact alone
                have hrest := changes_compileGroups hc hdl hb hw.tail
                have hfolder := Artifact.folder_of_keep hc hd hb hw.head hk
                have hfile : s.lookup (artifactAt loc g.slug) =
                    left.lookup (artifactAt loc g.slug) := by
                  refine (hs.others _ id).trans (hrest.others _ ?_)
                  rintro ⟨g', hg', hq⟩
                  exact not_kept_artifactAt loc (hw.ne_of_mem hg').symm hq
                obtain ⟨s₁, hk', hsame₁⟩ := Artifact.keep_again hc hd hds hb hw.head hk
                  ((hs.folders _ (hrest.folders _ hfolder)).trans hfolder.symm) hfile
                obtain ⟨s', hagain, hsame⟩ := ih hdl hw.tail hreads (hs.trans hsame₁)
                refine ⟨s', ?_, hsame₁.trans hsame⟩
                simp only [compileGroups, hran, settle, hr, hk, hk', if_true, hagain]

end Groups

/-! ### Requests once more -/

/-- The files after some requests, carried out one after the other. -/
def after (tree : FileTree) (requests : List (Config × Request)) : FileTree :=
  requests.foldl (fun t r => (r.2.run r.1 t).tree) tree

theorem after_of_ne_persist (tree : FileTree) {requests : List (Config × Request)}
    (h : ∀ r ∈ requests, r.2.mode ≠ .persist) : after tree requests = tree := by
  induction requests with
  | nil => rfl
  | cons r rest ih =>
      obtain ⟨hr, hrest⟩ := List.forall_mem_cons.mp h
      rw [after, List.foldl_cons, tree_run_of_ne_persist hr, ← after, ih hrest]

/-- The second run answers what the first one answered, and leaves the files the same. -/
theorem run_again {config : Config} {tree : FileTree} {project : String} {filter : Option String}
    (hc : config.generatedDir = "generated")
    (hreads : ∀ loc, tree.FolderAt (config.projectDir project) loc →
      ∀ g ∈ selected ⟨project, .persist, filter⟩ config tree,
        ∀ file ∈ g.sourceFiles, ReadsElsewhere loc file)
    {first : Answer} (hfirst : run ⟨project, .persist, filter⟩ config tree = first) :
    ∃ s', run ⟨project, .persist, filter⟩ config first.tree = { first with tree := s' } ∧
      ChangesOnly (fun _ => False) first.tree s' := by
  obtain ⟨f, ht, -⟩ | ⟨p, groups, hl, hs, htells⟩ := run_persist_cases
    (r := ⟨project, .persist, filter⟩) config tree rfl
  · -- a request that is refused leaves the files, so it is the same request again
    rw [hfirst] at ht
    rw [ht, hfirst]
    exact ⟨tree, by rw [← ht], .refl _ _⟩
  · have hp := Project.loaded_of_load hl
    obtain ⟨loc, hd⟩ := hp.folderAt
    have hw := Project.wellNamed_select hp.groups hs
    have hselected : selected ⟨project, .persist, filter⟩ config tree = groups := by
      simp only [selected, hl, hs]
    have hchanges := changes_compileGroups hc hd hp.isBase hw
    have hload := Project.load_congr (hp.dir ▸ hd) hchanges
      (by rintro ⟨g, -, hq⟩; exact not_kept_manifest loc g.slug hq)
    obtain ⟨s', hagain, hsame⟩ := compileGroups_again hc hd hp.isBase hw
      (hselected ▸ hreads loc (hp.dir ▸ hd)) (.refl _ _)
    rw [← hfirst, htells.tree]
    refine ⟨s', ?_, hsame⟩
    simp only [run, hload, hl, compileProject, compileAll, hs, answerOf, hagain]

/-- **Persisting once more answers the same and changes nothing**, also when it fails, and
whatever was checked or shown in between. -/
theorem persist_again {config : Config} (hc : config.generatedDir = "generated")
    (project : String) (filter : Option String) (tree : FileTree)
    (hreads : ∀ loc, tree.FolderAt (config.projectDir project) loc →
      ∀ g ∈ selected ⟨project, .persist, filter⟩ config tree,
        ∀ file ∈ g.sourceFiles, ReadsElsewhere loc file)
    (between : List (Config × Request)) (hbetween : ∀ r ∈ between, r.2.mode ≠ .persist) :
    let first := run ⟨project, .persist, filter⟩ config tree
    let second := run ⟨project, .persist, filter⟩ config (after first.tree between)
    second.result = first.result ∧ second.events = first.events ∧
      ∀ loc, second.tree.lookup loc = first.tree.lookup loc := by
  intro first second
  obtain ⟨s', hagain, hsame⟩ := run_again hc hreads (rfl : _ = first)
  have hsecond : second = { first with tree := s' } := by
    rw [← hagain, ← after_of_ne_persist first.tree hbetween]
  rw [hsecond]
  exact ⟨rfl, rfl, fun loc => hsame.others loc id⟩

end Request

/-- The second group fails both times, and the artifact of the first one stays. -/
theorem persist_again_threeGroups :
    let persist : Request := ⟨"demo", .persist, none⟩
    let first := persist.run {} threeGroups
    let second := persist.run {} (Request.after first.tree
      [({}, ⟨"demo", .check, none⟩), ({}, ⟨"demo", .preview, some "one"⟩)])
    first.groups.map (·.outcome.status) = [.success, .failed] ∧
      second.result = first.result ∧ second.events = first.events ∧
        ∀ loc, second.tree.lookup loc = first.tree.lookup loc := by
  intro persist first second
  have hreads : ∀ g ∈ Request.selected persist {} threeGroups, ∀ file ∈ g.sourceFiles,
      (Path.names file).head? ≠ some "generated" ∧ Path.isContained file = true := by
    decide +kernel
  refine ⟨by decide +kernel, Request.persist_again rfl "demo" none threeGroups ?_ _ (by decide)⟩
  intro loc _ g hg file hfile
  obtain ⟨hname, hcontained⟩ := hreads g hg file hfile
  exact ⟨hname, fun h => by simp [hcontained] at h⟩

end Dialogue
