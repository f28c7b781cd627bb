import Dialogue.Command
import Dialogue.Proofs.Failures
import Dialogue.Proofs.Frame
import Dialogue.Proofs.Prediction

/-!
# What an internal fault tells

A script that cannot be read, parsed or executed ends the run.  What its author, or whoever can
read the output, learns of it is the code, for actions that it has recorded are dropped, the log
has no line for it, and the message of an internal failure is not told.

So take two trees that differ in the content of one file (`FileTree.AlikeBut`), and runs that both
stop in this file with the same code (`Request.AbortsIn`).  The groups before come to the same on
both (`GroupsRun.Alike`), and so does the output (`Command.output_of_aborted`).  It must not be
that one of the runs has itself written the file before it stopped there, as the artifact of an
earlier group (`output_of_overwritten`).
-/

namespace Dialogue

open FileTree (ChangesOnly)

/-! ### Trees that differ in one file -/

namespace FileTree

/-- The trees hold files at a location, whatever is in them, and are the same elsewhere. -/
structure AlikeBut (F : Location) (t t' : FileTree) : Prop where
  file : ∃ content, t.lookup F = some (.file content)
  file' : ∃ content, t'.lookup F = some (.file content)
  others : ∀ q, q ≠ F → t'.lookup q = t.lookup q

namespace AlikeBut

variable {F : Location} {t t' : FileTree}

theorem symm (h : AlikeBut F t t') : AlikeBut F t' t where
  file := h.file'
  file' := h.file
  others q hq := (h.others q hq).symm

theorem changes (h : AlikeBut F t t') : ChangesOnly (· = F) t t' where
  folders q hq := by
    by_cases e : q = F
    · obtain ⟨content, hF⟩ := h.file
      rw [e, hF] at hq
      cases hq
    · rw [h.others q e, hq]
  others := h.others

/-- Everywhere there is the same in both, or a file in both. -/
theorem lookup_cases (h : AlikeBut F t t') (q : Location) :
    t'.lookup q = t.lookup q ∨
      ∃ c c', t.lookup q = some (.file c) ∧ t'.lookup q = some (.file c') := by
  by_cases e : q = F
  · obtain ⟨c, hc⟩ := h.file
    obtain ⟨c', hc'⟩ := h.file'
    exact .inr ⟨c, c', e ▸ hc, e ▸ hc'⟩
  · exact .inl (h.others q e)

theorem lookup_folder (h : AlikeBut F t t') (q : Location) :
    t'.lookup q = some .folder ↔ t.lookup q = some .folder :=
  ⟨h.symm.changes.folders q, h.changes.folders q⟩

theorem walk_iff (h : AlikeBut F t t') {here found : Location} {steps : List Path.Step} :
    t'.walk here steps = .ok found ↔ t.walk here steps = .ok found :=
  ⟨walk_mono h.symm.changes.folders, walk_mono h.changes.folders⟩

/-- What is put in both is the same in both, whatever it takes the place of. -/
theorem put (h : AlikeBut F t t') {q : Location} {entry : Entry}
    (hq : q = F → ∃ content, entry = .file content) :
    AlikeBut F (t.put q entry) (t'.put q entry) := by
  have file {t : FileTree} (ht : ∃ content, t.lookup F = some (.file content)) :
      ∃ content, (t.put q entry).lookup F = some (.file content) := by
    obtain ⟨content, hF⟩ := ht
    by_cases e : q = F
    · obtain ⟨content', rfl⟩ := hq e
      rw [e]
      exact ⟨content', lookup_put_free _ (by simp [hF])⟩
    · rw [lookup_put_of_ne t _ (Ne.symm e)]
      exact ⟨content, hF⟩
  refine ⟨file h.file, file h.file', fun q' hq' => ?_⟩
  by_cases e : q' = q
  · subst e
    cases ha : Location.isAbove q' with
    | true => simp [lookup, ha]
    | false => rw [lookup_put_self t _ ha, lookup_put_self t' _ ha]
  · rw [lookup_put_of_ne t _ e, lookup_put_of_ne t' _ e, h.others q' hq']

/-- A path that does not lead to the file leads to the same in both, or to nothing. -/
theorem entryAt (h : AlikeBut F t t') {path : String} (hp : t.locate path ≠ .ok F) :
    (t'.entryAt path).toOption = (t.entryAt path).toOption := by
  cases hv : checkPath path with
  | error fault => simp only [FileTree.entryAt, locate, hv, bind, Except.bind]
  | ok u =>
      cases hw : t.walk [] (Path.steps path) with
      | error fault =>
          -- the walk does not come to its end in the other tree either
          cases hw' : t'.walk [] (Path.steps path) with
          | ok found =>
              rw [h.walk_iff.mp hw'] at hw
              cases hw
          | error fault' =>
              simp only [FileTree.entryAt, locate, hv, hw, hw', bind, Except.bind, Except.toOption]
      | ok found =>
          rw [entryAt_of_walk hv hw, entryAt_of_walk hv (h.walk_iff.mpr hw)]
          obtain e | ⟨c, c', hc, hc'⟩ := h.lookup_cases found
          · rw [e]
          · by_cases e : found = F
            · -- the path ends as one to a folder
              cases hend : endsInFolder path with
              | true => simp [hc, hc']
              | false =>
                  refine absurd ?_ hp
                  simp [locate, hv, hw, hend, e, bind, Except.bind, pure, Except.pure]
            · rw [h.others found e]

/-- The file is where it is in both. -/
theorem locate (h : AlikeBut F t t') {path : String} (hp : t.locate path = .ok F) :
    t'.locate path = .ok F := by
  obtain ⟨_, hv, hw⟩ := bind_eq_ok_iff.mp hp
  obtain ⟨found, hw, hend⟩ := bind_eq_ok_iff.mp hw
  obtain ⟨content, hF⟩ := h.file
  obtain ⟨content', hF'⟩ := h.file'
  have hfound : found = F := by
    split at hend <;> cases hend
    rfl
  rw [hfound, hF] at hend
  simp only [FileTree.locate, hv, h.walk_iff.mpr hw, hfound, hF', bind, Except.bind]
  cases hfolder : endsInFolder path with
  | true =>
      rw [hfolder] at hend
      cases hend
  | false => rfl

end AlikeBut

/-- A file that was put in the place of another one. -/
theorem alikeBut_put (t : FileTree) {F : Location} (hF : F.isAbove = false)
    (content content' : Content) :
    AlikeBut F (t.put F (.file content)) (t.put F (.file content')) where
  file := ⟨content, lookup_put_self t _ hF⟩
  file' := ⟨content', lookup_put_self t _ hF⟩
  others q hq := by rw [lookup_put_of_ne t _ hq, lookup_put_of_ne t _ hq]

theorem eq_of_lookup_put {t : FileTree} {F : Location} {content content' : Content}
    (hF : F.isAbove = false)
    (h : (t.put F (.file content)).lookup F = some (.file content')) : content' = content := by
  rw [lookup_put_self t _ hF] at h
  cases h
  rfl

end FileTree

/-! ### Keeping an artifact in both -/

section Keeping

variable {F : Location} {t t' : FileTree} {dir name : String} {loc : Location}

theorem FileTree.AlikeBut.makeFolders (h : FileTree.AlikeBut F t t') (hd : t.FolderAt dir loc)
    (hb : Path.IsBase dir) (hn : Path.IsName name)
    (hlen : ¬ FileTree.longestName < name.utf8ByteSize) :
    ∃ made', t'.makeFolders (Path.join dir name) =
        (made', (t.makeFolders (Path.join dir name)).2) ∧
      FileTree.AlikeBut F (t.makeFolders (Path.join dir name)).1 made' := by
  rw [hd.makeFolders_eq hb hn hlen, (hd.mono h.changes.folders).makeFolders_eq hb hn hlen]
  cases FileTree.checkPath (Path.join dir name) with
  | error fault => exact ⟨t', rfl, h⟩
  | ok u =>
      obtain e | ⟨c, c', hc, hc'⟩ := h.lookup_cases (loc ++ [name])
      · rw [e]
        cases hl : t.lookup (loc ++ [name]) with
        | none =>
            refine ⟨_, rfl, h.put fun hF => ?_⟩
            obtain ⟨content, hfile⟩ := h.file
            rw [← hF, hl] at hfile
            cases hfile
        | some entry =>
            cases entry with
            | folder => exact ⟨t', rfl, h⟩
            | file content => exact ⟨t', rfl, h⟩
      · rw [hc, hc']
        exact ⟨t', rfl, h⟩

/-- A file can be written in both or in neither. -/
theorem FileTree.AlikeBut.write (h : FileTree.AlikeBut F t t') (hd : t.FolderAt dir loc)
    (hb : Path.IsBase dir) (hn : Path.IsName name) (content : Content) :
    (∃ fault, t.write (Path.join dir name) content = .error fault ∧
        t'.write (Path.join dir name) content = .error fault) ∨
      ∃ left left', t.write (Path.join dir name) content = .ok left ∧
        t'.write (Path.join dir name) content = .ok left' ∧ FileTree.AlikeBut F left left' := by
  rw [hd.write_eq hb hn, (hd.mono h.changes.folders).write_eq hb hn]
  have hfolders := h.lookup_folder (loc ++ [name])
  cases FileTree.checkPath (Path.join dir name) with
  | error fault => exact .inl ⟨fault, rfl, rfl⟩
  | ok u =>
      by_cases hlen : FileTree.longestName < name.utf8ByteSize
      · simp only [if_pos hlen]
        exact .inl ⟨_, rfl, rfl⟩
      · by_cases hfolder : t.lookup (loc ++ [name]) = some .folder
        · simp only [if_neg hlen, if_pos hfolder, if_pos (hfolders.mpr hfolder)]
          exact .inl ⟨_, rfl, rfl⟩
        · simp only [if_neg hlen, if_neg hfolder, if_neg (mt hfolders.mp hfolder)]
          exact .inr ⟨_, _, rfl, rfl, h.put fun _ => ⟨content, rfl⟩⟩

theorem Artifact.keep_alike {config : Config} {p : Project} {group : String}
    (h : FileTree.AlikeBut F t t') (hc : config.generatedDir = "generated")
    (hd : t.FolderAt p.dir loc) (hb : Path.IsBase p.dir) (hs : isSlug group = true)
    (m : Machine) :
    ∃ left', keep config p group m t' = (left', (keep config p group m t).2) ∧
      FileTree.AlikeBut F (keep config p group m t).1 left' := by
  have hn := isName_generatedDir hc
  have hlen := generatedDir_not_long hc
  obtain ⟨made', folder', hmade⟩ := h.makeFolders hd hb hn hlen
  rw [← Config.artifactDir] at folder' hmade
  cases hk : keep config p group m t with
  | mk left fault? =>
      cases keeping_iff.mpr hk with
      | noFolder folder =>
          rw [folder] at folder' hmade
          exact ⟨made', keeping_iff.mp (.noFolder folder'), hmade⟩
      | @noFile _ fault folder file =>
          rw [folder] at folder' hmade
          have written := hmade.write (hd.of_makeFolders hb hn hlen folder)
            (Path.isBase_join _ hn) (isName_artifact hs) (.text m.artifact)
          rw [← Config.artifactDir, ← Config.artifactPath, file] at written
          obtain ⟨_, e, file'⟩ | ⟨_, _, e, -⟩ := written
          · cases e
            exact ⟨made', keeping_iff.mp (.noFile folder' file'), hmade⟩
          · cases e
      | kept folder file =>
          rw [folder] at folder' hmade
          have written := hmade.write (hd.of_makeFolders hb hn hlen folder)
            (Path.isBase_join _ hn) (isName_artifact hs) (.text m.artifact)
          rw [← Config.artifactDir, ← Config.artifactPath, file] at written
          obtain ⟨_, e, -⟩ | ⟨_, left', e, file', hleft⟩ := written
          · cases e
          · cases e
            exact ⟨left', keeping_iff.mp (.kept folder' file'), hleft⟩

end Keeping

/-! ### Files that stop a run -/

namespace SourceUnit

/-- Runs a unit whose source is in a file with that content. -/
def runContent (options : ScriptOptions) (unit : UnitName) (path : String) :
    Content → List Event × Except Failure UnitRun
  | .text source => runSource options unit source
  | .bytes _ => ([], .error (readFailure path .notText))

theorem run_of_locate {options : ScriptOptions} {tree : FileTree} {unit : UnitName}
    {path : String} {F : Location} {content : Content} (hp : tree.locate path = .ok F)
    (hF : tree.lookup F = some (.file content)) :
    run options tree unit path = runContent options unit path content := by
  have entry : tree.entryAt path = .ok (.file content) := by
    simp only [FileTree.entryAt, hp, bind, Except.bind, hF]
    rfl
  have found : tree.pathExists path = true := by
    simp only [FileTree.pathExists, entry, Except.isOk, Except.toBool]
  cases content with
  | text source =>
      simp [run, found, FileTree.readText, FileTree.read, entry, runContent, bind, Except.bind, pure,
        Except.pure]
  | bytes raw =>
      simp [run, found, FileTree.readText, FileTree.read, entry, runContent, bind, Except.bind, pure,
        Except.pure, throw, throwThe, MonadExceptOf.throw]

end SourceUnit

namespace Content

/-- Whether a script runs is the same for each of the units: it does not hang on their names. -/
def SameForAll (options : ScriptOptions) (units : List UnitName) (content : Content) : Prop :=
  ∀ source, content = .text source → ∀ u ∈ units, ∀ u' ∈ units,
    (SourceUnit.runSource options u source).2.isOk = (SourceUnit.runSource options u' source).2.isOk

instance (options : ScriptOptions) (units : List UnitName) (content : Content) :
    Decidable (content.SameForAll options units) :=
  match content with
  | .text source =>
    decidable_of_iff (∀ u ∈ units, ∀ u' ∈ units,
        (SourceUnit.runSource options u source).2.isOk =
          (SourceUnit.runSource options u' source).2.isOk)
      ⟨fun h _ e => Content.text.inj e ▸ h, fun h => h source rfl⟩
  | .bytes _ => isTrue nofun

/-- Whichever of the units has its source there, it fails. -/
def Stops (options : ScriptOptions) (units : List UnitName) (content : Content) : Prop :=
  ∀ u ∈ units, ∀ path, ∃ f, (SourceUnit.runContent options u path content).2 = .error f

theorem SameForAll.stops {options : ScriptOptions} {units : List UnitName} {content : Content}
    {u : UnitName} {path : String} {f : Failure} (h : content.SameForAll options units)
    (hu : u ∈ units) (hf : (SourceUnit.runContent options u path content).2 = .error f) :
    content.Stops options units := by
  intro u' hu' path'
  cases content with
  | text source =>
      have same := h source rfl u' hu' u hu
      rw [SourceUnit.runContent] at hf ⊢
      rw [hf] at same
      cases hr : (SourceUnit.runSource options u' source).2 with
      | error f' => exact ⟨f', rfl⟩
      | ok ran =>
          rw [hr] at same
          cases same
  | bytes raw => exact ⟨_, rfl⟩

end Content

/-! ### Files and groups in both -/

/-- Two runs give the same, or both fail. -/
def SameOrFailed {α : Type} (x x' : Except Failure α) : Prop :=
  x' = x ∨ ∃ f f', x = .error f ∧ x' = .error f'

theorem SameOrFailed.map {α β : Type} {x x' : Except Failure α} (h : SameOrFailed x x')
    (f : α → β) : SameOrFailed (x.map f) (x'.map f) := by
  obtain rfl | ⟨e, e', rfl, rfl⟩ := h
  · exact .inl rfl
  · exact .inr ⟨e, e', rfl, rfl⟩

/-- The trees differ in a file that stops the units that have their source there. -/
structure StopBoth (options : ScriptOptions) (units : List UnitName) (F : Location)
    (tree tree' : FileTree) : Prop where
  alike : FileTree.AlikeBut F tree tree'
  stops : ∀ content, tree.lookup F = some (.file content) → content.Stops options units
  stops' : ∀ content, tree'.lookup F = some (.file content) → content.Stops options units

/-- What two runs have in common that stop in the file in which the trees differ. -/
structure GroupsRun.Alike (F : Location) (r r' : GroupsRun) : Prop where
  logs : r'.logs = r.logs
  trees : FileTree.AlikeBut F r.tree r'.tree
  failed : r'.failure?.isSome = r.failure?.isSome

namespace StopBoth

section Groups

variable {options : ScriptOptions} {units : List UnitName} {F : Location}
  {tree tree' : FileTree} {p : Project} {g : ScriptGroup}

theorem unit (h : StopBoth options units F tree tree') {u : UnitName} (hu : u ∈ units)
    (path : String) :
    SourceUnit.run options tree' u path = SourceUnit.run options tree u path ∨
      ∃ f f', (SourceUnit.run options tree u path).2 = .error f ∧
        (SourceUnit.run options tree' u path).2 = .error f' := by
  by_cases hp : tree.locate path = .ok F
  · obtain ⟨content, hF⟩ := h.alike.file
    obtain ⟨content', hF'⟩ := h.alike.file'
    obtain ⟨f, hf⟩ := h.stops content hF u hu path
    obtain ⟨f', hf'⟩ := h.stops' content' hF' u hu path
    rw [SourceUnit.run_of_locate hp hF, SourceUnit.run_of_locate (h.alike.locate hp) hF']
    exact .inr ⟨f, f', hf, hf'⟩
  · exact .inl (SourceUnit.run_congr (h.alike.entryAt hp))

theorem files (h : StopBoth options units F tree tree') {group : String} {sources : List String}
    (hu : ∀ file ∈ sources, ⟨p.slug, group, file⟩ ∈ units) :
    (GroupRun.files options tree' p group sources).logs =
        (GroupRun.files options tree p group sources).logs ∧
      SameOrFailed (GroupRun.files options tree p group sources).result
        (GroupRun.files options tree' p group sources).result := by
  induction sources with
  | nil => exact ⟨rfl, .inl rfl⟩
  | cons file rest ih =>
      obtain ⟨hfile, hrest⟩ := List.forall_mem_cons.mp hu
      obtain ⟨logs, result⟩ := ih hrest
      have first := h.unit hfile (Path.join p.dir file)
      unfold GroupRun.files
      dsimp only
      generalize SourceUnit.run options tree ⟨p.slug, group, file⟩ (Path.join p.dir file) = ran
        at first ⊢
      generalize SourceUnit.run options tree' ⟨p.slug, group, file⟩ (Path.join p.dir file) = ran'
        at first ⊢
      obtain rfl | ⟨f, f', hf, hf'⟩ := first
      · obtain ⟨events, f | run⟩ := ran'
        · exact ⟨rfl, .inl rfl⟩
        · exact ⟨congrArg (_ :: ·) logs, result.map _⟩
      · -- neither run gets behind this file, and the log has no line for it
        obtain ⟨events, _⟩ := ran
        obtain ⟨events', _⟩ := ran'
        cases hf
        cases hf'
        exact ⟨rfl, .inr ⟨f, f', rfl, rfl⟩⟩

theorem run (h : StopBoth options units F tree tree')
    (hu : ∀ file ∈ g.sourceFiles, ⟨p.slug, g.slug, file⟩ ∈ units) :
    (GroupRun.run options tree' p g).logs = (GroupRun.run options tree p g).logs ∧
      SameOrFailed (GroupRun.run options tree p g).result
        (GroupRun.run options tree' p g).result := by
  obtain ⟨logs, same | ⟨f, f', hf, hf'⟩⟩ := h.files hu
  · simp only [GroupRun.run, logs, same]
    cases (GroupRun.files options tree p g.slug g.sourceFiles).result with
    | error f => exact ⟨rfl, .inl rfl⟩
    | ok actions => exact ⟨rfl, .inl rfl⟩
  · simp only [GroupRun.run, hf, hf']
    exact ⟨logs, .inr ⟨f, f', rfl, rfl⟩⟩

end Groups

section Compile

variable {config : Config} {units : List UnitName} {F : Location} {tree tree' : FileTree}
  {p : Project} {g : ScriptGroup} {loc : Location}

theorem compileGroups_one (h : StopBoth config.scriptOptions units F tree tree')
    (hc : config.generatedDir = "generated") (hd : tree.FolderAt p.dir loc)
    (hb : Path.IsBase p.dir) (hs : isSlug g.slug = true)
    (hu : ∀ file ∈ g.sourceFiles, ⟨p.slug, g.slug, file⟩ ∈ units) (kept : Bool) :
    GroupsRun.Alike F (Request.compileGroups config p kept tree [g])
      (Request.compileGroups config p kept tree' [g]) := by
  obtain ⟨logs, same | ⟨f, f', hf, hf'⟩⟩ := h.run hu
  · rcases hr : (GroupRun.run config.scriptOptions tree p g).result with f | _ | c
    · simp only [Request.compileGroups, Request.settle, same, hr]
      exact ⟨logs, h.alike, rfl⟩
    · simp only [Request.compileGroups, Request.settle, same, hr]
      exact ⟨congrArg (· ++ []) logs, h.alike, rfl⟩
    · cases kept with
      | false =>
          simp only [Request.compileGroups, Request.settle, same, hr, Bool.false_eq_true, if_false]
          exact ⟨congrArg (· ++ []) logs, h.alike, rfl⟩
      | true =>
          obtain ⟨left', hk', hleft⟩ := Artifact.keep_alike h.alike hc hd hb hs c.machine
          cases hk : Artifact.keep config p g.slug c.machine tree with
          | mk left fault? =>
              rw [hk] at hk' hleft
              simp only [Request.compileGroups, Request.settle, same, hr, hk, hk', if_true]
              cases fault? with
              | none => exact ⟨congrArg (· ++ []) logs, hleft, rfl⟩
              | some f => exact ⟨logs, hleft, rfl⟩
  · simp only [Request.compileGroups, Request.settle, hf, hf']
    exact ⟨logs, h.alike, rfl⟩

end Compile

end StopBoth

section Groups

variable {config : Config} {units : List UnitName} {F : Location} {tree tree' : FileTree}
  {p : Project} {g : ScriptGroup} {loc : Location} {rest groups : List ScriptGroup} {kept : Bool}
  {content : Content}

/-- A file that is as it was after all groups was so after the first one. -/
theorem Request.lookup_of_finished (hc : config.generatedDir = "generated")
    (hd : tree.FolderAt p.dir loc) (hb : Path.IsBase p.dir) (hw : Manifest.WellNamed (g :: rest))
    (hF : tree.lookup F = some (.file content))
    (hf : (compileGroups config p kept tree [g]).failure? = none)
    (hk : (compileGroups config p kept tree (g :: rest)).tree.lookup F = tree.lookup F) :
    (compileGroups config p kept tree [g]).tree.lookup F = tree.lookup F := by
  cases kept with
  | false => rw [tree_compileGroups_checked]
  | true =>
      have one := (one_compileGroups hc hd hb hw.head true).changes
      by_contra hne
      -- it is the artifact of the group, which none of the groups behind it writes
      have artifact : F = artifactAt loc g.slug := by
        by_contra hother
        obtain ⟨-, hnone, -⟩ | ⟨slug, -, e⟩ := (writesReported_one hc hd hb hw.head).changed F hne
        · cases hnone.symm.trans hF
        · refine hne (one.others F ?_)
          rintro (hfolder | hfile)
          · exact Artifact.artifactAt_ne loc slug (e.symm.trans hfolder)
          · exact hother hfile
      have later := (changes_compileGroups hc (hd.mono one.folders) hb hw.tail).others F
      rw [compileGroups_cons_of_finished hf] at hk
      refine hne ((later ?_).symm.trans hk)
      rintro ⟨g', hg', hq⟩
      rw [artifact] at hq
      exact not_kept_artifactAt loc (hw.ne_of_mem hg').symm hq

theorem StopBoth.compileGroups (h : StopBoth config.scriptOptions units F tree tree')
    (hc : config.generatedDir = "generated") (hd : tree.FolderAt p.dir loc)
    (hb : Path.IsBase p.dir) (hw : Manifest.WellNamed groups)
    (hu : ∀ g ∈ groups, ∀ file ∈ g.sourceFiles, ⟨p.slug, g.slug, file⟩ ∈ units)
    (hk : (Request.compileGroups config p kept tree groups).tree.lookup F = tree.lookup F)
    (hk' : (Request.compileGroups config p kept tree' groups).tree.lookup F = tree'.lookup F) :
    GroupsRun.Alike F (Request.compileGroups config p kept tree groups)
      (Request.compileGroups config p kept tree' groups) := by
  induction groups generalizing tree tree' with
  | nil => exact ⟨rfl, h.alike, rfl⟩
  | cons g rest ih =>
      obtain ⟨hg, hrest⟩ := List.forall_mem_cons.mp hu
      have one := h.compileGroups_one hc hd hb hw.head hg kept
      cases hf : (Request.compileGroups config p kept tree [g]).failure? with
      | some f =>
          have failed := one.failed
          rw [hf] at failed
          obtain ⟨f', hf'⟩ := Option.isSome_iff_exists.mp failed
          rwa [Request.compileGroups_cons_of_failed hf, Request.compileGroups_cons_of_failed hf']
      | none =>
          have hf' : (Request.compileGroups config p kept tree' [g]).failure? = none := by
            have failed := one.failed
            rw [hf] at failed
            exact Option.not_isSome_iff_eq_none.mp (Bool.eq_false_iff.mp failed)
          obtain ⟨content, hF⟩ := h.alike.file
          obtain ⟨content', hF'⟩ := h.alike.file'
          have hd' := hd.mono h.alike.changes.folders
          have hone := Request.lookup_of_finished hc hd hb hw hF hf hk
          have hone' := Request.lookup_of_finished hc hd' hb hw hF' hf' hk'
          -- so the file stops units as it did before the group
          have next : StopBoth config.scriptOptions units F
              (Request.compileGroups config p kept tree [g]).tree
              (Request.compileGroups config p kept tree' [g]).tree :=
            ⟨one.trees, fun c hc => h.stops c (hone ▸ hc), fun c hc => h.stops' c (hone' ▸ hc)⟩
          have changes := (Request.one_compileGroups hc hd hb hw.head kept).changes
          rw [Request.compileGroups_cons_of_finished hf] at hk ⊢
          rw [Request.compileGroups_cons_of_finished hf'] at hk' ⊢
          have later := ih next (hd.mono changes.folders) hw.tail hrest (hk.trans hone.symm)
            (hk'.trans hone'.symm)
          refine ⟨?_, later.trees, later.failed⟩
          simp only [GroupsRun.followedBy, one.logs, later.logs]

end Groups

/-! ### Stopping in a file -/

/-- The file in which running the files of a group ends, and the failure. -/
def GroupRun.stop? (options : ScriptOptions) (tree : FileTree) (p : Project) (group : String) :
    List String → Option (Location × Failure)
  | [] => none
  | file :: rest =>
    let path := Path.join p.dir file
    match (SourceUnit.run options tree ⟨p.slug, group, file⟩ path).2 with
    | .ok _ => stop? options tree p group rest
    | .error f => (tree.locate path).toOption.map (·, f)

/-- The file in which compiling groups one after the other ends, and the failure. -/
def Request.stop? (config : Config) (p : Project) (kept : Bool) (tree : FileTree) :
    List ScriptGroup → Option (Location × Failure)
  | [] => none
  | g :: rest =>
    let first := compileGroups config p kept tree [g]
    (GroupRun.stop? config.scriptOptions tree p g.slug g.sourceFiles).or
      (if first.failure?.isNone then stop? config p kept first.tree rest else none)

namespace GroupRun

variable {options : ScriptOptions} {tree : FileTree} {p : Project} {group : String}
  {F : Location} {f : Failure} {sources : List String}

/-- The unit that fails has its source there. -/
theorem exists_unit_of_stop? (h : stop? options tree p group sources = some (F, f)) :
    ∃ file ∈ sources, tree.locate (Path.join p.dir file) = .ok F ∧
      (SourceUnit.run options tree ⟨p.slug, group, file⟩ (Path.join p.dir file)).2 = .error f := by
  induction sources with
  | nil => cases h
  | cons file rest ih =>
      unfold stop? at h
      dsimp only at h
      split at h
      · obtain ⟨file', hfile, located, fails⟩ := ih h
        exact ⟨file', List.mem_cons_of_mem _ hfile, located, fails⟩
      · rename_i fails
        cases hp : tree.locate (Path.join p.dir file) with
        | error fault =>
            rw [hp] at h
            cases h
        | ok loc =>
            rw [hp] at h
            cases h
            exact ⟨file, List.mem_cons_self, hp, fails⟩

theorem result_of_stop? (h : stop? options tree p group sources = some (F, f)) :
    (files options tree p group sources).result = .error f := by
  induction sources with
  | nil => cases h
  | cons file rest ih =>
      unfold stop? at h
      unfold files
      dsimp only at h ⊢
      generalize SourceUnit.run options tree ⟨p.slug, group, file⟩ (Path.join p.dir file) = ran
        at h ⊢
      obtain ⟨events, f' | run⟩ := ran
      · cases hp : tree.locate (Path.join p.dir file) with
        | error fault =>
            rw [hp] at h
            cases h
        | ok loc =>
            rw [hp] at h
            cases h
            rfl
      · dsimp only at h ⊢
        rw [ih h]
        rfl

end GroupRun

namespace Request

variable {config : Config} {p : Project} {kept : Bool} {F : Location} {f : Failure}
  {tree : FileTree} {g : ScriptGroup} {rest groups : List ScriptGroup}

/-- The first group ends in the file, or it is finished and one behind it does. -/
theorem stop?_cons (h : stop? config p kept tree (g :: rest) = some (F, f)) :
    GroupRun.stop? config.scriptOptions tree p g.slug g.sourceFiles = some (F, f) ∨
      (compileGroups config p kept tree [g]).failure? = none ∧
        stop? config p kept (compileGroups config p kept tree [g]).tree rest = some (F, f) := by
  rw [stop?] at h
  obtain here | ⟨-, later⟩ := Option.or_eq_some_iff.mp h
  · exact .inl here
  · split at later
    · rename_i finished
      exact .inr ⟨Option.isNone_iff_eq_none.mp finished, later⟩
    · cases later

theorem failure?_of_stop? (h : stop? config p kept tree groups = some (F, f)) :
    (compileGroups config p kept tree groups).failure? = some f ∧ f.kind = .internal := by
  induction groups generalizing tree with
  | nil => cases h
  | cons g rest ih =>
      obtain here | ⟨finished, later⟩ := stop?_cons h
      · have result := GroupRun.result_of_stop? here
        have kinds : ∀ x ∈ SourceUnit.failures, x.1 = .internal := by decide
        refine ⟨?_, kinds _ (GroupRun.files_failure_in result)⟩
        simp only [compileGroups, GroupRun.run, result, settle]
      · rw [compileGroups_cons_of_finished finished]
        exact ih later

/-- The file stops every unit, if it was not written on the way. -/
theorem stops_of_stop? {loc : Location} {units : List UnitName} {content : Content}
    (h : stop? config p kept tree groups = some (F, f)) (hc : config.generatedDir = "generated")
    (hd : tree.FolderAt p.dir loc) (hb : Path.IsBase p.dir) (hw : Manifest.WellNamed groups)
    (hu : ∀ g ∈ groups, ∀ file ∈ g.sourceFiles, ⟨p.slug, g.slug, file⟩ ∈ units)
    (hF : tree.lookup F = some (.file content))
    (hs : content.SameForAll config.scriptOptions units)
    (hk : (compileGroups config p kept tree groups).tree.lookup F = tree.lookup F) :
    content.Stops config.scriptOptions units := by
  induction groups generalizing tree with
  | nil => cases h
  | cons g rest ih =>
      obtain here | ⟨finished, later⟩ := stop?_cons h
      · obtain ⟨file, hfile, located, fails⟩ := GroupRun.exists_unit_of_stop? here
        rw [SourceUnit.run_of_locate located hF] at fails
        exact hs.stops (hu g List.mem_cons_self file hfile) fails
      · have hone := lookup_of_finished hc hd hb hw hF finished hk
        have changes := (one_compileGroups hc hd hb hw.head kept).changes
        rw [compileGroups_cons_of_finished finished] at hk
        exact ih later (hd.mono changes.folders) hw.tail (List.forall_mem_cons.mp hu).2
          (hone.trans hF) (hk.trans hone.symm)

end Request

/-! ### Requests -/

/-- The units of a project. -/
def Project.units (p : Project) : List UnitName :=
  p.groups.flatMap fun g => g.sourceFiles.map fun file => ⟨p.slug, g.slug, file⟩

theorem Project.mem_units {p : Project} {g : ScriptGroup} {file : String} (hg : g ∈ p.groups)
    (hf : file ∈ g.sourceFiles) : ⟨p.slug, g.slug, file⟩ ∈ p.units :=
  List.mem_flatMap.mpr ⟨g, hg, List.mem_map_of_mem hf⟩

namespace Request

/-- The file in which the run of a request ends, and the failure. -/
def abort? (r : Request) (config : Config) (tree : FileTree) : Option (Location × Failure) :=
  match (Project.load config tree r.project).2 with
  | .error _ => none
  | .ok p =>
    match p.asked r with
    | .error _ => none
    | .ok groups => stop? config p (r.mode == .persist) tree groups

/-- The run of a request ends in the file at a location, with a failure of that code. -/
def AbortsIn (r : Request) (config : Config) (tree : FileTree) (F : Location) (code : String) :
    Prop :=
  (r.abort? config tree).map (fun stop => (stop.1, stop.2.code)) = some (F, code)

instance (r : Request) (config : Config) (tree : FileTree) (F : Location) (code : String) :
    Decidable (r.AbortsIn config tree F code) :=
  inferInstanceAs (Decidable (_ = _))

theorem AbortsIn.exists_stop? {r : Request} {config : Config} {tree : FileTree} {F : Location}
    {code : String} (h : r.AbortsIn config tree F code) :
    ∃ p groups f, (Project.load config tree r.project).2 = .ok p ∧ p.asked r = .ok groups ∧
      stop? config p (r.mode == .persist) tree groups = some (F, f) ∧ f.code = code := by
  obtain ⟨⟨_, f⟩, hstop, e⟩ := Option.map_eq_some_iff.mp h
  cases e
  unfold abort? at hstop
  split at hstop
  · cases hstop
  · rename_i p hl
    split at hstop
    · cases hstop
    · rename_i groups hg
      exact ⟨p, groups, f, hl, hg, hstop, rfl⟩

/-- The units of the project that a request names. -/
def units (r : Request) (config : Config) (tree : FileTree) : List UnitName :=
  match (Project.load config tree r.project).2 with
  | .error _ => []
  | .ok p => p.units

/-- Where its groups fail, a request answers what they come to. -/
theorem run_of_failed {r : Request} {config : Config} {tree : FileTree} {p : Project}
    {groups : List ScriptGroup} {f : Failure} {came : GroupsRun}
    (hl : (Project.load config tree r.project).2 = .ok p) (hg : p.asked r = .ok groups)
    (hcame : compileGroups config p (r.mode == .persist) tree groups = came)
    (hf : came.failure? = some f) :
    (r.run config tree).tree = came.tree ∧
      (r.run config tree).result = .error ⟨f, came.logs, came.groups⟩ := by
  obtain ⟨htree, hresult⟩ := run_of_load_ok hl
  rw [htree, hresult]
  by_cases hm : r.mode = .preview
  · obtain ⟨g, hchosen, rfl⟩ := Project.asked_of_preview hm hg
    subst hcame
    rw [hm] at hf ⊢
    simp only [compileProject, hm, previewGroup, hchosen]
    cases hr : (GroupRun.run config.scriptOptions tree p g).result with
    | error f' =>
        simp only [compileGroups, hr, settle] at hf
        cases hf
        simp only [compileGroups, settle, showing, hr, and_self]
    | ok c? => cases c? <;> simp [compileGroups, settle, hr] at hf
  · rw [Project.asked_of_ne_preview hm] at hg
    simp only [compileProject_of_ne_preview hm, compileAll, hg, hcame, answerOf, hf, and_self]

end Request

/-! ### Commands -/

namespace Command

theorem generatedDir_of_build {mode : Mode} {before after : Options} {c : Command}
    (h : build mode before after = .ok c) : c.config.generatedDir = "generated" := by
  obtain ⟨_, -, h⟩ := bind_eq_ok_iff.mp h
  obtain ⟨_, -, h⟩ := bind_eq_ok_iff.mp h
  split at h
  · cases h
  · cases h
    rfl

/-- No argument says where artifacts lie. -/
theorem generatedDir_of_parse {args : List String} {c : Command} (h : parse args = .ok c) :
    c.config.generatedDir = "generated" := by
  obtain ⟨⟨before, rest⟩, -, h⟩ := bind_eq_ok_iff.mp h
  dsimp only at h
  split at h
  · cases h
  · split at h
    · cases h
    · obtain ⟨⟨after, rest⟩, -, h⟩ := bind_eq_ok_iff.mp h
      dsimp only at h
      split at h
      · exact generatedDir_of_build h
      · exact generatedDir_of_build h
      · cases h

/-- Of an internal failure the lines tell the code alone. -/
theorem lines_of_internal {f f' : Failure} (hf : f.kind = .internal) (hf' : f'.kind = .internal)
    (hcode : f'.code = f.code) (logs : List String) (groups groups' : List GroupReport) :
    lines (.error ⟨f', logs, groups'⟩) = lines (.error ⟨f, logs, groups⟩) := by
  simp only [lines, failureLines, Failure.detail, hf, hf', hcode]

/-- **What a fault tells is its code.**  Runs that stop in the file in which their trees differ, with
the same code, print the same and exit the same, and leave everything else the same. -/
theorem output_of_aborted {args : List String} {c : Command} (hc : parse args = .ok c)
    {F : Location} {tree tree' : FileTree} (h : FileTree.AlikeBut F tree tree')
    (hmanifest : ∀ loc, tree.FolderAt (c.config.projectDir c.request.project) loc →
      F ≠ loc ++ [Project.manifestFile])
    {code : String} (haborts : c.request.AbortsIn c.config tree F code)
    (haborts' : c.request.AbortsIn c.config tree' F code)
    (hsame : ∀ content, tree.lookup F = some (.file content) ∨
      tree'.lookup F = some (.file content) →
        content.SameForAll c.config.scriptOptions (c.request.units c.config tree))
    (hkept : (c.run tree).tree.lookup F = tree.lookup F)
    (hkept' : (c.run tree').tree.lookup F = tree'.lookup F) :
    output (c.run tree') = output (c.run tree) ∧
      exitCode (c.run tree').result = exitCode (c.run tree).result ∧
      ∀ q, q ≠ F → (c.run tree').tree.lookup q = (c.run tree).tree.lookup q := by
  obtain ⟨p, groups, f, hl, hg, hstop, rfl⟩ := haborts.exists_stop?
  obtain ⟨p', groups', f', hl', hg', hstop', hcode⟩ := haborts'.exists_stop?
  have hgenerated := generatedDir_of_parse hc
  have hp := Project.loaded_of_load hl
  obtain ⟨loc, hd⟩ := hp.folderAt
  have hd' := hd.mono h.changes.folders
  -- both load the same project and run the same groups
  have hload := Project.load_congr (hp.dir ▸ hd) h.changes (hmanifest loc (hp.dir ▸ hd)).symm
  rw [hload, hl] at hl'
  cases hl'
  rw [hg] at hg'
  cases hg'
  obtain ⟨hsubset, hw⟩ := Project.asked_eq_ok hg
  have hw := hw hp.groups
  have hunits : c.request.units c.config tree = p.units := by simp only [Request.units, hl]
  have hu : ∀ g ∈ groups, ∀ file ∈ g.sourceFiles, ⟨p.slug, g.slug, file⟩ ∈ p.units :=
    fun g hmem file => Project.mem_units (hsubset hmem)
  rw [hunits] at hsame
  obtain ⟨hfailed, hkind⟩ := Request.failure?_of_stop? hstop
  obtain ⟨hfailed', hkind'⟩ := Request.failure?_of_stop? hstop'
  obtain ⟨htree, hresult⟩ := Request.run_of_failed hl hg rfl hfailed
  obtain ⟨htree', hresult'⟩ := Request.run_of_failed (hload ▸ hl) hg rfl hfailed'
  simp only [run, htree, htree', hresult, hresult'] at hkept hkept' ⊢
  have hboth : StopBoth c.config.scriptOptions p.units F tree tree' :=
    { alike := h
      stops := fun content hF => Request.stops_of_stop? hstop hgenerated hd hp.isBase hw hu hF
        (hsame content (.inl hF)) hkept
      stops' := fun content hF => Request.stops_of_stop? hstop' hgenerated hd' hp.isBase hw hu hF
        (hsame content (.inr hF)) hkept' }
  obtain ⟨logs, trees, -⟩ := hboth.compileGroups hgenerated hd hp.isBase hw hu hkept hkept'
  refine ⟨?_, rfl, trees.others⟩
  simp only [output, hresult, hresult', logs]
  rw [lines_of_internal hkind hkind' hcode]

end Command

/-! ### Scripts that stop a run -/

theorem ne_manifestFile {F loc : Location} (h : F.getLast? ≠ some Project.manifestFile) :
    F ≠ loc ++ [Project.manifestFile] := by
  rintro rfl
  exact h List.getLast?_concat

/-- A project of two groups, the second of which has this script. -/
def secondScript (source : String) : FileTree :=
  (pairProject "b.rhai").put ["projects", "demo", "b.rhai"] (.file (.text source))

/-- What is recorded before the fault is dropped, and what is thrown is not told. -/
theorem output_of_aborted_secondScript :
    let F := ["projects", "demo", "b.rhai"]
    let tree := secondScript "say(\"a\"); throw \"a\";"
    let tree' := secondScript "throw \"b\";"
    ∃ c, Command.parse ["compile", "--project", "demo"] = .ok c ∧
      c.request.AbortsIn c.config tree F "SANDBOX_EVAL_ERROR" ∧
      c.request.AbortsIn c.config tree' F "SANDBOX_EVAL_ERROR" ∧
      Command.output (c.run tree') = Command.output (c.run tree) := by
  intro F tree tree'
  let c : Command := { request := ⟨"demo", .persist, none⟩, config := {} }
  have parse : Command.parse ["compile", "--project", "demo"] = .ok c := by
    with_unfolding_all rfl
  have ran : c.request.AbortsIn c.config tree F "SANDBOX_EVAL_ERROR" ∧
      (c.run tree).tree.lookup F = tree.lookup F ∧
      (Content.text "say(\"a\"); throw \"a\";").SameForAll c.config.scriptOptions
        (c.request.units c.config tree) ∧
      (Content.text "throw \"b\";").SameForAll c.config.scriptOptions
        (c.request.units c.config tree) := by
    decide +kernel
  have ran' : c.request.AbortsIn c.config tree' F "SANDBOX_EVAL_ERROR" ∧
      (c.run tree').tree.lookup F = tree'.lookup F := by decide +kernel
  have same : ∀ content, tree.lookup F = some (.file content) ∨
      tree'.lookup F = some (.file content) →
        content.SameForAll c.config.scriptOptions (c.request.units c.config tree) := by
    rintro content (h | h)
    · exact FileTree.eq_of_lookup_put (by decide) h ▸ ran.2.2.1
    · exact FileTree.eq_of_lookup_put (by decide) h ▸ ran.2.2.2
  have alike : FileTree.AlikeBut F tree tree' := FileTree.alikeBut_put _ (by decide) _ _
  exact ⟨c, parse, ran.1, ran'.1, (Command.output_of_aborted parse alike
    (fun _ _ => ne_manifestFile (by decide)) ran.1 ran'.1 same ran.2.1 ran'.2).1⟩

/-- A project of two groups that both have the artifact of the first one as their source. -/
def ownArtifact (source : String) : FileTree :=
  FileTree.put
    ⟨[(["projects"], .folder), (["projects", "demo"], .folder),
      (["projects", "demo", "generated"], .folder),
      (["projects", "demo", "manifest.json"], .file (.text
        "\x7b\"slug\":\"demo\",\"name\":\"\",\"script_groups\":[
          [\"one\",\"\",[\"generated/one.json\"]],[\"two\",\"\",[\"generated/one.json\"]]]\x7d"))]⟩
    ["projects", "demo", "generated", "one.json"] (.file (.text source))

/-- One of the runs compiles the script first, and stops in the artifact that it has put in its
place; the other one stops in the script. -/
theorem output_of_overwritten :
    let F := ["projects", "demo", "generated", "one.json"]
    let tree := ownArtifact "label(\"a\");"
    let tree' := ownArtifact "("
    ∃ c, Command.parse ["compile", "--project", "demo"] = .ok c ∧
      FileTree.AlikeBut F tree tree' ∧
      (∀ loc, tree.FolderAt (c.config.projectDir c.request.project) loc →
        F ≠ loc ++ [Project.manifestFile]) ∧
      c.request.AbortsIn c.config tree F "SANDBOX_PARSE_ERROR" ∧
      c.request.AbortsIn c.config tree' F "SANDBOX_PARSE_ERROR" ∧
      (∀ content, tree.lookup F = some (.file content) ∨ tree'.lookup F = some (.file content) →
        content.SameForAll c.config.scriptOptions (c.request.units c.config tree)) ∧
      Command.output (c.run tree') ≠ Command.output (c.run tree) := by
  intro F tree tree'
  let c : Command := { request := ⟨"demo", .persist, none⟩, config := {} }
  have parse : Command.parse ["compile", "--project", "demo"] = .ok c := by
    with_unfolding_all rfl
  have ran : c.request.AbortsIn c.config tree F "SANDBOX_PARSE_ERROR" ∧
      c.request.AbortsIn c.config tree' F "SANDBOX_PARSE_ERROR" ∧
      (Content.text "label(\"a\");").SameForAll c.config.scriptOptions
        (c.request.units c.config tree) ∧
      (Content.text "(").SameForAll c.config.scriptOptions (c.request.units c.config tree) ∧
      Command.output (c.run tree') ≠ Command.output (c.run tree) := by
    decide +kernel
  have same : ∀ content, tree.lookup F = some (.file content) ∨
      tree'.lookup F = some (.file content) →
        content.SameForAll c.config.scriptOptions (c.request.units c.config tree) := by
    rintro content (h | h)
    · exact FileTree.eq_of_lookup_put (by decide) h ▸ ran.2.2.1
    · exact FileTree.eq_of_lookup_put (by decide) h ▸ ran.2.2.2.1
  exact ⟨c, parse, FileTree.alikeBut_put _ (by decide) _ _, fun _ _ => ne_manifestFile (by decide),
    ran.1, ran.2.1, same, ran.2.2.2.2⟩

end Dialogue
