import Dialogue.Proofs.Folders
import Dialogue.Proofs.Footprint

/-!
# What keeping an artifact comes to

Making a folder and writing a file hang on the path and on the entry at its end
(`FileTree.FolderAt.makeFolders_eq`, `FileTree.FolderAt.write_eq`).  So doing it once more, where
that entry is as the first time left it, has the same fault or none and changes nothing.  Keeping
an artifact is the one and then the other (`Artifact.Keeping`): once more it comes to the same,
wherever the folder of artifacts and the artifact are as they were left (`Artifact.keep_again`).
-/

namespace Dialogue

namespace FileTree

open Dialogue.Path (IsBase IsName)

section Names

variable {t : FileTree} {dir name : String} {loc : Location}

theorem FolderAt.makeFolder_eq (h : t.FolderAt dir loc) (hb : IsBase dir) (hn : IsName name)
    (hlen : ¬ longestName < name.utf8ByteSize) :
    t.makeFolder false (Path.steps (Path.join dir name)) =
      match t.lookup (loc ++ [name]) with
      | none => (t.put (loc ++ [name]) .folder, none)
      | some .folder => (t, none)
      | some (.file _) => (t, some .exists) := by
  have hlast : (Path.steps (Path.join dir name)).getLast? = some (.down name) := by
    rw [Path.steps_join hb hn, List.getLast?_append]
    rfl
  have hwalk : t.walk [] (Path.steps (Path.join dir name)) = .ok (loc ++ [name]) := by
    rw [h.walk_join hb hn]
    simp only [FileTree.walk, if_neg hlen, if_pos]
  simp only [FileTree.makeFolder, vacancy, leadsToFolder, hwalk, hlast, bind, Except.bind]
  rcases hl : t.lookup (loc ++ [name]) with _ | _ | _ <;>
    simp [pure, Except.pure, throw, throwThe, MonadExceptOf.throw]

/-- Making a folder at a name in a folder, by what is there. -/
theorem FolderAt.makeFolders_eq (h : t.FolderAt dir loc) (hb : IsBase dir) (hn : IsName name)
    (hlen : ¬ longestName < name.utf8ByteSize) :
    t.makeFolders (Path.join dir name) =
      match checkPath (Path.join dir name), t.lookup (loc ++ [name]) with
      | .error fault, _ => (t, some fault)
      | .ok _, none => (t.put (loc ++ [name]) .folder, none)
      | .ok _, some .folder => (t, none)
      | .ok _, some (.file _) => (t, some .exists) := by
  unfold FileTree.makeFolders
  cases hv : checkPath (Path.join dir name) with
  | error fault =>
      cases fault with
      | notFound => exact absurd hv (checkPath_ne_notFound (hb.join_ne_nil name))
      | _ => rfl
  | ok u =>
      have hsteps : Path.steps (Path.join dir name) ≠ [] := by simp [Path.steps_join hb hn]
      dsimp only
      rw [Path.endsInDot_join hb hn, makeFoldersAlong, dif_neg hsteps, h.makeFolder_eq hb hn hlen]
      rcases t.lookup (loc ++ [name]) with _ | _ | _ <;> rfl

/-- Writing a file at a name in a folder, by what is there. -/
theorem FolderAt.write_eq (h : t.FolderAt dir loc) (hb : IsBase dir) (hn : IsName name)
    (content : Content) :
    t.write (Path.join dir name) content =
      match checkPath (Path.join dir name) with
      | .error fault => .error fault
      | .ok _ =>
        if longestName < name.utf8ByteSize then .error .nameTooLong
        else if t.lookup (loc ++ [name]) = some .folder then .error .isFolder
        else .ok (t.put (loc ++ [name]) (.file content)) := by
  unfold write vacancyForFile
  cases hv : checkPath (Path.join dir name) with
  | error fault => rfl
  | ok u =>
      have hslash : (Path.join dir name).endsWith "/" = false :=
        Bool.eq_false_iff.mpr fun he =>
          (Path.isBase_join dir hn).open_ ((Path.endsWith_slash_iff _).mp he)
      rw [h.walk_join hb hn, Path.endsInDot_join hb hn, hslash]
      by_cases hlen : longestName < name.utf8ByteSize
      · simp [FileTree.walk, hlen, bind, Except.bind]
      · simp only [FileTree.walk, if_neg hlen, if_pos]
        rcases hl : t.lookup (loc ++ [name]) with _ | _ | _ <;>
          simp [bind, Except.bind, pure, Except.pure, throw, throwThe, MonadExceptOf.throw, hl]

/-- A folder that is made is there. -/
theorem FolderAt.of_makeFolders {made : FileTree} (h : t.FolderAt dir loc) (hb : IsBase dir)
    (hn : IsName name) (hlen : ¬ longestName < name.utf8ByteSize)
    (hm : t.makeFolders (Path.join dir name) = (made, none)) :
    made.FolderAt (Path.join dir name) (loc ++ [name]) := by
  have hmade := (h.makeFolders hb hn).folders
  rw [hm] at hmade
  have hwalk : made.walk [] (Path.steps (Path.join dir name)) = .ok (loc ++ [name]) := by
    rw [(h.mono hmade).walk_join hb hn]
    simp only [FileTree.walk, if_neg hlen, if_pos]
  rw [h.makeFolders_eq hb hn hlen] at hm
  split at hm <;> cases hm
  · rename_i hv hnone
    exact ⟨hv, hwalk, lookup_put_free _ (by simp [hnone])⟩
  · rename_i hv hfolder
    exact ⟨hv, hwalk, hfolder⟩

/-- What is written is put at the name. -/
theorem FolderAt.eq_put_of_write {content : Content} {left : FileTree} (h : t.FolderAt dir loc)
    (hb : IsBase dir) (hn : IsName name)
    (hw : t.write (Path.join dir name) content = .ok left) :
    t.lookup (loc ++ [name]) ≠ some .folder ∧ left = t.put (loc ++ [name]) (.file content) := by
  obtain ⟨-, -, found, hwalk, hfree, rfl⟩ := write_eq_ok hw
  rw [h.walk_join hb hn] at hwalk
  obtain rfl := eq_of_walk_name hwalk
  exact ⟨hfree, rfl⟩

/-! ### Once more -/

variable {s t' : FileTree}

/-- Where a folder was made, or was not to be made, nothing is made the next time. -/
theorem FolderAt.makeFolders_again {fault? : Option FileFault} (h : t.FolderAt dir loc)
    (h' : s.FolderAt dir loc) (hb : IsBase dir) (hn : IsName name)
    (hlen : ¬ longestName < name.utf8ByteSize)
    (hm : t.makeFolders (Path.join dir name) = (t', fault?))
    (hl : s.lookup (loc ++ [name]) = t'.lookup (loc ++ [name])) :
    s.makeFolders (Path.join dir name) = (s, fault?) := by
  rw [h.makeFolders_eq hb hn hlen] at hm
  rw [h'.makeFolders_eq hb hn hlen, hl]
  split at hm <;> cases hm
  · rename_i hv
    simp only [hv]
  · rename_i hv hnone
    simp only [hv, lookup_put_free Entry.folder (by simp [hnone] : t.lookup (loc ++ [name]) ≠ some .folder)]
  · rename_i hv hfolder
    simp only [hv, hfolder]
  · rename_i hv hfile
    simp only [hv, hfile]

/-- What could not be written cannot be written the next time. -/
theorem FolderAt.write_again_error {content : Content} {fault : FileFault}
    (h : t.FolderAt dir loc) (h' : s.FolderAt dir loc) (hb : IsBase dir) (hn : IsName name)
    (hw : t.write (Path.join dir name) content = .error fault)
    (hl : s.lookup (loc ++ [name]) = t.lookup (loc ++ [name])) :
    s.write (Path.join dir name) content = .error fault := by
  rw [h.write_eq hb hn] at hw
  rw [h'.write_eq hb hn, hl]
  split at hw
  · exact hw
  · by_cases hlen : longestName < name.utf8ByteSize
    · rwa [if_pos hlen] at hw ⊢
    · by_cases hfolder : t.lookup (loc ++ [name]) = some .folder
      · rwa [if_neg hlen, if_pos hfolder] at hw ⊢
      · rw [if_neg hlen, if_neg hfolder] at hw
        cases hw

/-- What was written can be written the next time, and that changes nothing. -/
theorem FolderAt.write_again_ok {content : Content} (h : t.FolderAt dir loc)
    (h' : s.FolderAt dir loc) (hb : IsBase dir) (hn : IsName name)
    (hw : t.write (Path.join dir name) content = .ok t')
    (hl : s.lookup (loc ++ [name]) = some (.file content)) :
    ∃ s', s.write (Path.join dir name) content = .ok s' ∧ ChangesOnly (fun _ => False) s s' := by
  have hfile : s.lookup (loc ++ [name]) ≠ some .folder := by simp [hl]
  rw [h.write_eq hb hn] at hw
  rw [h'.write_eq hb hn]
  split at hw
  · cases hw
  · split at hw
    · cases hw
    · rename_i hlen
      refine ⟨s.put (loc ++ [name]) (.file content), by simp [hlen, hfile], ?_⟩
      have hput := ChangesOnly.put hfile (.file content)
      refine ⟨hput.folders, fun q _ => ?_⟩
      by_cases hq : q = loc ++ [name]
      · rw [hq, hl, lookup_put_free _ hfile]
      · exact hput.others q hq

end Names

end FileTree

/-! ### Artifacts -/

namespace Artifact

/-- How keeping an artifact goes. -/
inductive Keeping (config : Config) (p : Project) (group : String) (m : Machine)
    (tree : FileTree) : FileTree × Option Failure → Prop
  | noFolder {made : FileTree} {fault : FileFault}
      (folder : tree.makeFolders (config.artifactDir p.dir) = (made, some fault)) :
      Keeping config p group m tree (made, some (unwritable (config.artifactDir p.dir) fault))
  | noFile {made : FileTree} {fault : FileFault}
      (folder : tree.makeFolders (config.artifactDir p.dir) = (made, none))
      (file : made.write (config.artifactPath p.dir group) (.text m.artifact) = .error fault) :
      Keeping config p group m tree
        (made, some (unwritable (config.artifactPath p.dir group) fault))
  | kept {made left : FileTree}
      (folder : tree.makeFolders (config.artifactDir p.dir) = (made, none))
      (file : made.write (config.artifactPath p.dir group) (.text m.artifact) = .ok left) :
      Keeping config p group m tree (left, none)

section Keeping

variable {config : Config} {p : Project} {group : String} {m : Machine} {tree : FileTree}
  {came : FileTree × Option Failure}

theorem keeping_iff : Keeping config p group m tree came ↔ keep config p group m tree = came := by
  constructor
  · intro h
    unfold keep
    dsimp only
    cases h with
    | noFolder folder => simp only [folder]
    | noFile folder file | kept folder file => simp only [folder, file]
  · rintro rfl
    unfold keep
    dsimp only
    cases folder : tree.makeFolders (config.artifactDir p.dir) with
    | mk made fault? =>
        cases fault? with
        | some fault => exact .noFolder folder
        | none =>
            dsimp only
            cases file : made.write (config.artifactPath p.dir group) (.text m.artifact) with
            | error fault => exact .noFile folder file
            | ok left => exact .kept folder file

end Keeping

section Generated

variable {config : Config} {p : Project} {group : String} {m : Machine} {tree left s : FileTree}
  {loc : Location} {fault? : Option Failure}

theorem isName_generatedDir (hc : config.generatedDir = "generated") :
    Path.IsName config.generatedDir := hc ▸ isName_generated

theorem generatedDir_not_long (hc : config.generatedDir = "generated") :
    ¬ FileTree.longestName < config.generatedDir.utf8ByteSize := by
  rw [hc]
  decide

theorem artifactAt_eq (loc : Location) (group : String) :
    artifactAt loc group = loc ++ ["generated"] ++ [group ++ ".json"] := by simp [artifactAt]

theorem artifactAt_ne (loc : Location) (group : String) :
    artifactAt loc group ≠ loc ++ ["generated"] := by
  intro h
  cases List.append_cancel_left h

/-- What is kept is put in the folder for it, which is there then. -/
theorem eq_put_of_keep (hc : config.generatedDir = "generated") (hd : tree.FolderAt p.dir loc)
    (hb : Path.IsBase p.dir) (hs : isSlug group = true)
    (h : keep config p group m tree = (left, none)) :
    ∃ made, tree.makeFolders (config.artifactDir p.dir) = (made, none) ∧
      made.lookup (loc ++ ["generated"]) = some .folder ∧
      made.lookup (artifactAt loc group) ≠ some .folder ∧
      left = made.put (artifactAt loc group) (.file (.text m.artifact)) := by
  have hn := isName_generatedDir hc
  cases keeping_iff.mpr h with
  | @kept made _ folder file =>
      have hmade := hd.of_makeFolders hb hn (generatedDir_not_long hc) folder
      obtain ⟨hfree, rfl⟩ := hmade.eq_put_of_write (Path.isBase_join _ hn) (isName_artifact hs) file
      rw [artifactAt_eq, ← hc]
      exact ⟨made, folder, hmade.folder, hfree, rfl⟩

/-- Where an artifact was kept, the folder for it stays. -/
theorem folder_of_keep (hc : config.generatedDir = "generated") (hd : tree.FolderAt p.dir loc)
    (hb : Path.IsBase p.dir) (hs : isSlug group = true)
    (h : keep config p group m tree = (left, none)) :
    left.lookup (loc ++ ["generated"]) = some .folder := by
  obtain ⟨made, -, hfolder, -, rfl⟩ := eq_put_of_keep hc hd hb hs h
  rw [FileTree.lookup_put_of_ne made _ (artifactAt_ne loc group).symm, hfolder]

/-- **An artifact is kept once more as it was kept**, or fails as it did, and nothing changes. -/
theorem keep_again (hc : config.generatedDir = "generated") (hd : tree.FolderAt p.dir loc)
    (hd' : s.FolderAt p.dir loc) (hb : Path.IsBase p.dir) (hs : isSlug group = true)
    (h : keep config p group m tree = (left, fault?))
    (hfolder : s.lookup (loc ++ ["generated"]) = left.lookup (loc ++ ["generated"]))
    (hfile : s.lookup (artifactAt loc group) = left.lookup (artifactAt loc group)) :
    ∃ s', keep config p group m s = (s', fault?) ∧
      FileTree.ChangesOnly (fun _ => False) s s' := by
  have hn := isName_generatedDir hc
  have hlen := generatedDir_not_long hc
  have hb' : Path.IsBase (config.artifactDir p.dir) := Path.isBase_join _ hn
  rw [artifactAt_eq, ← hc] at hfile
  rw [← hc] at hfolder
  cases keeping_iff.mpr h with
  | noFolder folder =>
      have folder' := hd.makeFolders_again hd' hb hn hlen folder hfolder
      exact ⟨s, keeping_iff.mp (.noFolder folder'), .refl _ _⟩
  | noFile folder file =>
      have folder' := hd.makeFolders_again hd' hb hn hlen folder hfolder
      have file' := (hd.of_makeFolders hb hn hlen folder).write_again_error
        (hd'.of_makeFolders hb hn hlen folder') hb' (isName_artifact hs) file hfile
      exact ⟨s, keeping_iff.mp (.noFile folder' file'), .refl _ _⟩
  | @kept made _ folder file =>
      have hmade := hd.of_makeFolders hb hn hlen folder
      obtain ⟨hfree, rfl⟩ := hmade.eq_put_of_write hb' (isName_artifact hs) file
      have hfolder' : s.lookup (loc ++ [config.generatedDir]) =
          made.lookup (loc ++ [config.generatedDir]) :=
        hfolder.trans (FileTree.lookup_put_of_ne made _ (by simp))
      have folder' := hd.makeFolders_again hd' hb hn hlen folder hfolder'
      rw [FileTree.lookup_put_free _ hfree] at hfile
      obtain ⟨s', file', hsame⟩ := hmade.write_again_ok
        (hd'.of_makeFolders hb hn hlen folder') hb' (isName_artifact hs) file hfile
      exact ⟨s', keeping_iff.mp (.kept folder' file'), hsame⟩

end Generated

end Artifact

end Dialogue
