import Dialogue.Proofs.Loading
import Dialogue.Request

/-!
# What compiling changes

Compiling a group may make the folder of artifacts and may write the group's own artifact, and
changes nothing else, also where it fails (`settle_changes`).  The locations are told from the
one that the project's folder is at (`Kept`).
-/

namespace Dialogue

open FileTree (ChangesOnly)

/-- Where the artifact of a group lies in the folder of its project. -/
def artifactAt (loc : Location) (group : String) : Location :=
  loc ++ ["generated", group ++ ".json"]

/-- The locations that compiling a group may change. -/
def Kept (loc : Location) (group : String) (q : Location) : Prop :=
  q = loc ++ ["generated"] ∨ q = artifactAt loc group

theorem not_kept_manifest (loc : Location) (group : String) :
    ¬ Kept loc group (loc ++ [Project.manifestFile]) := by
  rintro (h | h)
  · have := List.append_cancel_left h
    exact absurd this (by decide)
  · have := congrArg List.length (List.append_cancel_left h)
    cases this

/-- The artifact of one group is in no other group's way. -/
theorem not_kept_artifactAt (loc : Location) {group other : String} (h : group ≠ other) :
    ¬ Kept loc group (artifactAt loc other) := by
  rintro (he | he)
  · have := congrArg List.length (List.append_cancel_left he)
    cases this
  · have hs : other ++ ".json" = group ++ ".json" := by
      simpa using List.append_cancel_left he
    exact h (eq_of_artifact_name hs).symm

section Group

variable {config : Config} {p : Project} {tree : FileTree} {loc : Location} {group : String}

/-- Keeping an artifact makes the folder of artifacts, unless it is there, and puts the artifact
in it, unless one of them fails. -/
theorem Artifact.tree_keep (hc : config.generatedDir = "generated")
    (hd : tree.FolderAt p.dir loc) (hb : Path.IsBase p.dir) (hs : isSlug group = true)
    (m : Machine) {made : FileTree}
    (hmade : (tree.makeFolders (Path.join p.dir "generated")).1 = made) :
    (keep config p group m tree).1 = made ∨
      made.lookup (loc ++ ["generated"]) = some .folder ∧
        made.lookup (artifactAt loc group) ≠ some .folder ∧
        (keep config p group m tree).1 =
          made.put (artifactAt loc group) (.file (.text m.artifact)) := by
  have hdir : config.artifactDir p.dir = Path.join p.dir "generated" := by
    rw [Config.artifactDir, hc]
  have hfolders := (hd.makeFolders hb isName_generated).folders
  rw [← hdir] at hmade hfolders
  unfold keep
  dsimp only
  cases hm : tree.makeFolders (config.artifactDir p.dir) with
  | mk t fault? =>
      rw [hm] at hmade hfolders
      cases hmade
      cases fault? with
      | some fault => exact .inl rfl
      | none =>
          dsimp only
          cases hw : t.write (config.artifactPath p.dir group) (.text m.artifact) with
          | error fault => exact .inl rfl
          | ok written =>
              -- the folder is there, so what is written is written in it
              obtain ⟨-, -, found, hwalk, hfree, rfl⟩ := FileTree.write_eq_ok hw
              rw [Config.artifactPath, hdir] at hwalk
              obtain ⟨hfolder, rfl⟩ := (hd.mono hfolders).walk_join_join hb isName_generated
                (isName_artifact hs) hwalk
              exact .inr ⟨hfolder, hfree, rfl⟩

theorem Artifact.keep_changes (hc : config.generatedDir = "generated")
    (hd : tree.FolderAt p.dir loc) (hb : Path.IsBase p.dir) (hs : isSlug group = true)
    (m : Machine) : ChangesOnly (Kept loc group) tree (Artifact.keep config p group m tree).1 := by
  have hmade := (hd.makeFolders hb isName_generated).mono (Q := Kept loc group) fun q => .inl
  obtain he | ⟨-, hfree, he⟩ := tree_keep hc hd hb hs m rfl <;> rw [he]
  · exact hmade
  · exact hmade.trans ((ChangesOnly.put hfree _).mono fun q => .inr)

/-- **Compiling a group changes its artifact and the folder of artifacts, at most.** -/
theorem Request.settle_changes (hc : config.generatedDir = "generated")
    (hd : tree.FolderAt p.dir loc) (hb : Path.IsBase p.dir) (hs : isSlug group = true)
    (kept : Bool) (result : Except Failure (Option Compilation)) :
    ChangesOnly (Kept loc group) tree (settle config p kept tree group result).1 := by
  cases result with
  | error f => exact .refl _ _
  | ok c? =>
      cases c? with
      | none => exact .refl _ _
      | some c =>
          have hkept := Artifact.keep_changes hc hd hb hs c.machine
          unfold settle
          dsimp only
          cases kept with
          | false => exact .refl _ _
          | true =>
              rw [if_pos rfl]
              split
              · rename_i hk
                rw [hk] at hkept
                exact hkept
              · rename_i hk
                rw [hk] at hkept
                exact hkept

end Group

end Dialogue
