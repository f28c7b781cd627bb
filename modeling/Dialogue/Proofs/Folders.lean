import Dialogue.Proofs.Ways

/-!
# Making folders

To make a folder with the folders above it is to put folders at some of the locations that its
path leads by, where nothing was (`FileTree.MadeAlong`).  So nothing is taken away
(`FileTree.Extends`), and if there was no fault, the path leads to a folder
(`FileTree.folderAt_of_makeFolders`).
-/

namespace Dialogue

namespace FileTree

section Entries

variable {t t' t'' : FileTree}

/-- Above the working folder there are folders only. -/
theorem isAbove_eq_false {q : Location} (h : t.lookup q ≠ some .folder) : q.isAbove = false := by
  cases ha : q.isAbove with
  | false => rfl
  | true => exact absurd (by simp [lookup, ha]) h

theorem lookup_put_free {q : Location} (entry : Entry) (h : t.lookup q ≠ some .folder) :
    (t.put q entry).lookup q = some entry :=
  lookup_put_self t entry (isAbove_eq_false h)

theorem checkPath_ne_notFound {path : String} (h : path.toList ≠ []) :
    checkPath path ≠ .error .notFound := by
  have he : path.isEmpty = false := by simpa [← String.toList_eq_nil_iff] using h
  unfold checkPath
  rw [he]
  repeat' split
  all_goals simp_all

/-! ### What is there stays -/

/-- What the first tree holds, the second holds. -/
def Extends (t t' : FileTree) : Prop :=
  ∀ loc entry, t.lookup loc = some entry → t'.lookup loc = some entry

theorem Extends.refl (t : FileTree) : Extends t t := fun _ _ h => h

theorem Extends.trans (h : Extends t t') (h' : Extends t' t'') : Extends t t'' :=
  fun loc entry he => h' loc entry (h loc entry he)

theorem Extends.folders (h : Extends t t') : KeepsFolders t t' := fun loc => h loc .folder

end Entries

/-! ### Making folders along a path -/

/-- What making folders along steps comes to: some of the locations on their way, where nothing
was, are folders now. -/
def MadeAlong (steps : List Path.Step) (t t' : FileTree) : Prop :=
  ∀ q, t'.lookup q = t.lookup q ∨
    t.lookup q = none ∧ t'.lookup q = some .folder ∧
      ∃ front name, front ++ [.down name] <+: steps ∧
        q = Location.follow [] (front ++ [.down name])

namespace MadeAlong

variable {t t' t'' : FileTree} {steps more : List Path.Step}

theorem refl (steps : List Path.Step) (t : FileTree) : MadeAlong steps t t := fun _ => .inl rfl

theorem trans (h : MadeAlong steps t t') (h' : MadeAlong steps t' t'') : MadeAlong steps t t'' := by
  intro q
  obtain e | ⟨hnone, hfolder, hq⟩ := h q
  · rw [← e]
    exact h' q
  · obtain e' | ⟨hnone', -⟩ := h' q
    · exact .inr ⟨hnone, e'.trans hfolder, hq⟩
    · rw [hfolder] at hnone'
      cases hnone'

theorem mono (h : MadeAlong steps t t') (hs : steps <+: more) : MadeAlong more t t' := by
  intro q
  obtain e | ⟨hnone, hfolder, front, name, hf, hq⟩ := h q
  · exact .inl e
  · exact .inr ⟨hnone, hfolder, front, name, hf.trans hs, hq⟩

theorem toExtends (h : MadeAlong steps t t') : Extends t t' := by
  intro q entry hq
  obtain e | ⟨hnone, -⟩ := h q
  · rw [e, hq]
  · rw [hq] at hnone
    cases hnone

/-- Below a folder that is there, what is new leads on from it. -/
theorem below {base : String} {loc : Location} {names : List String} (hd : t.FolderAt base loc)
    (h : MadeAlong (Path.steps base ++ names.map .down) t t') (q : Location) :
    t'.lookup q = t.lookup q ∨
      t'.lookup q = some .folder ∧ ∃ front, front <+: names ∧ q = loc ++ front := by
  obtain e | ⟨hnone, hnew, front, name, hf, rfl⟩ := h q
  · exact .inl e
  · obtain hbefore | ⟨downs, hdowns⟩ := List.prefix_or_prefix_of_prefix hf (List.prefix_append _ _)
    · -- the way to the folder leads through folders already
      rw [lookup_front hd.walk hd.folder hbefore] at hnone
      cases hnone
    · rw [← hdowns, List.prefix_append_right_inj] at hf
      obtain ⟨front, hfront, rfl⟩ := List.prefix_map_iff.mp hf
      refine .inr ⟨hnew, front, hfront, ?_⟩
      rw [← hdowns, Location.follow_append, ← eq_follow_of_walk hd.walk, Location.follow_downs]

end MadeAlong

section Making

variable {t t' : FileTree} {endsInDot : Bool} {steps : List Path.Step} {loc : Location}

theorem leadsToFolder_iff : t.leadsToFolder steps = true ↔
    ∃ loc, t.walk [] steps = .ok loc ∧ t.lookup loc = some .folder := by
  unfold leadsToFolder
  cases t.walk [] steps with
  | error fault => simp
  | ok loc => simp

/-- A folder can be made where the steps lead down to nothing. -/
theorem vacancy_eq_ok (h : t.vacancy endsInDot steps = .ok loc) :
    t.walk [] steps = .ok loc ∧ t.lookup loc = none ∧
      ∃ front name, steps = front ++ [.down name] := by
  unfold vacancy at h
  obtain ⟨found, hw, h⟩ := bind_eq_ok_iff.mp h
  split at h <;> cases h
  rename_i name hlast hnone
  obtain ⟨front, e⟩ := List.getLast?_eq_some_iff.mp hlast
  exact ⟨hw, hnone, front, name, e⟩

theorem madeAlong_makeFolder (t : FileTree) (endsInDot : Bool) (steps : List Path.Step) :
    MadeAlong steps t (t.makeFolder endsInDot steps).1 := by
  unfold makeFolder
  split
  · rename_i loc hv
    obtain ⟨hw, hnone, front, name, rfl⟩ := vacancy_eq_ok hv
    intro q
    by_cases e : q = loc
    · subst e
      exact .inr ⟨hnone, lookup_put_free _ (by simp [hnone]), front, name, List.prefix_refl _,
        eq_follow_of_walk hw⟩
    · exact .inl (lookup_put_of_ne t _ e)
  · exact .refl _ _

/-- A folder that is made is where the steps lead. -/
theorem leadsToFolder_of_makeFolder (h : t.makeFolder endsInDot steps = (t', none)) :
    t'.leadsToFolder steps = true := by
  unfold makeFolder at h
  split at h
  · rename_i loc hv
    obtain ⟨hw, hnone, -⟩ := vacancy_eq_ok hv
    have hfree : t.lookup loc ≠ some .folder := by simp [hnone]
    cases h
    exact leadsToFolder_iff.mpr
      ⟨loc, walk_mono (ChangesOnly.put hfree _).folders hw, lookup_put_free _ hfree⟩
  · split at h
    · cases h
      assumption
    · cases h

theorem madeAlong_makeFoldersAlong (t : FileTree) (endsInDot : Bool) (steps : List Path.Step) :
    MadeAlong steps t (t.makeFoldersAlong endsInDot steps).1 := by
  fun_induction makeFoldersAlong t endsInDot steps with
  | case1 => exact .refl _ _
  | case2 t endsInDot steps _ made hmade above habove ih =>
      have first := madeAlong_makeFolder t endsInDot steps
      rw [hmade] at first
      rw [habove] at ih
      exact (first.trans (ih.mono (List.dropLast_prefix steps))).trans
        (madeAlong_makeFolder above endsInDot steps)
  | case3 t endsInDot steps _ made hmade _ ih =>
      have first := madeAlong_makeFolder t endsInDot steps
      rw [hmade] at first
      exact first.trans (ih.mono (List.dropLast_prefix steps))
  | case4 t endsInDot steps => exact madeAlong_makeFolder t endsInDot steps

theorem leadsToFolder_of_makeFoldersAlong {t' : FileTree}
    (h : t.makeFoldersAlong endsInDot steps = (t', none)) : t'.leadsToFolder steps = true := by
  fun_induction makeFoldersAlong t endsInDot steps with
  | case1 => exact leadsToFolder_iff.mpr ⟨[], rfl, rfl⟩
  | case2 => exact leadsToFolder_of_makeFolder h
  | case3 t endsInDot steps _ made _ hfailed => exact absurd h (hfailed t')
  | case4 => exact leadsToFolder_of_makeFolder h

theorem madeAlong_makeFolders (t : FileTree) (path : String) :
    MadeAlong (Path.steps path) t (t.makeFolders path).1 := by
  unfold makeFolders
  split
  · exact .refl _ _
  · exact .refl _ _
  · exact madeAlong_makeFoldersAlong t _ _

/-- Where folders could be made, the path leads to one. -/
theorem folderAt_of_makeFolders {path : String} (hne : path.toList ≠ [])
    (h : t.makeFolders path = (t', none)) :
    t'.FolderAt path (Path.location path) := by
  unfold makeFolders at h
  split at h
  · rename_i hv
    exact absurd hv (checkPath_ne_notFound hne)
  · cases h
  · rename_i hv
    obtain ⟨loc, hw, hl⟩ := leadsToFolder_iff.mp (leadsToFolder_of_makeFoldersAlong h)
    obtain rfl := eq_location_of_walk hw
    exact ⟨hv, hw, hl⟩

theorem extends_makeFolders (t : FileTree) (path : String) : Extends t (t.makeFolders path).1 :=
  (madeAlong_makeFolders t path).toExtends

end Making

end FileTree

end Dialogue
