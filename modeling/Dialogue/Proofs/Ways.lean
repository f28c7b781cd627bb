import Dialogue.Proofs.Walks

/-!
# What lies on the way

A walk looks at nothing but the locations it comes by, and these can be told from the steps alone
(`Location.follow`).  So two trees that are the same there lead along the same way
(`FileTree.walk_congr`).  Whatever is joined to the path of a folder, the walk goes on from that
folder (`FileTree.FolderAt.walk_join_path`), so all that lies before does not matter.
-/

namespace Dialogue

/-! ### Where steps lead -/

namespace Location

theorem follow_append (here : Location) (steps more : List Path.Step) :
    here.follow (steps ++ more) = (here.follow steps).follow more := by
  induction steps generalizing here with
  | nil => rfl
  | cons step rest ih => cases step <;> exact ih _

theorem follow_downs (here : Location) (names : List String) :
    here.follow (names.map .down) = here ++ names := by
  induction names generalizing here with
  | nil => exact (List.append_nil here).symm
  | cons name rest ih =>
      show (here ++ [name]).follow (rest.map .down) = _
      rw [ih, List.append_assoc, List.singleton_append]

/-- Where no step leads up, the names of the steps lead to where they do. -/
theorem follow_names {here : Location} {steps : List Path.Step}
    (h : ∀ s ∈ steps, s = .here ∨ ∃ name, s = .down name) :
    here.follow steps = here ++ steps.filterMap Path.Step.name? := by
  induction steps generalizing here with
  | nil => simp [follow]
  | cons s rest ih =>
      obtain ⟨rfl | ⟨name, rfl⟩, hrest⟩ := List.forall_mem_cons.mp h
      · exact ih hrest
      · show (here ++ [name]).follow rest = _
        rw [ih hrest, List.filterMap_cons_some (by rfl), List.append_assoc, List.singleton_append]

end Location

/-- Where a path leads, whatever is there. -/
def Path.location (path : String) : Location := .follow [] (steps path)

theorem Path.location_join_name (base : String) {name : String} (hn : IsName name) :
    location (join base name) = location base ++ [name] := by
  rw [location, steps_join_name base hn, Location.follow_append]
  rfl

theorem Path.location_join_intercalate (base : String) {names : List String} (hne : names ≠ [])
    (hn : ∀ name ∈ names, IsName name) :
    location (join base ("/".intercalate names)) = location base ++ names := by
  rw [location, steps_join_intercalate base hne hn, Location.follow_append, Location.follow_downs]
  rfl

namespace FileTree

/-- A walk that comes to its end comes where its steps lead. -/
theorem eq_follow_of_walk {t : FileTree} {here found : Location} {steps : List Path.Step}
    (h : t.walk here steps = .ok found) : found = here.follow steps := by
  induction steps generalizing here with
  | nil =>
      cases h
      rfl
  | cons step rest ih =>
      cases step with
      | root | here | up => exact ih h
      | down name =>
          obtain ⟨-, ⟨rfl, rfl⟩ | ⟨-, -, hw⟩⟩ := walk_down h
          · rfl
          · exact ih hw

theorem eq_location_of_walk {t : FileTree} {path : String} {found : Location}
    (h : t.walk [] (Path.steps path) = .ok found) : found = Path.location path := eq_follow_of_walk h

/-- **A walk is the same** in two trees that are the same at the locations it comes by. -/
theorem walk_congr {t t' : FileTree} {here : Location} {steps : List Path.Step}
    (h : ∀ front, front <+: steps →
      t'.lookup (here.follow front) = t.lookup (here.follow front)) :
    t'.walk here steps = t.walk here steps := by
  induction steps generalizing here with
  | nil => rfl
  | cons step rest ih =>
      have hrest : ∀ front, front <+: rest →
          t'.lookup (here.follow (step :: front)) = t.lookup (here.follow (step :: front)) :=
        fun front hf => h _ (List.cons_prefix_cons.mpr ⟨rfl, hf⟩)
      cases step with
      | root | here | up => exact ih hrest
      | down name =>
          have hthere : t'.lookup (here ++ [name]) = t.lookup (here ++ [name]) :=
            hrest [] (List.nil_prefix)
          have hwalk : t'.walk (here ++ [name]) rest = t.walk (here ++ [name]) rest := ih hrest
          simp only [walk, hthere, hwalk]

/-- A walk to a folder passes through folders. -/
theorem lookup_front {t : FileTree} {here found : Location} {steps front : List Path.Step}
    {name : String} (hw : t.walk here steps = .ok found) (hl : t.lookup found = some .folder)
    (hf : front ++ [.down name] <+: steps) :
    t.lookup (here.follow (front ++ [.down name])) = some .folder := by
  induction steps generalizing here front with
  | nil => exact absurd (List.prefix_nil.mp hf) (by simp)
  | cons step rest ih =>
      cases front with
      | nil =>
          obtain ⟨rfl, -⟩ := List.cons_prefix_cons.mp hf
          obtain ⟨-, ⟨-, rfl⟩ | ⟨-, hfolder, -⟩⟩ := walk_down hw
          · exact hl
          · exact hfolder
      | cons first front =>
          obtain ⟨rfl, hfront⟩ := List.cons_prefix_cons.mp hf
          cases first with
          | root => exact @ih ["/"] front hw hfront
          | here => exact @ih here front hw hfront
          | up => exact @ih here.up front hw hfront
          | down other =>
              obtain ⟨-, ⟨rfl, -⟩ | ⟨-, -, hw⟩⟩ := walk_down hw
              · exact absurd (List.prefix_nil.mp hfront) (by simp)
              · exact @ih (here ++ [other]) front hw hfront

/-! ### What is joined to a path -/

/-- How a path ends does not hang on what it is joined to. -/
theorem endsInFolder_join {base rest : String} (h : Path.IsBase base) (hne : rest ≠ "")
    (hr : rest.startsWith "/" = false) :
    endsInFolder (Path.join base rest) = endsInFolder rest := by
  have text := h.toList_join_relative hr
  obtain ⟨c, cs, hc⟩ := List.exists_cons_of_ne_nil (mt String.toList_eq_nil_iff.mp hne)
  have hslash : c ≠ '/' := by
    rintro rfl
    have begins : rest.startsWith "/" = true :=
      String.startsWith_string_iff.mpr ⟨cs, by rw [hc]; rfl⟩
    rw [hr] at begins
    cases begins
  have ends : (Path.join base rest).endsWith "/" = rest.endsWith "/" := by
    rw [Bool.eq_iff_iff, Path.endsWith_slash_iff, Path.endsWith_slash_iff, text, hc,
      List.getLast?_append, List.getLast?_cons_cons, List.getLast?_cons, Option.some_or]
  have dot : Path.endsInDot (Path.join base rest) = Path.endsInDot rest := by
    unfold Path.endsInDot
    rw [text, Path.parts_append_slash, List.filter_append]
    obtain ⟨first, more, hparts⟩ : ∃ first more, Path.parts rest.toList = (c :: first) :: more := by
      rw [hc, Path.parts, if_neg hslash]
      cases Path.parts cs with
      | nil => exact ⟨_, _, rfl⟩
      | cons first more => exact ⟨_, _, rfl⟩
    rw [hparts, List.filter_cons_of_pos rfl, List.getLast?_append, List.getLast?_cons,
      Option.some_or]
  rw [endsInFolder, endsInFolder, ends, dot]

/-- A path can be named if what is joined to it can. -/
theorem checkPath_of_join {base rest : String} (hb : Path.IsBase base)
    (hr : rest.startsWith "/" = false) (h : checkPath (Path.join base rest) = .ok ()) :
    checkPath base = .ok () := by
  have hempty : base.isEmpty = false := by
    simpa [← String.toList_eq_nil_iff] using hb.nonempty
  unfold checkPath at h ⊢
  rw [hb.join_relative hr] at h
  split at h
  · cases h
  · rename_i hnul
    split at h
    · cases h
    · rename_i hlen
      have hnul' : ¬ base.toList.contains '\x00' = true := by
        simp only [String.toList_append, List.contains_eq_mem, List.mem_append, decide_eq_true_eq,
          not_or] at hnul
        simpa using hnul.1.1
      have hlen' : ¬ longestPath < base.utf8ByteSize := by
        simp only [String.utf8ByteSize_append] at hlen
        omega
      rw [if_neg hnul', if_neg hlen', hempty]
      rfl

theorem FolderAt.walk_join_path {t : FileTree} {dir : String} {loc : Location}
    (h : t.FolderAt dir loc) (hb : Path.IsBase dir) (path : String) :
    t.walk [] (Path.steps (Path.join dir path)) = t.walk loc (Path.steps path) := by
  cases hs : path.startsWith "/" with
  | true =>
      -- a path from the root begins anew, wherever it is read from
      have hroot : Path.steps path =
          .root :: (Path.parts path.toList).filterMap Path.Step.ofPart := by
        simp [Path.steps, hs]
      rw [Path.join, if_pos hs, hroot]
      rfl
  | false =>
      rw [Path.steps_join_relative hb hs, walk_append h.walk h.folder]
      simp only [Path.steps, hs, Bool.false_eq_true, if_false]
      split <;> rfl

/-- **What a path leads to stays** where nothing changes on its way from the folder it is read
from. -/
theorem FolderAt.entryAt_of_way {t t' : FileTree} {dir path : String} {loc : Location}
    (h : t.FolderAt dir loc) (h' : t'.FolderAt dir loc) (hb : Path.IsBase dir)
    (hl : ∀ front, front <+: Path.steps path →
      t'.lookup (loc.follow front) = t.lookup (loc.follow front)) :
    t'.entryAt (Path.join dir path) = t.entryAt (Path.join dir path) := by
  refine FileTree.entryAt_congr ?_ fun found hw => ?_
  · rw [h.walk_join_path hb, h'.walk_join_path hb, walk_congr hl]
  · rw [h.walk_join_path hb] at hw
    rw [eq_follow_of_walk hw, hl _ (List.prefix_refl _)]

end FileTree

end Dialogue
