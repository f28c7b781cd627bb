import Dialogue.Proofs.Paths

/-!
# Walks through a file tree

What a walk meets on its way is folders, so a walk that comes to its end does so in every tree
that has the same folders (`walk_mono`), and a walk to a folder can be gone on with
(`walk_append`).  Below a folder that a path leads to (`FolderAt`), joining a name to the path
leads to the location with that name, and all there is to know is the entry there
(`entryAt_join`).

`ChangesOnly` says of two trees that the second has every folder of the first and differs from
it at certain locations only.  Making a folder and writing a file change one location each.
-/

namespace Dialogue

/-- Steps one after the other succeed if each of them does. -/
theorem bind_eq_ok_iff {ε α β : Type} {x : Except ε α} {f : α → Except ε β} {b : β} :
    (x >>= f) = .ok b ↔ ∃ a, x = .ok a ∧ f a = .ok b := by
  cases x with
  | error e => simp [bind, Except.bind]
  | ok a => simp [bind, Except.bind]

/-- Steps one after the other fail where the first of them does. -/
theorem bind_eq_error_iff {ε α β : Type} {x : Except ε α} {f : α → Except ε β} {e : ε} :
    (x >>= f) = .error e ↔ x = .error e ∨ ∃ a, x = .ok a ∧ f a = .error e := by
  cases x with
  | error e => simp [bind, Except.bind]
  | ok a => simp [bind, Except.bind]

theorem mapError_eq_error_iff {ε ε' α : Type} {f : ε → ε'} {x : Except ε α} {e : ε'} :
    x.mapError f = .error e ↔ ∃ fault, x = .error fault ∧ f fault = e := by
  cases x with
  | error fault =>
      constructor
      · intro h
        exact ⟨fault, rfl, Except.error.inj h⟩
      · rintro ⟨_, ⟨⟩, rfl⟩
        rfl
  | ok a => exact ⟨nofun, fun ⟨_, h, _⟩ => nomatch h⟩

theorem mapError_eq_ok_iff {ε ε' α : Type} {f : ε → ε'} {x : Except ε α} {a : α} :
    x.mapError f = .ok a ↔ x = .ok a := by
  cases x with
  | error e => exact ⟨nofun, nofun⟩
  | ok b =>
      constructor
      · intro h
        rw [Except.ok.inj h]
      · intro h
        cases h
        rfl

theorem map_eq_ok_iff {ε α β : Type} {f : α → β} {x : Except ε α} {b : β} :
    x.map f = .ok b ↔ ∃ a, x = .ok a ∧ f a = b := by
  cases x <;> simp [Except.map]

theorem map_eq_error_iff {ε α β : Type} {f : α → β} {x : Except ε α} {e : ε} :
    x.map f = .error e ↔ x = .error e := by
  cases x <;> simp [Except.map]

theorem toOption_eq_some_iff {ε α : Type} {x : Except ε α} {a : α} :
    x.toOption = some a ↔ x = .ok a := by
  cases x <;> simp [Except.toOption]

namespace FileTree

open Dialogue.Path (IsBase IsName)

/-! ### Folders stay -/

/-- Every folder of the first tree is one of the second. -/
def KeepsFolders (t t' : FileTree) : Prop :=
  ∀ loc, t.lookup loc = some .folder → t'.lookup loc = some .folder

/-- A walk that comes to its end goes down by a name to its end or through a folder. -/
theorem walk_down {t : FileTree} {here loc : Location} {name : String} {rest : List Path.Step}
    (h : t.walk here (.down name :: rest) = .ok loc) :
    ¬ longestName < name.utf8ByteSize ∧ (rest = [] ∧ loc = here ++ [name] ∨
      rest ≠ [] ∧ t.lookup (here ++ [name]) = some .folder ∧
        t.walk (here ++ [name]) rest = .ok loc) := by
  simp only [walk] at h
  split at h
  · cases h
  · rename_i hlen
    split at h
    · rename_i hrest
      cases h
      exact ⟨hlen, .inl ⟨hrest, rfl⟩⟩
    · rename_i hrest
      split at h
      · exact ⟨hlen, .inr ⟨hrest, ‹_›, h⟩⟩
      · cases h
      · cases h

theorem walk_of_folder {t : FileTree} {here : Location} {name : String} {rest : List Path.Step}
    (hlen : ¬ longestName < name.utf8ByteSize) (hrest : rest ≠ [])
    (hf : t.lookup (here ++ [name]) = some .folder) :
    t.walk here (.down name :: rest) = t.walk (here ++ [name]) rest := by
  simp only [walk, if_neg hlen, if_neg hrest, hf]

theorem walk_mono {t t' : FileTree} (h : KeepsFolders t t') {here loc : Location}
    {steps : List Path.Step} (hw : t.walk here steps = .ok loc) :
    t'.walk here steps = .ok loc := by
  induction steps generalizing here with
  | nil => exact hw
  | cons step rest ih =>
      cases step with
      | root | here | up => exact ih hw
      | down name =>
          obtain ⟨hlen, ⟨rfl, rfl⟩ | ⟨hrest, hf, hw⟩⟩ := walk_down hw
          · simp only [walk, if_neg hlen, if_pos]
          · rw [walk_of_folder hlen hrest (h _ hf)]
            exact ih hw

theorem walk_append {t : FileTree} {here loc : Location} {steps : List Path.Step}
    (hw : t.walk here steps = .ok loc) (hf : t.lookup loc = some .folder)
    (more : List Path.Step) : t.walk here (steps ++ more) = t.walk loc more := by
  induction steps generalizing here with
  | nil =>
      cases hw
      rfl
  | cons step rest ih =>
      cases step with
      | root | here | up => exact ih hw
      | down name =>
          obtain ⟨hlen, ⟨rfl, rfl⟩ | ⟨hrest, hfolder, hw⟩⟩ := walk_down hw
          · -- the name was the last one, and the folder there is now passed through
            cases more with
            | nil => simp only [List.append_nil, walk, if_neg hlen, if_pos]
            | cons step more => exact walk_of_folder hlen (List.cons_ne_nil step more) hf
          · have hmore : rest ++ more ≠ [] := fun h => hrest (List.append_eq_nil_iff.mp h).1
            rw [List.cons_append, walk_of_folder hlen hmore hfolder]
            exact ih hw

/-! ### What paths lead to -/

theorem entryAt_of_walk {t : FileTree} {path : String} {loc : Location}
    (hv : checkPath path = .ok ()) (hw : t.walk [] (Path.steps path) = .ok loc) :
    t.entryAt path =
      match t.lookup loc with
      | none => .error .notFound
      | some .folder => .ok .folder
      | some (.file content) =>
        if endsInFolder path then .error .notFolder else .ok (.file content) := by
  simp only [entryAt, locate, hv, hw, bind, Except.bind]
  cases hl : t.lookup loc with
  | none => cases endsInFolder path <;> simp [pure, Except.pure, hl] <;> rfl
  | some entry =>
      cases entry with
      | folder => cases endsInFolder path <;> simp [pure, Except.pure, hl]
      | file content =>
          cases endsInFolder path with
          | true => rfl
          | false => simp [pure, Except.pure, hl]

theorem walk_of_locate {t : FileTree} {path : String} {loc : Location}
    (h : t.locate path = .ok loc) :
    checkPath path = .ok () ∧ t.walk [] (Path.steps path) = .ok loc := by
  obtain ⟨_, hv, h⟩ := bind_eq_ok_iff.mp h
  obtain ⟨found, hw, h⟩ := bind_eq_ok_iff.mp h
  split at h <;> cases h
  exact ⟨hv, hw⟩

theorem walk_of_entryAt {t : FileTree} {path : String} {entry : Entry}
    (h : t.entryAt path = .ok entry) :
    checkPath path = .ok () ∧ ∃ loc, t.walk [] (Path.steps path) = .ok loc ∧
      t.lookup loc = some entry := by
  obtain ⟨loc, hlocate, h⟩ := bind_eq_ok_iff.mp h
  obtain ⟨hv, hw⟩ := walk_of_locate hlocate
  refine ⟨hv, loc, hw, ?_⟩
  split at h <;> cases h
  assumption

/-- What a path leads to is found by the walk along it and the entry at its end. -/
theorem entryAt_congr {t t' : FileTree} {path : String}
    (hw : t'.walk [] (Path.steps path) = t.walk [] (Path.steps path))
    (hl : ∀ loc, t.walk [] (Path.steps path) = .ok loc → t'.lookup loc = t.lookup loc) :
    t'.entryAt path = t.entryAt path := by
  cases hv : checkPath path with
  | error fault => simp only [entryAt, locate, hv, bind, Except.bind]
  | ok u =>
      cases hw' : t.walk [] (Path.steps path) with
      | error fault => simp only [entryAt, locate, hv, hw, hw', bind, Except.bind]
      | ok loc => rw [entryAt_of_walk hv (hw.trans hw'), entryAt_of_walk hv hw', hl loc hw']

/-- Two paths lead to the same entry, or both to nothing. -/
theorem entryAt_cases {t t' : FileTree} {path path' : String}
    (h : (t'.entryAt path').toOption = (t.entryAt path).toOption) :
    (∃ entry, t.entryAt path = .ok entry ∧ t'.entryAt path' = .ok entry) ∨
      ∃ fault fault', t.entryAt path = .error fault ∧ t'.entryAt path' = .error fault' := by
  cases he : t.entryAt path with
  | ok entry =>
      rw [he] at h
      exact .inl ⟨entry, rfl, toOption_eq_some_iff.mp h⟩
  | error fault =>
      cases he' : t'.entryAt path' with
      | ok entry =>
          rw [he, he'] at h
          cases h
      | error fault' => exact .inr ⟨fault, fault', rfl, rfl⟩

/-- A path leads to a folder at a location. -/
structure FolderAt (t : FileTree) (path : String) (loc : Location) : Prop where
  valid : checkPath path = .ok ()
  walk : t.walk [] (Path.steps path) = .ok loc
  folder : t.lookup loc = some .folder

theorem FolderAt.mono {t t' : FileTree} {path : String} {loc : Location}
    (h : t.FolderAt path loc) (hk : KeepsFolders t t') : t'.FolderAt path loc where
  valid := h.valid
  walk := walk_mono hk h.walk
  folder := hk loc h.folder

theorem isFolder_iff {t : FileTree} {path : String} :
    t.isFolder path = true ↔ ∃ loc, t.FolderAt path loc := by
  constructor
  · intro h
    have he : t.entryAt path = .ok .folder := by
      unfold isFolder at h
      split at h
      · assumption
      · cases h
    obtain ⟨hv, loc, hw, hl⟩ := walk_of_entryAt he
    exact ⟨loc, hv, hw, hl⟩
  · rintro ⟨loc, hv, hw, hl⟩
    have he : t.entryAt path = .ok .folder := by rw [entryAt_of_walk hv hw, hl]
    simp only [isFolder, he]

/-! ### Names in a folder -/

section Below

variable {t : FileTree} {dir name : String} {loc : Location}

theorem FolderAt.walk_join (h : t.FolderAt dir loc) (hb : IsBase dir) (hn : IsName name) :
    t.walk [] (Path.steps (Path.join dir name)) = t.walk loc [.down name] := by
  rw [Path.steps_join hb hn, walk_append h.walk h.folder]

/-- A walk to a name is not led by what is there. -/
theorem eq_of_walk_name {here found : Location}
    (h : t.walk here [.down name] = .ok found) : found = here ++ [name] := by
  obtain ⟨-, ⟨-, e⟩ | ⟨hne, -⟩⟩ := walk_down h
  · exact e
  · exact absurd rfl hne

/-- A walk through a folder to a name in it passes through it and ends there, if it ends. -/
theorem FolderAt.walk_join_join {sub : String} {found : Location}
    (h : t.FolderAt dir loc) (hb : IsBase dir) (hs : IsName sub) (hn : IsName name)
    (hw : t.walk [] (Path.steps (Path.join (Path.join dir sub) name)) = .ok found) :
    t.lookup (loc ++ [sub]) = some .folder ∧ found = loc ++ [sub, name] := by
  rw [Path.steps_join (Path.isBase_join dir hs) hn, Path.steps_join hb hs, List.append_assoc,
    walk_append h.walk h.folder, List.singleton_append] at hw
  obtain ⟨-, ⟨hne, -⟩ | ⟨-, hfolder, hw⟩⟩ := walk_down hw
  · cases hne
  · rw [eq_of_walk_name hw, List.append_assoc, List.singleton_append]
    exact ⟨hfolder, rfl⟩

/-- What a name in a folder leads to hangs on the entry with that name. -/
theorem FolderAt.entryAt_congr {t' : FileTree} (h : t.FolderAt dir loc)
    (h' : t'.FolderAt dir loc) (hb : IsBase dir) (hn : IsName name)
    (hl : t'.lookup (loc ++ [name]) = t.lookup (loc ++ [name])) :
    t'.entryAt (Path.join dir name) = t.entryAt (Path.join dir name) := by
  refine FileTree.entryAt_congr ?_ fun found hf => ?_
  · rw [h.walk_join hb hn, h'.walk_join hb hn]
    rfl
  · rw [h.walk_join hb hn] at hf
    rw [eq_of_walk_name hf, hl]

end Below

/-! ### What making folders and writing files change -/

/-- The second tree has the folders of the first, and what it holds is other at most at
locations of a certain kind. -/
structure ChangesOnly (P : Location → Prop) (t t' : FileTree) : Prop where
  folders : KeepsFolders t t'
  others : ∀ loc, ¬ P loc → t'.lookup loc = t.lookup loc

namespace ChangesOnly

variable {P Q : Location → Prop} {t t' t'' : FileTree}

theorem refl (P : Location → Prop) (t : FileTree) : ChangesOnly P t t where
  folders _ h := h
  others _ _ := rfl

theorem trans (h : ChangesOnly P t t') (h' : ChangesOnly P t' t'') : ChangesOnly P t t'' where
  folders loc hf := h'.folders loc (h.folders loc hf)
  others loc hP := (h'.others loc hP).trans (h.others loc hP)

theorem mono (h : ChangesOnly P t t') (hPQ : ∀ loc, P loc → Q loc) : ChangesOnly Q t t' where
  folders := h.folders
  others loc hQ := h.others loc fun hP => hQ (hPQ loc hP)

/-- An entry is put where there is no folder. -/
theorem put {loc : Location} (h : t.lookup loc ≠ some .folder) (entry : Entry) :
    ChangesOnly (· = loc) t (t.put loc entry) where
  folders q hq := by
    have hne : q ≠ loc := fun e => h (e ▸ hq)
    rw [lookup_put_of_ne t entry hne, hq]
  others q hq := lookup_put_of_ne t entry hq

end ChangesOnly

section Making

variable {t : FileTree} {dir name : String} {loc : Location}

/-- A folder is made at a name in a folder, or nothing is and the folder around is not at
fault. -/
theorem FolderAt.makeFolder (h : t.FolderAt dir loc) (hb : IsBase dir) (hn : IsName name) :
    (t.lookup (loc ++ [name]) = none ∧
      t.makeFolder false (Path.steps (Path.join dir name)) =
        (t.put (loc ++ [name]) .folder, none)) ∨
    ∃ fault, fault ≠ some .notFound ∧
      t.makeFolder false (Path.steps (Path.join dir name)) = (t, fault) := by
  have hlast : (Path.steps (Path.join dir name)).getLast? = some (.down name) := by
    rw [Path.steps_join hb hn, List.getLast?_append]
    rfl
  have hw := h.walk_join hb hn
  simp only [FileTree.makeFolder, vacancy, hlast]
  cases hv : t.walk loc [.down name] with
  | error fault =>
      have hf : fault = .nameTooLong := by
        simp only [FileTree.walk] at hv
        split at hv <;> cases hv
        rfl
      refine .inr ⟨some fault, by simp [hf], ?_⟩
      simp [hw, hv, leadsToFolder, bind, Except.bind]
  | ok found =>
      obtain rfl := eq_of_walk_name hv
      cases hl : t.lookup (loc ++ [name]) with
      | none => exact .inl ⟨rfl, by simp [hw, hv, hl, bind, Except.bind, pure, Except.pure]⟩
      | some entry =>
          cases entry with
          | folder =>
              refine .inr ⟨none, by simp, ?_⟩
              simp [hw, hv, hl, leadsToFolder, bind, Except.bind, throw, throwThe,
                MonadExceptOf.throw]
          | file content =>
              refine .inr ⟨some .exists, by simp, ?_⟩
              simp [hw, hv, hl, leadsToFolder, bind, Except.bind, throw, throwThe,
                MonadExceptOf.throw]

/-- Making a folder at a name in a folder puts it there, or nothing. -/
theorem FolderAt.tree_makeFolders (h : t.FolderAt dir loc) (hb : IsBase dir) (hn : IsName name) :
    (t.makeFolders (Path.join dir name)).1 = t ∨
      t.lookup (loc ++ [name]) = none ∧
        (t.makeFolders (Path.join dir name)).1 = t.put (loc ++ [name]) .folder := by
  unfold FileTree.makeFolders
  split
  · exact .inl rfl
  · exact .inl rfl
  · have hne : Path.steps (Path.join dir name) ≠ [] := by simp [Path.steps_join hb hn]
    rw [Path.endsInDot_join hb hn, makeFoldersAlong, dif_neg hne]
    obtain ⟨hl, hm⟩ | ⟨fault, hf, hm⟩ := h.makeFolder hb hn
    · rw [hm]
      exact .inr ⟨hl, rfl⟩
    · rw [hm]
      split
      · rename_i he
        cases he
        exact absurd rfl hf
      · exact .inl rfl

theorem FolderAt.makeFolders (h : t.FolderAt dir loc) (hb : IsBase dir) (hn : IsName name) :
    ChangesOnly (· = loc ++ [name]) t (t.makeFolders (Path.join dir name)).1 := by
  obtain he | ⟨hnone, he⟩ := h.tree_makeFolders hb hn <;> rw [he]
  · exact .refl _ _
  · exact .put (by simp [hnone]) _

end Making

/-- A file is written where the walk ends, unless a folder is there; the path can name a file. -/
theorem write_eq_ok {t t' : FileTree} {path : String} {content : Content}
    (h : t.write path content = .ok t') :
    checkPath path = .ok () ∧ endsInFolder path = false ∧
      ∃ loc, t.walk [] (Path.steps path) = .ok loc ∧ t.lookup loc ≠ some .folder ∧
        t' = t.put loc (.file content) := by
  unfold write vacancyForFile at h
  obtain ⟨loc, hloc, h⟩ := bind_eq_ok_iff.mp h
  obtain ⟨_, hv, hloc⟩ := bind_eq_ok_iff.mp hloc
  obtain ⟨found, hw, hloc⟩ := bind_eq_ok_iff.mp hloc
  cases h
  split at hloc
  · cases hloc
  · cases hloc
  · cases hloc
  · rename_i hdot hfolder
    split at hloc <;> cases hloc
    rename_i hslash
    have hend : endsInFolder path = false := by
      simp only [endsInFolder, hdot, Bool.or_false]
      exact Bool.eq_false_iff.mpr hslash
    exact ⟨hv, hend, loc, hw, hfolder, rfl⟩

end FileTree

end Dialogue
