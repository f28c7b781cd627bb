import Dialogue.Proofs.Accepted
import Dialogue.Proofs.Paths

/-!
# Which manifests are valid

A manifest is safe when the slugs of its groups are proper and different, and no source file, of a
group or of the old list, leads out of the project (`Manifest.Safe`).  Where a path leads is read
off its parts between slashes, of which none may be two dots; empty parts and single dots lead
nowhere (`Path.Inside`).

A manifest is valid exactly when it is safe, and otherwise it is refused for the first of its
points that is at fault (`Manifest.validate_outcome`).  The points are gone through group by group,
in each group its slug, then whether an earlier group has that slug, then its files; the old list
comes last, and also counts in a manifest that declares groups (`Manifest.points`).
-/

namespace Dialogue

/-! ### Slugs and paths -/

/-- One or more letters and digits of ASCII, underscores and hyphens. -/
def IsSlugText (s : String) : Prop := s ≠ "" ∧ ∀ c ∈ s.toList, WordChar c ∨ c = '-'

theorem isSlug_iff {s : String} : isSlug s = true ↔ IsSlugText s := by
  simp only [isSlug, IsSlugText, Bool.and_eq_true, Bool.not_eq_true', List.all_eq_true,
    Bool.or_eq_true, beq_iff_eq, isWordChar_iff, String.isEmpty_eq_false_iff]

namespace Path

/-- A path that does not lead out of the folder it is read from. -/
structure Inside (path : String) : Prop where
  nonempty : path ≠ ""
  noSlash : ¬ ['/'] <+: path.toList
  noBackslash : ¬ ['\\'] <+: path.toList
  /-- no part between slashes is two dots -/
  neverUp : ['.', '.'] ∉ path.toList.splitOn '/'

theorem Step.ofPart_eq_up {part : List Char} : ofPart part = some .up ↔ part = ['.', '.'] := by
  constructor
  · intro h
    unfold ofPart at h
    split at h
    · cases h
    · split at h
      · rename_i up
        exact beq_iff_eq.mp up
      · cases h
  · rintro rfl
    rfl

/-- A path that is not absolute goes up only where a part is two dots. -/
theorem mem_steps_of_relative {path : String} {s : Step} (h : path.startsWith "/" = false) :
    s ∈ steps path →
      s = .here ∨ s = .up ∧ ['.', '.'] ∈ path.toList.splitOn '/' ∨ ∃ name, s = .down name := by
  intro hs
  simp only [steps, h, Bool.false_eq_true, if_false] at hs
  obtain lead | inner := List.mem_append.mp hs
  · split at lead
    · exact .inl (List.mem_singleton.mp lead)
    · cases lead
  · obtain ⟨part, hpart, e⟩ := List.mem_filterMap.mp inner
    rw [parts_eq_splitOn] at hpart
    obtain rfl | rfl := Step.ofPart_cases e
    · exact .inr (.inl ⟨rfl, Step.ofPart_eq_up.mp e ▸ hpart⟩)
    · exact .inr (.inr ⟨_, rfl⟩)

/-- A part of two dots is a step up. -/
theorem up_mem_steps {path : String} (h : ['.', '.'] ∈ path.toList.splitOn '/') :
    .up ∈ steps path := by
  rw [← parts_eq_splitOn] at h
  exact List.mem_append_right _ (List.mem_filterMap.mpr ⟨_, h, rfl⟩)

/-- **A path is contained exactly if it does not lead out.** -/
theorem isContained_iff {path : String} : isContained path = true ↔ Inside path := by
  have slash : path.startsWith "/" = true ↔ ['/'] <+: path.toList := String.startsWith_string_iff
  have backslash : path.startsWith "\\" = true ↔ ['\\'] <+: path.toList :=
    String.startsWith_string_iff
  simp only [isContained, Bool.and_eq_true, Bool.not_eq_true', ← Bool.not_eq_true, slash,
    backslash, List.all_eq_true, String.isEmpty_iff]
  constructor
  · rintro ⟨⟨⟨nonempty, noSlash⟩, noBackslash⟩, below⟩
    refine ⟨nonempty, noSlash, noBackslash, fun up => ?_⟩
    cases below _ (up_mem_steps up)
  · rintro ⟨nonempty, noSlash, noBackslash, neverUp⟩
    refine ⟨⟨⟨nonempty, noSlash⟩, noBackslash⟩, fun s hs => ?_⟩
    have relative : path.startsWith "/" = false := Bool.eq_false_iff.mpr (mt slash.mp noSlash)
    obtain rfl | ⟨-, up⟩ | ⟨name, rfl⟩ := mem_steps_of_relative relative hs
    · rfl
    · exact absurd up neverUp
    · rfl

end Path

/-! ### Points -/

namespace Manifest

/-- A manifest that names what it should. -/
structure Safe (m : Manifest) : Prop where
  slugs : ∀ g ∈ m.scriptGroups, IsSlugText g.slug
  distinct : (m.scriptGroups.map (·.slug)).Nodup
  sources : ∀ g ∈ m.scriptGroups, ∀ file ∈ g.sourceFiles, Path.Inside file
  oldList : ∀ file ∈ m.buildOrder, Path.Inside file

/-- What a manifest is examined for. -/
inductive Point where
  | slug (g : ScriptGroup)
  /-- whether one of the groups before has that slug -/
  | repetition (before : List ScriptGroup) (g : ScriptGroup)
  | source (g : ScriptGroup) (file : String)
  | oldSource (file : String)

namespace Point

/-- The point is as it should be. -/
def Sound : Point → Prop
  | slug g => IsSlugText g.slug
  | repetition before g => ∀ other ∈ before, other.slug ≠ g.slug
  | source _ file | oldSource file => Path.Inside file

/-- What is wrong with a point that is not. -/
def fault : Point → ManifestFault
  | slug g => .invalidSlug g.slug
  | repetition _ g => .duplicateGroup g.slug
  | source g file => .sourceOutside file s!"group \"{g.slug}\""
  | oldSource file => .sourceOutside file "build_order"

/-- What a fault of the point is to name. -/
def subjects : Point → List String
  | slug g | repetition _ g => [g.slug]
  | source g file => [file, g.slug]
  | oldSource file => [file, "build_order"]

end Point

/-- The points of groups that come after others. -/
def groupPoints (before : List ScriptGroup) : List ScriptGroup → List Point
  | [] => []
  | g :: rest =>
    .slug g :: .repetition before g ::
      (g.sourceFiles.map (.source g) ++ groupPoints (before ++ [g]) rest)

/-- The points of a manifest, in order. -/
def points (m : Manifest) : List Point :=
  groupPoints [] m.scriptGroups ++ m.buildOrder.map .oldSource

def PointFault (p : Point) (f : ManifestFault) : Prop := ¬ p.Sound ∧ f = p.fault

theorem not_pointFault_iff {p : Point} : (∀ f, ¬ PointFault p f) ↔ p.Sound :=
  ⟨fun h => by_contra fun unsound => h _ ⟨unsound, rfl⟩, fun sound _ hf => hf.1 sound⟩

theorem PointFault.unique (p : Point) (f f' : ManifestFault) (h : PointFault p f)
    (h' : PointFault p f') : f = f' := h.2.trans h'.2.symm

section Verdicts

variable {before rest : List ScriptGroup} {seen : List String}

/-- The files of one owner are gone through in order. -/
theorem checkFiles_verdict {place : String → Point} {owner : String} {files : List String}
    (sound : ∀ file, (place file).Sound ↔ Path.Inside file)
    (fault : ∀ file, (place file).fault = .sourceOutside file owner) :
    Verdict PointFault (files.map place) (checkFiles owner files) := by
  induction files with
  | nil => exact .nil
  | cons file rest ih =>
      rw [checkFiles]
      by_cases inside : Path.Inside file
      · rw [if_pos (Path.isContained_iff.mpr inside)]
        exact .cons (not_pointFault_iff.mpr ((sound file).mpr inside)) ih
      · rw [if_neg (mt Path.isContained_iff.mp inside)]
        exact .cons_error ⟨mt (sound file).mp inside, (fault file).symm⟩

/-- The groups behind `before` are gone through with the slugs of `before` in mind. -/
theorem checkGroups_verdict (hseen : ∀ slug, slug ∈ seen ↔ ∃ g ∈ before, g.slug = slug) :
    Verdict PointFault (groupPoints before rest) (checkGroups seen rest) := by
  induction rest generalizing before seen with
  | nil => exact .nil
  | cons g rest ih =>
      have later : Verdict PointFault (groupPoints (before ++ [g]) rest)
          (checkGroups (g.slug :: seen) rest) := by
        refine ih fun slug => ?_
        simp [hseen, or_and_right, exists_or, or_comm, eq_comm]
      have files : Verdict PointFault (g.sourceFiles.map (.source g))
          (checkFiles s!"group \"{g.slug}\"" g.sourceFiles) :=
        checkFiles_verdict (fun _ => .rfl) fun _ => rfl
      have again : (Point.repetition before g).Sound ↔ g.slug ∉ seen := by
        simp only [Point.Sound, hseen, not_exists, not_and, ne_eq]
      rw [groupPoints, checkGroups]
      by_cases slug : (Point.slug g).Sound
      · rw [isSlug_iff.mpr slug]
        by_cases repeated : g.slug ∈ seen
        · rw [if_pos repeated]
          refine .cons (not_pointFault_iff.mpr slug) (.cons_error ⟨?_, rfl⟩)
          exact fun new => again.mp new repeated
        · rw [if_neg repeated]
          exact .cons (not_pointFault_iff.mpr slug)
            (.cons (not_pointFault_iff.mpr (again.mpr repeated)) (files.append later))
      · rw [Bool.eq_false_iff.mpr (mt isSlug_iff.mp slug)]
        exact .cons_error ⟨slug, rfl⟩

/-- **A manifest is gone through point by point.** -/
theorem validate_verdict (m : Manifest) : Verdict PointFault m.points m.validate := by
  refine (checkGroups_verdict ?_).append (checkFiles_verdict (fun _ => .rfl) fun _ => rfl)
  simp

end Verdicts

/-! ### Safe manifests -/

theorem faultless_iff {points : List Point} :
    Faultless PointFault points ↔ ∀ p ∈ points, p.Sound := by
  simp only [Faultless, not_pointFault_iff]

/-- All points of groups behind others are sound if the slugs are proper and new, and the files lie
inside. -/
theorem sound_groupPoints {before rest : List ScriptGroup} :
    (∀ p ∈ groupPoints before rest, p.Sound) ↔
      (∀ g ∈ rest, IsSlugText g.slug) ∧ (rest.map (·.slug)).Nodup ∧
        (∀ g ∈ rest, ∀ other ∈ before, other.slug ≠ g.slug) ∧
        ∀ g ∈ rest, ∀ file ∈ g.sourceFiles, Path.Inside file := by
  induction rest generalizing before with
  | nil => simp [groupPoints]
  | cons g rest ih =>
      have files : (∀ p ∈ g.sourceFiles.map (Point.source g), p.Sound) ↔
          ∀ file ∈ g.sourceFiles, Path.Inside file := List.forall_mem_map
      have slug : (Point.slug g).Sound ↔ IsSlugText g.slug := .rfl
      have new : (Point.repetition before g).Sound ↔ ∀ other ∈ before, other.slug ≠ g.slug := .rfl
      rw [groupPoints, List.forall_mem_cons, List.forall_mem_cons, List.forall_mem_append, files,
        slug, new, ih]
      simp only [List.forall_mem_cons, List.map_cons, List.nodup_cons, List.mem_map]
      grind

/-- **Every point of a manifest is sound exactly if the manifest is safe.** -/
theorem sound_points {m : Manifest} : (∀ p ∈ m.points, p.Sound) ↔ m.Safe := by
  have files : (∀ p ∈ m.buildOrder.map Point.oldSource, p.Sound) ↔
      ∀ file ∈ m.buildOrder, Path.Inside file := List.forall_mem_map
  rw [points, List.forall_mem_append, sound_groupPoints, files]
  constructor
  · rintro ⟨⟨slugs, distinct, -, sources⟩, oldList⟩
    exact ⟨slugs, distinct, sources, oldList⟩
  · rintro ⟨slugs, distinct, sources, oldList⟩
    exact ⟨⟨slugs, distinct, fun _ _ _ => nofun, sources⟩, oldList⟩

theorem infix_append (before text after : String) :
    text.toList <:+: (before ++ text ++ after).toList := by
  rw [String.toList_append, String.toList_append]
  exact List.infix_append _ _ _

/-- A source outside is told with its owner. -/
theorem infix_sourceOutside (file owner : String) :
    file.toList <:+: (ManifestFault.sourceOutside file owner).message.toList ∧
      owner.toList <:+: (ManifestFault.sourceOutside file owner).message.toList := by
  have named : file.toList <:+: ("Source file \"" ++ file ++ "\" in ").toList := infix_append _ _ _
  have owned := infix_append ("Source file \"" ++ file ++ "\" in ") owner
    " must be relative to the project."
  refine ⟨named.trans (List.IsPrefix.isInfix ?_), owned⟩
  refine ⟨(owner ++ " must be relative to the project.").toList, ?_⟩
  rw [← String.toList_append, ← String.append_assoc]
  rfl

/-- **What is wrong with a point is told by name.** -/
theorem mem_message_fault (p : Point) :
    ∀ text ∈ p.subjects, text.toList <:+: p.fault.message.toList := by
  cases p with
  | slug g => exact List.forall_mem_singleton.mpr (infix_append _ g.slug _)
  | repetition before g => exact List.forall_mem_singleton.mpr (infix_append _ g.slug _)
  | source g file =>
      obtain ⟨named, owned⟩ := infix_sourceOutside file s!"group \"{g.slug}\""
      refine List.forall_mem_cons.mpr ⟨named, List.forall_mem_singleton.mpr ?_⟩
      exact (infix_append _ g.slug _).trans owned
  | oldSource file =>
      obtain ⟨named, owned⟩ := infix_sourceOutside file "build_order"
      exact List.forall_mem_cons.mpr ⟨named, List.forall_mem_singleton.mpr owned⟩

/-- **Which manifests are valid, and why the others are not.**  A manifest is valid exactly when it
is safe.  Any other is refused exactly for the first of its points that is at fault, which is the
author's to mend and is named in the message. -/
theorem validate_outcome (m : Manifest) :
    (m.validate = .ok () ↔ m.Safe) ∧
    (∀ f, m.validate = .error f ↔ FirstFault PointFault m.points f) ∧
    ∀ p f, PointFault p f → f.failure.kind = .script ∧
      ∀ text ∈ p.subjects, text.toList <:+: f.failure.message.toList := by
  refine ⟨?_, fun f => m.validate_verdict.error_iff PointFault.unique, ?_⟩
  · rw [m.validate_verdict.ok_iff, faultless_iff, sound_points]
  · rintro p _ ⟨-, rfl⟩
    exact ⟨rfl, mem_message_fault p⟩

/-- A dot, or more than two of them, leads nowhere. -/
example :
    ({ slug := "x", name := "", buildOrder := ["a/./b", "..."] } : Manifest).validate.isOk := by
  decide +kernel

end Manifest

end Dialogue
