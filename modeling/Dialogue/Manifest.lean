import Dialogue.Failure
import Dialogue.Labels
import Dialogue.Text.Path

/-!
# Manifests

A project's manifest names the project and its script groups.  Each group lists the source files
that are compiled into one machine.  A manifest without groups stands for one default group.

A manifest is valid when the slugs of its groups are well-formed and different, and every source
file stays inside the project folder; of several faults the first one is reported.
-/

namespace Dialogue

open Json (Cause Decoder)
open Json.Decoder (Record)

/-- One or more letters, digits, hyphens and underscores. -/
def isSlug (s : String) : Bool := !s.isEmpty && s.toList.all fun c => isWordChar c || c == '-'

/-- Source files that are compiled together. -/
structure ScriptGroup where
  slug : String
  name : String
  sourceFiles : List String := []
  deriving DecidableEq, Repr

namespace ScriptGroup

def encode (g : ScriptGroup) : Json :=
  .object [("slug", .string g.slug), ("name", .string g.name),
    ("source_files", .ofTexts g.sourceFiles)]

def record :=
  ((((Record.empty "struct ScriptGroup").and
    (.required "slug" .string)).and
    (.required "name" .string)).and
    (.defaulted "source_files" (.list .string) [])).map
    fun ((((), slug), name), sourceFiles) => ({ slug, name, sourceFiles } : ScriptGroup)

def decoder : Decoder ScriptGroup := record.decoder

/-- The group of a project that declares none. -/
def default (sourceFiles : List String) : ScriptGroup :=
  { slug := "behavior", name := "Main", sourceFiles }

end ScriptGroup

structure Manifest where
  slug : String
  name : String
  description : String := ""
  version : Option String := none
  authors : List String := []
  /-- the files of the default group, in projects that declare no groups -/
  buildOrder : List String := []
  scriptGroups : List ScriptGroup := []
  deriving DecidableEq, Repr

/-- What is wrong with a manifest. -/
inductive ManifestFault where
  | unreadable (fault : Json.Fault)
  | invalidSlug (slug : String)
  | duplicateGroup (slug : String)
  | sourceOutside (file owner : String)
  deriving DecidableEq

namespace ManifestFault

def code : ManifestFault → String
  | unreadable _ => "PROJECT_MANIFEST_INVALID"
  | invalidSlug _ => "PROJECT_SLUG_INVALID"
  | duplicateGroup _ => "PROJECT_GROUP_DUPLICATE"
  | sourceOutside _ _ => "PROJECT_SOURCE_PATH_INVALID"

def message : ManifestFault → String
  | unreadable fault => "manifest.json is not a valid project manifest: " ++ fault.message
  | invalidSlug slug =>
    s!"Script group slug \"{slug}\" may only contain letters, digits, '-' and '_'."
  | duplicateGroup slug => s!"Script group \"{slug}\" is declared more than once."
  | sourceOutside file owner =>
    s!"Source file \"{file}\" in {owner} must be relative to the project."

def failure (f : ManifestFault) : Failure := ⟨.script, f.code, f.message⟩

end ManifestFault

namespace Manifest

/-! ### JSON -/

/-- A list that is written only when it holds something. -/
def listField (name : String) (texts : List String) : List (String × Json) :=
  if texts.isEmpty then [] else [(name, .ofTexts texts)]

def encode (m : Manifest) : Json :=
  .object ([("slug", .string m.slug), ("name", .string m.name),
      ("description", .string m.description)]
    ++ (m.version.toList.map fun v => ("version", .string v))
    ++ listField "authors" m.authors
    ++ listField "build_order" m.buildOrder
    ++ [("script_groups", .array (m.scriptGroups.map (·.encode)))])

def record :=
  ((((((((Record.empty "struct ProjectManifest").and
    (.required "slug" .string)).and
    (.required "name" .string)).and
    (.defaulted "description" .string "")).and
    (.defaulted "version" (.optional .string) none)).and
    (.defaulted "authors" (.list .string) [])).and
    (.defaulted "build_order" (.list .string) [])).and
    (.defaulted "script_groups" (.list ScriptGroup.decoder) [])).map
    fun ((((((((), slug), name), description), version), authors), buildOrder), scriptGroups) =>
      ({ slug, name, description, version, authors, buildOrder, scriptGroups } : Manifest)

def decoder : Decoder Manifest := record.decoder

/-! ### Validity -/

/-- Checks the source files listed by `owner`. -/
def checkFiles (owner : String) : List String → Except ManifestFault Unit
  | [] => .ok ()
  | file :: rest =>
    if Path.isContained file then checkFiles owner rest else .error (.sourceOutside file owner)

/-- Checks groups one after the other; `seen` are the slugs before them. -/
def checkGroups (seen : List String) : List ScriptGroup → Except ManifestFault Unit
  | [] => .ok ()
  | g :: rest =>
    if !isSlug g.slug then .error (.invalidSlug g.slug)
    else if g.slug ∈ seen then .error (.duplicateGroup g.slug)
    else do
      checkFiles s!"group \"{g.slug}\"" g.sourceFiles
      checkGroups (g.slug :: seen) rest

/-- Checks a manifest: its groups, then the old file list, whether it is used or not. -/
def validate (m : Manifest) : Except ManifestFault Unit := do
  checkGroups [] m.scriptGroups
  checkFiles "build_order" m.buildOrder

/-- The valid manifest a text stands for. -/
def parse (text : String) : Except ManifestFault Manifest := do
  let m ← (decoder.decode text).mapError .unreadable
  m.validate
  return m

/-- What a project without a manifest is taken to be. -/
def fallback (slug : String) : Manifest := { slug, name := slug }

/-- The declared groups, or the default group, whose files are the old file list or else the
default source file. -/
def groups (m : Manifest) (defaultSource : String) : List ScriptGroup :=
  if m.scriptGroups.isEmpty then
    [.default (if m.buildOrder.isEmpty then [defaultSource] else m.buildOrder)]
  else m.scriptGroups

end Manifest

end Dialogue
