import Dialogue.Config
import Dialogue.Event
import Dialogue.FileTree
import Dialogue.Manifest

/-!
# Projects

A project is a folder among the projects, with a manifest in it or with the manifest that stands
for a missing one.  Only a slug can name a project.
-/

namespace Dialogue

structure Project where
  slug : String
  /-- the path of the project folder -/
  dir : String
  manifest : Manifest
  /-- the groups there are to compile, in order -/
  groups : List ScriptGroup
  deriving Repr

namespace Project

/-- The name of the manifest in a project folder. -/
def manifestFile : String := "manifest.json"

/-! ### Failures -/

def invalidSlug (slug : String) : Failure where
  kind := .script
  code := "PROJECT_SLUG_INVALID"
  message := s!"Project slug \"{slug}\" may only contain letters, digits, '-' and '_'."

def missing (projectsDir slug : String) : Failure where
  kind := .notFound
  code := "PROJECT_NOT_FOUND"
  message := s!"Project \"{slug}\" not found under {projectsDir}."

def unreadable (path : String) (fault : FileFault) : Failure where
  kind := .internal
  code := "PROJECT_MANIFEST_READ"
  message := s!"Cannot read {path}: {fault.message}"

def unknownGroup (project group : String) : Failure where
  kind := .notFound
  code := "PROJECT_GROUP_NOT_FOUND"
  message := s!"Script group \"{group}\" does not exist in project \"{project}\"."

def noGroups (project : String) : Failure where
  kind := .notFound
  code := "PROJECT_GROUP_NOT_FOUND"
  message := s!"Project \"{project}\" declares no script groups."

/-! ### Loading -/

/-- The manifest in a project folder.  What is no file counts as missing. -/
def readManifest (tree : FileTree) (slug dir : String) :
    List Event × Except Failure Manifest :=
  let path := Path.join dir manifestFile
  if tree.isFile path then
    match tree.readText path with
    | .error fault => ([], .error (unreadable path fault))
    | .ok text => ([], (Manifest.parse text).mapError (·.failure))
  else
    ([⟨.debug, "no manifest, using default group", [("project", slug)]⟩],
      .ok (Manifest.fallback slug))

/-- The project of a slug. -/
def load (config : Config) (tree : FileTree) (slug : String) :
    List Event × Except Failure Project :=
  if !isSlug slug then ([], .error (invalidSlug slug))
  else
    let dir := config.projectDir slug
    if !tree.isFolder dir then ([], .error (missing config.projectsDir slug))
    else
      let (events, manifest) := readManifest tree slug dir
      (events, manifest.map fun m =>
        { slug, dir, manifest := m, groups := m.groups config.defaultSource })

/-! ### Choosing groups -/

def group? (p : Project) (slug : String) : Option ScriptGroup := p.groups.find? (·.slug == slug)

def requireGroup (p : Project) (slug : String) : Except Failure ScriptGroup :=
  match p.group? slug with
  | some g => .ok g
  | none => .error (unknownGroup p.slug slug)

/-- All groups, or the one that is asked for. -/
def select (p : Project) : Option String → Except Failure (List ScriptGroup)
  | none => .ok p.groups
  | some slug => return [← p.requireGroup slug]

def firstGroup (p : Project) : Except Failure ScriptGroup :=
  match p.groups.head? with
  | some g => .ok g
  | none => .error (noGroups p.slug)

/-- One group, the first unless one is asked for. -/
def chosen (p : Project) : Option String → Except Failure ScriptGroup
  | some slug => p.requireGroup slug
  | none => p.firstGroup

end Project

end Dialogue
