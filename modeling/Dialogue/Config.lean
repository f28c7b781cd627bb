import Dialogue.Json.Decoder
import Dialogue.Text.Path

/-!
# Settings

Where projects and artifacts lie, and how scripts are run.  Every setting has a default.
-/

namespace Dialogue

open Json (Cause Decoder)
open Json.Decoder (Record)

structure Config where
  /-- the folder with one folder per project -/
  projectsDir : String := "projects"
  /-- the folder for artifacts, seen from the project folder -/
  generatedDir : String := "generated"
  /-- the source file of the default group -/
  defaultSource : String := "main.rhai"
  /-- the function that is called once a source file has run -/
  entryPoint : String := "story"
  /-- how many operations a script may take; without end if there is none -/
  maxOperations : Option Nat := none
  deriving DecidableEq, Repr

namespace Config

def encode (c : Config) : Json :=
  .object [("projects_dir", .string c.projectsDir), ("generated_dir", .string c.generatedDir),
    ("default_source_file", .string c.defaultSource), ("entry_point", .string c.entryPoint),
    ("max_operations", .ofNat? c.maxOperations)]

def record :=
  ((((((Record.empty "struct CompilerConfig").and
    (.defaulted "projects_dir" (.string "path string") "projects")).and
    (.defaulted "generated_dir" (.string "path string") "generated")).and
    (.defaulted "default_source_file" .string "main.rhai")).and
    (.defaulted "entry_point" .string "story")).and
    (.defaulted "max_operations" (.optional (.natural "u64")) none)).map
    fun ((((((), projectsDir), generatedDir), defaultSource), entryPoint), maxOperations) =>
      ({ projectsDir, generatedDir, defaultSource, entryPoint, maxOperations } : Config)

def decoder : Decoder Config := record.decoder

/-- The settings that a value by itself stands for. -/
def ofJson (v : Json) : Except Json.Fault Config := record.ofValue v

def projectDir (c : Config) (project : String) : String := Path.join c.projectsDir project

def artifactDir (c : Config) (projectDir : String) : String := Path.join projectDir c.generatedDir

def artifactPath (c : Config) (projectDir group : String) : String :=
  Path.join (c.artifactDir projectDir) (group ++ ".json")

end Config

end Dialogue
