import Tablature.CommandLine.Arguments
import Tablature.CommandLine.Files
import Tablature.Demo
import Tablature.Document.Load
import Tablature.Lint
import Tablature.Playback.Encode
import Tablature.Playback.Play

namespace Tablature

/-- What a run leaves: its exit code, what it prints, and at most one file with its new text. Of what goes to
`stderr` only the program's own messages and its usage text are here. The log lines are left out: they repeat the
warnings of what was played, and say more if `verbose` asks for it. -/
structure Outcome where
  code : UInt32
  stdout : String := ""
  stderr : String := ""
  written : Option (String × String) := none
deriving DecidableEq

inductive RunError where
  | noInput
  | noSuchDemo (name : String)
  | readInput (path : String) (cause : FileError)
  | readOptions (path : String) (cause : FileError)
  | load (error : LoadError)
  | write (path : String) (cause : FileError)
deriving DecidableEq

def causedBy (cause : FileError) : String :=
  "\n\nCaused by:\n    " ++ cause.message

def RunError.text : RunError → String
  | noInput => "No input file given"
  | noSuchDemo name => "No demo tab named '" ++ name ++ "' (see --list-demos)"
  | readInput path cause => "Error reading file '" ++ path ++ "'" ++ causedBy cause
  | readOptions path cause => "Error reading options '" ++ path ++ "'" ++ causedBy cause
  | load error => error.text
  | write path cause => "Error writing to '" ++ path ++ "'" ++ causedBy cause

namespace CommandLine

def usage : String :=
  "\n".intercalate
    ["Usage: tabline [OPTIONS] <input.json|input.yaml> [output.json]",
      "       tabline --demo <name> [output.json]",
      "       tabline --list-demos",
      "",
      "Options:",
      "  --preview <S[:SUB[:SEQ]]>  Compile one section, subsection or chord sequence",
      "  --lint                     Report suspicious content instead of compiling",
      "  --options <file.yaml>      Compile options (defaultBpm, maxPlayableUnits)",
      "  -v, --verbose              Log diagnostics while compiling",
      "  -h, --help                 Show this help message",
      ""]

def source (files : FileAccess) (a : Arguments) : Except RunError String :=
  match a.demo, a.input with
  | some name, _ =>
    match Demo.find? name with
    | some demo => .ok demo.content
    | none => .error (.noSuchDemo name)
  | none, some path => (files.read path).mapError (.readInput path)
  | none, none => .error .noInput

def options (files : FileAccess) (a : Arguments) : Except RunError Options :=
  match a.options with
  | some path => do
    let text ← (files.read path).mapError (.readOptions path)
    (Options.load text).mapError .load
  | none => .ok {}

/-- The text that a run is for: diagnostics, or a timeline. -/
def result (files : FileAccess) (a : Arguments) : Except RunError String := do
  let text ← source files a
  let options ← options files a
  let d ← (Document.load text).mapError .load
  let json :=
    if a.lint then Json.list (d.lint.map Diagnostic.json)
    else
      match a.preview with
      | some address => (d.preview address options).json
      | none => (d.play d.effectiveProgression options).json
  return json.indented

/-- Delivers the result to the output file, or prints it. -/
def deliver (files : FileAccess) (a : Arguments) (text : String) : Except RunError Outcome :=
  match a.output with
  | none => .ok { code := 0, stdout := text ++ "\n" }
  | some path =>
    match files.refusal path with
    | some cause => .error (.write path cause)
    | none =>
      let noun := if a.lint then "diagnostics" else "timeline"
      .ok { code := 0, stderr := "Wrote " ++ noun ++ " to " ++ path ++ "\n", written := some (path, text) }

def perform (files : FileAccess) (a : Arguments) : Except RunError Outcome :=
  if a.listDemos then .ok { code := 0, stdout := String.join (Demo.all.map fun demo => demo.name ++ "\n") }
  else do deliver files a (← result files a)

/-- Runs the program on its arguments. -/
def run (files : FileAccess) (arguments : List String) : Outcome :=
  if arguments.isEmpty then { code := 1, stderr := usage }
  else
    match Arguments.parse arguments with
    | .error error => { code := 1, stderr := "Error: " ++ error.message ++ "\n" ++ usage }
    | .ok none => { code := 0, stderr := usage }
    | .ok (some a) =>
      match perform files a with
      | .ok outcome => outcome
      | .error error => { code := 1, stderr := "Error: " ++ error.text ++ "\n" }

end CommandLine

end Tablature
