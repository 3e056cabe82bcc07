import Tablature.Playback.Address

namespace Tablature

/-- What the command line asks for. -/
structure Arguments where
  input : Option String := none
  output : Option String := none
  demo : Option String := none
  preview : Option Address := none
  options : Option String := none
  lint : Bool := false
  listDemos : Bool := false
  verbose : Bool := false
deriving DecidableEq

inductive ArgumentError where
  | noAddress
  | noOptionsFile
  | noDemoName
  | badAddress (text : String)
  | unknownOption (flag : String)
  | unexpected (argument : String)
deriving DecidableEq, Repr

def ArgumentError.message : ArgumentError → String
  | noAddress => "--preview requires an address"
  | noOptionsFile => "--options requires a file"
  | noDemoName => "--demo requires a tab name"
  | badAddress text => "Invalid preview address: " ++ text
  | unknownOption flag => "Unknown option: " ++ flag
  | unexpected argument => "Unexpected argument: " ++ argument

namespace Arguments

/-- Gives the positional arguments their roles: an input, unless a demo takes its place, and an
output. -/
def assign (a : Arguments) (positional : List String) : Except ArgumentError Arguments :=
  let (input, rest) := match a.demo, positional with
    | none, input :: rest => (some input, rest)
    | _, rest => (none, rest)
  match rest with
  | [] => .ok { a with input }
  | [output] => .ok { a with input, output := some output }
  | _ :: extra :: _ => .error (.unexpected extra)

/-- Takes arguments from the left, `positional` holding those without an option in reverse. `none` is a
request for help. -/
def parseFrom (a : Arguments) (positional : List String) :
    List String → Except ArgumentError (Option Arguments)
  | [] => some <$> a.assign positional.reverse
  | "--preview" :: [] => .error .noAddress
  | "--preview" :: text :: rest =>
    match Address.ofText? text with
    | some address => parseFrom { a with preview := some address } positional rest
    | none => .error (.badAddress text)
  | "--options" :: [] => .error .noOptionsFile
  | "--options" :: path :: rest => parseFrom { a with options := some path } positional rest
  | "--demo" :: [] => .error .noDemoName
  | "--demo" :: name :: rest => parseFrom { a with demo := some name } positional rest
  | "--lint" :: rest => parseFrom { a with lint := true } positional rest
  | "--list-demos" :: rest => parseFrom { a with listDemos := true } positional rest
  | "-v" :: rest => parseFrom { a with verbose := true } positional rest
  | "--verbose" :: rest => parseFrom { a with verbose := true } positional rest
  | "-h" :: _ => .ok none
  | "--help" :: _ => .ok none
  | argument :: rest =>
    match argument.toList with
    | '-' :: _ => .error (.unknownOption argument)
    | _ => parseFrom a (argument :: positional) rest

def parse (arguments : List String) : Except ArgumentError (Option Arguments) :=
  parseFrom {} [] arguments

/-- The files that a run may read. -/
def reads (a : Arguments) : List String :=
  a.input.toList ++ a.options.toList

end Arguments

end Tablature
