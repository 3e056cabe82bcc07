import Tablature.CommandLine.Run

open Tablature

private def errorCode? : IO.Error → Option Nat
  | .noFileOrDirectory _ code _ | .inappropriateType _ code _ | .invalidArgument _ code _
  | .resourceExhausted _ code _ => some code.toNat
  | _ => none

private def fileError (error : IO.Error) : FileError :=
  ((errorCode? error).bind FileError.ofCode?).getD (.other (toString error))

private def readText (path : String) : IO (Except FileError String) := do
  try
    return .ok (← IO.FS.readFile path)
  catch error => return .error (fileError error)

private def writeText (path text : String) : IO (Option FileError) := do
  try
    IO.FS.writeFile path text
    return none
  catch error => return some (fileError error)

private def finish (outcome : Outcome) : IO UInt32 := do
  IO.print outcome.stdout
  IO.eprint outcome.stderr
  return outcome.code

def main (arguments : List String) : IO UInt32 := do
  let paths := match Arguments.parse arguments with
    | .ok (some a) => a.reads
    | _ => []
  let texts ← paths.mapM fun path => return (path, ← readText path)
  let read (path : String) := ((texts.find? (·.1 == path)).map Prod.snd).getD (.error .notFound)
  let outcome := CommandLine.run { read, refusal := fun _ => none } arguments
  match outcome.written with
  | none => finish outcome
  | some (path, text) =>
    match ← writeText path text with
    | none => finish outcome
    | some error => finish (CommandLine.run { read, refusal := fun _ => some error } arguments)
