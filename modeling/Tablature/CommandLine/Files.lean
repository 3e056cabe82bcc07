namespace Tablature

inductive FileError where
  | notFound
  | notDirectory
  | isDirectory
  | nameTooLong
  | other (text : String)
deriving DecidableEq, Repr

namespace FileError

def message : FileError → String
  | notFound => "No such file or directory (os error 2)"
  | notDirectory => "Not a directory (os error 20)"
  | isDirectory => "Is a directory (os error 21)"
  | nameTooLong => "File name too long (os error 36)"
  | other text => text

/-- The error that the system calls by a number. -/
def ofCode? : Nat → Option FileError
  | 2 => some notFound
  | 20 => some notDirectory
  | 21 => some isDirectory
  | 36 => some nameTooLong
  | _ => none

end FileError

/-- What a program sees of the files around it: what reading gives, and whether writing is refused. -/
structure FileAccess where
  read : String → Except FileError String
  refusal : String → Option FileError

end Tablature
