import Tablature.Document.PalmMute
import Tablature.Text.Blank

namespace Tablature

inductive Gesture where
  | down
  | up
  | slap
  | rest
  | silent
deriving DecidableEq, Repr

/-- A strum as its tag describes it: a gesture with an accent (`>`), a staccato (`.`), both or none. -/
structure StrumTag where
  gesture : Gesture
  accented : Bool
  staccato : Bool
deriving DecidableEq, Repr

namespace StrumTag

/-- Rests and silent positions make no sound that could be accented or cut short. -/
def sounds : Gesture → Bool
  | .rest | .silent => false
  | _ => true

/-- Takes the decorations after a gesture, each at most once. -/
def decorate (tag : StrumTag) : List Char → Option StrumTag
  | [] => some tag
  | '>' :: cs => if tag.accented then none else decorate { tag with accented := true } cs
  | '.' :: cs => if tag.staccato then none else decorate { tag with staccato := true } cs
  | _ :: _ => none

def gestureOf : Char → Option Gesture
  | 'v' => some .down
  | '^' => some .up
  | 's' => some .slap
  | 'r' => some .rest
  | _ => none

def ofChars? : List Char → Option StrumTag
  | [] => some ⟨.silent, false, false⟩
  | c :: cs => do
    let gesture ← gestureOf c
    let tag ← decorate ⟨gesture, false, false⟩ cs
    if (tag.accented || tag.staccato) && !sounds gesture then none else some tag

/-- Reads a tag without the blanks around it. -/
def read? (text : String) : Option StrumTag :=
  ofChars? (trim text.toList)

end StrumTag

structure Strum where
  palmMute : PalmMute := .off
  text : String := ""
deriving DecidableEq

def Strum.tag? (s : Strum) : Option StrumTag :=
  StrumTag.read? s.text

end Tablature
