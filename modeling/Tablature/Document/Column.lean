import Tablature.Document.PalmMute
import Tablature.Document.Tempo
import Tablature.NoteLength
import Tablature.Decimal.Reading
import Tablature.Decimal.Style
import Tablature.Text.Blank
import Tablature.Text.Quoted

namespace Tablature

/-- One vertical slice of a tab: what each of the six strings does at one moment. A column whose note
length is that of a measure line is not played; its effects slot may set a tempo. -/
structure Column where
  palmMute : PalmMute
  frets : Vector String 6
  effects : String
  noteLength : String
  id : String
  lengthModified : Bool
deriving DecidableEq

/-- Why a list of slots is not a column. -/
inductive ColumnError where
  | slotCount (found : Nat)
  | lengthFlag (found : String)
  | palmMute (found : String)
deriving DecidableEq, Repr

def ColumnError.message : ColumnError → String
  | slotCount found =>
    "a column has 10 positional slots (11 with the length-modified flag), found " ++ toString found
  | lengthFlag found => "invalid length-modified flag " ++ quoted found
  | palmMute found => "unknown palm mute flag " ++ quoted found

namespace Column

def playable (id noteLength : String) : Column :=
  ⟨.off, Vector.replicate 6 "", "", noteLength, id, false⟩

def measureLine (id : String) (bpm : Option Float) : Column :=
  ⟨.off, Vector.replicate 6 "|", FloatStyle.plain.text (bpm.getD unsetTempo), NoteLength.measureLine.tag, id, false⟩

def isMeasureLine (c : Column) : Bool :=
  c.noteLength == NoteLength.measureLine.tag

/-- The number in a tempo slot, `none` if it holds anything else. -/
def slotTempo (c : Column) : Option Float :=
  readFloat (trim c.effects.toList)

/-- The tempo that a measure line sets. -/
def measureTempo (c : Column) : Option Float :=
  if c.isMeasureLine then c.slotTempo.bind storedTempo else none

/-- The tempo that holds at each column of a tab, a measure line included. -/
def tempos (tempo : RunningTempo) : List Column → List Float
  | [] => []
  | c :: cs =>
    let tempo := if c.isMeasureLine then tempo.atMeasureLine c.measureTempo else tempo
    tempo.current :: tempos tempo cs

/-- The slots in which a column is stored; the last one is written only for a modified length. -/
def slots (c : Column) : List String :=
  c.palmMute.slot :: c.frets.toList ++ [c.effects, c.noteLength, c.id] ++
    if c.lengthModified then ["true"] else []

def lengthFlag : List String → Except ColumnError Bool
  | [] => .ok false
  | flag :: _ =>
    if flag = "true" then .ok true
    else if flag = "" ∨ flag = "false" then .ok false
    else .error (.lengthFlag flag)

def ofSlots : List String → Except ColumnError Column
  | mute :: a :: b :: c :: d :: e :: f :: effects :: noteLength :: id :: flags =>
    if 1 < flags.length then .error (.slotCount (10 + flags.length))
    else do
      let modified ← lengthFlag flags
      match PalmMute.ofSlot? mute with
      | some palmMute => .ok ⟨palmMute, #v[a, b, c, d, e, f], effects, noteLength, id, modified⟩
      | none => .error (.palmMute mute)
  | slots => .error (.slotCount slots.length)

end Column

end Tablature
