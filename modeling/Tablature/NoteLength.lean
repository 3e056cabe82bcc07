namespace Tablature

inductive NoteLength where
  | quarter
  | quarterTriplet
  | eighth
  | eighthTriplet
  | sixteenth
  | sixteenthTriplet
  | measureLine
deriving DecidableEq, Repr

namespace NoteLength

def all : List NoteLength :=
  [quarter, quarterTriplet, eighth, eighthTriplet, sixteenth, sixteenthTriplet, measureLine]

def tag : NoteLength → String
  | quarter => "quarter"
  | quarterTriplet => "quarterTriplet"
  | eighth => "eighth"
  | eighthTriplet => "eighthTriplet"
  | sixteenth => "sixteenth"
  | sixteenthTriplet => "sixteenthTriplet"
  | measureLine => "measureLine"

def ofTag? (tag : String) : Option NoteLength :=
  all.find? fun length => length.tag == tag

/-- The length that a tag stands for, a quarter if it stands for none. -/
def ofTag (tag : String) : NoteLength :=
  (ofTag? tag).getD quarter

/-- The length in beats. Triplets are cut to four decimals. -/
def beats : NoteLength → Float
  | quarter => 1.0
  | quarterTriplet => 0.6667
  | eighth => 0.5
  | eighthTriplet => 0.3333
  | sixteenth => 0.25
  | sixteenthTriplet => 0.1667
  | measureLine => 0.0

/-- `beats` as a timeline writes it. -/
def label : NoteLength → String
  | quarter => "1"
  | quarterTriplet => "0.6667"
  | eighth => "0.5"
  | eighthTriplet => "0.3333"
  | sixteenth => "0.25"
  | sixteenthTriplet => "0.1667"
  | measureLine => "0"

/-- A measure line takes no time, every other length does. -/
def isPlayable (length : NoteLength) : Bool :=
  length != measureLine

def secondsAt (length : NoteLength) (bpm : Float) : Float :=
  60.0 / (bpm / length.beats)

theorem ofTag?_tag (length : NoteLength) : ofTag? length.tag = some length := by
  cases length <;> rfl

theorem ofTag?_eq_some_iff {tag : String} {length : NoteLength} : ofTag? tag = some length ↔ length.tag = tag := by
  constructor
  · intro found
    have same := List.find?_some found
    exact beq_iff_eq.mp same
  · rintro rfl
    exact ofTag?_tag length

end NoteLength

end Tablature
