import Tablature.Playback.Location
import Tablature.Datum.Schema
import Tablature.Document.Decode

namespace Tablature

/-- The parts of a text between its colons. -/
def splitColons : List Char → List (List Char)
  | [] => [[]]
  | ':' :: cs => [] :: splitColons cs
  | c :: cs =>
    match splitColons cs with
    | part :: parts => (c :: part) :: parts
    | [] => [[c]]

/-- Reads an address such as `1`, `1:0` or `1:0:2`. -/
def Address.ofText? (text : String) : Option Address := do
  match ← (splitColons text.toList).mapM readIndex with
  | [s] => some ⟨s, none, none⟩
  | [s, t] => some ⟨s, some t, none⟩
  | [s, t, q] => some ⟨s, some t, some q⟩
  | _ => none

def Address.schema : Schema (Datum.Setter Address) :=
  { title := "struct GroupingLocation"
    fields := [
      { name := "sectionIndex", required := true
        read := Datum.into Datum.index fun a s => { a with sectionIndex := s } },
      { name := "subsectionIndex"
        read := Datum.into (Datum.optional Datum.index) fun a t => { a with subsectionIndex := t } },
      { name := "chordSequenceIndex"
        read := Datum.into (Datum.optional Datum.index) fun a q => { a with sequenceIndex := q } }] }

/-- An address given as a value. -/
def Address.ofDatum (datum : Datum) : Except Mismatch Address :=
  datum.sortEntries.record Address.schema .uncounted {}

end Tablature
