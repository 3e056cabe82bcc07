import Tablature.Yaml.Composition
import Tablature.Yaml.Fault

namespace Tablature.Yaml

/-- A part of a loaded document. References lead to a number under which an anchor was noted. -/
inductive Part where
  | scalar (scalar : Scalar)
  | listStart (tag : Option Tag)
  | listEnd
  | mapStart (tag : Option Tag)
  | mapEnd
  | reference (number : Nat)
deriving DecidableEq, Repr

/-- One document. `targets` are the anchored parts, by number and by the parts before them; the latest is
first. A fault lies after all of the parts. -/
structure Loaded where
  parts : List (Placed Part) := []
  targets : List (Nat × Nat) := []
  fault : Option Fault := none

namespace Loaded

/-- A document while it is loaded, its latest part first. An anchor of a known name is noted as one more. -/
structure Progress where
  parts : List (Placed Part) := []
  anchors : List (String × Nat) := []
  targets : List (Nat × Nat) := []

def Progress.add (p : Progress) (anchor : Option String) (part : Part) (mark : Mark) : Progress :=
  let parts := (part, mark) :: p.parts
  match anchor with
  | none => { p with parts }
  | some name =>
    let number := p.anchors.length
    { parts
      anchors := (name, number) :: p.anchors.filter (·.1 != name)
      targets := (number, p.parts.length) :: p.targets }

def Progress.finish (p : Progress) (fault : Option Fault) : Loaded :=
  ⟨p.parts.reverse, p.targets, fault⟩

/-- Loads events up to the end of a document; gives the events after it, `none` if there is no further
document or it is broken off. -/
def load (defect : Option Defect) (p : Progress) :
    List (Placed Event) → Loaded × Option (List (Placed Event))
  | [] => (p.finish (defect.map .defect), none)
  | (event, mark) :: events =>
    match event with
    | .documentStart => load defect p events
    | .documentEnd => (p.finish none, some events)
    | .scalar anchor scalar => load defect (p.add anchor (.scalar scalar) mark) events
    | .listStart anchor tag => load defect (p.add anchor (.listStart tag) mark) events
    | .listEnd => load defect (p.add none .listEnd mark) events
    | .mapStart anchor tag => load defect (p.add anchor (.mapStart tag) mark) events
    | .mapEnd => load defect (p.add none .mapEnd mark) events
    | .reference name =>
      match p.anchors.lookup name with
      | some number => load defect (p.add none (.reference number) mark) events
      | none => (p.finish (some (.unknownAnchor mark)), none)

/-- The first document of a text, and whether anything but its end follows. A text without a document
counts as an empty scalar. -/
def first (source : List Char) : Loaded × Bool :=
  let loaded := eventsOf source
  match loaded.events, loaded.defect with
  | [], none => ({ parts := [(.scalar {}, {})] }, false)
  | events, defect =>
    match load defect {} events with
    | (document, some rest) => (document, !rest.isEmpty || defect.isSome)
    | (document, none) => (document, false)

/-- Why no more parts can be read at the end of them. -/
def stop (d : Loaded) : Fault :=
  d.fault.getD .endOfValue

/-- The parts from an anchored one on. -/
def target (d : Loaded) (number : Nat) : List (Placed Part) :=
  match d.targets.lookup number with
  | some index => d.parts.drop index
  | none => []

end Loaded

end Tablature.Yaml
