namespace Tablature

/-- A column or strum of a document, by its indices. The sequence is there for strums only, and `unit`
counts columns in a tab and strums in a sequence. -/
structure Location where
  sectionIndex : Nat
  subsectionIndex : Nat
  sequenceIndex : Option Nat
  unit : Nat
deriving DecidableEq, Repr

def Location.column (s t c : Nat) : Location :=
  ⟨s, t, none, c⟩

def Location.strum (s t q k : Nat) : Location :=
  ⟨s, t, some q, k⟩

def Location.next (l : Location) : Location :=
  { l with unit := l.unit + 1 }

/-- The address of a part of a document that can be played alone: a section, a subsection of it, or a
chord sequence of that. -/
structure Address where
  sectionIndex : Nat := 0
  subsectionIndex : Option Nat := none
  sequenceIndex : Option Nat := none
deriving DecidableEq, Repr

end Tablature
