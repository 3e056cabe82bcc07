namespace Tablature

/-- The number that stands for "no tempo set" wherever a tempo is stored. -/
def unsetTempo : Float :=
  -1.0

/-- A stored tempo, absent when it is `unsetTempo`. -/
def storedTempo (bpm : Float) : Option Float :=
  if bpm == unsetTempo then none else some bpm

def isUsableTempo (bpm : Float) : Bool :=
  bpm.isFinite && 0.0 < bpm

/-- The tempo that holds where `override` may be set and `enclosing` holds around it; a tempo that
cannot be played counts as not set. -/
def resolveTempo (override : Option Float) (enclosing : Float) : Float :=
  match override with
  | some bpm => if isUsableTempo bpm then bpm else enclosing
  | none => enclosing

/-- The tempo while the columns of a tab go by. -/
structure RunningTempo where
  declared : Float
  current : Float

def RunningTempo.start (declared : Float) : RunningTempo :=
  ⟨declared, declared⟩

/-- A measure line sets its own tempo, or else returns to the declared one. -/
def RunningTempo.atMeasureLine (tempo : RunningTempo) (override : Option Float) : RunningTempo :=
  { tempo with current := resolveTempo override tempo.declared }

end Tablature
