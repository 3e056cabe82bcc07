namespace Tablature

/-- How a document is played: the tempo where none is set, and the number of playable units after
which playing stops. -/
structure Options where
  defaultBpm : Float := 120.0
  cap : Option Nat := none

end Tablature
