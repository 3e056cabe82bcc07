import Tablature.Playback.Basic

namespace Tablature

/-- The number of leading entries that satisfy `p`, found by halving; entries from `base` on and before
`base + size` are still in question. -/
def partitionFrom (xs : Array α) (p : α → Bool) (base size : Nat) : Nat :=
  if 1 < size then
    let half := size / 2
    if (xs[base + half]?).any p then partitionFrom xs p (base + half) (size - half)
    else partitionFrom xs p base (size - half)
  else if size = 1 && (xs[base]?).any p then base + 1
  else base
termination_by size

def partitionPoint (xs : Array α) (p : α → Bool) : Nat :=
  partitionFrom xs p 0 xs.size

/-- The last moment that begins at `seconds` or before. -/
def positionAt (moments : List Moment) (seconds : Float) : Option Nat :=
  match partitionPoint moments.toArray fun m => m.elapsed ≤ seconds with
  | 0 => none
  | n + 1 => some n

namespace Playback

def positionAt (p : Playback) (seconds : Float) : Option Nat :=
  Tablature.positionAt p.moments seconds

/-- When the last moment begins. -/
def durationSeconds (p : Playback) : Float :=
  (p.moments.getLast?.map Moment.elapsed).getD 0.0

def playableCount (p : Playback) : Nat :=
  p.moments.countP Moment.isPlayable

def isEmpty (p : Playback) : Bool :=
  p.moments.isEmpty

end Playback

end Tablature
