namespace Tablature

/-- Where a column or a strum stands in a palm-muted stretch. -/
inductive PalmMute where
  | off
  | held
  | start
  | finish
deriving DecidableEq, Repr, Inhabited

namespace PalmMute

def all : List PalmMute :=
  [off, held, start, finish]

def slot : PalmMute → String
  | off => ""
  | held => "-"
  | start => "start"
  | finish => "end"

def ofSlot? (slot : String) : Option PalmMute :=
  all.find? fun mute => mute.slot == slot

theorem ofSlot?_slot (mute : PalmMute) : ofSlot? mute.slot = some mute := by
  cases mute <;> rfl

end PalmMute

end Tablature
