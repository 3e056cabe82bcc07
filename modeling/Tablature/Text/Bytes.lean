namespace Tablature

/-- The bytes that a text takes. -/
def byteCount (cs : List Char) : Nat :=
  cs.foldl (fun n c => n + c.utf8Size) 0

/-- The longest start of a text that takes no more than some bytes, and the rest. -/
def splitAtByte : Nat → List Char → List Char × List Char
  | _, [] => ([], [])
  | limit, c :: cs =>
    if c.utf8Size ≤ limit then
      let (start, rest) := splitAtByte (limit - c.utf8Size) cs
      (c :: start, rest)
    else ([], c :: cs)

theorem splitAtByte_append (limit : Nat) (cs : List Char) :
    (splitAtByte limit cs).1 ++ (splitAtByte limit cs).2 = cs := by
  induction cs generalizing limit with
  | nil => rfl
  | cons c cs ih =>
    unfold splitAtByte
    split
    · exact congrArg (c :: ·) (ih _)
    · rfl

end Tablature
