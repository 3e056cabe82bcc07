import Tablature.Json.Number

namespace Tablature.Json

/-- Passes over the rest of a literal. -/
def readWord : List Char → List Char → Except Fault (List Char)
  | [], cs => .ok cs
  | _ :: _, [] => .error (.here .endOfValue [])
  | w :: ws, c :: cs => if c = w then readWord ws cs else .error (.next .expectedIdent (c :: cs))

/-- The two brackets that can stand open. -/
inductive Bracket where
  | list
  | object
deriving DecidableEq, Repr

def Bracket.closing : Bracket → Char
  | list => ']'
  | object => '\x7d'

/-- A value without its parts: a scalar passed over whole, or a bracket that is now open. -/
def skipHead (cs : List Char) : Except Fault (Option Bracket × List Char) :=
  match cs with
  | [] => .error (.here .endOfValue [])
  | c :: rest =>
    if c = 'n' then (none, ·) <$> readWord ['u', 'l', 'l'] rest
    else if c = 't' then (none, ·) <$> readWord ['r', 'u', 'e'] rest
    else if c = 'f' then (none, ·) <$> readWord ['a', 'l', 's', 'e'] rest
    else if c = '-' then (none, ·) <$> skipNumber rest
    else if isDigit c then (none, ·) <$> skipNumber cs
    else if c = '"' then (none, ·) <$> skipString (rest.length + 1) rest
    else if c = '[' then .ok (some .list, rest)
    else if c = '\x7b' then .ok (some .object, rest)
    else .error (.next .expectedValue cs)

/-- Closes the open brackets that end here, up to the one in which a further item follows. A comma may
only stand after an item. -/
def skipClosings (afterItem : Bool) : List Bracket → List Char →
    Except Fault (List Bracket × List Char)
  | [], cs => .ok ([], cs)
  | bracket :: outer, cs =>
    match skipSpace cs with
    | [] => .error (.here (if bracket = .list then .endOfList else .endOfObject) [])
    | c :: rest =>
      if c = ',' ∧ afterItem then .ok (bracket :: outer, rest)
      else if c = bracket.closing then skipClosings true outer rest
      else if afterItem then
        .error (.next (if bracket = .list then .expectedListEnd else .expectedObjectEnd) (c :: rest))
      else .ok (bracket :: outer, c :: rest)

def skipKey (cs : List Char) : Except Fault (List Char) :=
  match skipSpace cs with
  | [] => .error (.here .endOfObject [])
  | c :: rest =>
    if c = '"' then do
      let cs ← skipString (rest.length + 1) rest
      match skipSpace cs with
      | [] => .error (.here .endOfObject [])
      | d :: rest => if d = ':' then .ok rest else .error (.next .expectedColon (d :: rest))
    else .error (.next .keyNotString (c :: rest))

/-- Passes over a value inside the open brackets, and on until all of them are closed. Each round takes
at least one character. -/
def skipRounds : Nat → List Bracket → List Char → Except Fault (List Char)
  | 0, _, cs => .error (.here .endOfValue cs)
  | fuel + 1, brackets, cs => do
    let (opened, cs) ← skipHead (skipSpace cs)
    let (brackets, cs) ←
      match opened with
      | some bracket => skipClosings false (bracket :: brackets) cs
      | none => skipClosings true brackets cs
    match brackets with
    | [] => .ok cs
    | .list :: _ => skipRounds fuel brackets cs
    | .object :: _ => do skipRounds fuel brackets (← skipKey cs)

/-- Passes over one value of any depth, checking no more than its syntax. -/
def skipValue (cs : List Char) : Except Fault (List Char) :=
  skipRounds (cs.length + 1) [] cs

end Tablature.Json
