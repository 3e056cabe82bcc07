import Tablature.Yaml.Mark

namespace Tablature.Yaml

/-- What is wrong with a YAML text. -/
inductive Problem where
  | controlCharacter (offset : Nat)
  | expectedColon
  | entryNotAllowed
  | keyNotAllowed
  | valueNotAllowed
  | noToken
  | noDirectiveName
  | directiveCharacter
  | unknownDirective
  | expectedLineEnd
  | versionCharacter
  | longVersion
  | noVersion
  | expectedGap
  | expectedGapOrBreak
  | expectedBang
  | noUri
  | noOctet
  | leadingOctet
  | trailingOctet
  | nameCharacter
  | expectedAngle
  | zeroIndentation
  | tabForIndentation
  | tabInIndentation
  | documentBound
  | endOfText
  | unknownEscape
  | hexDigit
  | escapedCode
  | unexpectedColon
  | expectedDocument
  | duplicateVersion
  | incompatibleVersion
  | duplicateHandle
  | undefinedHandle
  | noContent
  | expectedDash
  | expectedKey
  | expectedListEnd
  | expectedMapEnd
deriving DecidableEq, Repr

def Problem.message : Problem → String
  | controlCharacter offset =>
    "control characters are not allowed" ++ if offset = 0 then "" else " at position " ++ toString offset
  | expectedColon => "could not find expected ':'"
  | entryNotAllowed => "block sequence entries are not allowed in this context"
  | keyNotAllowed => "mapping keys are not allowed in this context"
  | valueNotAllowed => "mapping values are not allowed in this context"
  | noToken => "found character that cannot start any token"
  | noDirectiveName => "could not find expected directive name"
  | directiveCharacter => "found unexpected non-alphabetical character"
  | unknownDirective => "found unknown directive name"
  | expectedLineEnd => "did not find expected comment or line break"
  | versionCharacter => "did not find expected digit or '.' character"
  | longVersion => "found extremely long version number"
  | noVersion => "did not find expected version number"
  | expectedGap => "did not find expected whitespace"
  | expectedGapOrBreak => "did not find expected whitespace or line break"
  | expectedBang => "did not find expected '!'"
  | noUri => "did not find expected tag URI"
  | noOctet => "did not find URI escaped octet"
  | leadingOctet => "found an incorrect leading UTF-8 octet"
  | trailingOctet => "found an incorrect trailing UTF-8 octet"
  | nameCharacter => "did not find expected alphabetic or numeric character"
  | expectedAngle => "did not find the expected '>'"
  | zeroIndentation => "found an indentation indicator equal to 0"
  | tabForIndentation => "found a tab character where an indentation space is expected"
  | tabInIndentation => "found a tab character that violates indentation"
  | documentBound => "found unexpected document indicator"
  | endOfText => "found unexpected end of stream"
  | unknownEscape => "found unknown escape character"
  | hexDigit => "did not find expected hexadecimal number"
  | escapedCode => "found invalid Unicode character escape code"
  | unexpectedColon => "found unexpected ':'"
  | expectedDocument => "did not find expected <document start>"
  | duplicateVersion => "found duplicate %YAML directive"
  | incompatibleVersion => "found incompatible YAML document"
  | duplicateHandle => "found duplicate %TAG directive"
  | undefinedHandle => "found undefined tag handle"
  | noContent => "did not find expected node content"
  | expectedDash => "did not find expected '-' indicator"
  | expectedKey => "did not find expected key"
  | expectedListEnd => "did not find expected ',' or ']'"
  | expectedMapEnd => "did not find expected ',' or '\x7d'"

/-- What was being read when a problem came up. -/
inductive Activity where
  | simpleKey
  | nextToken
  | directive
  | versionDirective
  | tagDirective
  | tagDirectiveHandle
  | tagDirectiveHandleEnd
  | tagDirectiveUri
  | tag
  | tagUri
  | anchor
  | reference
  | blockScalar
  | quotedScalar
  | quotedCharacter
  | plainScalar
  | node
  | blockNode
  | flowNode
  | blockCollection
  | blockMapping
  | flowSequence
  | flowMapping
deriving DecidableEq, Repr

def Activity.phrase : Activity → String
  | simpleKey => "while scanning a simple key"
  | nextToken => "while scanning for the next token"
  | directive => "while scanning a directive"
  | versionDirective => "while scanning a %YAML directive"
  | tagDirective => "while scanning a %TAG directive"
  | tagDirectiveHandle => "while scanning a tag directive"
  | tagDirectiveHandleEnd => "while parsing a tag directive"
  | tagDirectiveUri => "while parsing a %TAG directive"
  | tag => "while scanning a tag"
  | tagUri => "while parsing a tag"
  | anchor => "while scanning an anchor"
  | reference => "while scanning an alias"
  | blockScalar => "while scanning a block scalar"
  | quotedScalar => "while scanning a quoted scalar"
  | quotedCharacter => "while parsing a quoted scalar"
  | plainScalar => "while scanning a plain scalar"
  | node => "while parsing a node"
  | blockNode => "while parsing a block node"
  | flowNode => "while parsing a flow node"
  | blockCollection => "while parsing a block collection"
  | blockMapping => "while parsing a block mapping"
  | flowSequence => "while parsing a flow sequence"
  | flowMapping => "while parsing a flow mapping"

/-- A problem with its place, and perhaps what was being read, from where on. -/
structure Defect where
  problem : Problem
  mark : Mark
  during : Option (Activity × Mark) := none
deriving DecidableEq, Repr

/-- The start of what was being read is told where it is not the place of the problem itself. -/
def Defect.message (d : Defect) : String :=
  d.problem.message ++ d.mark.suffix ++
    match d.during with
    | none => ""
    | some (activity, start) =>
      ", " ++ activity.phrase ++
        if start.line = d.mark.line ∧ start.column = d.mark.column then "" else start.suffix

end Tablature.Yaml
