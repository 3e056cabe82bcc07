namespace Tablature.Yaml

/-- The tag of a node. Its bytes may be written as numbers, so they need not be those of a text. -/
structure Tag where
  bytes : List UInt8
deriving DecidableEq, Repr

namespace Tag

def ofString (s : String) : Tag :=
  ⟨s.toUTF8.data.toList⟩

/-- A tag ends in front of a zero byte. -/
def ofBytes (bytes : List UInt8) : Tag :=
  ⟨bytes.takeWhile (· ≠ 0)⟩

def append (lead rest : Tag) : Tag :=
  ⟨lead.bytes ++ rest.bytes⟩

/-- The tag that is only an exclamation mark. -/
def bang : Tag :=
  ofString "!"

/-- The tags of the basic types begin so. -/
def basic : Tag :=
  ofString "tag:yaml.org,2002:"

def bool : Tag :=
  basic.append (ofString "bool")

def int : Tag :=
  basic.append (ofString "int")

def float : Tag :=
  basic.append (ofString "float")

def null : Tag :=
  basic.append (ofString "null")

/-- Tags of a document's own begin with an exclamation mark. -/
def isLocal (t : Tag) : Bool :=
  t.bytes.take 1 = bang.bytes

/-- Whether the bytes are those of a text. -/
def isText (t : Tag) : Bool :=
  t.bytes.toByteArray.validateUTF8

end Tag

end Tablature.Yaml
