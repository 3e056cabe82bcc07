import Tablature.Yaml.Lexer
import Tablature.Yaml.Event

namespace Tablature.Yaml

/-- Parts of documents that may be expected. Collections hold the place where they began. -/
inductive Expected where
  | document (explicit : Bool)
  | content
  | documentEnd
  | node (block indentless : Bool)
  | blockEntry (start : Mark)
  | indentlessEntry
  | blockKey (start : Mark)
  | blockValue
  | flowItem (start : Mark) (first : Bool)
  | pairKey
  | pairValue
  | pairEnd
  | flowKey (start : Mark) (first : Bool)
  | flowValue
  | noValue

/-- Reading tokens into events, the latest first. What is expected next is on top. -/
structure Composition where
  tokens : List Token
  events : List (Placed Event) := []
  expected : List Expected
  handles : List (String × Tag) := []

/-- Why reading stops: at a defect, or because the tokens are used up. -/
inductive Stop where
  | defect (defect : Defect)
  | tokens

namespace Composition

private def emit (c : Composition) (event : Event) (mark : Mark) : Composition :=
  { c with events := (event, mark) :: c.events }

private def emitEmpty (c : Composition) (mark : Mark) : Composition :=
  c.emit (.scalar none {}) mark

private def expect (c : Composition) (parts : List Expected) : Composition :=
  { c with expected := parts ++ c.expected }

private def next (c : Composition) : Except Stop Token :=
  match c.tokens with
  | token :: _ => .ok token
  | [] => .error .tokens

private def skip (c : Composition) : Composition :=
  { c with tokens := c.tokens.drop 1 }

private def fail (problem : Problem) (mark : Mark) (during : Option (Activity × Mark) := none) :
    Except Stop α :=
  .error (.defect { problem, mark, during })

/-- A node where one stands, and an empty scalar at `mark` before a token that `ends` its place. -/
private def nodeUnless (c : Composition) (ends : TokenKind → Bool) (node : Expected) (mark : Token → Mark) :
    Except Stop Composition := do
  let token ← c.next
  if ends token.kind then return c.emitEmpty (mark token) else return c.expect [node]

/-- Handles that every document knows. -/
def defaultHandles : List (String × Tag) :=
  [("!", .bang), ("!!", .basic)]

/-- The directives before a document: at most one version, and each handle at most once. -/
private def readDirectives (version : Bool) (c : Composition) : Nat → Except Stop Composition
  | 0 => .error .tokens
  | fuel + 1 => do
    let token ← c.next
    match token.kind with
    | .version major minor =>
      if version then fail .duplicateVersion token.start
      else if major = 1 ∧ (minor = 1 ∨ minor = 2) then readDirectives true c.skip fuel
      else fail .incompatibleVersion token.start
    | .tagHandle handle lead =>
      if c.handles.any (·.1 == handle) then fail .duplicateHandle token.start
      else readDirectives version { c.skip with handles := c.handles ++ [(handle, lead)] } fuel
    | _ => return { c with handles := c.handles ++ defaultHandles }

private def isDirective : TokenKind → Bool
  | .version .. | .tagHandle .. => true
  | _ => false

private def readExplicitDocument (c : Composition) : Except Stop Composition := do
  let start := (← c.next).start
  let c ← readDirectives false c (c.tokens.length + 1)
  let token ← c.next
  if token.kind = .documentStart then
    return (c.skip.emit .documentStart start).expect [.content, .documentEnd]
  else fail .expectedDocument token.start

/-- A document, or the end of them. Only the first one may begin without a mark. -/
private def readDocument (explicit : Bool) (c : Composition) : Except Stop Composition := do
  let c := { c with handles := [] }
  let c := if explicit then { c with tokens := c.tokens.dropWhile (·.kind = .documentEnd) } else c
  let token ← c.next
  if token.kind = .streamEnd then return { c.skip with expected := [] }
  else if explicit || isDirective token.kind || token.kind = .documentStart then c.readExplicitDocument
  else
    let c := { c with handles := defaultHandles }
    return (c.emit .documentStart token.start).expect [.node true false, .documentEnd]

private def readContent (c : Composition) : Except Stop Composition :=
  let ends (kind : TokenKind) : Bool :=
    isDirective kind || kind = .documentStart || kind = .documentEnd || kind = .streamEnd
  c.nodeUnless ends (.node true false) (·.start)

private def readDocumentEnd (c : Composition) : Except Stop Composition := do
  let token ← c.next
  let c := (c.emit .documentEnd token.start).expect [.document true]
  return if token.kind = .documentEnd then c.skip else c

/-- The anchor and the tag before a node, in any order. -/
structure Properties where
  start : Mark
  anchor : Option String := none
  tag : Option (String × Tag × Mark) := none

private def readAnchorName (p : Properties) (c : Composition) : Except Stop (Properties × Composition) := do
  match (← c.next).kind with
  | .anchor name => return ({ p with anchor := some name }, c.skip)
  | _ => return (p, c)

private def readTagName (p : Properties) (c : Composition) : Except Stop (Properties × Composition) := do
  let token ← c.next
  match token.kind with
  | .tag handle rest => return ({ p with tag := some (handle, rest, token.start) }, c.skip)
  | _ => return (p, c)

private def readProperties (c : Composition) : Except Stop (Properties × Composition) := do
  let token ← c.next
  let (p, c) ← readAnchorName ⟨token.start, none, none⟩ c
  let (p, c) ← readTagName p c
  if p.anchor.isNone && p.tag.isSome then readAnchorName p c else return (p, c)

/-- The tag of a node with its handle spelt out. -/
private def resolveTag (c : Composition) (p : Properties) : Except Stop (Option Tag) :=
  match p.tag with
  | none => .ok none
  | some (handle, rest, mark) =>
    if handle.isEmpty then .ok (some rest)
    else
      match c.handles.find? (·.1 == handle) with
      | some (_, lead) => .ok (some (lead.append rest))
      | none => fail .undefinedHandle mark (some (.node, p.start))

/-- A node. An indentless list is one that stands in the column of the key before it. -/
private def readNode (block indentless : Bool) (c : Composition) : Except Stop Composition := do
  let first ← c.next
  match first.kind with
  | .reference name => return c.skip.emit (.reference name) first.start
  | _ =>
    let (p, c) ← c.readProperties
    let tag ← c.resolveTag p
    let token ← c.next
    let list (part : Expected) (c : Composition) := (c.emit (.listStart p.anchor tag) p.start).expect [part]
    let map (part : Expected) (c : Composition) := (c.emit (.mapStart p.anchor tag) p.start).expect [part]
    match token.kind, block with
    | .scalar text style, _ =>
      return c.skip.emit (.scalar p.anchor { tag, text, style }) p.start
    | .flowSequenceStart, _ => return list (.flowItem token.start true) c.skip
    | .flowMappingStart, _ => return map (.flowKey token.start true) c.skip
    | .blockSequenceStart, true => return list (.blockEntry token.start) c.skip
    | .blockMappingStart, true => return map (.blockKey token.start) c.skip
    | kind, _ =>
      if indentless && kind = .blockEntry then return list .indentlessEntry c
      else if p.anchor.isSome || tag.isSome then return c.emit (.scalar p.anchor { tag }) p.start
      else fail .noContent token.start (some (if block then .blockNode else .flowNode, p.start))

private def readBlockEntry (start : Mark) (c : Composition) : Except Stop Composition := do
  let token ← c.next
  match token.kind with
  | .blockEntry =>
    let ends (kind : TokenKind) : Bool := kind = .blockEntry || kind = .blockEnd
    (c.skip.expect [.blockEntry start]).nodeUnless ends (.node true false) fun _ => token.finish
  | .blockEnd => return c.skip.emit .listEnd token.start
  | _ => fail .expectedDash token.start (some (.blockCollection, start))

private def endsBlockPair (kind : TokenKind) : Bool :=
  kind = .key || kind = .value || kind = .blockEnd

private def readIndentlessEntry (c : Composition) : Except Stop Composition := do
  let token ← c.next
  match token.kind with
  | .blockEntry =>
    let ends (kind : TokenKind) : Bool := kind = .blockEntry || endsBlockPair kind
    (c.skip.expect [.indentlessEntry]).nodeUnless ends (.node true false) fun _ => token.finish
  | _ => return c.emit .listEnd token.start

private def readBlockKey (start : Mark) (c : Composition) : Except Stop Composition := do
  let token ← c.next
  match token.kind with
  | .key =>
    (c.skip.expect [.blockValue, .blockKey start]).nodeUnless endsBlockPair (.node true true) fun _ =>
      token.finish
  | .blockEnd => return c.skip.emit .mapEnd token.start
  | _ => fail .expectedKey token.start (some (.blockMapping, start))

private def readBlockValue (c : Composition) : Except Stop Composition := do
  let token ← c.next
  match token.kind with
  | .value => c.skip.nodeUnless endsBlockPair (.node true true) fun _ => token.finish
  | _ => return c.emitEmpty token.start

/-- The comma between two items of a flow collection. -/
private def readComma (first : Bool) (problem : Problem) (activity : Activity) (start : Mark)
    (c : Composition) : Except Stop Composition := do
  let token ← c.next
  if first then return c
  else if token.kind = .flowEntry then return c.skip
  else fail problem token.start (some (activity, start))

/-- An item of a flow list; a key in it begins a map of one entry. -/
private def readFlowItem (start : Mark) (first : Bool) (c : Composition) : Except Stop Composition := do
  let token ← c.next
  if token.kind = .flowSequenceEnd then return c.skip.emit .listEnd token.start
  else
    let c ← c.readComma first .expectedListEnd .flowSequence start
    let token ← c.next
    match token.kind with
    | .flowSequenceEnd => return c.skip.emit .listEnd token.start
    | .key =>
      return (c.skip.emit (.mapStart none none) token.start).expect
        [.pairKey, .pairValue, .pairEnd, .flowItem start false]
    | _ => return c.expect [.node false false, .flowItem start false]

/-- The key of a map of one entry. Where it is missing, the token in its place is passed over. -/
private def readPairKey (c : Composition) : Except Stop Composition := do
  let token ← c.next
  match token.kind with
  | .value | .flowEntry | .flowSequenceEnd => return c.skip.emitEmpty token.finish
  | _ => return c.expect [.node false false]

/-- A value in a flow collection, empty where none stands before a token that `ends` its place. -/
private def readFlowValueBefore (ends : TokenKind → Bool) (c : Composition) : Except Stop Composition := do
  let token ← c.next
  match token.kind with
  | .value => c.skip.nodeUnless ends (.node false false) (·.start)
  | _ => return c.emitEmpty token.start

private def readPairValue (c : Composition) : Except Stop Composition :=
  c.readFlowValueBefore fun kind => kind = .flowEntry || kind = .flowSequenceEnd

private def readFlowValue (c : Composition) : Except Stop Composition :=
  c.readFlowValueBefore fun kind => kind = .flowEntry || kind = .flowMappingEnd

private def readFlowKey (start : Mark) (first : Bool) (c : Composition) : Except Stop Composition := do
  let token ← c.next
  if token.kind = .flowMappingEnd then return c.skip.emit .mapEnd token.start
  else
    let c ← c.readComma first .expectedMapEnd .flowMapping start
    let token ← c.next
    match token.kind with
    | .flowMappingEnd => return c.skip.emit .mapEnd token.start
    | .key =>
      let ends (kind : TokenKind) : Bool := kind = .value || kind = .flowEntry || kind = .flowMappingEnd
      (c.skip.expect [.flowValue, .flowKey start false]).nodeUnless ends (.node false false) (·.start)
    | _ => return c.expect [.node false false, .noValue, .flowKey start false]

/-- Reads what is expected on top. -/
private def read (c : Composition) : Expected → Except Stop Composition
  | .document explicit => c.readDocument explicit
  | .content => c.readContent
  | .documentEnd => c.readDocumentEnd
  | .node block indentless => c.readNode block indentless
  | .blockEntry start => c.readBlockEntry start
  | .indentlessEntry => c.readIndentlessEntry
  | .blockKey start => c.readBlockKey start
  | .blockValue => c.readBlockValue
  | .flowItem start first => c.readFlowItem start first
  | .pairKey => c.readPairKey
  | .pairValue => c.readPairValue
  | .pairEnd => do return c.emit .mapEnd (← c.next).start
  | .flowKey start first => c.readFlowKey start first
  | .flowValue => c.readFlowValue
  | .noValue => do return c.emitEmpty (← c.next).start

private def run : Nat → Composition → List (Placed Event) × Option Stop
  | 0, c => (c.events.reverse, none)
  | fuel + 1, c =>
    match c.expected with
    | [] => (c.events.reverse, none)
    | part :: expected =>
      match { c with expected }.read part with
      | .ok c => run fuel c
      | .error stop => (c.events.reverse, some stop)

end Composition

/-- The events of a text, up to its end or to a defect. -/
structure Events where
  events : List (Placed Event)
  defect : Option Defect

/-- The events of a text. A few parts are read at most for every token. -/
def eventsOf (source : List Char) : Events :=
  let lexed := tokensOf source
  let composition : Composition := { tokens := lexed.tokens.drop 1, expected := [.document false] }
  let (events, stop) := Composition.run (8 * (lexed.tokens.length + 2)) composition
  let defect := match stop with
    | none => none
    | some (.defect defect) => some defect
    | some .tokens => lexed.defect
  { events, defect }

end Tablature.Yaml
