import Tinct.Yaml.Node

/-! Nodes from tokens, by descent. A document has at most one root. -/
namespace Tinct.Yaml.Node

structure Parser where
  tokens : List Token
  handles : Table String String
  anchors : Table String Node := []

abbrev Parsing := StateT Parser Reading

def fail {α : Type} : Parsing α := throw .malformed

def peek? : Parsing (Option Token) := return (← get).tokens.head?

def skip : Parsing Unit := modify fun p => { p with tokens := p.tokens.tail }

def accept (t : Token) : Parsing Bool := do
  if (← peek?) = some t then
    skip
    return true
  else return false

def expect (t : Token) : Parsing Unit := do
  if !(← accept t) then fail

def isNext (ts : List Token) : Parsing Bool := return (← peek?).any ts.contains

def anchor? : Parsing (Option String) := do
  match ← peek? with
  | some (.anchor name) => skip; return some name
  | _ => return none

def tag? : Parsing (Option String) := do
  match ← peek? with
  | some (.tag t) =>
    skip
    match t.handle with
    | none => return some t.suffix
    | some handle =>
      match Table.get? handle (← get).handles with
      | some expansion => return some (expansion ++ t.suffix)
      | none => fail
  | _ => return none

def properties : Parsing (Option String × Option String) := do
  match ← anchor? with
  | some name => return (some name, ← tag?)
  | none =>
    let tag ← tag?
    if tag.isSome then return (← anchor?, tag) else return (none, none)

def remember (anchor : Option String) (node : Node) : Parsing Node := do
  match anchor with
  | none => return node
  | some name =>
    if Table.has name (← get).anchors then fail
    modify fun p => { p with anchors := Table.put name node p.anchors }
    return node

def absent (tag : Option String) (allowed : Bool) : Parsing Node :=
  if allowed then return .scalar tag true "" else fail

mutual

def node (block underKey : Bool) : Nat → Parsing Node
  | 0 => fail
  | fuel + 1 => do
    match ← peek? with
    | some (.alias name) =>
      skip
      match Table.get? name (← get).anchors with
      | some n => return n
      | none => fail
    | _ =>
      let (anchor, tag) ← properties
      remember anchor (← content block underKey tag (anchor.isSome || tag.isSome) fuel)

def content (block underKey : Bool) (tag : Option String) (hasProperties : Bool) : Nat → Parsing Node
  | 0 => fail
  | fuel + 1 => do
    match ← peek? with
    | some .dash =>
      if underKey then return .list tag (← looseItems fuel) else absent tag hasProperties
    | some (.scalar text plain) =>
      skip
      return .scalar tag plain text
    | some .flowItems =>
      skip
      return .list tag (← flowItems true fuel)
    | some .flowEntries =>
      skip
      return .map tag (← flowEntries true fuel)
    | some .blockItems =>
      if block then
        skip
        return .list tag (← blockItems fuel)
      else absent tag hasProperties
    | some .blockEntries =>
      if block then
        skip
        return .map tag (← blockEntries fuel)
      else absent tag hasProperties
    | _ => absent tag hasProperties

def nodeUnless (stops : List Token) (block underKey : Bool) : Nat → Parsing Node
  | 0 => fail
  | fuel + 1 => do
    if ← isNext stops then return empty else node block underKey fuel

def blockItems : Nat → Parsing (List Node)
  | 0 => fail
  | fuel + 1 => do
    if ← accept .dash then
      let item ← nodeUnless [.dash, .blockEnd] true false fuel
      return item :: (← blockItems fuel)
    else
      expect .blockEnd
      return []

def looseItems : Nat → Parsing (List Node)
  | 0 => fail
  | fuel + 1 => do
    if ← accept .dash then
      let item ← nodeUnless [.dash, .key, .value, .blockEnd] true false fuel
      return item :: (← looseItems fuel)
    else return []

def blockEntries : Nat → Parsing (List (Node × Node))
  | 0 => fail
  | fuel + 1 => do
    if ← accept .key then
      let stops := [.key, .value, .blockEnd]
      let key ← nodeUnless stops true true fuel
      let value ← if ← accept .value then nodeUnless stops true true fuel else pure empty
      return (key, value) :: (← blockEntries fuel)
    else
      expect .blockEnd
      return []

def flowItems (first : Bool) : Nat → Parsing (List Node)
  | 0 => fail
  | fuel + 1 => do
    if ← accept .flowItemsEnd then return []
    if !first then expect .comma
    if ← accept .flowItemsEnd then return []
    if ← accept .key then
      let key ← nodeUnless [.value, .comma, .flowItemsEnd] false false fuel
      let value ← if ← accept .value then nodeUnless [.comma, .flowItemsEnd] false false fuel else pure empty
      return .map none [(key, value)] :: (← flowItems false fuel)
    else
      let item ← node false false fuel
      return item :: (← flowItems false fuel)

def flowEntries (first : Bool) : Nat → Parsing (List (Node × Node))
  | 0 => fail
  | fuel + 1 => do
    if ← accept .flowEntriesEnd then return []
    if !first then expect .comma
    if ← accept .flowEntriesEnd then return []
    if ← accept .key then
      let key ← nodeUnless [.value, .comma, .flowEntriesEnd] false false fuel
      let value ← if ← accept .value then nodeUnless [.comma, .flowEntriesEnd] false false fuel else pure empty
      return (key, value) :: (← flowEntries false fuel)
    else
      let key ← node false false fuel
      return (key, empty) :: (← flowEntries false fuel)

end

def standardHandles : Table String String := [("!", "!"), ("!!", "tag:yaml.org,2002:")]

def directives (versioned : Bool) (handles : Table String String) :
    List Token → Reading (Table String String × List Token)
  | .version major :: rest => do
    guardThat (!versioned && major = 1)
    directives true handles rest
  | .tagHandle handle expansion :: rest => do
    guardThat (!Table.has handle handles)
    directives versioned (Table.put handle expansion handles) rest
  | .otherDirective :: rest => directives versioned handles rest
  | rest => return (handles ++ standardHandles, rest)

def isDirective : Token → Bool
  | .version _ | .tagHandle .. | .otherDirective => true
  | _ => false

def root (explicit : Bool) (handles : Table String String) (ts : List Token) : Reading Node := do
  let mayBeEmpty := explicit &&
    (match ts with | [] => true | t :: _ => isDirective t || t = .documentStart || t = .documentEnd)
  if mayBeEmpty then
    guardThat ((ts.dropWhile (· = .documentEnd)).isEmpty)
    return empty
  let (n, p) ← (node true false (4 * ts.length + 4)).run { tokens := ts, handles := handles }
  guardThat ((p.tokens.dropWhile (· = .documentEnd)).isEmpty)
  return n

def ofTokens (ts : List Token) : Reading (Option Node) := do
  match ts with
  | [] => return none
  | t :: rest =>
    if isDirective t then
      let (handles, rest) ← directives false [] ts
      match rest with
      | .documentStart :: rest => return some (← root true handles rest)
      | _ => throw .malformed
    else if t = .documentStart then return some (← root true standardHandles rest)
    else return some (← root false standardHandles ts)

end Tinct.Yaml.Node
