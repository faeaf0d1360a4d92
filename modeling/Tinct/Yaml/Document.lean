import Tinct.Yaml.Node.Parser
import Tinct.Yaml.Token.Lexer
import Tinct.Yaml.Scalar
import Tinct.Value.Show

/-! The value of a document. A `<<` entry lays the mappings it names below the entries written out; keys that
are not text are known by how they are shown. -/
namespace Tinct.Yaml

namespace Node

def kinds : List (String × Scalar.Kind) :=
  [("tag:yaml.org,2002:null", .null), ("tag:yaml.org,2002:bool", .bool), ("tag:yaml.org,2002:int", .int),
   ("tag:yaml.org,2002:float", .float), ("tag:yaml.org,2002:str", .text), ("tag:yaml.org,2002:binary", .binary),
   ("tag:yaml.org,2002:timestamp", .timestamp), ("tag:yaml.org,2002:merge", .merge),
   ("tag:yaml.org,2002:value", .default)]

def kindOf (tag : Option String) (plain : Bool) (text : String) : Reading Scalar.Kind :=
  match tag with
  | none => return if plain then Scalar.kindOf text else .text
  | some "!" => return Scalar.kindOf text
  | some t =>
    match kinds.lookup t with
    | some k => return k
    | none => throw .malformed

def suits (tag : Option String) (standard : String) : Bool := tag = none || tag = some "!" || tag = some standard

def isMerge : Node → Bool
  | scalar tag plain text => match kindOf tag plain text with | .ok .merge => true | _ => false
  | _ => false

def entriesOf : Node → Reading (List (Node × Node))
  | map _ entries => return entries
  | _ => throw .malformed

/-- The entries of a mapping with those of the mappings below it in front, the first named one last. -/
def flatten : Nat → List (Node × Node) → Reading (List (Node × Node))
  | 0, _ => throw .malformed
  | fuel + 1, entries => do
    let below ← (entries.filter fun e => isMerge e.1).mapM fun e =>
      match e.2 with
      | map _ es => flatten fuel es
      | list _ items => do
        let each ← items.mapM fun n => do flatten fuel (← entriesOf n)
        return each.reverse.flatten
      | scalar .. => throw .malformed
    return below.flatten ++ entries.filter fun e => !isMerge e.1

def asKey : Value → Reading Key
  | .text s => return .text s
  | .list _ | .set _ | .map _ => throw .malformed
  | v => return .other v.shown

def keyOf : Node → Reading Key
  | scalar tag plain text => do
    let kind ← kindOf tag plain text
    asKey (← Scalar.valueAs (if kind = .default then .text else kind) text)
  | _ => throw .malformed

def memberOf : Key → Value
  | .text s => .text s
  | .other shown => .other shown

def isPairs (tag : Option String) : Bool :=
  tag = some "tag:yaml.org,2002:omap" || tag = some "tag:yaml.org,2002:pairs"

mutual

def value : Nat → Node → Reading Value
  | 0, _ => throw .malformed
  | _ + 1, scalar tag plain text => do Scalar.valueAs (← kindOf tag plain text) text
  | fuel + 1, list tag items => do
    if isPairs tag then return .list (← pairs fuel items)
    guardThat (suits tag "tag:yaml.org,2002:seq")
    return .list (← values fuel items)
  | fuel + 1, map tag entries => do
    let es ← valueEntries fuel [] (← flatten (fuel + 1) entries)
    if tag = some "tag:yaml.org,2002:set" then return .set ((Table.keys es).map memberOf)
    guardThat (suits tag "tag:yaml.org,2002:map")
    return .map es

def values : Nat → List Node → Reading (List Value)
  | 0, _ => throw .malformed
  | _ + 1, [] => return []
  | fuel + 1, n :: rest => return (← value fuel n) :: (← values fuel rest)

def pairs : Nat → List Node → Reading (List Value)
  | 0, _ => throw .malformed
  | _ + 1, [] => return []
  | fuel + 1, n :: rest => do
    match n with
    | map _ [(k, v)] =>
      let pair := "(" ++ (← value fuel k).shown ++ ", " ++ (← value fuel v).shown ++ ")"
      return .other pair :: (← pairs fuel rest)
    | _ => throw .malformed

def valueEntries : Nat → Value.Entries → List (Node × Node) → Reading Value.Entries
  | 0, _, _ => throw .malformed
  | _ + 1, acc, [] => return acc
  | fuel + 1, acc, (k, v) :: rest => do
    let key ← keyOf k
    valueEntries fuel (Table.put key (← value fuel v) acc) rest

end

end Node

def parse (t : Text) : Reading Value := do
  match ← Node.ofTokens (← Token.scan t) with
  | none => return .null
  | some n => n.value (2 * t.length + 4)

def load (complaint : String) (t : Text) : Loaded :=
  match parse t with
  | .ok v => .value v
  | .error .malformed => .flawed complaint
  | .error (.raised kind message) => .raised kind message

end Tinct.Yaml
