import Tinct.Fault

/-! The legend: the ordered vocabulary of token types and modifiers that is shared with the editor. A name's
place in its list is the number that the editor receives. Types are not empty, and no name stands twice. -/
namespace Tinct

def maxTokenLength : Nat := 65535

/-- The name for categories that are left out of a legend on purpose. -/
def outOfLegend : String := "notInLegend"

namespace Legend

inductive Index where
  | table (places : Table String Nat)
  | twice (name : String)
  deriving DecidableEq, Repr

def indexFrom (places : Table String Nat) (next : Nat) : List String → Index
  | [] => .table places
  | n :: rest => if Table.has n places then .twice n else indexFrom (Table.put n next places) (next + 1) rest

def index (names : List String) : Index := indexFrom [] 0 names

end Legend

structure Legend where
  types : List String
  modifiers : List String := []
  typeTable : Table String Nat := types.zipIdx
  modifierTable : Table String Nat := modifiers.zipIdx
  someType : types ≠ [] := by decide
  typesIndexed : Legend.index types = .table typeTable := by decide
  modifiersIndexed : Legend.index modifiers = .table modifierTable := by decide

namespace Legend

def repeatFault (field name : String) : Fault :=
  .configInvalid ("legend." ++ field) (.text name) "duplicate legend name"

def ofNames (types modifiers : List String) : Except Fault Legend :=
  if none : types = [] then
    .error (.configInvalid "legend.token_types" (.list []) "legend needs at least one token type")
  else match first : index types with
    | .twice n => .error (repeatFault "token_types" n)
    | .table typeTable =>
      match second : index modifiers with
      | .twice n => .error (repeatFault "token_modifiers" n)
      | .table modifierTable => .ok ⟨types, modifiers, typeTable, modifierTable, none, first, second⟩

def defaultTypes : List String :=
  ["unknown", "attribute", "comment", "constant", "constant.builtin", "constructor", "embedded", "escape",
   "function", "function.builtin", "function.method", "keyword", "label", "module", "number", "operator",
   "property", "punctuation.bracket", "punctuation.delimiter", "punctuation.special", "string",
   "string.special", "tag", "type", "type.builtin", "variable", "variable.builtin", "variable.parameter"]

def standard : Legend := { types := defaultTypes }

def typeCount (l : Legend) : Nat := l.types.length

def modifierCount (l : Legend) : Nat := l.modifiers.length

def typeIndex? (l : Legend) (name : String) : Option Nat := Table.get? name l.typeTable

def modifierIndex? (l : Legend) (name : String) : Option Nat := Table.get? name l.modifierTable

def hasType (l : Legend) (name : String) : Bool := (l.typeIndex? name).isSome

def hasModifier (l : Legend) (name : String) : Bool := (l.modifierIndex? name).isSome

def typeName? (l : Legend) (index : Int) : Option String :=
  if index < 0 then none else l.types[index.toNat]?

end Legend
end Tinct
