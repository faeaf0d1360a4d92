import Tinct.Fault

/-! Grammar packages. A catalogue says which packages can be loaded and what their members are. A member is a
plain value or a function; calling the function gives a language, or raises an error of its own. -/
namespace Tinct.Query

inductive Member where
  | value (v : Value)
  | returns (v : Value)
  | raises (kind message : String)
  /-- The call succeeds, but what it gives is refused as a language. -/
  | unfit (kind message : String)
  deriving Inhabited, Repr

abbrev Package := Table String Member
abbrev Catalogue := Table String Package

inductive Lack where
  | noModule (reason : String)
  | noMember (module name : String)
  | empty
  | relative (name : String)
  deriving DecidableEq, Repr

def Lack.reason : Lack → String
  | noModule reason => reason
  | noMember module name => "module '" ++ module ++ "' has no attribute '" ++ name ++ "'"
  | empty => Failure.message .emptyModuleName
  | relative name => Failure.message (.relativeModuleName name)

def ancestry (parts : List String) : List String :=
  (List.range parts.length).map fun n => String.intercalate "." (parts.take (n + 1))

def missing (cat : Catalogue) (present : Option String) : List String → String
  | [] => ""
  | name :: rest =>
    if Table.has name cat then missing cat (some name) rest
    else match present with
      | none => "No module named '" ++ name ++ "'"
      | some parent => "No module named '" ++ name ++ "'; '" ++ parent ++ "' is not a package"

def Catalogue.package (cat : Catalogue) (name : String) : Except Lack Package :=
  if name = "" then .error .empty
  else if name.startsWith "." then .error (.relative name)
  else match Table.get? name cat with
    | some p => .ok p
    | none => .error (.noModule (missing cat none (ancestry (((name.toList.splitOn '.')).map String.ofList))))

def Catalogue.member (cat : Catalogue) (module name : String) : Except Lack Member := do
  let p ← cat.package module
  match Table.get? name p with
  | some m => .ok m
  | none => .error (.noMember module name)

def kindName : Value → String
  | .null => "NoneType"
  | .bool _ => "bool"
  | .int _ => "int"
  | .real _ => "float"
  | .text _ => "str"
  | .octets _ => "bytes"
  | .list _ => "list"
  | .set _ => "set"
  | .map _ => "dict"
  | .other _ => "object"

def saysUnusable (kind : String) : Bool :=
  kind = "ImportError" || kind = "ModuleNotFoundError" || kind = "AttributeError"

def packageError (module kind message : String) : Failure :=
  if saysUnusable kind then .fault (.packageMissing module message) else .foreign kind message

def Catalogue.language (cat : Catalogue) (module func : String) : Except Failure Unit :=
  match cat.member module func with
  | .error .empty => .error .emptyModuleName
  | .error (.relative name) => .error (.relativeModuleName name)
  | .error lack => .error (.fault (.packageMissing module lack.reason))
  | .ok (.value v) => .error (.notCallable (kindName v))
  | .ok (.returns _) => .ok ()
  | .ok (.raises kind message) => .error (packageError module kind message)
  | .ok (.unfit kind message) => .error (packageError module kind message)

def Catalogue.text? (cat : Catalogue) (module name : String) : Option String :=
  match cat.member module name with
  | .ok (.value (.text s)) => some s
  | _ => none

end Tinct.Query
