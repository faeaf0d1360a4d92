import Tinct.Value.Show
import Tinct.Text.Position

/-! What can go wrong, by cause. A coded fault belongs to one of four families and has a number, a title, a
message and details for a program to read; `Failure` adds the causes that carry no code. -/
namespace Tinct

inductive Code where
  | configUnreadable | configInvalid | configMissing
  | packageMissing | queryRejected | querySourceMissing | grammarAbsent
  | reversedSpan | unknownType
  | unexpected
  deriving DecidableEq, Repr

namespace Code

def number : Code → Nat
  | configUnreadable => 2001
  | configInvalid => 2002
  | configMissing => 2003
  | packageMissing => 3001
  | queryRejected => 3002
  | querySourceMissing => 3003
  | grammarAbsent => 3004
  | reversedSpan => 4001
  | unknownType => 4002
  | unexpected => 9001

def title : Code → String
  | configUnreadable => "CONFIG_PARSE_ERROR"
  | configInvalid => "CONFIG_INVALID_VALUE"
  | configMissing => "CONFIG_FILE_NOT_FOUND"
  | packageMissing => "GRAMMAR_MODULE_NOT_FOUND"
  | queryRejected => "GRAMMAR_QUERY_COMPILE"
  | querySourceMissing => "GRAMMAR_QUERY_NOT_FOUND"
  | grammarAbsent => "GRAMMAR_NOT_LOADED"
  | reversedSpan => "TOKEN_REVERSED_SPAN"
  | unknownType => "TOKEN_UNKNOWN_TYPE"
  | unexpected => "INTERNAL_ERROR"

def all : List Code := [configUnreadable, configInvalid, configMissing, packageMissing, queryRejected,
  querySourceMissing, grammarAbsent, reversedSpan, unknownType, unexpected]

def ofNumber? (n : Int) : Option Code := all.find? fun c => (c.number : Int) = n

end Code

structure Report where
  code : Code
  message : String
  retryable : Bool := false
  details : Value.Fields := []

def Report.line (r : Report) : String := "[" ++ toString r.code.number ++ "] " ++ r.code.title ++ ": " ++ r.message

inductive Family where
  | config | grammar | token | internal
  deriving DecidableEq, Repr

inductive Fault where
  | configUnreadable (path reason : String)
  | configInvalid (field : String) (value : Value) (reason : String)
  | configMissing (path : String)
  | packageMissing (module reason : String)
  | queryRejected (source reason : String)
  | querySourceMissing (source : String)
  | grammarAbsent
  | reversedSpan (name : String) (start stop : Point)
  | unknownType (name : String)
  | unexpected (reason : String) (details : Value.Fields)
  deriving DecidableEq

namespace Point

def shown (p : Point) : String := "(" ++ toString p.row ++ ", " ++ toString p.column ++ ")"

def value (p : Point) : Value := .list [.int p.row, .int p.column]

end Point

namespace Fault

def family : Fault → Family
  | configUnreadable .. | configInvalid .. | configMissing .. => .config
  | packageMissing .. | queryRejected .. | querySourceMissing .. | grammarAbsent => .grammar
  | reversedSpan .. | unknownType .. => .token
  | unexpected .. => .internal

def report : Fault → Report
  | configUnreadable path reason =>
    { code := .configUnreadable, message := "Cannot read semtok config " ++ path ++ ": " ++ reason,
      details := [("path", .text path), ("reason", .text reason)] }
  | configInvalid field value reason =>
    { code := .configInvalid, message := field ++ ": " ++ reason,
      details := [("field", .text field), ("value", .text value.shown), ("reason", .text reason)] }
  | configMissing path =>
    { code := .configMissing, message := "No semtok config at " ++ path, details := [("path", .text path)] }
  | packageMissing module reason =>
    { code := .packageMissing,
      message := "Grammar module '" ++ module ++ "' could not be loaded: " ++ reason,
      details := [("module", .text module), ("reason", .text reason)] }
  | queryRejected source reason =>
    { code := .queryRejected, message := "Query '" ++ source ++ "' failed to compile: " ++ reason,
      details := [("source", .text source), ("reason", .text reason)] }
  | querySourceMissing source =>
    { code := .querySourceMissing, message := "Query source not found: " ++ source,
      details := [("source", .text source)] }
  | grammarAbsent =>
    { code := .grammarAbsent, message := "No grammar loaded; initialize the provider before parsing" }
  | reversedSpan name start stop =>
    { code := .reversedSpan,
      message := "Capture '" ++ name ++ "' ends before it starts: " ++ start.shown ++ " -> " ++ stop.shown,
      details := [("name", .text name), ("start", start.value), ("end", stop.value)] }
  | unknownType name =>
    { code := .unknownType, message := "Token type '" ++ name ++ "' is not in the legend",
      details := [("name", .text name)] }
  | unexpected reason details =>
    { code := .unexpected, message := "Internal error: " ++ reason, details := details }

def line (f : Fault) : String := f.report.line

end Fault

inductive Failure where
  | fault (f : Fault)
  | foreign (kind message : String)
  | emptyModuleName
  | relativeModuleName (name : String)
  | notCallable (kind : String)
  | undecodable (damage : Octets.Damage)
  | homeless
  | unreadableVariable (name : String)
  | lostReport
  | cancelled
  deriving DecidableEq

namespace Octets.Damage

def reason : DamageKind → String
  | .badStart => "invalid start byte"
  | .badContinuation => "invalid continuation byte"
  | .cutShort => "unexpected end of data"

def message (d : Damage) : String :=
  let place :=
    if d.size = 1 then
      "byte 0x" ++ String.ofList (Text.hexDigits 2 d.octet.toNat) ++ " in position " ++ toString d.start
    else "bytes in position " ++ toString d.start ++ "-" ++ toString (d.start + d.size - 1)
  "'utf-8' codec can't decode " ++ place ++ ": " ++ reason d.kind

end Octets.Damage

def Failure.message : Failure → String
  | fault f => f.line
  | foreign _ message => message
  | emptyModuleName => "Empty module name"
  | relativeModuleName name =>
    "the 'package' argument is required to perform a relative import for '" ++ name ++ "'"
  | notCallable kind => "'" ++ kind ++ "' object is not callable"
  | undecodable d => d.message
  | homeless => "Could not determine home directory."
  | unreadableVariable name =>
    "error parsing value for field \"" ++ name ++ "\" from source \"EnvSettingsSource\""
  | lostReport => "super(type, obj): obj must be an instance or subtype of type"
  | cancelled => ""

/-- What a failure is behind the scopes of a request. They mark every exception that crosses them, and a coded fault
cannot be marked. -/
def Failure.crossed : Failure → Failure
  | fault _ => lostReport
  | cause => cause

@[simp] theorem Failure.crossedFault (f : Fault) : (Failure.fault f).crossed = .lostReport := rfl

/-- What a reader makes of a text: a value, an error of its own kind with its reason, or any other exception. -/
inductive Loaded where
  | value (v : Value)
  | flawed (reason : String)
  | raised (kind message : String)
  deriving DecidableEq

end Tinct
