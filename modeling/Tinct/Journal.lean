import Tinct.Value.Basic

/-! Notices: what the library reports about its own work, with a level, an event name and fields in order. -/
namespace Tinct

inductive Level where
  | debug | info | warning | error | critical
  deriving DecidableEq, Repr

namespace Level

def word : Level → String
  | debug => "debug"
  | info => "info"
  | warning => "warning"
  | error => "error"
  | critical => "critical"

def number : Level → Nat
  | debug => 10
  | info => 20
  | warning => 30
  | error => 40
  | critical => 50

def ranks : List (String × Nat) :=
  [("NOTSET", 0), ("DEBUG", 10), ("INFO", 20), ("WARNING", 30), ("WARN", 30), ("ERROR", 40), ("CRITICAL", 50),
   ("FATAL", 50)]

def capital (c : Char) : Char := if c = 'ı' then 'I' else if c = 'ſ' then 'S' else c.toUpper

def rankOr (default : Int) : Option String → Int
  | none => default
  | some name =>
    match ranks.lookup (name.map capital) with
    | some n => n
    | none => default

def rankWord (rank : Int) : String :=
  match ranks.find? fun r => (r.2 : Int) = rank with
  | some (name, _) => name.toLower
  | none => "level " ++ toString rank

end Level

structure Notice where
  level : Level
  event : String
  fields : Value.Fields

end Tinct
