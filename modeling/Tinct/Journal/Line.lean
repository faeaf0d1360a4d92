import Tinct.Journal.Entry
import Tinct.Json.Writer
import Tinct.Value.Show

/-! The line of an entry. As JSON it has all keys in order. For a console the time, the level in brackets, the event
and the logger in brackets come first, and the other keys follow by name. -/
namespace Tinct.LogEntry

def bare : Value → String
  | .text s => s
  | v => v.shown

def needsQuotes (c : Char) : Bool := [' ', '\t', '=', '\r', '\n', '"', '\x27'].contains c

def consoleValue : Value → String
  | .text s => if s.toList.any needsQuotes then Text.quoted s else s
  | v => v.shown

def leadingKeys : List (String × String × String) :=
  [("timestamp", "", ""), ("level", "[", "]"), ("event", "", ""), ("logger", "[", "]"), ("logger_name", "[", "]")]

def leadingPieces (es : Value.Fields) : List String :=
  leadingKeys.filterMap fun (key, left, right) => (Table.get? key es).map fun v => left ++ bare v ++ right

def otherPieces (es : Value.Fields) : List String :=
  let others := es.filter fun e => (leadingKeys.lookup e.1).isNone
  (others.mergeSort fun a b => !(b.1 < a.1)).map fun e => e.1 ++ "=" ++ consoleValue e.2

def trimEnd (s : String) : String := String.ofList (s.toList.reverse.dropWhile (· = ' ')).reverse

def consoleLine (es : Value.Fields) : String :=
  trimEnd (String.intercalate " " ((leadingPieces es ++ otherPieces es).filter (· ≠ "")))

def jsonLine (es : Value.Fields) : String := Json.compact (.map (Value.entries es))

end Tinct.LogEntry
