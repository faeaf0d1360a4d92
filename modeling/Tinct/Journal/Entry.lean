import Tinct.Journal

/-! Entries of a log: a notice of this library or a remark from elsewhere, with its rank and its keys in order.
Entries made while a request is served carry its id and its document. -/
namespace Tinct

structure RequestTag where
  id : String
  document : Option String := none
  deriving DecidableEq, Repr

structure LogEntry where
  rank : Int
  word : String
  fields : Value.Fields
  event : String

namespace LogEntry

def ofNotice (n : Notice) (logger : Option String) : LogEntry :=
  let name := (logger.filter (· ≠ "")).toList.map fun l => ("logger", Value.text l)
  ⟨n.level.number, n.level.word, Table.ofList (name ++ n.fields), n.event⟩

def foreign (rank : Int) (event : String) : LogEntry := ⟨rank, Level.rankWord rank, [], event⟩

def putAbsent (key : String) (v : Value) (es : Value.Fields) : Value.Fields :=
  if Table.has key es then es else Table.put key v es

def mark (tag : RequestTag) (es : Value.Fields) : Value.Fields :=
  let es := putAbsent "request_id" (.text tag.id) es
  match tag.document with
  | some d => putAbsent "document" (.text d) es
  | none => es

def keys (e : LogEntry) (stamp : String) (tag : Option RequestTag) : Value.Fields :=
  let es := Table.put "event" (.text e.event) e.fields
  let es := Table.put "timestamp" (.text stamp) (Table.put "level" (.text e.word) es)
  match tag with
  | some tag => mark tag es
  | none => es

end LogEntry
end Tinct
