import Tinct.Journal.Line
import Tinct.Settings.Basic
import Tinct.Files

/-! A logbook: where entries go and what has been written there. An entry is written to every outlet whose rank it
reaches, if it reaches the rank of the whole book. Requests nest; the innermost one marks the entries. -/
namespace Tinct

structure Outlet where
  format : OutputFormat
  destination : String
  rank : Int

structure Logbook where
  rank : Int := 0
  outlets : List Outlet := []
  written : Table String String := []
  requests : List RequestTag := []

namespace Logbook

def outlet (s : LoggingSettings) (o : OutputSettings) : Outlet :=
  { format := o.format
    destination :=
      if o.destination = "stderr" ∨ o.destination = "stdout" then o.destination
      else (Path.ofString o.destination).settled.text
    rank := (o.level.getD s.level).number }

def write (b : Logbook) (destination text : String) : Logbook :=
  { b with written := Table.put destination ((Table.get? destination b.written).getD "" ++ text) b.written }

def configure (b : Logbook) (s : LoggingSettings) : Logbook :=
  let outlets := s.outputs.map (outlet s)
  let b := { b with rank := s.level.number, outlets }
  outlets.foldl (fun b o => b.write o.destination "") b

def line (o : Outlet) (es : Value.Fields) : String :=
  (match o.format with | .json => LogEntry.jsonLine es | .console => LogEntry.consoleLine es) ++ "\n"

def add (b : Logbook) (stamp : String) (e : LogEntry) : Logbook :=
  if e.rank < b.rank then b else
  let es := e.keys stamp b.requests.head?
  (b.outlets.filter fun o => o.rank ≤ e.rank).foldl (fun b o => b.write o.destination (line o es)) b

def addNotices (b : Logbook) (stamp : String) (ns : List Notice) : Logbook :=
  ns.foldl (fun b n => b.add stamp (LogEntry.ofNotice n none)) b

def enter (b : Logbook) (document id : Option String) (fresh : String) : Logbook × String :=
  let id := match id with | some id => if id = "" then fresh else id | none => fresh
  ({ b with requests := ⟨id, document⟩ :: b.requests }, id)

def exit (b : Logbook) : Logbook := { b with requests := b.requests.tail }

def requestId (b : Logbook) : Option String := b.requests.head?.map RequestTag.id

def text (b : Logbook) (destination : String) : String := (Table.get? destination b.written).getD ""

end Logbook
end Tinct
