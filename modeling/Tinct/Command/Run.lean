import Tinct.Command.Request
import Tinct.Command.Print
import Tinct.Journal.Logbook
import Tinct.Session.Serve
import Tinct.Settings.Load

/-! Running a command line. Everything it needs from outside is given, and all that it prints is the result. -/
namespace Tinct.Command

/-- What a run is given: the files, the environment, the grammars, the tools for settings, a console that shows
sheets, the time and an id for its request. -/
structure World where
  files : Files
  environment : Settings.Environment
  host : Host
  tools : Settings.Tools
  console : Text.Sheet → Except Failure String
  stamp : String
  requestId : String

structure Report where
  output : String := ""
  errors : String := ""
  exitCode : Nat := 0
  uncaught : Option Failure := none

namespace Report

def ofFailure (logged : String) : Failure → Report
  | .fault f => { errors := logged ++ "Error: " ++ f.line ++ "\n", exitCode := 1 }
  | cause => { errors := logged, exitCode := 1, uncaught := some cause }

def ofResult (logged : String) : Except Failure String → Report
  | .ok output => { output, errors := logged }
  | .error cause => ofFailure logged cause

end Report

def version : String := "0.1.0"

def percent (c : UInt8) : List Char :=
  let ch := Char.ofNat c.toNat
  if ch.isAlphanum || ['_', '.', '-', '~', '/'].contains ch then [ch]
  else '%' :: (Text.hexDigits 2 c.toNat).map Char.toUpper

def addressOf (parts : List String) : String :=
  let path := "/" ++ String.intercalate "/" parts
  "file://" ++ String.ofList ((Text.octets path.toList).flatMap percent)

def logbook (verbose : Bool) : Logbook :=
  ({} : Logbook).configure { level := if verbose then .debug else .warning }

def searchFor (config : Option String) : Settings.Search := { file := config.map Path.ofString }

def settingsFor (w : World) (config : Option String) : Except Failure Settings :=
  Settings.load w.tools w.files w.environment (searchFor config) []

def runLegend (w : World) (r : LegendRequest) : Except Failure String := do
  let settings ← settingsFor w r.config
  let legend ← (Legend.ofNames settings.legend.types settings.legend.modifiers).mapError Failure.fault
  return if r.json then legendJson legend else legendText legend

def chosenGrammar (r : TokensRequest) (s : GrammarSettings) : GrammarSettings :=
  { s with
    module := match r.grammar with | some m => if m = "" then s.module else m | none => s.module
    queries := if r.queries.isEmpty then s.queries else r.queries }

def readText (fs : Files) (path : String) : Except Failure Text :=
  match fs.read? path with
  | some data => Files.textOf data
  | none => .ok []

def openSession (w : World) (r : TokensRequest) : Except Failure (Text × Session) := do
  let text ← readText w.files (Path.ofString r.path).text
  let settings ← settingsFor w r.config
  let session ← (Session.new { settings with grammar := chosenGrammar r settings.grammar }).mapError Failure.fault
  return (text, session)

def printReply (w : World) (r : TokensRequest) (text : Text) : Reply → Except Failure String
  | .done => .ok ""
  | .stream s => .ok (streamText s.data)
  | .tokens ts => if r.json then .ok (tokensJson ts) else w.console (tokensSheet (excerpt (Text.lines text)) ts)

def serveTokens (w : World) (book : Logbook) (r : TokensRequest) (text : Text) (session : Session) : Report :=
  let (session, ready, effects) := session.call w.host .prepare
  let book := book.addNotices w.stamp effects.notices
  match ready with
  | .error cause => Report.ofFailure (book.text "stderr") cause
  | .ok _ =>
    let doc := addressOf ((w.files.locate? r.path).getD [])
    let (book, _) := book.enter (some doc) none w.requestId
    let (_, outcome, effects) := session.call w.host (if r.delta then .stream doc text else .tokens doc text)
    let book := (book.addNotices w.stamp effects.notices).exit
    Report.ofResult (book.text "stderr") (outcome.bind (printReply w r text))

def runTokens (w : World) (book : Logbook) (r : TokensRequest) : Report :=
  match openSession w r with
  | .error cause => Report.ofFailure "" cause
  | .ok (text, session) => serveTokens w book r text session

def runRequest (w : World) : Request → Report
  | .version => { output := "semtok, version " ++ version ++ "\n" }
  | .help scope => { output := scope.usage ++ "\n" }
  | .legend _ r => Report.ofResult "" (runLegend w r)
  | .tokens verbose r => runTokens w (logbook verbose) r

def run (w : World) (args : List String) : Report :=
  match Request.ofArgs w.files args with
  | .error complaint => { errors := complaint.text, exitCode := 2 }
  | .ok request => runRequest w request

end Tinct.Command
