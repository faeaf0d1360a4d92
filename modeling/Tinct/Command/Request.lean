import Tinct.Command.Options
import Tinct.Files

/-! What a command line asks for. A file that is named must be there and must not be a folder; the options are
looked at in front of the arguments. -/
namespace Tinct.Command

inductive Scope where
  | program | legend | tokens
  deriving DecidableEq, Repr

namespace Scope

def path : Scope → String
  | program => "semtok"
  | legend => "semtok legend"
  | tokens => "semtok tokens"

def usage (s : Scope) : String :=
  "Usage: " ++ s.path ++ (match s with
    | program => " [OPTIONS] COMMAND [ARGS]..."
    | legend => " [OPTIONS]"
    | tokens => " [OPTIONS] PATH")

end Scope

structure Complaint where
  scope : Scope
  misuse : Misuse
  deriving DecidableEq, Repr

namespace Complaint

def text (c : Complaint) : String :=
  (if c.misuse.showsUsage then
    c.scope.usage ++ "\nTry '" ++ c.scope.path ++ " --help' for help.\n\n" else "") ++
  "Error: " ++ c.misuse.message ++ "\n"

end Complaint

structure LegendRequest where
  config : Option String := none
  json : Bool := false
  deriving DecidableEq, Repr

structure TokensRequest where
  path : String
  config : Option String := none
  grammar : Option String := none
  queries : List String := []
  json : Bool := false
  delta : Bool := false
  deriving DecidableEq, Repr

inductive Request where
  | version
  | help (scope : Scope)
  | legend (verbose : Bool) (r : LegendRequest)
  | tokens (verbose : Bool) (r : TokensRequest)
  deriving DecidableEq, Repr

def programOptions : List OptionSpec :=
  [{ name := "--version" }, { name := "--verbose", short := some 'v' }, { name := "--help" }]

def legendOptions : List OptionSpec :=
  [{ name := "--config", takesValue := true }, { name := "--json" }, { name := "--help" }]

def tokensOptions : List OptionSpec :=
  [{ name := "--config", takesValue := true }, { name := "--grammar", takesValue := true },
   { name := "--query", takesValue := true }, { name := "--json" }, { name := "--delta" }, { name := "--help" }]

def checkFile (fs : Files) (parameter path : String) : Except Misuse Unit :=
  match fs.find? path with
  | some (.file _) => .ok ()
  | some .folder => .error (.fileIsFolder parameter path)
  | none => .error (.fileMissing parameter path)

def checkConfig (fs : Files) : Option String → Except Misuse Unit
  | none => .ok ()
  | some path => checkFile fs "--config" path

def checkRest (words : List String) : Except Misuse Unit :=
  if words.isEmpty then .ok () else .error (.extraArguments words)

def legendRequest (fs : Files) (verbose : Bool) (args : List String) : Except Misuse Request := do
  let ws ← readOptions legendOptions true args
  if ws.has "--help" then return .help .legend
  let config := ws.value? "--config"
  checkConfig fs config
  checkRest ws.rest
  return .legend verbose { config, json := ws.has "--json" }

def tokensRequest (fs : Files) (verbose : Bool) (args : List String) : Except Misuse Request := do
  let ws ← readOptions tokensOptions true args
  if ws.has "--help" then return .help .tokens
  let config := ws.value? "--config"
  checkConfig fs config
  match ws.rest with
  | [] => throw (.argumentMissing "PATH")
  | path :: rest =>
    checkFile fs "PATH" path
    checkRest rest
    return .tokens verbose
      { path, config, grammar := ws.value? "--grammar", queries := ws.values "--query",
        json := ws.has "--json", delta := ws.has "--delta" }

def standalone? (ws : Words) : Option Request :=
  ws.given.findSome? fun g =>
    if g.name = "--version" then some .version else if g.name = "--help" then some (.help .program) else none

/-- A word in the place of a command that looks like an option is read as one once more. -/
def unknownCommand (name : String) : Except Misuse Request := do
  if !name.isEmpty && !(name.toList.head?.any Char.isAlphanum) then
    let ws ← readOptions programOptions false [name]
    match standalone? ws with
    | some r => return r
    | none => throw (.noSuchCommand name)
  else throw (.noSuchCommand name)

def inScope {α : Type} (scope : Scope) (r : Except Misuse α) : Except Complaint α :=
  r.mapError fun misuse => ⟨scope, misuse⟩

def Request.ofArgs (fs : Files) (args : List String) : Except Complaint Request := do
  if args.isEmpty then return .help .program
  let ws ← inScope .program (readOptions programOptions false args)
  match standalone? ws with
  | some r => return r
  | none =>
    let verbose := ws.has "--verbose"
    match ws.rest with
    | [] => throw ⟨.program, .commandMissing⟩
    | name :: rest =>
      if name = "legend" then inScope .legend (legendRequest fs verbose rest)
      else if name = "tokens" then inScope .tokens (tokensRequest fs verbose rest)
      else inScope .program (unknownCommand name)

end Tinct.Command
