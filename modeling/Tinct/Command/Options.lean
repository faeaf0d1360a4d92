import Tinct.Text.Quoted

/-! Options on a command line. A long option takes its value after `=` or as the next word; short ones may stand
together. `--` ends the options. A command takes options among its words, a group only before the first. -/
namespace Tinct.Command

structure OptionSpec where
  name : String
  short : Option Char := none
  takesValue : Bool := false

inductive Misuse where
  | noSuchOption (name : String)
  | valueMissing (name : String)
  | valueUnwanted (name : String)
  | noSuchCommand (name : String)
  | commandMissing
  | argumentMissing (name : String)
  | extraArguments (words : List String)
  | fileMissing (parameter path : String)
  | fileIsFolder (parameter path : String)
  deriving DecidableEq, Repr

namespace Misuse

def message : Misuse → String
  | noSuchOption name => "No such option " ++ Text.quoted name ++ "."
  | valueMissing name => "Option " ++ Text.quoted name ++ " requires an argument."
  | valueUnwanted name => "Option " ++ Text.quoted name ++ " does not take a value."
  | noSuchCommand name => "No such command " ++ Text.quoted name ++ "."
  | commandMissing => "Missing command."
  | argumentMissing name => "Missing argument " ++ Text.quoted name ++ "."
  | extraArguments words =>
    "Got unexpected extra argument" ++ (if words.length = 1 then "" else "s") ++
      " (" ++ String.intercalate " " words ++ ")"
  | fileMissing parameter path =>
    "Invalid value for " ++ Text.quoted parameter ++ ": File " ++ Text.quoted path ++ " does not exist."
  | fileIsFolder parameter path =>
    "Invalid value for " ++ Text.quoted parameter ++ ": File " ++ Text.quoted path ++ " is a directory."

def showsUsage : Misuse → Bool
  | valueMissing _ | valueUnwanted _ => false
  | _ => true

end Misuse

structure Given where
  name : String
  value : Option String := none
  deriving DecidableEq, Repr

structure Words where
  given : List Given := []
  rest : List String := []
  deriving DecidableEq, Repr

def findLong? (specs : List OptionSpec) (name : String) : Option OptionSpec := specs.find? fun s => s.name = name

def shortOptions (specs : List OptionSpec) : List Char → Except Misuse (List Given)
  | [] => .ok []
  | c :: rest =>
    match specs.find? fun s => s.short = some c with
    | none => .error (.noSuchOption (String.ofList ['-', c]))
    | some s => do
      let others ← shortOptions specs rest
      .ok (⟨s.name, none⟩ :: others)

def splitValue (word : String) : String × Option String :=
  let name := word.toList.takeWhile (· ≠ '=')
  match word.toList.drop name.length with
  | '=' :: value => (String.ofList name, some (String.ofList value))
  | _ => (word, none)

def isOption (word : String) : Bool := word.startsWith "-" && 1 < word.length

inductive OptionWord where
  | complete (given : List Given)
  | waiting (name : String)
  deriving DecidableEq, Repr

def readWord (specs : List OptionSpec) (word : String) : Except Misuse OptionWord :=
  let (name, value) := splitValue word
  match findLong? specs name with
  | some s =>
    match s.takesValue, value with
    | true, none => .ok (.waiting name)
    | false, some _ => .error (.valueUnwanted name)
    | _, value => .ok (.complete [⟨name, value⟩])
  | none =>
    if word.startsWith "--" then .error (.noSuchOption name)
    else (shortOptions specs word.toList.tail).map .complete

def Words.add (given : List Given) (ws : Words) : Words := { ws with given := given ++ ws.given }

def readOptions (specs : List OptionSpec) (interspersed : Bool) : List String → Except Misuse Words
  | [] => .ok {}
  | word :: rest =>
    if word = "--" then .ok { rest }
    else if isOption word then
      match readWord specs word with
      | .error misuse => .error misuse
      | .ok (.complete given) => (readOptions specs interspersed rest).map (Words.add given)
      | .ok (.waiting name) =>
        match rest with
        | [] => .error (.valueMissing name)
        | value :: rest => (readOptions specs interspersed rest).map (Words.add [⟨name, some value⟩])
    else if interspersed then
      (readOptions specs interspersed rest).map fun ws => { ws with rest := word :: ws.rest }
    else .ok { rest := word :: rest }

namespace Words

def has (ws : Words) (name : String) : Bool := ws.given.any fun g => g.name = name

def values (ws : Words) (name : String) : List String :=
  ws.given.filterMap fun g => if g.name = name then g.value else none

def value? (ws : Words) (name : String) : Option String := (ws.values name).getLast?

end Words
end Tinct.Command
