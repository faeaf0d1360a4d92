import Std.Time
import Tinct.Command.Run
import Tinct.Yaml.Document

/-! The program on a real machine. It collects the files and variables that a run may look at, runs the command
line on them and prints the report. No grammar packages are installed. -/
namespace Tinct.Machine

def nodeAt? (path : String) : IO (Option FileNode) := do
  try
    let data ← IO.FS.readBinFile path
    return some (.file data.toList)
  catch e =>
    match e with
    | .noFileOrDirectory .. => return none
    | .noSuchThing .. => return none
    | _ => return some .folder

def partsFrom (folder : Path) (path : String) : List String := (folder.join (Path.ofString path)).settled.parts

def collect (folder : Path) (fs : Files) : List String → IO Files
  | [] => return fs
  | path :: rest => do
    let fs ← match ← nodeAt? path with
      | some (.file data) => pure { fs with files := (partsFrom folder path, data) :: fs.files }
      | some .folder => pure { fs with folders := partsFrom folder path :: fs.folders }
      | none => pure fs
    collect folder fs rest

def variableNames : List String :=
  Settings.sectionFields.flatMap fun (name, fields) =>
    let head := "SEMTOK__" ++ name.toUpper
    head :: fields.map fun f => head ++ "__" ++ f.1.toUpper

def environment : IO Settings.Environment := do
  let found ← variableNames.mapM fun name => do
    return (← IO.getEnv name).map fun value => (name, value)
  return found.filterMap id

def tools : Settings.Tools where
  document := Yaml.load "malformed document"
  spelling := fun _ first _ => ⟨first, List.mem_cons_self⟩
  unnamed := fun _ => ("TypeError", "keywords must be strings")
  namesFirst := false

def world (args : List String) : IO Command.World := do
  let folder := Path.ofString (← IO.currentDir).toString
  let home := (← IO.getEnv "HOME").getD "/"
  let base : Files := { working := folder.parts, home }
  let named := args.map fun a => ((Command.splitValue a).2).getD a
  let files ← collect folder base
    ((Settings.userFile base).text :: (Settings.repositoryFile base none).text :: named.filter (· ≠ ""))
  let engine : Query.Engine := { refuses := fun _ => none, run := fun _ _ => [] }
  let now ← Std.Time.PlainDateTime.now
  let id ← IO.rand 0 0xffffffffffff
  return { files
           environment := ← environment
           host := ⟨Query.Grammar.load [] files engine, engine⟩
           tools := tools
           console := Text.Grid.print
           stamp := now.format "uuuu-MM-dd HH:mm:ss"
           requestId := String.ofList (Text.hexDigits 12 id) }

end Tinct.Machine

def main (args : List String) : IO UInt32 := do
  let report := Tinct.Command.run (← Tinct.Machine.world args) args
  IO.print report.output
  IO.eprint report.errors
  if let some cause := report.uncaught then IO.eprintln cause.message
  return UInt32.ofNat report.exitCode
