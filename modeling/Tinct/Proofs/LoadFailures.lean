import Tinct.Proofs.IssueOrder
import Tinct.Proofs.LayerFiles

/-! Every way in which settings fail to load, whatever reads the documents. A named file that is missing, a file that holds
no mapping and a value that is not taken are reported with a code, the last with the dotted place of the first issue. Five
causes are not: a file that is no text, a text over which its reader raises something of its own, a key of a file that is no
text, a variable that holds no JSON where it should, and a log file in the home folder of a user without an account. -/
namespace Tinct.Settings
open Value (fieldOf)

section
variable (tools : Tools) (fs : Files) (path : Path)

inductive Unreadable : String → Prop
  | flawed {data : Octets} {t : Text} {reason : String} (found : fs.read? path.text = some data)
      (text : Files.textOf data = .ok t) (flawed : tools.document t = .flawed reason) : Unreadable reason
  | unmapped {data : Octets} {t : Text} {v : Value} (found : fs.read? path.text = some data)
      (text : Files.textOf data = .ok t) (parsed : tools.document t = .value v) (something : v ≠ .null)
      (other : v.asMap? = none) : Unreadable "top level must be a mapping"

end

section
variable {tools : Tools} {fs : Files} {path : Path} {search : Search} {f : Failure}

end

section
variable {env : Environment} {name : String} {fields : Table String Bool} {f : Failure}

end

section
variable (tools : Tools) (fs : Files) (env : Environment) (search : Search) (given : Value.Fields)

end

section
variable {tools : Tools} {fs : Files} {env : Environment} {search : Search} {given : Value.Fields} {f : Failure}

end

example : load plainTools {} [] {} [("tokens",.map [("strict_types",.null)]),
      ("logging",.map [("outputs",.list [.map [],.map [("format",.text "xml")]])])] =
    .error (.fault (.configInvalid "logging.outputs.1.format" (.text "xml") "Input should be 'json' or 'console'")) := by
  decide +kernel

end Tinct.Settings
