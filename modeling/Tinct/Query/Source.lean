import Tinct.Text.Octets
import Tinct.Text.Blank
import Tinct.Text.Word

/-! Query sources. A source names a member of a package (`package.path:MEMBER`), names an `.scm` file, or is the
query text itself. Blanks around it do not count for the first two. -/
namespace Tinct.Query

inductive Source where
  | member (package name : Text)
  | file (path : Text)
  | inline (text : Text)
  deriving DecidableEq, Repr

def isPackageChar (c : Char) : Bool := Text.isWord c || c = '.'

def isName (rest : Char → Bool) : Text → Bool
  | [] => false
  | c :: cs => Text.isNameStart c && cs.all rest

def member? (t : Text) : Option (Text × Text) :=
  match t.dropWhile (· ≠ ':') with
  | [] => none
  | _ :: name =>
    let package := t.takeWhile (· ≠ ':')
    if isName isPackageChar package && isName Text.isWord name then some (package, name) else none

def isFile (t : Text) : Bool := !t.contains '\n' && ".scm".toList.isSuffixOf t

def Source.classify (source : Text) : Source :=
  let t := Text.strip source
  match member? t with
  | some (package, name) => .member package name
  | none => if isFile t then .file t else .inline source

def describe (source : Text) : Text :=
  match Text.lines (Text.strip source) with
  | [] => []
  | first :: _ => if first.length ≤ 60 then first else first.take 57 ++ "...".toList

end Tinct.Query
