import Tinct.Fault
import Tinct.Text.Blank

/-! Paths and the files that a program may read. A path is kept in reduced form: empty and `.` parts are gone,
`..` stays, and exactly two leading slashes stay two. Files are a value, so a lookup is a function. -/
namespace Tinct

structure Path where
  root : String
  parts : List String
  deriving DecidableEq, Repr

namespace Path

def leadingSlashes (cs : List Char) : Nat := (cs.takeWhile (· = '/')).length

def pieces (s : String) : List String := (s.toList.splitOn '/').map String.ofList

def ofString (s : String) : Path :=
  let slashes := leadingSlashes s.toList
  ⟨if slashes = 0 then "" else if slashes = 2 then "//" else "/",
   (pieces s).filter fun p => p ≠ "" && p ≠ "."⟩

def text (p : Path) : String :=
  if p.root = "" ∧ p.parts = [] then "." else p.root ++ String.intercalate "/" p.parts

def isAbsolute (p : Path) : Bool := p.root ≠ ""

def join (p q : Path) : Path := if q.isAbsolute then q else ⟨p.root, p.parts ++ q.parts⟩

def settled (p : Path) : Path :=
  { p with parts := p.parts.foldl (fun ps part => if part = ".." then ps.dropLast else ps ++ [part]) [] }

def expandHome (home : String) (accounts : Table String String) (p : Path) : Except Failure Path :=
  match p.root, p.parts with
  | "", first :: rest =>
    match first.toList with
    | '~' :: name =>
      let folder? := if name = [] then some home else Table.get? (String.ofList name) accounts
      match folder? with
      | some folder =>
        let base := ofString folder
        .ok ⟨base.root, base.parts ++ rest⟩
      | none => .error .homeless
    | _ => .ok p
  | _, _ => .ok p

end Path

inductive FileNode where
  | file (data : Octets)
  | folder
  deriving DecidableEq, Repr

structure Files where
  files : List (List String × Octets) := []
  folders : List (List String) := []
  working : List String := []
  home : String := "/"
  accounts : Table String String := []

namespace Files

def isFolder (fs : Files) (parts : List String) : Bool :=
  parts.isPrefixOf fs.working || fs.folders.any (fun f => parts.isPrefixOf f) ||
    fs.files.any fun e => parts.isPrefixOf e.1 && parts.length < e.1.length

def node? (fs : Files) (parts : List String) : Option FileNode :=
  match Table.get? parts fs.files with
  | some data => some (.file data)
  | none => if fs.isFolder parts then some .folder else none

def walk (fs : Files) (here : List String) : List String → Option (List String)
  | [] => some here
  | piece :: rest =>
    if !fs.isFolder here then none
    else if piece = "" ∨ piece = "." then fs.walk here rest
    else if piece = ".." then fs.walk here.dropLast rest
    else
      let next := here ++ [piece]
      if (fs.node? next).isSome then fs.walk next rest else none

def locate? (fs : Files) (path : String) : Option (List String) :=
  if path.isEmpty then none
  else fs.walk (if path.startsWith "/" then [] else fs.working) (Path.pieces path)

def find? (fs : Files) (path : String) : Option FileNode := (fs.locate? path).bind fs.node?

def read? (fs : Files) (path : String) : Option Octets :=
  match fs.find? path with
  | some (.file data) => some data
  | _ => none

def textOf (data : Octets) : Except Failure Text :=
  match data.text? with
  | some t => .ok (Text.newlines t)
  | none => .error (.undecodable (data.damage?.getD ⟨0, data.length, 0, .badStart⟩))

end Files
end Tinct
