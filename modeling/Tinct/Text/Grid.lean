import Tinct.Text.Width
import Tinct.Text.Markup

/-! Columns of text on a terminal. A column is as wide as its widest cell; two spaces divide columns, and every cell
is filled up to the width. Tabs count nothing in the width; they are set to every eighth cell when a cell is
written, and what no longer fits is cut off with a sign. -/
namespace Tinct.Text

structure Column where
  title : String
  right : Bool := false
  deriving DecidableEq, Repr

structure Sheet where
  columns : List Column
  rows : List (List Text)
  deriving DecidableEq, Repr

namespace Grid

def spaces (n : Nat) : List Char := List.replicate n ' '

def expandTabs (column : Nat) : List Char → List Char
  | [] => []
  | c :: rest =>
    if c = '\t' then
      let n := 8 - column % 8
      spaces n ++ expandTabs (column + n) rest
    else c :: expandTabs (column + cells c) rest

def cut (width : Nat) : List Char → List Char
  | [] => spaces width
  | c :: rest => if cells c ≤ width then c :: cut (width - cells c) rest else spaces width

def trimExcess (width : Nat) (t : List Char) : List Char :=
  let blanks := (t.reverse.takeWhile isBlank).length
  t.take (t.length - min blanks (t.length - width))

def clip (t : List Char) (limit : Nat) : List Char :=
  let t := trimExcess limit (expandTabs 0 t)
  if limit < width t then cut (limit - 1) t ++ ['…'] else t

def fill (c : Column) (limit : Nat) (t : List Char) : List Char :=
  let t := clip t limit
  let gap := spaces (limit - width t)
  if c.right then gap ++ t else t ++ gap

def titleRow (cs : List Column) : List (List Char) := cs.map fun c => c.title.toList

def columnWidth (rows : List (List (List Char))) (i : Nat) : Nat :=
  (rows.map fun r => width (r.getD i [])).foldl max 0

def line (cs : List Column) (widths : List Nat) (row : List (List Char)) : List Char :=
  let cells := (cs.zip widths).zip row |>.map fun ((c, w), t) => fill c w t
  [' ', ' '].intercalate cells ++ ['\n']

def print (s : Sheet) : Except Failure String := do
  let rows ← s.rows.mapM fun r => r.mapM Markup.render
  let all := titleRow s.columns :: rows
  let widths := (List.range s.columns.length).map (columnWidth all)
  return String.ofList (all.flatMap (line s.columns widths))

end Grid
end Tinct.Text
