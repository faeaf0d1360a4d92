import Tinct.Text.Octets

/-! Positions as (row, column). Rows are cut at the newline octet only. Offsets outside the data stand for its
nearest end. Columns are counted in octets by `pointAt` and turned into character columns by `charPoint`. -/
namespace Tinct

structure Point where
  row : Int
  column : Int
  deriving DecidableEq, Repr

namespace Octets

def newline : UInt8 := 10

def advance (p : Point) (b : UInt8) : Point :=
  if b = newline then ⟨p.row + 1, 0⟩ else ⟨p.row, p.column + 1⟩

def pointFrom (p : Point) (data : Octets) : Point := data.foldl advance p

def pointAt (data : Octets) (offset : Int) : Point := pointFrom ⟨0, 0⟩ (data.take offset.toNat)

theorem pointFromAppend (p : Point) (a b : Octets) :
    pointFrom p (a ++ b) = pointFrom (pointFrom p a) b := by
  simp [pointFrom]

def rows : Octets → List Octets
  | [] => [[]]
  | b :: rest =>
    if b = newline then [] :: rows rest
    else match rows rest with
      | [] => [[b]]
      | r :: rs => (b :: r) :: rs

theorem rowsSome (data : Octets) : rows data ≠ [] := by
  cases data with
  | nil => simp [rows]
  | cons b rest =>
    simp only [rows]
    split
    · simp
    · split <;> simp

def isAscii (data : Octets) : Bool := data.all fun b => b < 0x80

def rowAt? (rows : List Octets) (row : Int) : Option Octets :=
  if row < 0 then rows[(rows.length + row).toNat]? else rows[row.toNat]?

def upTo (line : Octets) (column : Int) : Octets :=
  line.take (if column < 0 then (line.length + column).toNat else column.toNat)

/-- A position with its octet column turned into a character column. Past the last row, and on a row of
ASCII, the two are the same. -/
def charPoint (rows : List Octets) (p : Point) : Point :=
  match rowAt? rows p.row with
  | none => p
  | some line => if isAscii line then p else ⟨p.row, charCount (upTo line p.column)⟩

end Octets

namespace Text

def rows : Text → List Text
  | [] => [[]]
  | c :: rest =>
    if c = '\n' then [] :: rows rest
    else match rows rest with
      | [] => [[c]]
      | r :: rs => (c :: r) :: rs

end Text
end Tinct
