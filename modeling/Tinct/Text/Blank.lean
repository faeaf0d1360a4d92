import Tinct.Text.Ranges

/-! Blank characters and line breaks. Surrounding blanks are those of every script; a text is cut into lines at
more characters than the newline alone, and the carriage return with a newline after it is one break. -/
namespace Tinct.Text

def blankRanges : Ranges := [(0x9, 0xd), (0x1c, 0x20), (0x85, 0x85), (0xa0, 0xa0), (0x1680, 0x1680),
    (0x2000, 0x200a), (0x2028, 0x2029), (0x202f, 0x202f), (0x205f, 0x205f), (0x3000, 0x3000)]

def isBlank (c : Char) : Bool := blankRanges.contains c

def strip (t : List Char) : List Char := ((t.dropWhile isBlank).reverse.dropWhile isBlank).reverse

def breakRanges : Ranges := [(0xa, 0xd), (0x1c, 0x1e), (0x85, 0x85), (0x2028, 0x2029)]

def isBreak (c : Char) : Bool := breakRanges.contains c

/-- The lines of a text, without their breaks. A text that ends in a break has no empty line after it. -/
def linesFrom (current : List Char) : List Char → List (List Char)
  | [] => if current.isEmpty then [] else [current.reverse]
  | '\r' :: '\n' :: rest => current.reverse :: linesFrom [] rest
  | c :: rest => if isBreak c then current.reverse :: linesFrom [] rest else linesFrom (c :: current) rest

def lines (t : List Char) : List (List Char) := linesFrom [] t

def newlines : List Char → List Char
  | [] => []
  | '\r' :: '\n' :: rest => '\n' :: newlines rest
  | c :: rest => (if c = '\r' then '\n' else c) :: newlines rest

end Tinct.Text
