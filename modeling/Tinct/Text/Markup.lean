import Tinct.Text.Blank
import Tinct.Text.Lower
import Tinct.Fault

/-! Marked-up text as a console shows it: tags in square brackets disappear. A tag begins with a small letter, `#`,
`@` or `/`. Of the backslashes before a tag each pair stands for one, and an odd one keeps the tag as text. A
closing tag takes the last open tag of its style, or the last one of all if it names none. -/
namespace Tinct.Text.Markup

def startsTag (c : Char) : Bool := c.isLower || c = '#' || c = '@' || c = '/'

def tag? : Text → Option (Text × Text)
  | '[' :: c :: rest =>
    let body := rest.takeWhile fun ch => ch ≠ ']' && ch ≠ '['
    match rest.drop body.length with
    | ']' :: after => if startsTag c then some (c :: body, after) else none
    | _ => none
  | _ => none

def unescape : Text → Text
  | [] => []
  | '\\' :: '[' :: rest => '[' :: unescape rest
  | c :: rest => c :: unescape rest

def styles : List (List String) :=
  [["bold", "b"], ["dim", "d"], ["italic", "i"], ["underline", "u"], ["blink"], ["blink2"], ["reverse", "r"],
   ["conceal", "c"], ["strike", "s"], ["underline2", "uu"], ["frame"], ["encircle"], ["overline", "o"]]

def words (current : Text) : Text → List Text
  | [] => if current.isEmpty then [] else [current.reverse]
  | c :: rest =>
    if isBlank c then (if current.isEmpty then words [] rest else current.reverse :: words [] rest)
    else words (c :: current) rest

def styleName (t : Text) : String :=
  let ws := (words [] t).map fun w => Text.lower (String.ofList w)
  if ws = [] then "none"
  else if ws.all fun w => styles.any (·.contains w) then
    String.intercalate " " ((styles.filter fun s => ws.any s.contains).map (·.headD ""))
  else Text.lower (String.ofList (strip t))

def close (name : String) : List String → Option (List String)
  | [] => none
  | s :: rest => if s = name then some rest else (close name rest).map (s :: ·)

def applyTag (opened : List String) (tag : Text) : Except Failure (List String) :=
  let name := tag.takeWhile (· ≠ '=')
  match name with
  | '/' :: style =>
    let next? := if (strip style).isEmpty then opened.tail? else close (styleName style) opened
    match next? with
    | some next => .ok next
    | none => .error (.foreign "MarkupError" ("closing tag '[" ++ String.ofList tag ++ "]' doesn't match any open tag"))
  | _ => .ok (styleName name :: opened)

def scan : Nat → List String → Text → Text → Text → Except Failure Text
  | 0, _, pending, shown, _ => .ok (shown ++ unescape pending)
  | fuel + 1, opened, pending, shown, t =>
    let slashes := t.takeWhile (· = '\\')
    let rest := t.drop slashes.length
    match tag? rest with
    | some (tag, after) => do
      let shown := shown ++ unescape pending ++ List.replicate (slashes.length / 2) '\\'
      if slashes.length % 2 = 1 then scan fuel opened [] (shown ++ '[' :: tag ++ [']']) after
      else scan fuel (← applyTag opened tag) [] shown after
    | none =>
      match rest with
      | [] => .ok (shown ++ unescape (pending ++ slashes))
      | c :: rest => scan fuel opened (pending ++ slashes ++ [c]) shown rest

def isStripped (c : Char) : Bool := [7, 8, 11, 12, 13].contains c.toNat

def render (t : Text) : Except Failure Text := do
  let shown ← scan (t.length + 1) [] [] [] t
  .ok (shown.filter fun c => !isStripped c)

end Tinct.Text.Markup
