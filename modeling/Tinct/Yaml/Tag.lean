import Tinct.Yaml.Token
import Tinct.Json.Reader

/-! Tags, directives, anchors and aliases as they are written. -/
namespace Tinct.Yaml

def readName (c : Cursor) : Reading (String × Cursor) := do
  let name := c.takeWhile isNameChar
  guardThat (!name.isEmpty)
  return (String.ofList name, c.skip name.length)

def readAnchor (c : Cursor) : Reading (String × Cursor) := do
  let (name, c) ← readName c.next
  guardThat (isGap c.peek || (c.peek.any fun ch => "?:,]\x7d%@`".toList.contains ch))
  return (name, c)

def isTagChar (c : Char) : Bool := c.isAlphanum || "-;/?:@&=+$,_.!~*\x27()[]%".toList.contains c

def percentOctets : Nat → Octets → Cursor → Reading (Octets × Cursor)
  | 0, _, _ => throw .malformed
  | fuel + 1, acc, c =>
    match c.rest with
    | '%' :: a :: b :: _ =>
      match Json.hexOf? a, Json.hexOf? b with
      | some a, some b => percentOctets fuel (acc ++ [UInt8.ofNat (a * 16 + b)]) (c.skip 3)
      | _, _ => throw .malformed
    | '%' :: _ => throw .malformed
    | _ => return (acc, c)

def tagText : Nat → Text → Cursor → Reading (Text × Cursor)
  | 0, _, _ => throw .malformed
  | fuel + 1, acc, c =>
    match c.peek with
    | some '%' => do
      let (octets, c) ← percentOctets (c.rest.length + 1) [] c
      match octets.text? with
      | some t => tagText fuel (acc ++ t) c
      | none => throw .malformed
    | some ch => if isTagChar ch then tagText fuel (acc ++ [ch]) c.next else return (acc, c)
    | none => return (acc, c)

def readTagText (c : Cursor) : Reading (String × Cursor) := do
  let (t, after) ← tagText (c.rest.length + 1) [] c
  guardThat (after.index ≠ c.index)
  return (String.ofList t, after)

def readHandle (c : Cursor) : Reading (String × Cursor) := do
  guardThat (c.isAt '!')
  if c.peek 1 = some ' ' then return ("!", c.next)
  let name := c.next.takeWhile isNameChar
  let after := c.skip (name.length + 1)
  guardThat (after.isAt '!')
  return (String.ofList ('!' :: name ++ ['!']), after.next)

def readTag (c : Cursor) : Reading (Tag × Cursor) := do
  let (tag, c) ←
    if c.peek 1 = some '<' then do
      let (suffix, c) ← readTagText (c.skip 2)
      guardThat (c.isAt '>')
      pure (Tag.mk none suffix, c.next)
    else if isGap (c.peek 1) then pure (Tag.mk none "!", c.next)
    else if (c.next.takeWhile fun ch => !endsWord (some ch)).contains '!' then do
      let (handle, c) ← readHandle c
      let (suffix, c) ← readTagText c
      pure (Tag.mk (some handle) suffix, c)
    else do
      let (suffix, c) ← readTagText c.next
      pure (Tag.mk (some "!") suffix, c)
  guardThat (endsWord c.peek)
  return (tag, c)

def readDigits (c : Cursor) : Reading (Nat × Cursor) := do
  let ds := c.takeWhile Char.isDigit
  guardThat (!ds.isEmpty)
  return (Json.natOf ds, c.skip ds.length)

def readVersion (c : Cursor) : Reading (Token × Cursor) := do
  let (major, c) ← readDigits c.dropSpaces
  guardThat (c.isAt '.')
  let (_, c) ← readDigits c.next
  guardThat (endsWord c.peek)
  return (.version major, c)

def readTagHandle (c : Cursor) : Reading (Token × Cursor) := do
  let (handle, c) ← readHandle c.dropSpaces
  guardThat (c.isAt ' ')
  let (expansion, c) ← readTagText c.dropSpaces
  guardThat (endsWord c.peek)
  return (.tagHandle handle expansion, c)

def readDirective (c : Cursor) : Reading (Token × Cursor) := do
  let (name, c) ← readName c.next
  guardThat (endsWord c.peek)
  let (token, c) ←
    if name = "YAML" then readVersion c
    else if name = "TAG" then readTagHandle c
    else pure (.otherDirective, c.dropWhile fun ch => !isBreak ch)
  return (token, ← c.endLine)

end Tinct.Yaml
