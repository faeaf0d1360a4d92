import Tinct.Value.Basic

/-! Layering of mappings. The upper layer wins key by key; where both layers hold a mapping under a key the
rule applies again below it, and anything else in the upper layer replaces what was there. -/
namespace Tinct.Value

mutual

def overlay (lower : Value) : Value → Value
  | map us =>
    match lower with
    | map ls => map (overlayEntries ls us)
    | _ => map us
  | v => v

def overlayEntries (ls : Entries) : Entries → Entries
  | [] => ls
  | (k, v) :: rest =>
    overlayEntries (Table.put k (match Table.get? k ls with | some l => overlay l v | none => v) ls) rest

end

def mergeLayers (layers : List Entries) : Entries := layers.foldl overlayEntries []

end Tinct.Value
