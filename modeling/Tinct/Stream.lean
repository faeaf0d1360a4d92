import Tinct.Token
import Tinct.Journal

/-! The encoded token stream: five integers a token. `Encoder` gives names their numbers, `delta` writes
positions relative to the token before, and `undelta` reads them back. -/
namespace Tinct

structure Encoder where
  legend : Legend
  strict : Bool := false

structure Encoded where
  line : Int
  start : Int
  length : Int
  type : Int
  mask : Int
  deriving DecidableEq, Repr

namespace Encoder

def fallbackNotice (l : Legend) (name : String) : Notice :=
  ⟨.warning, "token_type_fallback",
    [("token_type", .text name), ("fallback", ((l.typeName? 0).map Value.text).getD .null)]⟩

def type (e : Encoder) (name : String) : Except Fault Nat × List Notice :=
  match e.legend.typeIndex? name with
  | some i => (.ok i, [])
  | none =>
    if name = outOfLegend then (.ok (e.legend.typeCount + 2), [])
    else if e.strict then (.error (.unknownType name), [])
    else (.ok 0, [fallbackNotice e.legend name])

def modifierBit? (e : Encoder) (name : String) : Option Nat :=
  match e.legend.modifierIndex? name with
  | some i => some i
  | none => if name = outOfLegend then some (e.legend.modifierCount + 2) else none

def mask (e : Encoder) (names : List String) : Nat :=
  names.foldl (fun m n => match e.modifierBit? n with | some i => m ||| 1 <<< i | none => m) 0

def token (e : Encoder) (t : Token) : Except Fault Encoded × List Notice :=
  let (code, notices) := e.type t.type
  (code.map fun c => ⟨t.line, t.start, t.length, c, e.mask t.modifiers⟩, notices)

end Encoder

def deltaFrom (line start : Int) : List Encoded → List Int
  | [] => []
  | t :: rest =>
    let down := t.line - line
    [down, if down = 0 then t.start - start else t.start, t.length, t.type, t.mask] ++
      deltaFrom t.line t.start rest

def delta (tokens : List Encoded) : List Int := deltaFrom 0 0 tokens

def undeltaFrom (line start : Int) : List Int → List Encoded
  | down :: across :: length :: type :: mask :: rest =>
    let line' := line + down
    let start' := if down = 0 then start + across else across
    ⟨line', start', length, type, mask⟩ :: undeltaFrom line' start' rest
  | _ => []

def undelta (data : List Int) : List Encoded := undeltaFrom 0 0 data

structure TokenStream where
  data : List Int
  resultId : Option String := none
  deriving DecidableEq, Repr

def TokenStream.size (s : TokenStream) : Nat := s.data.length / 5

structure Builder where
  encoder : Encoder
  pushed : List Encoded := []

namespace Builder

def push (b : Builder) (t : Token) : Builder × Except Fault Unit × List Notice :=
  match b.encoder.token t with
  | (.ok e, notices) => ({ b with pushed := b.pushed ++ [e] }, .ok (), notices)
  | (.error f, notices) => (b, .error f, notices)

def pushAll (b : Builder) : List Token → Builder × Except Fault Unit × List Notice
  | [] => (b, .ok (), [])
  | t :: rest =>
    match b.push t with
    | (b', .ok (), notices) =>
      let (b'', result, more) := b'.pushAll rest
      (b'', result, notices ++ more)
    | (b', .error f, notices) => (b', .error f, notices)

def encoded (b : Builder) : List Encoded :=
  b.pushed.mergeSort fun x y => x.line < y.line || (x.line = y.line && x.start ≤ y.start)

def build (b : Builder) (resultId : Option String) : TokenStream := ⟨delta b.encoded, resultId⟩

end Builder
end Tinct
