import Tinct.Text.Position
import Mathlib.Data.List.Basic

/-! The octets of one character. Read from a boundary they give the character back, whatever follows; the newline
octet stands for the newline alone, and an octet below 0x80 is a whole character. From there: the characters of a
text are as many as its octets decode to, and its rows are those of its octets. -/
namespace Tinct
namespace Octets

theorem leadOne {n : Nat} (high : n < 128) : lead (UInt8.ofNat n) = .piece (.char (Char.ofNat n)) := by
  have value := UInt8.toNat_ofNat_of_lt' (show n < 256 by omega)
  simp [lead,UInt8.lt_iff_toNat_lt,value,high]

theorem leadTwo {n : Nat} (low : 194 ≤ n) (high : n < 224) :
    lead (UInt8.ofNat n) = .sequence ⟨0x80,0xbf,0,n % 32⟩ := by
  have value := UInt8.toNat_ofNat_of_lt' (show n < 256 by omega)
  have first : ¬ n < 128 := by omega
  have second : ¬ n < 194 := by omega
  simp [lead,UInt8.lt_iff_toNat_lt,value,first,second,high]

theorem leadThree {n : Nat} (low : 224 ≤ n) (high : n < 240) :
    lead (UInt8.ofNat n) =
      .sequence ⟨if n = 224 then 0xa0 else 0x80,if n = 237 then 0x9f else 0xbf,1,n % 16⟩ := by
  have value := UInt8.toNat_ofNat_of_lt' (show n < 256 by omega)
  have first : ¬ n < 128 := by omega
  have second : ¬ n < 194 := by omega
  have third : ¬ n < 224 := by omega
  simp [lead,UInt8.lt_iff_toNat_lt,← UInt8.toNat_inj,value,first,second,third,high]

theorem leadFour {n : Nat} (low : 240 ≤ n) (high : n < 245) :
    lead (UInt8.ofNat n) =
      .sequence ⟨if n = 240 then 0x90 else 0x80,if n = 244 then 0x8f else 0xbf,2,n % 8⟩ := by
  have value := UInt8.toNat_ofNat_of_lt' (show n < 256 by omega)
  have first : ¬ n < 128 := by omega
  have second : ¬ n < 194 := by omega
  have third : ¬ n < 224 := by omega
  have fourth : ¬ n < 240 := by omega
  simp [lead,UInt8.lt_iff_toNat_lt,← UInt8.toNat_inj,value,first,second,third,fourth,high]

theorem decodeStart {b : UInt8} {p : Pending} (starts : lead b = .sequence p) (rest : Octets) :
    decodeFrom none (b::rest) = decodeFrom (some p) rest := by
  simp only [decodeFrom,starts]

theorem decodeLast {p : Pending} {n : Nat} (small : n < 256) (low : p.lo.toNat ≤ n) (high : n ≤ p.hi.toNat)
    (last : p.more = 0) (rest : Octets) :
    decodeFrom (some p) (UInt8.ofNat n::rest) = .char (Char.ofNat (p.bits * 64 + n % 64))::decodeFrom none rest := by
  have value := UInt8.toNat_ofNat_of_lt' small
  simp [decodeFrom,UInt8.le_iff_toNat_le,value,low,high,last]

theorem decodeMore {p : Pending} {n more : Nat} (small : n < 256) (low : p.lo.toNat ≤ n) (high : n ≤ p.hi.toNat)
    (left : p.more = more + 1) (rest : Octets) :
    decodeFrom (some p) (UInt8.ofNat n::rest) =
      decodeFrom (some ⟨0x80,0xbf,more,p.bits * 64 + n % 64⟩) rest := by
  have value := UInt8.toNat_ofNat_of_lt' small
  simp [decodeFrom,UInt8.le_iff_toNat_le,value,low,high,left]

/- How a character is spelled: the digits of its number in base 64, marked as a lead and as continuations. The leads
that allow only part of the continuations leave out overlong forms, surrogates and numbers past the last. -/
inductive Spelled (c : Char) : Octets → Prop where
  | one (low : c.toNat < 128) : Spelled c [UInt8.ofNat c.toNat]
  | two (x y : Nat) (number : c.toNat = x * 64 + y) (long : 2 ≤ x) (first : x < 32) (second : y < 64) :
      Spelled c [UInt8.ofNat (x + 192),UInt8.ofNat (y + 128)]
  | three (x y z : Nat) (number : c.toNat = (x * 64 + y) * 64 + z) (long : x = 0 → 32 ≤ y) (paired : x = 13 → y < 32)
      (first : x < 16) (second : y < 64) (third : z < 64) :
      Spelled c [UInt8.ofNat (x + 224),UInt8.ofNat (y + 128),UInt8.ofNat (z + 128)]
  | four (x y z w : Nat) (number : c.toNat = ((x * 64 + y) * 64 + z) * 64 + w) (long : x = 0 → 16 ≤ y)
      (high : x = 4 → y < 16) (first : x < 5) (second : y < 64) (third : z < 64) (fourth : w < 64) :
      Spelled c [UInt8.ofNat (x + 240),UInt8.ofNat (y + 128),UInt8.ofNat (z + 128),UInt8.ofNat (w + 128)]

theorem charSpelled (c : Char) : Spelled c (String.utf8EncodeChar c) := by
  have valid : c.toNat < 55296 ∨ 57343 < c.toNat ∧ c.toNat < 1114112 := c.valid
  have number : c.val.toNat = c.toNat := rfl
  simp only [String.utf8EncodeChar,number]
  split
  · exact .one (by omega)
  · split
    · refine .two (c.toNat / 64 % 32) (c.toNat % 64) ?_ ?_ ?_ ?_ <;> omega
    · split
      · refine .three (c.toNat / 4096 % 16) (c.toNat / 64 % 64) (c.toNat % 64) ?_ ?_ ?_ ?_ ?_ ?_ <;> omega
      · refine .four (c.toNat / 262144 % 8) (c.toNat / 4096 % 64) (c.toNat / 64 % 64) (c.toNat % 64)
          ?_ ?_ ?_ ?_ ?_ ?_ ?_ <;> omega

theorem decodeChar (c : Char) (rest : Octets) :
    decodeFrom none (String.utf8EncodeChar c ++ rest) = .char c::decodeFrom none rest := by
  have same : ∀ n, n = c.toNat → Char.ofNat n = c := by
    intro n equal
    rw [equal,Char.ofNat_toNat]
  have spelled := charSpelled c
  generalize String.utf8EncodeChar c = data at spelled
  cases spelled with
  | one low => simp only [List.cons_append,List.nil_append,decodeFrom,leadOne low,Char.ofNat_toNat]
  | two x y number long first second =>
    have starts := leadTwo (show 194 ≤ x + 192 by omega) (by omega)
    simp only [List.cons_append,List.nil_append]
    rw [decodeStart starts,decodeLast (by omega) (by simp) (by simp; omega) rfl,same]
    dsimp only
    omega
  | three x y z number long paired first second third =>
    have starts := leadThree (show 224 ≤ x + 224 by omega) (by omega)
    simp only [List.cons_append,List.nil_append]
    rw [decodeStart starts,decodeMore (by omega) ?low ?high rfl,decodeLast (by omega) (by simp) (by simp; omega) rfl,
      same]
    · dsimp only
      omega
    case low =>
      dsimp only
      split
      · simp only [UInt8.reduceToNat]
        omega
      · exact Nat.le_add_left _ _
    case high =>
      dsimp only
      split <;> simp only [UInt8.reduceToNat] <;> omega
  | four x y z w number long high first second third fourth =>
    have starts := leadFour (show 240 ≤ x + 240 by omega) (by omega)
    simp only [List.cons_append,List.nil_append]
    rw [decodeStart starts,decodeMore (by omega) ?low ?high rfl,decodeMore (by omega) (by simp) (by simp; omega) rfl,
      decodeLast (by omega) (by simp) (by simp; omega) rfl,same]
    · dsimp only
      omega
    case low =>
      dsimp only
      split
      · simp only [UInt8.reduceToNat]
        omega
      · exact Nat.le_add_left _ _
    case high =>
      dsimp only
      split <;> simp only [UInt8.reduceToNat] <;> omega

theorem decodeText (t : Text) (rest : Octets) :
    decodeFrom none (t.octets ++ rest) = t.map Piece.char ++ decodeFrom none rest := by
  induction t with
  | nil => rfl
  | cons c t ih => rw [Text.octetsCons,List.append_assoc,decodeChar,ih,List.map_cons,List.cons_append]

theorem charCountText (t : Text) : charCount t.octets = t.length := by
  have decoded := decodeText t []
  simp only [List.append_nil,decodeFrom] at decoded
  rw [charCount,decode,decoded,List.length_map]

theorem charHigh (c : Char) :
    c.toNat < 128 ∧ String.utf8EncodeChar c = [UInt8.ofNat c.toNat] ∨
    String.utf8EncodeChar c ≠ [] ∧ ∀ b ∈ String.utf8EncodeChar c, 128 ≤ b.toNat := by
  have marked : ∀ x mark b, b = UInt8.ofNat (x + mark) → 128 ≤ mark → x + mark < 256 → 128 ≤ b.toNat := by
    intro x mark b same low small
    rw [same,UInt8.toNat_ofNat_of_lt' small]
    omega
  have spelled := charSpelled c
  generalize String.utf8EncodeChar c = data at spelled
  cases spelled with
  | one low => exact .inl ⟨low,rfl⟩
  | two x y number long first second =>
    refine .inr ⟨List.cons_ne_nil _ _,?_⟩
    simp only [List.mem_cons,List.not_mem_nil,or_false]
    rintro b (same | same) <;> exact marked _ _ b same (by omega) (by omega)
  | three x y z number long paired first second third =>
    refine .inr ⟨List.cons_ne_nil _ _,?_⟩
    simp only [List.mem_cons,List.not_mem_nil,or_false]
    rintro b (same | same | same) <;> exact marked _ _ b same (by omega) (by omega)
  | four x y z w number long high first second third fourth =>
    refine .inr ⟨List.cons_ne_nil _ _,?_⟩
    simp only [List.mem_cons,List.not_mem_nil,or_false]
    rintro b (same | same | same | same) <;> exact marked _ _ b same (by omega) (by omega)

theorem newlineChar : String.utf8EncodeChar '\n' = [newline] := by decide

theorem plainChar {c : Char} (other : c ≠ '\n') : ∀ b ∈ String.utf8EncodeChar c, b ≠ newline := by
  rintro b member rfl
  rcases charHigh c with ⟨low,single⟩ | ⟨_,high⟩
  · rw [single] at member
    have value := congrArg UInt8.toNat (List.mem_singleton.mp member)
    rw [UInt8.toNat_ofNat_of_lt' (show c.toNat < 256 by omega)] at value
    exact other (Char.toNat_inj.mp value.symm)
  · exact absurd (high newline member) (by decide)

theorem asciiText {t : Text} (ascii : isAscii t.octets = true) : t.octets.length = t.length := by
  induction t with
  | nil => rfl
  | cons c t ih =>
    rw [Text.octetsCons,isAscii,List.all_append,Bool.and_eq_true] at ascii
    rw [Text.octetsCons,List.length_append,ih ascii.2,List.length_cons]
    rcases charHigh c with ⟨_,single⟩ | ⟨filled,high⟩
    · rw [single,List.length_singleton,Nat.add_comm]
    · obtain ⟨b,rest,shape⟩ := List.exists_cons_of_ne_nil filled
      have member : b ∈ String.utf8EncodeChar c := by simp [shape]
      have low := List.all_eq_true.mp ascii.1 b member
      rw [decide_eq_true_eq,UInt8.lt_iff_toNat_lt] at low
      exact absurd (high b member) (Nat.not_le.mpr low)

theorem rowsPlain {data : Octets} (plain : ∀ b ∈ data, b ≠ newline) (rest : Octets) :
    rows (data ++ rest) = (data ++ (rows rest).headD [])::(rows rest).tail := by
  induction data with
  | nil =>
    cases shape : rows rest with
    | nil => exact absurd shape (rowsSome rest)
    | cons r rs => simp [shape]
  | cons b data ih =>
    have later := ih fun x member => plain x (List.mem_cons_of_mem _ member)
    simp only [List.cons_append,rows,if_neg (plain b List.mem_cons_self),later]

theorem rowsText (t : Text) : rows t.octets = t.rows.map Text.octets := by
  induction t with
  | nil => rfl
  | cons c t ih =>
    rw [Text.octetsCons]
    by_cases same : c = '\n'
    · subst same
      rw [newlineChar]
      simp [rows,Text.rows,ih]
    · rw [rowsPlain (plainChar same),ih]
      simp only [Text.rows,if_neg same]
      cases Text.rows t <;> simp

end Octets
end Tinct
