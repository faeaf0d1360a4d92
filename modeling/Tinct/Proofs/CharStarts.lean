import Tinct.Proofs.CaptureOrder
import Tinct.Proofs.CharBoundaries

/-! Characters counted by where they start. The octets of a row up to a column decode to as many pieces as characters start
before the column: a character that the column cuts has begun, and what is left of it is one damaged piece. No sequence
has to be looked at for that, since a part of one decodes to no more than the whole, and to something if it is not empty. -/
namespace Tinct

namespace Text

def startsBefore (row : Text) (column : Nat) : Nat :=
  (List.range row.length).countP fun (i : Nat) => row.octetOffset i < column

theorem startsNone (row : Text) : row.startsBefore 0 = 0 := by
  simp [startsBefore]

theorem startsCons (c : Char) (row : Text) {column : Nat} (begun : 0 < column) :
    startsBefore (c::row) column = row.startsBefore (column - (String.utf8EncodeChar c).length) + 1 := by
  have later : ∀ i : Nat, (octetOffset (c::row) (i + 1 : Nat) < column) ↔
      row.octetOffset i < column - (String.utf8EncodeChar c).length := by
    intro i
    rw [octetOffsetCons]
    omega
  have first : octetOffset (c::row) (0 : Nat) < column := begun
  rw [startsBefore,List.length_cons,List.range_succ_eq_map,List.countP_cons,List.countP_map,if_pos (decide_eq_true first)]
  simp only [Function.comp_def,Nat.succ_eq_add_one,later]
  rfl

end Text

namespace Octets

theorem decodeSome {data : Octets} (filled : data ≠ []) : 1 ≤ charCount data := by
  cases data with
  | nil => contradiction
  | cons b data =>
    rw [charCount,decode,decodeFrom]
    split
    · exact Nat.le_add_left 1 _
    · exact pendingCounts _ _

theorem charCountChar (c : Char) (rest : Octets) : charCount (String.utf8EncodeChar c ++ rest) = charCount rest + 1 := by
  rw [charCount,decode,decodeChar,List.length_cons,charCount,decode]

theorem charCut (c : Char) {column : Nat} (begun : 0 < column) :
    charCount ((String.utf8EncodeChar c).take column) = 1 := by
  have whole : charCount (String.utf8EncodeChar c) = 1 := by
    have alone := charCountChar c []
    rwa [List.append_nil] at alone
  have most := decodeGrows none ((String.utf8EncodeChar c).take column) ((String.utf8EncodeChar c).drop column)
  rw [List.take_append_drop] at most
  have least : 1 ≤ charCount ((String.utf8EncodeChar c).take column) := by
    apply decodeSome
    obtain ⟨b,more,shape,_⟩ := charShape c
    obtain ⟨k,rfl⟩ := Nat.exists_eq_succ_of_ne_zero (Nat.pos_iff_ne_zero.mp begun)
    rw [shape,List.take_succ_cons]
    exact List.cons_ne_nil _ _
  exact Nat.le_antisymm (Nat.le_trans most (Nat.le_of_eq whole)) least

theorem charCountTake (row : Text) (column : Nat) : charCount (row.octets.take column) = row.startsBefore column := by
  induction row generalizing column with
  | nil => simp [charCount,decode,decodeFrom,Text.startsBefore]
  | cons c row ih =>
    rcases Nat.eq_zero_or_pos column with rfl | begun
    · rw [List.take_zero,Text.startsNone]
      rfl
    · rw [Text.octetsCons,Text.startsCons c row begun]
      rcases Nat.le_total (String.utf8EncodeChar c).length column with past | within
      · rw [List.take_append,List.take_of_length_le past,charCountChar,ih]
      · rw [List.take_append_of_le_length within,charCut c begun,Nat.sub_eq_zero_of_le within,Text.startsNone]

theorem asciiCount {data : Octets} (ascii : isAscii data = true) : charCount data = data.length := by
  induction data with
  | nil => rfl
  | cons b data ih =>
    rw [isAscii,List.all_cons,Bool.and_eq_true] at ascii
    have one : lead b = .piece (.char (Char.ofNat b.toNat)) := if_pos (of_decide_eq_true ascii.1)
    rw [charCount,decode,decodeFrom,one]
    exact congrArg (· + 1) (ih ascii.2)

theorem charPointDecoded {rows : List Octets} {line : Octets} {r k : Nat} (found : rows[r]? = some line)
    (inside : k ≤ line.length) : charPoint rows ⟨r,k⟩ = ⟨r,(decode (line.take k)).length⟩ := by
  have natural : ∀ n : Nat, ¬ (n : Int) < 0 := by
    intro n
    omega
  have row : rowAt? rows r = some line := by rw [rowAt?,if_neg (natural r),Int.toNat_natCast,found]
  simp only [charPoint,row]
  split
  · rename_i ascii
    have small : isAscii (line.take k) = true := by
      rw [isAscii,List.all_eq_true] at ascii ⊢
      exact fun b member => ascii b (List.mem_of_mem_take member)
    have count := asciiCount small
    rw [charCount,List.length_take,Nat.min_eq_left inside] at count
    rw [count]
  · rw [upTo,if_neg (natural k),Int.toNat_natCast,charCount]

structure TurnsBy (rows : List Octets) (r : Nat) (row : Text) : Prop where
  counted : ∀ k ≤ row.octets.length, charPoint rows ⟨r,k⟩ = ⟨r,row.startsBefore k⟩
  monotone : ∀ j k, j ≤ k → k ≤ row.octets.length → (charPoint rows ⟨r,j⟩).column ≤ (charPoint rows ⟨r,k⟩).column
  decoded : ∀ k ≤ row.octets.length, charPoint rows ⟨r,k⟩ = ⟨r,(decode (row.octets.take k)).length⟩

theorem columnsCountStarts (t : Text) {r : Nat} {line : Octets} (found : t.octets.rows[r]? = some line) :
    ∃ row : Text, t.rows[r]? = some row ∧ row.octets = line ∧ TurnsBy t.octets.rows r row := by
  have own := found
  rw [rowsText,List.getElem?_map,Option.map_eq_some_iff] at own
  obtain ⟨row,listed,rfl⟩ := own
  refine ⟨row,listed,rfl,?_,?_,?_⟩
  · intro k inside
    rw [charPointDecoded found inside,← charCountTake,charCount]
  · intro j k order inside
    rw [charPointDecoded found inside,charPointDecoded found (Nat.le_trans order inside)]
    exact Int.ofNat_le.mpr (charCountOrder row.octets order)
  · exact fun k inside => charPointDecoded found inside

def cutText : Text := ['a','b','\n','é','😀','c']

theorem cutColumnsCount :
    cutText.octets.rows[1]? = some (Text.octets ['é','😀','c']) ∧
    charPoint cutText.octets.rows ⟨1,4⟩ = ⟨1,2⟩ ∧
    (charPoint cutText.octets.rows ⟨1,2⟩).column ≤ (charPoint cutText.octets.rows ⟨1,4⟩).column ∧
    cutText.octets.rows[0]? = some (Text.octets ['a','b']) ∧
    charPoint cutText.octets.rows ⟨0,1⟩ = ⟨0,(decode ((Text.octets ['a','b']).take 1)).length⟩ := by
  have wide : cutText.octets.rows[1]? = some (Text.octets ['é','😀','c']) := by decide
  have ascii : cutText.octets.rows[0]? = some (Text.octets ['a','b']) := by decide
  obtain ⟨row,listed,_,turns⟩ := columnsCountStarts cutText wide
  cases Option.some.inj (listed.symm.trans (show cutText.rows[1]? = some ['é','😀','c'] by decide))
  obtain ⟨small,among,_,plain⟩ := columnsCountStarts cutText ascii
  cases Option.some.inj (among.symm.trans (show cutText.rows[0]? = some ['a','b'] by decide))
  refine ⟨wide,?_,turns.monotone 2 4 (by decide) (by decide),ascii,plain.decoded 1 (by decide)⟩
  exact (turns.counted 4 (by decide)).trans (by decide)

end Octets
end Tinct
