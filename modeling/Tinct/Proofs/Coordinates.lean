import Tinct.Proofs.CharOctets
import Tinct.Proofs.StreamContent

/-! Octet positions and character positions of one text. The position of a character offset, counted in octets and
turned back into characters, is the row that the newlines before the offset give and the distance from the last of
them. So a node that lies on one row becomes the token that stands, on that row, exactly on the node's text. -/
namespace Tinct
namespace Text

def lineStart (t : Text) : Nat → Nat
  | 0 => 0
  | i+1 => if t[i]? = some '\n' then i + 1 else lineStart t i

def slice (t : Text) (i j : Nat) : Text := (t.take j).drop i

def lastRow (t : Text) : Text := (t.reverse.takeWhile (· ≠ '\n')).reverse

theorem lastRowBreak (t : Text) : lastRow (t ++ ['\n']) = [] := by
  simp [lastRow]

theorem lastRowPlain (t : Text) {more : Text} (plain : '\n' ∉ more) : lastRow (t ++ more) = lastRow t ++ more := by
  have all : ∀ c ∈ more.reverse, decide (c ≠ '\n') = true := by
    intro c member
    simp only [ne_eq,decide_eq_true_eq]
    rintro rfl
    exact plain (List.mem_reverse.mp member)
  rw [lastRow,List.reverse_append,List.takeWhile_append_of_pos all,List.reverse_append,List.reverse_reverse,lastRow]

theorem unbroken {c : Char} (other : c ≠ '\n') : '\n' ∉ [c] := by
  simpa using fun equal => other equal.symm

theorem lastRowLength {t : Text} {i : Nat} (inside : i ≤ t.length) :
    (lastRow (t.take i)).length + t.lineStart i = i := by
  induction i with
  | zero => rfl
  | succ i ih =>
    have before := ih (Nat.le_of_succ_le inside)
    have here := List.getElem?_eq_getElem (show i < t.length by omega)
    rw [List.take_add_one,here,lineStart,here,Option.toList_some]
    by_cases same : t[i] = '\n'
    · rw [same,lastRowBreak,if_pos rfl,List.length_nil,Nat.zero_add]
    · rw [lastRowPlain _ (unbroken same),List.length_append,List.length_singleton,if_neg (by simpa using same)]
      omega

theorem rowsLength (t : Text) : (rows t).length = t.count '\n' + 1 := by
  induction t with
  | nil => rfl
  | cons c t ih =>
    simp only [rows]
    split
    · rename_i same
      simp [same,ih]
    · rename_i other
      rw [List.count_cons_of_ne other]
      split
      · rename_i empty
        simp [empty] at ih
      · rename_i shape
        rw [← ih,shape]
        rfl

theorem rowsFirst (t : Text) : (rows t)[0]? = some (t.takeWhile (· ≠ '\n')) := by
  induction t with
  | nil => rfl
  | cons c t ih =>
    simp only [rows]
    split
    · rename_i same
      simp [same]
    · rename_i other
      cases shape : rows t with
      | nil => simp [shape] at ih
      | cons r rs =>
        rw [shape] at ih
        simp [other,Option.some.inj ih]

theorem rowsBreak (s t : Text) : rows (s ++ '\n'::t) = rows s ++ rows t := by
  induction s with
  | nil => simp [rows]
  | cons c s ih =>
    simp only [List.cons_append,rows,ih]
    split
    · rfl
    · cases shape : rows s with
      | nil =>
        have long := rowsLength s
        simp [shape] at long
      | cons r rs => rfl

theorem rowAt (s t : Text) : (rows (s ++ t))[s.count '\n']? = some (lastRow s ++ t.takeWhile (· ≠ '\n')) := by
  induction s using List.reverseRecOn generalizing t with
  | nil => exact rowsFirst t
  | append_singleton s c ih =>
    rw [List.append_assoc,List.singleton_append]
    by_cases same : c = '\n'
    · subst same
      have index : (s ++ ['\n']).count '\n' = (rows s).length := by simp [rowsLength]
      rw [rowsBreak,lastRowBreak,index,List.getElem?_append_right (Nat.le_refl _),Nat.sub_self,rowsFirst,List.nil_append]
    · have count : (s ++ [c]).count '\n' = s.count '\n' := by simp [List.count_append,same]
      rw [lastRowPlain s (unbroken same),count,ih]
      simp [same]

end Text

namespace Octets

theorem pointPlain (p : Point) {data : Octets} (plain : ∀ b ∈ data, b ≠ newline) :
    pointFrom p data = ⟨p.row,p.column + data.length⟩ := by
  induction data generalizing p with
  | nil => simp [pointFrom]
  | cons b data ih =>
    have later := ih (advance p b) fun x member => plain x (List.mem_cons_of_mem _ member)
    rw [advance,if_neg (plain b List.mem_cons_self)] at later
    change pointFrom (advance p b) data = _
    rw [advance,if_neg (plain b List.mem_cons_self),later]
    simp only [List.length_cons,Point.mk.injEq,true_and]
    omega

theorem pointText (s : Text) : pointFrom ⟨0,0⟩ s.octets = ⟨s.count '\n',(Text.lastRow s).octets.length⟩ := by
  induction s using List.reverseRecOn with
  | nil => rfl
  | append_singleton s c ih =>
    rw [Text.octetsAppend,pointFromAppend,ih]
    by_cases same : c = '\n'
    · subst same
      rw [Text.lastRowBreak,Text.octetsCons,newlineChar]
      simp [pointFrom,advance]
    · have octets : Text.octets [c] = String.utf8EncodeChar c := by simp
      rw [Text.lastRowPlain s (Text.unbroken same),Text.octetsAppend,octets,pointPlain _ (plainChar same),List.length_append]
      simp [List.count_append,same]

theorem charPointText (s t : Text) :
    charPoint (Text.octets (s ++ t)).rows ⟨s.count '\n',(Text.lastRow s).octets.length⟩ =
      ⟨s.count '\n',(Text.lastRow s).length⟩ := by
  have row := Text.rowAt s t
  have natural : ¬ ((s.count '\n' : Int) < 0) := by omega
  have start : ¬ (((Text.lastRow s).octets.length : Int) < 0) := by omega
  have line : rowAt? (Text.octets (s ++ t)).rows (s.count '\n') =
      some (Text.octets (Text.lastRow s ++ t.takeWhile (· ≠ '\n'))) := by
    rw [rowAt?,if_neg natural,Int.toNat_natCast,rowsText,List.getElem?_map,row,Option.map_some]
  simp only [charPoint,line]
  split
  · rename_i ascii
    rw [Text.octetsAppend,isAscii,List.all_append,Bool.and_eq_true] at ascii
    rw [asciiText ascii.1]
  · rw [upTo,if_neg start,Int.toNat_natCast,Text.octetsAppend,List.take_left,charCountText]

theorem charPointAt (t : Text) (i : Nat) :
    charPoint t.octets.rows (t.octets.pointAt (t.octetOffset i)) =
      ⟨(t.take i).count '\n',(Text.lastRow (t.take i)).length⟩ := by
  have point : t.octets.pointAt (t.octetOffset i) =
      ⟨(t.take i).count '\n',(Text.lastRow (t.take i)).octets.length⟩ := by
    rw [pointAt,Int.toNat_natCast,Text.octetsTake,pointText]
  have turned := charPointText (t.take i) (t.drop i)
  rw [List.take_append_drop] at turned
  rw [point,turned]

end Octets

structure Query.Node.Covers (n : Query.Node) (t : Text) (i j : Nat) : Prop where
  order : i ≤ j
  inside : j ≤ t.length
  oneRow : '\n' ∉ t.slice i j
  start : n.start = t.octets.pointAt (t.octetOffset i)
  stop : n.stop = t.octets.pointAt (t.octetOffset j)

structure Token.Spells (token : Token) (t : Text) (i j : Nat) : Prop where
  line : token.line = ((t.take i).count '\n' : Nat)
  start : token.start = i - t.lineStart i
  length : token.length = j - i
  text : ∃ row, t.rows[token.line.toNat]? = some row ∧
    (row.drop token.start.toNat).take token.length.toNat = t.slice i j

def Query.Node.capture (rows : List Octets) (name : String) (n : Query.Node) : Capture :=
  ⟨name,Octets.charPoint rows n.start,Octets.charPoint rows n.stop⟩

theorem takeSlice (t : Text) {i j : Nat} (order : i ≤ j) : t.take j = t.take i ++ t.slice i j := by
  have cut := List.take_append_drop i (t.take j)
  rw [List.take_take,Nat.min_eq_left order] at cut
  exact cut.symm

theorem sliceLength {t : Text} {i j : Nat} (inside : j ≤ t.length) : (t.slice i j).length = j - i := by
  rw [Text.slice,List.length_drop,List.length_take,Nat.min_eq_left inside]

theorem coveredPoints {n : Query.Node} {t : Text} {i j : Nat} (covers : n.Covers t i j) :
    Octets.charPoint t.octets.rows n.start = ⟨(t.take i).count '\n',(Text.lastRow (t.take i)).length⟩ ∧
    Octets.charPoint t.octets.rows n.stop =
      ⟨(t.take i).count '\n',(Text.lastRow (t.take i)).length + (j - i : Nat)⟩ := by
  refine ⟨covers.start ▸ Octets.charPointAt t i,?_⟩
  have stop := Octets.charPointAt t j
  rw [takeSlice t covers.order,Text.lastRowPlain _ covers.oneRow,List.count_append,
    List.count_eq_zero_of_not_mem covers.oneRow,List.length_append,sliceLength covers.inside] at stop
  rw [covers.stop,stop]
  rfl

theorem coveredRow {n : Query.Node} {t : Text} {i j : Nat} (covers : n.Covers t i j) :
    ∃ rest, t.rows[(t.take i).count '\n']? = some (Text.lastRow (t.take i) ++ (t.slice i j ++ rest)) := by
  have row := Text.rowAt (t.take i) (t.slice i j ++ t.drop j)
  rw [← List.append_assoc,← takeSlice t covers.order,List.take_append_drop] at row
  refine ⟨(t.drop j).takeWhile (· ≠ '\n'),row.trans ?_⟩
  rw [List.takeWhile_append_of_pos]
  intro c member
  simp only [ne_eq,decide_eq_true_eq]
  rintro rfl
  exact covers.oneRow member

theorem oneRowTokens {c : Capture} (same : c.start.row = c.stop.row) (maxLength : Int) (policy : ReversedSpans) :
    c.tokens maxLength policy =
      .ok [{ line := c.start.row, start := c.start.column
             length := max 0 (c.stop.column - c.start.column), type := c.name }] := if_pos same

theorem coveredTokens {n : Query.Node} {t : Text} {i j : Nat} (covers : n.Covers t i j) (name : String)
    (maxLength : Int) (policy : ReversedSpans) :
    ∃ token, (n.capture t.octets.rows name).tokens maxLength policy = .ok [token] ∧ token.type = name ∧
      token.Spells t i j := by
  obtain ⟨start,stop⟩ := coveredPoints covers
  obtain ⟨rest,row⟩ := coveredRow covers
  have column := Text.lastRowLength (Nat.le_trans covers.order covers.inside)
  have order := covers.order
  have size := sliceLength (i := i) covers.inside
  have same : (n.capture t.octets.rows name).start.row = (n.capture t.octets.rows name).stop.row := by
    simp only [Query.Node.capture,start,stop]
  refine ⟨_,oneRowTokens same maxLength policy,rfl,?_⟩
  simp only [Query.Node.capture,start,stop]
  refine ⟨rfl,?_,?_,_,row,?_⟩
  · dsimp only
    omega
  · dsimp only
    omega
  · have width : (max 0 (((Text.lastRow (t.take i)).length : Int) + (j - i : Nat) -
        (Text.lastRow (t.take i)).length)).toNat = (t.slice i j).length := by omega
    rw [Int.toNat_natCast,List.drop_left,width,List.take_left]

theorem tokensOfMember {maxLength : Int} {policy : ReversedSpans} {cs : List Capture} {ts : List Token}
    (done : tokensOf maxLength policy cs = .ok ts) {c : Capture} (member : c ∈ cs) :
    ∃ own, c.tokens maxLength policy = .ok own ∧ ∀ token ∈ own, token ∈ ts := by
  induction cs generalizing ts with
  | nil => contradiction
  | cons x rest ih =>
    obtain ⟨first,others,head,more,rfl⟩ := tokensOfCons done
    rcases List.mem_cons.mp member with rfl | later
    · exact ⟨first,head,fun token inside => List.mem_append_left _ inside⟩
    · obtain ⟨own,tokens,kept⟩ := ih more later
      exact ⟨own,tokens,fun token inside => List.mem_append_right _ (kept token inside)⟩

theorem convertedMember (rows : List Octets) {m : Query.RawMatch} {name : String} {nodes : List Query.Node}
    (listed : (name,nodes) ∈ m.captures) {n : Query.Node} (member : n ∈ nodes) :
    n.capture rows name ∈ (m.converted rows).captures := by
  refine List.mem_map.mpr ⟨(name,n),List.mem_mergeSort.mpr ?_,rfl⟩
  exact List.mem_flatMap.mpr ⟨(name,nodes),listed,List.mem_map.mpr ⟨n,member,rfl⟩⟩

theorem coordinatesAgree (t : Text) :
    (∀ i ≤ t.length, Octets.charPoint t.octets.rows (t.octets.pointAt (t.octetOffset i)) =
      ⟨(t.take i).count '\n',i - t.lineStart i⟩) ∧
    (∀ (l : Legend) maxLength policy pattern name (n : Query.Node) i j, l.hasType name = true → n.Covers t i j →
      ∃ token, normalize l maxLength policy [Query.RawMatch.converted t.octets.rows ⟨pattern,[(name,[n])]⟩] =
          .ok ([token],[]) ∧ token.type = name ∧ token.Spells t i j) ∧
    ∀ (l : Legend) maxLength policy (ms : List Query.RawMatch) ts notices,
      normalize l maxLength policy (ms.map (Query.RawMatch.converted t.octets.rows)) = .ok (ts,notices) →
      ∀ m ∈ ms, ∀ name nodes, (name,nodes) ∈ m.captures → ∀ n ∈ nodes, ∀ i j,
        l.hasType name = true → n.Covers t i j → ∃ token ∈ ts, token.type = name ∧ token.Spells t i j := by
  refine ⟨?_,?_,?_⟩
  · intro i inside
    have column := Text.lastRowLength inside
    rw [Octets.charPointAt]
    simp only [Point.mk.injEq,true_and]
    omega
  · intro l maxLength policy pattern name n i j known covers
    obtain ⟨token,tokens,type,spells⟩ := coveredTokens covers name maxLength policy
    refine ⟨token,?_,type,spells⟩
    have kept : keptCaptures l [Query.RawMatch.converted t.octets.rows ⟨pattern,[(name,[n])]⟩] =
        [n.capture t.octets.rows name] := by
      simp [keptCaptures,flatCaptures,Query.RawMatch.converted,Query.RawMatch.nodes,Query.Node.capture,known]
    simp only [normalize,kept,tokensOf,tokens]
    simp [bind,Except.bind,dropNotice,flatCaptures,Query.RawMatch.converted,Query.RawMatch.nodes]
  · intro l maxLength policy ms ts notices done m among name nodes listed n member i j known covers
    obtain ⟨token,tokens,type,spells⟩ := coveredTokens covers name maxLength policy
    have kept : n.capture t.octets.rows name ∈
        keptCaptures l (ms.map (Query.RawMatch.converted t.octets.rows)) := by
      refine List.mem_filter.mpr ⟨List.mem_flatMap.mpr ⟨_,List.mem_map.mpr ⟨m,among,rfl⟩,?_⟩,known⟩
      exact convertedMember t.octets.rows listed member
    simp only [normalize] at done
    cases found : tokensOf maxLength policy (keptCaptures l (ms.map (Query.RawMatch.converted t.octets.rows))) with
    | error f =>
      rw [found] at done
      contradiction
    | ok all =>
      rw [found] at done
      cases Except.ok.inj done
      obtain ⟨own,same,inside⟩ := tokensOfMember found kept
      cases Except.ok.inj (tokens.symm.trans same)
      exact ⟨token,inside token (by simp),type,spells⟩

def wideText : Text := ['a','\n','é','😀','b','\n','c']

def wideNode : Query.Node := ⟨4,9,⟨1,2⟩,⟨1,7⟩⟩

def wideMatch : Query.RawMatch := ⟨0,[("string",[wideNode])]⟩

theorem wideNodeSpelled :
    (6 ≤ wideText.length ∧
      Octets.charPoint wideText.octets.rows (wideText.octets.pointAt (wideText.octetOffset (6 : Nat))) =
        ⟨(wideText.take 6).count '\n',(6 : Nat) - wideText.lineStart 6⟩) ∧
    wideNode.Covers wideText 3 5 ∧
    ∃ token, normalize .standard 1 .refuse [wideMatch.converted wideText.octets.rows] = .ok ([token],[]) ∧
      token.type = "string" ∧ token.Spells wideText 3 5 ∧
      ∃ found ∈ [token], found.type = "string" ∧ found.Spells wideText 3 5 := by
  have covers : wideNode.Covers wideText 3 5 := ⟨by decide,by decide,by decide,rfl,rfl⟩
  have known : Legend.standard.hasType "string" = true := by decide
  obtain ⟨points,single,company⟩ := coordinatesAgree wideText
  obtain ⟨token,done,type,spells⟩ := single .standard 1 .refuse 0 "string" wideNode 3 5 known covers
  refine ⟨⟨by decide,points 6 (by decide)⟩,covers,token,done,type,spells,?_⟩
  exact company .standard 1 .refuse [wideMatch] [token] [] done wideMatch (by simp) "string" [wideNode]
    (by simp [wideMatch]) wideNode (by simp) 3 5 known covers

end Tinct
