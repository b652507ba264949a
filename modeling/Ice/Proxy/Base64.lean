import Ice.Misc.Extraction

/-!
# Base64

`Base64::encode` and `Base64::decode` (`cpp/src/Ice/Base64.cpp`). The data of an opaque endpoint is
written with them.
-/

namespace Ice.Base64

open List

/-- `encode(byte)`. -/
def encodeByte (uc : UInt8) : Char :=
  if uc < 26 then Char.ofNat ('A'.toNat + uc.toNat)
  else if uc < 52 then Char.ofNat ('a'.toNat + uc.toNat - 26)
  else if uc < 62 then Char.ofNat ('0'.toNat + uc.toNat - 52)
  else if uc = 62 then '+'
  else '/'

/-- `decode(char)`. -/
def decodeChar (c : Char) : UInt8 :=
  if 'A' ≤ c ∧ c ≤ 'Z' then UInt8.ofNat (c.toNat - 'A'.toNat)
  else if 'a' ≤ c ∧ c ≤ 'z' then UInt8.ofNat (c.toNat - 'a'.toNat + 26)
  else if '0' ≤ c ∧ c ≤ '9' then UInt8.ofNat (c.toNat - '0'.toNat + 52)
  else if c = '+' then 62
  else 63

def isBase64 (c : Char) : Bool :=
  'A' ≤ c && c ≤ 'Z' || 'a' ≤ c && c ≤ 'z' || '0' ≤ c && c ≤ '9' || c = '+' || c = '/'

/-- An iteration of the loop of `encode`. -/
def encodeGroup (by1 : UInt8) (by2 by3 : Option UInt8) : List Char :=
  [encodeByte (by1 >>> 2), encodeByte ((by1 &&& 0x3) <<< 4 ||| by2.getD 0 >>> 4),
    match by2 with
    | some by2 => encodeByte ((by2 &&& 0xf) <<< 2 ||| by3.getD 0 >>> 6)
    | none => '=',
    match by3 with
    | some by3 => encodeByte (by3 &&& 0x3f)
    | none => '=']

def encode : List UInt8 → List Char
  | [] => []
  | [by1] => encodeGroup by1 none none
  | [by1, by2] => encodeGroup by1 (some by2) none
  | by1 :: by2 :: by3 :: plainSeq => encodeGroup by1 (some by2) (some by3) ++ encode plainSeq

/-- An iteration of the loop of `decode`. -/
def decodeGroup (c1 c2 c3 c4 : Char) : List UInt8 :=
  let by1 := decodeChar c1
  let by2 := decodeChar c2
  let by3 := decodeChar c3
  let by4 := decodeChar c4
  [by1 <<< 2 ||| by2 >>> 4] ++ (if c3 ≠ '=' then [(by2 &&& 0xf) <<< 4 ||| by3 >>> 2] else []) ++
    if c4 ≠ '=' then [(by3 &&& 0x3) <<< 6 ||| by4] else []

def decodeGroups : List Char → List UInt8
  | c1 :: c2 :: c3 :: c4 :: str => decodeGroup c1 c2 c3 c4 ++ decodeGroups str
  | [c1, c2, c3] => decodeGroup c1 c2 c3 '='
  | [c1, c2] => decodeGroup c1 c2 '=' '='
  -- a single character has been rejected
  | _ => []

def decode (str : List Char) : Except String (List UInt8) :=
  let str := str.filter fun c => !Misc.isSpace c
  let data := str.rdropWhile (· = '=')
  match data.find? fun c => !isBase64 c with
  | some c =>
    .error ("invalid base64 character '" ++ c.toString ++ "' (ordinal " ++ toString c.toNat ++ ")")
  | none =>
    if data.length ≠ str.length ∧ (2 < str.length - data.length ∨ str.length % 4 ≠ 0) then
      .error "invalid base64 padding"
    else if data.length % 4 = 1 then .error "invalid base64 string length"
    else .ok (decodeGroups data)

/-! ## Groups -/

/-- A character that `decode` does not remove. -/
def Plain (c : Char) : Prop := isBase64 c = true ∧ Misc.isSpace c = false ∧ c ≠ '='

instance (c : Char) : Decidable (Plain c) := inferInstanceAs (Decidable (_ ∧ _))

/-- Six bits are read back. -/
theorem encodeByte_spec {uc : UInt8} (h : uc >>> 6 = 0) :
    decodeChar (encodeByte uc) = uc ∧ Plain (encodeByte uc) := by
  have hall : ∀ n < 256, UInt8.ofNat n >>> 6 = 0 →
      decodeChar (encodeByte (UInt8.ofNat n)) = UInt8.ofNat n ∧
      Plain (encodeByte (UInt8.ofNat n)) := by
    decide +kernel
  have huc := hall uc.toNat uc.toNat_lt
  rw [UInt8.ofNat_toNat] at huc
  exact huc h

theorem eq_of_bits {x y : UInt8} (h : ∀ i (hi : i < 8), x.toBitVec[i] = y.toBitVec[i]) : x = y :=
  UInt8.eq_of_toBitVec_eq (BitVec.eq_of_getElem_eq h)

section

variable (by1 by2 by3 : UInt8)

theorem sextets : (by1 >>> 2) >>> 6 = 0 ∧ ((by1 &&& 0x3) <<< 4 ||| by2 >>> 4) >>> 6 = 0 ∧
    ((by2 &&& 0xf) <<< 2 ||| by3 >>> 6) >>> 6 = 0 ∧ (by3 &&& 0x3f) >>> 6 = 0 := by
  refine ⟨eq_of_bits ?_, eq_of_bits ?_, eq_of_bits ?_, eq_of_bits ?_⟩
  all_goals
    intro i hi
    interval_cases i <;> simp

theorem joined : (by1 >>> 2) <<< 2 ||| ((by1 &&& 0x3) <<< 4 ||| by2 >>> 4) >>> 4 = by1 ∧
    (((by1 &&& 0x3) <<< 4 ||| by2 >>> 4) &&& 0xf) <<< 4 |||
    ((by2 &&& 0xf) <<< 2 ||| by3 >>> 6) >>> 2 = by2 ∧
      (((by2 &&& 0xf) <<< 2 ||| by3 >>> 6) &&& 0x3) <<< 6 ||| (by3 &&& 0x3f) = by3 := by
  refine ⟨eq_of_bits ?_, eq_of_bits ?_, eq_of_bits ?_⟩
  all_goals
    intro i hi
    interval_cases i <;> simp

/-- What is read of a group, whether or not it ends with padding. -/
theorem decodeGroup_encodeByte :
    let c1 := encodeByte (by1 >>> 2)
    let c2 := encodeByte ((by1 &&& 0x3) <<< 4 ||| by2 >>> 4)
    let c3 := encodeByte ((by2 &&& 0xf) <<< 2 ||| by3 >>> 6)
    let c4 := encodeByte (by3 &&& 0x3f)
    (∀ c ∈ [c1, c2, c3, c4], Plain c) ∧ decodeGroup c1 c2 '=' '=' = [by1] ∧
      decodeGroup c1 c2 c3 '=' = [by1, by2] ∧ decodeGroup c1 c2 c3 c4 = [by1, by2, by3] := by
  obtain ⟨h1, h2, h3, h4⟩ := sextets by1 by2 by3
  obtain ⟨hjoin1, hjoin2, hjoin3⟩ := joined by1 by2 by3
  obtain ⟨hread1, hplain1⟩ := encodeByte_spec h1
  obtain ⟨hread2, hplain2⟩ := encodeByte_spec h2
  obtain ⟨hread3, hplain3⟩ := encodeByte_spec h3
  obtain ⟨hread4, hplain4⟩ := encodeByte_spec h4
  refine ⟨by simp [hplain1, hplain2, hplain3, hplain4], ?_, ?_, ?_⟩
  all_goals
    simp [decodeGroup, hread1, hread2, hread3, hread4, hjoin1, hjoin2, hjoin3, hplain3.2.2,
      hplain4.2.2]

end

/-- `encode` writes characters that are read as `x`, and then the padding. -/
theorem encode_spec (x : List UInt8) : ∃ data pad, encode x = data ++ replicate pad '=' ∧ pad ≤ 2 ∧
    (data.length + pad) % 4 = 0 ∧ decodeGroups data = x ∧ ∀ c ∈ data, Plain c := by
  induction x using encode.induct with
  | case1 => exact ⟨[], 0, rfl, by decide, rfl, rfl, nofun⟩
  | case2 by1 =>
    obtain ⟨hplain, hread, -⟩ := decodeGroup_encodeByte by1 0 0
    exact ⟨[_, _], 2, rfl, le_rfl, by simp, hread, fun c hc => hplain c (mem_append_left [_, _] hc)⟩
  | case3 by1 by2 =>
    obtain ⟨hplain, -, hread, -⟩ := decodeGroup_encodeByte by1 by2 0
    exact ⟨[_, _, _], 1, rfl,
      by decide, by simp, hread, fun c hc => hplain c (mem_append_left [_] hc)⟩
  | case4 by1 by2 by3 plainSeq ih =>
    obtain ⟨hplain, -, -, hread⟩ := decodeGroup_encodeByte by1 by2 by3
    obtain ⟨data, pad, hencode, hpad, hlength, hdecode, hdata⟩ := ih
    refine ⟨encodeGroup by1 (some by2) (some by3) ++ data, pad, ?_, hpad, ?_, ?_,
      forall_mem_append.mpr ⟨hplain, hdata⟩⟩
    · rw [encode, hencode, append_assoc]
    · rw [length_append, Nat.add_assoc, Nat.add_mod, hlength]
      simp [encodeGroup]
    · rw [← hdecode]
      exact congrArg (· ++ decodeGroups data) hread

/-- Decoding inverts encoding. -/
theorem decode_encode (x : List UInt8) : decode (encode x) = .ok x := by
  obtain ⟨data, pad, hencode, hpad, hlength, hdecode, hdata⟩ := encode_spec x
  have hfilter : (encode x).filter (fun c => !Misc.isSpace c) = encode x := by
    rw [filter_eq_self, hencode]
    intro c hc
    rcases mem_append.mp hc with hc | hc
    · rw [(hdata c hc).2.1]
      rfl
    · rw [eq_of_mem_replicate hc]
      rfl
  have hdrop : (encode x).rdropWhile (· = '=') = data := by
    rw [hencode, rdropWhile, reverse_append, dropWhile_append_of_pos (by simp)]
    cases hreverse : data.reverse with
    | nil =>
      rw [reverse_eq_nil_iff.mp hreverse]
      rfl
    | cons c rest =>
      have hc := (hdata c (mem_reverse.mp (hreverse ▸ mem_cons_self))).2.2
      rw [dropWhile_cons_of_neg (by simpa using hc), ← hreverse, reverse_reverse]
  have hfind : data.find? (fun c => !isBase64 c) = none := by
    rw [find?_eq_none]
    intro c hc
    simp [(hdata c hc).1]
  have htotal : (encode x).length = data.length + pad := by simp [hencode]
  unfold decode
  simp only [hfilter, hdrop, hfind]
  rw [if_neg (by omega), if_neg (by omega), hdecode]

end Ice.Base64
