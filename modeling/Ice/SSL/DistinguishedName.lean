import Ice.SSL.RFC2253

/-!
# Distinguished names

`Ice::SSL::DistinguishedName` (`cpp/src/Ice/SSL/DistinguishedName.cpp`): the components of a name
as they were written, and with their escapes removed. Names are compared without escapes.
-/

namespace Ice.SSL

open Ice.Misc List

structure DistinguishedName where
  rdns : RDNSeq
  unescaped : List (ByteString × ByteString)
deriving DecidableEq, Repr

/-- `DistinguishedName::unescape`. -/
def unescapeAll : RDNSeq → Except ParseException (List (ByteString × ByteString))
  | [] => .ok []
  | rdn :: rdns => do
    let value ← unescape rdn.2
    let unescaped ← unescapeAll rdns
    return (rdn.1, value) :: unescaped

/-- The constructor that takes a list of pairs. -/
def DistinguishedName.ofRdns (rdns : RDNSeq) : Except ParseException DistinguishedName := do
  let unescaped ← unescapeAll rdns
  return { rdns, unescaped }

/-- The constructor that takes a string. -/
def DistinguishedName.ofString (dn : ByteString) : Except ParseException DistinguishedName := do
  let rdns ← parseStrict dn
  DistinguishedName.ofRdns rdns

/-- `operator==`. -/
def DistinguishedName.eq (lhs rhs : DistinguishedName) : Bool := lhs.unescaped == rhs.unescaped

/-- The inner loop of `DistinguishedName::match`: `found` says that the type of `p` has been
    seen. -/
def matchAttribute (p : ByteString × ByteString) : Bool → List (ByteString × ByteString) → Bool
  | found, [] => found
  | found, q :: qs =>
    if p.1 == q.1 then
      if p.2 != q.2 then false else matchAttribute p true qs
    else matchAttribute p found qs

def DistinguishedName.match (subject other : DistinguishedName) : Bool :=
  other.unescaped.all fun p => matchAttribute p false subject.unescaped

/-- The components of a name, with `,` between them. -/
def joinRdns : RDNSeq → ByteString
  | [] => []
  | [rdn] => rdn.1 ++ [61] ++ rdn.2
  | rdn :: rdns => rdn.1 ++ [61] ++ rdn.2 ++ [44] ++ joinRdns rdns

def DistinguishedName.toString (dn : DistinguishedName) : ByteString := joinRdns dn.rdns

/-! ## What the parsers read -/

theorem eatWhite_spaces (n : Nat) (data : ByteString) :
    eatWhite (replicate n 32 ++ data) = eatWhite data := by
  induction n with
  | zero => rfl
  | succ n ih =>
    simp [eatWhite]

theorem eatWhite_cons {c : UInt8} (h : c ≠ 32) (data : ByteString) :
    eatWhite (c :: data) = c :: data := by
  simp [eatWhite, h]

theorem eatWhite_of_head {data : ByteString} (h : data.head? ≠ some 32) : eatWhite data = data := by
  cases data with
  | nil => rfl
  | cons c rest => exact eatWhite_cons (by simpa using h) rest

/-- A key: a letter, and then letters, digits and `-`. -/
def IsKey : ByteString → Prop
  | [] => False
  | c :: rest => isAlpha c = true ∧ ∀ d ∈ rest, isKeychar d = true

/-- What may follow a type: the type does not go on there. -/
def EndsType (rest : ByteString) : Prop :=
  ∀ d, rest.head? = some d → isKeychar d = false ∧ d ≠ 46

theorem isAlpha_ne_space {c : UInt8} (h : isAlpha c = true) : c ≠ 32 := by
  rintro rfl
  exact absurd h (by decide)

theorem isAlpha_not_digit {c : UInt8} (h : isAlpha c = true) : isDigit c = false := by
  simp only [isAlpha, isDigit, Bool.or_eq_true, Bool.and_eq_true, decide_eq_true_eq,
    Bool.and_eq_false_iff, decide_eq_false_iff_not] at h ⊢
  rcases h with ⟨h, -⟩ | ⟨h, -⟩ <;> exact Or.inr fun h' => absurd (UInt8.le_trans h h') (by decide)

variable {rest : ByteString}

/-- None of the first four bytes of a key and what follows it is a dot. -/
theorem take_key_ne_dot {key : ByteString} (hkey : IsKey key) (hrest : EndsType rest)
    {a b c : UInt8}
    (habc : isKeychar a = true ∧ isKeychar b = true ∧ isKeychar c = true) :
    (key ++ rest).take 4 ≠ [a, b, c, 46] := by
  intro h
  have hdot : ∀ d ∈ key, d ≠ 46 := by
    cases key with
    | nil => exact hkey.elim
    | cons k key =>
      rintro d hd rfl
      rcases mem_cons.mp hd with rfl | hd
      · exact absurd hkey.1 (by decide)
      · exact absurd (hkey.2 46 hd) (by decide)
  match key, hkey with
  | [k], _ =>
    have hhead : rest.head? = some b := by
      rcases rest with _ | ⟨r, rest⟩ <;> simp_all
    exact absurd (hrest b hhead).1 (by simp [habc.2.1])
  | [k, l], _ =>
    have hhead : rest.head? = some c := by
      rcases rest with _ | ⟨r, rest⟩ <;> simp_all
    exact absurd (hrest c hhead).1 (by simp [habc.2.2])
  | [k, l, m], _ =>
    have hhead : rest.head? = some 46 := by
      rcases rest with _ | ⟨r, rest⟩ <;> simp_all
    exact (hrest 46 hhead).2 rfl
  | k :: l :: m :: n :: key, _ =>
    have : n = 46 := by simp_all
    exact hdot n (by simp) this

theorem takeWhile_keychar {key : ByteString} (hkey : ∀ d ∈ key, isKeychar d = true)
    (hrest : EndsType rest) :
    (key ++ rest).takeWhile isKeychar = key ∧ (key ++ rest).dropWhile isKeychar = rest := by
  rw [takeWhile_append_of_pos hkey, dropWhile_append_of_pos hkey]
  cases rest with
  | nil => simp
  | cons d rest => simp [(hrest d rfl).1]

/-- A key is read as an attribute type, after any spaces. -/
theorem parseAttributeType_key {key : ByteString} (n : Nat) (hkey : IsKey key)
    (hrest : EndsType rest) :
    parseAttributeType (replicate n 32 ++ key ++ rest) = .ok (key, rest) := by
  have h1 := take_key_ne_dot hkey hrest (a := 111) (b := 105) (c := 100) (by decide)
  have h2 := take_key_ne_dot hkey hrest (a := 79) (b := 73) (c := 68) (by decide)
  match key, hkey with
  | k :: key, hkey =>
    obtain ⟨htake, hdrop⟩ := takeWhile_keychar hkey.2 hrest
    rw [parseAttributeType, append_assoc, eatWhite_spaces, cons_append,
      eatWhite_cons (isAlpha_ne_space hkey.1)]
    rw [cons_append] at h1 h2
    simp only [isAlpha_not_digit hkey.1, Bool.false_eq_true, if_false, h1, h2, or_self, hkey.1,
      if_true, htake, hdrop]

/-- The bytes of an object identifier after its first digit: every dot is followed by a digit. -/
def isOidTail : ByteString → Bool
  | [] => true
  | c :: rest =>
    (isDigit c || (c == 46 && rest.head?.any isDigit)) && isOidTail rest

/-- An object identifier, such as `2.5.4.3`. -/
def IsOid : ByteString → Prop
  | [] => False
  | c :: rest => isDigit c = true ∧ isOidTail rest = true

/-- An attribute type: a key, or an object identifier with or without `oid.` or `OID.`. -/
def IsType (type : ByteString) : Prop :=
  IsKey type ∨ IsOid type ∨
    ∃ oid, IsOid oid ∧ (type = [111, 105, 100, 46] ++ oid ∨ type = [79, 73, 68, 46] ++ oid)

theorem parseOid_append {oid : ByteString} (hoid : isOidTail oid = true) (hrest : EndsType rest) :
    parseOid (oid ++ rest) = .ok (oid, rest) := by
  induction oid with
  | nil =>
    cases rest with
    | nil => rfl
    | cons d rest =>
      obtain ⟨hkey, hdot⟩ := hrest d rfl
      have hdigit : isDigit d = false := by
        simp only [isKeychar, Bool.or_eq_false_iff] at hkey
        exact hkey.1.2
      simp [parseOid, hdigit, hdot]
  | cons c oid ih =>
    simp only [isOidTail, Bool.and_eq_true, Bool.or_eq_true, beq_iff_eq] at hoid
    have ih := ih hoid.2
    rw [cons_append, parseOid]
    by_cases hdigit : isDigit c = true
    · simp only [hdigit, if_true, ih]
      rfl
    · obtain ⟨rfl, hnext⟩ := hoid.1.resolve_left hdigit
      cases oid with
      | nil => cases hnext
      | cons d oid =>
        have hd : isDigit d = true := by simpa using hnext
        simp only [hdigit, if_true, cons_append, head?_cons, hd]
        rw [cons_append] at ih
        rw [ih]
        rfl

/-- An attribute type is read, after any spaces. -/
theorem parseAttributeType_type {type : ByteString} (n : Nat) (htype : IsType type)
    (hrest : EndsType rest) :
    parseAttributeType (replicate n 32 ++ type ++ rest) = .ok (type, rest) := by
  rcases htype with hkey | hoid | ⟨oid, hoid, htype⟩
  · exact parseAttributeType_key n hkey hrest
  · match type, hoid with
    | c :: type, hoid =>
      have hspace : c ≠ 32 := by
        rintro rfl
        exact absurd hoid.1 (by decide)
      have hread : parseOid (c :: type ++ rest) = .ok (c :: type, rest) :=
        parseOid_append (by simp [isOidTail, hoid.1, hoid.2]) hrest
      rw [parseAttributeType, append_assoc, eatWhite_spaces, cons_append, eatWhite_cons hspace]
      rw [cons_append] at hread
      simp only [hoid.1, if_true, hread]
  · have hread : parseOid (oid ++ rest) = .ok (oid, rest) := by
      match oid, hoid with
      | c :: oid, hoid => exact parseOid_append (by simp [isOidTail, hoid.1, hoid.2]) hrest
    rw [parseAttributeType, append_assoc, eatWhite_spaces]
    rcases htype with rfl | rfl <;> simp [eatWhite, isDigit, hread]

end Ice.SSL
