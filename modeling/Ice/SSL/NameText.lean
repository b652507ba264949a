import Ice.SSL.DistinguishedName

/-!
# Texts of distinguished names

The RFC 2253 texts of a list of relative distinguished names, each with one or more attributes, and
when `DistinguishedName` reads such a text as what it stands for.
-/

namespace Ice.SSL

open Ice.Misc List DistinguishedName

/-- The byte that two hexadecimal digits stand for. -/
def hexByte (high low : UInt8) : UInt8 :=
  match hexToInt high, hexToInt low with
  | .ok h, .ok l => h * 16 + l
  | _, _ => 0

/-- How one byte of a value is written. -/
inductive CharText where
  | raw (c : UInt8)
  /-- a backslash and the byte -/
  | pair (c : UInt8)
  /-- a backslash and two hexadecimal digits -/
  | hex (high low : UInt8)
deriving DecidableEq, Repr

namespace CharText

/-- The byte that is meant. -/
def byte : CharText → UInt8
  | raw c => c
  | pair c => c
  | hex high low => hexByte high low

/-- What is written. -/
def text : CharText → ByteString
  | raw c => [c]
  | pair c => [92, c]
  | hex high low => [92, high, low]

/-- What the parser keeps: a hex pair loses its backslash. -/
def kept : CharText → ByteString
  | raw c => [c]
  | pair c => [92, c]
  | hex high low => [high, low]

/-- What `unescape` makes of `kept` in a value without quotes. -/
def unescaped : CharText → ByteString
  | raw c => [c]
  | pair c => [c]
  | hex high low => [high, low]

@[simp] theorem text_raw (c : UInt8) : (raw c).text = [c] := rfl

@[simp] theorem kept_raw (c : UInt8) : (raw c).kept = [c] := rfl

@[simp] theorem unescaped_raw (c : UInt8) : (raw c).unescaped = [c] := rfl

/-- The byte may be written so, where `stop` are the bytes that have to be escaped. -/
def Valid (stop : List UInt8) : CharText → Prop
  | raw c => c ∉ stop
  | pair c => isEscapable c = true
  | hex high low => isHex high = true ∧ isHex low = true

end CharText

/-- A value, in quotes or not. -/
inductive ValueText where
  | plain (chars : List CharText)
  | quoted (chars : List CharText)
deriving DecidableEq, Repr

namespace ValueText

def chars : ValueText → List CharText
  | plain cs => cs
  | quoted cs => cs

/-- The value that is meant. -/
def value (v : ValueText) : ByteString := v.chars.map CharText.byte

/-- What is written. -/
def text : ValueText → ByteString
  | plain cs => cs.flatMap CharText.text
  | quoted cs => 34 :: cs.flatMap CharText.text ++ [34]

/-- A value is not empty. In quotes, only `\` and `"` have to be escaped. Without quotes, the
    special characters have to be escaped too, and spaces at either end. -/
def Valid : ValueText → Prop
  | plain cs => cs ≠ [] ∧ (∀ c ∈ cs, c.Valid (92 :: 34 :: special)) ∧
      cs.head? ≠ some (.raw 32) ∧ cs.getLast? ≠ some (.raw 32)
  | quoted cs => cs ≠ [] ∧ ∀ c ∈ cs, c.Valid [92, 34]

end ValueText

/-- An attribute with the spaces around its parts. -/
structure AttributeText where
  before : Nat := 0
  type : ByteString
  afterType : Nat := 0
  beforeValue : Nat := 0
  value : ValueText
  after : Nat := 0

namespace AttributeText

variable (a : AttributeText)

/-- The attribute that is meant. -/
def meaning : ByteString × ByteString := (a.type, a.value.value)

def text : ByteString :=
  List.replicate a.before 32 ++ a.type ++ (List.replicate a.afterType 32 ++ 61 ::
    (List.replicate a.beforeValue 32 ++ (a.value.text ++ List.replicate a.after 32)))

/-- The type is an alphabetic key. -/
def Valid : Prop :=
  a.type ≠ [] ∧ (∀ c ∈ a.type, isAlpha c = true) ∧ a.value.Valid

/-- What is enough to be read: any attribute type, and an empty value if no space follows it. -/
def Readable : Prop :=
  IsType a.type ∧
    match a.value with
    | .plain cs => (∀ c ∈ cs, c.Valid (92 :: 34 :: special)) ∧ cs.head? ≠ some (.raw 32) ∧
        (cs = [] → a.after = 0)
    | .quoted cs => ∀ c ∈ cs, c.Valid [92, 34]

/-- What the parser keeps of the value: without quotes, the spaces after it belong to it. -/
def kept : ByteString :=
  match a.value with
  | .plain cs => cs.flatMap CharText.kept ++ List.replicate a.after 32
  | .quoted cs => 34 :: cs.flatMap CharText.kept ++ [34]

/-- What is left of the text of the attribute after the value. -/
def left : ByteString :=
  match a.value with
  | .plain _ => []
  | .quoted _ => List.replicate a.after 32

/-- What `unescape` makes of `kept`. -/
def read : ByteString :=
  match a.value with
  | .plain cs => cs.flatMap CharText.unescaped ++ List.replicate a.after 32
  | .quoted cs => cs.flatMap CharText.kept

/-- The value is written so that it is read as it is: without quotes, no hex pair and no space after
    it; in quotes, no escape at all. -/
def Plain : Prop :=
  match a.value with
  | .plain cs => (∀ c ∈ cs, ∀ high low, c ≠ .hex high low) ∧ a.after = 0
  | .quoted cs => ∀ c ∈ cs, ∃ b, c = .raw b

end AttributeText

/-- The text of a relative distinguished name: its attributes with `+` between them. -/
def componentText : List AttributeText → ByteString
  | [] => []
  | [a] => a.text
  | a :: as => a.text ++ 43 :: componentText as

/-- The text of a list of relative distinguished names, with `,` between them. -/
def nameText : List (List AttributeText) → ByteString
  | [] => []
  | [c] => componentText c
  | c :: cs => componentText c ++ 44 :: nameText cs

/-- The text is a text of names: each has one attribute or more, and they are written correctly. -/
def NameValid (t : List (List AttributeText)) : Prop :=
  ∀ c ∈ t, c ≠ [] ∧ ∀ a ∈ c, a.Valid

/-- The relative distinguished names that a text stands for. -/
def names (t : List (List AttributeText)) : List (List (ByteString × ByteString)) :=
  t.map fun c => c.map AttributeText.meaning

/-- What is read instead, if every name has one attribute. -/
def readings (t : List (List AttributeText)) : List (List (ByteString × ByteString)) :=
  t.map fun c => c.map fun a => (a.type, a.read)

/-! ## Reading one attribute -/

theorem isHex_not_escapable {c : UInt8} (h : isHex c = true) : isEscapable c = false := by
  by_contra hne
  rw [Bool.not_eq_false] at hne
  simp only [isEscapable, special, contains_eq_mem, mem_cons, not_mem_nil, or_false,
    Bool.or_eq_true, decide_eq_true_eq, beq_iff_eq] at hne
  rcases hne with ((rfl | rfl | rfl | rfl | rfl | rfl | rfl) | rfl) | rfl <;>
    exact absurd h (by decide)

theorem isHex_ne_backslash {c : UInt8} (h : isHex c = true) : c ≠ 92 := by
  rintro rfl
  exact absurd h (by decide)

theorem parsePair_pair {c : UInt8} (h : isEscapable c = true) (tail : ByteString) :
    parsePair (c :: tail) = .ok ([92, c], tail) := by
  simp [parsePair, h]

theorem parsePair_hex {high low : UInt8} (hh : isHex high = true) (hl : isHex low = true)
    (tail : ByteString) : parsePair (high :: low :: tail) = .ok ([high, low], tail) := by
  simp [parsePair, isHex_not_escapable hh, parseHexPair, hh, hl]

open CharText

theorem stringItem_char {c : CharText} (h : c.Valid (92 :: 34 :: special)) (tail : ByteString) :
    stringItem (c.text ++ tail) = .ok (some (c.kept, tail)) := by
  cases c with
  | raw c =>
    simp only [CharText.Valid, mem_cons, not_or] at h
    simp [text, kept, stringItem, h.1, h.2.1, h.2.2]
  | pair c =>
    simp only [text, kept, cons_append, nil_append, stringItem, if_true, parsePair_pair h tail]
    rfl
  | hex high low =>
    simp only [text, kept, cons_append, nil_append, stringItem, if_true, parsePair_hex h.1 h.2 tail]
    rfl

theorem quotedItem_char {c : CharText} (h : c.Valid [92, 34]) (tail : ByteString) :
    quotedItem (c.text ++ tail) = .ok (some (c.kept, tail)) := by
  cases c with
  | raw c =>
    simp only [CharText.Valid, mem_cons, not_mem_nil, not_or, or_false] at h
    simp [text, kept, quotedItem, h.1, h.2]
  | pair c =>
    simp only [text, kept, cons_append, nil_append, quotedItem, parsePair_pair h tail]
    rfl
  | hex high low =>
    simp only [text, kept, cons_append, nil_append, quotedItem, parsePair_hex h.1 h.2 tail]
    rfl

/-- What follows the last value of a component: the end, or the next component. -/
def EndsComponent (rest : ByteString) : Prop := ∀ c, rest.head? = some c → c = 44

variable {rest : ByteString}

theorem stringItem_stop (h : EndsComponent rest) : stringItem rest = .ok none := by
  cases rest with
  | nil => rfl
  | cons c rest =>
    obtain rfl := h c rfl
    simp [stringItem, special]

/-- A value without quotes is read up to the next separator, with the spaces before it. -/
theorem many_stringItem {cs : List CharText} (n : Nat) {fuel : Nat}
    (hcs : ∀ c ∈ cs, c.Valid (92 :: 34 :: special))
    (hrest : EndsComponent rest) (hfuel : cs.length + n ≤ fuel) :
    many stringItem fuel (cs.flatMap text ++ replicate n 32 ++ rest) =
      .ok (cs.flatMap kept ++ replicate n 32, rest) := by
  have hspace : CharText.Valid (92 :: 34 :: special) (.raw 32) := by
    simp [CharText.Valid, special]
  -- the spaces are read like further characters
  have hitem : ∀ c ∈ cs ++ replicate n (raw 32), ∀ tail,
      stringItem (c.text ++ tail) = .ok (some (c.kept, tail)) := by
    intro c hc
    rcases mem_append.mp hc with hc | hc
    · exact stringItem_char (hcs c hc)
    · rw [eq_of_mem_replicate hc]
      exact stringItem_char hspace
  have h := many_flatMap hitem (stringItem_stop hrest) (by simpa using hfuel)
  simpa [flatMap_replicate, flatten_replicate_singleton] using h

theorem many_quotedItem {cs : List CharText} {fuel : Nat} (rest : ByteString)
    (hcs : ∀ c ∈ cs, c.Valid [92, 34]) (hfuel : cs.length ≤ fuel) :
    many quotedItem fuel (cs.flatMap text ++ 34 :: rest) =
      .ok (cs.flatMap kept, 34 :: rest) :=
  many_flatMap (fun c hc => quotedItem_char (hcs c hc)) (by simp [quotedItem]) hfuel

theorem length_le_flatMap_text (cs : List CharText) : cs.length ≤ (cs.flatMap text).length :=
  length_le_flatMap fun c _ => by cases c <;> simp [text]

variable {a : AttributeText}

/-- A value is read with its escapes. -/
theorem parseAttributeValue_text (ha : a.Readable) (hrest : EndsComponent rest) :
    parseAttributeValue (replicate a.beforeValue 32 ++
      (a.value.text ++ replicate a.after 32) ++ rest) = .ok (a.kept, a.left ++ rest) := by
  obtain ⟨-, hvalue⟩ := ha
  rw [parseAttributeValue, append_assoc, eatWhite_spaces]
  unfold AttributeText.kept AttributeText.left
  cases hv : a.value with
  | plain cs =>
    rw [hv] at hvalue
    obtain ⟨hcs, hhead, hempty⟩ := hvalue
    have hfuel : cs.length + a.after ≤
        (cs.flatMap text ++ replicate a.after 32 ++ rest).length := by
      have := length_le_flatMap_text cs
      simp only [length_append, length_replicate]
      omega
    have hmany := many_stringItem a.after hcs hrest hfuel
    simp only [ValueText.text, nil_append]
    cases hdata : cs.flatMap text ++ replicate a.after 32 ++ rest with
    | nil =>
      simp only [append_eq_nil_iff, replicate_eq_nil_iff] at hdata
      obtain rfl : cs = [] := by
        have := length_le_flatMap_text cs
        rw [hdata.1.1] at this
        simpa using this
      simp [hdata.1.2, hdata.2, eatWhite]
    | cons c tail =>
      have hc : c ≠ 32 ∧ c ≠ 35 ∧ c ≠ 34 := by
        rcases cs with _ | ⟨b | b | ⟨h, l⟩, cs⟩
        · obtain rfl : c = 44 := hrest c (by simpa [hempty rfl] using congrArg head? hdata)
          decide
        · obtain rfl : b = c := (cons.inj hdata).1
          have hb := hcs _ mem_cons_self
          simp only [CharText.Valid, special, mem_cons, not_mem_nil, or_false, not_or]
            at hb
          exact ⟨by simpa using hhead, by tauto, by tauto⟩
        all_goals
          obtain rfl : 92 = c := (cons.inj hdata).1
          decide
      rw [hdata] at hmany
      rw [eatWhite_cons hc.1]
      simpa [hc.2.1, hc.2.2] using hmany
  | quoted cs =>
    rw [hv] at hvalue
    have hfuel : cs.length ≤
        (cs.flatMap text ++ 34 :: (replicate a.after 32 ++ rest)).length := by
      have := length_le_flatMap_text cs
      rw [length_append]
      omega
    have hmany := many_quotedItem (replicate a.after 32 ++ rest) hvalue hfuel
    simp only [ValueText.text, cons_append, append_assoc, nil_append]
    rw [eatWhite_cons (by decide)]
    simp only [if_false, if_true, show (34 : UInt8) ≠ 35 by decide]
    rw [hmany]
    rfl

theorem AttributeText.Valid.isKey (ha : a.Valid) : IsKey a.type := by
  obtain ⟨hne, halpha, -⟩ := ha
  cases htype : a.type with
  | nil => exact absurd htype hne
  | cons c type =>
    rw [htype] at halpha
    refine ⟨halpha c mem_cons_self, ?_⟩
    intro d hd
    simp [isKeychar, halpha d (mem_cons_of_mem _ hd)]

theorem AttributeText.Valid.readable (ha : a.Valid) : a.Readable := by
  have hkey := ha.isKey
  obtain ⟨-, -, hvalue⟩ := ha
  refine ⟨Or.inl hkey, ?_⟩
  cases hv : a.value with
  | plain cs =>
    rw [hv] at hvalue
    exact ⟨hvalue.2.1, hvalue.2.2.1, fun h => absurd h hvalue.1⟩
  | quoted cs =>
    rw [hv] at hvalue
    exact hvalue.2

theorem endsType_equal (n : Nat) (rest : ByteString) : EndsType (replicate n 32 ++ 61 :: rest) := by
  intro d hd
  cases n with
  | zero =>
    obtain rfl : 61 = d := by simpa using hd
    decide
  | succ n =>
    obtain rfl : 32 = d := by simpa [replicate_succ] using hd
    decide

/-- An attribute is read up to the next component. -/
theorem parseAttributeTypeAndValue_text (ha : a.Readable) (hrest : EndsComponent rest) :
    parseAttributeTypeAndValue (a.text ++ rest) = .ok ((a.type, a.kept), a.left ++ rest) := by
  have htype := parseAttributeType_type a.before ha.1
    (endsType_equal a.afterType (replicate a.beforeValue 32 ++
      (a.value.text ++ replicate a.after 32) ++ rest))
  have hvalue := parseAttributeValue_text ha hrest
  have htext : a.text ++ rest = replicate a.before 32 ++ a.type ++
      (replicate a.afterType 32 ++ 61 :: (replicate a.beforeValue 32 ++
        (a.value.text ++ replicate a.after 32) ++ rest)) := by
    simp [AttributeText.text]
  rw [parseAttributeTypeAndValue, htext, htype]
  simp only [bind, Except.bind]
  rw [eatWhite_spaces, eatWhite_cons (by decide)]
  simp only [if_true, hvalue]
  rfl

theorem eatWhite_eatWhite (data : ByteString) : eatWhite (eatWhite data) = eatWhite data := by
  exact dropWhile_idempotent _ data

theorem joinAttributes_stop (fuel : Nat) (final : ByteString × ByteString) {data : ByteString}
    (h : (eatWhite data).head? ≠ some 43) :
    ∃ rest, joinAttributes fuel final data = .ok (final, rest) ∧ eatWhite rest = eatWhite data := by
  cases fuel with
  | zero => exact ⟨data, rfl, rfl⟩
  | succ fuel =>
    refine ⟨eatWhite data, ?_, eatWhite_eatWhite data⟩
    rw [joinAttributes]
    split
    · next heq => simp [heq] at h
    · rfl

theorem eatWhite_left (a : AttributeText) (hrest : EndsComponent rest) :
    eatWhite (a.left ++ rest) = rest := by
  have hhead : rest.head? ≠ some 32 := by
    intro h
    exact absurd (hrest 32 h) (by decide)
  unfold AttributeText.left
  cases a.value with
  | plain cs => exact eatWhite_of_head hhead
  | quoted cs => rw [eatWhite_spaces, eatWhite_of_head hhead]

/-- A component with one attribute is read up to the next component. -/
theorem parseNameComponent_text (ha : a.Readable) (hrest : EndsComponent rest) :
    ∃ left, parseNameComponent (a.text ++ rest) = .ok ((a.type, a.kept), left) ∧
      eatWhite left = rest := by
  have hplus : (eatWhite (a.left ++ rest)).head? ≠ some 43 := by
    rw [eatWhite_left a hrest]
    intro h
    exact absurd (hrest 43 h) (by decide)
  obtain ⟨left, hjoin, hleft⟩ :=
    joinAttributes_stop (a.left ++ rest).length (a.type, a.kept) hplus
  refine ⟨left, ?_, hleft.trans (eatWhite_left a hrest)⟩
  rw [parseNameComponent, parseAttributeTypeAndValue_text ha hrest]
  exact hjoin

theorem AttributeText.text_ne_nil (a : AttributeText) (rest : ByteString) :
    (a.text ++ rest).isEmpty = false := by
  simp [AttributeText.text]

variable {as : List AttributeText}

/-- A list of names with one attribute each is read attribute by attribute. -/
theorem parseStrictLoop_text (has : ∀ a ∈ as, a.Readable) {fuel : Nat} (hfuel : as.length ≤ fuel) :
    parseStrictLoop fuel (nameText (as.map fun a => [a])) =
      .ok (as.map fun a => (a.type, a.kept)) := by
  induction as generalizing fuel with
  | nil => cases fuel <;> rfl
  | cons a as ih =>
    obtain ⟨fuel, rfl⟩ : ∃ n, fuel = n + 1 := ⟨fuel - 1, by simp at hfuel; omega⟩
    have ha := has a mem_cons_self
    cases as with
    | nil =>
      have hend : EndsComponent [] := by simp [EndsComponent]
      obtain ⟨left, hread, hleft⟩ := parseNameComponent_text ha hend
      rw [append_nil] at hread
      have hne := a.text_ne_nil []
      rw [append_nil] at hne
      simp only [map_cons, map_nil, nameText, componentText, parseStrictLoop, hne, hread,
        bind, Except.bind, hleft]
      rfl
    | cons b as =>
      have ih := ih (fun c hc => has c (mem_cons_of_mem _ hc)) (by simpa using hfuel)
      have hend : EndsComponent (44 :: nameText ((b :: as).map fun a => [a])) := by
        simp [EndsComponent]
      obtain ⟨left, hread, hleft⟩ := parseNameComponent_text ha hend
      have hne := a.text_ne_nil (44 :: nameText ((b :: as).map fun a => [a]))
      simp only [map_cons] at ih hread hleft hne ⊢
      simp only [nameText, componentText, parseStrictLoop, hne, hread, bind, Except.bind, hleft,
        true_or, if_true, ih]
      rfl

/-! ## Removing the escapes -/

/-- The items that `unescape` sees of one byte in a value without quotes. -/
def CharText.items : CharText → List (ByteString × ByteString)
  | raw c => [([c], [c])]
  | pair c => [([92, c], [c])]
  | hex high low => [([high], [high]), ([low], [low])]

theorem CharText.items_fst (c : CharText) : c.items.flatMap Prod.fst = c.kept := by
  cases c <;> rfl

theorem CharText.items_snd (c : CharText) : c.items.flatMap Prod.snd = c.unescaped := by
  cases c <;> rfl

theorem unescapeItem_raw {c : UInt8} (h : c ≠ 92) (tail : ByteString) :
    unescapeItem ([c] ++ tail) = .ok (some ([c], tail)) := by
  simp [unescapeItem, h]

theorem unescapeItem_items {c : CharText} (h : c.Valid (92 :: 34 :: special))
    {i : ByteString × ByteString} (hi : i ∈ c.items) (tail : ByteString) :
    unescapeItem (i.1 ++ tail) = .ok (some (i.2, tail)) := by
  cases c with
  | raw c =>
    obtain rfl : i = ([c], [c]) := by simpa [items] using hi
    simp only [CharText.Valid, mem_cons, not_or] at h
    exact unescapeItem_raw h.1 tail
  | pair c =>
    obtain rfl : i = ([92, c], [c]) := by simpa [items] using hi
    have hc : isEscapable c = true := h
    simp [unescapeItem, hc]
  | hex high low =>
    obtain rfl | rfl : i = ([high], [high]) ∨ i = ([low], [low]) := by
      simpa [items] using hi
    · exact unescapeItem_raw (isHex_ne_backslash h.1) tail
    · exact unescapeItem_raw (isHex_ne_backslash h.2) tail

/-- A value without quotes loses its escapes. -/
theorem many_unescapeItem {cs : List CharText} (n : Nat) {fuel : Nat}
    (hcs : ∀ c ∈ cs, c.Valid (92 :: 34 :: special))
    (hfuel : (cs.flatMap kept ++ replicate n (32 : UInt8)).length ≤ fuel) :
    many unescapeItem fuel (cs.flatMap kept ++ replicate n 32) =
      .ok (cs.flatMap CharText.unescaped ++ replicate n 32, []) := by
  let items := (cs ++ replicate n (raw 32)).flatMap items
  have hspace : CharText.Valid (92 :: 34 :: special) (.raw 32) := by
    simp [CharText.Valid, special]
  have hitem : ∀ i ∈ items, ∀ tail, unescapeItem (i.1 ++ tail) = .ok (some (i.2, tail)) := by
    intro i hi tail
    obtain ⟨c, hc, hi⟩ := mem_flatMap.mp hi
    rcases mem_append.mp hc with hc | hc
    · exact unescapeItem_items (hcs c hc) hi tail
    · rw [eq_of_mem_replicate hc] at hi
      exact unescapeItem_items hspace hi tail
  have hkept : items.flatMap Prod.fst = cs.flatMap kept ++ replicate n 32 := by
    rw [flatMap_assoc]
    simp [items_fst, flatMap_replicate, flatten_replicate_singleton]
  have hread : items.flatMap Prod.snd = cs.flatMap CharText.unescaped ++ replicate n 32 := by
    rw [flatMap_assoc]
    simp [items_snd, flatMap_replicate, flatten_replicate_singleton]
  have hlength : items.length ≤ (items.flatMap Prod.fst).length := by
    refine length_le_flatMap fun i hi => ?_
    obtain ⟨c, -, hi⟩ := mem_flatMap.mp hi
    cases c <;> simp_all [CharText.items]
    rcases hi with rfl | rfl <;> simp
  have h := many_flatMap hitem (show unescapeItem [] = .ok none from rfl)
    (hlength.trans (hkept ▸ hfuel))
  rwa [append_nil, hkept, hread] at h

/-- `unescape` reads the value of an attribute as `read` says. -/
theorem unescape_kept (ha : a.Readable) : unescape a.kept = .ok a.read := by
  obtain ⟨-, hvalue⟩ := ha
  unfold AttributeText.kept AttributeText.read
  cases hv : a.value with
  | plain cs =>
    rw [hv] at hvalue
    obtain ⟨hcs, -, hempty⟩ := hvalue
    have hmany := many_unescapeItem a.after hcs le_rfl
    dsimp only
    cases hdata : cs.flatMap kept ++ replicate a.after 32 with
    | nil =>
      rw [hdata] at hmany
      have hread : [] = cs.flatMap CharText.unescaped ++ replicate a.after 32 :=
        congrArg Prod.fst (Except.ok.inj hmany)
      rw [← hread]
      rfl
    | cons c tail =>
      have hc : c ≠ 35 ∧ c ≠ 34 := by
        match cs with
        | [] => simp [hempty rfl] at hdata
        | .raw b :: cs =>
          obtain rfl : b = c := (cons.inj hdata).1
          have hb := hcs _ mem_cons_self
          simp only [CharText.Valid, special, mem_cons, not_mem_nil, or_false, not_or]
            at hb
          exact ⟨by tauto, by tauto⟩
        | .pair b :: cs =>
          obtain rfl : 92 = c := (cons.inj hdata).1
          decide
        | .hex h l :: cs =>
          obtain rfl : h = c := (cons.inj hdata).1
          have hb := hcs _ mem_cons_self
          refine ⟨?_, ?_⟩ <;> rintro rfl <;> exact absurd hb.1 (by decide)
      rw [hdata] at hmany
      simp only [unescape, hc.1, hc.2, if_false, hmany]
      rfl
  | quoted cs =>
    have hlast : (34 :: (cs.flatMap kept ++ [34])).getLast? = some 34 := by
      rw [← cons_append, getLast?_concat]
    simp [unescape, hlast]

theorem unescapeAll_kept (has : ∀ a ∈ as, a.Readable) :
    unescapeAll (as.map fun a => (a.type, a.kept)) = .ok (as.map fun a => (a.type, a.read)) := by
  induction as with
  | nil => rfl
  | cons a as ih =>
    have ih := ih fun b hb => has b (mem_cons_of_mem _ hb)
    simp only [map_cons, unescapeAll, unescape_kept (has a mem_cons_self), ih, bind, Except.bind]
    rfl

theorem length_le_nameText (as : List AttributeText) :
    as.length ≤ (nameText (as.map fun a => [a])).length := by
  induction as with
  | nil => simp
  | cons a as ih =>
    have : 1 ≤ a.text.length := by simp [AttributeText.text]; omega
    cases as with
    | nil => simpa [nameText, componentText] using this
    | cons b as =>
      simp only [map_cons, nameText, componentText, length_append, length_cons]
        at ih ⊢
      omega

/-- A text of names with one attribute each is accepted, and read attribute by attribute. -/
theorem ofString_nameText (has : ∀ a ∈ as, a.Readable) : ofString (nameText (as.map fun a => [a])) =
      .ok ⟨as.map fun a => (a.type, a.kept), as.map fun a => (a.type, a.read)⟩ := by
  simp only [ofString, parseStrict, parseStrictLoop_text has (length_le_nameText as), bind,
    Except.bind, ofRdns, unescapeAll_kept has]
  rfl

/-! ## Faithful texts -/

/-- Bytes written with more than one byte each make a longer value. -/
theorem flatMap_eq_bytes {f : CharText → ByteString} (hpos : ∀ c, 1 ≤ (f c).length)
    (hone : ∀ c, (f c).length = 1 → f c = [c.byte]) (cs : List CharText) (n : Nat) :
    cs.flatMap f ++ replicate n 32 = cs.map byte ↔
      (∀ c ∈ cs, (f c).length = 1) ∧ n = 0 := by
  have hle : ∀ cs : List CharText, cs.length ≤ (cs.flatMap f).length ∧
      ((cs.flatMap f).length = cs.length → ∀ c ∈ cs, (f c).length = 1) := by
    intro cs
    induction cs with
    | nil => simp
    | cons c cs ih =>
      have hc := hpos c
      simp only [flatMap_cons, length_append, length_cons, forall_mem_cons]
      refine ⟨by omega, fun h => ⟨by omega, ih.2 (by omega)⟩⟩
  constructor
  · intro h
    have hlength := congrArg length h
    simp only [length_append, length_replicate, length_map] at hlength
    have := (hle cs).1
    exact ⟨(hle cs).2 (by omega), by omega⟩
  · rintro ⟨hall, rfl⟩
    rw [replicate_zero, append_nil]
    induction cs with
    | nil => rfl
    | cons c cs ih =>
      rw [flatMap_cons, hone c (hall c mem_cons_self), ih fun d hd => hall d (mem_cons_of_mem _ hd)]
      rfl

/-- A value is read as what it stands for exactly if it is written plainly. -/
theorem AttributeText.read_eq_iff (a : AttributeText) : a.read = a.value.value ↔ a.Plain := by
  unfold AttributeText.read AttributeText.Plain ValueText.value
  cases a.value with
  | plain cs =>
    have h := flatMap_eq_bytes (f := CharText.unescaped)
      (fun c => by cases c <;> simp [CharText.unescaped])
      (fun c hc => by cases c <;> simp_all [CharText.unescaped, CharText.byte]) cs a.after
    refine h.trans (and_congr_left' (forall₂_congr fun c _ => ?_))
    cases c <;> simp [CharText.unescaped]
  | quoted cs =>
    have h := flatMap_eq_bytes (f := CharText.kept) (fun c => by cases c <;> simp [CharText.kept])
      (fun c hc => by cases c <;> simp_all [CharText.kept, CharText.byte]) cs 0
    rw [replicate_zero, append_nil] at h
    refine h.trans ?_
    simp only [and_true]
    refine forall₂_congr fun c _ => ?_
    cases c <;> simp [CharText.kept]

/-- The text is accepted, read as the names that it stands for, and what `toString` makes of it is
    read as an equal name. -/
def Faithful (t : List (List AttributeText)) : Prop :=
  ∃ dn, DistinguishedName.ofString (nameText t) = .ok dn ∧
    dn.unescaped.map (fun p => [p]) = names t ∧
    ∃ again, DistinguishedName.ofString dn.toString = .ok again ∧ again.eq dn = true

/-- Every name has a single attribute, written plainly. -/
def PlainNames (t : List (List AttributeText)) : Prop := ∀ c ∈ t, ∃ a, c = [a] ∧ a.Plain

/-- The text without the spaces that are ignored. -/
def AttributeText.bare (a : AttributeText) : AttributeText := { type := a.type, value := a.value }

theorem AttributeText.Readable.bare (ha : a.Readable) : a.bare.Readable := by
  obtain ⟨htype, hvalue⟩ := ha
  refine ⟨htype, ?_⟩
  cases hv : a.value with
  | plain cs =>
    rw [hv] at hvalue
    simpa [AttributeText.bare, hv] using ⟨hvalue.1, hvalue.2.1⟩
  | quoted cs =>
    simpa [AttributeText.bare, hv] using hvalue

/-- What is kept of a value written plainly is what is written. -/
theorem AttributeText.Plain.kept_eq (h : a.Plain) :
    a.kept = a.value.text ∧ a.bare.kept = a.kept ∧ a.bare.read = a.read := by
  unfold AttributeText.Plain at h
  unfold AttributeText.kept AttributeText.read AttributeText.bare
  cases hv : a.value with
  | plain cs =>
    simp only [hv] at h
    have hsame : ∀ cs : List CharText, (∀ c ∈ cs, ∀ high low, c ≠ .hex high low) →
        cs.flatMap CharText.kept = cs.flatMap CharText.text := by
      intro cs hcs
      refine flatMap_congr fun c hc => ?_
      cases c with
      | raw c => rfl
      | pair c => rfl
      | hex high low => exact absurd rfl (hcs _ hc high low)
    simp [h.2, ValueText.text, hsame cs h.1]
  | quoted cs =>
    simp only [hv] at h
    have hsame : cs.flatMap CharText.kept = cs.flatMap CharText.text := by
      refine flatMap_congr fun c hc => ?_
      obtain ⟨b, rfl⟩ := h c hc
      rfl
    simp [ValueText.text, hsame]

theorem joinRdns_eq_nameText (has : ∀ a ∈ as, a.Plain) :
    joinRdns (as.map fun a => (a.type, a.kept)) =
      nameText ((as.map AttributeText.bare).map fun a => [a]) := by
  have htext : ∀ a : AttributeText, a.bare.text = a.type ++ [61] ++ a.value.text := by
    intro a
    simp [AttributeText.text, AttributeText.bare]
  induction as with
  | nil => rfl
  | cons a as ih =>
    have ih := ih fun b hb => has b (mem_cons_of_mem _ hb)
    have ha := (has a mem_cons_self).kept_eq.1
    cases as with
    | nil => simp [joinRdns, nameText, componentText, htext, ha]
    | cons b as =>
      simp only [map_cons] at ih ⊢
      simp [joinRdns, nameText, componentText, htext, ha, ih]

variable {t : List (List AttributeText)}

theorem singletons_of_names (h : ∀ c ∈ t, ∃ a, c = [a]) : ∃ as :
    List AttributeText, t = as.map fun a => [a] := by
  induction t with
  | nil => exact ⟨[], rfl⟩
  | cons c t ih =>
    obtain ⟨a, rfl⟩ := h c mem_cons_self
    obtain ⟨as, rfl⟩ := ih fun d hd => h d (mem_cons_of_mem _ hd)
    exact ⟨a :: as, rfl⟩

theorem faithful_of_plain (ht : NameValid t) (h : PlainNames t) : Faithful t := by
  obtain ⟨as, rfl⟩ := singletons_of_names fun c hc => (h c hc).imp fun a ha => ha.1
  have hread : ∀ a ∈ as, a.Readable := fun a ha =>
    ((ht [a] (mem_map_of_mem ha)).2 a mem_cons_self).readable
  have hplain : ∀ a ∈ as, a.Plain := by
    intro a ha
    obtain ⟨b, hb, hplain⟩ := h [a] (mem_map_of_mem ha)
    rwa [singleton_inj.mp hb]
  refine ⟨_, ofString_nameText hread, ?_, ?_⟩
  · rw [names, map_map, map_map]
    refine map_congr_left fun a ha => ?_
    simp [AttributeText.meaning, a.read_eq_iff.mpr (hplain a ha)]
  · have hbare : ∀ a ∈ as.map AttributeText.bare, a.Readable := by
      intro a ha
      obtain ⟨b, hb, rfl⟩ := mem_map.mp ha
      exact (hread b hb).bare
    have hagain := ofString_nameText hbare
    rw [← joinRdns_eq_nameText hplain] at hagain
    refine ⟨_, hagain, ?_⟩
    simp only [eq, beq_iff_eq, map_map]
    refine map_congr_left fun a ha => ?_
    exact Prod.ext rfl (hplain a ha).kept_eq.2.2

theorem plain_of_faithful (ht : NameValid t) (h : Faithful t) : PlainNames t := by
  obtain ⟨dn, hdn, hnames, -⟩ := h
  -- the names that are read have one attribute each
  have hsingle : ∀ c ∈ t, ∃ a, c = [a] := by
    intro c hc
    have hmem : c.map AttributeText.meaning ∈ dn.unescaped.map fun p => [p] := by
      rw [hnames]
      exact mem_map_of_mem hc
    obtain ⟨p, -, hp⟩ := mem_map.mp hmem
    have hlength := congrArg length hp
    rw [length_singleton, length_map] at hlength
    exact length_eq_one_iff.mp hlength.symm
  obtain ⟨as, rfl⟩ := singletons_of_names hsingle
  have hread : ∀ a ∈ as, a.Readable := fun a ha =>
    ((ht [a] (mem_map_of_mem ha)).2 a mem_cons_self).readable
  rw [ofString_nameText hread] at hdn
  obtain rfl := Except.ok.inj hdn
  intro c hc
  obtain ⟨a, ha, rfl⟩ := mem_map.mp hc
  refine ⟨a, rfl, a.read_eq_iff.mp ?_⟩
  rw [names, map_map, map_map] at hnames
  have := map_inj_left.mp hnames a ha
  simpa [AttributeText.meaning] using this

theorem readings_of_plain (h : PlainNames t) : readings t = names t := by
  refine map_congr_left fun c hc => ?_
  obtain ⟨a, rfl, ha⟩ := h c hc
  simp [AttributeText.meaning, a.read_eq_iff.mpr ha]

/-- A text of names with one attribute each is accepted, and read as `readings` says. -/
theorem ofString_readings (ht : NameValid t) (h : ∀ c ∈ t, ∃ a, c = [a]) :
    ∃ dn, ofString (nameText t) = .ok dn ∧ dn.unescaped.map (fun p => [p]) = readings t := by
  obtain ⟨as, rfl⟩ := singletons_of_names h
  have hread : ∀ a ∈ as, a.Readable := fun a ha =>
    ((ht [a] (mem_map_of_mem ha)).2 a mem_cons_self).readable
  refine ⟨_, ofString_nameText hread, ?_⟩
  rw [readings, map_map, map_map]
  rfl

/-- A text is read faithfully exactly if its names have a single attribute each, without hex pairs
    and without spaces after a value that is not in quotes, and without escapes in quotes. Two texts
    of names with one attribute each give equal objects exactly if the same is read of them; if both
    are read faithfully, exactly if they stand for the same names. -/
theorem distinguishedName_faithful {t₁ : List (List AttributeText)} (ht₁ : NameValid t₁) :
    (Faithful t₁ ↔ PlainNames t₁) ∧ ∀ t₂, NameValid t₂ → (∀ c ∈ t₁ ++ t₂, ∃ a, c = [a]) →
      ∃ dn₁ dn₂, DistinguishedName.ofString (nameText t₁) = .ok dn₁ ∧
        DistinguishedName.ofString (nameText t₂) = .ok dn₂ ∧
        (dn₁.eq dn₂ = true ↔ readings t₁ = readings t₂) ∧
        (PlainNames t₁ → PlainNames t₂ → (dn₁.eq dn₂ = true ↔ names t₁ = names t₂)) := by
  refine ⟨⟨plain_of_faithful ht₁, faithful_of_plain ht₁⟩, fun t₂ ht2 hone => ?_⟩
  obtain ⟨hone1, hone2⟩ := forall_mem_append.mp hone
  obtain ⟨dn₁, hdn1, hread1⟩ := ofString_readings ht₁ hone1
  obtain ⟨dn₂, hdn2, hread2⟩ := ofString_readings ht2 hone2
  have heq : dn₁.eq dn₂ = true ↔ readings t₁ = readings t₂ := by
    rw [eq, beq_iff_eq, ← hread1, ← hread2]
    exact (map_injective_iff.mpr fun _ _ h => singleton_inj.mp h).eq_iff.symm
  refine ⟨dn₁, dn₂, hdn1, hdn2, heq, fun h1 h2 => ?_⟩
  rw [heq, readings_of_plain h1, readings_of_plain h2]

/-- The text `O="a, b" , CN=x\,y`. -/
def quotedName : List (List AttributeText) :=
  [[{ type := [79], value := .quoted [.raw 97, .raw 44, .raw 32, .raw 98], after := 1 }],
    [{ before := 1, type := [67, 78], value := .plain [.raw 120, .pair 44, .raw 121] }]]

/-- The text `O = a\, b,CN="x,y"`. -/
def escapedName : List (List AttributeText) :=
  [[{ type := [79], afterType := 1, beforeValue := 1,
      value := .plain [.raw 97, .pair 44, .raw 32, .raw 98] }],
    [{ type := [67, 78], value := .quoted [.raw 120, .raw 44, .raw 121] }]]

/-- Both texts stand for the names `a, b` and `x,y`: they are read faithfully and give equal
    objects. -/
theorem distinguishedName_faithful_quotedName : Faithful quotedName ∧ Faithful escapedName ∧
    ∃ dn₁ dn₂, ofString (nameText quotedName) = .ok dn₁ ∧
    ofString (nameText escapedName) = .ok dn₂ ∧
      dn₁.eq dn₂ = true := by
  have hquoted : NameValid quotedName := by
    simp [NameValid, quotedName, AttributeText.Valid, ValueText.Valid, CharText.Valid, special]
    decide
  have hescaped : NameValid escapedName := by
    simp [NameValid, escapedName, AttributeText.Valid, ValueText.Valid, CharText.Valid, special]
    decide
  have hplain1 : PlainNames quotedName := by simp [PlainNames, quotedName, AttributeText.Plain]
  have hplain2 : PlainNames escapedName := by simp [PlainNames, escapedName, AttributeText.Plain]
  obtain ⟨dn₁, dn₂, hdn1, hdn2, -, heq⟩ :=
    (distinguishedName_faithful hquoted).2 escapedName hescaped
      (by simp [quotedName, escapedName])
  exact ⟨(distinguishedName_faithful hquoted).1.mpr hplain1,
    (distinguishedName_faithful hescaped).1.mpr hplain2, dn₁, dn₂, hdn1, hdn2,
    (heq hplain1 hplain2).mpr rfl⟩

/-- `CN=\41` stands for the name `A`, and is read as the name `41`. -/
theorem distinguishedName_hexPair :
    let cn : ByteString := [67, 78]
    let t₁ : List (List AttributeText) := [[{ type := cn, value := .plain [.hex 52 49] }]]
    let t₂ : List (List AttributeText) := [[{ type := cn, value := .plain [.raw 52, .raw 49] }]]
    names t₁ = [[(cn, [65])]] ∧ names t₂ = [[(cn, [52, 49])]] ∧
    ∃ dn₁ dn₂, ofString (nameText t₁) = .ok dn₁ ∧
      ofString (nameText t₂) = .ok dn₂ ∧ dn₁.eq dn₂ = true := by
  refine ⟨by decide, by decide, _, _, rfl, rfl, by decide⟩

end Ice.SSL
