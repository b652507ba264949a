import Ice.Proxy.Options

/-!
# Proxies that are read back from their strings

A reference without endpoints is written with `Reference::toString` and read with
`ReferenceFactory::create`. It is read back but for four defects: a component in quotes that ends
with a backslash loses its closing quote, a facet that starts with a dash and is not in quotes is
taken for an option, and a version with major number 0 is written and refused.
-/

namespace Ice.Proxy

open Misc List Setting Options

variable {ε : Type}

/-! ## What is written -/

def Mode.settings : Mode → List Setting
  | .twoway => []
  | .oneway => [⟨'o', none⟩]
  | .batchOneway => [⟨'O', none⟩]
  | .datagram => [⟨'d', none⟩]
  | .batchDatagram => [⟨'D', none⟩]

/-- The options behind the facet. -/
def Reference.settings (r : Reference ε) (defaultEncoding : Version) : List Setting :=
  r.mode.settings ++
    ((if r.protocol ≠ protocol10 then [⟨'p', some r.protocol.toText⟩] else []) ++
      if r.encoding ≠ encoding11 ∨ defaultEncoding ≠ encoding11 then [⟨'e', some r.encoding.toText⟩]
      else [])

theorem Mode.flatMap_settings (mode : Mode) :
    mode.settings.flatMap Setting.toText = mode.toText := by
  cases mode <;> rfl

theorem Setting.toText_version (c : Char) (v : Version) :
    toText ⟨c, some v.toText⟩ = [' ', '-', c, ' '] ++ v.toText := by
  simp only [toText, argumentText, quote_of_not_needsQuotes v.not_needsQuotes_toText]
  rfl

theorem Reference.flatMap_settings (r : Reference ε) (defaultEncoding : Version) :
    (r.settings defaultEncoding).flatMap toText =
      r.mode.toText ++ (protocolText r.protocol ++ encodingText defaultEncoding r.encoding) := by
  have hprotocol : (if r.protocol ≠ protocol10 then [⟨'p', some r.protocol.toText⟩] else []).flatMap
      toText = protocolText r.protocol := by
    unfold protocolText
    split_ifs
    · simp [toText_version]
    · rfl
  have hencoding : (if r.encoding ≠ encoding11 ∨ defaultEncoding ≠ encoding11 then
      [⟨'e', some r.encoding.toText⟩] else []).flatMap toText =
        encodingText defaultEncoding r.encoding := by
    unfold encodingText
    split_ifs
    · simp [toText_version]
    · rfl
  rw [Reference.settings, flatMap_append, flatMap_append, r.mode.flatMap_settings,
    hprotocol, hencoding]

/-- The facet and the adapter id as they are written, given their escaped texts. -/
def facetSettings (facet : Text) : List Setting := if facet = [] then [] else [⟨'f', some facet⟩]

def targetText (adapterId : Text) : Text :=
  if adapterId = [] then [] else ' ' :: '@' :: ' ' :: quote adapterId

/-- The escaped texts of the components of a reference. -/
structure Reference.Written (r : Reference ε) (id facet adapterId : Text) : Prop where
  identity : IdentityText r.identity id
  facet : Escaped [] r.facet facet
  adapterId : Escaped [] r.adapterId adapterId

/-- The string of a reference without endpoints. -/
def Reference.text (r : Reference ε) (defaultEncoding : Version) (id facet adapterId : Text) :
    Text :=
  quote id ++ ((facetSettings facet ++ r.settings defaultEncoding).flatMap Setting.toText ++
    targetText adapterId)

variable {r : Reference ε}

variable (o : Options)

/-- A reference is written component by component. -/
theorem Reference.toString_spec (hendpoints : r.endpoints = [])
    (hne : r.identity.name ≠ []) (hname : ValidUTF8 r.identity.name)
    (hcategory : ValidUTF8 r.identity.category) (hfacet : ValidUTF8 r.facet)
    (hadapterId : ValidUTF8 r.adapterId) (endpointToString : ε → Text) (mode : ToStringMode)
    (defaultEncoding : Version) : ∃ id facet adapterId, r.Written id facet adapterId ∧
      r.toString endpointToString mode defaultEncoding =
        .ok (r.text defaultEncoding id facet adapterId) := by
  obtain ⟨id, hid, hidText⟩ := identityToString_spec _ hne hname hcategory mode
  obtain ⟨facet, hfacet, hfacetText⟩ := escapeString_spec (by simp : ∀ c ∈ [], c = '/') hfacet mode
  obtain ⟨adapterId, hadapterId, hadapterText⟩ :=
    escapeString_spec (by simp : ∀ c ∈ [], c = '/') hadapterId mode
  refine ⟨id, facet, adapterId, ⟨hidText, hfacetText, hadapterText⟩, ?_⟩
  have hbase : r.baseToString mode defaultEncoding = .ok (quote id ++
      ((facetSettings facet).flatMap toText ++ (r.mode.toText ++
        (protocolText r.protocol ++ encodingText defaultEncoding r.encoding)))) := by
    rw [Reference.baseToString, hid, hfacet, facetSettings]
    dsimp only [bind, Except.bind]
    by_cases hnil : r.facet = []
    · rw [if_pos hnil, if_pos (hfacetText.eq_nil_iff.mpr hnil)]
      rfl
    · rw [if_neg hnil, if_neg fun he => hnil (hfacetText.eq_nil_iff.mp he), flatMap_singleton]
      rfl
  rw [Reference.text, flatMap_append, r.flatMap_settings, ← append_assoc, Reference.toString, hbase]
  dsimp only [bind, Except.bind]
  rw [if_neg (by simp [hendpoints]), hadapterId]
  unfold targetText
  by_cases hnil : r.adapterId = []
  · rw [if_neg (by simp [hnil]), if_pos (hadapterText.eq_nil_iff.mpr hnil), append_nil]
    rfl
  · rw [if_pos hnil, if_neg fun he => hnil (hadapterText.eq_nil_iff.mp he)]
    rfl

/-! ## Setting the options -/

theorem Options.setAll_append (xs ys : List Setting) :
    o.setAll (xs ++ ys) = o.setAll xs >>= fun o => o.setAll ys :=
  foldlM_append

theorem Options.set_protocol (v : Version) :
    o.set 'p' v.toText = if v.major = 0 then
      .error .versionRange else .ok { o with protocol := v } := by
  rw [set, if_neg v.toText_ne_nil, stringToMajorMinor_toText]
  split_ifs <;> rfl

theorem Options.set_encoding (v : Version) :
    o.set 'e' v.toText = if v.major = 0 then
      .error .versionRange else .ok { o with encoding := v } := by
  rw [set, if_neg v.toText_ne_nil, stringToMajorMinor_toText]
  split_ifs <;> rfl

theorem Options.setAll_mode {o : Options} (ho : o.mode = .twoway) (mode : Mode) :
    o.setAll mode.settings = .ok { o with mode } := by
  cases mode
  case twoway =>
    obtain ⟨facet, _, encoding, protocol⟩ := o
    cases ho
    rfl
  all_goals rfl

theorem Options.setAll_singleton (c : Char) (e : Text) :
    o.setAll [⟨c, some e⟩] = o.set c e := by
  simp [setAll]

/-- What the options behind the facet set. -/
theorem Reference.setAll_settings (r : Reference ε) (defaultEncoding : Version) (facet : Text) :
    setAll { facet, encoding := defaultEncoding } (r.settings defaultEncoding) =
      if r.protocol.major = 0 ∨ r.encoding.major = 0 then .error .versionRange
      else .ok ⟨facet, r.mode, r.encoding, r.protocol⟩ := by
  rw [Reference.settings, setAll_append, setAll_mode rfl]
  dsimp only [bind, Except.bind]
  rw [setAll_append]
  have hprotocol : setAll ⟨facet, r.mode, defaultEncoding, protocol10⟩
      (if r.protocol ≠ protocol10 then [⟨'p', some r.protocol.toText⟩] else []) =
        if r.protocol.major = 0 then .error .versionRange
        else .ok ⟨facet, r.mode, defaultEncoding, r.protocol⟩ := by
    by_cases h : r.protocol = protocol10
    · rw [if_neg (by simp [h]), h]
      rfl
    · rw [if_pos h, setAll_singleton, set_protocol]
  have hencoding : ∀ protocol : Version, setAll ⟨facet, r.mode, defaultEncoding, protocol⟩
      (if r.encoding ≠ encoding11 ∨ defaultEncoding ≠ encoding11 then
        [⟨'e', some r.encoding.toText⟩] else []) =
        if r.encoding.major = 0 then .error .versionRange
        else .ok ⟨facet, r.mode, r.encoding, protocol⟩ := by
    intro protocol
    by_cases h : r.encoding ≠ encoding11 ∨ defaultEncoding ≠ encoding11
    · rw [if_pos h, setAll_singleton, set_encoding]
    · -- the default encoding is the encoding
      obtain ⟨hencoding, hdefault⟩ : r.encoding = encoding11 ∧ defaultEncoding = encoding11 := by
        simpa only [not_or, not_not] using h
      rw [if_neg h, hencoding, hdefault]
      rfl
  rw [hprotocol]
  by_cases hmajor : r.protocol.major = 0
  · simp only [hmajor, if_true, true_or]
    rfl
  · simp only [hmajor, if_false, false_or]
    exact hencoding r.protocol

theorem Mode.settings_readable (mode : Mode) : ∀ x ∈ mode.settings, x.Readable := by
  have hnone : ∀ c, isWhiteOrSeparator c = false → Setting.Readable ⟨c, none⟩ :=
    fun c hc => ⟨hc, by simp, by simp, by simp⟩
  intro x hx
  cases mode
  case twoway => cases hx
  all_goals
    obtain rfl := mem_singleton.mp hx
    exact hnone _ (by decide)

theorem readable_version {c : Char} (hc : isWhiteOrSeparator c = false) (v : Version) :
    Setting.Readable ⟨c, some v.toText⟩ := by
  refine ⟨hc, ?_, ?_, ?_⟩
  · rintro _ ⟨⟩
    exact ⟨v.shape_toText, v.toText_ne_nil⟩
  · rintro _ ⟨⟩ hquotes
    exact absurd hquotes v.not_needsQuotes_toText
  · rintro _ ⟨⟩ hhead
    exact absurd rfl (Version.ne_of_mem_toText (mem_of_head? hhead) (by decide))

theorem Reference.mem_settings (r : Reference ε) {defaultEncoding : Version} {x : Setting}
    (hx : x ∈ r.settings defaultEncoding) :
    x ∈ r.mode.settings ∨ x = ⟨'p', some r.protocol.toText⟩ ∨
      x = ⟨'e', some r.encoding.toText⟩ := by
  rcases mem_append.mp hx with hx | hx
  · exact .inl hx
  rcases mem_append.mp hx with hx | hx
  · split_ifs at hx
    · exact .inr (.inl (mem_singleton.mp hx))
    · cases hx
  · split_ifs at hx
    · exact .inr (.inr (mem_singleton.mp hx))
    · cases hx

theorem Reference.settings_readable (r : Reference ε) (defaultEncoding : Version) :
    ∀ x ∈ r.settings defaultEncoding, x.Readable := by
  intro x hx
  rcases r.mem_settings hx with hx | rfl | rfl
  · exact r.mode.settings_readable x hx
  all_goals exact readable_version (by decide) _

theorem ends_targetText (adapterId : Text) : Ends (targetText adapterId) := by
  unfold targetText
  split_ifs
  · exact .inl rfl
  · exact .inr ⟨_, rfl⟩

/-! ## Reading -/

variable {factory : Text → Except ParseException (Option ε)}

/-- The steps of `ReferenceFactory::create` on a string that starts with an identity. -/
theorem create_eq_ok_iff {defaultEncoding : Version}
    {str : Text} (hne : str ≠ []) (hstart : str.dropWhile isWhite = str) :
    create factory defaultEncoding str = .ok (some r) ↔
      ∃ idstr rest, component isWhiteOrSeparator str = some (idstr, rest) ∧ idstr ≠ [] ∧
        ∃ ident o s, stringToIdentity idstr = .ok ident ∧
          parseOptions (rest.length + 1) { encoding := defaultEncoding } rest = .ok (o, s) ∧
          parseTarget factory ident o s = .ok r := by
  rw [create, if_neg hne, hstart]
  rw [if_neg hne]
  cases hcomponent : component isWhiteOrSeparator str with
  | none => simp
  | some result =>
    obtain ⟨idstr, rest⟩ := result
    dsimp only
    by_cases hid : idstr = []
    · rw [if_pos hid]
      have hno : ∀ (x : Prop) [Decidable x] (y : Prop) [Decidable y] (e1 e2 : ParseException),
          (if x then .error e1 else if y then .error e2 else .ok none) ≠
            (.ok (some r) : Except ParseException (Option (Reference ε))) := by
        intro x _ y _ e1 e2
        split_ifs <;> simp
      constructor
      · intro h
        exact absurd h (hno _ _ _ _)
      · rintro ⟨idstr', rest', heq, hne', -⟩
        cases heq
        exact absurd hid hne'
    · rw [if_neg hid]
      simp only [bind_eq_ok_iff, Prod.exists]
      constructor
      · rintro ⟨ident, hident, o, s, hoptions, r', htarget, heq⟩
        cases heq
        exact ⟨idstr, rest, rfl, hid, ident, o, s, hident, hoptions, htarget⟩
      · rintro ⟨_, _, heq, -, ident, o, s, hident, hoptions, htarget⟩
        cases heq
        exact ⟨ident, hident, o, s, hoptions, r, htarget, rfl⟩

/-- The closing quote of a component is found. -/
def Closes (s : Text) : Prop := NeedsQuotes s → s.getLast? ≠ some '\\'

instance (s : Text) : Decidable (Closes s) := inferInstanceAs (Decidable (_ → _))

theorem Escaped.closes_iff {special s e : Text} (h : Escaped special s e) :
    Closes e ↔ Closes s := by
  unfold Closes
  rw [h.needsQuotes_iff, ne_eq, h.last_backslash]

theorem Escaped.not_closes {special s e : Text} (h : Escaped special s e) (hcloses : ¬ Closes s) :
    NeedsQuotes e ∧ e.getLast? = some '\\' := by
  rw [← h.closes_iff] at hcloses
  simpa only [Closes, Classical.not_imp, not_not] using hcloses

theorem isWhiteOrSeparator_of_isWhite {c : Char} (h : isWhite c = true) :
    isWhiteOrSeparator c = true := by
  by_contra hnot
  rw [isWhite_of_not_whiteOrSeparator (by simpa using hnot)] at h
  cases h

theorem parseAdapter_quote {e : Text} (h : Shape e) (hne : e ≠ []) : parseAdapter (' ' :: quote e) =
      match component isWhite (quote e) with
      | none => .error .mismatchedAdapterQuotes
      | some (adapterstr, rest) =>
        if rest.dropWhile isWhite ≠ [] then .error .trailingCharacters
        else do
          let adapter ← (unescapeString adapterstr []).mapError .invalidAdapterId
          if adapter = [] then .error .emptyAdapterId else return adapter := by
  obtain ⟨c, t, hquote, hc, -⟩ := quote_eq_cons h hne
  have hdrop : (' ' :: quote e).dropWhile isWhite = quote e := by
    rw [dropWhile_cons_of_pos (by decide), hquote,
      dropWhile_cons_of_neg (by simp [isWhite_of_not_whiteOrSeparator hc])]
  rw [parseAdapter, hdrop]
  exact if_neg (by simp [hquote])

variable {s e : Text}

theorem parseAdapter_escaped (h : Escaped [] s e) (hne : s ≠ []) (hcloses : Closes s) :
    parseAdapter (' ' :: quote e) = .ok s := by
  have he : e ≠ [] := fun he => hne (h.eq_nil_iff.mp he)
  have hcomponent : component isWhite (quote e ++ []) = some (e, []) :=
    component_quote (fun _ => isWhiteOrSeparator_of_isWhite) h.shape he
      (h.closes_iff.mpr hcloses) (by simp)
  rw [append_nil] at hcomponent
  rw [parseAdapter_quote h.shape he, hcomponent]
  dsimp only
  rw [unescapeString_escaped (by simp) h]
  simp [Except.mapError, bind, Except.bind, hne, pure, Except.pure]

theorem parseAdapter_misled (h : Escaped [] s e) (hne : s ≠ []) (hcloses : ¬ Closes s) :
    parseAdapter (' ' :: quote e) = .error .mismatchedAdapterQuotes := by
  have he : e ≠ [] := fun he => hne (h.eq_nil_iff.mp he)
  obtain ⟨hquotes, hlast⟩ := h.not_closes hcloses
  have hcomponent := @component_misled _ isWhite h.shape hquotes hlast []
  rw [append_nil] at hcomponent
  rw [parseAdapter_quote h.shape he, hcomponent]
  rfl

/-- What is read behind the options. -/
theorem parseTarget_targetText (factory : Text → Except ParseException (Option ε))
    (ident : Identity)
    (o : Options) (h : Escaped [] s e) :
    parseTarget factory ident o ((targetText e).dropWhile isWhite) =
      if Closes s then .ok ⟨ident, o.facet, o.mode, o.protocol, o.encoding, [], s⟩
      else .error .mismatchedAdapterQuotes := by
  by_cases hnil : s = []
  · have he := h.eq_nil_iff.mpr hnil
    have hcloses : Closes s := by
      rw [hnil]
      decide
    rw [if_pos hcloses, he, hnil]
    rfl
  · have he : e ≠ [] := fun he => hnil (h.eq_nil_iff.mp he)
    have hdrop : (targetText e).dropWhile isWhite = '@' :: ' ' :: quote e := by
      rw [targetText, if_neg he, dropWhile_cons_of_pos (by decide),
        dropWhile_cons_of_neg (by decide)]
    rw [hdrop, parseTarget]
    · by_cases hcloses : Closes s
      · rw [if_pos hcloses, parseAdapter_escaped h hnil hcloses]
        rfl
      · rw [if_neg hcloses, parseAdapter_misled h hnil hcloses]
        rfl
    · decide

/-! ## The facet -/

/-- A facet that is not in quotes starts with no dash. -/
def NotOption (s : Text) : Prop := s.head? = some '-' → NeedsQuotes s

instance (s : Text) : Decidable (NotOption s) := inferInstanceAs (Decidable (_ → _))

theorem Escaped.notOption_iff {special s e : Text} (h : Escaped special s e) :
    NotOption e ↔ NotOption s := by
  unfold NotOption
  rw [h.needsQuotes_iff, h.head_minus]

theorem facetSettings_readable (h : Escaped [] s e) (hcloses : Closes s) (hoption : NotOption s) :
    ∀ x ∈ facetSettings e, x.Readable := by
  intro x hx
  unfold facetSettings at hx
  split_ifs at hx with hnil
  · cases hx
  · obtain rfl := mem_singleton.mp hx
    refine ⟨(by decide : isWhiteOrSeparator 'f' = false), ?_, ?_, ?_⟩
    · rintro _ ⟨⟩
      exact ⟨h.shape, hnil⟩
    · rintro _ ⟨⟩
      exact h.closes_iff.mpr hcloses
    · rintro _ ⟨⟩
      exact h.notOption_iff.mpr hoption

theorem setAll_facetSettings (h : Escaped [] s e) (defaultEncoding : Version) :
    setAll { encoding := defaultEncoding } (facetSettings e) =
      .ok { facet := s, encoding := defaultEncoding } := by
  unfold facetSettings
  by_cases hnil : e = []
  · rw [if_pos hnil, h.eq_nil_iff.mp hnil]
    rfl
  · rw [if_neg hnil, Options.setAll_singleton, Options.set, if_neg hnil,
      unescapeString_escaped (by simp) h]
    rfl

/-! ## A facet that has lost its quote -/

/-- Escaped text can be split behind a separator. -/
theorem Escaped.split {special s e pre post : Text} (h : Escaped special s e) (he : e = pre ++ post)
    (hlast : ∃ c ∈ pre.getLast?, c ∈ separators) :
    ∃ s1 s2, s = s1 ++ s2 ∧ Escaped special s1 pre ∧ Escaped special s2 post := by
  induction h generalizing pre with
  | nil =>
    obtain ⟨rfl, rfl⟩ := append_eq_nil_iff.mp he.symm
    simp at hlast
  | @plain c s e hc h ih =>
    cases pre with
    | nil => simp at hlast
    | cons d pre =>
      obtain ⟨rfl, hrest⟩ := cons_eq_cons.mp he
      by_cases hpre : pre = []
      · subst hpre
        obtain rfl : e = post := hrest
        exact ⟨[c], s, rfl, .plain hc .nil, h⟩
      · rw [getLast?_cons_of_ne_nil hpre] at hlast
        obtain ⟨s1, s2, rfl, h1, h2⟩ := ih hrest hlast
        exact ⟨c :: s1, s2, rfl, .plain hc h1, h2⟩
  | @escape u d t s e hescape h ih =>
    -- there is no separator in an escape sequence
    have hnone : ∀ c ∈ '\\' :: d :: t, c ∉ separators := by
      intro c hc hmem
      have hclass : ∀ x ∈ separators, x.isAlphanum = false ∧ x ≠ '\\' := by simp [separators]
      rcases mem_cons.mp hc with rfl | hc
      · exact (hclass _ hmem).2 rfl
      rcases mem_cons.mp hc with rfl | hc
      · exact (hescape.not_separator _ hmem).1 rfl
      · exact ne_of_isAlphanum (hescape.tail c hc) (hclass c hmem).1 rfl
    have hsplit : ('\\' :: d :: t) ++ e = pre ++ post := he
    obtain ⟨last, hlast, hmem⟩ := hlast
    rcases append_eq_append_iff.mp hsplit with ⟨pre', rfl, rfl⟩ | ⟨t', ht, rfl⟩
    · have hpre : pre' ≠ [] := by
        rintro rfl
        rw [append_nil] at hlast
        exact hnone last (mem_of_getLast? hlast) hmem
      rw [getLast?_append_of_ne_nil _ hpre] at hlast
      obtain ⟨s1, s2, rfl, h1, h2⟩ := ih rfl ⟨last, hlast, hmem⟩
      exact ⟨u ++ s1, s2, (append_assoc ..).symm, .escape hescape h1, h2⟩
    · have hin : last ∈ '\\' :: d :: t := by
        rw [ht]
        exact mem_append_left _ (mem_of_getLast? hlast)
      exact absurd hmem (hnone last hin)

theorem dropWhile_concat {p : Char → Bool} {c : Char} (hc : p c = false) (s : Text) :
    (s ++ [c]).dropWhile p = s.dropWhile p ++ [c] := by
  induction s with
  | nil => simp [hc]
  | cons d s ih =>
    by_cases hd : p d = true
    · simp [hd, ih]
    · simp [hd]

/-- What an adapter id is read as when it follows a quote. -/
theorem component_isWhite_concat {z adapterstr rest : Text} (hz : Shape z)
    (hcomponent : component isWhite (z ++ ['"']) = some (adapterstr, rest))
    (hrest : rest.dropWhile isWhite = []) : adapterstr = z ++ ['"'] := by
  cases z with
  | nil => cases hcomponent
  | cons c z =>
    rw [cons_append, component, if_neg (hz.head_not_quote rfl)] at hcomponent
    cases hcomponent
    have hsplit := @List.takeWhile_append_dropWhile _ (!isWhite ·) (c :: (z ++ ['"']))
    by_cases hnil : (c :: (z ++ ['"'])).dropWhile (!isWhite ·) = []
    · rwa [hnil, append_nil] at hsplit
    · -- the quote is behind the white space
      have hlast : '"' ∈ (c :: (z ++ ['"'])).dropWhile (!isWhite ·) := by
        have hget := congrArg getLast? hsplit
        rw [getLast?_append_of_ne_nil _ hnil, ← cons_append, getLast?_concat] at hget
        exact mem_of_getLast? hget
      have hwhite : isWhite '"' = true := by
        rw [dropWhile_eq_nil_iff] at hrest
        exact hrest _ hlast
      cases hwhite

/-- No part of the adapter id and its closing quote are read as the adapter id. -/
theorem parseAdapter_part {s e pre rest : Text} (h : Escaped [] s e)
    (he : e ++ ['"'] = pre ++ '@' :: rest) :
    parseAdapter rest ≠ .ok s := by
  obtain ⟨y, rfl, rfl⟩ : ∃ y, rest = y ++ ['"'] ∧ e = pre ++ '@' :: y := by
    rcases eq_nil_or_concat' rest with rfl | ⟨y, q, rfl⟩
    · have hget := congrArg getLast? he
      simp at hget
    · rw [← cons_append, ← append_assoc] at he
      obtain ⟨hfront, hq⟩ := append_inj' he rfl
      cases hq
      exact ⟨y, rfl, hfront⟩
  have hsplit : pre ++ '@' :: y = (pre ++ '@' :: y.takeWhile isWhite) ++ y.dropWhile isWhite := by
    rw [append_assoc, cons_append, takeWhile_append_dropWhile]
  have hlast : ∃ c ∈ (pre ++ '@' :: y.takeWhile isWhite).getLast?, c ∈ separators := by
    rw [getLast?_append_of_ne_nil _ (cons_ne_nil _ _)]
    obtain ⟨c, hc⟩ := getLast?_isSome.mpr (cons_ne_nil '@' (y.takeWhile isWhite)) |>
      Option.isSome_iff_exists.mp
    refine ⟨c, hc, ?_⟩
    rcases mem_cons.mp (mem_of_getLast? hc) with rfl | hmem
    · decide
    · have hwhite := mem_takeWhile_imp hmem
      have hnot := h.shape.not_white c
        (mem_append_right _ (mem_cons_of_mem _ (takeWhile_subset _ hmem)))
      have hcases : ∀ c ∈ [' ', '\t', '\r', '\n'], c ∉ ['\t', '\r', '\n'] → c ∈ separators := by
        simp [separators]
      exact hcases c (of_decide_eq_true hwhite) hnot
  obtain ⟨s1, s2, rfl, h1, h2⟩ := h.split hsplit hlast
  have hat : '@' ∈ s1 := (h1.mem_separator (by decide)).mp (by simp)
  intro hread
  rw [parseAdapter, dropWhile_concat (by decide), if_neg (by simp)] at hread
  cases hcomponent : component isWhite (y.dropWhile isWhite ++ ['"']) with
  | none =>
    rw [hcomponent] at hread
    cases hread
  | some result =>
    rw [hcomponent] at hread
    dsimp only at hread
    split_ifs at hread with hrest
    obtain ⟨adapter, hadapter, hread⟩ := bind_eq_ok_iff.mp hread
    split_ifs at hread with hnil
    cases hread
    rw [mapError_eq_ok_iff, component_isWhite_concat h2.shape hcomponent (not_not.mp hrest)]
      at hadapter
    obtain ⟨t, heq, ht⟩ := unescapeString_quote (by simp) h2 hadapter
    rw [ht rfl] at heq
    -- the lengths leave one character before, the quotes say that it is none of `@`
    have hlength := congrArg length heq
    have hcount := congrArg (count '"') heq
    obtain ⟨c, rfl⟩ : ∃ c, s1 = [c] := by
      rw [← length_eq_one_iff]
      simp at hlength
      omega
    obtain rfl := mem_singleton.mp hat
    simp at hcount

theorem Shape.flatMap {xs : List Setting} (h : ∀ x ∈ xs, Shape x.toText) :
    Shape (xs.flatMap toText) := by
  induction xs with
  | nil => exact .nil
  | cons x xs ih =>
    exact (h x mem_cons_self).append (ih fun y hy => h y (mem_cons_of_mem _ hy))

theorem Reference.shape_settings (r : Reference ε) (defaultEncoding : Version) :
    Shape ((r.settings defaultEncoding).flatMap toText) := by
  have hversion : ∀ (c : Char), 32 ≤ c.toNat ∧ c ≠ '\\' ∧ c ≠ '"' ∧ c ≠ '\'' → ∀ v : Version,
      Shape (toText ⟨c, some v.toText⟩) := by
    intro c hc v
    rw [toText_version]
    refine Shape.append (shape_of_forall ?_) v.shape_toText
    simpa using hc
  refine Shape.flatMap fun x hx => ?_
  rcases r.mem_settings hx with hx | rfl | rfl
  · have hmode : ∀ mode : Mode, ∀ x ∈ mode.settings, Shape x.toText := by
      intro mode x hx
      cases mode
      case twoway => cases hx
      all_goals
        obtain rfl := mem_singleton.mp hx
        exact shape_of_forall (by simp [toText, argumentText])
    exact hmode r.mode x hx
  · exact hversion 'p' (by decide) _
  · exact hversion 'e' (by decide) _

/-- The next quote behind a facet is the opening one of the adapter id. -/
theorem findClosing_targetText {text e : Text} (h : Shape text) (he : Shape e) :
    findClosing '"' '"' (text ++ targetText e) =
      if NeedsQuotes e then some (text ++ [' ', '@', ' '], e ++ ['"']) else none := by
  have hat : Shape [' ', '@', ' '] := shape_of_forall (by simp)
  by_cases hquotes : NeedsQuotes e
  · have hne : e ≠ [] := by
      rintro rfl
      revert hquotes
      decide
    have hclosing := findClosing_quoted (h.append hat) (by simp) (e ++ ['"'])
    rw [if_pos hquotes, targetText, if_neg hne, quote_of_needsQuotes hquotes]
    simpa using hclosing
  · have hshape : Shape (text ++ targetText e) := by
      unfold targetText
      split_ifs with hne
      · exact h.append .nil
      · rw [quote_of_not_needsQuotes hquotes]
        exact h.append (hat.append he)
    have hclosing := hshape.findClosing '"' []
    rw [append_nil] at hclosing
    rw [if_neg hquotes, hclosing]
    rfl

/-- Behind a facet without its quote, the options go on in the adapter id. -/
theorem parseOptions_misled {fuel : Nat} {o o' : Options} {facet text e s : Text}
    (hfacet : Shape facet)
    (hquotes : NeedsQuotes facet) (hlast : facet.getLast? = some '\\') (htext : Shape text)
    (hfollows : Follows (text ++ targetText e)) (he : Shape e)
    (hfuel : (toText ⟨'f', some facet⟩ ++ (text ++ targetText e)).length < fuel + 1)
    (h : parseOptions (fuel + 1) o (toText ⟨'f', some facet⟩ ++ (text ++ targetText e)) =
      .ok (o', s)) : NeedsQuotes e ∧ s <:+ e ++ ['"'] ∧ ∀ c ∈ s.head?, c = ':' ∨ c = '@' := by
  have hne : facet ≠ [] := by
    rintro rfl
    cases hlast
  obtain ⟨c, t, hquote, hc, hminus⟩ := quote_eq_cons hfacet hne
  have hdash : c ≠ '-' := fun h => (hminus.mp h).2 hquotes
  have hargument : optionArgument ['-', 'f']
      (argumentText ⟨'f', some facet⟩ ++ (text ++ targetText e)) =
      if NeedsQuotes e then .ok (facet ++ '"' :: (text ++ [' ', '@', ' ']), e ++ ['"'])
      else .error (.mismatchedQuotes (some ['-', 'f'])) := by
    have hcomponent := @component_misled _ isWhiteOrSeparator hfacet hquotes hlast
      (text ++ targetText e)
    rw [findClosing_targetText htext he, hquote, cons_append] at hcomponent
    simp only [argumentText, hquote, cons_append]
    rw [optionArgument_space hc hdash, hcomponent]
    split_ifs <;> rfl
  rw [parseOptions_step fuel o (by decide : isWhiteOrSeparator 'f' = false)
    (argumentText_head _ hfollows), hargument] at h
  obtain ⟨⟨argument, s'⟩, hread, h⟩ := bind_eq_ok_iff.mp h
  split_ifs at hread with hneeds
  cases hread
  obtain ⟨o1, -, h⟩ := bind_eq_ok_iff.mp h
  refine ⟨hneeds, parseOptions_suffix ?_ h⟩
  rw [targetText, if_neg (by rintro rfl; exact absurd hneeds (by decide)),
    quote_of_needsQuotes hneeds] at hfuel
  simp [toText] at hfuel ⊢
  omega

theorem parseTarget_identity {ident : Identity}
    {o : Options} {s : Text} (h : parseTarget factory ident o s = .ok r) : r.identity = ident := by
  unfold parseTarget at h
  split at h
  · cases h
    rfl
  · obtain ⟨⟨endpoints, unknown⟩, -, h⟩ := bind_eq_ok_iff.mp h
    dsimp only at h
    split_ifs at h
    cases h
    rfl
  · obtain ⟨adapter, -, h⟩ := bind_eq_ok_iff.mp h
    cases h
    rfl

/-- The adapter id is not read from a part of it. -/
theorem parseTarget_part {ident : Identity} {o : Options} {s a e : Text} (ha : Escaped [] a e)
    (hne : a ≠ []) (hsuffix : s <:+ e ++ ['"']) (hhead : ∀ c ∈ s.head?, c = ':' ∨ c = '@')
    (h : parseTarget factory ident o s = .ok r) : r.adapterId ≠ a := by
  cases s with
  | nil =>
    cases h
    exact hne.symm
  | cons c rest =>
    rcases hhead c rfl with rfl | rfl
    · obtain ⟨⟨endpoints, unknown⟩, -, h⟩ := bind_eq_ok_iff.mp h
      dsimp only at h
      split_ifs at h
      cases h
      exact hne.symm
    · obtain ⟨pre, hpre⟩ := hsuffix
      rw [parseTarget] at h
      · obtain ⟨adapter, hadapter, h⟩ := bind_eq_ok_iff.mp h
        cases h
        rintro rfl
        exact parseAdapter_part ha hpre.symm hadapter
      · decide

/-! ## The round trip -/

/-- What the strings of references get right. -/
structure Reference.ReadBack (r : Reference ε) : Prop where
  identity : NeedsQuotes r.identity.name ∨ NeedsQuotes r.identity.category →
    r.identity.name.getLast? ≠ some '\\'
  facet : Closes r.facet
  notOption : NotOption r.facet
  adapterId : Closes r.adapterId
  protocol : r.protocol.major ≠ 0
  encoding : r.encoding.major ≠ 0

/-- Two references are the same but for their endpoints. -/
structure Reference.SameAs (r r' : Reference ε) : Prop where
  identity : r.identity = r'.identity
  facet : r.facet = r'.facet
  mode : r.mode = r'.mode
  protocol : r.protocol = r'.protocol
  encoding : r.encoding = r'.encoding
  adapterId : r.adapterId = r'.adapterId

section

variable {r : Reference ε} {id facet adapterId : Text}

theorem Reference.Written.identity_closes_iff (h : r.Written id facet adapterId)
    (hne : r.identity.name ≠ []) : (NeedsQuotes id → id.getLast? ≠ some '\\') ↔
      (NeedsQuotes r.identity.name ∨ NeedsQuotes r.identity.category →
        r.identity.name.getLast? ≠ some '\\') := by
  rw [h.identity.needsQuotes_iff, ne_eq, h.identity.last_backslash hne]

/-- The options of a string that is written, with all components closed. -/
theorem Reference.Written.parseOptions (h : r.Written id facet adapterId) (hcloses : Closes r.facet)
    (hoption : NotOption r.facet) (defaultEncoding : Version) {fuel : Nat}
    (hfuel : (facetSettings facet ++ r.settings defaultEncoding).length < fuel) :
    Proxy.parseOptions fuel { encoding := defaultEncoding }
        ((facetSettings facet ++ r.settings defaultEncoding).flatMap toText ++
          targetText adapterId) =
      if r.protocol.major = 0 ∨ r.encoding.major = 0 then .error .versionRange
      else .ok (⟨r.facet, r.mode, r.encoding, r.protocol⟩,
        (targetText adapterId).dropWhile isWhite) := by
  have hreadable : ∀ x ∈ facetSettings facet ++ r.settings defaultEncoding, x.Readable := by
    intro x hx
    rcases mem_append.mp hx with hx | hx
    · exact facetSettings_readable h.facet hcloses hoption x hx
    · exact r.settings_readable defaultEncoding x hx
  rw [parseOptions_settings hreadable (ends_targetText adapterId) hfuel, setAll_append,
    setAll_facetSettings h.facet]
  dsimp only [bind, Except.bind]
  rw [r.setAll_settings]
  split_ifs <;> rfl

/-- The identity is read from a string that is written if its quote closes it, and otherwise another
    one. -/
theorem Reference.Written.create_iff (h : r.Written id facet adapterId) (hne : r.identity.name ≠ [])
    (factory : Text → Except ParseException (Option ε)) {defaultEncoding : Version}
    (hsize : (r.text defaultEncoding id facet adapterId).length ≤ 2 ^ 31) :
    (∃ r', create factory defaultEncoding (r.text defaultEncoding id facet adapterId) =
      .ok (some r') ∧
        r'.SameAs r) ↔
      (NeedsQuotes id → id.getLast? ≠ some '\\') ∧ ∃ o s r',
        let rest := (facetSettings facet ++ r.settings defaultEncoding).flatMap toText ++
          targetText adapterId
        Proxy.parseOptions (rest.length + 1) { encoding := defaultEncoding } rest = .ok (o, s) ∧
          parseTarget factory r.identity o s = .ok r' ∧ r'.SameAs r := by
  have hid := h.identity.ne_nil hne
  have hshape := h.identity.shape
  obtain ⟨c, t, hquote, hc, -⟩ := quote_eq_cons hshape hid
  have htext : r.text defaultEncoding id facet adapterId ≠ [] := by simp [Reference.text, hquote]
  have hstart : (r.text defaultEncoding id facet adapterId).dropWhile isWhite =
      r.text defaultEncoding id facet adapterId := by
    rw [Reference.text, hquote]
    exact dropWhile_cons_of_neg (by simp [isWhite_of_not_whiteOrSeparator hc])
  have hfollows := follows_settings (facetSettings facet ++ r.settings defaultEncoding)
    (ends_targetText adapterId)
  -- no slash stands too far from the start for the search of the separator
  have hsees : ∀ {idstr rest}, component isWhiteOrSeparator
      (r.text defaultEncoding id facet adapterId) = some (idstr, rest) → Sees idstr :=
    fun hcomponent => sees_of_length ((component_suffix hcomponent).2.trans hsize)
  simp only [create_eq_ok_iff htext hstart]
  constructor
  · rintro ⟨r', ⟨idstr, rest, hcomponent, -, ident, o, s, hident, hoptions, htarget⟩, hsame⟩
    have hsees := hsees hcomponent
    by_cases hcloses : NeedsQuotes id → id.getLast? ≠ some '\\'
    · rw [Reference.text, component_quote (fun _ h => h) hshape hid hcloses hfollows.head]
        at hcomponent
      cases hcomponent
      rw [h.identity.read hne hsees] at hident
      cases hident
      exact ⟨hcloses, o, s, r', hoptions, htarget, hsame⟩
    · -- a misled search takes the quote into the identity
      obtain ⟨hquotes, hlast⟩ : NeedsQuotes id ∧ id.getLast? = some '\\' := by
        simpa only [Classical.not_imp, not_not] using hcloses
      rw [Reference.text, component_misled hshape hquotes hlast] at hcomponent
      obtain ⟨⟨content, rest'⟩, -, heq⟩ := Option.map_eq_some_iff.mp hcomponent
      cases heq
      rw [← parseTarget_identity htarget, hsame.identity] at hident
      exact absurd hident (h.identity.misled hsees)
  · rintro ⟨hcloses, o, s, r', hoptions, htarget, hsame⟩
    have hcomponent := component_quote (fun _ h => h) hshape hid hcloses hfollows.head
    exact ⟨r', ⟨id, _, hcomponent, hid, r.identity, o, s, h.identity.read hne (hsees hcomponent),
      hoptions, htarget⟩, hsame⟩

/-- A facet that does not close, or that looks like an option, is not read back. -/
theorem Reference.Written.facet_readable (h : r.Written id facet adapterId)
    {defaultEncoding : Version} {o : Options} {s rest : Text} {r' : Reference ε}
    (hrest : rest = (facetSettings facet ++ r.settings defaultEncoding).flatMap toText ++
      targetText adapterId)
    (hoptions : Proxy.parseOptions (rest.length + 1)
      { encoding := defaultEncoding } rest = .ok (o, s))
    (htarget : parseTarget factory r.identity o s = .ok r') (hsame : r'.SameAs r) :
    Closes r.facet ∧ NotOption r.facet := by
  by_cases hnil : facet = []
  · rw [h.facet.eq_nil_iff.mp hnil]
    decide
  have hfollows := follows_settings (r.settings defaultEncoding) (ends_targetText adapterId)
  rw [facetSettings, if_neg hnil, flatMap_append, flatMap_singleton, append_assoc] at hrest
  constructor
  · by_contra hcloses
    obtain ⟨hquotes, hlast⟩ := h.facet.not_closes hcloses
    subst hrest
    obtain ⟨hneeds, hsuffix, hhead⟩ := parseOptions_misled h.facet.shape hquotes hlast
      (r.shape_settings defaultEncoding) hfollows h.adapterId.shape (Nat.lt_succ_self _) hoptions
    have hne : r.adapterId ≠ [] := by
      intro hne
      rw [h.adapterId.needsQuotes_iff, hne] at hneeds
      revert hneeds
      decide
    exact parseTarget_part h.adapterId hne hsuffix hhead htarget hsame.adapterId
  · by_contra hoption
    obtain ⟨hhead, hquotes⟩ : facet.head? = some '-' ∧ ¬ NeedsQuotes facet := by
      rw [← h.facet.notOption_iff] at hoption
      simpa only [NotOption, Classical.not_imp] using hoption
    -- the argument looks like the next option
    have hargument : Follows (argumentText ⟨'f', some facet⟩ ++
        ((r.settings defaultEncoding).flatMap toText ++ targetText adapterId)) := by
      obtain ⟨t, rfl⟩ := head?_eq_some_iff.mp hhead
      simp only [argumentText, quote_of_not_needsQuotes hquotes]
      exact .inr ⟨'-', _, rfl, .inl rfl⟩
    rw [hrest, parseOptions_step _ _ (by decide : isWhiteOrSeparator 'f' = false) hargument.head,
      optionArgument_none hargument] at hoptions
    cases hoptions

end

/-- A reference without endpoints, with a string of at most `2 ^ 31` bytes, is read back from it if
    and only if no component in quotes ends with a backslash, its facet does not look like an
    option, and its versions are in range. -/
theorem create_toString_iff (factory : Text → Except ParseException (Option ε))
    (endpointToString : ε → Text) (mode : ToStringMode) (defaultEncoding : Version)
    (r : Reference ε)
    (hendpoints : r.endpoints = []) (hne : r.identity.name ≠ []) (hname : ValidUTF8 r.identity.name)
    (hcategory : ValidUTF8 r.identity.category) (hfacet : ValidUTF8 r.facet)
    (hadapterId : ValidUTF8 r.adapterId)
    (hsize : ∀ str, r.toString endpointToString mode defaultEncoding = .ok str →
      str.length ≤ 2 ^ 31) :
    (∃ str, r.toString endpointToString mode defaultEncoding = .ok str ∧
        ∃ r', create factory defaultEncoding str = .ok (some r') ∧ r'.SameAs r) ↔
      r.ReadBack := by
  obtain ⟨id, facet, adapterId, hwritten, hstr⟩ := r.toString_spec hendpoints hne hname
    hcategory hfacet hadapterId endpointToString mode defaultEncoding
  have hcreate := hwritten.create_iff hne factory (hsize _ hstr)
  have hfuel : (facetSettings facet ++ r.settings defaultEncoding).length <
      ((facetSettings facet ++ r.settings defaultEncoding).flatMap toText ++
        targetText adapterId).length + 1 := by
    have hle : _ ≤ ((facetSettings facet ++ r.settings defaultEncoding).flatMap toText).length :=
      length_le_flatMap fun x _ => by simp [toText]
    exact Nat.lt_succ_of_le (hle.trans (sublist_append_left _ _).length_le)
  constructor
  · rintro ⟨str, heq, hread⟩
    rw [hstr] at heq
    cases heq
    obtain ⟨hcloses, o, s, r', hoptions, htarget, hsame⟩ := hcreate.mp hread
    obtain ⟨hfacetCloses, hoption⟩ := hwritten.facet_readable rfl hoptions htarget hsame
    rw [hwritten.parseOptions hfacetCloses hoption defaultEncoding hfuel] at hoptions
    split_ifs at hoptions with hmajor
    cases hoptions
    rw [parseTarget_targetText factory r.identity _ hwritten.adapterId] at htarget
    split_ifs at htarget with hadapter
    exact ⟨(hwritten.identity_closes_iff hne).mp hcloses, hfacetCloses, hoption, hadapter,
      fun h => hmajor (.inl h), fun h => hmajor (.inr h)⟩
  · intro h
    refine ⟨_, hstr, hcreate.mpr ?_⟩
    have hmajor : ¬ (r.protocol.major = 0 ∨ r.encoding.major = 0) := by
      rintro (hmajor | hmajor)
      · exact h.protocol hmajor
      · exact h.encoding hmajor
    refine ⟨(hwritten.identity_closes_iff hne).mpr h.identity, _, _, _,
      (hwritten.parseOptions h.facet h.notOption defaultEncoding hfuel).trans (if_neg hmajor),
      (parseTarget_targetText factory r.identity _ hwritten.adapterId).trans
      (if_pos h.adapterId), ?_⟩
    exact ⟨rfl, rfl, rfl, rfl, rfl, rfl⟩

/-- A category, a facet and an adapter id in quotes, another mode and another encoding. -/
def quotedReference : Reference Unit :=
  ⟨⟨"n/".toList, "c d".toList⟩, "f:\"g".toList, .batchOneway, protocol10, ⟨1, 0⟩, [], "x @".toList⟩

theorem create_toString_iff_quoted :
    let str := "\"c d/n\\/\" -f \"f:\\\"g\" -O -e 1.0 @ \"x @\"".toList
    quotedReference.toString (fun _ => []) .ascii encoding11 = .ok str ∧ quotedReference.ReadBack ∧
      ∃ r', create (fun _ => .ok none) encoding11 str = .ok (some r') ∧
      r'.SameAs quotedReference := by
  intro str
  have hstr : quotedReference.toString (fun _ => []) .ascii encoding11 = .ok str := by decide
  have hread : quotedReference.ReadBack :=
    ⟨by decide, by decide, by decide, by decide, by decide, by decide⟩
  have hsize : ∀ str', quotedReference.toString (fun _ => []) .ascii encoding11 = .ok str' →
      str'.length ≤ 2 ^ 31 := by
    intro str' hstr'
    cases hstr.symm.trans hstr'
    decide
  obtain ⟨str', hstr', hcreate⟩ :=
    (create_toString_iff (fun _ => .ok none) (fun _ => []) .ascii encoding11
      quotedReference rfl (by decide) ⟨"n/".toList, by decide⟩ ⟨"c d".toList, by decide⟩
      ⟨"f:\"g".toList, by decide⟩ ⟨"x @".toList, by decide⟩ hsize).mpr hread
  cases hstr.symm.trans hstr'
  exact ⟨hstr, hread, hcreate⟩

/-- The facet `-x` is written without quotes and taken for an option. -/
theorem create_toString_facet :
    let r : Reference Unit := ⟨⟨['a'], []⟩, ['-', 'x'], .twoway, protocol10, encoding11, [], []⟩
    r.toString (fun _ => []) .unicode encoding11 = .ok "a -f -x".toList ∧
      create (fun _ => .ok none : Text → Except ParseException (Option Unit)) encoding11
        "a -f -x".toList = .error (.noArgument 'f') := by
  decide

end Ice.Proxy
