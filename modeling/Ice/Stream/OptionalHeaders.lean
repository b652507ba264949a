import Ice.Misc.Scan
import Ice.Stream.Encoding

/-!
# Headers of optional members

The members that `readOptImpl` and `skipOptionals` walk over; `headerAt` reads a header off the
bytes alone. Both loops pass a member at a time (`Passed`) until they stop, and
`wp_skipOptionals_iff` and `wp_readOptImpl_iff` say exactly where. They differ in two ways:
`readOptImpl` rejects headers that `skipOptionals` accepts, and it rewinds by the length of the
shortest header of a tag.
-/

namespace Ice

open InputStream

/-! ## What the bytes say -/

/-- The header of an optional member. The tag is `none` if there is no such tag: the five bits of
    the tag are 31, or the size that they announce is negative. -/
structure OptionalHeader where
  format : OptionalFormat
  tag : Option Nat
  length : Nat
deriving DecidableEq, Repr

/-- The header at the front of the bytes, unless they are exhausted or start with the end marker. -/
def headerAt : List UInt8 → Option OptionalHeader
  | [] => none
  | v :: bytes => do
    let format ← OptionalFormat.ofByte v
    if v = optionalEndMarker then none
    else if v >>> 3 = 30 then
      let (tag, length) ← sizeAt bytes
      some ⟨format, tag, length + 1⟩
    else some ⟨format, if v >>> 3 > 30 then none else some (v >>> 3).toNat, 1⟩

/-- The length of the shortest header with the tag, by which `readOptImpl` rewinds. -/
def shortestHeader (tag : Nat) : Nat := if tag < 30 then 1 else if tag < 255 then 2 else 6

/-- The end of the encapsulation. -/
def Encaps.stop (e : Encaps) : Nat := e.start + e.sz

/-- The stream is at the end marker of the optional members. -/
def InputStream.AtMarker (e : Encaps) (s : InputStream) : Prop :=
  s.pos < e.stop ∧ s.upcoming.head? = some optionalEndMarker

/-- A member starts here. -/
def InputStream.AtHeader (e : Encaps) (h : OptionalHeader) (s : InputStream) : Prop :=
  s.pos < e.stop ∧ headerAt s.upcoming = some h

/-- The stream after the member that starts at `s`. -/
def Passed (e : Encaps) (P : OptionalHeader → Prop) (s s' : InputStream) : Prop :=
  ∃ h, s.AtHeader e h ∧ P h ∧ skipOptional h.format (s.advance h.length) = .ok () s'

/-- The stream after some members. -/
abbrev Passes (e : Encaps) (P : OptionalHeader → Prop) := Relation.ReflTransGen (Passed e P)

/-- The header has a tag smaller than `n`. -/
def TagBelow (n : Nat) (h : OptionalHeader) : Prop := ∃ t, h.tag = some t ∧ t < n

variable {s : InputStream} {e : Encaps} {P : OptionalHeader → Prop}

theorem sizeAt_cases {bytes : List UInt8} {v : Option Nat × Nat} (h : sizeAt bytes = some v) :
    v.2 ≤ bytes.length ∧ (v.2 = 1 ∧ (∀ n, v.1 = some n → n < 255) ∨ v.2 = 5) := by
  cases bytes with
  | nil => cases h
  | cons b bytes =>
    simp only [sizeAt] at h
    split at h
    · split at h
      · cases h
      · cases h
        exact ⟨by simp; omega, .inr rfl⟩
    · rename_i hb
      cases h
      refine ⟨by simp, .inl ⟨rfl, ?_⟩⟩
      rintro _ ⟨⟩
      have hne : b.toNat ≠ 255 := fun h => hb (UInt8.toNat_inj.mp h)
      have := b.toNat_lt
      omega

/-! ## The two loops -/

theorem wp_optionalFormat_iff {v : UInt8} {err : Failure}
    {Q : OptionalFormat → InputStream → Prop} :
    wp (optionalFormat v err) Q never s ↔ ∃ format, OptionalFormat.ofByte v = some format ∧
      Q format s := by
  unfold optionalFormat
  cases OptionalFormat.ofByte v with
  | none => simp
  | some format => simp

/-- A round of either loop: the end of the encapsulation, the end marker, or a header. -/
theorem wp_round {α : Type} {x y : StreamM α} {f : UInt8 → StreamM α} {Q : α → InputStream → Prop}
    {R : OptionalHeader → Prop} (hf : ∀ v bytes, s.upcoming = v :: bytes → v ≠ optionalEndMarker →
      (wp (f v) Q never (s.advance 1) ↔ ∃ h, headerAt s.upcoming = some h ∧ R h)) : wp (do
      let s ← get
      if e.start + e.sz ≤ s.pos then x
      else
        let v ← readByte
        if v = optionalEndMarker then y else f v) Q never s ↔
      (e.stop ≤ s.pos ∧ wp x Q never s ∨
        s.AtMarker e ∧ wp y Q never (s.advance 1)) ∨ ∃ h, s.AtHeader e h ∧ R h := by
  rw [wp_bind, wp_get, InputStream.AtMarker, ← Encaps.stop]
  simp only [InputStream.AtHeader]
  by_cases hstop : e.stop ≤ s.pos
  · simp [hstop, Nat.not_lt.mpr hstop]
  · rw [if_neg hstop, wp_bind, wp_readByte_iff]
    cases hu : s.upcoming with
    | nil => simp [hstop, headerAt]
    | cons v bytes =>
      by_cases hv : v = optionalEndMarker
      · simp [hstop, hv, Nat.lt_of_not_le hstop, headerAt]
      · simp [hstop, hv, Nat.lt_of_not_le hstop, hf v bytes hu hv, hu]

section Headers

variable {v : UInt8} {bytes : List UInt8}

theorem wp_skipHeader {Q : OptionalFormat → InputStream → Prop} (hu : s.upcoming = v :: bytes)
    (hv : v ≠ optionalEndMarker) : wp (skipHeader v) Q never (s.advance 1) ↔
      ∃ h, headerAt s.upcoming = some h ∧ Q h.format (s.advance h.length) := by
  have hnext : (s.advance 1).upcoming = bytes :=
    upcoming_advance (show s.upcoming = [v] ++ bytes from hu)
  simp only [skipHeader, wp_bind, wp_optionalFormat_iff, hu, headerAt, if_neg hv]
  cases OptionalFormat.ofByte v with
  | none => simp
  | some format =>
    by_cases h30 : v >>> 3 = 30
    · cases hsize : sizeAt bytes <;>
        simp [h30, runIf, wp_skipSize_iff, hnext, hsize, Prod.ext_iff, Nat.add_comm 1]
    · simp [h30, runIf]

theorem wp_readHeader {Q : OptionalFormat × Nat → InputStream → Prop} (hu : s.upcoming = v :: bytes)
    (hv : v ≠ optionalEndMarker) : wp (readHeader v) Q never (s.advance 1) ↔
      ∃ h, headerAt s.upcoming = some h ∧
        ∃ t, h.tag = some t ∧ Q (h.format, t) (s.advance h.length) := by
  have hnext : (s.advance 1).upcoming = bytes :=
    upcoming_advance (show s.upcoming = [v] ++ bytes from hu)
  simp only [readHeader, wp_bind, wp_optionalFormat_iff, wp_throwIf, hu, headerAt, if_neg hv]
  cases OptionalFormat.ofByte v with
  | none => simp
  | some format =>
    by_cases h30 : v >>> 3 = 30
    · cases hsize : sizeAt bytes <;>
        simp [h30, readTagOf, wp_readSize_iff, hnext, hsize, Prod.ext_iff, Nat.add_comm 1]
    · by_cases h31 : v >>> 3 > 30 <;> simp [h30, h31, readTagOf]

end Headers

variable {h : OptionalHeader}

/-- The three lengths of a header. -/
theorem headerAt_cases {bytes : List UInt8} (hh : headerAt bytes = some h) :
    h.length ≤ bytes.length ∧ (h.length = 1 ∧ (∀ t, h.tag = some t → t < 30) ∨
      h.length = 2 ∧ (∀ t, h.tag = some t → t < 255) ∨ h.length = 6) := by
  cases bytes with
  | nil => cases hh
  | cons v bytes =>
    obtain ⟨format, -, hh⟩ := Option.bind_eq_some_iff.mp hh
    split_ifs at hh with hmark h30 h31
    · obtain ⟨⟨tag, k⟩, hsize, hh⟩ := Option.bind_eq_some_iff.mp hh
      cases hh
      obtain ⟨hle, hk⟩ := sizeAt_cases hsize
      refine ⟨Nat.succ_le_succ hle, .inr ?_⟩
      exact hk.imp (fun h => ⟨congrArg (· + 1) h.1, h.2⟩) (congrArg (· + 1))
    · cases hh
      exact ⟨by simp, .inl ⟨rfl, nofun⟩⟩
    · cases hh
      refine ⟨by simp, .inl ⟨rfl, ?_⟩⟩
      rintro _ ⟨⟩
      exact toNat_tag_lt h30 h31

theorem headerAt_cons {bytes : List UInt8} (hh : headerAt bytes = some h) :
    ∃ v rest, bytes = v :: rest ∧ v ≠ optionalEndMarker := by
  cases bytes with
  | nil => cases hh
  | cons v bytes =>
    refine ⟨v, bytes, rfl, ?_⟩
    rintro rfl
    cases hh

variable {s' : InputStream}

theorem Passed.spec (he : s.encaps = some e) (h : Passed e P s s') :
    s'.encaps = some e ∧ s'.remaining < s.remaining := by
  obtain ⟨h, hh, -, hskip⟩ := h
  have hlen := headerAt_cases hh.2
  rw [length_upcoming, remaining] at hlen
  have hvalid : (s.advance h.length).Valid := by
    show s.pos + h.length ≤ s.data.length
    omega
  obtain ⟨hadv, -⟩ := wp_ok (skipOptional_reads h.format _ hvalid (by rw [advance, he]; rfl)) hskip
  have hle : s'.remaining ≤ s.data.length - (s.pos + h.length) := hadv.remaining_le
  refine ⟨hadv.encaps.trans he, ?_⟩
  rw [remaining.eq_def s]
  omega

theorem Passed.rightUnique : Relator.RightUnique (Passed e P) := by
  rintro s p q ⟨h, hs, -, hp⟩ ⟨h', hs', -, hq⟩
  obtain rfl : h = h' := Option.some.inj (hs.2.symm.trans hs'.2)
  cases hp.symm.trans hq
  rfl

/-- `skipOptionals` passes every member. -/
theorem wp_skipOptionals_iff {Q : Unit → InputStream → Prop} (he : s.encaps = some e) :
    wp skipOptionals Q never s ↔ ∃ q, Passes e (fun _ => True) s q ∧
      (e.stop ≤ q.pos ∧ Q () q ∨ q.AtMarker e ∧ Q () (q.advance 1)) := by
  simp only [skipOptionals, currentEncaps, wp_bind, wp_get, he, wp_pure]
  refine Misc.loop_iff (W := fun n s => wp (skipOptionalsLoop e n) Q never s)
    (I := fun s => s.encaps = some e)
    (m := remaining) (fun n s => ?_) (fun _ _ => Passed.spec) he (Nat.lt_succ_self _)
  rw [skipOptionalsLoop, wp_round fun v bytes hu hv => by rw [wp_bind, wp_skipHeader hu hv]]
  refine or_congr_right ?_
  simp only [wp_bind_iff]
  constructor
  · rintro ⟨h, hh, _, s', hskip, hrest⟩
    exact ⟨s', ⟨h, hh, trivial, hskip⟩, hrest⟩
  · rintro ⟨s', ⟨h, hh, -, hskip⟩, hrest⟩
    exact ⟨h, hh, (), s', hskip, hrest⟩

variable {Q : Bool → InputStream → Prop}

theorem wp_rewind {n k : Nat} (h : k ≤ n) : wp (do
      changePos (-k)
      return false) Q never (s.advance n) ↔ Q false (s.advance (n - k)) := by
  rw [wp_bind, wp_changePos (q := s.advance (n - k)) (by simp only [advance]; omega) rfl, wp_pure]
  exact and_iff_right (by omega)

theorem shortestHeader_le {bytes : List UInt8} {t : Nat} (hh : headerAt bytes = some h)
    (ht : h.tag = some t) :
    shortestHeader t ≤ h.length := by
  have hcases := headerAt_cases hh
  simp only [ht, Option.some.injEq, forall_eq'] at hcases
  unfold shortestHeader
  split_ifs <;> omega

variable {format : OptionalFormat}

/-- What `readOptImpl` does once it has read a header. -/
theorem wp_member {t readTag : Nat} {rest : StreamM Bool}
    (hh : headerAt s.upcoming = some h) (ht : h.tag = some t) : wp (if t > readTag then do
        changePos (if t < 30 then -1 else if t < 255 then -2 else -6)
        return false
      else if t < readTag then do
        skipOptional h.format
        rest
      else do
        throwIf (h.format ≠ format) (.marshal .invalidOptional)
        return true) Q never (s.advance h.length) ↔
      readTag < t ∧ Q false (s.advance (h.length - shortestHeader t)) ∨
      t = readTag ∧ h.format = format ∧ Q true (s.advance h.length) ∨
      t < readTag ∧ ∃ s', skipOptional h.format (s.advance h.length) = .ok () s' ∧
      wp rest Q never s' := by
  rcases lt_trichotomy t readTag with hlt | heq | hgt
  · rw [if_neg (by omega), if_pos hlt, wp_bind_iff]
    simp [hlt, hlt.ne, hlt.not_gt, Unique.exists_iff]
  · rw [if_neg (by omega), if_neg (by omega), wp_bind, wp_throwIf]
    by_cases hf : h.format = format
    · simp [heq, hf]
    · simp [heq, hf]
  · have hback : (if t < 30 then -1 else if t < 255 then -2 else -6 : Int) = -shortestHeader t := by
      unfold shortestHeader
      split_ifs <;> rfl
    rw [if_pos hgt, hback, wp_rewind (shortestHeader_le hh ht)]
    simp [hgt, hgt.ne', hgt.le]

/-- `readOptImpl` passes the members with smaller tags. -/
theorem wp_readOptImpl_iff {readTag : Nat} (he : s.encaps = some e) (h11 : e.encoding10 = false) :
    wp (readOptImpl readTag format) Q never s ↔ ∃ q, Passes e (TagBelow readTag) s q ∧
      (e.stop ≤ q.pos ∧ Q false q ∨ q.AtMarker e ∧ Q false q ∨
        ∃ h t, q.AtHeader e h ∧ h.tag = some t ∧
          (readTag < t ∧ Q false (q.advance (h.length - shortestHeader t)) ∨
            t = readTag ∧ h.format = format ∧ Q true (q.advance h.length))) := by
  simp only [readOptImpl, currentEncaps, wp_bind, wp_get, he, wp_pure, h11]
  refine Misc.loop_iff (W := fun n s => wp (readOptImplLoop e readTag format n) Q never s)
    (I := fun s => s.encaps = some e) (m := remaining) (fun n s => ?_) (fun _ _ => Passed.spec) he
      (Nat.lt_succ_self _)
  rw [readOptImplLoop, wp_round fun v bytes hu hv => by rw [wp_bind, wp_readHeader hu hv]]
  constructor
  · rintro ((⟨hstop, hQ⟩ | ⟨hmark, hQ⟩) | ⟨h, hh, t, ht, hQ⟩)
    · exact .inl (.inl ⟨hstop, hQ⟩)
    · exact .inl (.inr (.inl ⟨hmark, (wp_rewind (n := 1) (k := 1) le_rfl).mp hQ⟩))
    · rcases (wp_member hh.2 ht).mp hQ with hQ | hQ | ⟨hlt, s', hskip, hrest⟩
      · exact .inl (.inr (.inr ⟨h, t, hh, ht, .inl hQ⟩))
      · exact .inl (.inr (.inr ⟨h, t, hh, ht, .inr hQ⟩))
      · exact .inr ⟨s', ⟨h, hh, ⟨t, ht, hlt⟩, hskip⟩, hrest⟩
  · rintro ((⟨hstop, hQ⟩ | ⟨hmark, hQ⟩ | ⟨h, t, hh, ht, hQ⟩) |
      ⟨s', ⟨h, hh, ⟨t, ht, hlt⟩, hskip⟩, hrest⟩)
    · exact .inl (.inl ⟨hstop, hQ⟩)
    · exact .inl (.inr ⟨hmark, (wp_rewind (n := 1) (k := 1) le_rfl).mpr hQ⟩)
    · exact .inr ⟨h, hh, t, ht, (wp_member hh.2 ht).mpr (hQ.imp_right .inl)⟩
    · exact .inr ⟨h, hh, t, ht, (wp_member hh.2 ht).mpr (.inr (.inr ⟨hlt, s', hskip, hrest⟩))⟩

/-! ## An unsuccessful lookup -/

/-- Where a lookup of `readTag` from `s` should leave the stream: at the end of the encapsulation,
    at the end marker, or at the first member with a larger tag. -/
def LeftAt (e : Encaps) (readTag : Nat) (s s' : InputStream) : Prop :=
  s'.pos = e.stop ∨ Passes e (TagBelow readTag) s s' ∧
    (s'.AtMarker e ∨ ∃ h t, s'.AtHeader e h ∧ h.tag = some t ∧ readTag < t)

/-- The members with smaller tags do not reach beyond the encapsulation, and the header of the first
    one with a larger tag is as short as it can be (or what a rewind leaves of it is outside of the
    encapsulation). -/
def RewindSafe (e : Encaps) (readTag : Nat) (s : InputStream) : Prop :=
  ∀ q, Passes e (TagBelow readTag) s q → q.pos ≤ e.stop ∧
    ∀ h t, q.AtHeader e h → h.tag = some t → readTag < t →
      h.length = shortestHeader t ∨ q.pos + h.length = e.stop + shortestHeader t

/-- A place where a lookup stops is not passed. -/
theorem TagBelow.not_passed {readTag t : Nat} (hh : s.AtHeader e h) (ht : h.tag = some t)
    (hlt : readTag < t) : ¬ Passed e (TagBelow readTag) s s' := by
  rintro ⟨h', hh', ⟨t', ht', hlt'⟩, -⟩
  obtain rfl : h = h' := Option.some.inj (hh.2.symm.trans hh'.2)
  cases ht.symm.trans ht'
  omega

theorem AtMarker.not_passed (hs : s.AtMarker e) : ¬ Passed e P s s' := by
  rintro ⟨h, hh, -⟩
  obtain ⟨-, hmark⟩ := hs
  cases hu : s.upcoming with
  | nil => simp [hu] at hmark
  | cons v bytes =>
    have hv : v = optionalEndMarker := by simpa [hu] using hmark
    subst hv
    rw [InputStream.AtHeader, hu] at hh
    cases hh.2

theorem readOptImpl_false_iff {readTag : Nat} (he : s.encaps = some e)
    (h11 : e.encoding10 = false) :
    readOptImpl readTag format s = .ok false s' ↔ ∃ q, Passes e (TagBelow readTag) s q ∧
      (s' = q ∧ (e.stop ≤ q.pos ∨ q.AtMarker e) ∨
        ∃ h t, q.AtHeader e h ∧ h.tag = some t ∧ readTag < t ∧
          s' = q.advance (h.length - shortestHeader t)) := by
  rw [eq_ok_iff_wp, wp_readOptImpl_iff he h11]
  simp [and_comm, ← or_assoc, ← and_or_left]

/-- A lookup that does not find its tag leaves the stream where it should exactly if the rewind is
    safe: it goes back by the shortest header of the tag that was read, whatever header was
    there. -/
theorem readOptImpl_undisturbed_iff (readTag : Nat) (format : OptionalFormat)
    (he : s.encaps = some e) (h11 : e.encoding10 = false) :
    (∀ s', readOptImpl readTag format s = .ok false s' → LeftAt e readTag s s') ↔
      RewindSafe e readTag s := by
  simp only [readOptImpl_false_iff he h11]
  constructor
  · intro hleft q hq
    refine ⟨?_, fun h t hh ht hlt => ?_⟩
    · by_contra hout
      have hend : e.stop < q.pos := by omega
      rcases hleft q ⟨q, hq, .inl ⟨rfl, .inl hend.le⟩⟩ with hpos | ⟨-, hmark | ⟨h, -, hh, -⟩⟩
      · omega
      · exact hout hmark.1.le
      · exact hout hh.1.le
    · have hle := shortestHeader_le hh.2 ht
      have hstuck : ∀ c, ¬ Passed e (TagBelow readTag) q c := fun c => TagBelow.not_passed hh ht hlt
      rcases hleft _ ⟨q, hq, .inr ⟨h, t, hh, ht, hlt, rfl⟩⟩ with hpos | ⟨hp, hrest⟩
      · right
        simp only [advance] at hpos
        omega
      · left
        have heq : q = q.advance (h.length - shortestHeader t) := by
          refine Misc.stuck_unique Passed.rightUnique hq hp hstuck fun c => ?_
          rcases hrest with hmark | ⟨h', t', hh', ht', hlt'⟩
          · exact AtMarker.not_passed hmark
          · exact TagBelow.not_passed hh' ht' hlt'
        have hpos := congrArg pos heq
        simp only [advance] at hpos
        omega
  · rintro hsafe s' ⟨q, hq, ⟨rfl, hend | hmark⟩ | ⟨h, t, hh, ht, hlt, rfl⟩⟩
    · exact .inl (le_antisymm (hsafe _ hq).1 hend)
    · exact .inr ⟨hq, .inl hmark⟩
    · rcases (hsafe q hq).2 h t hh ht hlt with hshort | hout
      · rw [hshort, Nat.sub_self]
        exact .inr ⟨hq, .inr ⟨h, t, hh, ht, hlt⟩⟩
      · have hle := shortestHeader_le hh.2 ht
        left
        simp only [advance]
        omega

/-- The stream behind the start of the 1.1 encapsulation that holds the bytes. -/
def inEncaps (bytes : List UInt8) : InputStream where
  data := encodeInt32 (bytes.length + 6) ++ 1 :: 1 :: bytes
  pos := 6
  encaps := some ⟨0, bytes.length + 6, false⟩

theorem readOptImpl_undisturbed_iff_tagFive :
    readOptImpl 3 .F1 (inEncaps [0x28, 7]) = .ok false (inEncaps [0x28, 7]) ∧
      ((∀ s', readOptImpl 3 .F1 (inEncaps [0x28, 7]) = .ok false s' →
        LeftAt ⟨0, 8, false⟩ 3 (inEncaps [0x28, 7]) s') ↔
      RewindSafe ⟨0, 8, false⟩ 3 (inEncaps [0x28, 7])) :=
  ⟨rfl, readOptImpl_undisturbed_iff 3 .F1 rfl rfl⟩

/-- Tag 5, announced by 30 and written as a size: the rewind ends inside of the header. -/
theorem readOptImpl_rewinds_into_header :
    ∃ s', readOptImpl 3 .F1 (inEncaps [0xF0, 5, 7]) = .ok false s' ∧
      ¬ LeftAt ⟨0, 9, false⟩ 3 (inEncaps [0xF0, 5, 7]) s' := by
  refine ⟨(inEncaps [0xF0, 5, 7]).advance 1, rfl, ?_⟩
  rintro (hpos | ⟨-, hmark | ⟨h, t, hh, ht, hlt⟩⟩)
  · exact absurd hpos (by decide)
  · exact absurd hmark.2 (by decide)
  · cases hh.2
    cases ht
    exact absurd hlt (by decide)

/-! ## The two scanners -/

/-- The place where the optional members from `s` end. -/
def EndsAt (e : Encaps) (s q : InputStream) : Prop :=
  Passes e (fun _ => True) s q ∧ (q.pos = e.stop ∨ q.AtMarker e)

/-- The scanners accept the same headers, and one gets to that place exactly if the other does:
    `skipOptionals` passes the end marker, `readOptImpl` does not. -/
structure ScannersAgree (e : Encaps) (readTag : Nat) (format : OptionalFormat) (s : InputStream) :
    Prop where
  ends :
    (∃ q, EndsAt e s q ∧ skipOptionals s = .ok () (if q.pos = e.stop then q else q.advance 1)) ↔
    ∃ q, EndsAt e s q ∧ readOptImpl readTag format s = .ok false q
  headers : ∀ q v bytes, Passes e (fun _ => True) s q → q.pos < e.stop → q.upcoming = v :: bytes →
    v ≠ optionalEndMarker →
      (returns (skipHeader v (q.advance 1)) ↔ returns (readHeader v (q.advance 1)))

/-- Every header from `s` on has a tag. -/
def TagsValid (e : Encaps) (s : InputStream) : Prop :=
  ∀ q h, Passes e (fun _ => True) s q → q.AtHeader e h → h.tag.isSome

/-- The requested tag is larger than every tag from `s` on. -/
def TagsBelow (e : Encaps) (readTag : Nat) (s : InputStream) : Prop :=
  ∀ q h t, Passes e (fun _ => True) s q → q.AtHeader e h → h.tag = some t → t < readTag

theorem EndsAt.not_passed {q c : InputStream} (h : EndsAt e s q) : ¬ Passed e P q c := by
  rcases h.2 with hpos | hmark
  · rintro ⟨h, hh, -⟩
    exact absurd hh.1 (by omega)
  · exact AtMarker.not_passed hmark

variable {q : InputStream}

theorem Passes.eq_or_of_passed (h : Passes e P s q) (hs : Passed e P s s') :
    q = s ∨ Passes e P s' q := by
  rcases h.cases_head with rfl | ⟨c, hc, hq⟩
  · exact .inl rfl
  · exact .inr (Passed.rightUnique hs hc ▸ hq)

theorem EndsAt.eq_of_passes {p : InputStream} (h : EndsAt e s p) (hq : Passes e P p q) : q = p := by
  rcases hq.cases_head with rfl | ⟨c, hc, -⟩
  · rfl
  · exact absurd hc h.not_passed

theorem skipOptionals_endsAt (he : s.encaps = some e) (h : EndsAt e s q) :
    skipOptionals s = .ok () (if q.pos = e.stop then q else q.advance 1) := by
  rw [eq_ok_iff_wp, wp_skipOptionals_iff he]
  refine ⟨q, h.1, ?_⟩
  split
  · rename_i hpos
    exact .inl ⟨hpos.ge, rfl, rfl⟩
  · rename_i hpos
    exact .inr ⟨h.2.resolve_left hpos, rfl, rfl⟩

section Region

variable {readTag : Nat} (hbig : TagsBelow e readTag s)
include hbig

theorem Passes.tagged (hvalid : TagsValid e s) (h : Passes e (fun _ => True) s q) :
    Passes e (TagBelow readTag) s q := by
  induction h with
  | refl => exact .refl
  | tail hb hbc ih =>
    obtain ⟨h, hh, -, hskip⟩ := hbc
    obtain ⟨t, ht⟩ := Option.isSome_iff_exists.mp (hvalid _ h hb hh)
    exact ih.tail ⟨h, hh, ⟨t, ht, hbig _ h t hb hh ht⟩, hskip⟩

/-- With a tag beyond all others, the scanners agree exactly if every header that is reached has a
    tag: `skipOptionals` does not look at the tags. -/
theorem scanners_agree_iff (format : OptionalFormat) (he : s.encaps = some e)
    (h11 : e.encoding10 = false) : ScannersAgree e readTag format s ↔ TagsValid e s := by
  constructor
  · intro hagree q h hq hh
    obtain ⟨v, bytes, hu, hv⟩ := headerAt_cons hh.2
    have hskip : returns (skipHeader v (q.advance 1)) := by
      rw [returns_iff_wp, wp_skipHeader hu hv]
      exact ⟨h, hh.2, trivial⟩
    have hread := (hagree.headers q v bytes hq hh.1 hu hv).mp hskip
    rw [returns_iff_wp, wp_readHeader hu hv] at hread
    obtain ⟨h', hh', t, ht, -⟩ := hread
    obtain rfl := Option.some.inj (hh.2.symm.trans hh')
    rw [ht]
    rfl
  · intro hvalid
    refine ⟨⟨?_, ?_⟩, fun q v bytes hq hpos hu hv => ?_⟩
    · rintro ⟨q, hq, -⟩
      refine ⟨q, hq, ?_⟩
      rw [readOptImpl_false_iff he h11]
      exact ⟨q, hq.1.tagged hbig hvalid, .inl ⟨rfl, hq.2.imp_left Eq.ge⟩⟩
    · rintro ⟨q, hq, -⟩
      exact ⟨q, hq, skipOptionals_endsAt he hq⟩
    · rw [returns_iff_wp, returns_iff_wp, wp_skipHeader hu hv, wp_readHeader hu hv]
      refine exists_congr fun h => and_congr_right fun hh => ?_
      simpa [Option.isSome_iff_exists] using hvalid q h hq ⟨hpos, hh⟩

end Region

/-- Two members of tags 1 and 30, and the end marker. -/
theorem scanners_agree_iff_twoMembers :
    let s := inEncaps [0x08, 7, 0xF0, 30, 9, 255]
    TagsBelow ⟨0, 12, false⟩ 31 s ∧ TagsValid ⟨0, 12, false⟩ s ∧
      (ScannersAgree ⟨0, 12, false⟩ 31 .F1 s ↔ TagsValid ⟨0, 12, false⟩ s) := by
  intro s
  have h1 : Passed ⟨0, 12, false⟩ (fun _ => True) s (s.advance 2) :=
    ⟨_, ⟨by decide, rfl⟩, trivial, rfl⟩
  have h2 : Passed ⟨0, 12, false⟩ (fun _ => True) (s.advance 2) (s.advance 5) :=
    ⟨_, ⟨by decide, rfl⟩, trivial, rfl⟩
  have hends : EndsAt ⟨0, 12, false⟩ s (s.advance 5) :=
    ⟨.tail (.single h1) h2, .inr ⟨by decide, rfl⟩⟩
  have htags : ∀ q h, Passes ⟨0, 12, false⟩ (fun _ => True) s q → q.AtHeader ⟨0, 12, false⟩ h →
      ∃ t, h.tag = some t ∧ t < 31 := by
    intro q h hq hh
    rcases hq.eq_or_of_passed h1 with rfl | hq
    · cases hh.2
      exact ⟨1, rfl, by decide⟩
    · rcases hq.eq_or_of_passed h2 with rfl | hq
      · cases hh.2
        exact ⟨30, rfl, by decide⟩
      · obtain rfl := hends.eq_of_passes hq
        cases hh.2
  have hbig : TagsBelow ⟨0, 12, false⟩ 31 s := by
    intro q h t hq hh ht
    obtain ⟨t', ht', hlt⟩ := htags q h hq hh
    exact Option.some.inj (ht.symm.trans ht') ▸ hlt
  have hvalid : TagsValid ⟨0, 12, false⟩ s := by
    intro q h hq hh
    obtain ⟨t, ht, -⟩ := htags q h hq hh
    exact Option.isSome_of_eq_some ht
  exact ⟨hbig, hvalid, scanners_agree_iff hbig .F1 rfl rfl⟩

/-- A tag of 31: `skipOptionals` passes the member, `readOptImpl` rejects it. -/
theorem scanners_disagree :
    TagsBelow ⟨0, 8, false⟩ 2 (inEncaps [0xF8, 7]) ∧
      ¬ ScannersAgree ⟨0, 8, false⟩ 2 .F1 (inEncaps [0xF8, 7]) := by
  have hpassed : Passed ⟨0, 8, false⟩ (fun _ => True) (inEncaps [0xF8, 7])
      ((inEncaps [0xF8, 7]).advance 2) :=
    ⟨_, ⟨by decide, rfl⟩, trivial, rfl⟩
  have hends : EndsAt ⟨0, 8, false⟩ (inEncaps [0xF8, 7]) _ := ⟨.single hpassed, .inl rfl⟩
  constructor
  · intro q h t hq hh ht
    rcases hq.eq_or_of_passed hpassed with rfl | hq
    · cases hh.2
      cases ht
    · obtain rfl := hends.eq_of_passes hq
      exact absurd hh.1 (by decide)
  · intro hagree
    obtain ⟨q, -, hread⟩ := hagree.ends.mp ⟨_, hends, rfl⟩
    cases hread

end Ice
