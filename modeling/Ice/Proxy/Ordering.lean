import Ice.Proxy.Reference

/-!
# The order of references

`operator==` and `operator<` of `Reference`, `FixedReference` and `RoutableReference`
(`cpp/src/Ice/Reference.cpp:256-385, 633-671, 1058-1227`) compare references member by member. Both
are comparisons of one key in a lexicographic order.
-/

namespace Ice.Proxy

/-! ## The order of the members -/

theorem Mode.ctorIdx_injective : Mode.ctorIdx.Injective := by
  intro a b h
  cases a <;> cases b <;> simp_all [Mode.ctorIdx]

/-- An enumeration is ordered by its values. -/
instance : LinearOrder Mode := LinearOrder.lift' Mode.ctorIdx Mode.ctorIdx_injective

inductive EndpointSelectionType where
  | random
  | ordered
deriving DecidableEq, Repr

instance : LinearOrder EndpointSelectionType :=
  LinearOrder.lift' EndpointSelectionType.ctorIdx fun a b h => by
    cases a <;> cases b <;> simp_all [EndpointSelectionType.ctorIdx]

/-- Structures are compared as tuples (`cpp/include/Ice/TupleCompare.h`). -/
instance : LinearOrder Identity :=
  LinearOrder.lift' (fun i => toLex (i.name, i.category)) fun a b h => by cases a; cases b; simp_all

instance : LinearOrder Version :=
  LinearOrder.lift' (fun v => toLex (v.major.toNat, v.minor.toNat)) fun a b h => by
    cases a; cases b; simp_all [UInt8.toNat_inj]

/-! ## References -/

/-- The comparison of one member by `operator<`, and what follows it. -/
def lessThen {α : Type} [LinearOrder α] (a b : α) (rest : Bool) : Bool :=
  if a < b then true else if b < a then false else rest

/-- The members of `Reference` that are compared. The context is given by its entries in the order
    of their keys, and an optional that is not set is less than any that is. -/
@[ext] structure ReferenceMembers where
  mode : Mode
  identity : Identity
  context : List (Text ×ₗ Text)
  facet : Text
  compress : WithBot Bool
  protocol : Version
  encoding : Version
  invocationTimeout : Int

/-- `Reference::operator==`. -/
def ReferenceMembers.equal (a b : ReferenceMembers) : Bool :=
  a.mode = b.mode && a.identity = b.identity && a.context = b.context && a.facet = b.facet &&
    a.compress = b.compress && a.protocol = b.protocol && a.encoding = b.encoding &&
    a.invocationTimeout = b.invocationTimeout

/-- `Reference::operator<`. -/
def ReferenceMembers.less (a b : ReferenceMembers) : Bool :=
  lessThen a.mode b.mode <| lessThen a.identity b.identity <| lessThen a.context b.context <|
    lessThen a.facet b.facet <| lessThen a.compress b.compress <| lessThen a.protocol b.protocol <|
    lessThen a.encoding b.encoding <| lessThen a.invocationTimeout b.invocationTimeout false

variable {ε κ ρ μ : Type}

/-- The members of its own that `RoutableReference` compares. Pointers are compared by
    `Ice::targetEqualTo` and `Ice::targetLess`: the null pointer is less than all others, which are
    compared by what they point to. -/
@[ext] structure RoutableMembers (ε ρ μ : Type) where
  collocationOptimized : Bool
  cacheConnection : Bool
  endpointSelection : EndpointSelectionType
  connectionId : Text
  routerInfo : WithBot ρ
  locatorInfo : WithBot μ
  adapterId : Text
  endpoints : List (WithBot ε)
  locatorCacheTimeout : Int

/-- A `FixedReference` or a `RoutableReference`. -/
inductive AnyReference (ε κ ρ μ : Type) where
  | fixed (members : ReferenceMembers) (fixedConnection : κ)
  | routable (members : ReferenceMembers) (routing : RoutableMembers ε ρ μ)

def AnyReference.members : AnyReference ε κ ρ μ → ReferenceMembers
  | .fixed members _ | .routable members _ => members

variable [LinearOrder ε] [LinearOrder κ] [LinearOrder ρ] [LinearOrder μ]

def RoutableMembers.equal (a b : RoutableMembers ε ρ μ) : Bool :=
  a.collocationOptimized = b.collocationOptimized && a.cacheConnection = b.cacheConnection &&
    a.endpointSelection = b.endpointSelection && a.connectionId = b.connectionId &&
    a.routerInfo = b.routerInfo && a.locatorInfo = b.locatorInfo && a.endpoints = b.endpoints &&
    a.adapterId = b.adapterId && a.locatorCacheTimeout = b.locatorCacheTimeout

def RoutableMembers.less (a b : RoutableMembers ε ρ μ) : Bool :=
  lessThen a.collocationOptimized b.collocationOptimized <|
    lessThen a.cacheConnection b.cacheConnection <|
    lessThen a.endpointSelection b.endpointSelection <| lessThen a.connectionId b.connectionId <|
    lessThen a.routerInfo b.routerInfo <| lessThen a.locatorInfo b.locatorInfo <|
    lessThen a.adapterId b.adapterId <| lessThen a.endpoints b.endpoints <|
    lessThen a.locatorCacheTimeout b.locatorCacheTimeout false

namespace AnyReference

/-- The two `operator==`, without the comparison of the addresses. -/
def equal : AnyReference ε κ ρ μ → AnyReference ε κ ρ μ → Bool
  | .fixed a c, .fixed b d => a.equal b && c = d
  | .routable a x, .routable b y => a.equal b && x.equal y
  | _, _ => false

/-- The two `operator<`, without the comparison of the addresses. -/
def less (a b : AnyReference ε κ ρ μ) : Bool :=
  if a.members.less b.members then true
  else if a.members.equal b.members = false then false
  else
    match a, b with
    | .fixed _ c, .fixed _ d => c < d
    | .fixed _ _, .routable _ _ => false
    | .routable _ _, .fixed _ _ => true
    | .routable _ x, .routable _ y => x.less y

end AnyReference

/-! ## The order -/

variable {α β : Type}

/-- A key in a linear order is compared. -/
def Orders (lt : α → α → Bool) (same : α → α → Prop) : Prop :=
  ∃ (β : Type) (_ : LinearOrder β) (key : α → β), ∀ a b, (same a b ↔ key a = key b) ∧
    (lt a b = true ↔ key a < key b)

theorem Orders.final : Orders (fun _ _ : α => false) fun _ _ => True :=
  ⟨Unit, inferInstance, fun _ => (), fun _ _ => by simp⟩

/-- One more member is compared first. -/
theorem Orders.member {lt : α → α → Bool} {same : α → α → Prop} [LinearOrder β] (h : Orders lt same)
    (f : α → β) :
    Orders (fun a b => lessThen (f a) (f b) (lt a b)) fun a b => f a = f b ∧ same a b := by
  obtain ⟨γ, _, key, hkey⟩ := h
  refine ⟨β ×ₗ γ, inferInstance, fun a => toLex (f a, key a), fun a b =>
    ⟨by simp [(hkey a b).1], ?_⟩⟩
  rw [Prod.Lex.toLex_lt_toLex]
  dsimp only [lessThen]
  rcases lt_trichotomy (f a) (f b) with hab | hab | hab
  · simp [hab]
  · simpa [hab] using (hkey a b).2
  · simp [hab, hab.not_gt, hab.ne']

theorem ReferenceMembers.ordered : Orders ReferenceMembers.less Eq := by
  have h :=
    (((((((Orders.final.member ReferenceMembers.invocationTimeout).member encoding).member
    protocol).member
    compress).member facet).member context).member identity).member mode
  simp only [and_true, ← ReferenceMembers.ext_iff] at h
  exact h

theorem RoutableMembers.ordered : Orders (RoutableMembers.less (ε := ε) (ρ := ρ) (μ := μ)) Eq := by
  have h :=
    ((((((((Orders.final.member (RoutableMembers.locatorCacheTimeout (ε := ε) (ρ := ρ)
    (μ := μ))).member
    endpoints).member adapterId).member locatorInfo).member routerInfo).member connectionId).member
    endpointSelection).member cacheConnection).member collocationOptimized
  simp only [and_true, ← RoutableMembers.ext_iff] at h
  exact h

theorem ReferenceMembers.equal_iff {a b : ReferenceMembers} : a.equal b = true ↔ a = b := by
  simp [ReferenceMembers.equal, ReferenceMembers.ext_iff, and_assoc]

theorem RoutableMembers.equal_iff {a b : RoutableMembers ε ρ μ} : a.equal b = true ↔ a = b := by
  simp [RoutableMembers.equal, RoutableMembers.ext_iff, and_assoc, and_left_comm]

namespace AnyReference

theorem equal_iff {a b : AnyReference ε κ ρ μ} : a.equal b = true ↔ a = b := by
  cases a <;> cases b <;> simp [equal, ReferenceMembers.equal_iff, RoutableMembers.equal_iff]

/-- Routable references come before fixed ones. -/
theorem ordered : Orders (less (ε := ε) (κ := κ) (ρ := ρ) (μ := μ)) Eq := by
  obtain ⟨β, _, key, hkey⟩ := ReferenceMembers.ordered
  obtain ⟨γ, _, key', hkey'⟩ := RoutableMembers.ordered (ε := ε) (ρ := ρ) (μ := μ)
  have hless (a b : ReferenceMembers) (rest : Bool) :
      (if a.less b then true else if a.equal b = false then false else rest) = true ↔
        key a < key b ∨ key a = key b ∧ rest = true := by
    rw [← (hkey a b).1, ← (hkey a b).2, ← ReferenceMembers.equal_iff]
    split_ifs <;> simp_all
  refine ⟨β ×ₗ (γ ⊕ₗ κ), inferInstance, fun
    | .fixed a c => toLex (key a, toLex (Sum.inr c))
    | .routable a x => toLex (key a, toLex (Sum.inl (key' x))),
    fun a b => ⟨?_, (hless _ _ _).trans ?_⟩⟩
  · cases a <;> cases b <;> simp [← (hkey _ _).1, ← (hkey' _ _).1]
  · rw [Prod.Lex.lt_iff]
    cases a <;> cases b <;> simp [members, ← (hkey' _ _).2]

end AnyReference

variable (objects : Nat → AnyReference ε κ ρ μ)

/-- `operator==` of the objects at two addresses. -/
def referenceEqual (p q : Nat) : Bool :=
  if p = q then true else (objects p).equal (objects q)

/-- `operator<` of the objects at two addresses. -/
def referenceLess (p q : Nat) : Bool :=
  if p = q then false else (objects p).less (objects q)

/-- Exactly one of `a < b`, `b < a` and `a == b` holds, and the order is strict. -/
theorem references_ordered : (∀ a, referenceLess objects a a = false) ∧
    (∀ a b c, referenceLess objects a b = true → referenceLess objects b c = true →
      referenceLess objects a c = true) ∧
    (∀ a b, (referenceLess objects a b).toNat + (referenceLess objects b a).toNat +
      (referenceEqual objects a b).toNat = 1) ∧ Equivalence fun a b =>
        referenceEqual objects a b = true := by
  obtain ⟨β, _, key, hkey⟩ := AnyReference.ordered (ε := ε) (κ := κ) (ρ := ρ) (μ := μ)
  have hless a b : referenceLess objects a b = decide (key (objects a) < key (objects b)) := by
    unfold referenceLess
    split_ifs with h
    · simp [h]
    · exact Bool.eq_iff_iff.mpr (by simpa using (hkey _ _).2)
  have hequal a b : referenceEqual objects a b = decide (key (objects a) = key (objects b)) := by
    unfold referenceEqual
    split_ifs with h
    · simp [h]
    · exact Bool.eq_iff_iff.mpr (by simpa [AnyReference.equal_iff] using (hkey _ _).1)
  simp only [hless, hequal, decide_eq_true_eq]
  refine ⟨fun a => by simp, fun a b c => lt_trans, fun a b => ?_, ⟨fun _ => rfl, Eq.symm, Eq.trans⟩⟩
  rcases lt_trichotomy (key (objects a)) (key (objects b)) with h | h | h
  · simp [h, h.not_gt, h.ne]
  · simp [h]
  · simp [h, h.not_gt, h.ne']

end Ice.Proxy
