import Mathlib

/-!
# The routing table of Glacier2

`RoutingTable` (`cpp/src/Glacier2/RoutingTable.cpp:44-153`) holds the proxies that a client of the
router can use. It is a cache that drops the least recently used proxy.
-/

namespace Ice.Glacier2

open List

variable {ι π : Type}

structure EvictorEntry (π : Type) where
  proxy : π
  /-- the node of the queue, an iterator -/
  pos : Nat

/-- The table: its map, the nodes of its queue with the entries of the map they stand for, and a
    node that was not used so far. Sizes are compared as `int`, so there is room for one more
    entry. -/
structure RoutingTable (ι π : Type) where
  maxSize : Nat
  maxSize_lt : maxSize + 1 < 2 ^ 31
  map : AList fun _ : ι => EvictorEntry π := ∅
  queue : List (Nat × ι) := []
  node : Nat := 0

/-- What the table knows of proxies: the identity, the verification, and the form in which they are
    added. -/
structure Proxies (ι π : Type) where
  identity : π → ι
  verify : π → Bool
  defaultForm : π → π

/-- A call of the table. -/
inductive TableCall (ι π : Type) where
  | add (unfiltered : List (Option π))
  | get (ident : ι)

/-- The proxies that are added, unless one is rejected. -/
def Proxies.scan (P : Proxies ι π) (unfiltered : List (Option π)) : Option (List π) :=
  if unfiltered.reduceOption.all P.verify then some (unfiltered.reduceOption.map P.defaultForm)
  else none

namespace RoutingTable

variable [DecidableEq ι] (P : Proxies ι π) (t : RoutingTable ι π)

/-- The node of an entry is erased and a new one is inserted at the end of the queue. -/
def moveToEnd (i : ι) (entry : EvictorEntry π) : RoutingTable ι π :=
  { t with
    map := t.map.insert i { entry with pos := t.node }
    queue := t.queue.filter (·.1 != entry.pos) ++ [(t.node, i)]
    node := t.node + 1 }

/-- The inner loop of `add` over the queue, with the proxies that are evicted. -/
def evict (t : RoutingTable ι π) : List (Nat × ι) → RoutingTable ι π × List π
  | [] => (t, [])
  | (_, i) :: queue =>
    if t.maxSize < t.map.keys.length then
      let (t', evicted) := evict { t with queue := queue, map := t.map.erase i } queue
      (t', (t.map.lookup i).toList.map EvictorEntry.proxy ++ evicted)
    else (t, [])

/-- One round of the loop of `add`. -/
def addOne (proxy : π) : RoutingTable ι π × List π :=
  let i := P.identity proxy
  let t :=
    match t.map.lookup i with
    -- the position is `_queue.end()`
    | none => t.moveToEnd i ⟨proxy, t.node⟩
    | some entry => t.moveToEnd i entry
  t.evict t.queue

def addAll (t : RoutingTable ι π) : List π → RoutingTable ι π × List π
  | [] => (t, [])
  | proxy :: proxies =>
    let (t, evicted) := t.addOne P proxy
    let (t, rest) := t.addAll proxies
    (t, evicted ++ rest)

/-- `add`. A rejected proxy ends in an exception, and the table stays as it is. -/
def add (unfiltered : List (Option π)) : RoutingTable ι π × Option (List π) :=
  match P.scan unfiltered with
  | none => (t, none)
  | some proxies => let (t, evicted) := t.addAll P proxies; (t, some evicted)

def get (ident : ι) : RoutingTable ι π × Option π :=
  match t.map.lookup ident with
  | none => (t, none)
  | some entry => (t.moveToEnd ident entry, some entry.proxy)

/-- The table after a call. -/
def after : TableCall ι π → RoutingTable ι π
  | .add unfiltered => (t.add P unfiltered).1
  | .get ident => (t.get ident).1

end RoutingTable

/-! ### A cache of the most recently used entries -/

/-- The uses of a cache, the last one first: an identity with the value that it was registered with,
    or without one if it was found. -/
abbrev Uses (ι π : Type) := List (ι × Option π)

variable [DecidableEq ι]

/-- The last `m` identities that were used, the least recently used one first. -/
def recent (m : Nat) (uses : Uses ι π) : List ι := (uses.map Prod.fst).reverse.dedup.rtake m

/-- The value of the first registration since an identity was last absent. -/
def registered (m : Nat) : Uses ι π → ι → Option π
  | [], _ => none
  | use :: uses, i =>
    if i ∈ recent m uses then registered m uses i else if i = use.1 then use.2 else none

/-- The values that are dropped by further uses. -/
def dropped (m : Nat) (uses : Uses ι π) : Uses ι π → List π
  | [] => []
  | use :: more =>
    ((recent m uses).filter (· ∉ recent m (use :: uses))).filterMap (registered m uses) ++
      dropped m (use :: uses) more

/-- The use of an identity by the registration of a proxy. -/
def Proxies.use (P : Proxies ι π) (p : π) : ι × Option π := (P.identity p, some p)

/-- The uses that a call adds, in order. -/
def TableCall.uses (P : Proxies ι π) (m : Nat) (uses : Uses ι π) : TableCall ι π → Uses ι π
  | .add unfiltered => ((P.scan unfiltered).getD []).map P.use
  | .get ident => if ident ∈ recent m uses then [(ident, none)] else []

/-- The uses after calls. -/
def usesOf (P : Proxies ι π) (m : Nat) : Uses ι π → List (TableCall ι π) → Uses ι π :=
  List.foldl fun uses call => (call.uses P m uses).reverse ++ uses

variable {m : Nat} {uses : Uses ι π} {t : RoutingTable ι π} {l : List (ι × EvictorEntry π)} {i : ι}

theorem dedup_concat (l : List ι) (i : ι) : (l ++ [i]).dedup = l.dedup.filter (· != i) ++ [i] := by
  induction l with
  | nil => rfl
  | cons a l ih =>
    by_cases ha : a ∈ l
    · rw [cons_append, dedup_cons_of_mem (mem_append_left _ ha), ih, dedup_cons_of_mem ha]
    · by_cases hi : a = i
      · rw [cons_append, dedup_cons_of_mem (by simp [hi]), ih, dedup_cons_of_notMem ha]
        simp [hi]
      · rw [cons_append, dedup_cons_of_notMem (by simp [ha, hi]), ih, dedup_cons_of_notMem ha]
        simp [hi]

omit [DecidableEq ι] in
theorem rtake_append {l l' : List ι} (h : m ≤ l'.length) : (l ++ l').rtake m = l'.rtake m := by
  rw [rtake, rtake, length_append, Nat.add_sub_assoc h, drop_length_add_append]

theorem recent_nodup : (recent m uses).Nodup := (drop_sublist _ _).nodup (nodup_dedup _)

theorem recent_cons (use : ι × Option π) :
    recent m (use :: uses) = ((recent m uses).filter (· != use.1) ++ [use.1]).rtake m := by
  have hnodup : (recent m uses).Nodup := recent_nodup
  simp only [recent, map_cons, reverse_cons, dedup_concat] at hnodup ⊢
  generalize (uses.map Prod.fst).reverse.dedup = ids at hnodup ⊢
  rcases Nat.le_total ids.length m with hle | hle
  · simp [rtake, Nat.sub_eq_zero_of_le hle]
  · have hlength := le_length_erase (l := ids.rtake m) (a := use.1)
    have hm : (ids.rtake m).length = m := by simp [rtake, Nat.sub_sub_self hle]
    rw [hnodup.erase_eq_filter, hm] at hlength
    conv_lhs => rw [← take_append_drop (ids.length - m) ids, filter_append, append_assoc]
    refine rtake_append ?_
    simpa [rtake] using Nat.sub_le_iff_le_add.mp hlength

/-! ### The table is such a cache -/

/-- The entries of the table in the order of the queue. The nodes of the map are those of the
    queue. -/
structure Linked (t : RoutingTable ι π) (l : List (ι × EvictorEntry π)) : Prop where
  queue : t.queue = l.map fun x => (x.2.pos, x.1)
  keys : t.map.keys ~ l.map Prod.fst
  entries : ∀ x ∈ l, t.map.lookup x.1 = some x.2
  nodes : (l.map (·.2.pos)).Nodup
  fresh : ∀ x ∈ l, x.2.pos < t.node

theorem Linked.ids (h : Linked t l) : (l.map Prod.fst).Nodup := h.keys.nodup_iff.mp t.map.keys_nodup

theorem Linked.moveToEnd {e : EvictorEntry π} (h : Linked t l)
    (hpos : ∀ x ∈ l, x.2.pos = e.pos ↔ x.1 = i) :
    Linked (t.moveToEnd i e) (l.filter (·.1 != i) ++ [(i, { e with pos := t.node })]) := by
  refine ⟨?_, ?_, ?_, ?_, ?_⟩
  · have hfilter : l.filter (·.2.pos != e.pos) = l.filter (·.1 != i) :=
      filter_congr fun x hx => by simp [bne, hpos x hx]
    simp [RoutingTable.moveToEnd, h.queue, filter_map, Function.comp_def, hfilter]
  · have hids := h.ids.erase_eq_filter i
    have hkeys := (h.keys.erase i).cons i
    rw [hids, filter_map] at hkeys
    simpa [RoutingTable.moveToEnd, Function.comp_def]
      using hkeys.trans (perm_append_singleton i _).symm
  · intro x hx
    rcases mem_append.mp hx with hx | hx
    · obtain ⟨hx, hne⟩ := mem_filter.mp hx
      simpa [RoutingTable.moveToEnd, AList.lookup_insert_ne (bne_iff_ne.mp hne)]
        using h.entries x hx
    · rw [mem_singleton.mp hx]
      simp [RoutingTable.moveToEnd]
  · rw [map_append]
    refine ((filter_sublist.map _).nodup h.nodes).append (nodup_singleton _) ?_
    simpa using fun x e hx _ => (h.fresh (x, e) hx).ne
  · intro x hx
    rcases mem_append.mp hx with hx | hx
    · exact Nat.lt_succ_of_lt (h.fresh x (mem_filter.mp hx).1)
    · rw [mem_singleton.mp hx]
      exact Nat.lt_succ_self _

theorem evict_of_le (h : t.map.keys.length ≤ t.maxSize) : ∀ queue, t.evict queue = (t, [])
  | [] => rfl
  | _ :: _ => if_neg (not_lt.mpr h)

theorem Linked.evict (h : Linked t l) (hm : t.maxSize = m) :
    Linked (t.evict t.queue).1 (l.drop (l.length - m)) ∧ (t.evict t.queue).1.maxSize = m ∧
      (t.evict t.queue).2 = (l.take (l.length - m)).map (·.2.proxy) := by
  induction l generalizing t with
  | nil => simpa [h.queue, RoutingTable.evict] using ⟨h, hm⟩
  | cons x l ih =>
    have hlength : t.map.keys.length = l.length + 1 := by simpa using h.keys.length_eq
    rw [length_cons]
    rcases Nat.lt_or_ge m (l.length + 1) with hlt | hle
    · have hrest :
          Linked { t with queue := l.map fun x => (x.2.pos, x.1), map := t.map.erase x.1 } l := by
        refine ⟨rfl, by simpa using h.keys.erase x.1, fun y hy => ?_, (nodup_cons.mp h.nodes).2,
          fun y hy => h.fresh y (.tail _ hy)⟩
        rw [← h.entries y (.tail _ hy)]
        exact AList.lookup_erase_ne fun heq => (nodup_cons.mp h.ids).1 (heq ▸ mem_map_of_mem hy)
      rw [Nat.succ_sub (Nat.le_of_lt_succ hlt), h.queue, map_cons, RoutingTable.evict, hlength,
        if_pos (hm ▸ hlt)]
      obtain ⟨hlinked, hm', heq⟩ := ih hrest hm
      refine ⟨hlinked, hm', ?_⟩
      simp [heq, h.entries x (.head _)]
    · rw [evict_of_le (by omega), Nat.sub_eq_zero_of_le hle]
      exact ⟨h, hm, rfl⟩

/-- The elements before a position are those whose keys do not follow. -/
theorem filter_notMem_drop {ids : List ι} {k : Nat} (hids : (l.map Prod.fst).Nodup)
    (h : ids = (l.drop k).map Prod.fst) : l.filter (·.1 ∉ ids) = l.take k := by
  have hdisjoint : Disjoint ((l.take k).map Prod.fst) ids := by
    rw [h, map_take, map_drop]
    exact disjoint_take_drop hids le_rfl
  conv_lhs => rw [← take_append_drop k l, filter_append]
  rw [filter_eq_self.mpr, filter_eq_nil_iff.mpr, append_nil]
  · intro x hx
    simpa [h] using mem_map_of_mem (f := Prod.fst) hx
  · intro x hx
    simpa using hdisjoint (mem_map_of_mem hx)

/-- The table is the cache after the given uses. -/
structure Caches (m : Nat) (uses : Uses ι π) (t : RoutingTable ι π)
    (l : List (ι × EvictorEntry π)) : Prop
    extends Linked t l where
  maxSize : t.maxSize = m
  held : l.map Prod.fst = recent m uses
  values : ∀ x ∈ l, registered m uses x.1 = some x.2.proxy

/-- A use of an identity makes it the last one, and drops the first one if there are too many. -/
theorem Caches.use {e : EvictorEntry π} {v : Option π} (h : Caches m uses t l) (hm : 0 < m)
    (hpos : ∀ x ∈ l, x.2.pos = e.pos ↔ x.1 = i)
    (hvalue : registered m ((i, v) :: uses) i = some e.proxy) :
    let t' := (t.moveToEnd i e).evict (t.moveToEnd i e).queue
    (∃ l', Caches m ((i, v) :: uses) t'.1 l') ∧ t'.2 = dropped m uses [(i, v)] := by
  have hmoved := h.moveToEnd hpos
  obtain ⟨hlinked, hmax, heq⟩ := hmoved.evict h.maxSize
  have hids := hmoved.ids
  generalize hl' : l.filter (·.1 != i) ++ [(i, { e with pos := t.node })] = l' at hlinked heq hids
  have hrecent : recent m ((i, v) :: uses) = (l'.drop (l'.length - m)).map Prod.fst := by
    rw [recent_cons, ← h.held, ← hl']
    simp [rtake, filter_map, Function.comp_def]
  have hi : i ∈ recent m ((i, v) :: uses) := by
    rw [hrecent, ← hl', drop_append_of_le_length (by simp; omega)]
    simp
  have hfilter : l.filter (·.1 ∉ recent m ((i, v) :: uses)) = l'.take (l'.length - m) := by
    rw [← filter_notMem_drop hids hrecent, ← hl', filter_append, filter_filter]
    simp only [hi, not_true, decide_false, filter_singleton, cond_false, append_nil]
    refine filter_congr fun x _ => ?_
    by_cases hx : x.1 = i
    · simp [hx, hi]
    · simp [hx]
  refine ⟨⟨_, { hlinked with maxSize := hmax, held := hrecent.symm, values := fun x hx => ?_ }⟩, ?_⟩
  · rcases mem_append.mp (hl' ▸ mem_of_mem_drop hx) with hx | hx
    · have hx := (mem_filter.mp hx).1
      rw [registered, if_pos (h.held ▸ mem_map_of_mem hx), h.values x hx]
    · rw [mem_singleton.mp hx, hvalue]
  · rw [heq, ← hfilter, ← filterMap_eq_map, dropped, dropped, append_nil, ← h.held, filter_map,
      filterMap_map]
    exact filterMap_congr fun x hx => (h.values x (mem_filter.mp hx).1).symm

theorem Caches.lookup (h : Caches m uses t l) (i : ι) :
    t.map.lookup i = none ∧ i ∉ recent m uses ∨
      ∃ e, t.map.lookup i = some e ∧ i ∈ recent m uses ∧ registered m uses i = some e.proxy ∧
        ∀ x ∈ l, x.2.pos = e.pos ↔ x.1 = i := by
  by_cases hi : i ∈ recent m uses
  · obtain ⟨x, hx, rfl⟩ := mem_map.mp (h.held ▸ hi)
    refine .inr ⟨x.2, h.entries x hx, hi, h.values x hx, fun y hy => ⟨fun heq => ?_, fun heq => ?_⟩⟩
    · rw [inj_on_of_nodup_map h.nodes hy hx heq]
    · rw [inj_on_of_nodup_map h.ids hy hx heq]
  · exact .inl ⟨AList.lookup_eq_none.mpr fun hmem => hi (h.held ▸ h.keys.mem_iff.mp hmem), hi⟩

variable {P : Proxies ι π}

theorem Caches.addAll (h : Caches m uses t l) (hm : 0 < m) (proxies : List π) :
    (∃ l', Caches m ((proxies.map P.use).reverse ++ uses) (t.addAll P proxies).1 l') ∧
      (t.addAll P proxies).2 = dropped m uses (proxies.map P.use) := by
  induction proxies generalizing uses t l with
  | nil => exact ⟨⟨l, h⟩, rfl⟩
  | cons p proxies ih =>
    have hone : (∃ l', Caches m (P.use p :: uses) (t.addOne P p).1 l') ∧
        (t.addOne P p).2 = dropped m uses [P.use p] := by
      rcases h.lookup (P.identity p) with ⟨hnone, hi⟩ | ⟨e, he, hi, hvalue, hpos⟩
      · simp only [RoutingTable.addOne, hnone]
        refine h.use hm (fun x hx => ?_) (by simp [registered, hi])
        exact iff_of_false (h.fresh x hx).ne fun heq => hi (h.held ▸ heq ▸ mem_map_of_mem hx)
      · simp only [RoutingTable.addOne, he]
        exact h.use hm hpos (by rw [registered, if_pos hi, hvalue])
    obtain ⟨⟨l1, h1⟩, heq1⟩ := hone
    obtain ⟨⟨l2, h2⟩, heq2⟩ := ih h1
    simp only [RoutingTable.addAll, map_cons, reverse_cons, append_assoc, heq1, heq2]
    refine ⟨⟨l2, h2⟩, ?_⟩
    rw [dropped, dropped, dropped, append_nil]

theorem Caches.get (h : Caches m uses t l) (hm : 0 < m) (ident : ι) :
    ∃ l', Caches m (((TableCall.get ident).uses P m uses).reverse ++ uses) (t.get ident).1 l' := by
  rw [TableCall.uses, RoutingTable.get]
  rcases h.lookup ident with ⟨hnone, hi⟩ | ⟨e, he, hi, hvalue, hpos⟩
  · rw [hnone, if_neg hi]
    exact ⟨l, h⟩
  · have huse := (h.use (v := none) hm hpos (by rw [registered, if_pos hi, hvalue])).1
    -- the size stays
    have hle : (t.moveToEnd ident e).map.keys.length ≤ m := by
      have hmem : ident ∈ t.map.keys := AList.lookup_isSome.mp (he ▸ rfl)
      rw [RoutingTable.moveToEnd, AList.keys_insert, ← (perm_cons_erase hmem).length_eq,
        h.keys.length_eq, h.held]
      simp only [recent, rtake, length_drop]
      omega
    rw [evict_of_le (hle.trans_eq h.maxSize.symm)] at huse
    rw [he, if_pos hi]
    exact huse

theorem Caches.run (h : Caches m uses t l) (hm : 0 < m) (calls : List (TableCall ι π)) :
    ∃ l', Caches m (usesOf P m uses calls) (calls.foldl (.after P) t) l' := by
  induction calls generalizing uses t l with
  | nil => exact ⟨l, h⟩
  | cons call calls ih =>
    have hcall : ∃ l', Caches m ((call.uses P m uses).reverse ++ uses) (t.after P call) l' := by
      cases call with
      | get ident => exact h.get hm ident
      | add unfiltered =>
        rw [RoutingTable.after, RoutingTable.add, TableCall.uses]
        cases P.scan unfiltered with
        | none => exact ⟨l, h⟩
        | some proxies => exact (h.addAll hm proxies).1
    obtain ⟨l', h'⟩ := hcall
    exact ih h'

/-- `RoutingTable` is a cache of the last `m` identities that were used. -/
theorem routingTable_caches (hm : 0 < m) (hmax : m + 1 < 2 ^ 31) (calls : List (TableCall ι π)) :
    let t := calls.foldl (RoutingTable.after P) { maxSize := m, maxSize_lt := hmax }
    let uses := usesOf P m [] calls
    t.queue.map Prod.snd = recent m uses ∧ t.map.keys ~ recent m uses ∧ (recent m uses).Nodup ∧
      (recent m uses).length = min m (uses.map Prod.fst).dedup.length ∧
      (∀ i, (t.map.lookup i).map (·.proxy) = if i ∈ recent m uses then
        registered m uses i else none) ∧
      ∀ unfiltered, (t.add P unfiltered).2 =
        (P.scan unfiltered).map fun proxies => dropped m uses (proxies.map P.use) := by
  intro t uses
  obtain ⟨l, h⟩ : ∃ l, Caches m uses t l := by
    refine Caches.run (l := []) ?_ hm calls
    exact { queue := rfl, keys := .nil, entries := nofun, nodes := .nil, fresh := nofun,
            maxSize := rfl, held := by simp [recent, rtake], values := nofun }
  refine ⟨?_, h.held ▸ h.keys, recent_nodup, ?_, fun i => ?_, fun unfiltered => ?_⟩
  · rw [h.queue, ← h.held, map_map]
    rfl
  · have hlength := ((uses.map Prod.fst).reverse_perm.dedup).length_eq
    simp only [recent, rtake, length_drop, hlength]
    omega
  · rcases h.lookup i with ⟨hnone, hi⟩ | ⟨e, he, hi, hvalue, -⟩
    · simp [hnone, hi]
    · simp [he, hi, hvalue]
  · rw [RoutingTable.add]
    cases P.scan unfiltered with
    | none => rfl
    | some proxies => exact congrArg some (h.addAll hm proxies).2

/-- A table with room for one proxy drops the first of two as soon as the second is added. -/
theorem routingTable_caches_one : 0 < 1 ∧
    (({ maxSize := 1, maxSize_lt := by decide } : RoutingTable Nat Nat).add
      ⟨id, fun _ => true, id⟩ [some 1, none, some 2]).2 = some [1] :=
  ⟨by decide, ((routingTable_caches (by decide) (by decide) []).2.2.2.2.2 _).trans (by decide)⟩

end Ice.Glacier2
