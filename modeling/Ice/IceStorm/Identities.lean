import Ice.Proxy.Quotes

/-!
# The identities of the servants of IceStorm

`TopicImpl::create` (`cpp/src/IceStorm/TopicI.cpp:362-382`) adds a publisher and a link servant for
a topic to the publish adapter, and `Subscriber::create` (`cpp/src/IceStorm/Subscriber.cpp:536-634`)
a publisher for one subscriber. Their identities are made of the names of the topic and the
subscriber and of texts that these names may contain.
-/

namespace Ice.IceStorm

open Proxy List

/-- A topic and the identities of its subscribers. -/
structure Topic where
  name : Text
  nonempty : name ≠ []
  subscribers : List Identity
  distinct : subscribers.Nodup

structure Instance where
  instanceName : Text
  nonempty : instanceName ≠ []
  toStringMode : ToStringMode
  topics : List Topic
  distinct : (topics.map Topic.name).Nodup

/-- The two servants of a topic. -/
inductive TopicServant where
  | publisher
  | link
deriving DecidableEq, Repr

def publish : Text := "publish".toList

def TopicServant.text : TopicServant → Text
  | publisher => publish
  | link => "link".toList

/-- A servant of the publish adapter. -/
inductive Servant where
  | topic (servant : TopicServant) (name : Text)
  | perSubscriberPublisher (topicName : Text) (subscriber : Identity)
deriving DecidableEq, Repr

def Instance.nameToIdentity (i : Instance) (name : Text) : Identity :=
  ⟨"topic.".toList ++ name, i.instanceName⟩

def Servant.identity (i : Instance) : Servant → Except ParseException Identity
  | .topic servant name =>
    let id := i.nameToIdentity name
    .ok (if id.category = [] then ⟨servant.text, name⟩
      else ⟨name ++ '.' :: servant.text, id.category⟩)
  | .perSubscriberPublisher topicName subscriber => do
    let id ← identityToString subscriber i.toStringMode
    return ⟨"topic.".toList ++ topicName ++ '.' :: publish ++ '.' :: id, i.instanceName⟩

inductive AddException where
  | alreadyRegistered
  | invalidIdentity (ex : ParseException)
deriving DecidableEq, Repr

/-- Adds a servant to an adapter with servants of the given identities. -/
def Instance.add (i : Instance) (adapter : List Identity) (a : Servant) :
    Except AddException (List Identity) :=
  match a.identity i with
  | .error ex => .error (.invalidIdentity ex)
  | .ok id => if id ∈ adapter then .error .alreadyRegistered else .ok (adapter ++ [id])

/-- The servants of the topics and subscribers. -/
def Servant.Of (i : Instance) : Servant → Prop
  | .topic _ name => ∃ t ∈ i.topics, t.name = name
  | .perSubscriberPublisher topicName subscriber =>
    ∃ t ∈ i.topics, t.name = topicName ∧ subscriber ∈ t.subscribers

/-- Distinct servants have distinct identities. There is none for a subscriber whose identity has no
    string. -/
def Instance.Distinct (i : Instance) : Prop :=
  ∀ (a b : Servant) (id : Identity), a.Of i → b.Of i → a.identity i = .ok id →
    b.identity i = .ok id →
    a = b

/-- The subscribers of a topic have distinct strings. No topic has a name that is made of the name
    of another one, `.publish` and a part of the string of a subscriber's identity, such that the
    rest of that string is what comes behind the name. -/
def Instance.Unambiguous (i : Instance) : Prop :=
  ∀ t ∈ i.topics, ∀ s ∈ t.subscribers, ∀ id, identityToString s i.toStringMode = .ok id →
    (∀ s' ∈ t.subscribers, identityToString s' i.toStringMode = .ok id → s = s') ∧
    ∀ t' ∈ i.topics, ∀ w,
      (t'.name = "topic.".toList ++ t.name ++ '.' :: publish ++ w → ∀ servant : TopicServant,
        '.' :: id ≠ w ++ '.' :: servant.text) ∧
      (t'.name = t.name ++ '.' :: publish ++ w → ∀ s' ∈ t'.subscribers, ∀ id',
        identityToString s' i.toStringMode = .ok id' →
        '.' :: id ≠ w ++ '.' :: publish ++ '.' :: id')

variable {i : Instance} {x y text text' kind : Text}

/-- Behind the last dot there is a part of what stands behind any other dot. -/
theorem append_dot (hkind : '.' ∉ kind) (h : x ++ '.' :: text = y ++ '.' :: kind) :
    ∃ w, y = x ++ w ∧ '.' :: text = w ++ '.' :: kind := by
  rcases append_eq_append_iff.mp h with ⟨w, hy, hw⟩ | ⟨w, hx, hw⟩
  · exact ⟨w, hy, hw⟩
  · cases w with
    | nil => exact ⟨[], by simpa using hx.symm, hw.symm⟩
    | cons c w =>
      obtain ⟨-, rfl⟩ := cons_eq_cons.mp hw
      simp at hkind

/-- Two occurrences of a dot with a text without dots do not overlap. -/
theorem append_twice (hkind : '.' ∉ kind) (hx : x ≠ [])
    (h : '.' :: kind ++ '.' :: text = x ++ ('.' :: kind ++ '.' :: text')) :
    ∃ w, x = '.' :: kind ++ w ∧ '.' :: text = w ++ ('.' :: kind ++ '.' :: text') := by
  rcases append_eq_append_iff.mp h with ⟨w, hy, hw⟩ | ⟨w, hx', hw⟩
  · exact ⟨w, hy, hw⟩
  · cases w with
    | nil => exact ⟨[], by simpa using hx'.symm, hw.symm⟩
    | cons c w =>
      obtain ⟨rfl, -⟩ : '.' = c ∧ _ := cons_eq_cons.mp hw
      obtain ⟨d, x, rfl⟩ := exists_cons_of_ne_nil hx
      obtain ⟨-, rfl⟩ := cons_eq_cons.mp hx'
      simp at hkind

theorem TopicServant.not_mem_text (servant : TopicServant) : '.' ∉ servant.text := by
  cases servant <;> decide

theorem TopicServant.text_inj {a b : TopicServant} (h : a.text = b.text) : a = b := by
  cases a <;> cases b <;> first | rfl | exact absurd h (by decide)

theorem identity_topic (i : Instance) (servant : TopicServant) (name : Text) :
    (Servant.topic servant name).identity i = .ok ⟨name ++ '.' :: servant.text, i.instanceName⟩ :=
  congrArg Except.ok (if_neg i.nonempty)

theorem identity_perSubscriber (name : Text) {s id : Identity} :
    (Servant.perSubscriberPublisher name s).identity i = .ok id ↔
      ∃ string, identityToString s i.toStringMode = .ok string ∧
        id = ⟨"topic.".toList ++ name ++ '.' :: publish ++ '.' :: string, i.instanceName⟩ := by
  cases hstring : identityToString s i.toStringMode with
  | error ex => simp [Servant.identity, hstring, bind, Except.bind]
  | ok string => simp [Servant.identity, hstring, bind, Except.bind, pure, Except.pure, eq_comm]

theorem topic_inj {servant servant' : TopicServant} {name name' : Text}
    (h : (Servant.topic servant name).identity i = (Servant.topic servant' name').identity i) :
    Servant.topic servant name = .topic servant' name' := by
  rw [identity_topic, identity_topic] at h
  obtain ⟨w, rfl, hw⟩ := append_dot servant'.not_mem_text (congrArg Identity.name (Except.ok.inj h))
  cases w with
  | nil =>
    have htext : servant.text = servant'.text := by simpa using hw
    rw [TopicServant.text_inj htext, append_nil]
  | cons c w =>
    have hdot : '.' ∈ servant.text := by simp [(cons_eq_cons.mp hw).2]
    exact absurd hdot servant.not_mem_text

section

variable (h : i.Unambiguous) {t t' : Topic} (ht : t ∈ i.topics) (ht' : t' ∈ i.topics)
  {s s' id : Identity}
  (hs : s ∈ t.subscribers) (hid : (Servant.perSubscriberPublisher t.name s).identity i = .ok id)

include h ht ht' hs hid

theorem topic_ne_perSubscriber (servant : TopicServant) :
    (Servant.topic servant t'.name).identity i ≠ .ok id := by
  obtain ⟨string, hstring, rfl⟩ := (identity_perSubscriber _).mp hid
  rw [identity_topic]
  intro heq
  obtain ⟨w, hw, hrest⟩ :=
    append_dot servant.not_mem_text (congrArg Identity.name (Except.ok.inj heq)).symm
  exact ((h t ht s hs string hstring).2 t' ht' w).1 hw servant hrest

/-- The shorter name of two topics is at the start of the longer one. -/
theorem perSubscriber_inj (hs' : s' ∈ t'.subscribers) (hle : t.name.length ≤ t'.name.length)
    (hid' : (Servant.perSubscriberPublisher t'.name s').identity i = .ok id)
    (hname : t.name = t'.name → t = t') :
    Servant.perSubscriberPublisher t.name s = .perSubscriberPublisher t'.name s' := by
  obtain ⟨string, hstring, rfl⟩ := (identity_perSubscriber _).mp hid
  obtain ⟨string', hstring', heq⟩ := (identity_perSubscriber _).mp hid'
  have hnames := congrArg Identity.name heq
  simp only [append_assoc, append_cancel_left_eq] at hnames
  obtain ⟨x, hx⟩ : ∃ x, t'.name = t.name ++ x :=
    ⟨_,
      (prefix_iff_eq_append.mp (prefix_of_prefix_length_le ⟨_, hnames⟩
      (prefix_append _ _) hle)).symm⟩
  rw [hx, append_assoc, append_cancel_left_eq] at hnames
  obtain ⟨hsame, hother⟩ := h t ht s hs string hstring
  by_cases hnil : x = []
  · subst hnil
    obtain rfl : string = string' := by simpa using hnames
    obtain rfl := hname (by simpa using hx.symm)
    rw [hsame s' hs' hstring']
  · obtain ⟨w, rfl, hw⟩ := append_twice (by decide) hnil hnames
    rw [← append_assoc] at hx hw
    exact absurd hw ((hother t' ht' w).2 hx s' hs' string' hstring')

end

/-- Topics with one name are one topic. -/
theorem topic_eq_of_name {t t' : Topic} (ht : t ∈ i.topics) (ht' : t' ∈ i.topics)
    (hname : t.name = t'.name) : t = t' :=
  inj_on_of_nodup_map i.distinct ht ht' hname

theorem distinct_of_unambiguous (h : i.Unambiguous) : i.Distinct := by
  intro a b id ha hb hid hid'
  cases a with
  | topic servant name =>
    obtain ⟨t, ht, rfl⟩ := ha
    cases b with
    | topic servant' name' => exact topic_inj (hid.trans hid'.symm)
    | perSubscriberPublisher name' s =>
      obtain ⟨t', ht', rfl, hs⟩ := hb
      exact absurd hid (topic_ne_perSubscriber h ht' ht hs hid' servant)
  | perSubscriberPublisher name s =>
    obtain ⟨t, ht, rfl, hs⟩ := ha
    cases b with
    | topic servant' name' =>
      obtain ⟨t', ht', rfl⟩ := hb
      exact absurd hid' (topic_ne_perSubscriber h ht ht' hs hid servant')
    | perSubscriberPublisher name' s' =>
      obtain ⟨t', ht', rfl, hs'⟩ := hb
      rcases Nat.le_total t.name.length t'.name.length with hle | hle
      · exact perSubscriber_inj h ht ht' hs hid hs' hle hid' (topic_eq_of_name ht ht')
      · exact (perSubscriber_inj h ht' ht hs' hid' hs hle hid (topic_eq_of_name ht' ht)).symm

theorem unambiguous_of_distinct (h : i.Distinct) : i.Unambiguous := by
  intro t ht s hs string hstring
  have hid := (identity_perSubscriber t.name).mpr ⟨string, hstring, rfl⟩
  refine ⟨fun s' hs' hstring' => ?_, fun t' ht' w => ⟨fun hname servant hw => ?_, ?_⟩⟩
  · have hid' := (identity_perSubscriber t.name).mpr ⟨string, hstring', rfl⟩
    exact (Servant.perSubscriberPublisher.inj
      (h (.perSubscriberPublisher t.name s) (.perSubscriberPublisher t.name s') _ ⟨t, ht, rfl, hs⟩
        ⟨t, ht, rfl, hs'⟩ hid hid')).2
  · have heq := h (.topic servant t'.name) (.perSubscriberPublisher t.name s) _ ⟨t', ht', rfl⟩
      ⟨t, ht, rfl, hs⟩ (by rw [identity_topic, hname, append_assoc _ w, ← hw]) hid
    cases heq
  · intro hname s' hs' string' hstring' hw
    have hid' := (identity_perSubscriber t'.name).mpr ⟨string', hstring', rfl⟩
    have heq := h (.perSubscriberPublisher t'.name s') (.perSubscriberPublisher t.name s) _
      ⟨t', ht', rfl, hs'⟩ ⟨t, ht, rfl, hs⟩ hid'
      (by rw [hid, hname, hw]; simp only [append_assoc])
    have hlength := congrArg length (hname.symm.trans (Servant.perSubscriberPublisher.inj heq).1)
    simp at hlength

/-- Distinct servants can be added in any order. -/
theorem add_of_distinct (h : i.Distinct) {servants : List Servant} {adapter : List Identity}
    (hnodup : servants.Nodup) (hof : ∀ a ∈ servants, a.Of i)
    (hadapter : ∀ id ∈ adapter, ∃ b ∉ servants, b.Of i ∧ b.identity i = .ok id) :
    servants.foldlM i.add adapter ≠ .error .alreadyRegistered := by
  induction servants generalizing adapter with
  | nil => nofun
  | cons a servants ih =>
    obtain ⟨ha, hnodup⟩ := nodup_cons.mp hnodup
    rw [foldlM_cons, Instance.add]
    cases hid : a.identity i with
    | error ex => nofun
    | ok id =>
      have hnew : id ∉ adapter := by
        intro hmem
        obtain ⟨b, hb, hof', hid'⟩ := hadapter id hmem
        rw [h b a id hof' (hof a mem_cons_self) hid' hid] at hb
        exact hb mem_cons_self
      dsimp only
      rw [if_neg hnew]
      refine ih hnodup (fun b hb => hof b (mem_cons_of_mem _ hb)) ?_
      intro id' hmem
      rcases mem_append.mp hmem with hmem | hmem
      · obtain ⟨b, hb, hof', hid'⟩ := hadapter id' hmem
        exact ⟨b, fun hmem => hb (mem_cons_of_mem _ hmem), hof', hid'⟩
      · rw [mem_singleton.mp hmem]
        exact ⟨a, ha, hof a mem_cons_self, hid⟩

/-- The servants of all topics and subscribers have distinct identities, so that they can be added
    to the adapter in any order, exactly if no name is ambiguous. -/
theorem servants_distinct_iff (i : Instance) :
    (i.Distinct ∧ ∀ servants : List Servant, servants.Nodup → (∀ a ∈ servants, a.Of i) →
      servants.foldlM i.add [] ≠ .error .alreadyRegistered) ↔ i.Unambiguous := by
  constructor
  · intro h
    exact unambiguous_of_distinct h.1
  · intro h
    have hdistinct := distinct_of_unambiguous h
    exact ⟨hdistinct, fun servants hnodup hof => add_of_distinct hdistinct hnodup hof nofun⟩

/-- The topic `a` with the subscriber `x.publish`, and the topic `topic.a.publish.x`. -/
def ambiguousInstance : Instance where
  instanceName := "IceStorm".toList
  nonempty := by decide
  toStringMode := .unicode
  topics := [⟨['a'], by decide, [⟨"x.publish".toList, []⟩], by decide⟩,
    ⟨"topic.a.publish.x".toList, by decide, [], by decide⟩]
  distinct := by decide

theorem subscriber_clashes_with_topic :
    [.topic .publisher "topic.a.publish.x".toList,
      .perSubscriberPublisher ['a'] ⟨"x.publish".toList, []⟩].foldlM
      ambiguousInstance.add [] = .error .alreadyRegistered := by
  decide

end Ice.IceStorm
