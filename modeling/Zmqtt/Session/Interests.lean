/-
  Who needs a filter (`subscribe`, `unsubscribe`, `add_response_observer` and
  `remove_response_observer` of `_internal/protocol.py`): application subscriptions are entries
  of the index, pending requests are response observers, and both share one subscription at
  the broker. A call holds the guards of its filters, changes the index, and exchanges
  SUBSCRIBE or UNSUBSCRIBE with the broker.

  A call is suspended in the locks of its guards or in an exchange, a call of the model
  `Protocol`; it is named by its number, also among the tasks of the guards. The drain after a
  subscribe touches none of this and is left out.
-/
import Zmqtt.Topics.SubscriptionIndex
import Zmqtt.Session.Guards
import Zmqtt.Session.Broker
import Zmqtt.Lib.Tasks

namespace Zmqtt

/-- A call with its arguments. -/
inductive InterestCall where
  | subscribe (filters : List SubscriptionRequest) (autoAck : Bool) (queue : Nat)
      (subscriptionIdentifier : Option Int)
  | unsubscribe (filters : List String)
  | addResponseObserver (topic : String)
  | removeResponseObserver (topic : String)
  deriving Repr, DecidableEq

/-- Where a call is suspended; `exchange` is the number of its exchange. -/
inductive InterestPc where
  | entering
  | subscribing (exchange : Nat) (newFilters : List String)
  | unsubscribing (exchange : Nat) (observedFilters : List String)
  | resubscribing (exchange : Nat)
  | observing (exchange : Nat) (topic : String)
  | releasing (exchange : Nat)
  | ended
  deriving Repr, DecidableEq

structure InterestTask where
  call : InterestCall
  pc : InterestPc := .entering
  deriving Repr, DecidableEq

/-- The parts of `MQTTProtocol` that the calls share. -/
structure Interests where
  protocol : Protocol
  strippedPrefixes : List String := []
  index : SubscriptionIndex := {}
  guards : SubscriptionGuards := {}
  tasks : List InterestTask := []

inductive InterestEvent where
  | start (call : InterestCall)
  | locked (k : Nat)
  | resume (k : Nat) (written : Bool)
  | cancel (k : Nat)
  | background (e : ProtocolEvent)

namespace InterestCall

/-- The filters whose guards the call holds. -/
def filters : InterestCall → List String
  | .subscribe filters _ _ _ => filters.map (·.topicFilter)
  | .unsubscribe filters => filters
  | .addResponseObserver topic | .removeResponseObserver topic => [topic]

end InterestCall

namespace InterestPc

/-- The exchange that the call waits for. -/
def exchange? : InterestPc → Option Nat
  | .entering | .ended => none
  | .subscribing i _ | .unsubscribing i _ | .resubscribing i | .observing i _ | .releasing i =>
      some i

end InterestPc

namespace Protocol

/-- Exchange `i` was started and has not ended. -/
def awaits (p : Protocol) (i : Nat) : Bool :=
  match p.calls[i]? with
  | some c =>
      match c.pc with
      | .sending | .waiting => true
      | .finished _ => false
  | none => false

/-- Exchange `i` returned normally. -/
def returned (p : Protocol) (i : Nat) : Bool :=
  match p.calls[i]? with
  | some c =>
      match c.pc with
      | .finished (.returned _) => true
      | _ => false
  | none => false

end Protocol

namespace Interests

def setPc (s : Interests) (k : Nat) (pc : InterestPc) : Interests :=
  { s with tasks := s.tasks.modify k fun task => { task with pc } }

/-- The call ends; its guards are given back. -/
def finish (s : Interests) (k : Nat) : Interests :=
  { s with guards := s.guards.exit k }.setPc k .ended

/-- `SubscriptionRequest(topic_filter=f, qos=QoS.AT_MOST_ONCE)`. -/
def observerRequest (filter : String) : SubscriptionRequest :=
  { topicFilter := filter, qos := .atMostOnce }

/-- The loop of `_subscribe` that collects the new entries. -/
def newEntries (s : Interests) (filters : List SubscriptionRequest) (autoAck : Bool) (queue : Nat)
    (subscriptionIdentifier : Option Int) : Dict String SubscriptionEntry :=
  filters.foldl (fun entries req =>
    if s.index.contains req.topicFilter then entries
    else entries.set req.topicFilter
      { queue, autoAck
        actualFilter := sharedFilterToActual req.topicFilter s.strippedPrefixes
        subscriptionIdentifier }) []

/-- `for f in filters: subscriptions.remove(f)`. -/
def removeAll (index : SubscriptionIndex) (filters : List String) : SubscriptionIndex :=
  filters.foldl SubscriptionIndex.remove index

/-- `_subscribe`, up to its exchange. -/
def subscribe (s : Interests) (k : Nat) (filters : List SubscriptionRequest) (autoAck : Bool)
    (queue : Nat) (subscriptionIdentifier : Option Int) : Interests :=
  let entries := s.newEntries filters autoAck queue subscriptionIdentifier
  let exchange := s.protocol.calls.length
  let protocol := s.protocol.sendSubscribe filters subscriptionIdentifier
  if protocol.awaits exchange then
    { s with protocol, index := s.index.addMany entries }.setPc k
      (.subscribing exchange entries.keys)
  else
    { s with protocol, index := removeAll (s.index.addMany entries) entries.keys }.finish k

/-- `_send_subscribe` for the observed filters of `_unsubscribe`. -/
def resubscribe (s : Interests) (k : Nat) (observedFilters : List String) : Interests :=
  if observedFilters = [] then s.finish k
  else
    let exchange := s.protocol.calls.length
    let protocol := s.protocol.sendSubscribe (observedFilters.map observerRequest) none
    if protocol.awaits exchange then { s with protocol }.setPc k (.resubscribing exchange)
    else { s with protocol }.finish k

/-- `_unsubscribe`, up to its first exchange. -/
def unsubscribe (s : Interests) (k : Nat) (filters : List String) : Interests :=
  if s.protocol.dead then s.finish k
  else
    let observedFilters := filters.filter fun f => s.index.hasResponseObserver f
    let brokerFilters := filters.filter fun f => !observedFilters.contains f
    let s := { s with index := removeAll s.index filters }
    if brokerFilters = [] then s.resubscribe k observedFilters
    else
      let exchange := s.protocol.calls.length
      let protocol := s.protocol.sendUnsubscribe brokerFilters
      if protocol.awaits exchange then
        { s with protocol }.setPc k (.unsubscribing exchange observedFilters)
      else { s with protocol }.finish k

/-- `_add_response_observer`, up to its exchange. -/
def addResponseObserver (s : Interests) (k : Nat) (topic : String) : Interests :=
  if s.protocol.dead ∨ s.index.hasResponseObserver topic then s.finish k
  else
    let index := s.index.addResponseObserver topic
    if s.index.contains topic then { s with index }.finish k
    else
      let exchange := s.protocol.calls.length
      let protocol := s.protocol.sendSubscribe [observerRequest topic] none
      if protocol.awaits exchange then
        { s with protocol, index }.setPc k (.observing exchange topic)
      else { s with protocol, index := index.removeResponseObserver topic }.finish k

/-- `_remove_response_observer`, up to its exchange. -/
def removeResponseObserver (s : Interests) (k : Nat) (topic : String) : Interests :=
  if !s.index.hasResponseObserver topic then s.finish k
  else
    let s := { s with index := s.index.removeResponseObserver topic }
    if s.index.contains topic ∨ s.protocol.dead then s.finish k
    else
      let exchange := s.protocol.calls.length
      let protocol := s.protocol.sendUnsubscribe [topic]
      if protocol.awaits exchange then { s with protocol }.setPc k (.releasing exchange)
      else { s with protocol }.finish k

/-- Call `k` goes on once it is inside its guards. -/
def enter (s : Interests) (k : Nat) (call : InterestCall) : Interests :=
  if s.guards.isInside k then
    match call with
    | .subscribe filters autoAck queue identifier => s.subscribe k filters autoAck queue identifier
    | .unsubscribe filters => s.unsubscribe k filters
    | .addResponseObserver topic => s.addResponseObserver k topic
    | .removeResponseObserver topic => s.removeResponseObserver k topic
  else s

/-- Call `k` goes on after its exchange has ended. -/
def settle (s : Interests) (k : Nat) (pc : InterestPc) : Interests :=
  match pc with
  | .entering | .ended => s
  | .subscribing i newFilters =>
      if s.protocol.returned i then s.finish k
      else { s with index := removeAll s.index newFilters }.finish k
  | .unsubscribing i observedFilters =>
      if s.protocol.returned i then s.resubscribe k observedFilters else s.finish k
  | .observing i topic =>
      if s.protocol.returned i then s.finish k
      else { s with index := s.index.removeResponseObserver topic }.finish k
  | .resubscribing _ | .releasing _ => s.finish k

/-- The event loop resumes the exchange of call `k`. -/
def resume (s : Interests) (k : Nat) (written : Bool) : Interests :=
  match s.tasks[k]? with
  | none => s
  | some task =>
      match task.pc.exchange? with
      | none => s
      | some i =>
          let s := { s with protocol := s.protocol.resume i written }
          if s.protocol.awaits i then s else s.settle k task.pc

/-- `task.cancel()` on call `k`. -/
def cancel (s : Interests) (k : Nat) : Interests :=
  match s.tasks[k]? with
  | none => s
  | some task =>
      match task.pc, task.pc.exchange? with
      | .entering, _ => { s with guards := s.guards.cancel k }.setPc k .ended
      | _, some i => { s with protocol := s.protocol.cancel i }
      | _, none => s

/-- The events of the connection that no call of this module takes part in. -/
def isBackground (p : Protocol) : ProtocolEvent → Bool
  | .sendSubscribe _ _ | .sendUnsubscribe _ => false
  | .resume i _ | .cancel i =>
      (p.calls[i]?).any fun c => c.kind = .publishQos1 ∨ c.kind = .publishQos2
  | .publish _ | .receive _ | .resumeReadLoop _ | .runExit => true

/-- A new call enters its guards. -/
def start (s : Interests) (call : InterestCall) : Interests :=
  let task : InterestTask := { call }
  { s with guards := s.guards.hold call.filters, tasks := s.tasks ++ [task] }.enter
    s.tasks.length call

/-- Call `k` runs after the lock it waited for was handed to it. -/
def locked (s : Interests) (k : Nat) : Interests :=
  match s.tasks[k]? with
  | some task =>
      if task.pc = .entering then { s with guards := s.guards.resume k }.enter k task.call else s
  | none => s

def step (s : Interests) : InterestEvent → Interests
  | .start call => s.start call
  | .locked k => s.locked k
  | .resume k written => s.resume k written
  | .cancel k => s.cancel k
  | .background e =>
      if isBackground s.protocol e then { s with protocol := s.protocol.step e } else s

/-- A connection right after the handshake. -/
def fresh (version : Version) (maxPublishQos : QoS) (strippedPrefixes : List String) : Interests :=
  { protocol := Protocol.fresh version maxPublishQos, strippedPrefixes }

/-! ## The needed filters -/

/-- The two packets that change a subscription at the broker. -/
inductive Naming where
  | subscribe
  | unsubscribe
  deriving Repr, DecidableEq

/-- What a packet says about a filter. -/
def naming (filter : String) : Packet → Option Naming
  | .subscribe p =>
      if filter ∈ p.subscriptions.map (·.topicFilter) then some .subscribe else none
  | .unsubscribe p => if filter ∈ p.topicFilters then some .unsubscribe else none
  | _ => none

/-- What the last written packet that names the filter says about it. -/
def lastNaming (p : Protocol) (filter : String) : Option Naming :=
  p.written.findSome? fun item => naming filter item.1

/-- A subscription or a pending request needs the filter. -/
def Needed (index : SubscriptionIndex) (filter : String) : Prop :=
  index.contains filter = true ∨ index.hasResponseObserver filter = true

/-- The last packet about every needed filter is a SUBSCRIBE. -/
def NeededSubscribed (p : Protocol) (index : SubscriptionIndex) : Prop :=
  ∀ filter, Needed index filter → lastNaming p filter = some .subscribe

theorem NeededSubscribed.congr {p p' : Protocol} {index : SubscriptionIndex}
    (h : NeededSubscribed p index) (hw : p'.written = p.written) : NeededSubscribed p' index := by
  intro filter hn
  unfold lastNaming
  rw [hw]
  exact h filter hn

/-- An index that needs less. -/
theorem NeededSubscribed.mono {p : Protocol} {index index' : SubscriptionIndex}
    (h : NeededSubscribed p index) (hsub : ∀ filter, Needed index' filter → Needed index filter) :
    NeededSubscribed p index' :=
  fun filter hn => h filter (hsub filter hn)

/-- Packets of other kinds name no filter. -/
theorem NeededSubscribed.cons {p p' : Protocol} {index : SubscriptionIndex} {packet : Packet}
    {owner : Option Nat} (h : NeededSubscribed p index)
    (hw : p'.written = (packet, owner) :: p.written)
    (hnone : ∀ filter, naming filter packet = none) : NeededSubscribed p' index := by
  intro filter hn
  unfold lastNaming
  rw [hw, List.findSome?_cons, hnone filter]
  exact h filter hn

/-- A SUBSCRIBE covers what the index comes to need. -/
theorem NeededSubscribed.subscribe {p p' : Protocol} {index index' : SubscriptionIndex}
    {packet : Subscribe} {owner : Option Nat} (h : NeededSubscribed p index)
    (hw : p'.written = (.subscribe packet, owner) :: p.written)
    (hsub : ∀ filter, Needed index' filter →
      Needed index filter ∨ filter ∈ packet.subscriptions.map (·.topicFilter)) :
    NeededSubscribed p' index' := by
  intro filter hn
  unfold lastNaming
  rw [hw, List.findSome?_cons, naming]
  by_cases hmem : filter ∈ packet.subscriptions.map (·.topicFilter)
  · rw [if_pos hmem]
  · rw [if_neg hmem]
    exact h filter ((hsub filter hn).resolve_right hmem)

/-- An UNSUBSCRIBE names only what is not needed any more. -/
theorem NeededSubscribed.unsubscribe {p p' : Protocol} {index : SubscriptionIndex}
    {packet : Unsubscribe} {owner : Option Nat} (h : NeededSubscribed p index)
    (hw : p'.written = (.unsubscribe packet, owner) :: p.written)
    (hfree : ∀ filter ∈ packet.topicFilters, ¬ Needed index filter) :
    NeededSubscribed p' index := by
  intro filter hn
  unfold lastNaming
  rw [hw, List.findSome?_cons, naming, if_neg fun hmem => hfree filter hmem hn]
  exact h filter hn

/-! ### The index -/

theorem contains_remove (index : SubscriptionIndex) (f g : String) :
    (index.remove f).contains g = true ↔ index.contains g = true ∧ g ≠ f := by
  unfold SubscriptionIndex.remove SubscriptionIndex.contains
  split
  · next hnone =>
    refine ⟨fun h => ⟨h, ?_⟩, And.left⟩
    rintro rfl
    rw [hnone] at h
    cases h
  · next entry hsome =>
    rw [Dict.get?_pop]
    by_cases hfg : f = g
    · simp [hfg]
    · simp [hfg, Ne.symm hfg]

theorem contains_add (index : SubscriptionIndex) (f g : String) (entry : SubscriptionEntry) :
    (index.add f entry).contains g = true ↔ index.contains g = true ∨ g = f := by
  have hreg : ∀ idx : SubscriptionIndex,
      (idx.register f entry).contains g = true ↔ idx.contains g = true ∨ g = f := by
    intro idx
    unfold SubscriptionIndex.register SubscriptionIndex.contains
    rw [Dict.get?_set]
    by_cases hfg : f = g
    · simp [hfg]
    · simp [hfg, Ne.symm hfg]
  unfold SubscriptionIndex.add
  rw [hreg]
  split
  · rw [contains_remove]
    by_cases hgf : g = f <;> simp [hgf]
  · exact Iff.rfl

theorem contains_addMany (index : SubscriptionIndex) (entries : Dict String SubscriptionEntry)
    (g : String) :
    (index.addMany entries).contains g = true ↔ index.contains g = true ∨ g ∈ entries.keys := by
  unfold SubscriptionIndex.addMany
  induction entries generalizing index with
  | nil => simp
  | cons item entries ih =>
    obtain ⟨f, entry⟩ := item
    rw [List.foldl_cons, ih, contains_add, Dict.keys_cons, List.mem_cons, or_assoc]

theorem contains_removeAll (index : SubscriptionIndex) (filters : List String) (g : String) :
    (removeAll index filters).contains g = true ↔ index.contains g = true ∧ g ∉ filters := by
  unfold removeAll
  induction filters generalizing index with
  | nil => simp
  | cons f filters ih =>
    rw [List.foldl_cons, ih, contains_remove, List.mem_cons, not_or, and_assoc]

theorem observers_remove (index : SubscriptionIndex) (f : String) :
    (index.remove f).responseObservers = index.responseObservers := by
  unfold SubscriptionIndex.remove
  split <;> rfl

theorem observers_addMany (index : SubscriptionIndex) (entries : Dict String SubscriptionEntry) :
    (index.addMany entries).responseObservers = index.responseObservers := by
  unfold SubscriptionIndex.addMany
  induction entries generalizing index with
  | nil => rfl
  | cons item entries ih =>
    rw [List.foldl_cons, ih]
    unfold SubscriptionIndex.add SubscriptionIndex.register
    split
    · exact observers_remove index item.1
    · rfl

theorem observers_removeAll (index : SubscriptionIndex) (filters : List String) :
    (removeAll index filters).responseObservers = index.responseObservers := by
  unfold removeAll
  induction filters generalizing index with
  | nil => rfl
  | cons f filters ih => rw [List.foldl_cons, ih, observers_remove]

theorem needed_addMany {index : SubscriptionIndex} {entries : Dict String SubscriptionEntry}
    {g : String} :
    Needed (index.addMany entries) g ↔ Needed index g ∨ g ∈ entries.keys := by
  unfold Needed SubscriptionIndex.hasResponseObserver
  rw [contains_addMany, observers_addMany]
  tauto

theorem needed_removeAll {index : SubscriptionIndex} {filters : List String} {g : String} :
    Needed (removeAll index filters) g ↔
      index.contains g = true ∧ g ∉ filters ∨ index.hasResponseObserver g = true := by
  unfold Needed SubscriptionIndex.hasResponseObserver
  rw [contains_removeAll, observers_removeAll]

theorem needed_addResponseObserver {index : SubscriptionIndex} {topic g : String}
    (h : Needed (index.addResponseObserver topic) g) : Needed index g ∨ g = topic := by
  unfold SubscriptionIndex.addResponseObserver at h
  split at h
  · exact Or.inl h
  · rcases h with h | h
    · exact Or.inl (Or.inl h)
    · rw [SubscriptionIndex.hasResponseObserver, List.contains_cons, Bool.or_eq_true,
        beq_iff_eq] at h
      exact h.symm.imp_left Or.inr

theorem needed_removeResponseObserver {index : SubscriptionIndex} {topic g : String} :
    Needed (index.removeResponseObserver topic) g ↔
      index.contains g = true ∨ index.hasResponseObserver g = true ∧ g ≠ topic := by
  unfold Needed SubscriptionIndex.hasResponseObserver SubscriptionIndex.removeResponseObserver
    SubscriptionIndex.contains
  simp

/-- The new entries are for filters of the request. -/
theorem keys_newEntries (s : Interests) (filters : List SubscriptionRequest) (autoAck : Bool)
    (queue : Nat) (identifier : Option Int) {g : String}
    (h : g ∈ (s.newEntries filters autoAck queue identifier).keys) :
    g ∈ filters.map (·.topicFilter) := by
  have hloop : ∀ (reqs : List SubscriptionRequest) (entries : Dict String SubscriptionEntry),
      g ∈ (reqs.foldl (fun entries req =>
        if s.index.contains req.topicFilter then entries
        else entries.set req.topicFilter
          { queue, autoAck
            actualFilter := sharedFilterToActual req.topicFilter s.strippedPrefixes
            subscriptionIdentifier := identifier }) entries).keys →
      g ∈ entries.keys ∨ g ∈ reqs.map (·.topicFilter) := by
    intro reqs
    induction reqs with
    | nil => exact fun _ => Or.inl
    | cons req reqs ih =>
      intro entries hg
      rw [List.foldl_cons] at hg
      rw [List.map_cons, List.mem_cons]
      rcases ih _ hg with hg | hg
      · split at hg
        · exact Or.inl hg
        · rcases Dict.mem_keys_set.1 hg with hg | hg
          · exact Or.inl hg
          · exact Or.inr (Or.inl hg)
      · exact Or.inr (Or.inr hg)
  exact (hloop filters [] h).resolve_left (by simp)

/-! ### Exchanges -/

/-- An exchange that is started is written, one that raises at once is not. -/
theorem startCall_written (p : Protocol) (kind : CallKind) (filters : List String)
    (packetOf : Int → Packet) :
    ((p.startCall kind filters packetOf).awaits p.calls.length = false ∧
      (p.startCall kind filters packetOf).written = p.written) ∨
    ∃ pid, (p.startCall kind filters packetOf).awaits p.calls.length = true ∧
      (p.startCall kind filters packetOf).written =
        (packetOf pid, some p.calls.length) :: p.written := by
  unfold Protocol.startCall
  split
  · exact Or.inl ⟨by simp [Protocol.awaits], rfl⟩
  · split
    · exact Or.inl ⟨by simp [Protocol.awaits], rfl⟩
    · next pid pool _ =>
      dsimp only
      split
      · exact Or.inl ⟨by simp [Protocol.awaits], rfl⟩
      · exact Or.inr ⟨pid, by simp [Protocol.awaits], rfl⟩

/-- At most one packet is written, and it names filters of the list only. -/
def Writes (filters : List String) (p p' : Protocol) : Prop :=
  p'.written = p.written ∨
    ∃ item, p'.written = item :: p.written ∧ ∀ f, naming f item.1 ≠ none → f ∈ filters

theorem writes_startCall {filters : List String} (p : Protocol) (kind : CallKind)
    (names : List String) (packetOf : Int → Packet)
    (h : ∀ pid f, naming f (packetOf pid) ≠ none → f ∈ filters) :
    Writes filters p (p.startCall kind names packetOf) := by
  rcases startCall_written p kind names packetOf with ⟨-, hw⟩ | ⟨pid, -, hw⟩
  · exact Or.inl hw
  · exact Or.inr ⟨_, hw, h pid⟩

theorem writes_publish (p : Protocol) (packet : Publish) : Writes [] p (p.publish packet) := by
  have hcall : ∀ kind, Writes [] p (p.startCall kind [] fun pid =>
      .publish { packet with packetId := some pid }) :=
    fun kind => writes_startCall p kind [] _ fun _ _ hne => absurd rfl hne
  unfold Protocol.publish
  split
  · exact Or.inl rfl
  · split
    · split
      · exact Or.inl rfl
      · exact Or.inr ⟨_, rfl, fun _ hne => absurd rfl hne⟩
    · exact hcall .publishQos1
    · exact hcall .publishQos2

/-- The read loop writes PUBREL only. -/
theorem writes_dispatch {p p' : Protocol} {packet : Packet} (hd : p.dispatch packet = .ok p') :
    Writes [] p p' := by
  have hresult : ∀ i reply, p.setResult i reply = .ok p' → Writes [] p p' := by
    intro i reply hs
    unfold Protocol.setResult at hs
    split at hs
    · cases hs
    · split at hs
      · cases hs
        exact Or.inl rfl
      · cases hs
  unfold Protocol.dispatch at hd
  split at hd
  · cases hd; exact Or.inl rfl
  · cases hd; exact Or.inl rfl
  · cases hd; exact Or.inl rfl
  · unfold Protocol.handlePuback at hd
    split at hd
    · cases hd
    · cases hd; exact Or.inl (Protocol.written_setFuture _ _ _)
  · unfold Protocol.handlePubrec at hd
    split at hd
    · cases hd
    · split at hd
      · cases hd
      · split at hd
        · cases hd; exact Or.inl (Protocol.written_setFuture _ _ _)
        · cases hd; exact Or.inr ⟨_, rfl, fun _ hne => absurd rfl hne⟩
  · unfold Protocol.handlePubcomp at hd
    split at hd
    · cases hd
    · cases hd; exact Or.inl (Protocol.written_setFuture _ _ _)
  · unfold Protocol.handleSuback at hd
    split at hd
    · cases hd
    · exact hresult _ _ hd
  · unfold Protocol.handleUnsuback at hd
    split at hd
    · cases hd
    · exact hresult _ _ hd
  · cases hd
  · split at hd
    · cases hd
    · cases hd; exact Or.inl rfl
  all_goals cases hd

/-- Publishes and replies are no packets about filters. -/
theorem writes_background {p : Protocol} {e : ProtocolEvent} (he : isBackground p e = true) :
    Writes [] p (p.step e) := by
  cases e with
  | publish packet => exact writes_publish p packet
  | sendSubscribe filters identifier => cases he
  | sendUnsubscribe filters => cases he
  | resume i written => exact Or.inl (Protocol.written_resume p i written)
  | cancel i => exact Or.inl (Protocol.written_cancel p i)
  | receive packet =>
    rw [Protocol.step, Protocol.receive]
    split
    · split
      · next p' hd => exact writes_dispatch hd
      · exact Or.inl rfl
    · exact Or.inl rfl
    · exact Or.inl rfl
  | resumeReadLoop written =>
    rw [Protocol.step, Protocol.resumeReadLoop]
    split
    · exact Or.inl rfl
    · exact Or.inl rfl
    · exact Or.inl rfl
  | runExit => exact Or.inl (Protocol.written_runExit p)

theorem NeededSubscribed.background {p : Protocol} {index : SubscriptionIndex} {e : ProtocolEvent}
    (h : NeededSubscribed p index) (he : isBackground p e = true) :
    NeededSubscribed (p.step e) index := by
  rcases writes_background he with hw | ⟨item, hw, hnames⟩
  · exact h.congr hw
  · refine h.cons hw fun f => ?_
    by_contra hne
    cases hnames f hne

/-! ### Calls -/

/-- The invariant of a connection. -/
def Sound (s : Interests) : Prop := NeededSubscribed s.protocol s.index

theorem Sound.setPc {s : Interests} (h : s.Sound) (k : Nat) (pc : InterestPc) :
    (s.setPc k pc).Sound := h

theorem Sound.finish {s : Interests} (h : s.Sound) (k : Nat) : (s.finish k).Sound := h

theorem Sound.subscribe {s : Interests} (h : s.Sound) (k : Nat) (filters : List SubscriptionRequest)
    (autoAck : Bool) (queue : Nat) (identifier : Option Int) :
    (s.subscribe k filters autoAck queue identifier).Sound := by
  have hkeys : ∀ g, g ∈ (s.newEntries filters autoAck queue identifier).keys →
      g ∈ filters.map (·.topicFilter) := fun g => keys_newEntries s filters autoAck queue identifier
  unfold Interests.subscribe Protocol.sendSubscribe
  dsimp only
  rcases startCall_written s.protocol .subscribe (filters.map (·.topicFilter)) fun pid =>
    .subscribe ⟨pid, filters, identifier.map fun i => { subscriptionIdentifier := some i }⟩ with
    ⟨hawaits, hw⟩ | ⟨pid, hawaits, hw⟩
  · rw [hawaits, if_neg Bool.false_ne_true]
    apply Sound.finish
    refine (NeededSubscribed.congr h hw).mono fun g hg => ?_
    rcases needed_removeAll.1 hg with ⟨hc, hnot⟩ | ho
    · exact Or.inl (((contains_addMany _ _ _).1 hc).resolve_right hnot)
    · rw [SubscriptionIndex.hasResponseObserver, observers_addMany] at ho
      exact Or.inr ho
  · rw [hawaits, if_pos rfl]
    apply Sound.setPc
    exact NeededSubscribed.subscribe h hw fun g hg => (needed_addMany.1 hg).imp_right (hkeys g)

theorem Sound.resubscribe {s : Interests} (h : s.Sound) (k : Nat) (observedFilters : List String) :
    (s.resubscribe k observedFilters).Sound := by
  unfold Interests.resubscribe Protocol.sendSubscribe
  split
  · exact h.finish k
  · dsimp only
    rcases startCall_written s.protocol .subscribe
      ((observedFilters.map observerRequest).map (·.topicFilter)) fun pid =>
      .subscribe ⟨pid, observedFilters.map observerRequest, (none : Option Int).map fun i =>
        { subscriptionIdentifier := some i }⟩ with ⟨hawaits, hw⟩ | ⟨pid, hawaits, hw⟩
    · rw [hawaits, if_neg Bool.false_ne_true]
      apply Sound.finish
      exact NeededSubscribed.congr h hw
    · rw [hawaits, if_pos rfl]
      apply Sound.setPc
      exact NeededSubscribed.subscribe h hw fun g hg => Or.inl hg

/-- What is unsubscribed is not observed, and not in the index any more. -/
theorem Sound.unsubscribe {s : Interests} (h : s.Sound) (k : Nat) (filters : List String) :
    (s.unsubscribe k filters).Sound := by
  have hremoved : NeededSubscribed s.protocol (removeAll s.index filters) := by
    refine NeededSubscribed.mono h fun g hg => ?_
    exact (needed_removeAll.1 hg).imp_left And.left
  unfold Interests.unsubscribe Protocol.sendUnsubscribe
  split
  · exact h.finish k
  · dsimp only
    split
    · apply Sound.resubscribe
      exact hremoved
    · generalize hbf : filters.filter (fun f => !(filters.filter fun f =>
        s.index.hasResponseObserver f).contains f) = brokerFilters
      have hfree : ∀ g ∈ brokerFilters, ¬ Needed (removeAll s.index filters) g := by
        intro g hg hn
        rw [← hbf, List.mem_filter, Bool.not_eq_true', List.contains_eq_mem,
          decide_eq_false_iff_not, List.mem_filter, not_and] at hg
        rcases needed_removeAll.1 hn with ⟨-, hnot⟩ | ho
        · exact hnot hg.1
        · exact hg.2 hg.1 ho
      rcases startCall_written s.protocol .unsubscribe brokerFilters fun pid =>
        .unsubscribe { packetId := pid, topicFilters := brokerFilters } with
        ⟨hawaits, hw⟩ | ⟨pid, hawaits, hw⟩
      · rw [hawaits, if_neg Bool.false_ne_true]
        apply Sound.finish
        exact NeededSubscribed.congr hremoved hw
      · rw [hawaits, if_pos rfl]
        apply Sound.setPc
        exact NeededSubscribed.unsubscribe hremoved hw hfree

theorem Sound.addResponseObserver {s : Interests} (h : s.Sound) (k : Nat) (topic : String) :
    (s.addResponseObserver k topic).Sound := by
  unfold Interests.addResponseObserver Protocol.sendSubscribe
  split
  · exact h.finish k
  · next hnew =>
    have hobs : s.index.hasResponseObserver topic = false := by
      rw [not_or] at hnew
      exact Bool.eq_false_of_not_eq_true hnew.2
    dsimp only
    split
    · next hc =>
      -- the application's subscription covers the new observer
      apply Sound.finish
      refine NeededSubscribed.mono h fun g hg => ?_
      rcases needed_addResponseObserver hg with hg | rfl
      · exact hg
      · exact Or.inl hc
    · rcases startCall_written s.protocol .subscribe
        ([observerRequest topic].map (·.topicFilter)) fun pid =>
        .subscribe ⟨pid, [observerRequest topic], (none : Option Int).map fun i =>
          { subscriptionIdentifier := some i }⟩ with ⟨hawaits, hw⟩ | ⟨pid, hawaits, hw⟩
      · rw [hawaits, if_neg Bool.false_ne_true]
        apply Sound.finish
        refine (NeededSubscribed.congr h hw).mono fun g hg => ?_
        rcases needed_removeResponseObserver.1 hg with hc | ⟨ho, hne⟩
        · rw [SubscriptionIndex.addResponseObserver, hobs] at hc
          exact Or.inl hc
        · exact (needed_addResponseObserver (Or.inr ho)).resolve_right hne
      · rw [hawaits, if_pos rfl]
        apply Sound.setPc
        refine NeededSubscribed.subscribe h hw fun g hg => ?_
        refine (needed_addResponseObserver hg).imp_right fun he => ?_
        rw [he]
        exact List.mem_singleton.2 rfl

theorem Sound.removeResponseObserver {s : Interests} (h : s.Sound) (k : Nat) (topic : String) :
    (s.removeResponseObserver k topic).Sound := by
  have hremoved : NeededSubscribed s.protocol (s.index.removeResponseObserver topic) := by
    refine NeededSubscribed.mono h fun g hg => ?_
    exact (needed_removeResponseObserver.1 hg).imp_right And.left
  unfold Interests.removeResponseObserver Protocol.sendUnsubscribe
  split
  · exact h.finish k
  · dsimp only
    split
    · apply Sound.finish
      exact hremoved
    · next hnot =>
      rw [not_or] at hnot
      have hfree : ∀ g ∈ [topic], ¬ Needed (s.index.removeResponseObserver topic) g := by
        intro g hg hn
        rw [List.mem_singleton.1 hg] at hn
        rcases needed_removeResponseObserver.1 hn with hc | ⟨-, hne⟩
        · exact hnot.1 hc
        · exact hne rfl
      rcases startCall_written s.protocol .unsubscribe [topic] fun pid =>
        .unsubscribe { packetId := pid, topicFilters := [topic] } with
        ⟨hawaits, hw⟩ | ⟨pid, hawaits, hw⟩
      · rw [hawaits, if_neg Bool.false_ne_true]
        apply Sound.finish
        exact NeededSubscribed.congr hremoved hw
      · rw [hawaits, if_pos rfl]
        apply Sound.setPc
        exact NeededSubscribed.unsubscribe hremoved hw hfree

theorem Sound.enter {s : Interests} (h : s.Sound) (k : Nat) (call : InterestCall) :
    (s.enter k call).Sound := by
  unfold Interests.enter
  split
  · cases call with
    | subscribe filters autoAck queue identifier =>
      exact h.subscribe k filters autoAck queue identifier
    | unsubscribe filters => exact h.unsubscribe k filters
    | addResponseObserver topic => exact h.addResponseObserver k topic
    | removeResponseObserver topic => exact h.removeResponseObserver k topic
  · exact h

/-- A call that failed takes back what it added. -/
theorem Sound.settle {s : Interests} (h : s.Sound) (k : Nat) (pc : InterestPc) :
    (s.settle k pc).Sound := by
  unfold Interests.settle
  split
  · exact h
  · exact h
  · split
    · exact h.finish k
    · apply Sound.finish
      exact NeededSubscribed.mono h fun g hg => (needed_removeAll.1 hg).imp_left And.left
  · split
    · exact h.resubscribe k _
    · exact h.finish k
  · split
    · exact h.finish k
    · apply Sound.finish
      exact NeededSubscribed.mono h fun g hg =>
        (needed_removeResponseObserver.1 hg).imp_right And.left
  · exact h.finish k
  · exact h.finish k

theorem Sound.resume {s : Interests} (h : s.Sound) (k : Nat) (written : Bool) :
    (s.resume k written).Sound := by
  unfold Interests.resume
  split
  · exact h
  · split
    · exact h
    · next i _ =>
      have hres : NeededSubscribed (s.protocol.resume i written) s.index :=
        NeededSubscribed.congr h (Protocol.written_resume s.protocol i written)
      dsimp only
      split
      · exact hres
      · apply Sound.settle
        exact hres

theorem Sound.step {s : Interests} (h : s.Sound) (e : InterestEvent) : (s.step e).Sound := by
  cases e with
  | start call =>
    apply Sound.enter
    exact h
  | locked k =>
    rw [Interests.step, Interests.locked]
    split
    · split
      · apply Sound.enter
        exact h
      · exact h
    · exact h
  | resume k written => exact h.resume k written
  | cancel k =>
    rw [Interests.step, Interests.cancel]
    split
    · exact h
    · split
      · exact h
      · exact NeededSubscribed.congr h (Protocol.written_cancel s.protocol _)
      · exact h
  | background e =>
    rw [Interests.step]
    split
    · next he => exact NeededSubscribed.background h he
    · exact h

/-- **Needed filters.** In every state of a connection the last SUBSCRIBE or UNSUBSCRIBE
    written for a filter that is in the index or observed is a SUBSCRIBE; in particular when
    no call holds the guard of the filter. -/
theorem needed_filter_subscribed {version : Version} {maxPublishQos : QoS}
    {strippedPrefixes : List String} {s : Interests}
    (h : Reach step anyStep (fresh version maxPublishQos strippedPrefixes) s) (filter : String)
    (hn : Needed s.index filter) : lastNaming s.protocol filter = some .subscribe := by
  have hsound : s.Sound := by
    refine Reach.invariant h ?_ fun s e hs _ => Sound.step hs e
    intro f hf
    rcases hf with hf | hf <;> cases hf
  exact hsound filter hn

/-- A request observes `r`; a subscription to `r` is cancelled in its exchange, another call
    unsubscribes `r`, and the end of the request waits for its guard. -/
def sharedTopicRun : List InterestEvent :=
  [.start (.addResponseObserver "r"), .resume 0 true,
    .background (.receive (.suback { packetId := 1, returnCodes := [0] })), .resume 0 true,
    .start (.subscribe [{ topicFilter := "r", qos := .atLeastOnce }] true 7 none), .cancel 1,
    .resume 1 true, .start (.unsubscribe ["r"]), .start (.removeResponseObserver "r")]

theorem needed_filter_subscribed_sharedTopicRun :
    (sharedTopicRun.foldl step (fresh .v5 .exactlyOnce [])).tasks.map InterestTask.pc =
      [.ended, .ended, .resubscribing 2, .entering] ∧
    lastNaming (sharedTopicRun.foldl step (fresh .v5 .exactlyOnce [])).protocol "r" =
      some .subscribe := by
  refine ⟨by decide +kernel, ?_⟩
  exact needed_filter_subscribed (Reach.foldl (meets_anyStep sharedTopicRun)) "r"
    (Or.inr (by decide +kernel))

end Interests

end Zmqtt
