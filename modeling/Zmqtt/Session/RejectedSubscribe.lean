/-
  What a rejected `subscribe` leaves at the broker. The broker takes the SUBSCRIBE and
  UNSUBSCRIBE packets in the order in which they are written: of a SUBSCRIBE it keeps the
  filters that its SUBACK accepts, and an UNSUBSCRIBE takes its filters away.

  `_subscribe` takes its entries back from the index when the SUBACK rejects a filter, and sends
  no UNSUBSCRIBE for the filters it accepts. While the call waits, the guards keep every other
  call away from its filters (`Guarded`), so what the broker holds of them after the call is what
  it held before and what the SUBACK accepted.
-/
import Zmqtt.Session.Guarded
import Zmqtt.Session.Moves

namespace Zmqtt

/-! ## The broker -/

/-- The filters that the codes of a SUBACK accept. -/
def acceptedFilters (filters : List String) (codes : List Int) : List String :=
  ((filters.zip codes).filter fun fc => fc.2 < 0x80).map Prod.fst

/-- The broker takes a packet: `granted i` are the codes of its SUBACK for exchange `i`. -/
def brokerTakes (granted : Nat → List Int) (item : Packet × Option Nat) (held : Finset String) :
    Finset String :=
  match item with
  | (.subscribe p, some i) =>
      held ∪ (acceptedFilters (p.subscriptions.map (·.topicFilter)) (granted i)).toFinset
  | (.unsubscribe p, _) => held \ p.topicFilters.toFinset
  | _ => held

/-- The filters the broker holds after the packets `written`, the newest first; `base` is what it
    held before. -/
def brokerHolds (granted : Nat → List Int) (base : Finset String)
    (written : List (Packet × Option Nat)) : Finset String :=
  written.foldr (brokerTakes granted) base

variable {granted : Nat → List Int} {base : Finset String}

theorem mem_of_mem_acceptedFilters {filter : String} {filters : List String} {codes : List Int}
    (h : filter ∈ acceptedFilters filters codes) : filter ∈ filters := by
  obtain ⟨⟨f, code⟩, hmem, rfl⟩ := List.mem_map.1 h
  exact (List.of_mem_zip (List.mem_of_mem_filter hmem)).1

/-- A packet that does not name a filter leaves it as it is. -/
theorem mem_brokerTakes {item : Packet × Option Nat} {filter : String}
    (h : Interests.naming filter item.1 = none) (held : Finset String) :
    filter ∈ brokerTakes granted item held ↔ filter ∈ held := by
  obtain ⟨packet, owner⟩ := item
  unfold brokerTakes
  split
  · next p i heq =>
    obtain ⟨rfl, rfl⟩ := Prod.mk.inj heq
    have hnot : filter ∉ p.subscriptions.map (·.topicFilter) := by
      intro hmem
      rw [Interests.naming, if_pos hmem] at h
      cases h
    rw [Finset.mem_union, List.mem_toFinset]
    exact or_iff_left fun hacc => hnot (mem_of_mem_acceptedFilters hacc)
  · next p _ heq =>
    obtain ⟨rfl, rfl⟩ := Prod.mk.inj heq
    have hnot : filter ∉ p.topicFilters := by
      intro hmem
      rw [Interests.naming, if_pos hmem] at h
      cases h
    rw [Finset.mem_sdiff, List.mem_toFinset]
    exact and_iff_left hnot
  · exact Iff.rfl

/-- A packet acts alike on what was held alike. -/
theorem brokerTakes_congr {item : Packet × Option Nat} {filter : String} {held held' : Finset String}
    (h : filter ∈ held ↔ filter ∈ held') :
    filter ∈ brokerTakes granted item held ↔ filter ∈ brokerTakes granted item held' := by
  unfold brokerTakes
  split
  · rw [Finset.mem_union, Finset.mem_union, h]
  · rw [Finset.mem_sdiff, Finset.mem_sdiff, h]
  · exact h

theorem mem_brokerHolds_append {filter : String} {new : List (Packet × Option Nat)}
    (h : ∀ item ∈ new, Interests.naming filter item.1 = none) (older : List (Packet × Option Nat)) :
    filter ∈ brokerHolds granted base (new ++ older) ↔ filter ∈ brokerHolds granted base older := by
  induction new with
  | nil => exact Iff.rfl
  | cons item new ih =>
    refine (mem_brokerTakes (h item List.mem_cons_self) _).trans ?_
    exact ih fun item' hmem => h item' (List.mem_cons_of_mem _ hmem)

theorem brokerHolds_congr {filter : String} {older older' : List (Packet × Option Nat)}
    (h : filter ∈ brokerHolds granted base older ↔ filter ∈ brokerHolds granted base older')
    (new : List (Packet × Option Nat)) :
    filter ∈ brokerHolds granted base (new ++ older) ↔
      filter ∈ brokerHolds granted base (new ++ older') := by
  induction new with
  | nil => exact h
  | cons item new ih => exact brokerTakes_congr ih

/-! ## The filters of a call -/

namespace Protocol

/-- The filters of every call so far. -/
def requested (p : Protocol) : List (List String) := p.calls.map Call.filters

theorem requested_set {p : Protocol} {i : Nat} {c c' : Call} (hc : p.calls[i]? = some c)
    (h : c'.filters = c.filters) : (p.calls.set i c').map Call.filters = p.requested := by
  obtain ⟨l, r, hsplit, hset⟩ := split_at hc
  rw [hset, requested, hsplit, List.map_append, List.map_append, List.map_cons, List.map_cons, h]

theorem requested_startCall (p : Protocol) (kind : CallKind) (filters : List String)
    (packetOf : Int → Packet) : p.requested <+: (p.startCall kind filters packetOf).requested := by
  have hnew : ∀ c : Call, p.requested <+: (p.calls ++ [c]).map Call.filters := by
    intro c
    rw [List.map_append]
    exact List.prefix_append _ _
  unfold startCall
  split
  · exact List.prefix_refl _
  · split
    · exact List.prefix_refl _
    · dsimp only
      split
      · exact hnew _
      · exact hnew _

theorem requested_setFuture (p : Protocol) (i : Nat) (future : FutureState) :
    (p.setFuture i future).requested = p.requested := by
  unfold setFuture
  split
  · rfl
  · next c hc =>
    split
    · exact @requested_set p i c { c with future } hc rfl
    · rfl

theorem requested_dispatch {p p' : Protocol} {packet : Packet} (hd : p.dispatch packet = .ok p') :
    p'.requested = p.requested := by
  have hresult : ∀ i reply, p.setResult i reply = .ok p' → p'.requested = p.requested := by
    intro i reply hs
    unfold setResult at hs
    split at hs
    · cases hs
    · next c hc =>
      split at hs
      · cases hs
        exact @requested_set p i c { c with future := .result reply } hc rfl
      · cases hs
  unfold dispatch at hd
  split at hd
  · cases hd; rfl
  · cases hd; rfl
  · cases hd; rfl
  · unfold handlePuback at hd
    split at hd
    · cases hd
    · cases hd; exact requested_setFuture _ _ _
  · unfold handlePubrec at hd
    split at hd
    · cases hd
    · split at hd
      · cases hd
      · split at hd
        · cases hd; exact requested_setFuture _ _ _
        · cases hd; rfl
  · unfold handlePubcomp at hd
    split at hd
    · cases hd
    · cases hd; exact requested_setFuture _ _ _
  · unfold handleSuback at hd
    split at hd
    · cases hd
    · exact hresult _ _ hd
  · unfold handleUnsuback at hd
    split at hd
    · cases hd
    · exact hresult _ _ hd
  · cases hd
  · split at hd
    · cases hd
    · cases hd; rfl
  all_goals cases hd

theorem requested_resume (p : Protocol) (i : Nat) (written : Bool) :
    (p.resume i written).requested = p.requested := by
  unfold resume finish
  split
  · rfl
  · next c hc =>
    have hset : ∀ c' : Call, c'.filters = c.filters → (p.calls.set i c').map Call.filters = p.requested :=
      fun c' h => requested_set hc h
    split
    · rfl
    · split
      · exact hset _ rfl
      · split
        · split
          · exact hset _ rfl
          · exact hset _ rfl
        · exact hset _ rfl
    · split
      · rfl
      · split
        · exact hset _ rfl
        · exact hset _ rfl

theorem requested_cancel (p : Protocol) (i : Nat) : (p.cancel i).requested = p.requested := by
  unfold cancel
  split
  · rfl
  · next c hc =>
    have hset : ∀ c' : Call, c'.filters = c.filters → (p.calls.set i c').map Call.filters = p.requested :=
      fun c' h => requested_set hc h
    split
    · rfl
    · exact hset _ rfl
    · split
      · exact hset _ rfl
      · exact hset _ rfl

theorem requested_runExit (p : Protocol) : p.runExit.requested = p.requested := by
  have hfold : ∀ (calls : List Nat) (p : Protocol),
      (calls.foldl (fun p i => p.setFuture i (.exception .disconnected)) p).requested = p.requested := by
    intro calls
    induction calls with
    | nil => exact fun _ => rfl
    | cons i calls ih => exact fun p => (ih _).trans (requested_setFuture p i _)
  exact hfold _ _

/-- A call keeps its filters. -/
theorem requested_step (p : Protocol) (e : ProtocolEvent) : p.requested <+: (p.step e).requested := by
  have hsame : ∀ p' : Protocol, p'.requested = p.requested → p.requested <+: p'.requested := by
    intro p' h
    rw [h]
  cases e with
  | publish packet =>
    rw [step, publish]
    split
    · exact List.prefix_refl _
    · split
      · split
        · exact List.prefix_refl _
        · exact List.prefix_refl _
      · exact requested_startCall p _ _ _
      · exact requested_startCall p _ _ _
  | sendSubscribe filters identifier => exact requested_startCall p _ _ _
  | sendUnsubscribe filters => exact requested_startCall p _ _ _
  | resume i written => exact hsame _ (requested_resume p i written)
  | cancel i => exact hsame _ (requested_cancel p i)
  | receive packet =>
    rw [step, receive]
    split
    · split
      · next hd => exact hsame _ (requested_dispatch hd)
      · exact List.prefix_refl _
    · exact List.prefix_refl _
    · exact List.prefix_refl _
  | resumeReadLoop written =>
    rw [step, resumeReadLoop]
    split
    · exact List.prefix_refl _
    · exact List.prefix_refl _
    · exact List.prefix_refl _
  | runExit => exact hsame _ (requested_runExit p)

theorem requested_reach {p p' : Protocol} (h : Reach step anyStep p p') :
    p.requested <+: p'.requested :=
  Reach.invariant (I := fun p' : Protocol => p.requested <+: p'.requested) h (List.prefix_refl _)
    fun p' e hp _ => hp.trans (requested_step p' e)

/-- Call `i` has its SUBACK, whose codes make it raise `MQTTSubscribeError(failures)`. -/
def Rejected (p : Protocol) (i : Nat) (codes : List Int) (failures : List (String × Int)) : Prop :=
  ∃ c packet, p.calls[i]? = some c ∧ c.future = .result (.suback packet) ∧
    packet.returnCodes = codes ∧ outcomeOf c = .raised (.subscribeError failures)

theorem Rejected.failures {p : Protocol} {i : Nat} {codes : List Int} {failures : List (String × Int)}
    (h : p.Rejected i codes failures) {filters : List String} (hi : p.requested[i]? = some filters) :
    failures = rejectedFilters filters codes ∧ failures ≠ [] := by
  obtain ⟨c, packet, hc, hfuture, rfl, houtcome⟩ := h
  have hfilters : c.filters = filters := by
    rw [requested, List.getElem?_map, hc] at hi
    exact Option.some.inj hi
  unfold outcomeOf at houtcome
  rw [hfuture] at houtcome
  dsimp only at houtcome
  split at houtcome
  · split at houtcome <;> cases houtcome
  · next reply heq =>
    cases heq
    split at houtcome
    · next hrejected =>
      cases houtcome
      rw [← hfilters]
      exact ⟨rfl, hrejected⟩
    · cases houtcome
  · cases houtcome

end Protocol

namespace Interests

variable {s s' : Interests} {k : Nat} {task : InterestTask}

/-! ## Packets about filters -/

/-- Nothing is written about the filters. -/
def Untouched (filters : List String) (p p' : Protocol) : Prop :=
  ∃ new, p'.written = new ++ p.written ∧ ∀ item ∈ new, ∀ f ∈ filters, naming f item.1 = none

theorem untouched_of_written {filters : List String} {p p' : Protocol} (h : p'.written = p.written) :
    Untouched filters p p' := ⟨[], h, fun _ hitem => by cases hitem⟩

theorem Untouched.trans {filters : List String} {p p' p'' : Protocol} (h : Untouched filters p p')
    (h' : Untouched filters p' p'') : Untouched filters p p'' := by
  obtain ⟨new, hw, hnone⟩ := h
  obtain ⟨new', hw', hnone'⟩ := h'
  refine ⟨new' ++ new, by rw [hw', hw, List.append_assoc], fun item hitem => ?_⟩
  exact (List.mem_append.1 hitem).elim (hnone' item) (hnone item)

theorem Writes.untouched {names filters : List String} {p p' : Protocol} (h : Writes names p p')
    (hdisjoint : ∀ f ∈ filters, f ∉ names) : Untouched filters p p' := by
  rcases h with hw | ⟨item, hw, hnames⟩
  · exact untouched_of_written hw
  · refine ⟨[item], hw, fun item' hitem f hf => ?_⟩
    rw [List.mem_singleton.1 hitem]
    by_contra hne
    exact hdisjoint f hf (hnames f hne)

/-- A subscribe call ends after its exchange, and writes nothing more. -/
theorem settle_subscribing (hk : s.tasks[k]? = some task) {i : Nat} {newFilters : List String} :
    (s.settle k (.subscribing i newFilters)).protocol = s.protocol ∧
      (s.settle k (.subscribing i newFilters)).tasks = s.tasks.set k { task with pc := .ended } := by
  have htasks : s.tasks.modify k (fun task => { task with pc := .ended }) =
      s.tasks.set k { task with pc := .ended } := modify_of_get _ hk
  unfold Interests.settle
  dsimp only
  split
  · exact ⟨rfl, htasks⟩
  · exact ⟨rfl, htasks⟩

/-- While a subscribe call waits for its exchange, nothing is written about its filters. -/
theorem untouched_step (h : s.Guarded) (hk : s.tasks[k]? = some task) {i : Nat}
    {newFilters : List String} (hpc : task.pc = .subscribing i newFilters) (e : InterestEvent) :
    Untouched task.call.filters s.protocol (s.step e).protocol ∧
      ((s.step e).tasks[k]? = some task ∨ (s.step e).tasks[k]? = some { task with pc := .ended }) := by
  have hex : task.pc.exchange? ≠ none := by
    rw [hpc]
    exact Option.some_ne_none i
  obtain ⟨s₁, hbefore, hstep⟩ := step_before h e
  have hk₁ := hbefore.kept k task hk (by rw [hpc]; nofun)
  have huntouched : Untouched task.call.filters s.protocol s₁.protocol :=
    hbefore.written.untouched fun _ _ hmem => by cases hmem
  rcases hstep with hstep | ⟨j, other, hj, hinside, hp, hown⟩
  · rw [hstep]
    exact ⟨huntouched, Or.inl hk₁⟩
  · by_cases hjk : j = k
    · subst hjk
      rw [hk₁] at hj
      obtain rfl := Option.some.inj hj
      rcases hown with ⟨hentering, -⟩ | ⟨-, hsettle⟩
      · rw [hpc] at hentering
        cases hentering
      · rw [hpc] at hsettle
        obtain ⟨hprotocol, htasks⟩ := @settle_subscribing s₁ _ _ hk₁ i newFilters
        rw [hsettle, hprotocol, htasks, List.getElem?_set_self (List.getElem?_eq_some_iff.1 hk₁).1]
        exact ⟨huntouched, Or.inr rfl⟩
    · -- another call goes on: the guards keep it away from these filters
      have hdisjoint := hbefore.guarded.disjoint hjk hk₁ hj
        (hbefore.guarded.inside k task hk₁ hex) hinside
      obtain ⟨pc, htasks, -⟩ := hp.own
      rw [htasks, List.getElem?_set_ne hjk]
      exact ⟨huntouched.trans (hp.writes.untouched hdisjoint), Or.inl hk₁⟩

/-! ## The call -/

/-- An exchange that waits is a new call with its filters. -/
theorem requested_of_awaits {p : Protocol} {kind : CallKind} {filters : List String}
    {packetOf : Int → Packet} (h : (p.startCall kind filters packetOf).awaits p.calls.length = true) :
    (p.startCall kind filters packetOf).requested[p.calls.length]? = some filters := by
  have hnone : p.calls[p.calls.length]? = none := List.getElem?_eq_none (Nat.le_refl _)
  have hsame : p.awaits p.calls.length = false := by
    unfold Protocol.awaits
    rw [hnone]
  have hnew : ∀ c : Call, c.filters = filters →
      ((p.calls ++ [c]).map Call.filters)[p.calls.length]? = some filters := by
    intro c hc
    rw [List.getElem?_map, List.getElem?_concat_length, Option.map_some, hc]
  unfold Protocol.startCall at h ⊢
  split at h
  · rw [hsame] at h
    cases h
  · next hdead =>
    rw [if_neg hdead]
    split at h
    · rw [hsame] at h
      cases h
    · dsimp only at h ⊢
      split at h
      · exact hnew _ rfl
      · exact hnew _ rfl

theorem subscribe_sends (hk : s.tasks[k]? = some task) {filters : List SubscriptionRequest}
    {autoAck : Bool} {queue : Nat} {identifier : Option Int} {other : InterestTask}
    (hk' : (s.subscribe k filters autoAck queue identifier).tasks[k]? = some other) {i : Nat}
    {newFilters : List String} (hpc : other.pc = .subscribing i newFilters) :
    (∃ p : Subscribe, p.subscriptions = filters ∧
      (s.subscribe k filters autoAck queue identifier).protocol.written =
        (.subscribe p, some i) :: s.protocol.written) ∧
    (s.subscribe k filters autoAck queue identifier).protocol.requested[i]? =
      some (filters.map (·.topicFilter)) := by
  have htasks : ∀ pc, (s.tasks.modify k fun task => { task with pc })[k]? = some { task with pc } := by
    intro pc
    rw [List.getElem?_modify_eq, hk]
    rfl
  unfold Interests.subscribe at hk' ⊢
  dsimp only at hk' ⊢
  split at hk'
  · next hawaits =>
    rw [if_pos hawaits]
    obtain rfl := Option.some.inj ((htasks _).symm.trans hk')
    cases hpc
    refine ⟨?_, requested_of_awaits hawaits⟩
    rcases startCall_written s.protocol .subscribe (filters.map (·.topicFilter)) fun pid =>
      .subscribe ⟨pid, filters, identifier.map fun i => { subscriptionIdentifier := some i }⟩ with
      ⟨hnot, -⟩ | ⟨pid, -, hw⟩
    · rw [Protocol.sendSubscribe, hnot] at hawaits
      cases hawaits
    · exact ⟨_, rfl, hw⟩
  · obtain rfl := Option.some.inj ((htasks _).symm.trans hk')
    cases hpc

/-- The step in which a subscribe call comes to wait for its exchange sends its SUBSCRIBE. -/
theorem sends_subscribe (h : s.Guarded) (e : InterestEvent)
    (hnew : ∀ task, s.tasks[k]? = some task → task.pc = .entering)
    {filters : List SubscriptionRequest} {autoAck : Bool} {queue : Nat} {identifier : Option Int}
    {i : Nat} {newFilters : List String}
    (hk : (s.step e).tasks[k]? = some
      { call := .subscribe filters autoAck queue identifier, pc := .subscribing i newFilters }) :
    (∃ p : Subscribe, p.subscriptions = filters ∧
      (s.step e).protocol.written = (.subscribe p, some i) :: s.protocol.written) ∧
    (s.step e).protocol.requested[i]? = some (filters.map (·.topicFilter)) := by
  have hold : ∀ task, s.tasks[k]? = some task → task.pc.exchange? ≠ none → False := by
    intro task hget hex
    rw [hnew task hget] at hex
    exact hex rfl
  obtain ⟨s₁, hbefore, hstep⟩ := step_before h e
  have hlater : s₁.tasks[k]? = some
      { call := .subscribe filters autoAck queue identifier, pc := .subscribing i newFilters } →
      False := by
    intro hget
    have hex : (InterestPc.subscribing i newFilters).exchange? ≠ none := Option.some_ne_none i
    exact hold _ (hbefore.back k _ hget hex) hex
  rcases hstep with hstep | ⟨j, other, hj, hinside, hp, hgoes⟩
  · rw [hstep] at hk
    exact (hlater hk).elim
  · obtain ⟨pc, htasks, -⟩ := hp.own
    by_cases hjk : j = k
    · subst hjk
      rw [htasks, List.getElem?_set_self (List.getElem?_eq_some_iff.1 hj).1] at hk
      obtain ⟨hcall, hpc⟩ := InterestTask.mk.inj (Option.some.inj hk)
      rcases hgoes with ⟨-, hprotocol, henter⟩ | ⟨hex, -⟩
      · rw [hcall, Interests.enter, if_pos hinside] at henter
        have hself : (s₁.subscribe j filters autoAck queue identifier).tasks[j]? =
            some { other with pc } := by
          rw [← henter, htasks, List.getElem?_set_self (List.getElem?_eq_some_iff.1 hj).1]
        have hsends := subscribe_sends hj hself hpc
        rw [henter, ← hprotocol]
        exact hsends
      · exact (hold other (hbefore.back j other hj hex) hex).elim
    · rw [htasks, List.getElem?_set_ne hjk] at hk
      exact (hlater hk).elim

/-- From the step that sends the SUBSCRIBE to the end of the call. -/
theorem untouched_reach (h : s.Guarded) (hk : s.tasks[k]? = some task) {i : Nat}
    {newFilters : List String} (hpc : task.pc = .subscribing i newFilters)
    (hreach : Reach step anyStep s s') :
    s'.Guarded ∧ (s'.tasks[k]? = some task → Untouched task.call.filters s.protocol s'.protocol) := by
  have hinv : s'.Guarded ∧ (s'.tasks[k]? = some { task with pc := .ended } ∨
      s'.tasks[k]? = some task ∧ Untouched task.call.filters s.protocol s'.protocol) := by
    refine Reach.invariant (I := fun s' : Interests => s'.Guarded ∧
      (s'.tasks[k]? = some { task with pc := .ended } ∨
        s'.tasks[k]? = some task ∧ Untouched task.call.filters s.protocol s'.protocol)) hreach
      ⟨h, Or.inr ⟨hk, untouched_of_written rfl⟩⟩ ?_
    rintro t e ⟨ht, hended | ⟨hget, huntouched⟩⟩ -
    · exact ⟨ht.step e, Or.inl (ended_step ht hended rfl e)⟩
    · obtain ⟨hmore, hget' | hended⟩ := untouched_step ht hget hpc e
      · exact ⟨ht.step e, Or.inr ⟨hget', huntouched.trans hmore⟩⟩
      · exact ⟨ht.step e, Or.inl hended⟩
  refine ⟨hinv.1, fun hk' => ?_⟩
  rcases hinv.2 with hended | ⟨-, huntouched⟩
  · rw [hk'] at hended
    have hpcs := congrArg InterestTask.pc (Option.some.inj hended)
    rw [hpc] at hpcs
    cases hpcs
  · exact huntouched

/-- What a SUBSCRIBE comes to, when the packets after it are about other filters. -/
theorem brokerHolds_subscribe {granted : Nat → List Int} {base : Finset String}
    {new older : List (Packet × Option Nat)} (p : Subscribe) (i : Nat)
    (hnew : ∀ item ∈ new, ∀ f ∈ p.subscriptions.map (·.topicFilter), naming f item.1 = none) :
    let names := p.subscriptions.map (·.topicFilter)
    let before := brokerHolds granted base older
    let after := brokerHolds granted base (new ++ (.subscribe p, some i) :: older)
    (∀ f ∈ names, f ∈ after ↔ f ∈ before ∨ f ∈ acceptedFilters names (granted i)) ∧
      ∀ f, f ∉ names → (f ∈ after ↔ f ∈ brokerHolds granted base (new ++ older)) := by
  dsimp only
  constructor
  · intro f hf
    rw [mem_brokerHolds_append fun item hitem => hnew item hitem f hf]
    show f ∈ brokerTakes granted (.subscribe p, some i) (brokerHolds granted base older) ↔ _
    unfold brokerTakes
    rw [Finset.mem_union, List.mem_toFinset]
  · intro f hf
    refine brokerHolds_congr ?_ new
    have hnone : naming f (.subscribe p) = none := if_neg hf
    show f ∈ brokerTakes granted (.subscribe p, some i) _ ↔ _
    exact mem_brokerTakes hnone _

/-- **Rejected subscribes.** A subscribe call sends its SUBSCRIBE in the step `e`, waits, and has a
    SUBACK that makes it raise: the broker then holds of its filters what it held before, and what it
    would hold of all filters without the call, if and only if it already held every filter that
    the SUBACK accepts. -/
theorem rejected_subscribe_undone {version : Version} {maxPublishQos : QoS}
    {strippedPrefixes : List String} {s₀ : Interests} (granted : Nat → List Int) (base : Finset String)
    (h₀ : Reach step anyStep (fresh version maxPublishQos strippedPrefixes) s₀) (e : InterestEvent)
    (hnew : ∀ task, s₀.tasks[k]? = some task → task.pc = .entering) {filters : List SubscriptionRequest}
    {autoAck : Bool} {queue : Nat} {identifier : Option Int} {i : Nat} {newFilters : List String}
    (hcall : task = { call := .subscribe filters autoAck queue identifier, pc := .subscribing i newFilters })
    (hsent : (s₀.step e).tasks[k]? = some task) (h : Reach step anyStep (s₀.step e) s)
    (hwaits : s.tasks[k]? = some task) {failures : List (String × Int)}
    (hrejected : s.protocol.Rejected i (granted i) failures) (written : Bool) :
    let names := filters.map (·.topicFilter)
    let accepted := acceptedFilters names (granted i)
    let before := brokerHolds granted base s₀.protocol.written
    let s' := s.step (.resume k written)
    let after := brokerHolds granted base s'.protocol.written
    failures = Protocol.rejectedFilters names (granted i) ∧ failures ≠ [] ∧
    ((∀ f ∈ names, f ∈ after ↔ f ∈ before) ↔ ∀ f ∈ accepted, f ∈ before) ∧
    ∃ new packet, s'.protocol.written = new ++ packet :: s₀.protocol.written ∧
      (∀ item ∈ new, ∀ f ∈ names, naming f item.1 = none) ∧
      (after = brokerHolds granted base (new ++ s₀.protocol.written) ↔ ∀ f ∈ accepted, f ∈ before) := by
  have hguarded := guarded_reach h₀
  have hcalled : task.call.filters = filters.map (·.topicFilter) := by rw [hcall]; rfl
  have hpc : task.pc = .subscribing i newFilters := by rw [hcall]
  obtain ⟨⟨p, rfl, hsend⟩, hfilters⟩ := sends_subscribe hguarded e hnew (hcall ▸ hsent)
  obtain ⟨hguarded', huntouched⟩ := untouched_reach (hguarded.step e) hsent hpc h
  obtain ⟨new, hwritten, hnone⟩ :=
    (huntouched hwaits).trans (untouched_step hguarded' hwaits hpc (.resume k written)).1
  rw [hsend] at hwritten
  rw [hcalled] at hnone
  have hrequested : s.protocol.requested[i]? = some (p.subscriptions.map (·.topicFilter)) := by
    have hprefix : (s₀.step e).protocol.requested <+: s.protocol.requested := by
      refine Reach.invariant (I := fun t : Interests =>
        (s₀.step e).protocol.requested <+: t.protocol.requested) h (List.prefix_refl _) ?_
      exact fun t e' ht _ => ht.trans (Protocol.requested_reach (reach_step t e'))
    obtain ⟨later, hlater⟩ := hprefix
    rw [← hlater, List.getElem?_append_left (List.getElem?_eq_some_iff.1 hfilters).1]
    exact hfilters
  obtain ⟨hfailures, hne⟩ := hrejected.failures hrequested
  obtain ⟨hinside, houtside⟩ := @brokerHolds_subscribe granted base new s₀.protocol.written p i hnone
  dsimp only at hinside houtside ⊢
  rw [hwritten]
  have hiff : (∀ f ∈ p.subscriptions.map (·.topicFilter),
      f ∈ brokerHolds granted base (new ++ (.subscribe p, some i) :: s₀.protocol.written) ↔
        f ∈ brokerHolds granted base s₀.protocol.written) ↔
      ∀ f ∈ acceptedFilters (p.subscriptions.map (·.topicFilter)) (granted i),
        f ∈ brokerHolds granted base s₀.protocol.written := by
    constructor
    · intro hsame f hf
      have hmem := mem_of_mem_acceptedFilters hf
      exact (hsame f hmem).1 ((hinside f hmem).2 (Or.inr hf))
    · intro hheld f hf
      rw [hinside f hf]
      exact or_iff_left_of_imp (hheld f)
  refine ⟨hfailures, hne, hiff, new, _, rfl, hnone, ?_⟩
  rw [← hiff, Finset.ext_iff]
  constructor
  · intro hsame f hf
    rw [hsame f]
    exact mem_brokerHolds_append (fun item hitem => hnone item hitem f hf) _
  · intro hsame f
    by_cases hf : f ∈ p.subscriptions.map (·.topicFilter)
    · rw [hsame f hf]
      exact (mem_brokerHolds_append (fun item hitem => hnone item hitem f hf) _).symm
    · exact houtside f hf

/-- A subscription to two filters, while another call subscribes a third. -/
def rejectedRun (codes : List Int) : List InterestEvent :=
  [.resume 0 true, .start (.subscribe [{ topicFilter := "c", qos := .atMostOnce }] true 8 none),
    .background (.receive (.suback { packetId := 1, returnCodes := codes }))]

def twoFilters : InterestCall :=
  .subscribe [{ topicFilter := "a", qos := .atMostOnce }, { topicFilter := "b", qos := .atMostOnce }] true
    7 none

theorem rejected_subscribe_undone_rejectedRun :
    let before := (fresh .v5 .exactlyOnce []).step (.start twoFilters)
    let s := (rejectedRun [0x87, 0x80]).foldl step before
    let granted := fun i => if i = 0 then [0x87, 0x80] else [0]
    brokerHolds granted ∅ (s.step (.resume 0 true)).protocol.written = {"c"} ∧
    ∀ f ∈ ["a", "b"], f ∈ brokerHolds granted ∅ (s.step (.resume 0 true)).protocol.written ↔
      f ∈ brokerHolds granted ∅ (fresh .v5 .exactlyOnce []).protocol.written := by
  dsimp only
  refine ⟨by decide +kernel, ?_⟩
  have h := @rejected_subscribe_undone
    ((rejectedRun [0x87, 0x80]).foldl step ((fresh .v5 .exactlyOnce []).step (.start twoFilters))) 0
    { call := twoFilters, pc := .subscribing 0 ["a", "b"] } .v5 .exactlyOnce []
    (fresh .v5 .exactlyOnce []) (fun i => if i = 0 then [0x87, 0x80] else [0]) ∅
    Relation.ReflTransGen.refl (.start twoFilters) (fun task hk => by cases hk) _ true 7 none 0 ["a", "b"]
    rfl (by decide +kernel) (Reach.foldl (meets_anyStep _)) (by decide +kernel) [("a", 0x87), ("b", 0x80)]
    ⟨{ kind := .subscribe, pid := 1, filters := ["a", "b"], pc := .waiting
       future := .result (.suback { packetId := 1, returnCodes := [0x87, 0x80] }) }, _,
      by decide +kernel, rfl, rfl, by decide +kernel⟩ true
  have hnone : acceptedFilters ["a", "b"] [0x87, 0x80] = [] := by decide +kernel
  refine h.2.2.1.2 fun f hf => ?_
  change f ∈ acceptedFilters ["a", "b"] [0x87, 0x80] at hf
  rw [hnone] at hf
  cases hf

/-- The SUBACK accepts `a` and rejects `b`: the call raises, and the broker keeps `a`, which the
    index does not know. -/
theorem accepted_filter_kept :
    let s := ((rejectedRun [0, 0x80]).foldl step
      ((fresh .v5 .exactlyOnce []).step (.start twoFilters))).step (.resume 0 true)
    let granted := fun i => if i = 0 then [0, 0x80] else [0]
    (s.protocol.calls[0]?).map Call.pc =
      some (.finished (.raised (.subscribeError [("b", 0x80)]))) ∧
    brokerHolds granted ∅ (fresh .v5 .exactlyOnce []).protocol.written = ∅ ∧
    brokerHolds granted ∅ s.protocol.written = {"a", "c"} ∧
    s.index.contains "a" = false ∧ (s.index.select "a").recipient = none := by
  decide +kernel

end Interests

end Zmqtt
