/-
  The order of the QoS 1 messages of one topic. An object and the task inside its lock keep
  the messages in the order of their receipt (`Buffered.line`), `accept` holds a message
  behind those of its topic, and a pass hands them on from the front. A message that is set
  aside is passed by a younger one of its topic only if that one finds room after all: the
  drain was suspended, and its recipient or a free slot appeared meanwhile, or the two are
  routed to different subscriptions. `inTurn` excludes this.
-/
import Zmqtt.Inbound.Exchanges

namespace Zmqtt

/-- QoS 1 messages on one topic, received in this order. -/
def Received.precedes (m m' : Received) : Prop :=
  m.packet.qos = .atLeastOnce ∧ m'.packet.qos = .atLeastOnce ∧
    m.packet.topic = m'.packet.topic ∧ m.num < m'.num

/-- The messages of an object, in the order in which the task inside the lock takes them. -/
def Buffered.line (b : Buffered) : List Received :=
  match b.holder with
  | none => b.publishes
  | some d => d.unmatched ++ d.current :: d.pending ++ b.publishes

theorem line_of_holder_none {b : Buffered} (h : b.holder = none) : b.line = b.publishes := by
  rw [Buffered.line, h]

theorem line_of_holder {b : Buffered} {d : Delivery} (h : b.holder = some d) :
    b.line = d.unmatched ++ d.current :: d.pending ++ b.publishes := by
  rw [Buffered.line, h]

theorem line_perm_owned (b : Buffered) : b.line.Perm b.owned := by
  unfold Buffered.line Buffered.owned
  cases b.holder with
  | none => rw [List.append_nil]
  | some d =>
    refine List.perm_append_comm.trans (List.Perm.append_left _ ?_)
    exact List.perm_middle.trans (List.perm_append_singleton d.current _).symm

/-- Of two messages of a topic that were put into one queue, the one received first was put
    first. The trace has the newest entry first. -/
def InTopicOrder (trace : List TraceEntry) : Prop :=
  ∀ queue m m' earlier, m.precedes m' → .enqueued queue m ∈ trace →
    (.enqueued queue m' :: earlier) <:+ trace → .enqueued queue m ∈ earlier

namespace InboundPublishFlow

theorem SameContents.line {b b' : Buffered} (h : SameContents b b') : b'.line = b.line := by
  unfold Buffered.line
  rw [h.publishes]
  cases hb : b'.holder with
  | none => rw [h.noHolder hb]
  | some d' =>
    obtain ⟨d, hd, hu, hp, hc, -⟩ := h.holder d' hb
    rw [hd]
    dsimp only
    rw [hu, hp, hc]

/-- Nobody is overtaken: the messages held are in the order of their receipt, in one object,
    and none of them precedes one that was put into a queue. `extra` are the messages of the
    running task, `acts` the awaits of the read loop to come. -/
structure Orderly (f : InboundPublishFlow) (acts : List Act) (extra : Nat → List Received) :
    Prop where
  sorted : ∀ j b, f.buffers[j]? = some b → (extra j ++ b.line).Pairwise fun m m' => m.num < m'.num
  received : ∀ j b, f.buffers[j]? = some b → ∀ m ∈ extra j ++ b.line, m.num < f.received
  sole : ∀ j j' b b', f.buffers[j]? = some b → f.buffers[j']? = some b' →
    extra j ++ b.line ≠ [] → extra j' ++ b'.line ≠ [] → j = j'
  behind : ∀ j b, f.buffers[j]? = some b → ∀ m ∈ extra j ++ b.line, ∀ queue m',
    .enqueued queue m' ∈ f.trace → ¬ m.precedes m'
  put : ∀ queue m, .enqueued queue m ∈ f.trace → m.packet.qos = .atLeastOnce → m.num < f.received
  direct : ∀ r callback, .deliver r callback ∈ acts → r.message.packet.qos = .atLeastOnce →
    r.queue ≠ none → r.message.num + 1 = f.received ∧
      ∀ j b, f.buffers[j]? = some b → ∀ m ∈ extra j ++ b.line,
        m.packet.topic ≠ r.message.packet.topic
  flights : ∀ pid flight, f.inflightQos2In.get? pid = some flight → flight.delivered = false →
    flight.recipient.message.packet.qos = .exactlyOnce
  ordered : InTopicOrder f.trace

/-- Entries other than deliveries into queues, and flights that owe nothing new. -/
theorem Orderly.calm {f f' : InboundPublishFlow} {acts acts' : List Act}
    {extra : Nat → List Received} (h : Orderly f acts extra) {l : List TraceEntry}
    (hcalm : ∀ queue m, .enqueued queue m ∉ l) (htrace : f'.trace = l ++ f.trace)
    (hbuffers : f'.buffers = f.buffers) (hreceived : f'.received = f.received)
    (hflights : ∀ pid flight, f'.inflightQos2In.get? pid = some flight →
      flight.delivered = false → flight.recipient.message.packet.qos = .exactlyOnce)
    (hacts : ∀ r callback, .deliver r callback ∈ acts' →
      r.message.packet.qos = .atLeastOnce → .deliver r callback ∈ acts) :
    Orderly f' acts' extra := by
  have hback : ∀ {queue m}, .enqueued queue m ∈ f'.trace → .enqueued queue m ∈ f.trace := by
    intro queue m hmem
    rw [htrace] at hmem
    exact (List.mem_append.1 hmem).resolve_left (hcalm queue m)
  refine ⟨?_, ?_, ?_, ?_, ?_, ?_, hflights, ?_⟩
  · rw [hbuffers]
    exact h.sorted
  · rw [hbuffers, hreceived]
    exact h.received
  · rw [hbuffers]
    exact h.sole
  · rw [hbuffers]
    exact fun j b hb m hm queue m' hput => h.behind j b hb m hm queue m' (hback hput)
  · rw [hreceived]
    exact fun queue m hput => h.put queue m (hback hput)
  · rw [hbuffers, hreceived]
    exact fun r callback hact hqos => h.direct r callback (hacts r callback hact hqos) hqos
  · intro queue m m' earlier hlt hput hsuf
    rw [htrace] at hsuf
    exact h.ordered queue m m' earlier hlt (hback hput) (suffix_of_append (hcalm queue m') hsuf)

theorem Orderly.congr {f f' : InboundPublishFlow} {acts : List Act} {extra : Nat → List Received}
    (h : Orderly f acts extra) (htrace : f'.trace = f.trace) (hbuffers : f'.buffers = f.buffers)
    (hreceived : f'.received = f.received) (hflights : f'.inflightQos2In = f.inflightQos2In) :
    Orderly f' acts extra :=
  h.calm (l := []) (fun _ _ hmem => absurd hmem List.not_mem_nil) htrace hbuffers hreceived
    (by rw [hflights]; exact h.flights) fun _ _ hact _ => hact

/-- Object `i` and its task give up messages, the others stay in their order. -/
theorem Orderly.setBuffer {f : InboundPublishFlow} {acts : List Act} {i : Nat}
    {air air' : List Received} (h : Orderly f acts (only i air)) {b b' : Buffered}
    (hb : f.buffers[i]? = some b) (hsub : (air' ++ b'.line).Sublist (air ++ b.line)) :
    Orderly (f.setBuffer i b') acts (only i air') := by
  -- every line is part of a line before
  have hline : ∀ j c, (f.setBuffer i b').buffers[j]? = some c →
      ∃ c', f.buffers[j]? = some c' ∧
        (only i air' j ++ c.line).Sublist (only i air j ++ c'.line) := by
    intro j c hc
    by_cases hj : j = i
    · subst hj
      rw [getElem?_setBuffer hb] at hc
      obtain rfl := Option.some.inj hc
      rw [only_self, only_self]
      exact ⟨b, hb, hsub⟩
    · refine ⟨c, by rw [← List.getElem?_set_ne (Ne.symm hj)]; exact hc, ?_⟩
      rw [only, only, if_neg hj, if_neg hj]
  have hmem : ∀ j c, (f.setBuffer i b').buffers[j]? = some c → ∀ m ∈ only i air' j ++ c.line,
      ∃ c', f.buffers[j]? = some c' ∧ m ∈ only i air j ++ c'.line := by
    intro j c hc m hm
    obtain ⟨c', hc', hs⟩ := hline j c hc
    exact ⟨c', hc', hs.subset hm⟩
  refine ⟨fun j c hc => ?_, fun j c hc m hm => ?_, fun j j' c c' hc hc' hne hne' => ?_,
    fun j c hc m hm => ?_, h.put, fun r callback hact hqos hq => ?_, h.flights, h.ordered⟩
  · obtain ⟨d, hd, hs⟩ := hline j c hc
    exact (h.sorted j d hd).sublist hs
  · obtain ⟨d, hd, hm⟩ := hmem j c hc m hm
    exact h.received j d hd m hm
  · obtain ⟨d, hd, hs⟩ := hline j c hc
    obtain ⟨d', hd', hs'⟩ := hline j' c' hc'
    refine h.sole j j' d d' hd hd' (fun he => hne ?_) fun he => hne' ?_
    · rw [he] at hs
      exact List.sublist_nil.1 hs
    · rw [he] at hs'
      exact List.sublist_nil.1 hs'
  · obtain ⟨d, hd, hm⟩ := hmem j c hc m hm
    exact h.behind j d hd m hm
  · obtain ⟨hnum, htopic⟩ := h.direct r callback hact hqos hq
    refine ⟨hnum, fun j c hc m hm => ?_⟩
    obtain ⟨d, hd, hm⟩ := hmem j c hc m hm
    exact htopic j d hd m hm

/-- A message is put into a queue when no message held precedes it. -/
theorem Orderly.enqueue {f : InboundPublishFlow} {acts : List Act} {extra : Nat → List Received}
    (h : Orderly f acts extra) {queue : Nat} {message : Message}
    (hnum : message.received.packet.qos = .atLeastOnce → message.received.num < f.received)
    (hlast : ∀ queue' m', .enqueued queue' m' ∈ f.trace → ¬ message.received.precedes m')
    (hfirst : ∀ j b, f.buffers[j]? = some b → ∀ m ∈ extra j ++ b.line,
      ¬ m.precedes message.received) : Orderly (f.enqueue queue message) acts extra := by
  refine ⟨h.sorted, h.received, h.sole, fun j b hb m hm queue' m' hput => ?_,
    fun queue' m hput hqos => ?_, h.direct, h.flights, fun queue' m m' earlier hlt hput hsuf => ?_⟩
  · rcases List.mem_cons.1 hput with he | hput
    · cases he
      exact hfirst j b hb m hm
    · exact h.behind j b hb m hm queue' m' hput
  · rcases List.mem_cons.1 hput with he | hput
    · cases he
      exact hnum hqos
    · exact h.put queue' m hput hqos
  · rcases List.suffix_cons_iff.1 hsuf with he | hsuf
    · -- the new entry is that of the younger message
      cases he
      rcases List.mem_cons.1 hput with he | hput
      · cases he
        exact absurd hlt.2.2.2 (Nat.lt_irrefl _)
      · exact hput
    · rcases List.mem_cons.1 hput with he | hput
      · cases he
        exact absurd hlt (hlast _ m' (hsuf.subset List.mem_cons_self))
      · exact h.ordered queue' m m' earlier hlt hput hsuf

/-- A message of another QoS precedes none. -/
theorem not_precedes_of_qos {m : Received} (hqos : m.packet.qos ≠ .atLeastOnce) (m' : Received) :
    ¬ m.precedes m' ∧ ¬ m'.precedes m :=
  ⟨fun h => hqos h.1, fun h => hqos h.2.1⟩

/-- `_deliver` of a message that may go first. -/
theorem Orderly.handOver {f : InboundPublishFlow} {acts : List Act}
    {extra : Nat → List Received} (h : Orderly f acts extra) {r : InboundRecipient}
    {callback : Option AckCallback}
    (hturn : r.message.packet.qos = .atLeastOnce → r.queue ≠ none →
      r.message.num < f.received ∧
      (∀ queue m', .enqueued queue m' ∈ f.trace → ¬ r.message.precedes m') ∧
      ∀ j b, f.buffers[j]? = some b → ∀ m ∈ extra j ++ b.line, ¬ m.precedes r.message) :
    Orderly (f.handOver r callback) acts extra := by
  rcases f.handOver_cases r callback with ⟨-, he⟩ | ⟨request, -, he⟩ | ⟨filter, entry, hreq, hsub, he⟩ <;>
    rw [he]
  · exact h
  · exact h.calm (l := [_]) (fun _ _ hmem => by cases List.mem_singleton.1 hmem) rfl rfl rfl
      h.flights fun _ _ hact _ => hact
  · have hqueue : r.queue ≠ none := by
      rw [InboundRecipient.queue, hreq, hsub]
      exact Option.some_ne_none _
    by_cases hqos : r.message.packet.qos = .atLeastOnce
    · obtain ⟨hnum, hlast, hfirst⟩ := hturn hqos hqueue
      exact h.enqueue (fun _ => hnum) hlast hfirst
    · exact h.enqueue (fun h' => absurd h' hqos) (fun _ m' _ => (not_precedes_of_qos hqos m').1)
        fun _ _ _ m _ => (not_precedes_of_qos hqos m).2

theorem Orderly.startAuto {f : InboundPublishFlow} {acts : List Act}
    {extra : Nat → List Received} (h : Orderly f acts extra) {pid : Int} {r : InboundRecipient}
    (hqos : r.message.packet.qos = .exactlyOnce) : Orderly (f.startAuto pid r) acts extra := by
  refine h.calm (l := [.started r]) (fun _ _ hmem => by cases List.mem_singleton.1 hmem) rfl rfl rfl
    (fun pid' flight hget hdel => ?_) fun _ _ hact _ => hact
  have hset : (f.startAuto pid r).inflightQos2In.get? pid' =
      if pid = pid' then some { recipient := r } else f.inflightQos2In.get? pid' :=
    Dict.get?_set _ _ pid' _
  rw [hset] at hget
  split at hget
  · obtain rfl := Option.some.inj hget
    exact hqos
  · exact h.flights pid' flight hget hdel

theorem Orderly.startManual {f : InboundPublishFlow} {acts : List Act}
    {extra : Nat → List Received} (h : Orderly f acts extra) (pid : Int) {r : InboundRecipient} :
    Orderly (f.startManual pid r) acts extra :=
  h.calm (l := [.started r]) (fun _ _ hmem => by cases List.mem_singleton.1 hmem) rfl rfl rfl
    h.flights fun _ _ hact _ => hact

/-! ## Drains -/

/-- The message has a subscription with a free slot. -/
def hasRoom (f : InboundPublishFlow) (env : Environment) (m : Received) : Prop :=
  ∃ queue, (f.selectRecipient env m).queue = some queue ∧ f.queueFull queue = false

/-- A subscription that would get the second message would get the first, unless a request
    takes that one. -/
def sameRoute (f : InboundPublishFlow) (env : Environment) (m m' : Received) : Prop :=
  ∀ queue, (f.selectRecipient env m').queue = some queue →
    (f.selectRecipient env m).queue = some queue ∨ env.claim m.num ≠ none

/-- Of the messages `coming`, no one finds room that a message set aside precedes, and those
    of a topic have one route. -/
def InTurn (f : InboundPublishFlow) (env : Environment) (aside coming : List Received) : Prop :=
  (∀ m ∈ aside, ∀ m' ∈ coming, m.precedes m' → ¬ f.hasRoom env m') ∧
    ∀ m ∈ coming, ∀ m' ∈ coming, m.precedes m' → f.sameRoute env m m'

/-- The index is the same, and no queue has lost a message. -/
structure Fuller (f f' : InboundPublishFlow) : Prop where
  subscriptions : f'.subscriptions = f.subscriptions
  full : ∀ queue, f.queueFull queue = true → f'.queueFull queue = true

theorem Fuller.selectRecipient {f f' : InboundPublishFlow} (h : Fuller f f') (env : Environment)
    (m : Received) : f'.selectRecipient env m = f.selectRecipient env m := by
  unfold InboundPublishFlow.selectRecipient InboundPublishFlow.selectSubscription
  rw [h.subscriptions]

theorem InTurn.fuller {f f' : InboundPublishFlow} {env : Environment}
    {aside coming : List Received} (h : f.InTurn env aside coming) (hf : Fuller f f') :
    f'.InTurn env aside coming := by
  refine ⟨fun m hm m' hm' hlt hroom => ?_, fun m hm m' hm' hlt queue => ?_⟩
  · obtain ⟨queue, hq, hfree⟩ := hroom
    rw [hf.selectRecipient] at hq
    refine h.1 m hm m' hm' hlt ⟨queue, hq, ?_⟩
    by_contra hfull
    rw [hf.full queue (Bool.eq_true_of_not_eq_false hfull)] at hfree
    cases hfree
  · rw [hf.selectRecipient, hf.selectRecipient]
    exact h.2 m hm m' hm' hlt queue

theorem InTurn.subset {f : InboundPublishFlow} {env : Environment}
    {aside coming coming' : List Received} (h : f.InTurn env aside coming)
    (hsub : coming' ⊆ coming) : f.InTurn env aside coming' :=
  ⟨fun m hm m' hm' => h.1 m hm m' (hsub hm'),
    fun m hm m' hm' => h.2 m (hsub hm) m' (hsub hm')⟩

theorem queueFull_iff {f : InboundPublishFlow} {queue : Nat} : f.queueFull queue = true ↔
    f.maxsize queue ≠ 0 ∧ f.maxsize queue ≤ (f.queues queue).length := by
  rw [queueFull, Bool.and_eq_true, decide_eq_true_iff, decide_eq_true_iff]

theorem fuller_handOver (f : InboundPublishFlow) (r : InboundRecipient)
    (callback : Option AckCallback) : Fuller f (f.handOver r callback) := by
  rcases f.handOver_cases r callback with ⟨-, he⟩ | ⟨request, -, he⟩ | ⟨filter, entry, -, -, he⟩ <;>
    rw [he]
  · exact ⟨rfl, fun _ => id⟩
  · exact ⟨rfl, fun _ => id⟩
  · refine ⟨rfl, fun queue hfull => ?_⟩
    obtain ⟨hpos, hle⟩ := queueFull_iff.1 hfull
    refine queueFull_iff.2 ⟨hpos, hle.trans ?_⟩
    simp only [InboundPublishFlow.enqueue, Function.update_apply]
    split
    · next he =>
      rw [he, List.length_append]
      exact Nat.le_add_right _ _
    · exact Nat.le_refl _

theorem HandsOn.fuller {f f' : InboundPublishFlow} {r : InboundRecipient} (h : HandsOn f r f') :
    Fuller f f' := by
  cases h with
  | qos0 _ => exact f.fuller_handOver r _
  | qos1Auto pid _ => exact ⟨(f.fuller_handOver r _).1, (f.fuller_handOver r _).2⟩
  | qos1Manual pid _ _ => exact f.fuller_handOver r _
  | qos2Auto pid _ _ _ => exact ⟨rfl, fun _ => id⟩
  | qos2Manual pid _ _ _ =>
    have hover := (f.startManual pid r).fuller_handOver r (some (.pubrec pid r))
    exact ⟨hover.1, hover.2⟩

/-- A recipient with a queue waits for that queue only. -/
theorem mustWait_of_queue {f : InboundPublishFlow} {r : InboundRecipient} {queue : Nat}
    (h : r.queue = some queue) : f.mustWait r = f.queueFull queue := by
  unfold InboundRecipient.queue at h
  unfold mustWait
  cases hreq : r.request with
  | some request => rw [hreq] at h; cases h
  | none =>
    rw [hreq] at h
    obtain ⟨item, hsub, rfl⟩ := Option.map_eq_some_iff.1 h
    rw [InboundRecipient.isNobody, hreq, hsub]
    rfl

/-- A claimed message need not wait. -/
theorem mustWait_of_claim {f : InboundPublishFlow} {env : Environment} {m : Received}
    (h : env.claim m.num ≠ none) : f.mustWait (f.selectRecipient env m) = false := by
  obtain ⟨request, hreq⟩ := Option.ne_none_iff_exists'.1 h
  rw [selectRecipient, hreq]
  rfl

/-- The first message has to wait, and those of its topic behind it have no room. -/
theorem InTurn.setAside {f : InboundPublishFlow} {env : Environment} {m : Received}
    {aside coming : List Received} (h : f.InTurn env aside (m :: coming))
    (hwait : f.mustWait (f.selectRecipient env m) = true) :
    f.InTurn env (aside ++ [m]) coming := by
  refine ⟨fun m₁ hm₁ m₂ hm₂ hlt hroom => ?_, (h.subset (List.subset_cons_self _ _)).2⟩
  rcases List.mem_append.1 hm₁ with hm₁ | hm₁
  · exact h.1 m₁ hm₁ m₂ (List.mem_cons_of_mem _ hm₂) hlt hroom
  · rw [List.mem_singleton.1 hm₁] at hlt
    obtain ⟨queue, hq, hfree⟩ := hroom
    rcases h.2 m List.mem_cons_self m₂ (List.mem_cons_of_mem _ hm₂) hlt queue hq with hsame | hclaim
    · rw [mustWait_of_queue hsame, hfree] at hwait
      cases hwait
    · rw [mustWait_of_claim hclaim] at hwait
      cases hwait

/-- A pass between two messages, with the messages set aside and those to come. -/
def Passing (f : InboundPublishFlow) (env : Environment) (i : Nat)
    (unmatched pending : List Received) : Prop :=
  ∀ b, f.buffers[i]? = some b → f.InTurn env unmatched (pending ++ b.publishes)

theorem Passing.setBuffer {f : InboundPublishFlow} {env : Environment} {i : Nat}
    {unmatched pending pending' : List Received} (h : f.Passing env i unmatched pending)
    {b b' : Buffered} (hb : f.buffers[i]? = some b)
    (hsub : pending' ++ b'.publishes ⊆ pending ++ b.publishes) :
    (f.setBuffer i b').Passing env i unmatched pending' := by
  intro c hc
  rw [getElem?_setBuffer hb] at hc
  obtain rfl := Option.some.inj hc
  have hturn : (f.setBuffer i b').InTurn env unmatched (pending ++ b.publishes) :=
    (h b hb).fuller ⟨rfl, fun _ => id⟩
  exact hturn.subset hsub

theorem publishes_discard (b : Buffered) (m : Received) :
    (b.discard m).1.publishes = b.publishes := by
  unfold Buffered.discard
  split <;> rfl

theorem line_discard (b : Buffered) (m : Received) : (b.discard m).1.line = b.line := by
  unfold Buffered.discard
  split <;> rfl

/-- The message at the front of those to come is handed on. -/
theorem Orderly.handsOn {f f' : InboundPublishFlow} {acts : List Act} {env : Environment}
    {i : Nat} {b : Buffered} {unmatched pending : List Received} {m : Received}
    (h : Orderly f acts (only i (unmatched ++ m :: pending)))
    (hpass : f.Passing env i unmatched (m :: pending)) (hb : f.Unlocked i b)
    (hroom : f.mustWait (f.selectRecipient env m) = false)
    (hands : HandsOn f (f.selectRecipient env m) f') :
    Orderly f' acts (only i (unmatched ++ m :: pending)) := by
  have hmsg := f.message_selectRecipient env m
  have hline : m ∈ only i (unmatched ++ m :: pending) i ++ b.line := by
    rw [only_self]
    exact List.mem_append_left _ (List.mem_append_right _ List.mem_cons_self)
  -- who precedes the message was handed on, or waits for no room
  have hfirst : ∀ {queue : Nat}, (f.selectRecipient env m).queue = some queue →
      ∀ j c, f.buffers[j]? = some c → ∀ m' ∈ only i (unmatched ++ m :: pending) j ++ c.line,
        ¬ m'.precedes m := by
    intro queue hq j c hc m' hm' hlt
    obtain rfl : j = i := h.sole j i c b hc hb.1 (List.ne_nil_of_mem hm') (List.ne_nil_of_mem hline)
    obtain rfl := Option.some.inj (hb.1.symm.trans hc)
    have hsorted := h.sorted j b hb.1
    rw [only_self, List.append_assoc, List.cons_append] at hsorted hm'
    rcases List.mem_append.1 hm' with hm' | hm'
    · refine (hpass b hb.1).1 m' hm' m (List.mem_append_left _ List.mem_cons_self) hlt ⟨queue, hq, ?_⟩
      rw [← mustWait_of_queue hq]
      exact hroom
    · rcases List.mem_cons.1 hm' with rfl | hm'
      · exact Nat.lt_irrefl _ hlt.2.2.2
      · have hbefore := (List.pairwise_cons.1 (List.pairwise_append.1 hsorted).2.1).1 m' hm'
        exact Nat.lt_asymm hbefore hlt.2.2.2
  have hturn : (f.selectRecipient env m).message.packet.qos = .atLeastOnce →
      (f.selectRecipient env m).queue ≠ none →
      (f.selectRecipient env m).message.num < f.received ∧
      (∀ queue m', .enqueued queue m' ∈ f.trace →
        ¬ (f.selectRecipient env m).message.precedes m') ∧
      ∀ j c, f.buffers[j]? = some c → ∀ m' ∈ only i (unmatched ++ m :: pending) j ++ c.line,
        ¬ m'.precedes (f.selectRecipient env m).message := by
    intro _ hne
    obtain ⟨queue, hq⟩ := Option.ne_none_iff_exists'.1 hne
    rw [hmsg]
    exact ⟨h.received i b hb.1 m hline, h.behind i b hb.1 m hline, hfirst hq⟩
  cases hands with
  | qos0 _ => exact h.handOver hturn
  | qos1Auto pid _ =>
    have hover : Orderly (f.handOver _ none) acts _ := h.handOver hturn
    exact hover.calm (l := [.sent .puback pid _])
      (fun _ _ hmem => by cases List.mem_singleton.1 hmem) rfl rfl rfl hover.flights
      fun _ _ hact _ => hact
  | qos1Manual pid _ _ => exact h.handOver hturn
  | qos2Auto pid hqos _ _ =>
    have hstart : Orderly (f.startAuto pid _) acts _ := h.startAuto hqos
    exact hstart.calm (l := [.sent .pubrec pid _])
      (fun _ _ hmem => by cases List.mem_singleton.1 hmem) rfl rfl rfl hstart.flights
      fun _ _ hact _ => hact
  | qos2Manual pid hqos _ _ =>
    refine (h.startManual pid).handOver fun hone => ?_
    rw [hqos] at hone
    cases hone

theorem Orderly.logDropped {f : InboundPublishFlow} {acts : List Act}
    {extra : Nat → List Received} (h : Orderly f acts extra) (ms : List Received) :
    Orderly (f.logDropped ms) acts extra := by
  refine h.calm (l := ms.map TraceEntry.dropped) (fun queue m hmem => ?_) rfl rfl rfl h.flights
    fun _ _ hact _ => hact
  obtain ⟨m', -, he⟩ := List.mem_map.1 hmem
  cases he

theorem orderly_passRule (env : Environment) (i : Nat) :
    PassRule (fun f => Orderly f f.reader.acts fun _ => [])
      (fun f unmatched pending => Orderly f f.reader.acts (only i (unmatched ++ pending)) ∧
        f.Passing env i unmatched pending ∧ ∃ b, f.Unlocked i b)
      (fun f air => Orderly f f.reader.acts (only i air))
      (fun f unmatched pending m =>
        Orderly f f.reader.acts (only i (unmatched ++ m :: pending)) ∧
          f.Passing env i unmatched pending) env i where
  setAside f unmatched m pending h hwait := by
    refine ⟨?_, fun b hb => ?_, h.2.2⟩
    · rw [List.append_assoc]
      exact h.1
    · exact (h.2.1 b hb).setAside hwait
  refill f b unmatched h hb := by
    rw [List.append_nil] at h
    refine ⟨h.1.setBuffer hb.1 ?_, h.2.1.setBuffer hb.1 ?_, _, hb.setBuffer (by exact hb.2)⟩
    · rw [line_of_holder_none hb.2, line_of_holder_none (by exact hb.2), List.append_nil]
    · rw [List.append_nil]
      exact List.Subset.refl _
  handsOn f f' unmatched m pending h hroom hands := by
    obtain ⟨b, hb⟩ := h.2.2
    rw [hands.reader]
    refine ⟨h.1.handsOn h.2.1 hb hroom hands, fun c hc => ?_⟩
    rw [hands.buffers] at hc
    exact ((h.2.1 c hc).fuller hands.fuller).subset (List.subset_cons_self _ _)
  discarded f b unmatched pending m h hb _ := by
    refine ⟨h.1.setBuffer hb.1 ?_, h.2.setBuffer hb.1 ?_, _, hb.discard m⟩
    · rw [line_discard]
      exact ((List.sublist_cons_self m pending).append_left unmatched).append_right b.line
    · rw [publishes_discard]
      exact List.Subset.refl _
  keyError f b unmatched pending m h hb _ := by
    refine h.1.setBuffer hb.1 ?_
    rw [line_discard]
    exact ((List.sublist_cons_self m pending).append_left unmatched).append_right b.line
  valueError f unmatched m pending h := h.1
  suspend f b caller unmatched pending m h hb := by
    rw [← only_nil i]
    refine h.1.setBuffer hb.1 ?_
    rw [line_of_holder_none hb.2, line_of_holder rfl]
    exact List.Sublist.refl _
  fail f b caller unmatched pending h hb := by
    rw [← only_nil i]
    refine h.setBuffer hb.1 ?_
    rw [(sameContents_endExpiration _ _).line, line_of_holder_none hb.2, line_of_holder_none rfl]
    exact List.Sublist.refl _
  drained f b unmatched h hb := by
    rw [List.append_nil] at h
    rw [← only_nil i]
    have hsub : ([] ++ (b.putBack unmatched).line).Sublist (unmatched ++ b.line) := by
      rw [line_of_holder_none hb.2, line_of_holder_none rfl]
      exact List.Sublist.refl _
    unfold finishDrain
    split
    · obtain ⟨replay, he⟩ := leaveBuffer_eq (f.setBuffer i _) i .idle
      rw [he]
      have hset : Orderly (f.setBuffer i (b.putBack unmatched).cancelExpiration) f.reader.acts
          (only i []) := by
        refine h.1.setBuffer hb.1 ?_
        rw [(sameContents_cancelExpiration _).line]
        exact hsub
      exact hset.congr rfl rfl rfl rfl
    · exact h.1.setBuffer hb.1 hsub
  expired f b unmatched h hb := by
    rw [List.append_nil] at h
    rw [← only_nil i]
    unfold finishExpire
    obtain ⟨replay, he⟩ := leaveBuffer_eq ((f.logDropped _).setBuffer i _) i _
    rw [he]
    have hdrop := h.1.logDropped (b.putBack unmatched).publishes
    have hset : Orderly ((f.logDropped (b.putBack unmatched).publishes).setBuffer i
        ((b.putBack unmatched).empty.endExpiration .expire)) f.reader.acts (only i []) := by
      refine hdrop.setBuffer hb.1 ?_
      rw [(sameContents_endExpiration _ _).line]
      exact List.nil_sublist _
    exact hset.congr rfl rfl rfl rfl

/-! ## The read loop -/

theorem Orderly.runReader {f : InboundPublishFlow} {acts : List Act} (env : Environment)
    (h : Orderly f acts fun _ => []) :
    Orderly (f.runReader env acts) (f.runReader env acts).reader.acts fun _ => [] := by
  refine @runReader_induct (fun f => Orderly f f.reader.acts fun _ => [])
    (fun f acts => Orderly f acts fun _ => []) ?_ ?_ ?_ ?_ env acts f h
  · exact fun f kind pid r acts hP => hP.calm (l := [.sent kind pid r])
      (fun _ _ hmem => by cases List.mem_singleton.1 hmem) rfl rfl rfl hP.flights
      fun _ _ hact _ => List.mem_cons_of_mem _ hact
  · intro f r callback acts hP _
    have hrest : Orderly f acts fun _ => [] :=
      hP.calm (l := []) (fun _ _ hmem => absurd hmem List.not_mem_nil) rfl rfl rfl hP.flights
        fun _ _ hact _ => List.mem_cons_of_mem _ hact
    refine hrest.handOver fun hqos hne => ?_
    obtain ⟨hnum, htopic⟩ := hP.direct r callback List.mem_cons_self hqos hne
    refine ⟨by omega, fun queue m' hput hlt => ?_, fun j b hb m hm hlt => ?_⟩
    · have hold := hP.put queue m' hput hlt.2.1
      have hyoung := hlt.2.2.2
      omega
    · exact htopic j b hb m hm hlt.2.2.1
  · exact fun f hP => hP.congr rfl rfl rfl rfl
  · exact fun f acts hP => hP.congr rfl rfl rfl rfl

/-- A message that is not held back goes past no message of its topic. -/
theorem selectRecipientOrBuffer_direct {f f' : InboundPublishFlow} {env : Environment}
    {m : Received} {r : InboundRecipient}
    (h : f.selectRecipientOrBuffer env m = (f', .recipient r)) (hne : r.queue ≠ none) {i : Nat}
    {b : Buffered} (hreplay : f.replay = .buffered i) (hb : f.buffers[i]? = some b) :
    b.topics.get? m.packet.topic = none := by
  simp only [selectRecipientOrBuffer, hreplay, hb] at h
  unfold Buffered.accept at h
  split_ifs at h with hreq hsub hknown hfull
  · -- claimed by a request
    obtain ⟨request, he⟩ := Option.isSome_iff_exists.1 hreq
    cases h
    rw [InboundRecipient.queue, he] at hne
    exact absurd rfl hne
  · exact Option.isNone_iff_eq_none.1 hsub.2
  all_goals cases h

/-- Only the current object holds messages. -/
theorem Accounts.replay_of_line {f : InboundPublishFlow} (h : f.Accounts fun _ => []) {j : Nat}
    {b : Buffered} (hb : f.buffers[j]? = some b) (hne : b.line ≠ []) :
    f.replay = .buffered j := by
  refine (h j b hb).2 fun he => hne ?_
  rw [List.append_nil] at he
  have hperm := line_perm_owned b
  rw [he] at hperm
  exact hperm.eq_nil

theorem line_append (b : Buffered) (m : Received) : (b.append m).line = b.line ++ [m] := by
  simp only [Buffered.line, Buffered.append]
  cases b.holder with
  | none => rfl
  | some d => exact (List.append_assoc _ _ _).symm

/-- The message taken in is the last of the only line. -/
theorem TakesIn.lines {f f' : InboundPublishFlow} {m : Received} (htakes : TakesIn f m f')
    (hacc : f.Accounts fun _ => []) :
    ∃ (k : Nat) (front : List Received),
      (front = [] ∨ ∃ b : Buffered, f.buffers[k]? = some b ∧ front = b.line) ∧
      ∀ (j : Nat) (c : Buffered), f'.buffers[j]? = some c → (j = k ∧ c.line = front ++ [m]) ∨ (j ≠ k ∧ c.line = []) := by
  cases htakes with
  | new hreplay =>
    refine ⟨f.buffers.length, [], Or.inl rfl, fun j c hc => ?_⟩
    rw [List.getElem?_append] at hc
    split at hc
    · next hlt =>
      refine Or.inr ⟨by omega, ?_⟩
      by_contra hne
      have hcur := hacc.replay_of_line hc hne
      rw [hreplay] at hcur
      cases hcur
    · rw [List.getElem?_singleton] at hc
      split at hc
      · next hj =>
        obtain rfl := Option.some.inj hc
        exact Or.inl ⟨by omega, rfl⟩
      · cases hc
  | old i b hreplay hb _ _ =>
    refine ⟨i, b.line, Or.inr ⟨b, hb, rfl⟩, fun j c hc => ?_⟩
    by_cases hj : j = i
    · subst hj
      have hc' : some (b.append m) = some c := by
        rw [← hc]
        exact (getElem?_setBuffer hb _).symm
      obtain rfl := Option.some.inj hc'
      exact Or.inl ⟨rfl, line_append b m⟩
    · have hc' : f.buffers[j]? = some c := by
        rw [← hc]
        exact (List.getElem?_set_ne (Ne.symm hj)).symm
      refine Or.inr ⟨hj, ?_⟩
      by_contra hne
      have hcur := hacc.replay_of_line hc' hne
      rw [hreplay] at hcur
      cases hcur
      exact hj rfl

/-- The newest message joins the line. -/
theorem Orderly.takesIn {f f' : InboundPublishFlow} {m : Received}
    (h : Orderly f [] fun _ => []) (hacc : f.Accounts fun _ => []) (htakes : TakesIn f m f')
    (hline : ∀ (j : Nat) (b : Buffered), f.buffers[j]? = some b → ∀ m' ∈ b.line, m'.num < m.num)
    (hput : ∀ queue m', .enqueued queue m' ∈ f.trace → m'.packet.qos = .atLeastOnce →
      m'.num < m.num)
    (hnum : m.num < f.received) : Orderly f' [] fun _ => [] := by
  obtain ⟨k, front, hfront, hlines⟩ := htakes.lines hacc
  obtain ⟨htrace, hreceived, hflights⟩ : f'.trace = .buffered m :: f.trace ∧
      f'.received = f.received ∧ f'.inflightQos2In = f.inflightQos2In := by
    cases htakes <;> exact ⟨rfl, rfl, rfl⟩
  have hbase : Orderly (f.log (.buffered m)) [] fun _ => [] :=
    h.calm (l := [.buffered m]) (fun _ _ hmem => by cases List.mem_singleton.1 hmem) rfl rfl rfl
      h.flights fun _ _ hact _ => hact
  -- who is in a line now is the new message or was in one
  have hmem : ∀ (j : Nat) (c : Buffered), f'.buffers[j]? = some c → ∀ m' ∈ c.line, m' = m ∨
      ∃ b : Buffered, f.buffers[k]? = some b ∧ m' ∈ b.line := by
    intro j c hc m' hm'
    rcases hlines j c hc with ⟨-, he⟩ | ⟨-, he⟩
    · rw [he] at hm'
      rcases List.mem_append.1 hm' with hm' | hm'
      · rcases hfront with rfl | ⟨b, hb, rfl⟩
        · cases hm'
        · exact Or.inr ⟨b, hb, hm'⟩
      · exact Or.inl (List.mem_singleton.1 hm')
    · rw [he] at hm'
      cases hm'
  refine ⟨fun j c hc => ?_, fun j c hc m' hm' => ?_, fun j j' c c' hc hc' hne hne' => ?_,
    fun j c hc m' hm' queue m'' hp => ?_, ?_, fun _ _ hact => absurd hact List.not_mem_nil, ?_, ?_⟩
  · rcases hlines j c hc with ⟨-, he⟩ | ⟨-, he⟩
    · rw [List.nil_append, he, List.pairwise_append]
      rcases hfront with rfl | ⟨b, hb, rfl⟩
      · exact ⟨List.Pairwise.nil, List.pairwise_singleton _ _, fun _ hm' => absurd hm' List.not_mem_nil⟩
      · refine ⟨h.sorted k b hb, List.pairwise_singleton _ _, fun m' hm' m'' hm'' => ?_⟩
        rw [List.mem_singleton.1 hm'']
        exact hline k b hb m' hm'
    · rw [List.nil_append, he]
      exact List.Pairwise.nil
  · rw [hreceived]
    rcases hmem j c hc m' hm' with rfl | ⟨b, hb, hm'⟩
    · exact hnum
    · exact h.received k b hb m' hm'
  · rcases hlines j c hc with ⟨rfl, -⟩ | ⟨-, he⟩
    · rcases hlines j' c' hc' with ⟨rfl, -⟩ | ⟨-, he⟩
      · rfl
      · exact absurd he hne'
    · exact absurd he hne
  · rw [htrace] at hp
    rcases hmem j c hc m' hm' with rfl | ⟨b, hb, hm'⟩
    · intro hlt
      rcases List.mem_cons.1 hp with he | hp
      · cases he
      · have hold := hput queue m'' hp hlt.2.1
        have hyoung := hlt.2.2.2
        omega
    · exact hbase.behind k b hb m' hm' queue m'' hp
  · rw [htrace, hreceived]
    exact hbase.put
  · rw [hflights]
    exact h.flights
  · rw [htrace]
    exact hbase.ordered

/-- A new PUBLISH is numbered. -/
theorem Orderly.receive {f : InboundPublishFlow} (h : Orderly f [] fun _ => [])
    (packet : Publish) : Orderly (f.receive packet) [] fun _ => [] := by
  have hlog : Orderly (f.log (.publish (f.nextReceived packet))) [] fun _ => [] :=
    h.calm (l := [_]) (fun _ _ hmem => by cases List.mem_singleton.1 hmem) rfl rfl rfl h.flights
      fun _ _ hact _ => hact
  exact ⟨hlog.sorted, fun j b hb m hm => Nat.lt_succ_of_lt (hlog.received j b hb m hm), hlog.sole,
    hlog.behind, fun queue m hput hqos => Nat.lt_succ_of_lt (hlog.put queue m hput hqos),
    fun _ _ hact => absurd hact List.not_mem_nil, hlog.flights, hlog.ordered⟩

/-- The awaits of a handler that delivers the newest message past no message of its topic. -/
theorem Orderly.deliverNewest {f : InboundPublishFlow} (h : Orderly f [] fun _ => [])
    {acts : List Act} {m : Received}
    (hacts : ∀ r callback, .deliver r callback ∈ acts → r.message.packet.qos = .atLeastOnce →
      r.message = m ∧ (r.queue ≠ none → ∀ (j : Nat) (b : Buffered), f.buffers[j]? = some b →
        ∀ m' ∈ b.line, m'.packet.topic ≠ m.packet.topic))
    (hnum : m.num + 1 = f.received) : Orderly f acts fun _ => [] := by
  refine ⟨h.sorted, h.received, h.sole, h.behind, h.put, fun r callback hact hqos hne => ?_,
    h.flights, h.ordered⟩
  obtain ⟨hmsg, htopic⟩ := hacts r callback hact hqos
  rw [hmsg]
  exact ⟨hnum, htopic hne⟩

/-- What is held back is not of the topic of a message delivered at once. -/
theorem handleQos1Publish_direct {f f' : InboundPublishFlow} {env : Environment} {m : Received}
    {acts : List Act} (hacc : f.Accounts fun _ => [])
    (h : f.handleQos1Publish env m = .ok (f', acts)) (hne : acts ≠ [])
    (hqueue : (f.selectRecipient env m).queue ≠ none) {j : Nat} {b : Buffered}
    (hb : f.buffers[j]? = some b) {m' : Received} (hm' : m' ∈ b.line) :
    m'.packet.topic ≠ m.packet.topic := by
  have hreplay := hacc.replay_of_line hb (List.ne_nil_of_mem hm')
  have hfree : b.topics.get? m.packet.topic = none := by
    unfold handleQos1Publish at h
    split at h
    · cases h
    · split at h
      · cases h
        exact absurd rfl hne
      · rcases f.selectRecipientOrBuffer_cases env m with hs | ⟨f₁, hs, -⟩ | hs | hs
        · exact selectRecipientOrBuffer_direct hs hqueue hreplay hb
        all_goals
          rw [hs] at h
          cases h
          try exact absurd rfl hne
  intro htopic
  have hok := (hacc j b hb).1.topics m.packet.topic
  rw [hfree, List.append_nil] at hok
  have hpos : 0 < b.owned.countP (onTopic m.packet.topic) :=
    List.countP_pos_iff.2 ⟨m', (line_perm_owned b).mem_iff.1 hm', decide_eq_true htopic⟩
  rw [if_neg (by omega)] at hok
  cases hok

theorem Orderly.stop {f : InboundPublishFlow} {acts : List Act} (h : Orderly f acts fun _ => [])
    (e : Option InboundError) : Orderly { f with reader := .stopped e } [] fun _ => [] :=
  h.calm (l := []) (fun _ _ hmem => absurd hmem List.not_mem_nil) rfl rfl rfl h.flights
    fun _ _ hact _ => absurd hact List.not_mem_nil

theorem Orderly.receivePublish {f : InboundPublishFlow} (env : Environment) (packet : Publish)
    (hlive : f.Live fun _ => []) (h : Orderly f f.reader.acts fun _ => []) :
    Orderly (f.receivePublish env packet) (f.receivePublish env packet).reader.acts
      fun _ => [] := by
  unfold InboundPublishFlow.receivePublish
  split
  · next hreader =>
    rw [hreader] at h
    have hrun : f.reader.isStopped = false := by rw [hreader]; rfl
    have hrec := h.receive packet
    have hacc : (f.receive packet).Accounts fun _ => [] := (hlive hrun).congr rfl rfl
    have hmsg := (f.receive packet).message_selectRecipient env (f.nextReceived packet)
    have hother : ∀ {f' : InboundPublishFlow} {acts : List Act}, Orderly f' [] (fun _ => []) →
        (∀ r callback, .deliver r callback ∈ acts → r.message.packet.qos ≠ .atLeastOnce) →
        Orderly (f'.runReader env acts) (f'.runReader env acts).reader.acts fun _ => [] := by
      intro f' acts hf' hacts
      refine Orderly.runReader env (hf'.calm (l := [])
        (fun _ _ hmem => absurd hmem List.not_mem_nil) rfl rfl rfl hf'.flights
        fun r callback hact hqos => absurd hqos (hacts r callback hact))
    have hdirect : ∀ {acts : List Act}, (f.nextReceived packet).packet.qos = .atLeastOnce →
        (f.receive packet).handlePublish env (f.nextReceived packet) =
          .ok (f.receive packet, acts) →
        (∀ r callback, .deliver r callback ∈ acts →
          r = (f.receive packet).selectRecipient env (f.nextReceived packet)) →
        Orderly ((f.receive packet).runReader env acts)
          ((f.receive packet).runReader env acts).reader.acts fun _ => [] := by
      intro acts hqos hhandle hacts
      rw [handlePublish, hqos] at hhandle
      refine Orderly.runReader env (hrec.deliverNewest (m := f.nextReceived packet) ?_ rfl)
      intro r callback hact _
      have hr := hacts r callback hact
      refine ⟨by rw [hr, hmsg], fun hne j b hb m' hm' => ?_⟩
      rw [hr] at hne
      exact handleQos1Publish_direct hacc hhandle (List.ne_nil_of_mem hact) hne hb hm'
    unfold dispatch
    split
    · exact hrec.stop _
    · next f' acts hhandle =>
      cases handlePublish_cases hhandle with
      | ignored => exact hrec.runReader env
      | takesIn htakes _ =>
        refine Orderly.runReader env (hrec.takesIn hacc htakes ?_ ?_ (Nat.lt_succ_self _))
        · exact fun j b hb m' hm' => h.received j b hb m' hm'
        · intro queue m' hput hqos
          rcases List.mem_cons.1 hput with he | hput
          · cases he
          · exact h.put queue m' hput hqos
      | qos0 hqos =>
        refine hother hrec fun r callback hact => ?_
        cases List.mem_singleton.1 hact
        rw [hmsg, hqos]
        simp
      | qos1Auto pid hqos =>
        refine hdirect hqos hhandle fun r callback hact => ?_
        rcases List.mem_cons.1 hact with he | hact
        · cases he
          rfl
        · cases List.mem_singleton.1 hact
      | qos1Manual pid hqos _ =>
        refine hdirect hqos hhandle fun r callback hact => ?_
        cases List.mem_singleton.1 hact
        rfl
      | qos2Again pid flight _ _ _ =>
        refine hother hrec fun r callback hact => ?_
        cases List.mem_singleton.1 hact
      | qos2Auto pid hqos _ _ _ =>
        refine hother (hrec.startAuto (by rw [hmsg]; exact hqos)) fun r callback hact => ?_
        cases List.mem_singleton.1 hact
      | qos2Manual pid hqos _ _ _ =>
        refine hother (hrec.startManual pid) fun r callback hact => ?_
        cases List.mem_singleton.1 hact
        rw [hmsg, hqos]
        simp
  all_goals exact h

theorem Orderly.receivePubrel {f : InboundPublishFlow} (env : Environment) (pid : Int)
    (h : Orderly f f.reader.acts fun _ => []) :
    Orderly (f.receivePubrel env pid) (f.receivePubrel env pid).reader.acts fun _ => [] := by
  unfold InboundPublishFlow.receivePubrel
  split
  · next hreader =>
    rw [hreader] at h
    have hlog : Orderly (f.log (.pubrel pid)) [] fun _ => [] :=
      h.calm (l := [.pubrel pid]) (fun _ _ hmem => by cases List.mem_singleton.1 hmem) rfl rfl rfl
        h.flights fun _ _ hact _ => hact
    unfold handlePubrel
    split
    · exact hlog.stop _
    · next flight hflight =>
      refine Orderly.runReader env (hlog.calm (l := [])
        (fun _ _ hmem => absurd hmem List.not_mem_nil) rfl rfl rfl (fun pid' flight' hget => ?_)
        fun r callback hact hqos => ?_)
      · have hpop : ((f.log (.pubrel pid)).popFlight pid).inflightQos2In.get? pid' =
            if pid = pid' then none else f.inflightQos2In.get? pid' := Dict.get?_pop _ _ pid'
        rw [hpop] at hget
        split at hget
        · cases hget
        · exact h.flights pid' flight' hget
      · -- the message of the flight is one of QoS 2
        rcases List.mem_cons.1 hact with he | hact
        · cases he
        · split at hact
          · cases hact
          · next hdel =>
            cases List.mem_singleton.1 hact
            rw [h.flights pid flight hflight (Bool.not_eq_true _ ▸ hdel)] at hqos
            cases hqos
  all_goals exact h

theorem Orderly.ack {f : InboundPublishFlow} {acts : List Act} (h : Orderly f acts fun _ => [])
    (k : Nat) : Orderly (f.ack k) acts fun _ => [] := by
  unfold InboundPublishFlow.ack
  split
  · exact h
  · next message _ =>
    split
    · exact h
    · unfold runCallback
      split
      · exact h.calm (l := [_]) (fun _ _ hmem => by cases List.mem_singleton.1 hmem) rfl rfl rfl
          h.flights fun _ _ hact _ => hact
      · next pid acked r _ =>
        cases acked with
        | true =>
          exact h.calm (l := [_]) (fun _ _ hmem => by cases List.mem_singleton.1 hmem) rfl rfl rfl
            h.flights fun _ _ hact _ => hact
        | false =>
          refine h.calm (l := [.sent .puback pid r, .acked message.received]) (fun _ _ hmem => ?_)
            rfl rfl rfl h.flights fun _ _ hact _ => hact
          rcases List.mem_cons.1 hmem with he | hmem
          · cases he
          · cases List.mem_singleton.1 hmem
      · next pid r _ =>
        refine h.calm (l := [.sent .pubrec pid r, .acked message.received]) (fun _ _ hmem => ?_)
          rfl rfl rfl (fun pid' flight hget hdel => ?_) fun _ _ hact _ => hact
        · rcases List.mem_cons.1 hmem with he | hmem
          · cases he
          · cases List.mem_singleton.1 hmem
        · have hset : (f.inflightQos2In.set pid { recipient := r, delivered := true }).get? pid' =
              if pid = pid' then some { recipient := r, delivered := true }
                else f.inflightQos2In.get? pid' := Dict.get?_set _ _ pid' _
          rw [hset] at hget
          split at hget
          · obtain rfl := Option.some.inj hget
            cases hdel
          · exact h.flights pid' flight hget hdel

/-! ## Steps -/

/-- Whenever a task starts or goes on to deliver, no message finds room that one set aside
    precedes, and the messages of a topic have one route; `clear` is called when the read
    loop has ended, as `run` does. -/
def inTurn (f : InboundPublishFlow) (e : InboundEvent) : Prop :=
  (∀ i env b, e = .acquireLock i env → f.buffers[i]? = some b → b.holder = none →
    f.InTurn env [] b.publishes) ∧
  (∀ i env b d, e = .resumeDelivery i env → f.buffers[i]? = some b → b.holder = some d →
    f.InTurn env d.unmatched (d.pending ++ b.publishes)) ∧
  (e = .clear → f.reader.isStopped = true)

theorem Orderly.interruptDelivery {f : InboundPublishFlow}
    (h : Orderly f f.reader.acts fun _ => []) (i : Nat) :
    Orderly (f.interruptDelivery i) (f.interruptDelivery i).reader.acts fun _ => [] := by
  refine (orderly_passRule {} i).interruptDelivery h fun b d hb hd => ?_
  rw [← only_nil i] at h
  refine h.setBuffer hb ?_
  rw [line_of_holder hd, line_of_holder_none rfl]
  simp

theorem Orderly.step {f : InboundPublishFlow} {e : InboundEvent} (hidle : f.IdleRest)
    (hlive : f.Live fun _ => []) (h : Orderly f f.reader.acts fun _ => []) (hok : f.inTurn e) :
    Orderly (f.step e) (f.step e).reader.acts fun _ => [] := by
  have hwaiting : (e = .drain ∨ (∃ i, e = .expire i) ∨ ∃ i k, e = .cancelWaiter i k) →
      Orderly (f.step e) (f.step e).reader.acts fun _ => [] := fun he => by
    rcases f.waiting_cases he with heq | ⟨i, b, b', hb, hsame, heq⟩ <;> rw [heq]
    · exact h
    · rw [← only_nil i] at h ⊢
      refine h.setBuffer hb ?_
      rw [hsame.line]
  cases e with
  | publish packet env => exact h.receivePublish env packet hlive
  | pubrel pid env => exact h.receivePubrel env pid
  | resumeReader env =>
    rw [InboundPublishFlow.step, resumeReader]
    split
    · next acts hreader =>
      rw [hreader] at h
      exact h.runReader env
    all_goals exact h
  | interruptReader =>
    rw [InboundPublishFlow.step, interruptReader]
    split
    · exact h
    all_goals exact h.stop none
  | ack k =>
    have hreader : (f.ack k).reader = f.reader := by
      rcases f.ack_cases k with he | ⟨message, _, _, ⟨he, -⟩ | ⟨pid, r, -, he⟩ | ⟨pid, r, _, he⟩⟩ <;>
        rw [he] <;> rfl
    rw [InboundPublishFlow.step, hreader]
    exact h.ack k
  | get queue => exact h.congr rfl rfl rfl rfl
  | subscriptions index => exact h.congr rfl rfl rfl rfl
  | drain => exact hwaiting (Or.inl rfl)
  | expire i => exact hwaiting (Or.inr (Or.inl ⟨i, rfl⟩))
  | cancelWaiter i k => exact hwaiting (Or.inr (Or.inr ⟨i, k, rfl⟩))
  | acquireLock i env =>
    refine (orderly_passRule env i).acquireLock h fun b waiters hb hd => ⟨?_, ?_, ?_⟩
    · rw [← only_nil i] at h
      exact h.setBuffer hb (List.Sublist.refl _)
    · have hpass : f.Passing env i [] [] := fun c hc => by
        obtain rfl := Option.some.inj (hb.symm.trans hc)
        exact hok.1 i env b rfl hb hd
      exact hpass.setBuffer hb (List.Subset.refl _)
    · exact ⟨_, getElem?_setBuffer hb _, hd⟩
  | resumeDelivery i env =>
    by_cases hkeep : ∀ b d, f.buffers[i]? = some b → b.holder = some d → d.cancelled = false
    · refine (orderly_passRule env i).resumeDelivery hidle h hkeep fun b d hb hd => ⟨?_, ?_⟩
      · rw [← only_nil i] at h
        refine h.setBuffer hb ?_
        rw [line_of_holder hd, line_of_holder_none rfl]
        exact List.Sublist.refl _
      · have hpass : f.Passing env i d.unmatched d.pending := fun c hc => by
          obtain rfl := Option.some.inj (hb.symm.trans hc)
          exact hok.2.1 i env b d rfl hb hd
        exact hpass.setBuffer hb (List.Subset.refl _)
    · rw [InboundPublishFlow.step, resumeDelivery_of_cancelled hkeep]
      exact h.interruptDelivery i
  | interruptDelivery i => exact h.interruptDelivery i
  | clear =>
    rw [InboundPublishFlow.step, InboundPublishFlow.clear]
    split
    · exact h
    · exact h.congr rfl rfl rfl rfl
    · next i _ =>
      split
      · exact h.congr rfl rfl rfl rfl
      · next b hb =>
        have hdrop := h.logDropped b.publishes
        have hset : Orderly ((f.logDropped b.publishes).setBuffer i b.cancelExpiration.empty)
            f.reader.acts (only i []) := by
          rw [← only_nil i] at hdrop
          refine hdrop.setBuffer hb ?_
          rw [← (sameContents_cancelExpiration b).line]
          unfold Buffered.line Buffered.empty
          dsimp only
          split
          · exact List.nil_sublist _
          · exact List.Sublist.append_left (List.nil_sublist _) _
        rw [only_nil] at hset
        exact hset.congr rfl rfl rfl rfl

theorem orderly_fresh (bufferSize : Nat) (maxsize : Nat → Nat) (sessionPresent : Bool) :
    Orderly (fresh bufferSize maxsize sessionPresent) [] fun _ => [] := by
  refine ⟨fun _ _ hb => ?_, fun _ _ hb => ?_, fun _ _ _ _ hb => ?_, fun _ _ hb => ?_,
    fun _ _ hput => ?_, fun _ _ hact => ?_, fun _ _ hget => ?_, fun _ _ _ _ _ hput => ?_⟩
  · cases hb
  · cases hb
  · cases hb
  · cases hb
  · exact absurd hput List.not_mem_nil
  · exact absurd hact List.not_mem_nil
  · cases hget
  · exact absurd hput List.not_mem_nil

/-- **Order of a topic.** If no drain lets a message pass one of its topic that was set aside,
    the QoS 1 messages of a topic reach a queue in the order of their receipt. -/
theorem topics_in_order (bufferSize : Nat) (maxsize : Nat → Nat) (f : InboundPublishFlow)
    (h : Reach step inTurn (fresh bufferSize maxsize true) f) : InTopicOrder f.trace := by
  have hinv : f.IdleRest ∧ (f.Live fun _ => []) ∧ Orderly f f.reader.acts fun _ => [] := by
    refine Reach.invariant (I := fun f => f.IdleRest ∧ (f.Live fun _ => []) ∧
      Orderly f f.reader.acts fun _ => []) h
      ⟨idleRest_fresh _ _ _, fun _ j b hb => (by cases hb), orderly_fresh _ _ _⟩ fun f e hf hok => ?_
    exact ⟨hf.1.step e, hf.2.1.step hf.1 hok.2.2, hf.2.2.step hf.1 hf.2.1 hok⟩
  exact hinv.2.2.ordered

/-- Messages of a topic with the same subscription identifier, or none, have one route. -/
theorem sameRoute_of_identifier (f : InboundPublishFlow) (env : Environment) {m m' : Received}
    (htopic : m.packet.topic = m'.packet.topic)
    (hid : (m.packet.properties.bind fun p => p.subscriptionIdentifier) =
      m'.packet.properties.bind fun p => p.subscriptionIdentifier) : f.sameRoute env m m' := by
  intro queue hq
  cases hclaim : env.claim m.num with
  | some request => exact Or.inr (Option.some_ne_none _)
  | none =>
    refine Or.inl ?_
    rw [selectRecipient, hclaim, ← hq, selectRecipient]
    cases hclaim' : env.claim m'.num with
    | some request =>
      rw [selectRecipient, hclaim'] at hq
      cases hq
    | none =>
      simp only [selectSubscription, htopic, hid]
      rfl

/-- Two messages are held, delivered, and followed by one that arrives later. -/
def steadyRun : List InboundEvent :=
  [.publish (publishA .atLeastOnce (some 1)) {}, .publish (publishA .atLeastOnce (some 2)) {},
    .subscriptions (indexA true), .drain, .acquireLock 0 {},
    .publish (publishA .atLeastOnce (some 3)) {}]

theorem topics_in_order_steadyRun :
    ((steadyRun.foldl step (fresh 10 (fun _ => 0) true)).queues 0).length = 3 ∧
    InTopicOrder (steadyRun.foldl step (fresh 10 (fun _ => 0) true)).trace := by
  refine ⟨by decide +kernel, topics_in_order 10 (fun _ => 0) _ (Reach.foldl ?_)⟩
  have hplain : ∀ b ∈ ((steadyRun.take 4).foldl step (fresh 10 (fun _ => 0) true)).buffers,
      ∀ m ∈ b.publishes, m.packet.properties = none := by decide +kernel
  have hquiet : ∀ f : InboundPublishFlow, ∀ e : InboundEvent, (∀ i env, e ≠ .acquireLock i env) →
      (∀ i env, e ≠ .resumeDelivery i env) → e ≠ .clear → f.inTurn e := fun f e h₁ h₂ h₃ =>
    ⟨fun i env _ he => absurd he (h₁ i env), fun i env _ _ he => absurd he (h₂ i env),
      fun he => absurd he h₃⟩
  refine ⟨?_, ?_, ?_, ?_, ⟨?_, ?_, ?_⟩, ?_, trivial⟩
  · exact hquiet _ _ (by simp) (by simp) (by simp)
  · exact hquiet _ _ (by simp) (by simp) (by simp)
  · exact hquiet _ _ (by simp) (by simp) (by simp)
  · exact hquiet _ _ (by simp) (by simp) (by simp)
  · intro i env b _ hb _
    refine ⟨fun m hm => absurd hm List.not_mem_nil, fun m hm m' hm' hlt => ?_⟩
    have hmem := List.mem_of_getElem? hb
    refine sameRoute_of_identifier _ _ hlt.2.2.1 ?_
    rw [hplain b hmem m hm, hplain b hmem m' hm']
  · exact fun i env b d he => by cases he
  · exact fun he => by cases he
  · exact hquiet _ _ (by simp) (by simp) (by simp)

def indexB : SubscriptionIndex :=
  ({} : SubscriptionIndex).add "b" { queue := 1, autoAck := true, actualFilter := "b" }

def indexAB : SubscriptionIndex :=
  indexB.add "a" { queue := 0, autoAck := true, actualFilter := "a" }

/-- Messages on `a`, `b` and `a` are held. A drain finds `a` without a recipient, delivers the
    message on `b` and is suspended in its PUBACK, when the subscription to `a` starts and
    calls for a second drain. -/
def lateSubscriptionRun : List InboundEvent :=
  [.publish (publishA .atLeastOnce (some 1)) {},
    .publish { publishA .atLeastOnce (some 2) with topic := "b" } {},
    .publish (publishA .atLeastOnce (some 3)) {}, .subscriptions indexB, .drain,
    .acquireLock 0 slowWrites, .subscriptions indexAB, .drain, .resumeDelivery 0 {},
    .acquireLock 0 {}]

/-- The second message on `a` is put into the queue before the first. -/
theorem topics_out_of_order :
    ¬ (∀ f, Reach step anyStep (fresh 10 (fun _ => 0) true) f → InTopicOrder f.trace) ∧
    ((lateSubscriptionRun.foldl step (fresh 10 (fun _ => 0) true)).trace.filterMap fun entry =>
      match entry with
      | .enqueued queue m => some (queue, m.packet.packetId)
      | _ => none) = [(0, some 1), (0, some 3), (1, some 2)] := by
  refine ⟨fun h => ?_, by decide +kernel⟩
  have hall := h _ (Reach.foldl (meets_anyStep lateSubscriptionRun))
  have hput : TraceEntry.enqueued 0 ⟨0, 0, publishA .atLeastOnce (some 1)⟩ ∈
      (lateSubscriptionRun.foldl step (fresh 10 (fun _ => 0) true)).trace := by decide +kernel
  obtain ⟨earlier, hsuf, hno⟩ : ∃ earlier : List TraceEntry,
      (TraceEntry.enqueued 0 ⟨2, 0, publishA .atLeastOnce (some 3)⟩ :: earlier) <:+
        (lateSubscriptionRun.foldl step (fresh 10 (fun _ => 0) true)).trace ∧
      TraceEntry.enqueued 0 ⟨0, 0, publishA .atLeastOnce (some 1)⟩ ∉ earlier :=
    ⟨((lateSubscriptionRun.take 8).foldl step (fresh 10 (fun _ => 0) true)).trace,
      by decide +kernel, by decide +kernel⟩
  refine hno (hall 0 _ ⟨2, 0, publishA .atLeastOnce (some 3)⟩ earlier ?_ hput hsuf)
  exact ⟨rfl, rfl, rfl, by decide⟩

end InboundPublishFlow

end Zmqtt
