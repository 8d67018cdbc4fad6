/-
  Final acknowledgements of the inbound flow: PUBACK for QoS 1, PUBCOMP for QoS 2.

  A QoS 1 message, a manually acknowledged message and a replayed message are put into the
  queue of their subscription before the final acknowledgement is written. `handle_pubrel`
  writes PUBCOMP first and puts an automatically acknowledged message into the queue after
  it: when the write suspends, or the queue is full, the acknowledgement is on the wire while
  the message is only in the suspended handler (`final_ack_before_delivery`). In runs where
  this does not happen, every final acknowledgement on the wire belongs to a message in its
  queue (`final_acks_delivered`).
-/
import Zmqtt.Inbound.Steps

namespace Zmqtt

/-- The acknowledgement that ends the receive flow of a message. -/
def AckKind.isFinal : AckKind → Bool
  | puback | pubcomp => true
  | pubrec => false

/-- The message was put into the queue of the selected subscription, if there is one. -/
def PutFor (trace : List TraceEntry) (r : InboundRecipient) : Prop :=
  ∀ queue, r.queue = some queue → .enqueued queue r.message ∈ trace

theorem PutFor.mono {trace trace' : List TraceEntry} {r : InboundRecipient}
    (h : PutFor trace r) (hsub : trace ⊆ trace') : PutFor trace' r :=
  fun queue hq => hsub (h queue hq)

theorem no_callback {r : InboundRecipient} (c : AckCallback)
    (h : (none : Option AckCallback) = some c) : c.recipient = r := by
  cases h

theorem not_final {p : Prop} (h : AckKind.pubrec.isFinal = true) : p := by
  cases h

namespace InboundPublishFlow

/-- Every message whose final acknowledgement was sent is in the queue of its subscription
    or was taken from there. -/
def FinalAcksDelivered (f : InboundPublishFlow) : Prop :=
  ∀ kind pid r, .sent kind pid r ∈ f.trace → kind.isFinal = true → PutFor f.trace r

/-- No handler still has to deliver what the tables and messages say was delivered. -/
structure AcksBacked (f : InboundPublishFlow) : Prop where
  sent : f.FinalAcksDelivered
  messages : ∀ message ∈ f.messages, ∀ c, message.ackCallback = some c → PutFor f.trace c.recipient
  flights : ∀ pid flight, f.inflightQos2In.get? pid = some flight → flight.delivered = true →
    PutFor f.trace flight.recipient

/-- The trace after a delivery. -/
def putTrace (trace : List TraceEntry) (r : InboundRecipient) : List TraceEntry :=
  match r.queue with
  | none => trace
  | some queue => .enqueued queue r.message :: trace

/-- A handler delivers before it sends a final acknowledgement. -/
def Ready : List TraceEntry → List Act → Prop
  | _, [] => True
  | trace, .send kind _ r :: acts => (kind.isFinal = true → PutFor trace r) ∧ Ready trace acts
  | trace, .deliver r callback :: acts =>
      (∀ c, callback = some c → c.recipient = r) ∧ Ready (putTrace trace r) acts

theorem Ready.mono {acts : List Act} {trace trace' : List TraceEntry} (h : Ready trace acts)
    (hsub : trace ⊆ trace') : Ready trace' acts := by
  induction acts generalizing trace trace' with
  | nil => trivial
  | cons act acts ih =>
    cases act with
    | send kind pid r => exact ⟨fun hk => (h.1 hk).mono hsub, ih h.2 hsub⟩
    | deliver r callback =>
      refine ⟨h.1, ih h.2 ?_⟩
      unfold putTrace
      split
      · exact hsub
      · exact List.cons_subset_cons _ hsub

/-- The invariant: the tables are backed by deliveries, and the read loop is in a handler
    that delivers first. -/
def DeliversFirst (f : InboundPublishFlow) : Prop :=
  f.AcksBacked ∧ Ready f.trace f.reader.acts

theorem AcksBacked.congr {f f' : InboundPublishFlow} (h : f.AcksBacked)
    (hmessages : f'.messages = f.messages) (hflights : f'.inflightQos2In = f.inflightQos2In)
    (htrace : f'.trace = f.trace) : f'.AcksBacked := by
  refine ⟨?_, ?_, ?_⟩
  · rw [FinalAcksDelivered, htrace]; exact h.sent
  · rw [hmessages, htrace]; exact h.messages
  · rw [hflights, htrace]; exact h.flights

theorem DeliversFirst.congr {f f' : InboundPublishFlow} (h : f.DeliversFirst)
    (hmessages : f'.messages = f.messages) (hflights : f'.inflightQos2In = f.inflightQos2In)
    (htrace : f'.trace = f.trace) (hreader : f'.reader = f.reader) : f'.DeliversFirst := by
  refine ⟨h.1.congr hmessages hflights htrace, ?_⟩
  rw [htrace, hreader]
  exact h.2

/-! ## Operations -/

/-- New entries that are not final acknowledgements of undelivered messages. -/
theorem AcksBacked.extend {f f' : InboundPublishFlow} (h : f.AcksBacked)
    (hmessages : f'.messages = f.messages) (hflights : f'.inflightQos2In = f.inflightQos2In)
    (hsub : f.trace ⊆ f'.trace)
    (hsent : ∀ kind pid r, .sent kind pid r ∈ f'.trace →
      .sent kind pid r ∈ f.trace ∨ (kind.isFinal = true → PutFor f'.trace r)) :
    f'.AcksBacked := by
  refine ⟨?_, ?_, ?_⟩
  · intro kind pid r hs hk
    rcases hsent kind pid r hs with hold | hnew
    · exact (h.sent kind pid r hold hk).mono hsub
    · exact hnew hk
  · rw [hmessages]
    intro message hm c hc
    exact (h.messages message hm c hc).mono hsub
  · rw [hflights]
    intro pid flight hf hd
    exact (h.flights pid flight hf hd).mono hsub

theorem AcksBacked.log {f : InboundPublishFlow} (h : f.AcksBacked) {entry : TraceEntry}
    (hentry : ∀ kind pid r, entry ≠ .sent kind pid r) : (f.log entry).AcksBacked := by
  refine h.extend rfl rfl (List.subset_cons_self _ _) fun kind pid r hs => Or.inl ?_
  rcases List.mem_cons.1 hs with he | hs
  · exact absurd he.symm (hentry kind pid r)
  · exact hs

theorem AcksBacked.send {f : InboundPublishFlow} (h : f.AcksBacked) {kind : AckKind} {pid : Int}
    {r : InboundRecipient} (hput : kind.isFinal = true → PutFor f.trace r) :
    (f.log (.sent kind pid r)).AcksBacked := by
  refine h.extend rfl rfl (List.subset_cons_self _ _) fun kind' pid' r' hs => ?_
  rcases List.mem_cons.1 hs with he | hs
  · cases he
    exact Or.inr fun hk => (hput hk).mono (List.subset_cons_self _ _)
  · exact Or.inl hs

theorem trace_subset_handOver (f : InboundPublishFlow) (r : InboundRecipient)
    (callback : Option AckCallback) : f.trace ⊆ (f.handOver r callback).trace := by
  unfold handOver
  split
  · exact List.subset_cons_self _ _
  · exact List.Subset.refl _
  · exact List.subset_cons_self _ _

theorem putTrace_subset_handOver (f : InboundPublishFlow) (r : InboundRecipient)
    (callback : Option AckCallback) : putTrace f.trace r ⊆ (f.handOver r callback).trace := by
  unfold putTrace handOver InboundRecipient.queue
  cases r.request with
  | some request => exact List.subset_cons_self _ _
  | none =>
    cases r.subscription with
    | none => exact List.Subset.refl _
    | some item => exact List.Subset.refl _

theorem putFor_handOver (f : InboundPublishFlow) (r : InboundRecipient)
    (callback : Option AckCallback) : PutFor (f.handOver r callback).trace r := by
  intro queue hq
  apply putTrace_subset_handOver f r callback
  rw [putTrace, hq]
  exact List.mem_cons_self

theorem AcksBacked.handOver {f : InboundPublishFlow} (h : f.AcksBacked) {r : InboundRecipient}
    {callback : Option AckCallback} (hc : ∀ c, callback = some c → c.recipient = r) :
    (f.handOver r callback).AcksBacked := by
  have hput := f.putFor_handOver r callback
  have hsub := f.trace_subset_handOver r callback
  unfold InboundPublishFlow.handOver at *
  split
  · exact h.log (by simp)
  · exact h
  · next item entry hreq hsubscr =>
    rw [hreq, hsubscr] at hput hsub
    refine ⟨?_, ?_, fun pid flight hf hd => (h.flights pid flight hf hd).mono hsub⟩
    · intro kind pid r' hs hk
      rcases List.mem_cons.1 hs with he | hs
      · cases he
      · exact (h.sent kind pid r' hs hk).mono hsub
    · intro message hm c hmc
      rcases List.mem_append.1 hm with hm | hm
      · exact (h.messages message hm c hmc).mono hsub
      · rw [List.mem_singleton.1 hm] at hmc
        dsimp only at hmc
        split at hmc
        · cases hmc
        · rw [hc c hmc]
          exact hput

theorem AcksBacked.startAuto {f : InboundPublishFlow} (h : f.AcksBacked) (pid : Int)
    (r : InboundRecipient) : (f.startAuto pid r).AcksBacked := by
  have hlog : (f.log (.started r)).AcksBacked := h.log (by simp)
  refine ⟨hlog.sent, hlog.messages, fun pid' flight hf hd => ?_⟩
  rw [InboundPublishFlow.startAuto, Dict.get?_set] at hf
  split at hf
  · obtain rfl := Option.some.inj hf
    cases hd
  · exact hlog.flights pid' flight hf hd

theorem AcksBacked.startManual {f : InboundPublishFlow} (h : f.AcksBacked) (pid : Int)
    (r : InboundRecipient) : (f.startManual pid r).AcksBacked := by
  have hlog : (f.log (.started r)).AcksBacked := h.log (by simp)
  exact hlog.congr rfl rfl rfl

theorem trace_subset_startAuto (f : InboundPublishFlow) (pid : Int) (r : InboundRecipient) :
    f.trace ⊆ (f.startAuto pid r).trace := List.subset_cons_self _ _

theorem trace_subset_startManual (f : InboundPublishFlow) (pid : Int) (r : InboundRecipient) :
    f.trace ⊆ (f.startManual pid r).trace := List.subset_cons_self _ _

/-- A final acknowledgement that is followed by the delivery at once. -/
theorem AcksBacked.sendThenPut {f : InboundPublishFlow} (h : f.AcksBacked) (kind : AckKind)
    (pid : Int) (r : InboundRecipient) :
    ((f.log (.sent kind pid r)).handOver r none).AcksBacked := by
  have hput := (f.log (.sent kind pid r)).putFor_handOver r none
  have hhand : (f.handOver r none).AcksBacked := h.handOver no_callback
  refine hhand.extend ?_ ?_ ?_ ?_
  · unfold InboundPublishFlow.handOver; split <;> rfl
  · unfold InboundPublishFlow.handOver; split <;> rfl
  · unfold InboundPublishFlow.handOver
    split
    · exact List.cons_subset_cons _ (List.subset_cons_self _ _)
    · exact List.subset_cons_self _ _
    · exact List.cons_subset_cons _ (List.subset_cons_self _ _)
  · intro kind' pid' r' hs
    by_cases he : TraceEntry.sent kind' pid' r' = .sent kind pid r
    · cases he
      exact Or.inr fun _ => hput
    · refine Or.inl (f.trace_subset_handOver r none ?_)
      unfold InboundPublishFlow.handOver at hs
      split at hs
      · simpa [InboundPublishFlow.log, he] using hs
      · simpa [InboundPublishFlow.log, he] using hs
      · simpa [InboundPublishFlow.log, InboundPublishFlow.enqueue, he] using hs

theorem AcksBacked.logDropped {f : InboundPublishFlow} (h : f.AcksBacked) (ms : List Received) :
    (f.logDropped ms).AcksBacked := by
  refine h.extend rfl rfl (List.subset_append_right _ _) fun kind pid r hs => Or.inl ?_
  rcases List.mem_append.1 hs with hs | hs
  · obtain ⟨m, -, he⟩ := List.mem_map.1 hs
    cases he
  · exact hs

theorem AcksBacked.handsOn {f f' : InboundPublishFlow} {r : InboundRecipient}
    (h : f.AcksBacked) (hands : HandsOn f r f') : f'.AcksBacked ∧ f.trace ⊆ f'.trace := by
  cases hands with
  | qos0 _ => exact ⟨h.handOver no_callback, f.trace_subset_handOver r _⟩
  | qos1Auto pid _ =>
    refine ⟨(h.handOver no_callback).send fun _ => f.putFor_handOver r _, ?_⟩
    exact List.Subset.trans (f.trace_subset_handOver r _) (List.subset_cons_self _ _)
  | qos1Manual pid _ _ =>
    exact ⟨h.handOver (by rintro c ⟨rfl⟩; rfl), f.trace_subset_handOver r _⟩
  | qos2Auto pid _ _ _ =>
    refine ⟨(h.startAuto pid r).send not_final, ?_⟩
    exact List.Subset.trans (f.trace_subset_startAuto pid r) (List.subset_cons_self _ _)
  | qos2Manual pid _ _ _ =>
    refine ⟨(h.startManual pid r).handOver (by rintro c ⟨rfl⟩; rfl), ?_⟩
    exact List.Subset.trans (f.trace_subset_startManual pid r)
      ((f.startManual pid r).trace_subset_handOver r _)

/-! ## Steps -/

theorem deliversFirst_drainRule (i : Nat) :
    DrainRule DeliversFirst (fun f _ => f.DeliversFirst) (fun f _ => f.DeliversFirst)
      (fun f _ _ => f.DeliversFirst) i where
  start f b waiters h _ _ := h.congr rfl rfl rfl rfl
  wake f b d h _ _ _ := h.congr rfl rfl rfl rfl
  perm f a b _ h := h
  refill f b air h _ := h.congr rfl rfl rfl rfl
  handsOn f f' r air h _ hands := by
    obtain ⟨hacks, hsub⟩ := h.1.handsOn hands
    refine ⟨hacks, ?_⟩
    rw [hands.reader]
    exact h.2.mono hsub
  discarded f b air m h _ _ := h.congr rfl rfl rfl rfl
  keyError f b air m h _ _ := h.congr rfl rfl rfl rfl
  valueError f air h := h
  suspend f b caller unmatched pending m h _ := h.congr rfl rfl rfl rfl
  fail f b caller unmatched pending h _ := h.congr rfl rfl rfl rfl
  drained f b unmatched h _ := by
    unfold finishDrain
    split
    · obtain ⟨replay, he⟩ := leaveBuffer_eq (f.setBuffer i _) i .idle
      rw [he]
      exact h.congr rfl rfl rfl rfl
    · exact h.congr rfl rfl rfl rfl
  expired f b unmatched h _ := by
    unfold finishExpire
    obtain ⟨replay, he⟩ := leaveBuffer_eq ((f.logDropped _).setBuffer i _) i _
    rw [he]
    have hdrop := h.1.logDropped (unmatched ++ b.publishes)
    exact ⟨hdrop.congr rfl rfl rfl, h.2.mono (List.subset_append_right _ _)⟩

theorem DeliversFirst.interruptDelivery {f : InboundPublishFlow} (h : f.DeliversFirst) (i : Nat) :
    (f.interruptDelivery i).DeliversFirst :=
  (deliversFirst_drainRule i).interruptDelivery h fun _ _ _ _ => h.congr rfl rfl rfl rfl

theorem AcksBacked.runReader {f : InboundPublishFlow} {acts : List Act} (env : Environment)
    (h : f.AcksBacked) (hready : Ready f.trace acts) : (f.runReader env acts).DeliversFirst := by
  refine runReader_induct (P := fun f acts => f.AcksBacked ∧ Ready f.trace acts)
    ?_ ?_ ?_ ?_ env ⟨h, hready⟩
  · intro f kind pid r acts hP
    exact ⟨hP.1.send hP.2.1, hP.2.2.mono (List.subset_cons_self _ _)⟩
  · intro f r callback acts hP _
    exact ⟨hP.1.handOver hP.2.1, hP.2.2.mono (f.putTrace_subset_handOver r callback)⟩
  · intro f hP
    exact ⟨hP.1.congr rfl rfl rfl, trivial⟩
  · intro f acts hP
    exact ⟨hP.1.congr rfl rfl rfl, hP.2⟩

theorem Handles.ready {f f' : InboundPublishFlow} {env : Environment} {m : Received}
    {acts : List Act} (hands : Handles f env m f' acts) (h : f.AcksBacked) :
    f'.AcksBacked ∧ Ready f'.trace acts := by
  cases hands with
  | ignored => exact ⟨h, trivial⟩
  | takesIn htakes _ =>
    have hlog : (f.log (.buffered m)).AcksBacked := h.log (by simp)
    cases htakes with
    | new _ => exact ⟨hlog.congr rfl rfl rfl, trivial⟩
    | old i b _ _ _ _ => exact ⟨hlog.congr rfl rfl rfl, trivial⟩
  | qos0 _ => exact ⟨h, no_callback, trivial⟩
  | qos1Auto pid _ =>
    refine ⟨h, no_callback, fun _ queue hq => ?_, trivial⟩
    rw [putTrace, hq]
    exact List.mem_cons_self
  | qos1Manual pid _ _ => exact ⟨h, by rintro c ⟨rfl⟩; rfl, trivial⟩
  | qos2Again pid flight _ _ _ => exact ⟨h, not_final, trivial⟩
  | qos2Auto pid _ _ _ _ => exact ⟨h.startAuto pid _, not_final, trivial⟩
  | qos2Manual pid _ _ _ _ => exact ⟨h.startManual pid _, by rintro c ⟨rfl⟩; rfl, trivial⟩

/-! ## PUBREL -/

/-- A PUBREL for an automatically acknowledged message of a subscription finds room in the
    queue, and the write of its PUBCOMP does not suspend. -/
def promptPubrel (f : InboundPublishFlow) (e : InboundEvent) : Prop :=
  ∀ pid env flight queue, e = .pubrel pid env → f.inflightQos2In.get? pid = some flight →
    flight.delivered = false → flight.recipient.queue = some queue →
    env.stalls flight.recipient.message.num = false ∧ f.queueFull queue = false

theorem putWaits_of_queue {f : InboundPublishFlow} {r : InboundRecipient} {queue : Nat}
    (hq : r.queue = some queue) : f.putWaits r = f.queueFull queue := by
  unfold InboundRecipient.queue at hq
  unfold putWaits
  split at hq
  · cases hq
  · next hreq =>
    obtain ⟨item, hitem, rfl⟩ := Option.map_eq_some_iff.1 hq
    rw [hreq, hitem]

theorem runActs_send_deliver {f : InboundPublishFlow} {env : Environment} {kind : AckKind}
    {pid : Int} {r : InboundRecipient} (hstall : env.stalls r.message.num = false)
    (hroom : f.putWaits r = false) :
    runActs env [.send kind pid r, .deliver r none] f =
      ((f.log (.sent kind pid r)).handOver r none, none) := by
  have hroom' : (f.log (.sent kind pid r)).putWaits r = false := hroom
  rw [runActs, hstall, if_neg Bool.false_ne_true, runActs, hroom', if_neg Bool.false_ne_true,
    runActs]

theorem DeliversFirst.receivePubrel {f : InboundPublishFlow} {env : Environment} {pid : Int}
    (h : f.DeliversFirst) (hprompt : f.promptPubrel (.pubrel pid env)) :
    (f.receivePubrel env pid).DeliversFirst := by
  unfold InboundPublishFlow.receivePubrel
  split
  · have hlog : (f.log (.pubrel pid)).AcksBacked := h.1.log (by simp)
    rw [handlePubrel]
    split
    · exact ⟨hlog.congr rfl rfl rfl, trivial⟩
    · next flight hflight =>
      have hpop : ((f.log (.pubrel pid)).popFlight pid).AcksBacked := by
        refine ⟨hlog.sent, hlog.messages, fun pid' flight' hf hd => ?_⟩
        rw [popFlight, Dict.get?_pop] at hf
        split at hf
        · cases hf
        · exact hlog.flights pid' flight' hf hd
      rw [dispatch]
      cases hdel : flight.delivered with
      | true =>
        exact hpop.runReader env ⟨fun _ => hlog.flights pid flight hflight hdel, trivial⟩
      | false =>
        cases hq : flight.recipient.queue with
        | none =>
          have hput : ∀ trace, PutFor trace flight.recipient := fun trace queue hq' => by
            rw [hq] at hq'
            cases hq'
          exact hpop.runReader env ⟨fun _ => hput _, no_callback, trivial⟩
        | some queue =>
          obtain ⟨hstall, hfull⟩ := hprompt pid env flight queue rfl hflight hdel hq
          have hroom : ((f.log (.pubrel pid)).popFlight pid).putWaits flight.recipient = false := by
            rw [putWaits_of_queue hq]
            exact hfull
          -- the delivery follows the write in the same stretch
          rw [InboundPublishFlow.runReader, if_neg Bool.false_ne_true,
            runActs_send_deliver hstall hroom]
          exact ⟨(hpop.sendThenPut .pubcomp pid flight.recipient).congr rfl rfl rfl, trivial⟩
  all_goals exact h

/-! ## `Message.ack` -/

theorem recipient_markAcked {callback : Option AckCallback} {c : AckCallback}
    (h : markAcked callback = some c) : ∃ c', callback = some c' ∧ c'.recipient = c.recipient := by
  cases callback with
  | none => cases h
  | some c' =>
    cases c' <;> cases h <;> exact ⟨_, rfl, rfl⟩

theorem DeliversFirst.ack {f : InboundPublishFlow} (h : f.DeliversFirst) (k : Nat) :
    (f.ack k).DeliversFirst := by
  unfold InboundPublishFlow.ack
  split
  · exact h
  · next message hmsg =>
    split
    · exact h
    · have hmem := List.mem_of_getElem? hmsg
      have hmarked : AcksBacked { f with
          messages := f.messages.set k
            { message with resolved := true, ackCallback := markAcked message.ackCallback }
          trace := .acked message.received :: f.trace } := by
        have hlog : (f.log (.acked message.received)).AcksBacked := h.1.log (by simp)
        refine ⟨hlog.sent, fun other hother c hc => ?_, hlog.flights⟩
        rcases List.mem_or_eq_of_mem_set hother with hold | rfl
        · exact hlog.messages other hold c hc
        · obtain ⟨c', hc', he⟩ := recipient_markAcked hc
          rw [← he]
          exact hlog.messages message hmem c' hc'
      have hready := h.2.mono (List.subset_cons_self (.acked message.received) f.trace)
      have hput : ∀ c, message.ackCallback = some c →
          PutFor (.acked message.received :: f.trace) c.recipient := fun c hc =>
        (h.1.messages message hmem c hc).mono (List.subset_cons_self _ _)
      cases hc : message.ackCallback with
      | none => rw [hc] at hmarked; exact ⟨hmarked, hready⟩
      | some c =>
        rw [hc] at hmarked
        cases c with
        | puback pid acked r =>
          rw [runCallback]
          split
          · exact ⟨hmarked, hready⟩
          · exact ⟨hmarked.send fun _ => hput _ hc, hready.mono (List.subset_cons_self _ _)⟩
        | pubrec pid r =>
          have hsent := @AcksBacked.send _ hmarked .pubrec pid r not_final
          refine ⟨⟨hsent.sent, hsent.messages, fun pid' flight hf hd => ?_⟩,
            hready.mono (List.subset_cons_self _ _)⟩
          rw [runCallback, Dict.get?_set] at hf
          split at hf
          · obtain rfl := Option.some.inj hf
            exact (hput _ hc).mono (List.subset_cons_self _ _)
          · exact hsent.flights pid' flight hf hd

theorem DeliversFirst.waiting {f : InboundPublishFlow} (h : f.DeliversFirst) {e : InboundEvent}
    (he : e = .drain ∨ (∃ i, e = .expire i) ∨ ∃ i k, e = .cancelWaiter i k) :
    (f.step e).DeliversFirst := by
  rcases f.waiting_cases he with heq | ⟨i, b, b', hb, hsame, heq⟩ <;> rw [heq]
  · exact h
  · exact h.congr rfl rfl rfl rfl

/-- The invariant is kept by every step. -/
theorem DeliversFirst.step {f : InboundPublishFlow} {e : InboundEvent} (hidle : f.IdleRest)
    (h : f.DeliversFirst) (hprompt : f.promptPubrel e) : (f.step e).DeliversFirst := by
  cases e with
  | publish packet env =>
    rw [InboundPublishFlow.step, receivePublish]
    split
    · have hlog : (f.log (.publish (f.nextReceived packet))).AcksBacked := h.1.log (by simp)
      have hrec : (f.receive packet).AcksBacked := hlog.congr rfl rfl rfl
      unfold dispatch
      split
      · exact ⟨hrec.congr rfl rfl rfl, trivial⟩
      · next f' acts hok =>
        obtain ⟨hacks, hready⟩ := (handlePublish_cases hok).ready hrec
        exact hacks.runReader env hready
    all_goals exact h
  | pubrel pid env => exact h.receivePubrel hprompt
  | resumeReader env =>
    rw [InboundPublishFlow.step, resumeReader]
    split
    · next acts hreader =>
      have hready := h.2
      rw [hreader] at hready
      exact h.1.runReader env hready
    all_goals exact h
  | interruptReader =>
    rw [InboundPublishFlow.step, interruptReader]
    split
    · exact h
    all_goals exact ⟨h.1.congr rfl rfl rfl, trivial⟩
  | ack k => exact h.ack k
  | get queue => exact h.congr rfl rfl rfl rfl
  | subscriptions index => exact h.congr rfl rfl rfl rfl
  | drain => exact h.waiting (Or.inl rfl)
  | expire i => exact h.waiting (Or.inr (Or.inl ⟨i, rfl⟩))
  | cancelWaiter i k => exact h.waiting (Or.inr (Or.inr ⟨i, k, rfl⟩))
  | acquireLock i env => exact (deliversFirst_drainRule i).acquireLock env h
  | resumeDelivery i env =>
    by_cases hkeep : ∀ b d, f.buffers[i]? = some b → b.holder = some d → d.cancelled = false
    · exact (deliversFirst_drainRule i).resumeDelivery env hidle h hkeep
    · rw [InboundPublishFlow.step, resumeDelivery_of_cancelled hkeep]
      exact h.interruptDelivery i
  | interruptDelivery i => exact h.interruptDelivery i
  | clear =>
    rw [InboundPublishFlow.step, clear]
    split
    · exact h
    · exact h.congr rfl rfl rfl rfl
    · split
      · exact h.congr rfl rfl rfl rfl
      · next b _ =>
        exact ⟨(h.1.logDropped b.publishes).congr rfl rfl rfl,
          h.2.mono (List.subset_append_right _ _)⟩

/-! ## Runs -/

theorem deliversFirst_fresh (bufferSize : Nat) (maxsize : Nat → Nat) (sessionPresent : Bool) :
    (fresh bufferSize maxsize sessionPresent).DeliversFirst := by
  refine ⟨⟨?_, ?_, ?_⟩, trivial⟩
  · intro kind pid r hs
    cases hs
  · intro message hm
    cases hm
  · intro pid flight hf
    cases hf

theorem idleRest_fresh (bufferSize : Nat) (maxsize : Nat → Nat) (sessionPresent : Bool) :
    (fresh bufferSize maxsize sessionPresent).IdleRest := by
  intro b hb
  cases hb

/-- **No final acknowledgement without delivery.** In every run of a connection, with every
    task interrupted anywhere, in which the PUBREL packets of automatically acknowledged
    messages find room in the queue and their PUBCOMP writes do not suspend, each message
    whose PUBACK or PUBCOMP was sent has been put into the queue of the selected
    subscription. -/
theorem final_acks_delivered (bufferSize : Nat) (maxsize : Nat → Nat) (sessionPresent : Bool)
    (f : InboundPublishFlow)
    (h : Reach step promptPubrel (fresh bufferSize maxsize sessionPresent) f) :
    f.FinalAcksDelivered := by
  have hinv : f.IdleRest ∧ f.DeliversFirst := by
    refine Reach.invariant (I := fun f => f.IdleRest ∧ f.DeliversFirst) h
      ⟨idleRest_fresh _ _ _, deliversFirst_fresh _ _ _⟩ fun f e hf hok => ?_
    exact ⟨hf.1.step e, hf.2.step hf.1 hok⟩
  exact hinv.2.1.sent

/-- One subscription to topic `a`. -/
def indexA (autoAck : Bool) : SubscriptionIndex :=
  ({} : SubscriptionIndex).add "a" { queue := 0, autoAck, actualFilter := "a" }

/-- A PUBLISH on topic `a`. -/
def publishA (qos : QoS) (packetId : Option Int) : Publish :=
  { topic := "a", payload := [], qos, retain := false, dup := false, packetId }

/-- Both paths, and a QoS 1 message that waits for a free slot. -/
def promptRun : List InboundEvent :=
  [.subscriptions (indexA true), .publish (publishA .exactlyOnce (some 1)) {}, .pubrel 1 {},
    .publish (publishA .atLeastOnce (some 2)) {}, .get 0, .resumeReader {}]

theorem final_acks_delivered_promptRun :
    ((promptRun.foldl step (fresh 10 (fun _ => 1) false)).trace.filterMap fun entry =>
      match entry with
      | .sent kind pid _ => some (kind, pid)
      | _ => none) = [(.puback, 2), (.pubcomp, 1), (.pubrec, 1)] ∧
    (promptRun.foldl step (fresh 10 (fun _ => 1) false)).FinalAcksDelivered := by
  refine ⟨by decide +kernel, final_acks_delivered 10 (fun _ => 1) false _ (Reach.foldl ?_)⟩
  have hroom : ((promptRun.take 2).foldl step (fresh 10 (fun _ => 1) false)).queueFull 0 = false ∧
      ((promptRun.take 2).foldl step (fresh 10 (fun _ => 1) false)).inflightQos2In.map
        (fun item => item.2.recipient.queue) = [some 0] := by decide +kernel
  refine ⟨?_, ?_, ?_, ?_, ?_, ?_, trivial⟩ <;> intro pid env flight queue he hf hd hq <;> cases he
  refine ⟨rfl, ?_⟩
  have hmem : some queue ∈ ((promptRun.take 2).foldl step
      (fresh 10 (fun _ => 1) false)).inflightQos2In.map (fun item => item.2.recipient.queue) :=
    List.mem_map.2 ⟨(1, flight), Dict.mem_of_get? hf, hq⟩
  rw [hroom.2, List.mem_singleton] at hmem
  cases hmem
  exact hroom.1

/-- The queue is full when the PUBREL arrives; the read loop is cancelled in `put`. -/
def lossRun : List InboundEvent :=
  [.subscriptions (indexA true), .publish (publishA .atMostOnce none) {},
    .publish (publishA .exactlyOnce (some 1)) {}, .pubrel 1 {}, .interruptReader]

/-- PUBCOMP was sent, and the message is in no queue. -/
theorem final_ack_before_delivery :
    ¬ (∀ f, Reach step anyStep (fresh 10 (fun _ => 1) false) f → f.FinalAcksDelivered) ∧
    (lossRun.foldl step (fresh 10 (fun _ => 1) false)).reader = .stopped none := by
  refine ⟨fun h => ?_, by decide +kernel⟩
  have hall := h _ (Reach.foldl (meets_anyStep lossRun))
  have hsent : TraceEntry.sent .pubcomp 1 ⟨⟨1, 0, publishA .exactlyOnce (some 1)⟩, none,
      some ("a", { queue := 0, autoAck := true, actualFilter := "a" })⟩ ∈
      (lossRun.foldl step (fresh 10 (fun _ => 1) false)).trace := by decide +kernel
  have hput := hall _ _ _ hsent rfl 0 rfl
  revert hput
  decide +kernel

end InboundPublishFlow

end Zmqtt
