/-
  Where the inbound flow keeps a QoS 2 packet id: in the replay buffer, in
  `pending_ack_qos2_in` until the application acknowledges, or in `inflight_qos2_in` until
  PUBREL. While no interrupted delivery puts a message back, an id is in at most one of the
  three, once (`Exclusive`).
-/
import Zmqtt.Inbound.Accounting

namespace Zmqtt

/-- A QoS 2 message with this id. -/
def asksFor (pid : Int) (m : Received) : Bool :=
  m.packet.qos = .exactlyOnce ∧ m.packet.packetId = some pid

theorem asksFor_iff {pid : Int} {m : Received} :
    asksFor pid m = true ↔ m.packet.qos = .exactlyOnce ∧ m.packet.packetId = some pid :=
  decide_eq_true_iff

/-- `ack()` of the message will send PUBREC for the id. -/
def unresolved (pid : Int) (message : Message) : Bool :=
  match message.resolved, message.ackCallback with
  | false, some (.pubrec pid' _) => pid' = pid
  | _, _ => false

/-- The await delivers a message whose `ack()` will send PUBREC for the id. -/
def callsBack (pid : Int) : Act → Bool
  | .deliver _ (some (.pubrec pid' _)) => pid' = pid
  | _ => false

/-- A PUBREC callback is one for its own message. -/
def OwnId : Option AckCallback → Prop
  | some (.pubrec pid r) => asksFor pid r.message = true
  | _ => True

namespace InboundPublishFlow

/-- How many held messages satisfy `q`. -/
def heldWith (f : InboundPublishFlow) (q : Received → Bool) : Nat :=
  (f.buffers.map fun b => b.held.countP q).sum

theorem heldWith_setBuffer {f : InboundPublishFlow} {i : Nat} {b : Buffered}
    (hb : f.buffers[i]? = some b) (b' : Buffered) (q : Received → Bool) :
    (f.setBuffer i b').heldWith q + b.held.countP q = f.heldWith q + b'.held.countP q :=
  sum_map_set (fun b => b.held.countP q) b' hb

theorem exists_held {f : InboundPublishFlow} {q : Received → Bool} (h : 0 < f.heldWith q) :
    ∃ b ∈ f.buffers, ∃ m ∈ b.held, q m = true := by
  have hne : f.heldWith q ≠ 0 := by omega
  rw [heldWith, ne_eq, List.sum_eq_zero_iff] at hne
  push Not at hne
  obtain ⟨x, hx, hxne⟩ := hne
  obtain ⟨b, hb, rfl⟩ := List.mem_map.1 hx
  exact ⟨b, hb, List.countP_pos_iff.1 (Nat.pos_of_ne_zero hxne)⟩

/-- An id that is not known to the flow is held nowhere. -/
theorem Accounts.heldWith_eq_zero {f : InboundPublishFlow} (h : f.Accounts fun _ => []) {pid : Int}
    (hfree : f.IdFree pid) : f.heldWith (asksFor pid) = 0 := by
  by_contra hne
  obtain ⟨b, hb, m, hm, hask⟩ := exists_held (Nat.pos_of_ne_zero hne)
  exact hfree.2.2 (h.replayContains hb hm (asksFor_iff.1 hask).2)

theorem TakesIn.heldWith {f f' : InboundPublishFlow} {m : Received} (h : TakesIn f m f')
    (q : Received → Bool) : f'.heldWith q = f.heldWith q + if q m then 1 else 0 := by
  have happend : ∀ b : Buffered, (b.append m).held.countP q =
      b.held.countP q + if q m then 1 else 0 := fun b => by
    simp only [Buffered.held, Buffered.append, List.countP_append, List.countP_singleton]
    omega
  cases h with
  | new _ =>
    have hempty : ({} : Buffered).held.countP q = 0 := rfl
    rw [InboundPublishFlow.heldWith, List.map_append, List.sum_append, List.map_singleton,
      List.sum_singleton, happend, hempty, Nat.zero_add]
    rfl
  | old i b _ hb _ _ =>
    have hset := heldWith_setBuffer hb (b.append m) q
    rw [happend] at hset
    have hlog : ((f.setBuffer i (b.append m)).log (.buffered m)).heldWith q =
        (f.setBuffer i (b.append m)).heldWith q := rfl
    omega

/-- An id is in at most one place: held by the replay buffer (`air` are the messages of the
    running task), waiting for `ack()`, or in flight. `acts` are the awaits to come. -/
structure Exclusive (f : InboundPublishFlow) (acts : List Act) (air : List Received) : Prop where
  idOnce : ∀ pid, f.heldWith (asksFor pid) + air.countP (asksFor pid) ≤ 1
  heldFree : ∀ pid, 0 < f.heldWith (asksFor pid) + air.countP (asksFor pid) →
    f.inflightQos2In.get? pid = none ∧ pid ∉ f.pendingAckQos2In
  pendingFree : ∀ pid ∈ f.pendingAckQos2In, f.inflightQos2In.get? pid = none
  callbackOnce : ∀ pid, f.messages.countP (unresolved pid) + acts.countP (callsBack pid) ≤ 1
  callbackPending : ∀ pid, 0 < f.messages.countP (unresolved pid) + acts.countP (callsBack pid) →
    pid ∈ f.pendingAckQos2In
  messages : ∀ message ∈ f.messages, OwnId message.ackCallback
  acts : ∀ r callback, .deliver r callback ∈ acts → OwnId callback
  flights : ∀ pid flight, f.inflightQos2In.get? pid = some flight →
    asksFor pid flight.recipient.message = true

/-! ## Operations -/

/-- The tables, with the counts of the buffer, of the callbacks and of the awaits at most as
    before. -/
theorem Exclusive.shrink {f f' : InboundPublishFlow} {acts acts' : List Act}
    {air air' : List Received} (h : Exclusive f acts air)
    (hheld : ∀ pid, f'.heldWith (asksFor pid) + air'.countP (asksFor pid) ≤
      f.heldWith (asksFor pid) + air.countP (asksFor pid))
    (hflights : f'.inflightQos2In = f.inflightQos2In)
    (hpending : f'.pendingAckQos2In = f.pendingAckQos2In)
    (hcallbacks : ∀ pid, f'.messages.countP (unresolved pid) + acts'.countP (callsBack pid) ≤
      f.messages.countP (unresolved pid) + acts.countP (callsBack pid))
    (hmessages : ∀ message ∈ f'.messages, OwnId message.ackCallback)
    (hacts : ∀ r callback, .deliver r callback ∈ acts' → OwnId callback) :
    Exclusive f' acts' air' := by
  refine ⟨fun pid => (hheld pid).trans (h.idOnce pid), fun pid hpos => ?_, ?_,
    fun pid => (hcallbacks pid).trans (h.callbackOnce pid), fun pid hpos => ?_, hmessages, hacts, ?_⟩
  · rw [hflights, hpending]
    exact h.heldFree pid (Nat.lt_of_lt_of_le hpos (hheld pid))
  · rw [hflights, hpending]
    exact h.pendingFree
  · rw [hpending]
    exact h.callbackPending pid (Nat.lt_of_lt_of_le hpos (hcallbacks pid))
  · rw [hflights]
    exact h.flights

theorem Exclusive.congr {f f' : InboundPublishFlow} {acts : List Act} {air : List Received}
    (h : Exclusive f acts air) (hbuffers : f'.buffers = f.buffers)
    (hflights : f'.inflightQos2In = f.inflightQos2In)
    (hpending : f'.pendingAckQos2In = f.pendingAckQos2In)
    (hmessages : f'.messages = f.messages) : Exclusive f' acts air := by
  have hheld : ∀ q, f'.heldWith q = f.heldWith q := fun q => by
    rw [heldWith, hbuffers]
    rfl
  refine h.shrink (fun pid => by rw [hheld]) hflights hpending (fun pid => by rw [hmessages]) ?_
    h.acts
  rw [hmessages]
  exact h.messages

/-- Messages move between object `i` and the running task, or leave. -/
theorem Exclusive.move {f : InboundPublishFlow} {acts : List Act} {air air' : List Received}
    (h : Exclusive f acts air) {i : Nat} {b b' : Buffered} (hb : f.buffers[i]? = some b)
    (hcount : ∀ q, b'.held.countP q + air'.countP q ≤ b.held.countP q + air.countP q) :
    Exclusive (f.setBuffer i b') acts air' := by
  refine h.shrink (fun pid => ?_) rfl rfl (fun pid => Nat.le_refl _) h.messages h.acts
  have hset := heldWith_setBuffer hb b' (asksFor pid)
  have hc := hcount (asksFor pid)
  omega

theorem Exclusive.perm {f : InboundPublishFlow} {acts : List Act} {air air' : List Received}
    (h : Exclusive f acts air) (hperm : air.Perm air') : Exclusive f acts air' :=
  h.shrink (fun pid => by rw [hperm.countP_eq]) rfl rfl (fun pid => Nat.le_refl _) h.messages h.acts

theorem Exclusive.send {f : InboundPublishFlow} {acts : List Act} {air : List Received}
    {kind : AckKind} {pid : Int} {r : InboundRecipient}
    (h : Exclusive f (.send kind pid r :: acts) air) :
    Exclusive (f.log (.sent kind pid r)) acts air := by
  refine h.shrink (fun _ => Nat.le_refl _) rfl rfl (fun pid' => ?_) h.messages
    fun r' callback hmem => h.acts r' callback (List.mem_cons_of_mem _ hmem)
  rw [List.countP_cons]
  exact Nat.add_le_add_left (Nat.le_add_right _ _) _

theorem unresolved_le_callsBack (r : InboundRecipient) (callback : Option AckCallback)
    (autoAck : Bool) (pid : Int) :
    (if unresolved pid
        { received := r.message, ackCallback := if autoAck then none else callback } then 1 else 0) ≤
      if callsBack pid (.deliver r callback) then 1 else 0 := by
  cases autoAck with
  | true => exact Nat.zero_le _
  | false =>
    cases callback with
    | none => exact Nat.zero_le _
    | some c => cases c <;> exact Nat.le_refl _

theorem Exclusive.handOver {f : InboundPublishFlow} {acts : List Act} {air : List Received}
    {r : InboundRecipient} {callback : Option AckCallback}
    (h : Exclusive f (.deliver r callback :: acts) air) :
    Exclusive (f.handOver r callback) acts air := by
  have hrest : ∀ r' callback', .deliver r' callback' ∈ acts → OwnId callback' :=
    fun r' callback' hmem => h.acts r' callback' (List.mem_cons_of_mem _ hmem)
  have hless : ∀ pid, acts.countP (callsBack pid) ≤
      (Act.deliver r callback :: acts).countP (callsBack pid) := fun pid => by
    rw [List.countP_cons]
    exact Nat.le_add_right _ _
  rcases f.handOver_cases r callback with ⟨-, he⟩ | ⟨request, -, he⟩ | ⟨filter, entry, -, -, he⟩ <;>
    rw [he]
  · exact h.shrink (fun _ => Nat.le_refl _) rfl rfl
      (fun pid => Nat.add_le_add_left (hless pid) _) h.messages hrest
  · exact h.shrink (fun _ => Nat.le_refl _) rfl rfl
      (fun pid => Nat.add_le_add_left (hless pid) _) h.messages hrest
  · -- the callback moves from the await into the message
    have hown : OwnId (if entry.autoAck then none else callback) := by
      split
      · trivial
      · exact h.acts r callback List.mem_cons_self
    have hone := unresolved_le_callsBack r callback entry.autoAck
    refine h.shrink (fun _ => Nat.le_refl _) rfl rfl (fun pid => ?_) ?_ hrest
    · rw [enqueue, List.countP_append, List.countP_singleton, List.countP_cons]
      have hle := hone pid
      omega
    · intro message hmem
      rcases List.mem_append.1 hmem with hmem | hmem
      · exact h.messages message hmem
      · rw [List.mem_singleton.1 hmem]
        exact hown

/-- The id is in none of the three places. -/
structure Nowhere (f : InboundPublishFlow) (air : List Received) (pid : Int) : Prop where
  held : f.heldWith (asksFor pid) + air.countP (asksFor pid) = 0
  flight : f.inflightQos2In.get? pid = none
  pending : pid ∉ f.pendingAckQos2In

theorem Exclusive.startAuto {f : InboundPublishFlow} {acts : List Act} {air : List Received}
    (h : Exclusive f acts air) {pid : Int} {r : InboundRecipient} (hno : Nowhere f air pid)
    (hask : asksFor pid r.message = true) : Exclusive (f.startAuto pid r) acts air := by
  have hget : ∀ pid', (f.startAuto pid r).inflightQos2In.get? pid' =
      if pid = pid' then some { recipient := r } else f.inflightQos2In.get? pid' :=
    fun pid' => Dict.get?_set _ _ pid' _
  refine ⟨h.idOnce, fun pid' hpos => ?_, fun pid' hp => ?_, h.callbackOnce, h.callbackPending,
    h.messages, h.acts, fun pid' flight hf => ?_⟩
  · obtain ⟨hfl, hpe⟩ := h.heldFree pid' hpos
    refine ⟨?_, hpe⟩
    rw [hget, if_neg, hfl]
    rintro rfl
    have hzero := hno.held
    change 0 < f.heldWith (asksFor pid) + _ at hpos
    omega
  · rw [hget, if_neg, h.pendingFree pid' hp]
    rintro rfl
    exact hno.pending hp
  · rw [hget] at hf
    split at hf
    · next he =>
      obtain rfl := Option.some.inj hf
      rw [← he]
      exact hask
    · exact h.flights pid' flight hf

theorem Exclusive.startManual {f : InboundPublishFlow} {acts : List Act} {air : List Received}
    (h : Exclusive f acts air) {pid : Int} {r : InboundRecipient} (hno : Nowhere f air pid)
    (hask : asksFor pid r.message = true) :
    Exclusive (f.startManual pid r) (.deliver r (some (.pubrec pid r)) :: acts) air := by
  have hcb : ∀ pid', (Act.deliver r (some (.pubrec pid r)) :: acts).countP (callsBack pid') =
      acts.countP (callsBack pid') + if pid = pid' then 1 else 0 := fun pid' => by
    rw [List.countP_cons]
    simp only [callsBack, decide_eq_true_eq]
  -- an id that is not pending has no callback
  have hzero : f.messages.countP (unresolved pid) + acts.countP (callsBack pid) = 0 := by
    by_contra hne
    exact hno.pending (h.callbackPending pid (Nat.pos_of_ne_zero hne))
  refine ⟨h.idOnce, fun pid' hpos => ?_, fun pid' hp => ?_, fun pid' => ?_, fun pid' hpos => ?_,
    h.messages, fun r' callback hmem => ?_, h.flights⟩
  · obtain ⟨hfl, hpe⟩ := h.heldFree pid' hpos
    refine ⟨hfl, fun hin => ?_⟩
    rcases Finset.mem_insert.1 hin with rfl | hin
    · have hheld := hno.held
      change 0 < f.heldWith (asksFor pid') + _ at hpos
      omega
    · exact hpe hin
  · rcases Finset.mem_insert.1 hp with rfl | hp
    · exact hno.flight
    · exact h.pendingFree pid' hp
  · rw [hcb]
    change f.messages.countP (unresolved pid') + _ ≤ 1
    split
    · next he => subst he; omega
    · exact h.callbackOnce pid'
  · rw [hcb] at hpos
    change 0 < f.messages.countP (unresolved pid') + _ at hpos
    by_cases he : pid = pid'
    · subst he
      exact Finset.mem_insert_self _ _
    · rw [if_neg he, Nat.add_zero] at hpos
      exact Finset.mem_insert_of_mem (h.callbackPending pid' hpos)
  · rcases List.mem_cons.1 hmem with he | hmem
    · cases he
      exact hask
    · exact h.acts r' callback hmem

/-- The first of the messages of the running task is not kept by it any more. -/
theorem Exclusive.tail {f : InboundPublishFlow} {acts : List Act} {air : List Received}
    {m : Received} (h : Exclusive f acts (m :: air)) : Exclusive f acts air := by
  refine h.shrink (fun pid => ?_) rfl rfl (fun pid => Nat.le_refl _) h.messages h.acts
  rw [List.countP_cons]
  exact Nat.add_le_add_left (Nat.le_add_right _ _) _

/-- The id of a message that the running task takes up is nowhere else. -/
theorem Exclusive.nowhere {f : InboundPublishFlow} {acts : List Act} {air : List Received}
    {m : Received} (h : Exclusive f acts (m :: air)) {pid : Int} (hask : asksFor pid m = true) :
    Nowhere f air pid := by
  have honce := h.idOnce pid
  rw [List.countP_cons, if_pos hask] at honce
  have hfree := h.heldFree pid (by rw [List.countP_cons, if_pos hask]; omega)
  exact ⟨by omega, hfree.1, hfree.2⟩

theorem Exclusive.handsOn {f f' : InboundPublishFlow} {acts : List Act} {air : List Received}
    {r : InboundRecipient} (h : Exclusive f acts (r.message :: air)) (hands : HandsOn f r f') :
    Exclusive f' acts air := by
  have hdeliver : ∀ callback, (∀ pid, callsBack pid (.deliver r callback) = false) →
      OwnId callback → Exclusive (f.handOver r callback) acts air := by
    intro callback hno hown
    refine Exclusive.handOver (h.tail.shrink (fun pid => Nat.le_refl _) rfl rfl (fun pid => ?_)
      h.messages fun r' callback' hmem => ?_)
    · rw [List.countP_cons, hno pid]
      exact Nat.le_refl _
    · rcases List.mem_cons.1 hmem with he | hmem
      · cases he
        exact hown
      · exact h.acts r' callback' hmem
  cases hands with
  | qos0 _ => exact hdeliver none (fun _ => rfl) trivial
  | qos1Auto pid _ => exact (hdeliver none (fun _ => rfl) trivial).congr rfl rfl rfl rfl
  | qos1Manual pid _ _ => exact hdeliver _ (fun _ => rfl) trivial
  | qos2Auto pid hqos hpid _ =>
    have hask := asksFor_iff.2 ⟨hqos, hpid⟩
    exact (h.tail.startAuto (h.nowhere hask) hask).congr rfl rfl rfl rfl
  | qos2Manual pid hqos hpid _ =>
    have hask := asksFor_iff.2 ⟨hqos, hpid⟩
    exact (h.tail.startManual (h.nowhere hask) hask).handOver

theorem Exclusive.popFlight {f : InboundPublishFlow} {acts : List Act} {air : List Received}
    (h : Exclusive f acts air) (pid : Int) : Exclusive (f.popFlight pid) acts air := by
  have hget : ∀ pid', (f.popFlight pid).inflightQos2In.get? pid' =
      if pid = pid' then none else f.inflightQos2In.get? pid' := Dict.get?_pop _ _
  refine ⟨h.idOnce, fun pid' hpos => ?_, fun pid' hp => ?_, h.callbackOnce, h.callbackPending,
    h.messages, h.acts, fun pid' flight hf => ?_⟩
  · obtain ⟨hfl, hpe⟩ := h.heldFree pid' hpos
    exact ⟨by rw [hget, hfl, ite_self], hpe⟩
  · rw [hget, h.pendingFree pid' hp, ite_self]
  · rw [hget] at hf
    split at hf
    · cases hf
    · exact h.flights pid' flight hf

theorem Exclusive.takesIn {f f' : InboundPublishFlow} {acts : List Act} {m : Received}
    (h : Exclusive f acts []) (htakes : TakesIn f m f')
    (hno : ∀ pid, asksFor pid m = true → Nowhere f [] pid) : Exclusive f' acts [] := by
  have hheld := htakes.heldWith
  have htables : f'.inflightQos2In = f.inflightQos2In ∧
      f'.pendingAckQos2In = f.pendingAckQos2In ∧ f'.messages = f.messages := by
    cases htakes <;> exact ⟨rfl, rfl, rfl⟩
  refine ⟨fun pid => ?_, fun pid hpos => ?_, ?_, ?_, ?_, ?_, h.acts, ?_⟩
  · rw [hheld]
    split
    · next hask =>
      have hzero := (hno pid hask).held
      omega
    · exact h.idOnce pid
  · rw [htables.1, htables.2.1]
    by_cases hask : asksFor pid m = true
    · exact ⟨(hno pid hask).flight, (hno pid hask).pending⟩
    · rw [hheld, if_neg hask] at hpos
      exact h.heldFree pid hpos
  · rw [htables.1, htables.2.1]
    exact h.pendingFree
  · rw [htables.2.2]
    exact h.callbackOnce
  · rw [htables.2.1, htables.2.2]
    exact h.callbackPending
  · rw [htables.2.2]
    exact h.messages
  · rw [htables.1]
    exact h.flights

/-! ## `Message.ack` -/

/-- The flow after `ack()` set `_resolved` of a message, before its callback. -/
def resolve (f : InboundPublishFlow) (k : Nat) (message : Message) : InboundPublishFlow :=
  { f with
    messages := f.messages.set k
      { message with resolved := true, ackCallback := markAcked message.ackCallback }
    trace := .acked message.received :: f.trace }

/-- What `ack()` does: nothing, PUBACK at most, or the PUBREC of a manual QoS 2 message. -/
theorem ack_cases (f : InboundPublishFlow) (k : Nat) :
    f.ack k = f ∨ ∃ message, f.messages[k]? = some message ∧ message.resolved = false ∧
      ((f.ack k = f.resolve k message ∧ ∀ pid r, message.ackCallback ≠ some (.pubrec pid r)) ∨
        (∃ pid r, message.ackCallback = some (.puback pid false r) ∧
          f.ack k = (f.resolve k message).log (.sent .puback pid r)) ∨
        ∃ pid r, message.ackCallback = some (.pubrec pid r) ∧
          f.ack k = (f.resolve k message).runCallback (some (.pubrec pid r))) := by
  unfold ack
  split
  · exact Or.inl rfl
  · next message hmsg =>
    split
    · exact Or.inl rfl
    · next hres =>
      refine Or.inr ⟨message, hmsg, Bool.not_eq_true _ ▸ hres, ?_⟩
      cases hc : message.ackCallback with
      | none =>
        refine Or.inl ⟨?_, fun pid r he => by cases he⟩
        rw [resolve, hc]
        rfl
      | some c =>
        cases c with
        | puback pid acked r =>
          cases acked with
          | true =>
            refine Or.inl ⟨?_, fun pid r he => by cases he⟩
            rw [resolve, hc]
            rfl
          | false =>
            refine Or.inr (Or.inl ⟨pid, r, rfl, ?_⟩)
            rw [resolve, hc]
            rfl
        | pubrec pid r =>
          refine Or.inr (Or.inr ⟨pid, r, rfl, ?_⟩)
          rw [resolve, hc]

theorem ownId_markAcked {callback : Option AckCallback} (h : OwnId callback) :
    OwnId (markAcked callback) := by
  cases callback with
  | none => exact h
  | some c => cases c <;> exact h

/-- The callbacks left after a message was resolved. -/
theorem countP_resolve {f : InboundPublishFlow} {k : Nat} {message : Message}
    (hmsg : f.messages[k]? = some message) (pid : Int) :
    (f.resolve k message).messages.countP (unresolved pid) +
      (if unresolved pid message then 1 else 0) = f.messages.countP (unresolved pid) := by
  have hset := countP_set_of_get (unresolved pid)
    { message with resolved := true, ackCallback := markAcked message.ackCallback } hmsg
  exact hset

theorem Exclusive.resolve {f : InboundPublishFlow} {acts : List Act} {air : List Received}
    (h : Exclusive f acts air) {k : Nat} {message : Message}
    (hmsg : f.messages[k]? = some message) : Exclusive (f.resolve k message) acts air := by
  refine h.shrink (fun pid => Nat.le_refl _) rfl rfl (fun pid => ?_) (fun other hother => ?_) h.acts
  · have hcount := countP_resolve hmsg pid
    omega
  · rcases List.mem_or_eq_of_mem_set hother with hother | rfl
    · exact h.messages other hother
    · exact ownId_markAcked (h.messages message (List.mem_of_getElem? hmsg))

/-- The id of a callback moves from `pending_ack_qos2_in` to `inflight_qos2_in`. -/
theorem Exclusive.pubrecCallback {f : InboundPublishFlow} {acts : List Act} {air : List Received}
    (h : Exclusive f acts air) {k : Nat} {message : Message} {pid : Int} {r : InboundRecipient}
    (hmsg : f.messages[k]? = some message) (hres : message.resolved = false)
    (hc : message.ackCallback = some (.pubrec pid r)) :
    Exclusive ((f.resolve k message).runCallback (some (.pubrec pid r))) acts air := by
  have hun : unresolved pid message = true := by
    rw [unresolved, hres, hc]
    exact decide_eq_true rfl
  have hcount := countP_resolve hmsg pid
  rw [if_pos hun] at hcount
  have honce := h.callbackOnce pid
  have hpend := h.callbackPending pid (by omega)
  have hown := h.messages message (List.mem_of_getElem? hmsg)
  rw [hc] at hown
  have hbase := h.resolve hmsg
  have hget : ∀ pid', ((f.resolve k message).runCallback (some (.pubrec pid r))).inflightQos2In.get?
      pid' = if pid = pid' then some { recipient := r, delivered := true }
        else f.inflightQos2In.get? pid' := fun pid' => Dict.get?_set _ _ pid' _
  refine ⟨hbase.idOnce, fun pid' hpos => ?_, fun pid' hp => ?_, hbase.callbackOnce,
    fun pid' hpos => ?_, hbase.messages, hbase.acts, fun pid' flight hf => ?_⟩
  · obtain ⟨hfl, hpe⟩ := h.heldFree pid' hpos
    refine ⟨?_, fun hin => hpe (Finset.mem_of_mem_erase hin)⟩
    rw [hget, if_neg, hfl]
    rintro rfl
    exact hpe hpend
  · obtain ⟨hne, hin⟩ := Finset.mem_erase.1 hp
    rw [hget, if_neg (Ne.symm hne)]
    exact h.pendingFree pid' hin
  · refine Finset.mem_erase.2 ⟨?_, hbase.callbackPending pid' hpos⟩
    rintro rfl
    change 0 < (f.resolve k message).messages.countP (unresolved pid') + _ at hpos
    omega
  · rw [hget] at hf
    split at hf
    · next he =>
      obtain rfl := Option.some.inj hf
      rw [← he]
      exact hown
    · exact h.flights pid' flight hf

theorem Exclusive.ack {f : InboundPublishFlow} {acts : List Act} {air : List Received}
    (h : Exclusive f acts air) (k : Nat) : Exclusive (f.ack k) acts air := by
  rcases f.ack_cases k with he | ⟨message, hmsg, hres, ⟨he, -⟩ | ⟨pid, r, -, he⟩ | ⟨pid, r, hc, he⟩⟩ <;>
    rw [he]
  · exact h
  · exact h.resolve hmsg
  · exact (h.resolve hmsg).congr rfl rfl rfl rfl
  · exact h.pubrecCallback hmsg hres hc

/-! ## Steps -/

theorem Exclusive.handles {f f' : InboundPublishFlow} {env : Environment} {m : Received}
    {acts : List Act} (h : Exclusive f [] []) (hacc : f.Accounts fun _ => [])
    (hands : Handles f env m f' acts) : Exclusive f' acts [] := by
  have hmsg := f.message_selectRecipient env m
  have hno : ∀ {pid : Int}, f.IdFree pid → Nowhere f [] pid := fun hfree =>
    ⟨hacc.heldWith_eq_zero hfree, hfree.1, hfree.2.1⟩
  have hneutral : ∀ {acts : List Act}, (∀ pid, acts.countP (callsBack pid) = 0) →
      (∀ r callback, .deliver r callback ∈ acts → OwnId callback) → Exclusive f acts [] := by
    intro acts hzero hown
    refine h.shrink (fun pid => Nat.le_refl _) rfl rfl (fun pid => ?_) h.messages hown
    rw [hzero pid]
    exact Nat.le_refl _
  cases hands with
  | ignored => exact h
  | takesIn htakes hfree =>
    refine h.takesIn htakes fun pid hask => ?_
    obtain ⟨hqos, hpid⟩ := asksFor_iff.1 hask
    obtain ⟨pid', hpid', hfree⟩ := hfree hqos
    rw [hpid] at hpid'
    cases hpid'
    exact hno hfree
  | qos0 _ => exact hneutral (fun _ => rfl) (by rintro r callback hmem; cases List.mem_singleton.1 hmem; trivial)
  | qos1Auto pid _ =>
    refine hneutral (fun _ => rfl) fun r callback hmem => ?_
    rcases List.mem_cons.1 hmem with he | hmem
    · cases he; trivial
    · cases List.mem_singleton.1 hmem
  | qos1Manual pid _ _ =>
    exact hneutral (fun _ => rfl) (by rintro r callback hmem; cases List.mem_singleton.1 hmem; trivial)
  | qos2Again pid flight _ _ _ =>
    exact hneutral (fun _ => rfl) (by rintro r callback hmem; cases List.mem_singleton.1 hmem)
  | qos2Auto pid hqos hpid hfree _ =>
    have hask : asksFor pid (f.selectRecipient env m).message = true := by
      rw [hmsg]
      exact asksFor_iff.2 ⟨hqos, hpid⟩
    refine (h.startAuto (hno hfree) hask).shrink (fun pid => Nat.le_refl _) rfl rfl
      (fun pid => Nat.le_refl _) h.messages ?_
    rintro r callback hmem
    cases List.mem_singleton.1 hmem
  | qos2Manual pid hqos hpid hfree _ =>
    have hask : asksFor pid (f.selectRecipient env m).message = true := by
      rw [hmsg]
      exact asksFor_iff.2 ⟨hqos, hpid⟩
    exact h.startManual (hno hfree) hask

end InboundPublishFlow

end Zmqtt
