/-
  The QoS 2 exchanges of the broker beside the inbound flow of one connection.

  Of an exchange the broker has to send PUBLISH, then, after PUBREC, PUBREL; it is finished
  by PUBCOMP. What the flow knows of the id, and which acknowledgements are on their way to
  the broker, agrees with how far the broker is (`Agrees`): PUBREL is only sent for an id in
  `inflight_qos2_in`. A message whose PUBCOMP was sent was handed over to its recipient, or
  the read loop is about to (`Fulfilled`).
-/
import Zmqtt.Inbound.AtMostOnce

namespace Zmqtt

/-- An acknowledgement with the recipient it is sent for. -/
structure Acknowledgement where
  kind : AckKind
  pid : Int
  recipient : InboundRecipient
  deriving Repr, DecidableEq

def TraceEntry.ack? : TraceEntry → Option Acknowledgement
  | sent kind pid r => some ⟨kind, pid, r⟩
  | _ => none

def Act.ack? : Act → Option Acknowledgement
  | send kind pid r => some ⟨kind, pid, r⟩
  | deliver _ _ => none

/-- An acknowledgement of the QoS 2 exchange with this id. -/
def Acknowledgement.concerns (pid : Int) (a : Acknowledgement) : Bool :=
  a.pid = pid ∧ a.kind ≠ .puback

/-- How far the broker is with a message on this connection: it has to send PUBLISH, has sent
    it, has received PUBREC and has to send PUBREL, has sent it. -/
inductive Progress where
  | toPublish
  | published
  | toRelease
  | released
  deriving Repr, DecidableEq

/-- A QoS 2 message of the broker, until its PUBCOMP is received. -/
structure BrokerExchange where
  packet : Publish
  progress : Progress := .toPublish
  deriving Repr, DecidableEq

/-- A QoS 2 message with this id and other contents. -/
def stray (pid : Int) (packet : Publish) (m : Received) : Bool :=
  asksFor pid m && decide (m.packet ≠ packet)

theorem asksFor_of_stray {pid : Int} {packet : Publish} {m : Received}
    (h : stray pid packet m = true) : asksFor pid m = true := by
  rw [stray, Bool.and_eq_true] at h
  exact h.1

theorem packet_of_not_stray {pid : Int} {packet : Publish} {m : Received}
    (hask : asksFor pid m = true) (h : stray pid packet m ≠ true) : m.packet = packet := by
  by_contra hne
  refine h ?_
  rw [stray, Bool.and_eq_true]
  exact ⟨hask, decide_eq_true hne⟩

/-- The message was given to its recipient, if it has one. -/
inductive HandedOver (trace : List TraceEntry) (r : InboundRecipient) : Prop
  | nobody (hnobody : r.isNobody = true)
  | request (request : Nat) (hrequest : r.request = some request)
      (hmem : .requested request r.message ∈ trace)
  | queue (queue : Nat) (hqueue : r.queue = some queue) (hmem : .enqueued queue r.message ∈ trace)

theorem HandedOver.mono {trace trace' : List TraceEntry} {r : InboundRecipient}
    (h : HandedOver trace r) (hsub : trace ⊆ trace') : HandedOver trace' r := by
  cases h with
  | nobody hnobody => exact .nobody hnobody
  | request request hrequest hmem => exact .request request hrequest (hsub hmem)
  | queue queue hqueue hmem => exact .queue queue hqueue (hsub hmem)

namespace InboundPublishFlow

/-- The acknowledgements the client has sent, the oldest first. -/
def acknowledgements (f : InboundPublishFlow) : List Acknowledgement :=
  (f.trace.filterMap TraceEntry.ack?).reverse

/-- The QoS 2 acknowledgements of an id that the broker has not received: of those sent it has
    `taken`, and `acts` are the awaits to come. -/
def onWay (f : InboundPublishFlow) (taken : Nat) (acts : List Act) (pid : Int) :
    List Acknowledgement :=
  (f.acknowledgements.drop taken ++ acts.filterMap Act.ack?).filter (Acknowledgement.concerns pid)

/-- `ack()` of a message, of those in a queue or of one the read loop is about to deliver,
    will send PUBREC for the id. -/
def CallsBack (f : InboundPublishFlow) (acts : List Act) (pid : Int) (r : InboundRecipient) :
    Prop :=
  (∃ message ∈ f.messages, message.resolved = false ∧
    message.ackCallback = some (.pubrec pid r)) ∨
    ∃ r', .deliver r' (some (.pubrec pid r)) ∈ acts

section Agreement

variable {f f' : InboundPublishFlow} {acts acts' : List Act} {air air' : List Received}
  {taken : Nat} {pid pid' : Int} {r : InboundRecipient} {exchange : Option BrokerExchange}

/-! ## Acknowledgements on their way -/

theorem acknowledgements_eq {entry : TraceEntry} (htrace : f'.trace = entry :: f.trace) :
    f'.acknowledgements = f.acknowledgements ++ entry.ack?.toList := by
  rw [acknowledgements, htrace, List.filterMap_cons, acknowledgements]
  cases entry.ack? with
  | none => exact (List.append_nil _).symm
  | some a => exact List.reverse_cons

/-- Entries that are no acknowledgements. -/
theorem acknowledgements_append {l : List TraceEntry} (hl : ∀ entry ∈ l, entry.ack? = none)
    (htrace : f'.trace = l ++ f.trace) : f'.acknowledgements = f.acknowledgements := by
  rw [acknowledgements, htrace, List.filterMap_append, List.filterMap_eq_nil_iff.2 hl,
    List.nil_append]
  rfl

theorem acknowledgements_handOver (f : InboundPublishFlow) (r : InboundRecipient)
    (callback : Option AckCallback) :
    (f.handOver r callback).acknowledgements = f.acknowledgements := by
  rcases f.handOver_cases r callback with ⟨-, he⟩ | ⟨request, -, he⟩ | ⟨filter, entry, -, -, he⟩ <;>
    rw [he]
  · exact (acknowledgements_eq rfl).trans (List.append_nil _)
  · exact (acknowledgements_eq rfl).trans (List.append_nil _)

theorem onWay_congr (hacks : f'.acknowledgements = f.acknowledgements)
    (hacts : acts'.filterMap Act.ack? = acts.filterMap Act.ack?) :
    f'.onWay taken acts' pid = f.onWay taken acts pid := by
  rw [onWay, hacks, hacts]
  rfl

/-- An acknowledgement is written: it is the last one on the way. -/
theorem onWay_sent {kind : AckKind} (hbound : taken ≤ f.acknowledgements.length)
    (htrace : f'.trace = .sent kind pid' r :: f.trace) :
    f'.onWay taken acts pid = f.onWay taken (.send kind pid' r :: acts) pid := by
  rw [onWay, acknowledgements_eq htrace, List.drop_append_of_le_length hbound, onWay,
    List.append_assoc]
  rfl

/-- With nothing to come from the read loop, a written acknowledgement is added at the end. -/
theorem onWay_write {kind : AckKind} (hbound : taken ≤ f.acknowledgements.length)
    (htrace : f'.trace = .sent kind pid' r :: f.trace)
    (hacts : (acts.filterMap Act.ack?).filter (Acknowledgement.concerns pid) = []) :
    f'.onWay taken acts pid = f.onWay taken acts pid ++
      [⟨kind, pid', r⟩].filter (Acknowledgement.concerns pid) := by
  rw [onWay, acknowledgements_eq htrace, List.drop_append_of_le_length hbound, onWay]
  simp only [List.filter_append, hacts, List.append_nil]
  rfl

theorem concerns_of_ne {kind : AckKind} (hne : pid' ≠ pid) (r : InboundRecipient) :
    Acknowledgement.concerns pid ⟨kind, pid', r⟩ = false :=
  decide_eq_false fun h => hne h.1

theorem concerns_own {kind : AckKind} (hkind : kind ≠ .puback) (r : InboundRecipient) :
    Acknowledgement.concerns pid ⟨kind, pid, r⟩ = true :=
  decide_eq_true ⟨rfl, hkind⟩

theorem concerns_puback (r : InboundRecipient) :
    Acknowledgement.concerns pid ⟨.puback, pid', r⟩ = false :=
  decide_eq_false fun h => h.2 rfl

theorem onWay_cons {kind : AckKind} (hno : Acknowledgement.concerns pid ⟨kind, pid', r⟩ = false) :
    f.onWay taken (.send kind pid' r :: acts) pid = f.onWay taken acts pid := by
  rw [onWay, onWay, List.filter_append, List.filter_append, List.filterMap_cons]
  simp only [Act.ack?, List.filter_cons, hno, Bool.false_eq_true, if_false]

/-- The acknowledgement of another id, or a PUBACK, is written. -/
theorem onWay_other {kind : AckKind} (hbound : taken ≤ f.acknowledgements.length)
    (htrace : f'.trace = .sent kind pid' r :: f.trace)
    (hno : Acknowledgement.concerns pid ⟨kind, pid', r⟩ = false) :
    f'.onWay taken acts pid = f.onWay taken acts pid :=
  (onWay_sent hbound htrace).trans (onWay_cons hno)

theorem length_acknowledgements_le {entry : TraceEntry} (htrace : f'.trace = entry :: f.trace) :
    f.acknowledgements.length ≤ f'.acknowledgements.length := by
  rw [acknowledgements_eq htrace, List.length_append]
  exact Nat.le_add_right _ _

/-! ## Agreement of the flow and the broker -/

/-- What the flow knows of an id, and what is on its way to the broker, for each stage of the
    exchange. -/
inductive Agrees (taken : Nat) (f : InboundPublishFlow) (acts : List Act) (air : List Received)
    (pid : Int) : Option BrokerExchange → Prop
  | idle {exchange : Option BrokerExchange}
      (hexchange : ∀ x, exchange = some x → x.progress = .toPublish) (hno : Nowhere f air pid)
      (hway : f.onWay taken acts pid = []) : Agrees taken f acts air pid exchange
  | accepted {packet : Publish} (hflight : f.inflightQos2In.get? pid = none)
      (hway : f.onWay taken acts pid = [])
      (hstray : f.heldWith (stray pid packet) + air.countP (stray pid packet) = 0)
      (hcalls : ∀ r, f.CallsBack acts pid r → r.message.packet = packet) :
      Agrees taken f acts air pid (some ⟨packet, .published⟩)
  | inFlight {packet : Publish} {progress : Progress} (flight : InboundQoS2Flight)
      (hflight : f.inflightQos2In.get? pid = some flight)
      (hpacket : flight.recipient.message.packet = packet)
      (hway : (progress = .published ∧
          f.onWay taken acts pid = [⟨.pubrec, pid, flight.recipient⟩]) ∨
        (progress = .toRelease ∧ f.onWay taken acts pid = [])) :
      Agrees taken f acts air pid (some ⟨packet, progress⟩)
  | released {packet : Publish} (r : InboundRecipient) (hno : Nowhere f air pid)
      (hway : f.onWay taken acts pid = [⟨.pubcomp, pid, r⟩]) (hpacket : r.message.packet = packet) :
      Agrees taken f acts air pid (some ⟨packet, .released⟩)

theorem Nowhere.frame (h : Nowhere f air pid)
    (hheld : f'.heldWith (asksFor pid) + air'.countP (asksFor pid) ≤
      f.heldWith (asksFor pid) + air.countP (asksFor pid))
    (hflight : f'.inflightQos2In.get? pid = f.inflightQos2In.get? pid)
    (hpending : pid ∈ f'.pendingAckQos2In → pid ∈ f.pendingAckQos2In) : Nowhere f' air' pid := by
  have hzero := h.held
  exact ⟨by omega, hflight.trans h.flight, fun hin => h.pending (hpending hin)⟩

/-- The exchange of the id is not touched: messages of the id leave at most, and its flight
    and what is on its way stay. -/
theorem Agrees.frame {taken' : Nat} (h : Agrees taken f acts air pid exchange)
    (hheld : ∀ q : Received → Bool, (∀ m, q m = true → asksFor pid m = true) →
      f'.heldWith q + air'.countP q ≤ f.heldWith q + air.countP q)
    (hflight : f'.inflightQos2In.get? pid = f.inflightQos2In.get? pid)
    (hpending : pid ∈ f'.pendingAckQos2In → pid ∈ f.pendingAckQos2In)
    (hcalls : ∀ r, f'.CallsBack acts' pid r → f.CallsBack acts pid r)
    (hway : f'.onWay taken' acts' pid = f.onWay taken acts pid) :
    Agrees taken' f' acts' air' pid exchange := by
  have hasks := hheld (asksFor pid) fun m hm => hm
  cases h with
  | idle hexchange hno hempty =>
    exact .idle hexchange (hno.frame hasks hflight hpending) (hway.trans hempty)
  | @accepted packet hnone hempty hstray hpackets =>
    refine .accepted (hflight.trans hnone) (hway.trans hempty) ?_ fun r hr =>
      hpackets r (hcalls r hr)
    have hle := hheld (stray pid packet) fun m hm => asksFor_of_stray hm
    omega
  | inFlight flight hsome hpacket hstage =>
    refine .inFlight flight (hflight.trans hsome) hpacket ?_
    rw [hway]
    exact hstage
  | released r hno hone hpacket =>
    exact .released r (hno.frame hasks hflight hpending) (hway.trans hone) hpacket

/-! ## Awaits -/

theorem CallsBack.mono (h : f.CallsBack acts pid r) (hsub : acts ⊆ acts') :
    f.CallsBack acts' pid r := by
  rcases h with hmessage | ⟨r', hact⟩
  · exact Or.inl hmessage
  · exact Or.inr ⟨r', hsub hact⟩

theorem CallsBack.handOver {r' : InboundRecipient} {callback : Option AckCallback}
    (h : (f.handOver r' callback).CallsBack acts pid r) :
    f.CallsBack (.deliver r' callback :: acts) pid r := by
  have hsub : acts ⊆ .deliver r' callback :: acts := List.subset_cons_self _ _
  rcases f.handOver_cases r' callback with ⟨-, he⟩ | ⟨request, -, he⟩ | ⟨filter, entry, -, -, he⟩ <;>
    rw [he] at h
  · exact h.mono hsub
  · exact CallsBack.mono (f := f) h hsub
  · rcases h with ⟨message, hmem, hres, hc⟩ | ⟨r'', hact⟩
    · rcases List.mem_append.1 hmem with hmem | hmem
      · exact Or.inl ⟨message, hmem, hres, hc⟩
      · -- the callback was that of the await
        rw [List.mem_singleton.1 hmem] at hc
        dsimp only at hc
        split at hc
        · cases hc
        · exact Or.inr ⟨r', hc ▸ List.mem_cons_self⟩
    · exact Or.inr ⟨r'', List.mem_cons_of_mem _ hact⟩

/-- Only the buffers, the flights, the pending ids, the messages and the acknowledgements
    matter. -/
theorem Agrees.congr (h : Agrees taken f acts air pid exchange) (hbuffers : f'.buffers = f.buffers)
    (hflights : f'.inflightQos2In = f.inflightQos2In)
    (hpending : f'.pendingAckQos2In = f.pendingAckQos2In) (hmessages : f'.messages = f.messages)
    (hacks : f'.acknowledgements = f.acknowledgements) :
    Agrees taken f' acts air pid exchange := by
  refine h.frame (fun q _ => ?_) (by rw [hflights]) (fun hin => hpending ▸ hin) (fun r hr => ?_)
    (onWay_congr hacks rfl)
  · rw [heldWith, hbuffers]
    exact Nat.le_refl _
  · rw [CallsBack, hmessages] at hr
    exact hr

/-- The acknowledgement of another id, or a PUBACK, is written. -/
theorem Agrees.write (h : Agrees taken f acts air pid exchange) {kind : AckKind}
    (hbound : taken ≤ f.acknowledgements.length)
    (hno : Acknowledgement.concerns pid ⟨kind, pid', r⟩ = false) :
    Agrees taken (f.log (.sent kind pid' r)) acts air pid exchange :=
  h.frame (fun _ _ => Nat.le_refl _) rfl id (fun _ hr => hr) (onWay_other hbound rfl hno)

theorem Agrees.send {kind : AckKind} (hbound : taken ≤ f.acknowledgements.length)
    (h : Agrees taken f (.send kind pid' r :: acts) air pid exchange) :
    Agrees taken (f.log (.sent kind pid' r)) acts air pid exchange :=
  h.frame (fun _ _ => Nat.le_refl _) rfl id
    (fun _ hr => CallsBack.mono (f := f) hr (List.subset_cons_self _ _)) (onWay_sent hbound rfl)

theorem Agrees.handOver {callback : Option AckCallback}
    (h : Agrees taken f (.deliver r callback :: acts) air pid exchange) :
    Agrees taken (f.handOver r callback) acts air pid exchange := by
  have hsame := f.sameTables_handOver r callback
  refine h.frame (fun q _ => ?_) (by rw [hsame.inflight]) (fun hin => hsame.pendingAck ▸ hin)
    (fun _ hr => hr.handOver) (onWay_congr (f.acknowledgements_handOver r callback) rfl)
  rw [heldWith, hsame.buffers]
  exact Nat.le_refl _

/-- The read loop is about to deliver a message whose `ack()` does not concern the id. -/
theorem Agrees.addDeliver (h : Agrees taken f acts air pid exchange)
    {callback : Option AckCallback} (hno : ∀ r', callback ≠ some (.pubrec pid r')) :
    Agrees taken f (.deliver r callback :: acts) air pid exchange := by
  refine h.frame (fun _ _ => Nat.le_refl _) rfl id (fun r' hr => ?_) rfl
  rcases hr with hmessage | ⟨r'', hact⟩
  · exact Or.inl hmessage
  · rcases List.mem_cons.1 hact with he | hact
    · cases he
      exact absurd rfl (hno r')
    · exact Or.inr ⟨r'', hact⟩

theorem Agrees.addSend (h : Agrees taken f acts air pid exchange) {kind : AckKind}
    (hno : Acknowledgement.concerns pid ⟨kind, pid', r⟩ = false) :
    Agrees taken f (.send kind pid' r :: acts) air pid exchange := by
  refine h.frame (fun _ _ => Nat.le_refl _) rfl id (fun r' hr => ?_) (onWay_cons hno)
  rcases hr with hmessage | ⟨r'', hact⟩
  · exact Or.inl hmessage
  · rcases List.mem_cons.1 hact with he | hact
    · cases he
    · exact Or.inr ⟨r'', hact⟩

/-! ## Messages of a drain -/

/-- Messages move between object `i` and the running task, or leave. -/
theorem Agrees.move (h : Agrees taken f acts air pid exchange) {i : Nat} {b b' : Buffered}
    (hb : f.buffers[i]? = some b)
    (hcount : ∀ q, b'.held.countP q + air'.countP q ≤ b.held.countP q + air.countP q) :
    Agrees taken (f.setBuffer i b') acts air' pid exchange := by
  refine h.frame (fun q _ => ?_) rfl id (fun _ hr => hr) rfl
  have hset := heldWith_setBuffer hb b' q
  have hc := hcount q
  omega

theorem Agrees.perm (h : Agrees taken f acts air pid exchange) (hperm : air.Perm air') :
    Agrees taken f acts air' pid exchange :=
  h.frame (fun q _ => by rw [hperm.countP_eq]) rfl id (fun _ hr => hr) rfl

theorem Agrees.tail {m : Received} (h : Agrees taken f acts (m :: air) pid exchange) :
    Agrees taken f acts air pid exchange := by
  refine h.frame (fun q _ => ?_) rfl id (fun _ hr => hr) rfl
  rw [List.countP_cons]
  exact Nat.add_le_add_left (Nat.le_add_right _ _) _

/-- The exchange of another id starts. -/
theorem Agrees.startAuto (h : Agrees taken f acts air pid exchange) (hne : pid' ≠ pid) :
    Agrees taken (f.startAuto pid' r) acts air pid exchange := by
  refine h.frame (fun _ _ => Nat.le_refl _) ?_ id (fun _ hr => hr)
    (onWay_congr ((acknowledgements_eq rfl).trans (List.append_nil _)) rfl)
  exact (Dict.get?_set _ _ pid _).trans (if_neg hne)

theorem Agrees.startManual (h : Agrees taken f acts air pid exchange) (hne : pid' ≠ pid) :
    Agrees taken (f.startManual pid' r) (.deliver r (some (.pubrec pid' r)) :: acts) air pid
      exchange := by
  have hbase : Agrees taken (f.startManual pid' r) acts air pid exchange := by
    refine h.frame (fun _ _ => Nat.le_refl _) rfl (fun hin => ?_) (fun _ hr => hr)
      (onWay_congr ((acknowledgements_eq rfl).trans (List.append_nil _)) rfl)
    exact (Finset.mem_insert.1 hin).resolve_left (Ne.symm hne)
  refine hbase.addDeliver fun r' he => ?_
  cases he
  exact hne rfl

/-- A message of the id that the running task takes up belongs to an exchange whose PUBLISH
    the broker has sent. -/
theorem Agrees.of_air {m : Received} (h : Agrees taken f acts (m :: air) pid exchange)
    (hexcl : Exclusive f acts (m :: air)) (hask : asksFor pid m = true) :
    exchange = some ⟨m.packet, .published⟩ ∧ f.onWay taken acts pid = [] ∧
      f.heldWith (stray pid m.packet) + air.countP (stray pid m.packet) = 0 ∧
      ∀ r, f.CallsBack acts pid r → r.message.packet = m.packet := by
  have hnot : ¬ Nowhere f (m :: air) pid := fun hno => by
    have hzero := hno.held
    rw [List.countP_cons, if_pos hask] at hzero
    omega
  cases h with
  | idle _ hno _ => exact absurd hno hnot
  | @accepted packet _ hway hstray hcalls =>
    have hpacket : m.packet = packet := by
      refine packet_of_not_stray hask fun hm => ?_
      rw [List.countP_cons, if_pos hm] at hstray
      omega
    subst hpacket
    refine ⟨rfl, hway, ?_, hcalls⟩
    rw [List.countP_cons] at hstray
    omega
  | inFlight flight hflight _ _ =>
    rw [(hexcl.nowhere hask).flight] at hflight
    cases hflight
  | released r hno _ _ => exact absurd hno hnot

/-- The flight of the id is started, with its PUBREC as the only one on its way. -/
theorem Agrees.of_startAuto
    (hway : f'.onWay taken acts pid = [⟨.pubrec, pid, r⟩])
    (hflights : f'.inflightQos2In = (f.startAuto pid r).inflightQos2In) :
    Agrees taken f' acts air pid (some ⟨r.message.packet, .published⟩) := by
  refine .inFlight { recipient := r } ?_ rfl (Or.inl ⟨rfl, hway⟩)
  rw [hflights]
  exact (Dict.get?_set _ _ pid _).trans (if_pos rfl)

/-- The message of the id is given to a subscription that acknowledges later. -/
theorem Agrees.of_startManual (hflight : f.inflightQos2In.get? pid = none)
    (hway : f.onWay taken acts pid = [])
    (hstray : f.heldWith (stray pid r.message.packet) +
      air.countP (stray pid r.message.packet) = 0)
    (hcalls : ∀ r', f.CallsBack acts pid r' → r'.message.packet = r.message.packet) :
    Agrees taken (f.startManual pid r) (.deliver r (some (.pubrec pid r)) :: acts) air pid
      (some ⟨r.message.packet, .published⟩) := by
  refine .accepted hflight ?_ hstray fun r' hr => ?_
  · exact (onWay_congr ((acknowledgements_eq rfl).trans (List.append_nil _)) rfl).trans hway
  · rcases hr with hmessage | ⟨r'', hact⟩
    · exact hcalls r' (Or.inl hmessage)
    · rcases List.mem_cons.1 hact with he | hact
      · cases he
        rfl
      · exact hcalls r' (Or.inr ⟨r'', hact⟩)

theorem Agrees.handsOn (h : Agrees taken f acts (r.message :: air) pid exchange)
    (hexcl : Exclusive f acts (r.message :: air)) (hbound : taken ≤ f.acknowledgements.length)
    (hacts : (acts.filterMap Act.ack?).filter (Acknowledgement.concerns pid) = [])
    (hands : HandsOn f r f') : Agrees taken f' acts air pid exchange := by
  have hother : ∀ {pid' : Int}, r.message.packet.qos = .exactlyOnce →
      r.message.packet.packetId = some pid' → asksFor pid r.message ≠ true → pid' ≠ pid := by
    rintro pid' hqos hpid hask rfl
    exact hask (asksFor_iff.2 ⟨hqos, hpid⟩)
  have hsame : ∀ {pid' : Int}, r.message.packet.packetId = some pid' →
      asksFor pid r.message = true → pid' = pid := fun hpid hask =>
    Option.some.inj (hpid.symm.trans (asksFor_iff.1 hask).2)
  cases hands with
  | qos0 _ => exact (h.tail.addDeliver fun _ => by simp).handOver
  | qos1Auto pid' _ =>
    have hover : Agrees taken (f.handOver r none) acts air pid exchange :=
      (h.tail.addDeliver fun _ => by simp).handOver
    refine hover.write ?_ (concerns_puback r)
    rw [acknowledgements_handOver]
    exact hbound
  | qos1Manual pid' _ _ => exact (h.tail.addDeliver fun _ => by simp).handOver
  | qos2Auto pid' hqos hpid _ =>
    have hstarted : (f.startAuto pid' r).acknowledgements = f.acknowledgements :=
      (acknowledgements_eq rfl).trans (List.append_nil _)
    have hbound' : taken ≤ (f.startAuto pid' r).acknowledgements.length := by
      rw [hstarted]
      exact hbound
    by_cases hask : asksFor pid r.message = true
    · obtain rfl := hsame hpid hask
      obtain ⟨rfl, hway, -, -⟩ := h.of_air hexcl hask
      refine Agrees.of_startAuto ?_ rfl
      rw [onWay_write hbound' rfl hacts, onWay_congr hstarted rfl, hway, List.nil_append]
      exact List.filter_cons_of_pos (concerns_own (by simp) r)
    · have hne := hother hqos hpid hask
      exact (h.tail.startAuto hne).write hbound' (concerns_of_ne hne r)
  | qos2Manual pid' hqos hpid _ =>
    by_cases hask : asksFor pid r.message = true
    · obtain rfl := hsame hpid hask
      obtain ⟨rfl, hway, hstray, hcalls⟩ := h.of_air hexcl hask
      exact (Agrees.of_startManual (hexcl.nowhere hask).flight hway hstray hcalls).handOver
    · exact (h.tail.startManual (hother hqos hpid hask)).handOver

/-! ## `Message.ack` -/

theorem Exclusive.pending_of_callsBack (h : Exclusive f acts air) (hcall : f.CallsBack acts pid r) :
    pid ∈ f.pendingAckQos2In := by
  refine h.callbackPending pid ?_
  rcases hcall with ⟨message, hmem, hres, hc⟩ | ⟨r', hact⟩
  · have hone : unresolved pid message = true := by
      rw [unresolved, hres, hc]
      exact decide_eq_true rfl
    have hpos : 0 < f.messages.countP (unresolved pid) :=
      List.countP_pos_iff.2 ⟨message, hmem, hone⟩
    omega
  · have hpos : 0 < acts.countP (callsBack pid) :=
      List.countP_pos_iff.2 ⟨_, hact, decide_eq_true rfl⟩
    omega

theorem Agrees.resolve (h : Agrees taken f acts air pid exchange) {k : Nat} {message : Message} :
    Agrees taken (f.resolve k message) acts air pid exchange := by
  refine h.frame (fun _ _ => Nat.le_refl _) rfl id (fun r hr => ?_)
    (onWay_congr ((acknowledgements_eq rfl).trans (List.append_nil _)) rfl)
  rcases hr with ⟨other, hmem, hres, hc⟩ | hact
  · rcases List.mem_or_eq_of_mem_set hmem with hmem | rfl
    · exact Or.inl ⟨other, hmem, hres, hc⟩
    · cases hres
  · exact Or.inr hact

/-- The id moves from `pending_ack_qos2_in` to `inflight_qos2_in`, and its PUBREC is sent. -/
theorem Agrees.pubrecCallback (h : Agrees taken f acts air pid exchange)
    (hexcl : Exclusive f acts air) (hpend : pid ∈ f.pendingAckQos2In)
    (hcall : f.CallsBack acts pid r)
    (hflights : f'.inflightQos2In = f.inflightQos2In.set pid { recipient := r, delivered := true })
    (hsent : f'.onWay taken acts pid = f.onWay taken acts pid ++ [⟨.pubrec, pid, r⟩]) :
    Agrees taken f' acts air pid exchange := by
  cases h with
  | idle _ hno _ => exact absurd hpend hno.pending
  | accepted _ hway _ hcalls =>
    rw [← hcalls r hcall]
    refine .inFlight { recipient := r, delivered := true } ?_ rfl (Or.inl ⟨rfl, ?_⟩)
    · rw [hflights]
      exact (Dict.get?_set _ _ pid _).trans (if_pos rfl)
    · rw [hsent, hway, List.nil_append]
  | inFlight flight hflight _ _ =>
    rw [hexcl.pendingFree pid hpend] at hflight
    cases hflight
  | released _ hno _ _ => exact absurd hpend hno.pending

theorem Agrees.ack (h : Agrees taken f acts air pid exchange) (hexcl : Exclusive f acts air)
    (hbound : taken ≤ f.acknowledgements.length)
    (hacts : (acts.filterMap Act.ack?).filter (Acknowledgement.concerns pid) = []) (k : Nat) :
    Agrees taken (f.ack k) acts air pid exchange := by
  rcases f.ack_cases k with he | ⟨message, hmsg, hres, hcases⟩
  · rw [he]
    exact h
  have hsame : (f.resolve k message).acknowledgements = f.acknowledgements :=
    (acknowledgements_eq rfl).trans (List.append_nil _)
  have hbound' : taken ≤ (f.resolve k message).acknowledgements.length := by
    rw [hsame]
    exact hbound
  rcases hcases with ⟨he, -⟩ | ⟨pid', r, -, he⟩ | ⟨pid', r, hc, he⟩ <;> rw [he]
  · exact h.resolve
  · exact h.resolve.write hbound' (concerns_puback r)
  · by_cases hp : pid' = pid
    · subst hp
      have hcall : f.CallsBack acts pid' r := Or.inl ⟨message, List.mem_of_getElem? hmsg, hres, hc⟩
      refine h.pubrecCallback hexcl (hexcl.pending_of_callsBack hcall) hcall rfl ?_
      rw [onWay_write hbound' rfl hacts, onWay_congr hsame rfl,
        List.filter_cons_of_pos (concerns_own (by simp) r), List.filter_nil]
    · refine h.resolve.frame (fun _ _ => Nat.le_refl _) ?_ (fun hin => Finset.mem_of_mem_erase hin)
        (fun _ hr => hr) (onWay_other hbound' rfl (concerns_of_ne hp r))
      exact (Dict.get?_set _ _ pid _).trans (if_neg hp)

/-! ## PUBLISH and PUBREL -/

/-- The only acknowledgement to come is added at the end. -/
theorem onWay_own {kind : AckKind} (hkind : kind ≠ .puback)
    (hacts : acts.filterMap Act.ack? = []) :
    f.onWay taken (.send kind pid r :: acts) pid = f.onWay taken [] pid ++ [⟨kind, pid, r⟩] := by
  rw [onWay, onWay, List.filter_append, List.filter_append, List.filterMap_cons, hacts]
  simp only [Act.ack?, List.filterMap_nil, List.filter_nil, List.append_nil]
  rw [List.filter_cons_of_pos (concerns_own hkind r), List.filter_nil]

/-- A PUBLISH that has nothing to do with the id. -/
theorem Agrees.handles {env : Environment} {m : Received}
    (h : Agrees taken f [] [] pid exchange) (hask : asksFor pid m ≠ true)
    (hands : Handles f env m f' acts) : Agrees taken f' acts [] pid exchange := by
  have hother : ∀ {pid' : Int}, m.packet.qos = .exactlyOnce → m.packet.packetId = some pid' →
      pid' ≠ pid := by
    rintro pid' hqos hpid rfl
    exact hask (asksFor_iff.2 ⟨hqos, hpid⟩)
  cases hands with
  | ignored => exact h
  | takesIn htakes _ =>
    have htables : f'.inflightQos2In = f.inflightQos2In ∧
        f'.pendingAckQos2In = f.pendingAckQos2In ∧ f'.messages = f.messages ∧
        f'.trace = .buffered m :: f.trace := by
      cases htakes <;> exact ⟨rfl, rfl, rfl, rfl⟩
    obtain ⟨hflights, hpending, hmessages, htrace⟩ := htables
    refine h.frame (fun q hq => ?_) (by rw [hflights]) (fun hin => hpending ▸ hin) (fun r hr => ?_)
      (onWay_congr ((acknowledgements_eq htrace).trans (List.append_nil _)) rfl)
    · rw [htakes.heldWith, if_neg fun hm => hask (hq m hm)]
      exact Nat.le_refl _
    · rw [CallsBack, hmessages] at hr
      exact hr
  | qos0 _ => exact h.addDeliver fun _ => by simp
  | qos1Auto pid' _ => exact (h.addSend (concerns_puback _)).addDeliver fun _ => by simp
  | qos1Manual pid' _ _ => exact h.addDeliver fun _ => by simp
  | qos2Again pid' flight hqos hpid _ => exact h.addSend (concerns_of_ne (hother hqos hpid) _)
  | qos2Auto pid' hqos hpid _ _ =>
    exact (h.startAuto (hother hqos hpid)).addSend (concerns_of_ne (hother hqos hpid) _)
  | qos2Manual pid' hqos hpid _ _ => exact h.startManual (hother hqos hpid)

/-- The PUBLISH of an exchange was read, and has had no effect yet. -/
theorem Agrees.of_nowhere {packet : Publish} (hexcl : Exclusive f [] []) (hno : Nowhere f [] pid)
    (hway : f.onWay taken [] pid = []) :
    Agrees taken f [] [] pid (some ⟨packet, .published⟩) := by
  refine .accepted hno.flight hway ?_ fun r hr => ?_
  · have hzero := hno.held
    have hle : f.heldWith (stray pid packet) ≤ f.heldWith (asksFor pid) :=
      List.sum_le_sum fun b _ => List.countP_mono_left fun m _ hm => asksFor_of_stray hm
    rw [List.countP_nil] at hzero ⊢
    omega
  · exact absurd (hexcl.pending_of_callsBack hr) hno.pending

/-- The PUBLISH of an exchange. -/
theorem Agrees.handlesOwn {env : Environment} {m : Received} (hexcl : Exclusive f [] [])
    (hno : Nowhere f [] pid) (hway : f.onWay taken [] pid = []) (hask : asksFor pid m = true)
    (hands : Handles f env m f' acts) :
    Agrees taken f' acts [] pid (some ⟨m.packet, .published⟩) := by
  have hmsg : (f.selectRecipient env m).message.packet = m.packet := by
    rw [message_selectRecipient]
  have hold : Agrees taken f [] [] pid (some ⟨m.packet, .published⟩) :=
    Agrees.of_nowhere hexcl hno hway
  obtain ⟨hqos, hpid⟩ := asksFor_iff.1 hask
  have hsame : ∀ {pid' : Int}, m.packet.packetId = some pid' → pid' = pid := fun hpid' =>
    Option.some.inj (hpid'.symm.trans hpid)
  have hcontra : ∀ {qos : QoS}, m.packet.qos = qos → qos ≠ .exactlyOnce → False :=
    fun hq hne => hne (hq.symm.trans hqos)
  cases hold with
  | idle hexchange _ _ => cases hexchange _ rfl
  | inFlight flight hflight _ _ =>
    rw [hno.flight] at hflight
    cases hflight
  | accepted hflight _ hstray hcalls =>
    cases hands with
    | ignored => exact .accepted hflight hway hstray hcalls
    | takesIn htakes _ =>
      have htables : f'.inflightQos2In = f.inflightQos2In ∧ f'.messages = f.messages ∧
          f'.trace = .buffered m :: f.trace := by
        cases htakes <;> exact ⟨rfl, rfl, rfl⟩
      obtain ⟨hflights, hmessages, htrace⟩ := htables
      have hfit : stray pid m.packet m = false := by
        rw [stray, decide_eq_false (not_not.2 rfl), Bool.and_false]
      refine .accepted (hflights ▸ hflight) ?_ ?_ fun r hr => ?_
      · rw [onWay_congr ((acknowledgements_eq htrace).trans (List.append_nil _)) rfl, hway]
      · rw [htakes.heldWith, hfit]
        exact hstray
      · rw [CallsBack, hmessages] at hr
        exact hcalls r hr
    | qos0 hq => exact (hcontra hq (by simp)).elim
    | qos1Auto pid' hq => exact (hcontra hq (by simp)).elim
    | qos1Manual pid' hq _ => exact (hcontra hq (by simp)).elim
    | qos2Again pid' flight _ hpid' hsome =>
      rw [hsame hpid', hno.flight] at hsome
      cases hsome
    | qos2Auto pid' _ hpid' _ _ =>
      obtain rfl := hsame hpid'
      rw [← hmsg]
      refine Agrees.of_startAuto ?_ rfl
      rw [onWay_own (by simp) rfl, onWay_congr ((acknowledgements_eq rfl).trans
        (List.append_nil _)) rfl, hway, List.nil_append]
    | qos2Manual pid' _ hpid' _ _ =>
      obtain rfl := hsame hpid'
      rw [← hmsg] at hstray hcalls ⊢
      exact Agrees.of_startManual hflight hway hstray hcalls

/-- The PUBREL of another id. -/
theorem Agrees.pubrel {flight : InboundQoS2Flight} (h : Agrees taken f [] [] pid exchange)
    (hne : pid' ≠ pid) :
    Agrees taken ((f.log (.pubrel pid')).popFlight pid')
      (.send .pubcomp pid' flight.recipient ::
        if flight.delivered then [] else [.deliver flight.recipient none]) [] pid exchange := by
  have hpop : Agrees taken ((f.log (.pubrel pid')).popFlight pid') [] [] pid exchange := by
    refine h.frame (fun _ _ => Nat.le_refl _) ?_ id (fun _ hr => hr)
      (onWay_congr ((acknowledgements_eq rfl).trans (List.append_nil _)) rfl)
    exact (Dict.get?_pop _ _ pid).trans (if_neg hne)
  refine Agrees.addSend ?_ (concerns_of_ne hne _)
  split
  · exact hpop
  · exact hpop.addDeliver fun _ => by simp

/-- The PUBREL of an exchange finds its flight, and PUBCOMP follows. -/
theorem Agrees.pubrelOwn {packet : Publish} {flight : InboundQoS2Flight}
    (h : Agrees taken f [] [] pid (some ⟨packet, .toRelease⟩)) (hexcl : Exclusive f [] [])
    (hflight : f.inflightQos2In.get? pid = some flight) :
    flight.recipient.message.packet = packet ∧
      Agrees taken ((f.log (.pubrel pid)).popFlight pid)
        (.send .pubcomp pid flight.recipient ::
          if flight.delivered then [] else [.deliver flight.recipient none]) [] pid
        (some ⟨packet, .released⟩) := by
  have hsome : f.inflightQos2In.get? pid ≠ none := by
    rw [hflight]
    exact Option.some_ne_none _
  cases h with
  | idle hexchange _ _ => cases hexchange _ rfl
  | inFlight flight' hflight' hpacket hstage =>
    obtain rfl := Option.some.inj (hflight.symm.trans hflight')
    have hway : f.onWay taken [] pid = [] := by
      rcases hstage with ⟨he, -⟩ | ⟨-, hway⟩
      · cases he
      · exact hway
    refine ⟨hpacket, .released flight.recipient ⟨?_, ?_, fun hin => ?_⟩ ?_ hpacket⟩
    · by_contra hne
      exact hsome (hexcl.heldFree pid (Nat.pos_of_ne_zero hne)).1
    · exact (Dict.get?_pop _ _ pid).trans (if_pos rfl)
    · exact hsome (hexcl.pendingFree pid hin)
    · rw [onWay_own (by simp) (by split <;> rfl),
        onWay_congr ((acknowledgements_eq rfl).trans (List.append_nil _)) rfl, hway, List.nil_append]

theorem Agrees.flight_of_toRelease {packet : Publish}
    (h : Agrees taken f acts air pid (some ⟨packet, .toRelease⟩)) :
    ∃ flight, f.inflightQos2In.get? pid = some flight := by
  cases h with
  | idle hexchange _ _ => cases hexchange _ rfl
  | inFlight flight hflight _ _ => exact ⟨flight, hflight⟩

/-! ## Deliveries before and after PUBCOMP -/

/-- The message of a PUBCOMP was handed over or is about to be, and what the tables say was
    delivered was handed over. `acts` are the awaits to come. -/
structure Fulfilled (f : InboundPublishFlow) (acts : List Act) : Prop where
  sent : ∀ pid r, .sent .pubcomp pid r ∈ f.trace ∨ .send .pubcomp pid r ∈ acts →
    HandedOver f.trace r ∨ ∃ callback, .deliver r callback ∈ acts
  flights : ∀ pid flight, f.inflightQos2In.get? pid = some flight → flight.delivered = true →
    HandedOver f.trace flight.recipient
  messages : ∀ message ∈ f.messages, ∀ pid r, message.ackCallback = some (.pubrec pid r) →
    HandedOver f.trace r

/-- What has to be said of new entries, flights and messages. -/
theorem Fulfilled.frame (h : Fulfilled f acts) (hsub : f.trace ⊆ f'.trace)
    (hsent : ∀ pid r, .sent .pubcomp pid r ∈ f'.trace ∨ .send .pubcomp pid r ∈ acts' →
      (.sent .pubcomp pid r ∈ f.trace ∨ .send .pubcomp pid r ∈ acts) ∨
        HandedOver f'.trace r ∨ ∃ callback, .deliver r callback ∈ acts')
    (hacts : ∀ r callback, .deliver r callback ∈ acts →
      HandedOver f'.trace r ∨ ∃ callback, .deliver r callback ∈ acts')
    (hflights : ∀ pid flight, f'.inflightQos2In.get? pid = some flight →
      flight.delivered = true → f.inflightQos2In.get? pid = some flight ∨
        HandedOver f'.trace flight.recipient)
    (hmessages : ∀ message ∈ f'.messages, ∀ pid r, message.ackCallback = some (.pubrec pid r) →
      (∃ message' ∈ f.messages, message'.ackCallback = some (.pubrec pid r)) ∨
        HandedOver f'.trace r) : Fulfilled f' acts' := by
  refine ⟨fun pid r hr => ?_, fun pid flight hget hdel => ?_, fun message hmem pid r hc => ?_⟩
  · rcases hsent pid r hr with hold | hnew
    · rcases h.sent pid r hold with hover | ⟨callback, hact⟩
      · exact Or.inl (hover.mono hsub)
      · exact hacts r callback hact
    · exact hnew
  · rcases hflights pid flight hget hdel with hold | hnew
    · exact (h.flights pid flight hold hdel).mono hsub
    · exact hnew
  · rcases hmessages message hmem pid r hc with ⟨message', hmem', hc'⟩ | hnew
    · exact (h.messages message' hmem' pid r hc').mono hsub
    · exact hnew

/-- Entries other than PUBCOMP are added. -/
theorem Fulfilled.grow (h : Fulfilled f acts) {l : List TraceEntry}
    (hl : ∀ pid r, .sent .pubcomp pid r ∉ l) (htrace : f'.trace = l ++ f.trace)
    (hflights : f'.inflightQos2In = f.inflightQos2In) (hmessages : f'.messages = f.messages) :
    Fulfilled f' acts := by
  refine h.frame (htrace ▸ List.subset_append_right _ _) (fun pid r hr => Or.inl ?_)
    (fun r callback hact => Or.inr ⟨callback, hact⟩) (fun pid flight hget _ => Or.inl ?_)
    fun message hmem pid r hc => Or.inl ⟨message, hmessages ▸ hmem, hc⟩
  · rw [htrace] at hr
    rcases hr with hr | hr
    · exact Or.inl ((List.mem_append.1 hr).resolve_left (hl pid r))
    · exact Or.inr hr
  · rw [← hflights]
    exact hget

theorem Fulfilled.congr (h : Fulfilled f acts) (htrace : f'.trace = f.trace)
    (hflights : f'.inflightQos2In = f.inflightQos2In) (hmessages : f'.messages = f.messages) :
    Fulfilled f' acts :=
  h.grow (l := []) (fun _ _ hmem => by cases hmem) htrace hflights hmessages

theorem Fulfilled.send {kind : AckKind} (h : Fulfilled f (.send kind pid r :: acts)) :
    Fulfilled (f.log (.sent kind pid r)) acts := by
  refine h.frame (List.subset_cons_self _ _) (fun pid' r' hr => Or.inl ?_)
    (fun r' callback hact => ?_) (fun _ _ hget _ => Or.inl hget)
    fun message hmem _ _ hc => Or.inl ⟨message, hmem, hc⟩
  · rcases hr with hr | hr
    · rcases List.mem_cons.1 hr with he | hr
      · cases he
        exact Or.inr List.mem_cons_self
      · exact Or.inl hr
    · exact Or.inr (List.mem_cons_of_mem _ hr)
  · rcases List.mem_cons.1 hact with he | hact
    · cases he
    · exact Or.inr ⟨callback, hact⟩

theorem handedOver_handOver (f : InboundPublishFlow) (r : InboundRecipient)
    (callback : Option AckCallback) : HandedOver (f.handOver r callback).trace r := by
  rcases f.handOver_cases r callback with ⟨hno, he⟩ | ⟨request, hreq, he⟩ | ⟨filter, entry, hreq, hsub, he⟩ <;>
    rw [he]
  · exact .nobody hno
  · exact .request request hreq List.mem_cons_self
  · refine .queue entry.queue ?_ List.mem_cons_self
    rw [InboundRecipient.queue, hreq, hsub]
    rfl

theorem Fulfilled.handOver {callback : Option AckCallback}
    (h : Fulfilled f (.deliver r callback :: acts))
    (hown : ∀ pid r', callback = some (.pubrec pid r') → r' = r) :
    Fulfilled (f.handOver r callback) acts := by
  have hover := f.handedOver_handOver r callback
  have hacts : ∀ r' callback', .deliver r' callback' ∈ Act.deliver r callback :: acts →
      HandedOver (f.handOver r callback).trace r' ∨ ∃ callback', .deliver r' callback' ∈ acts := by
    intro r' callback' hact
    rcases List.mem_cons.1 hact with he | hact
    · cases he
      exact Or.inl hover
    · exact Or.inr ⟨callback', hact⟩
  have hsends : ∀ pid r', .send .pubcomp pid r' ∈ acts →
      .send .pubcomp pid r' ∈ Act.deliver r callback :: acts :=
    fun pid r' => List.mem_cons_of_mem _
  rcases f.handOver_cases r callback with ⟨-, he⟩ | ⟨request, -, he⟩ | ⟨filter, entry, -, -, he⟩ <;>
    rw [he] at hover hacts ⊢
  · exact h.frame (List.Subset.refl _) (fun pid r' hr => Or.inl (hr.imp_right (hsends pid r'))) hacts
      (fun _ _ hget _ => Or.inl hget) fun message hmem _ _ hc => Or.inl ⟨message, hmem, hc⟩
  · refine h.frame (List.subset_cons_self _ _) (fun pid r' hr => Or.inl ?_) hacts
      (fun _ _ hget _ => Or.inl hget) fun message hmem _ _ hc => Or.inl ⟨message, hmem, hc⟩
    rcases hr with hr | hr
    · exact Or.inl ((List.mem_cons.1 hr).resolve_left (by simp))
    · exact Or.inr (hsends pid r' hr)
  · refine h.frame (List.subset_cons_self _ _) (fun pid r' hr => Or.inl ?_) hacts
      (fun _ _ hget _ => Or.inl hget) fun message hmem pid r' hc => ?_
    · rcases hr with hr | hr
      · exact Or.inl ((List.mem_cons.1 hr).resolve_left (by simp))
      · exact Or.inr (hsends pid r' hr)
    · rcases List.mem_append.1 hmem with hmem | hmem
      · exact Or.inl ⟨message, hmem, hc⟩
      · -- the message was put into the queue by this delivery
        rw [List.mem_singleton.1 hmem] at hc
        dsimp only at hc
        split at hc
        · cases hc
        · rw [hown pid r' hc]
          exact Or.inr hover

/-- The read loop has more to do, and no PUBCOMP among it. -/
theorem Fulfilled.addActs (h : Fulfilled f acts) (hsub : acts ⊆ acts')
    (hno : ∀ pid r, .send .pubcomp pid r ∈ acts' → .send .pubcomp pid r ∈ acts) :
    Fulfilled f acts' :=
  h.frame (List.Subset.refl _) (fun pid r hr => Or.inl (hr.imp_right (hno pid r)))
    (fun _ callback hact => Or.inr ⟨callback, hsub hact⟩) (fun _ _ hget _ => Or.inl hget)
    fun message hmem _ _ hc => Or.inl ⟨message, hmem, hc⟩

theorem Fulfilled.addDeliver (h : Fulfilled f acts) (callback : Option AckCallback) :
    Fulfilled f (.deliver r callback :: acts) :=
  h.addActs (List.subset_cons_self _ _) fun _ _ hact => (List.mem_cons.1 hact).resolve_left (by simp)

theorem Fulfilled.addSend (h : Fulfilled f acts) {kind : AckKind} (hkind : kind ≠ .pubcomp) :
    Fulfilled f (.send kind pid r :: acts) :=
  h.addActs (List.subset_cons_self _ _) fun _ _ hact => by
    refine (List.mem_cons.1 hact).resolve_left fun he => ?_
    cases he
    exact hkind rfl

theorem Fulfilled.startAuto (h : Fulfilled f acts) : Fulfilled (f.startAuto pid r) acts := by
  refine h.frame (List.subset_cons_self _ _) (fun pid' r' hr => Or.inl ?_)
    (fun _ callback hact => Or.inr ⟨callback, hact⟩) (fun pid' flight hget hdel => Or.inl ?_)
    fun message hmem _ _ hc => Or.inl ⟨message, hmem, hc⟩
  · exact hr.imp_left fun hr => (List.mem_cons.1 hr).resolve_left (by simp)
  · have hget' : (f.inflightQos2In.set pid { recipient := r }).get? pid' = some flight := hget
    rw [Dict.get?_set] at hget'
    split at hget'
    · cases hget'
      cases hdel
    · exact hget'

theorem Fulfilled.startManual (h : Fulfilled f acts) : Fulfilled (f.startManual pid r) acts :=
  h.grow (l := [.started r]) (fun _ _ hmem => by cases List.mem_singleton.1 hmem) rfl rfl rfl

theorem Fulfilled.write (h : Fulfilled f acts) {kind : AckKind} (hkind : kind ≠ .pubcomp) :
    Fulfilled (f.log (.sent kind pid r)) acts := by
  refine h.grow (l := [.sent kind pid r]) (fun pid' r' hmem => ?_) rfl rfl rfl
  cases List.mem_singleton.1 hmem
  exact hkind rfl

theorem Fulfilled.handsOn (h : Fulfilled f acts) (hands : HandsOn f r f') : Fulfilled f' acts := by
  cases hands with
  | qos0 _ => exact (h.addDeliver none).handOver fun _ _ he => by cases he
  | qos1Auto pid _ =>
    have hover : Fulfilled (f.handOver r none) acts :=
      (h.addDeliver none).handOver fun _ _ he => by cases he
    exact hover.write (by simp)
  | qos1Manual pid _ _ => exact (h.addDeliver _).handOver fun _ _ he => by cases he
  | qos2Auto pid _ _ _ => exact h.startAuto.write (by simp)
  | qos2Manual pid _ _ _ =>
    refine (h.startManual.addDeliver _).handOver fun _ _ he => ?_
    cases he
    rfl

theorem Fulfilled.handles {env : Environment} {m : Received} (h : Fulfilled f [])
    (hands : Handles f env m f' acts) : Fulfilled f' acts := by
  cases hands with
  | ignored => exact h
  | takesIn htakes _ =>
    cases htakes <;>
    exact h.grow (l := [.buffered m]) (fun _ _ hmem => by cases List.mem_singleton.1 hmem) rfl rfl rfl
  | qos0 _ => exact h.addDeliver none
  | qos1Auto pid _ => exact (h.addSend (by simp)).addDeliver none
  | qos1Manual pid _ _ => exact h.addDeliver _
  | qos2Again pid flight _ _ _ => exact h.addSend (by simp)
  | qos2Auto pid _ _ _ _ => exact h.startAuto.addSend (by simp)
  | qos2Manual pid _ _ _ _ => exact h.startManual.addDeliver _

/-- PUBCOMP comes before the delivery, unless the message was delivered before PUBREC. -/
theorem Fulfilled.pubrel {flight : InboundQoS2Flight} (h : Fulfilled f [])
    (hflight : f.inflightQos2In.get? pid = some flight) :
    Fulfilled ((f.log (.pubrel pid)).popFlight pid)
      (.send .pubcomp pid flight.recipient ::
        if flight.delivered then [] else [.deliver flight.recipient none]) := by
  have hsub : f.trace ⊆ ((f.log (.pubrel pid)).popFlight pid).trace := List.subset_cons_self _ _
  refine h.frame hsub (fun pid' r hr => ?_) (fun _ _ hact => by cases hact)
    (fun pid' flight' hget _ => Or.inl ?_) fun message hmem _ _ hc => Or.inl ⟨message, hmem, hc⟩
  · rcases hr with hr | hr
    · exact Or.inl (Or.inl ((List.mem_cons.1 hr).resolve_left (by simp)))
    · rcases List.mem_cons.1 hr with he | hr
      · cases he
        refine Or.inr ?_
        cases hdel : flight.delivered with
        | true => exact Or.inl ((h.flights _ flight hflight hdel).mono hsub)
        | false => exact Or.inr ⟨none, List.mem_cons_of_mem _ List.mem_cons_self⟩
      · split at hr
        · cases hr
        · cases List.mem_singleton.1 hr
  · have hget' : (f.inflightQos2In.pop pid).get? pid' = some flight' := hget
    rw [Dict.get?_pop] at hget'
    split at hget'
    · cases hget'
    · exact hget'

theorem Fulfilled.ack (h : Fulfilled f acts) (k : Nat) : Fulfilled (f.ack k) acts := by
  rcases f.ack_cases k with he | ⟨message, hmsg, hres, hcases⟩
  · rw [he]
    exact h
  have hmem := List.mem_of_getElem? hmsg
  have hbase : Fulfilled (f.resolve k message) acts := by
    refine h.frame (List.subset_cons_self _ _)
      (fun pid r hr => Or.inl (hr.imp_left fun hr => (List.mem_cons.1 hr).resolve_left (by simp)))
      (fun _ callback hact => Or.inr ⟨callback, hact⟩) (fun _ _ hget _ => Or.inl hget)
      fun other hother pid r hc => Or.inl ?_
    rcases List.mem_or_eq_of_mem_set hother with hother | rfl
    · exact ⟨other, hother, hc⟩
    · refine ⟨message, hmem, ?_⟩
      cases hcb : message.ackCallback with
      | none => rw [hcb] at hc; cases hc
      | some c =>
        rw [hcb] at hc
        cases c with
        | puback _ _ _ => cases hc
        | pubrec _ _ => exact hc
  rcases hcases with ⟨he, -⟩ | ⟨pid, r, -, he⟩ | ⟨pid, r, hc, he⟩ <;> rw [he]
  · exact hbase
  · exact hbase.write (by simp)
  · have hover := h.messages message hmem pid r hc
    refine hbase.frame (List.subset_cons_self _ _)
      (fun pid r hr => Or.inl (hr.imp_left fun hr => (List.mem_cons.1 hr).resolve_left (by simp)))
      (fun _ callback hact => Or.inr ⟨callback, hact⟩) (fun pid' flight hget _ => ?_)
      fun other hother _ _ hc => Or.inl ⟨other, hother, hc⟩
    have hget' : (f.inflightQos2In.set pid { recipient := r, delivered := true }).get? pid' =
        some flight := hget
    rw [Dict.get?_set] at hget'
    split at hget'
    · cases hget'
      exact Or.inr (hover.mono fun _ hin => List.mem_cons_of_mem _ (List.mem_cons_of_mem _ hin))
    · exact Or.inl hget'

end Agreement

end InboundPublishFlow

end Zmqtt
