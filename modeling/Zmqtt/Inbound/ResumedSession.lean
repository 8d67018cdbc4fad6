/-
  Inbound QoS 2 across reconnects with a resumed session. The broker keeps its exchanges; the
  client starts each connection with a fresh `SessionState` (`_connect` in `client.py`), while
  the subscriptions keep their queues.

  When a connection is cut after the broker received PUBREC and before it received PUBCOMP,
  the PUBREL of the next connection finds no flight and ends the read loop
  (`pubrel_after_reconnect`). When no connection is cut there, every PUBREL is answered with
  PUBCOMP, and every message whose exchange is finished was handed over (`qos2_survives`).
-/
import Zmqtt.Inbound.Redelivery

namespace Zmqtt

namespace InboundPublishFlow

/-! ## One connection beside the broker -/

/-- The awaits of the read loop hold no PUBREC or PUBCOMP: these are written before the
    handler first suspends. -/
def Written (acts : List Act) : Prop := ∀ kind pid r, .send kind pid r ∈ acts → kind = .puback

/-- The flow agrees with the exchanges of the broker, which has received `taken` of the
    acknowledgements. -/
structure Mirrors (taken : Nat) (exchanges : Int → Option BrokerExchange)
    (f : InboundPublishFlow) (acts : List Act) (air : List Received) : Prop where
  exchanging : Exchanging f acts air
  bound : taken ≤ f.acknowledgements.length
  agrees : ∀ pid, Agrees taken f acts air pid (exchanges pid)
  fulfilled : Fulfilled f acts

section Mirrors

variable {f f' : InboundPublishFlow} {acts acts' : List Act} {air air' : List Received}
  {taken : Nat} {exchanges : Int → Option BrokerExchange}

theorem Written.nil : Written [] := fun _ _ _ hact => by cases hact

theorem Written.cons_deliver (h : Written acts) (r : InboundRecipient)
    (callback : Option AckCallback) : Written (.deliver r callback :: acts) :=
  fun kind pid r' hact => h kind pid r' ((List.mem_cons.1 hact).resolve_left (by simp))

theorem Written.tail {act : Act} (h : Written (act :: acts)) : Written acts :=
  fun kind pid r hact => h kind pid r (List.mem_cons_of_mem _ hact)

/-- Nothing that concerns an exchange is still to be written. -/
theorem Written.filter (h : Written acts) (pid : Int) :
    (acts.filterMap Act.ack?).filter (Acknowledgement.concerns pid) = [] := by
  rw [List.filter_eq_nil_iff]
  intro a ha
  obtain ⟨act, hact, he⟩ := List.mem_filterMap.1 ha
  cases act with
  | deliver r callback => cases he
  | send kind pid' r =>
    cases he
    rw [h kind pid' r hact, concerns_puback]
    exact Bool.false_ne_true

theorem Written.runReader (h : Written acts) (f : InboundPublishFlow) (env : Environment) :
    Written (f.runReader env acts).reader.acts :=
  @runReader_induct (fun f => Written f.reader.acts) (fun _ acts => Written acts)
    (fun _ _ _ _ _ hP => hP.tail) (fun _ _ _ _ hP _ => hP.tail) (fun _ _ => Written.nil)
    (fun _ _ hP => hP) env acts f h

/-- The first acknowledgement of a handler is written at once. -/
theorem Written.runReader_send (h : Written acts) (f : InboundPublishFlow) (env : Environment)
    (kind : AckKind) (pid : Int) (r : InboundRecipient) :
    Written (f.runReader env (.send kind pid r :: acts)).reader.acts := by
  have hrun := h.runReader (f.log (.sent kind pid r)) env
  rw [InboundPublishFlow.runReader, runActs]
  split
  · next heq => split at heq <;> exact Written.nil
  · next f' acts' heq =>
    split at heq
    · cases heq
      exact h
    · rw [InboundPublishFlow.runReader, heq] at hrun
      exact hrun

theorem trace_handOver (f : InboundPublishFlow) (r : InboundRecipient)
    (callback : Option AckCallback) : f.trace <:+ (f.handOver r callback).trace := by
  rcases f.handOver_cases r callback with ⟨-, he⟩ | ⟨request, -, he⟩ | ⟨filter, entry, -, -, he⟩ <;>
    rw [he]
  · exact List.suffix_cons _ _
  · exact List.suffix_cons _ _

theorem trace_runReader (f : InboundPublishFlow) (env : Environment) (acts : List Act) :
    f.trace <:+ (f.runReader env acts).trace :=
  @runReader_induct (fun f' => f.trace <:+ f'.trace) (fun f' _ => f.trace <:+ f'.trace)
    (fun _ _ _ _ _ hP => hP.trans (List.suffix_cons _ _))
    (fun f' r callback _ hP _ => hP.trans (f'.trace_handOver r callback)) (fun _ hP => hP)
    (fun _ _ hP => hP) env acts f (List.suffix_refl _)

theorem trace_runReader_send (f : InboundPublishFlow) (env : Environment) (kind : AckKind)
    (pid : Int) (r : InboundRecipient) (acts : List Act) :
    .sent kind pid r :: f.trace <:+ (f.runReader env (.send kind pid r :: acts)).trace := by
  have hrun := trace_runReader (f.log (.sent kind pid r)) env acts
  rw [InboundPublishFlow.runReader] at hrun ⊢
  rw [runActs]
  cases env.stalls r.message.num with
  | true => exact List.suffix_refl _
  | false => exact hrun

theorem Handles.written {env : Environment} {m : Received} (h : Handles f env m f' acts)
    (g : InboundPublishFlow) : Written (g.runReader env acts).reader.acts := by
  have hdeliver : ∀ r callback, Written [.deliver r callback] := fun r callback =>
    Written.nil.cons_deliver r callback
  cases h with
  | ignored => exact Written.nil.runReader g env
  | takesIn _ _ => exact Written.nil.runReader g env
  | qos0 _ => exact (hdeliver _ _).runReader g env
  | qos1Auto pid _ =>
    refine Written.runReader (Written.cons_deliver (fun kind pid' r hact => ?_) _ _) g env
    cases List.mem_singleton.1 hact
    rfl
  | qos1Manual pid _ _ => exact (hdeliver _ _).runReader g env
  | qos2Again pid flight _ _ _ => exact Written.nil.runReader_send g env _ _ _
  | qos2Auto pid _ _ _ _ => exact Written.nil.runReader_send g env _ _ _
  | qos2Manual pid _ _ _ _ => exact (hdeliver _ _).runReader g env

/-- Only these parts of the flow matter. -/
theorem Mirrors.congr (h : Mirrors taken exchanges f acts air) (htrace : f'.trace = f.trace)
    (hbuffers : f'.buffers = f.buffers) (hflights : f'.inflightQos2In = f.inflightQos2In)
    (hpending : f'.pendingAckQos2In = f.pendingAckQos2In) (hmessages : f'.messages = f.messages)
    (hreader : f'.reader.isStopped = false → f.reader.isStopped = false) :
    Mirrors taken exchanges f' acts air := by
  have hacks : f'.acknowledgements = f.acknowledgements :=
    acknowledgements_append (l := []) (fun _ hmem => by cases hmem) htrace
  refine ⟨h.exchanging.congr htrace hbuffers hflights hpending hmessages hreader, ?_,
    fun pid => (h.agrees pid).congr hbuffers hflights hpending hmessages hacks,
    h.fulfilled.congr htrace hflights hmessages⟩
  rw [hacks]
  exact h.bound

theorem Mirrors.send {kind : AckKind} {pid : Int} {r : InboundRecipient}
    (h : Mirrors taken exchanges f (.send kind pid r :: acts) air) :
    Mirrors taken exchanges (f.log (.sent kind pid r)) acts air :=
  ⟨⟨h.exchanging.exclusive.send, h.exchanging.tokens.send, h.exchanging.order.send⟩,
    h.bound.trans (length_acknowledgements_le rfl), fun pid' => (h.agrees pid').send h.bound,
    h.fulfilled.send⟩

theorem Mirrors.handOver {r : InboundRecipient} {callback : Option AckCallback}
    (h : Mirrors taken exchanges f (.deliver r callback :: acts) air) :
    Mirrors taken exchanges (f.handOver r callback) acts air := by
  refine ⟨⟨h.exchanging.exclusive.handOver, h.exchanging.tokens.handOver,
    h.exchanging.order.handOver⟩, ?_, fun pid' => (h.agrees pid').handOver,
    h.fulfilled.handOver fun pid r' he => ?_⟩
  · rw [acknowledgements_handOver]
    exact h.bound
  · exact h.exchanging.order.deliveries r pid r' (he ▸ List.mem_cons_self)

theorem Mirrors.runReader (env : Environment) (h : Mirrors taken exchanges f acts [])
    (hrun : f.reader.isStopped = false) :
    Mirrors taken exchanges (f.runReader env acts) (f.runReader env acts).reader.acts [] := by
  refine @runReader_induct (fun f => Mirrors taken exchanges f f.reader.acts [])
    (fun f acts => Mirrors taken exchanges f acts [] ∧ f.reader.isStopped = false) ?_ ?_ ?_ ?_ env
    acts f ⟨h, hrun⟩
  · exact fun f kind pid r acts hP => ⟨hP.1.send, hP.2⟩
  · refine fun f r callback acts hP _ => ⟨hP.1.handOver, ?_⟩
    rw [reader_handOver]
    exact hP.2
  · exact fun f hP => hP.1.congr rfl rfl rfl rfl rfl fun _ => hP.2
  · exact fun f acts hP => hP.1.congr rfl rfl rfl rfl rfl fun _ => hP.2

theorem Mirrors.handsOn {r : InboundRecipient}
    (h : Mirrors taken exchanges f acts (r.message :: air)) (hwritten : Written acts)
    (hands : HandsOn f r f') : Mirrors taken exchanges f' acts air := by
  refine ⟨⟨h.exchanging.exclusive.handsOn hands,
    h.exchanging.tokens.handsOn h.exchanging.exclusive hands, h.exchanging.order.handsOn hands⟩, ?_,
    fun pid => (h.agrees pid).handsOn h.exchanging.exclusive h.bound (hwritten.filter pid) hands,
    h.fulfilled.handsOn hands⟩
  have hover : ∀ callback, taken ≤ (f.handOver r callback).acknowledgements.length := fun callback => by
    rw [acknowledgements_handOver]
    exact h.bound
  cases hands with
  | qos0 _ => exact hover none
  | qos1Auto pid _ => exact (hover none).trans (length_acknowledgements_le rfl)
  | qos1Manual pid _ _ => exact hover _
  | qos2Auto pid _ _ _ =>
    have hstart : taken ≤ (f.startAuto pid r).acknowledgements.length :=
      h.bound.trans (length_acknowledgements_le rfl)
    exact hstart.trans (length_acknowledgements_le rfl)
  | qos2Manual pid _ _ _ =>
    rw [acknowledgements_handOver]
    exact h.bound.trans (length_acknowledgements_le rfl)

theorem Mirrors.move (h : Mirrors taken exchanges f acts air) {i : Nat} {b b' : Buffered}
    (hb : f.buffers[i]? = some b)
    (hcount : ∀ q, b'.held.countP q + air'.countP q ≤ b.held.countP q + air.countP q) :
    Mirrors taken exchanges (f.setBuffer i b') acts air' :=
  ⟨h.exchanging.move hb hcount, h.bound, fun pid => (h.agrees pid).move hb hcount,
    h.fulfilled.congr rfl rfl rfl⟩

theorem Mirrors.logDropped (h : Mirrors taken exchanges f acts air) (ms : List Received) :
    Mirrors taken exchanges (f.logDropped ms) acts air := by
  have hno : ∀ entry ∈ ms.map TraceEntry.dropped, entry.ack? = none := fun entry hmem => by
    obtain ⟨m, -, rfl⟩ := List.mem_map.1 hmem
    rfl
  have hacks : (f.logDropped ms).acknowledgements = f.acknowledgements :=
    acknowledgements_append hno rfl
  refine ⟨h.exchanging.logDropped ms, ?_, fun pid => (h.agrees pid).congr rfl rfl rfl rfl hacks,
    h.fulfilled.grow (fun pid r hmem => ?_) rfl rfl rfl⟩
  · rw [hacks]
    exact h.bound
  · obtain ⟨m, -, he⟩ := List.mem_map.1 hmem
    cases he

theorem mirrors_drainRule (taken : Nat) (exchanges : Int → Option BrokerExchange) (i : Nat) :
    DrainRule (fun f => Mirrors taken exchanges f f.reader.acts [] ∧ Written f.reader.acts)
      (fun f air => Mirrors taken exchanges f f.reader.acts air ∧ Written f.reader.acts)
      (fun f air => Mirrors taken exchanges f f.reader.acts air ∧ Written f.reader.acts)
      (fun f air _ => Mirrors taken exchanges f f.reader.acts air ∧ Written f.reader.acts) i := by
  refine drainRule_of_move
    (K := fun f air => Mirrors taken exchanges f f.reader.acts air ∧ Written f.reader.acts)
    i ?_ ?_ ?_ ?_ ?_
  · exact fun f b b' air air' h hb hcount => ⟨h.1.move hb hcount, h.2⟩
  · refine fun f a b hperm h => ⟨⟨⟨h.1.exchanging.exclusive.perm hperm,
      h.1.exchanging.tokens.perm hperm, h.1.exchanging.order⟩, h.1.bound,
      fun pid => (h.1.agrees pid).perm hperm, h.1.fulfilled⟩, h.2⟩
  · intro f f' r air h hands
    rw [hands.reader]
    exact ⟨h.1.handsOn h.2 hands, h.2⟩
  · exact fun f replay h => ⟨h.1.congr rfl rfl rfl rfl rfl id, h.2⟩
  · exact fun f ms air h => ⟨h.1.logDropped ms, h.2⟩

/-- The read loop ends, not between a PUBCOMP and the delivery of its message. -/
theorem Mirrors.stop (h : Mirrors taken exchanges f acts []) (hwritten : Written acts)
    (e : Option InboundError)
    (hdelivered : ∀ r callback, .deliver r callback ∈ acts → ∀ pid, .sent .pubcomp pid r ∉ f.trace) :
    Mirrors taken exchanges { f with reader := .stopped e } [] [] := by
  refine ⟨h.exchanging.stop e, h.bound, fun pid => ?_, ⟨fun pid r hr => Or.inl ?_,
    h.fulfilled.flights, h.fulfilled.messages⟩⟩
  · refine (h.agrees pid).frame (fun _ _ => Nat.le_refl _) rfl id
      (fun r hr => CallsBack.mono (f := f) hr (List.nil_subset _)) ?_
    rw [onWay, onWay, List.filter_append, List.filter_append, hwritten.filter pid]
    rfl
  · rcases hr with hr | hr
    · rcases h.fulfilled.sent pid r (Or.inl hr) with hover | ⟨callback, hact⟩
      · exact hover
      · exact absurd hr (hdelivered r callback hact pid)
    · cases hr

theorem Agrees.nowhere_of_toPublish {pid : Int} {packet : Publish}
    (h : Agrees taken f acts air pid (some ⟨packet, .toPublish⟩)) :
    Nowhere f air pid ∧ f.onWay taken acts pid = [] := by
  cases h with
  | idle _ hno hway => exact ⟨hno, hway⟩
  | inFlight _ _ _ hstage => rcases hstage with ⟨he, -⟩ | ⟨he, -⟩ <;> cases he

/-- A PUBLISH is read; a QoS 2 one is that of an exchange which had to be published. -/
theorem Mirrors.receivePublish {exchanges' : Int → Option BrokerExchange} (env : Environment)
    (packet : Publish) (hlive : f.Live fun _ => []) (hreader : f.reader = .reading)
    (h : Mirrors taken exchanges f [] [])
    (hother : ∀ pid, asksFor pid (f.nextReceived packet) ≠ true → exchanges' pid = exchanges pid)
    (hown : ∀ pid, asksFor pid (f.nextReceived packet) = true →
      exchanges pid = some ⟨packet, .toPublish⟩ ∧ exchanges' pid = some ⟨packet, .published⟩) :
    Mirrors taken exchanges' (f.receivePublish env packet)
      (f.receivePublish env packet).reader.acts [] ∧
      Written (f.receivePublish env packet).reader.acts := by
  have hrun : f.reader.isStopped = false := by rw [hreader]; rfl
  have hacks : (f.receive packet).acknowledgements = f.acknowledgements :=
    (acknowledgements_eq rfl).trans (List.append_nil _)
  have hagrees : ∀ pid, Agrees taken (f.receive packet) [] [] pid (exchanges pid) := fun pid =>
    (h.agrees pid).congr rfl rfl rfl rfl hacks
  have hbound : taken ≤ (f.receive packet).acknowledgements.length := by
    rw [hacks]
    exact h.bound
  have hfulfilled : Fulfilled (f.receive packet) [] :=
    h.fulfilled.grow (l := [_]) (fun _ _ hmem => by cases List.mem_singleton.1 hmem) rfl rfl rfl
  have hexcl := (h.exchanging.receive packet).exclusive
  unfold InboundPublishFlow.receivePublish
  rw [hreader]
  dsimp only
  unfold dispatch
  split
  · -- the handler raises: nothing has happened but the receipt
    refine ⟨⟨(h.exchanging.receive packet).stop _, hbound, fun pid => ?_,
      hfulfilled.congr rfl rfl rfl⟩, Written.nil⟩
    have hbase : Agrees taken (f.receive packet) [] [] pid (exchanges' pid) := by
      by_cases hask : asksFor pid (f.nextReceived packet) = true
      · obtain ⟨he, he'⟩ := hown pid hask
        have hidle := hagrees pid
        rw [he] at hidle
        rw [he']
        obtain ⟨hno, hway⟩ := hidle.nowhere_of_toPublish
        exact Agrees.of_nowhere hexcl hno hway
      · rw [hother pid hask]
        exact hagrees pid
    exact hbase.congr rfl rfl rfl rfl rfl
  · next f' acts hhandle =>
    have hands := handlePublish_cases hhandle
    obtain ⟨hex, hrun'⟩ := h.exchanging.handles hlive hrun hands
    refine ⟨Mirrors.runReader env ⟨hex, ?_, fun pid => ?_, hfulfilled.handles hands⟩ hrun',
      hands.written f'⟩
    · have hle : (f.receive packet).acknowledgements.length ≤ f'.acknowledgements.length := by
        cases hands with
        | takesIn htakes _ => cases htakes <;> exact length_acknowledgements_le rfl
        | qos2Auto pid _ _ _ _ => exact length_acknowledgements_le rfl
        | qos2Manual pid _ _ _ _ => exact length_acknowledgements_le rfl
        | _ => exact Nat.le_refl _
      exact hbound.trans hle
    · by_cases hask : asksFor pid (f.nextReceived packet) = true
      · obtain ⟨he, he'⟩ := hown pid hask
        have hidle := hagrees pid
        rw [he] at hidle
        rw [he']
        obtain ⟨hno, hway⟩ := hidle.nowhere_of_toPublish
        exact Agrees.handlesOwn hexcl hno hway hask hands
      · rw [hother pid hask]
        exact (hagrees pid).handles hask hands

/-- The PUBREL of an exchange is answered with PUBCOMP, for the message of the exchange. -/
theorem Mirrors.receivePubrel {exchanges' : Int → Option BrokerExchange} (env : Environment)
    {pid : Int} {packet : Publish} (hreader : f.reader = .reading)
    (h : Mirrors taken exchanges f [] []) (hexchange : exchanges pid = some ⟨packet, .toRelease⟩)
    (hother : ∀ pid', pid ≠ pid' → exchanges' pid' = exchanges pid')
    (hown : exchanges' pid = some ⟨packet, .released⟩) :
    (Mirrors taken exchanges' (f.receivePubrel env pid)
      (f.receivePubrel env pid).reader.acts [] ∧
      Written (f.receivePubrel env pid).reader.acts) ∧
    ∃ r, r.message.packet = packet ∧
      .sent .pubcomp pid r :: .pubrel pid :: f.trace <:+ (f.receivePubrel env pid).trace := by
  have hrun : f.reader.isStopped = false := by rw [hreader]; rfl
  have hagree := h.agrees pid
  rw [hexchange] at hagree
  obtain ⟨flight, hflight⟩ := hagree.flight_of_toRelease
  obtain ⟨hpacket, hreleased⟩ := hagree.pubrelOwn h.exchanging.exclusive hflight
  have hhandle : f.receivePubrel env pid = ((f.log (.pubrel pid)).popFlight pid).runReader env
      (.send .pubcomp pid flight.recipient ::
        if flight.delivered then [] else [.deliver flight.recipient none]) := by
    have hget : (f.log (.pubrel pid)).inflightQos2In.get? pid = some flight := hflight
    simp only [InboundPublishFlow.receivePubrel, hreader, handlePubrel, hget, dispatch]
  rw [hhandle]
  refine ⟨⟨Mirrors.runReader env ⟨h.exchanging.pubrel hflight,
    h.bound.trans (length_acknowledgements_le rfl), fun pid' => ?_, h.fulfilled.pubrel hflight⟩ hrun,
    Written.runReader_send ?_ _ env _ _ _⟩, flight.recipient, hpacket,
    trace_runReader_send ((f.log (.pubrel pid)).popFlight pid) env .pubcomp pid flight.recipient _⟩
  · by_cases hp : pid = pid'
    · subst hp
      rw [hown]
      exact hreleased
    · rw [hother pid' hp]
      exact (h.agrees pid').pubrel hp
  · split
    · exact Written.nil
    · exact Written.nil.cons_deliver _ _

/-! ## The history only grows -/

theorem HandsOn.trace {r : InboundRecipient} (h : HandsOn f r f') : f.trace <:+ f'.trace := by
  cases h with
  | qos0 _ => exact f.trace_handOver r _
  | qos1Auto pid _ => exact (f.trace_handOver r none).trans (List.suffix_cons _ _)
  | qos1Manual pid _ _ => exact f.trace_handOver r _
  | qos2Auto pid _ _ _ => exact (List.suffix_cons _ _).trans (List.suffix_cons _ _)
  | qos2Manual pid _ _ _ => exact (List.suffix_cons _ _).trans ((f.startManual pid r).trace_handOver r _)

theorem trace_drainRule (t : List TraceEntry) (i : Nat) :
    DrainRule (fun f => t <:+ f.trace) (fun f _ => t <:+ f.trace) (fun f _ => t <:+ f.trace)
      (fun f _ _ => t <:+ f.trace) i := by
  refine drainRule_of_move (K := fun f _ => t <:+ f.trace) i ?_ ?_ ?_ ?_ ?_
  · exact fun f b b' air air' h _ _ => h
  · exact fun f a b _ h => h
  · exact fun f f' r air h hands => h.trans hands.trace
  · exact fun f replay h => h
  · exact fun f ms air h => h.trans (List.suffix_append _ _)

theorem trace_dispatch {f₀ : InboundPublishFlow} (h : f₀.trace <:+ f.trace) (env : Environment)
    {handled : Except InboundError (InboundPublishFlow × List Act)}
    (hok : ∀ f' acts, handled = .ok (f', acts) → f₀.trace <:+ f'.trace) :
    f₀.trace <:+ (f.dispatch env handled).trace := by
  unfold dispatch
  split
  · exact h
  · next f' acts => exact (hok f' acts rfl).trans (f'.trace_runReader env acts)

theorem trace_step (hidle : f.IdleRest) (e : InboundEvent) : f.trace <:+ (f.step e).trace := by
  have hrefl := List.suffix_refl f.trace
  have hwaiting : (e = .drain ∨ (∃ i, e = .expire i) ∨ ∃ i k, e = .cancelWaiter i k) →
      f.trace <:+ (f.step e).trace := fun he => by
    rcases f.waiting_cases he with heq | ⟨i, b, b', hb, hsame, heq⟩ <;> rw [heq]
    exact hrefl
  cases e with
  | publish packet env =>
    rw [InboundPublishFlow.step, receivePublish]
    split
    · refine trace_dispatch (List.suffix_cons _ _) env fun f' acts hok => ?_
      have hhandles : (f.receive packet).trace <:+ f'.trace := by
        cases handlePublish_cases hok with
        | takesIn htakes _ => cases htakes <;> exact List.suffix_cons _ _
        | qos2Auto pid _ _ _ _ => exact List.suffix_cons _ _
        | qos2Manual pid _ _ _ _ => exact List.suffix_cons _ _
        | _ => exact List.suffix_refl _
      exact (List.suffix_cons _ _).trans hhandles
    all_goals exact hrefl
  | pubrel pid env =>
    rw [InboundPublishFlow.step, receivePubrel]
    split
    · refine trace_dispatch (List.suffix_cons _ _) env fun f' acts hok => ?_
      unfold handlePubrel at hok
      split at hok
      · cases hok
      · cases hok
        exact List.suffix_cons _ _
    all_goals exact hrefl
  | resumeReader env =>
    rw [InboundPublishFlow.step, resumeReader]
    split
    · next acts _ => exact f.trace_runReader env acts
    all_goals exact hrefl
  | interruptReader =>
    rw [InboundPublishFlow.step, interruptReader]
    split <;> exact hrefl
  | ack k =>
    have hresolve : ∀ message, f.trace <:+ (f.resolve k message).trace := fun _ =>
      List.suffix_cons _ _
    rw [InboundPublishFlow.step]
    rcases f.ack_cases k with he | ⟨message, _, _, ⟨he, -⟩ | ⟨pid, r, -, he⟩ | ⟨pid, r, _, he⟩⟩ <;>
      rw [he]
    · exact hresolve message
    · exact (hresolve message).trans (List.suffix_cons _ _)
    · exact (hresolve message).trans (List.suffix_cons _ _)
  | get queue => exact hrefl
  | subscriptions index => exact hrefl
  | drain => exact hwaiting (Or.inl rfl)
  | expire i => exact hwaiting (Or.inr (Or.inl ⟨i, rfl⟩))
  | cancelWaiter i k => exact hwaiting (Or.inr (Or.inr ⟨i, k, rfl⟩))
  | acquireLock i env => exact (trace_drainRule f.trace i).acquireLock env hrefl
  | resumeDelivery i env =>
    by_cases hkeep : ∀ b d, f.buffers[i]? = some b → b.holder = some d → d.cancelled = false
    · exact (trace_drainRule f.trace i).resumeDelivery env hidle hrefl hkeep
    · rw [InboundPublishFlow.step, resumeDelivery_of_cancelled hkeep]
      exact (trace_drainRule f.trace i).interruptDelivery hrefl fun _ _ _ _ => hrefl
  | interruptDelivery i =>
    exact (trace_drainRule f.trace i).interruptDelivery hrefl fun _ _ _ _ => hrefl
  | clear =>
    rw [InboundPublishFlow.step, clear]
    split
    · exact hrefl
    · exact hrefl
    · split
      · exact hrefl
      · exact List.suffix_append _ _

/-- A PUBREC that was not sent before belongs to an exchange whose PUBREC is on its way. -/
theorem Mirrors.new_pubrec {exchanges' : Int → Option BrokerExchange}
    (h : Mirrors taken exchanges' f' acts air) (hbound : taken ≤ f.acknowledgements.length)
    (htrace : f.trace <:+ f'.trace) {pid : Int} {r : InboundRecipient}
    (hsent : .sent .pubrec pid r ∈ f'.trace) :
    .sent .pubrec pid r ∈ f.trace ∨
      exchanges' pid = some ⟨r.message.packet, .published⟩ := by
  obtain ⟨es, hes⟩ := htrace
  by_cases hold : TraceEntry.sent .pubrec pid r ∈ f.trace
  · exact Or.inl hold
  have hnew : TraceEntry.sent .pubrec pid r ∈ es := by
    rw [← hes] at hsent
    exact (List.mem_append.1 hsent).resolve_right hold
  have hacks : f'.acknowledgements = f.acknowledgements ++ (es.filterMap TraceEntry.ack?).reverse := by
    rw [acknowledgements, ← hes, List.filterMap_append, List.reverse_append]
    rfl
  have hway : (⟨.pubrec, pid, r⟩ : Acknowledgement) ∈ f'.onWay taken acts pid := by
    refine List.mem_filter.2 ⟨List.mem_append_left _ ?_, concerns_own (by simp) r⟩
    rw [hacks, List.drop_append_of_le_length hbound]
    exact List.mem_append_right _ (List.mem_reverse.2 (List.mem_filterMap.2 ⟨_, hnew, rfl⟩))
  refine Or.inr ?_
  have hagree := h.agrees pid
  generalize hx : exchanges' pid = x at hagree
  cases hagree with
  | idle _ _ he => rw [he] at hway; cases hway
  | accepted _ he _ _ => rw [he] at hway; cases hway
  | inFlight flight _ hpacket hstage =>
    rcases hstage with ⟨rfl, he⟩ | ⟨-, he⟩ <;> rw [he] at hway
    · cases List.mem_singleton.1 hway
      rw [hpacket]
    · cases hway
  | released r' _ he _ =>
    rw [he] at hway
    cases List.mem_singleton.1 hway

/-- A step that is no packet of a QoS 2 exchange. -/
def isOther : InboundEvent → Bool
  | .publish packet _ => packet.qos ≠ .exactlyOnce
  | .pubrel _ _ => false
  | _ => true

/-- The read loop does not end between a PUBCOMP and the delivery of its message. -/
def DeliveredFirst (f : InboundPublishFlow) : Prop :=
  ∀ r callback, .deliver r callback ∈ f.reader.acts → ∀ pid, .sent .pubcomp pid r ∉ f.trace

theorem Mirrors.step {e : InboundEvent} (hidle : f.IdleRest) (hlive : f.Live fun _ => [])
    (h : Mirrors taken exchanges f f.reader.acts []) (hwritten : Written f.reader.acts)
    (hother : isOther e = true) (hok : f.undisturbed e)
    (hstop : e = .interruptReader → f.DeliveredFirst) :
    Mirrors taken exchanges (f.step e) (f.step e).reader.acts [] ∧
      Written (f.step e).reader.acts := by
  have hwaiting : (e = .drain ∨ (∃ i, e = .expire i) ∨ ∃ i k, e = .cancelWaiter i k) →
      Mirrors taken exchanges (f.step e) (f.step e).reader.acts [] ∧
        Written (f.step e).reader.acts := fun he => by
    rcases f.waiting_cases he with heq | ⟨i, b, b', hb, hsame, heq⟩ <;> rw [heq]
    · exact ⟨h, hwritten⟩
    · exact ⟨h.move hb fun q => by rw [hsame.held], hwritten⟩
  cases e with
  | publish packet env =>
    have hqos : packet.qos ≠ .exactlyOnce := of_decide_eq_true hother
    rw [InboundPublishFlow.step]
    cases hreader : f.reader with
    | reading =>
      rw [hreader] at h
      refine h.receivePublish env packet hlive hreader (fun _ _ => rfl) fun pid hask => ?_
      exact absurd (asksFor_iff.1 hask).1 hqos
    | suspended acts =>
      simp only [InboundPublishFlow.receivePublish, hreader]
      exact ⟨hreader ▸ h, hreader ▸ hwritten⟩
    | stopped e =>
      simp only [InboundPublishFlow.receivePublish, hreader]
      exact ⟨hreader ▸ h, hreader ▸ hwritten⟩
  | pubrel pid env => cases hother
  | resumeReader env =>
    rw [InboundPublishFlow.step, resumeReader]
    split
    · next acts hreader =>
      rw [hreader] at h hwritten
      exact ⟨h.runReader env (by rw [hreader]; rfl), hwritten.runReader f env⟩
    all_goals exact ⟨h, hwritten⟩
  | interruptReader =>
    rw [InboundPublishFlow.step, interruptReader]
    split
    · exact ⟨h, hwritten⟩
    all_goals exact ⟨h.stop hwritten none (hstop rfl), Written.nil⟩
  | ack k =>
    have hreader : (f.ack k).reader = f.reader := by
      rcases f.ack_cases k with he | ⟨message, _, _, ⟨he, -⟩ | ⟨pid, r, -, he⟩ | ⟨pid, r, _, he⟩⟩ <;>
        rw [he] <;> rfl
    have hbound : f.acknowledgements.length ≤ (f.ack k).acknowledgements.length := by
      rcases f.ack_cases k with he | ⟨message, _, _, ⟨he, -⟩ | ⟨pid, r, -, he⟩ | ⟨pid, r, _, he⟩⟩ <;>
        rw [he]
      · exact length_acknowledgements_le rfl
      all_goals
        have hle : f.acknowledgements.length ≤ (f.resolve k message).acknowledgements.length :=
          length_acknowledgements_le rfl
        exact hle.trans (length_acknowledgements_le rfl)
    rw [InboundPublishFlow.step, hreader]
    exact ⟨⟨⟨h.exchanging.exclusive.ack k, h.exchanging.tokens.ack h.exchanging.exclusive k,
      h.exchanging.order.ack k⟩, h.bound.trans hbound, fun pid =>
      (h.agrees pid).ack h.exchanging.exclusive h.bound (hwritten.filter pid) k,
      h.fulfilled.ack k⟩, hwritten⟩
  | get queue => exact ⟨h.congr rfl rfl rfl rfl rfl id, hwritten⟩
  | subscriptions index => exact ⟨h.congr rfl rfl rfl rfl rfl id, hwritten⟩
  | drain => exact hwaiting (Or.inl rfl)
  | expire i => exact hwaiting (Or.inr (Or.inl ⟨i, rfl⟩))
  | cancelWaiter i k => exact hwaiting (Or.inr (Or.inr ⟨i, k, rfl⟩))
  | acquireLock i env => exact (mirrors_drainRule taken exchanges i).acquireLock env ⟨h, hwritten⟩
  | resumeDelivery i env =>
    refine (mirrors_drainRule taken exchanges i).resumeDelivery env hidle ⟨h, hwritten⟩
      fun b d hb hd => ?_
    exact (hok.1 i b d hb hd).2 env rfl
  | interruptDelivery i =>
    rw [InboundPublishFlow.step, interruptDelivery_of_finish hok.1]
    exact ⟨h, hwritten⟩
  | clear =>
    rw [InboundPublishFlow.step, clear]
    split
    · exact ⟨h, hwritten⟩
    · exact ⟨h.congr rfl rfl rfl rfl rfl id, hwritten⟩
    · next i _ =>
      split
      · exact ⟨h.congr rfl rfl rfl rfl rfl id, hwritten⟩
      · next b hb =>
        have hmove : Mirrors taken exchanges
            ((f.logDropped b.publishes).setBuffer i b.cancelExpiration.empty) f.reader.acts [] :=
          (h.logDropped b.publishes).move hb fun q => ?_
        · exact ⟨hmove.congr rfl rfl rfl rfl rfl id, hwritten⟩
        · have hheld : b.cancelExpiration.held.countP q = b.held.countP q := by
            rw [(sameContents_cancelExpiration b).held]
          rw [← hheld]
          simp only [Buffered.held, Buffered.empty, List.countP_append, List.countP_nil]
          omega

/-! ## The broker receives -/

theorem onWay_take {a : Acknowledgement} (ha : f.acknowledgements[taken]? = some a) (pid : Int) :
    f.onWay taken acts pid =
      [a].filter (Acknowledgement.concerns pid) ++ f.onWay (taken + 1) acts pid := by
  obtain ⟨hlt, rfl⟩ := List.getElem?_eq_some_iff.1 ha
  rw [onWay, onWay, List.drop_eq_getElem_cons hlt, List.cons_append, ← List.singleton_append,
    List.filter_append]

/-- The next acknowledgement is a PUBACK, the PUBREC of a published message or the PUBCOMP of
    a released one. -/
theorem Mirrors.take (h : Mirrors taken exchanges f acts air) {a : Acknowledgement}
    (ha : f.acknowledgements[taken]? = some a) :
    (a.kind = .puback ∧ Mirrors (taken + 1) exchanges f acts air) ∨
      (∃ packet, a.kind = .pubrec ∧ exchanges a.pid = some ⟨packet, .published⟩ ∧
        Mirrors (taken + 1) (Function.update exchanges a.pid (some ⟨packet, .toRelease⟩)) f acts
          air) ∨
      ∃ packet, a.kind = .pubcomp ∧ exchanges a.pid = some ⟨packet, .released⟩ ∧
        a.recipient.message.packet = packet ∧
        Mirrors (taken + 1) (Function.update exchanges a.pid none) f acts air := by
  have hbound : taken + 1 ≤ f.acknowledgements.length := (List.getElem?_eq_some_iff.1 ha).1
  -- the exchanges of other ids are not concerned
  have hother : ∀ pid, Acknowledgement.concerns pid a = false →
      Agrees (taken + 1) f acts air pid (exchanges pid) := fun pid hno => by
    refine (h.agrees pid).frame (fun _ _ => Nat.le_refl _) rfl id (fun _ hr => hr) ?_
    rw [onWay_take ha, List.filter_cons_of_neg (by rw [hno]; exact Bool.false_ne_true)]
    rfl
  have hset : ∀ x, Agrees (taken + 1) f acts air a.pid x → ∀ pid,
      Agrees (taken + 1) f acts air pid (Function.update exchanges a.pid x pid) := by
    intro x hx pid
    by_cases hp : pid = a.pid
    · subst hp
      rw [Function.update_self]
      exact hx
    · rw [Function.update_of_ne hp]
      exact hother pid (decide_eq_false fun hc => hp hc.1.symm)
  by_cases hkind : a.kind = .puback
  · exact Or.inl ⟨hkind, h.exchanging, hbound,
      fun pid => hother pid (decide_eq_false fun hc => hc.2 hkind), h.fulfilled⟩
  have hown : f.onWay taken acts a.pid = a :: f.onWay (taken + 1) acts a.pid := by
    have hconcerns : Acknowledgement.concerns a.pid a = true := decide_eq_true ⟨rfl, hkind⟩
    rw [onWay_take ha, List.filter_cons_of_pos hconcerns, List.filter_nil]
    rfl
  have hagree := h.agrees a.pid
  generalize hx : exchanges a.pid = x at hagree
  cases hagree with
  | idle _ _ he => rw [hown] at he; cases he
  | accepted _ he _ _ => rw [hown] at he; cases he
  | @inFlight packet _ flight hflight hpacket hstage =>
    rcases hstage with ⟨rfl, he⟩ | ⟨-, he⟩ <;> rw [hown] at he
    · obtain ⟨hhead, hrest⟩ := List.cons.inj he
      refine Or.inr (Or.inl ⟨packet, by rw [hhead], rfl, h.exchanging, hbound, hset _ ?_,
        h.fulfilled⟩)
      exact .inFlight flight hflight hpacket (Or.inr ⟨rfl, hrest⟩)
    · cases he
  | @released packet r hno he hpacket =>
    rw [hown] at he
    obtain ⟨hhead, hrest⟩ := List.cons.inj he
    refine Or.inr (Or.inr ⟨packet, by rw [hhead], rfl, by rw [hhead]; exact hpacket, h.exchanging,
      hbound, hset none ?_, h.fulfilled⟩)
    exact .idle (fun _ he => by cases he) hno hrest

end Mirrors

/-! ## Reconnects -/

/-- The flow of the next connection, on a resumed session. The queues keep their messages,
    whose `ack()` belongs to the connection that is gone. -/
def reconnected (f : InboundPublishFlow) : InboundPublishFlow :=
  { fresh f.bufferSize f.maxsize true with
    queues := f.queues
    messages := f.messages.map fun message => { message with ackCallback := none }
    received := f.received }

end InboundPublishFlow

open InboundPublishFlow

/-- What the broker has to do after the connection is cut. -/
def BrokerExchange.restart (x : BrokerExchange) : BrokerExchange :=
  match x.progress with
  | .toPublish => x
  | .published => { packet := { x.packet with dup := true }, progress := .toPublish }
  | .toRelease | .released => { x with progress := .toRelease }

/-- An exchange whose PUBCOMP the broker has received, and the recipient it was sent for. -/
structure FinishedExchange where
  packet : Publish
  recipient : InboundRecipient
  deriving Repr, DecidableEq

/-- The client and the broker of a session. `taken` counts the acknowledgements of the current
    connection that the broker has received; `past` are the connections before. -/
structure ResumedSession where
  flow : InboundPublishFlow
  taken : Nat := 0
  exchanges : Int → Option BrokerExchange := fun _ => none
  finished : List FinishedExchange := []
  past : List InboundPublishFlow := []

/-- The broker takes up a message, its PUBLISH or PUBREL is read by the client, it receives
    the next acknowledgement, something else happens at the client, or the connection is
    cut. -/
inductive SessionEvent where
  | offer (packet : Publish)
  | send (pid : Int) (env : Environment)
  | take
  | client (e : InboundEvent)
  | reconnect

namespace ResumedSession

def setExchange (s : ResumedSession) (pid : Int) (x : Option BrokerExchange) : ResumedSession :=
  { s with exchanges := Function.update s.exchanges pid x }

def offer (s : ResumedSession) (packet : Publish) : ResumedSession :=
  match packet.packetId with
  | none => s
  | some pid =>
      if packet.qos = .exactlyOnce ∧ s.exchanges pid = none then s.setExchange pid (some { packet })
      else s

def send (s : ResumedSession) (pid : Int) (env : Environment) : ResumedSession :=
  match s.flow.reader, s.exchanges pid with
  | .reading, some ⟨packet, .toPublish⟩ =>
      { s.setExchange pid (some ⟨packet, .published⟩) with flow := s.flow.receivePublish env packet }
  | .reading, some ⟨packet, .toRelease⟩ =>
      { s.setExchange pid (some ⟨packet, .released⟩) with flow := s.flow.receivePubrel env pid }
  | _, _ => s

/-- The broker ignores an acknowledgement that it does not wait for. -/
def receive (s : ResumedSession) (a : Acknowledgement) : ResumedSession :=
  match a.kind, s.exchanges a.pid with
  | .pubrec, some ⟨packet, .published⟩ => s.setExchange a.pid (some ⟨packet, .toRelease⟩)
  | .pubcomp, some ⟨packet, .released⟩ =>
      { s.setExchange a.pid none with finished := s.finished ++ [⟨packet, a.recipient⟩] }
  | _, _ => s

def take (s : ResumedSession) : ResumedSession :=
  match s.flow.acknowledgements[s.taken]? with
  | none => s
  | some a => { s with taken := s.taken + 1 }.receive a

def reconnect (s : ResumedSession) : ResumedSession :=
  { s with
    flow := s.flow.reconnected
    taken := 0
    exchanges := fun pid => (s.exchanges pid).map BrokerExchange.restart
    past := s.flow :: s.past }

def step (s : ResumedSession) : SessionEvent → ResumedSession
  | .offer packet => s.offer packet
  | .send pid env => s.send pid env
  | .take => s.take
  | .client e => if isOther e then { s with flow := s.flow.step e } else s
  | .reconnect => s.reconnect

/-- The first connection of the session. -/
def fresh (bufferSize : Nat) (maxsize : Nat → Nat) (sessionPresent : Bool) : ResumedSession :=
  { flow := InboundPublishFlow.fresh bufferSize maxsize sessionPresent }

/-! ## Surviving -/

/-- The same message, sent for the first time or again. -/
def SameMessage (p q : Publish) : Prop := { p with dup := q.dup } = q

/-- Inbound QoS 2 survives the reconnects so far. -/
structure Survives (s : ResumedSession) : Prop where
  /-- A PUBREL is answered with PUBCOMP, and the read loop goes on. -/
  answered : ∀ pid packet env, s.flow.reader = .reading →
    s.exchanges pid = some ⟨packet, .toRelease⟩ →
    (s.step (.send pid env)).flow.reader.isStopped = false ∧
    ∃ r, r.message.packet = packet ∧ .sent .pubcomp pid r :: .pubrel pid :: s.flow.trace <:+
      (s.step (.send pid env)).flow.trace
  /-- A message whose PUBREC was sent is still with the broker, or its exchange is finished. -/
  kept : ∀ f ∈ s.flow :: s.past, ∀ pid r, .sent .pubrec pid r ∈ f.trace →
    (∃ x, s.exchanges pid = some x ∧ SameMessage r.message.packet x.packet) ∨
      ∃ x ∈ s.finished, SameMessage r.message.packet x.packet
  /-- The message of a finished exchange was handed over, on one of the connections, or the
      read loop is about to. -/
  delivered : ∀ x ∈ s.finished, x.recipient.message.packet = x.packet ∧
    ((∃ f ∈ s.flow :: s.past, HandedOver f.trace x.recipient) ∨
      ∃ callback, .deliver x.recipient callback ∈ s.flow.reader.acts)

/-- No connection is cut while the broker waits for a PUBCOMP or between a PUBCOMP and the
    delivery of its message, and no delivery of a held message is interrupted. -/
def cutOutside (s : ResumedSession) : SessionEvent → Prop
  | .client e => s.flow.undisturbed e ∧ (e = .interruptReader → s.flow.DeliveredFirst)
  | .reconnect => (∀ pid x, s.exchanges pid = some x →
      x.progress = .toPublish ∨ x.progress = .published) ∧ s.flow.DeliveredFirst
  | .offer _ | .send _ _ | .take => True

/-! ## The invariant -/

theorem SameMessage.refl (p : Publish) : SameMessage p p := rfl

theorem SameMessage.resent {p q : Publish} (h : SameMessage p q) (dup : Bool) :
    SameMessage p { q with dup } := by
  rw [SameMessage] at h ⊢
  rw [← h]

structure Invariant (s : ResumedSession) : Prop where
  idle : s.flow.IdleRest
  live : s.flow.Live fun _ => []
  mirrors : Mirrors s.taken s.exchanges s.flow s.flow.reader.acts []
  written : Written s.flow.reader.acts
  wellFormed : ∀ pid x, s.exchanges pid = some x →
    x.packet.qos = .exactlyOnce ∧ x.packet.packetId = some pid
  kept : ∀ f ∈ s.flow :: s.past, ∀ pid r, .sent .pubrec pid r ∈ f.trace →
    (∃ x, s.exchanges pid = some x ∧ SameMessage r.message.packet x.packet) ∨
      ∃ x ∈ s.finished, SameMessage r.message.packet x.packet
  finished : ∀ x ∈ s.finished, x.recipient.message.packet = x.packet ∧
    ((∃ f ∈ s.past, HandedOver f.trace x.recipient) ∨
      ∃ pid, .sent .pubcomp pid x.recipient ∈ s.flow.trace)

theorem Invariant.survives {s : ResumedSession} (h : s.Invariant) : s.Survives := by
  refine ⟨fun pid packet env hreader hx => ?_, h.kept, fun x hx => ?_⟩
  · have hmirrors := h.mirrors
    rw [hreader] at hmirrors
    have hstep : s.step (.send pid env) = { s.setExchange pid (some ⟨packet, .released⟩) with
        flow := s.flow.receivePubrel env pid } := by
      simp only [step, send, hreader, hx]
    obtain ⟨-, r, hpacket, htrace⟩ := @Mirrors.receivePubrel s.flow s.taken s.exchanges
      (Function.update s.exchanges pid (some ⟨packet, .released⟩)) env pid packet hreader hmirrors hx
      (fun pid' hne => Function.update_of_ne (Ne.symm hne) _ _) (Function.update_self _ _ _)
    rw [hstep]
    refine ⟨?_, r, hpacket, htrace⟩
    obtain ⟨flight, hflight⟩ := (hx ▸ hmirrors.agrees pid : Agrees _ _ _ _ pid _).flight_of_toRelease
    have hget : (s.flow.log (.pubrel pid)).inflightQos2In.get? pid = some flight := hflight
    simp only [InboundPublishFlow.receivePubrel, hreader, handlePubrel, hget, dispatch,
      InboundPublishFlow.runReader]
    split <;> rfl
  · obtain ⟨hpacket, hcases⟩ := h.finished x hx
    refine ⟨hpacket, ?_⟩
    rcases hcases with ⟨f, hf, hover⟩ | ⟨pid, hsent⟩
    · exact Or.inl ⟨f, List.mem_cons_of_mem _ hf, hover⟩
    · rcases h.mirrors.fulfilled.sent pid x.recipient (Or.inl hsent) with hover | hact
      · exact Or.inl ⟨s.flow, List.mem_cons_self, hover⟩
      · exact Or.inr hact

/-! ## Steps -/

/-- The flow goes on, and the broker keeps its messages. -/
theorem Invariant.advance {s : ResumedSession} (h : s.Invariant) {f : InboundPublishFlow}
    {exchanges : Int → Option BrokerExchange} (hidle : f.IdleRest) (hlive : f.Live fun _ => [])
    (hmirrors : Mirrors s.taken exchanges f f.reader.acts []) (hwritten : Written f.reader.acts)
    (htrace : s.flow.trace <:+ f.trace)
    (hold : ∀ pid x, s.exchanges pid = some x →
      ∃ x', exchanges pid = some x' ∧ x'.packet = x.packet)
    (hnew : ∀ pid x', exchanges pid = some x' →
      x'.packet.qos = .exactlyOnce ∧ x'.packet.packetId = some pid) :
    Invariant { s with flow := f, exchanges } := by
  have hkept : ∀ pid (r : InboundRecipient),
      ((∃ x, s.exchanges pid = some x ∧ SameMessage r.message.packet x.packet) ∨
        ∃ x ∈ s.finished, SameMessage r.message.packet x.packet) →
      (∃ x, exchanges pid = some x ∧ SameMessage r.message.packet x.packet) ∨
        ∃ x ∈ s.finished, SameMessage r.message.packet x.packet := by
    rintro pid r (⟨x, hx, hsame⟩ | hfin)
    · obtain ⟨x', hx', he⟩ := hold pid x hx
      exact Or.inl ⟨x', hx', by rw [he]; exact hsame⟩
    · exact Or.inr hfin
  refine ⟨hidle, hlive, hmirrors, hwritten, hnew, fun g hg pid r hsent => ?_, fun x hx => ?_⟩
  · rcases List.mem_cons.1 hg with rfl | hg
    · rcases hmirrors.new_pubrec h.mirrors.bound htrace hsent with hsent | hx
      · exact hkept pid r (h.kept s.flow List.mem_cons_self pid r hsent)
      · exact Or.inl ⟨_, hx, SameMessage.refl _⟩
    · exact hkept pid r (h.kept g (List.mem_cons_of_mem _ hg) pid r hsent)
  · obtain ⟨hpacket, hcases⟩ := h.finished x hx
    exact ⟨hpacket, hcases.imp_right fun ⟨pid, hsent⟩ => ⟨pid, htrace.subset hsent⟩⟩

theorem exchanges_setExchange (s : ResumedSession) (pid : Int) (x : Option BrokerExchange) :
    (s.setExchange pid x).exchanges = Function.update s.exchanges pid x := rfl

theorem Invariant.offer {s : ResumedSession} (h : s.Invariant) (packet : Publish) :
    (s.offer packet).Invariant := by
  unfold ResumedSession.offer
  split
  · exact h
  · next pid hpid =>
    split
    · next hnew =>
      obtain ⟨hqos, hnone⟩ := hnew
      have hagrees : ∀ pid', Agrees s.taken s.flow s.flow.reader.acts [] pid'
          (Function.update s.exchanges pid (some { packet }) pid') := fun pid' => by
        by_cases hp : pid' = pid
        · subst hp
          have hagree := h.mirrors.agrees pid'
          rw [hnone] at hagree
          rw [Function.update_self]
          cases hagree with
          | idle _ hno hway => exact .idle (fun x he => by cases he; rfl) hno hway
        · rw [Function.update_of_ne hp]
          exact h.mirrors.agrees pid'
      refine h.advance h.idle h.live ⟨h.mirrors.exchanging, h.mirrors.bound, hagrees,
        h.mirrors.fulfilled⟩ h.written (List.suffix_refl _) (fun pid' x hx => ?_) fun pid' x hx => ?_
      · have hp : pid' ≠ pid := by
          rintro rfl
          rw [hnone] at hx
          cases hx
        exact ⟨x, by rw [Function.update_of_ne hp]; exact hx, rfl⟩
      · by_cases hp : pid' = pid
        · subst hp
          rw [Function.update_self] at hx
          cases hx
          exact ⟨hqos, hpid⟩
        · rw [Function.update_of_ne hp] at hx
          exact h.wellFormed pid' x hx
    · exact h

/-- The exchange of an id makes progress. -/
theorem Invariant.progress {s : ResumedSession} (h : s.Invariant) {f : InboundPublishFlow}
    {pid : Int} {packet : Publish} {old new : Progress} (hidle : f.IdleRest)
    (hlive : f.Live fun _ => []) (hx : s.exchanges pid = some ⟨packet, old⟩)
    (hmirrors : Mirrors s.taken (Function.update s.exchanges pid (some ⟨packet, new⟩)) f
      f.reader.acts []) (hwritten : Written f.reader.acts) (htrace : s.flow.trace <:+ f.trace) :
    Invariant { s.setExchange pid (some ⟨packet, new⟩) with flow := f } := by
  refine h.advance hidle hlive hmirrors hwritten htrace (fun pid' x hx' => ?_) fun pid' x hx' => ?_
  · by_cases hp : pid' = pid
    · subst hp
      rw [hx] at hx'
      cases hx'
      exact ⟨_, Function.update_self _ _ _, rfl⟩
    · exact ⟨x, by rw [exchanges_setExchange, Function.update_of_ne hp]; exact hx', rfl⟩
  · rw [exchanges_setExchange] at hx'
    by_cases hp : pid' = pid
    · subst hp
      rw [Function.update_self] at hx'
      cases hx'
      have hwell := h.wellFormed pid' _ hx
      exact hwell
    · rw [Function.update_of_ne hp] at hx'
      exact h.wellFormed pid' x hx'

theorem Invariant.send {s : ResumedSession} (h : s.Invariant) (pid : Int) (env : Environment) :
    (s.send pid env).Invariant := by
  have hother : ∀ x pid', pid ≠ pid' → Function.update s.exchanges pid x pid' = s.exchanges pid' :=
    fun x pid' hne => Function.update_of_ne (Ne.symm hne) _ _
  have hmirrors := h.mirrors
  unfold ResumedSession.send
  split
  · next packet hreader hx =>
    obtain ⟨hqos, hpid⟩ := h.wellFormed pid _ hx
    rw [hreader] at hmirrors
    have hask : ∀ pid', asksFor pid' (s.flow.nextReceived packet) = true ↔ pid = pid' := by
      intro pid'
      rw [asksFor_iff]
      constructor
      · intro hask
        exact Option.some.inj (hpid.symm.trans hask.2)
      · rintro rfl
        exact ⟨hqos, hpid⟩
    have hpublish := hmirrors.receivePublish env packet h.live hreader
      (fun pid' hno => hother (some ⟨packet, .published⟩) pid' fun he => hno ((hask pid').2 he))
      fun pid' hyes => by
        obtain rfl := (hask pid').1 hyes
        exact ⟨hx, Function.update_self _ _ _⟩
    have hlive : (s.flow.step (.publish packet env)).Live fun _ => [] :=
      h.live.step h.idle fun he => by cases he
    exact h.progress (h.idle.step (.publish packet env)) hlive hx hpublish.1 hpublish.2
      (trace_step h.idle (.publish packet env))
  · next packet hreader hx =>
    rw [hreader] at hmirrors
    obtain ⟨hpubrel, -⟩ := hmirrors.receivePubrel env hreader hx
      (hother (some ⟨packet, .released⟩)) (Function.update_self _ _ _)
    have hlive : (s.flow.step (.pubrel pid env)).Live fun _ => [] :=
      h.live.step h.idle fun he => by cases he
    exact h.progress (h.idle.step (.pubrel pid env)) hlive hx hpubrel.1 hpubrel.2
      (trace_step h.idle (.pubrel pid env))
  · exact h

theorem Invariant.take {s : ResumedSession} (h : s.Invariant) : s.take.Invariant := by
  unfold ResumedSession.take
  split
  · exact h
  · next a ha =>
    have hmem := List.mem_of_getElem? ha
    rcases h.mirrors.take ha with ⟨hkind, hm⟩ | ⟨packet, hkind, hx, hm⟩ |
      ⟨packet, hkind, hx, hpacket, hm⟩
    · have hreceive : ({ s with taken := s.taken + 1 } : ResumedSession).receive a =
          { s with taken := s.taken + 1 } := by
        simp only [receive, hkind]
      rw [hreceive]
      exact ⟨h.idle, h.live, hm, h.written, h.wellFormed, h.kept, h.finished⟩
    · have hreceive : ({ s with taken := s.taken + 1 } : ResumedSession).receive a =
          ({ s with taken := s.taken + 1 } : ResumedSession).setExchange a.pid
            (some ⟨packet, .toRelease⟩) := by
        simp only [receive, hkind, hx]
      rw [hreceive]
      refine ⟨h.idle, h.live, hm, h.written, fun pid x hx' => ?_, fun f hf pid r hsent => ?_,
        h.finished⟩
      · rw [exchanges_setExchange] at hx'
        by_cases hp : pid = a.pid
        · subst hp
          rw [Function.update_self] at hx'
          cases hx'
          have hwell := h.wellFormed a.pid _ hx
          exact hwell
        · rw [Function.update_of_ne hp] at hx'
          exact h.wellFormed pid x hx'
      · rcases h.kept f hf pid r hsent with ⟨x, hx', hsame⟩ | hfin
        · refine Or.inl ?_
          rw [exchanges_setExchange]
          by_cases hp : pid = a.pid
          · subst hp
            obtain rfl := Option.some.inj (hx'.symm.trans hx)
            exact ⟨_, Function.update_self _ _ _, hsame⟩
          · exact ⟨x, by rw [Function.update_of_ne hp]; exact hx', hsame⟩
        · exact Or.inr hfin
    · have hreceive : ({ s with taken := s.taken + 1 } : ResumedSession).receive a =
          { ({ s with taken := s.taken + 1 } : ResumedSession).setExchange a.pid none with
            finished := s.finished ++ [⟨packet, a.recipient⟩] } := by
        simp only [receive, hkind, hx]
      have hlast : ⟨packet, a.recipient⟩ ∈ s.finished ++ [⟨packet, a.recipient⟩] :=
        List.mem_append_right _ (List.mem_singleton.2 rfl)
      rw [hreceive]
      refine ⟨h.idle, h.live, hm, h.written, fun pid x hx' => ?_, fun f hf pid r hsent => ?_,
        fun x hx' => ?_⟩
      · have hx' : Function.update s.exchanges a.pid none pid = some x := hx'
        by_cases hp : pid = a.pid
        · subst hp
          rw [Function.update_self] at hx'
          cases hx'
        · rw [Function.update_of_ne hp] at hx'
          exact h.wellFormed pid x hx'
      · rcases h.kept f hf pid r hsent with ⟨x, hx', hsame⟩ | ⟨x, hfin, hsame⟩
        · by_cases hp : pid = a.pid
          · subst hp
            obtain rfl := Option.some.inj (hx'.symm.trans hx)
            exact Or.inr ⟨_, hlast, hsame⟩
          · refine Or.inl ⟨x, ?_, hsame⟩
            have hset : Function.update s.exchanges a.pid none pid = some x := by
              rw [Function.update_of_ne hp]
              exact hx'
            exact hset
        · exact Or.inr ⟨x, List.mem_append_left _ hfin, hsame⟩
      · rcases List.mem_append.1 hx' with hx' | hx'
        · exact h.finished x hx'
        · obtain rfl := List.mem_singleton.1 hx'
          refine ⟨hpacket, Or.inr ⟨a.pid, ?_⟩⟩
          -- the PUBCOMP is in the history of the connection
          obtain ⟨entry, hentry, he⟩ := List.mem_filterMap.1 (List.mem_reverse.1 hmem)
          cases entry with
          | sent kind pid r =>
            cases he
            cases hkind
            exact hentry
          | _ => cases he

theorem exchanging_reconnected (f : InboundPublishFlow) : Exchanging f.reconnected [] [] := by
  have hcallback : ∀ message ∈ f.reconnected.messages, message.ackCallback = none := by
    intro message hmem
    obtain ⟨old, -, rfl⟩ := List.mem_map.1 hmem
    rfl
  have hzero : ∀ pid, f.reconnected.messages.countP (unresolved pid) = 0 := fun pid => by
    refine List.countP_eq_zero.2 fun message hmem hun => ?_
    rw [unresolved, hcallback message hmem] at hun
    split at hun
    · next he => cases he
    · cases hun
  refine ⟨⟨fun _ => Nat.zero_le _, fun pid hpos => ?_, fun pid hp => ?_, fun pid => ?_,
    fun pid hpos => ?_, fun message hm => ?_, fun _ _ hm => ?_, fun _ _ hf => ?_⟩,
    ⟨fun _ _ => Nat.zero_le _, fun _ _ _ hpos => ?_⟩,
    ⟨fun _ _ _ hsuf => ?_, fun _ _ hf => ?_, fun _ _ hm => ?_, fun message hm pid r hc => ?_,
      fun _ _ _ hm => ?_, fun _ _ hin => ?_⟩⟩
  · exact absurd hpos (Nat.lt_irrefl 0)
  · exact absurd hp (Finset.notMem_empty pid)
  · rw [hzero]
    exact Nat.zero_le _
  · rw [hzero] at hpos
    exact absurd hpos (Nat.lt_irrefl 0)
  · rw [hcallback message hm]
    trivial
  · exact absurd hm List.not_mem_nil
  · cases hf
  · exact absurd hpos (Nat.lt_irrefl 0)
  · exact absurd (List.suffix_nil.1 hsuf) (List.cons_ne_nil _ _)
  · cases hf
  · exact absurd hm List.not_mem_nil
  · rw [hcallback message hm] at hc
    cases hc
  · exact absurd hm List.not_mem_nil
  · exact absurd hin List.not_mem_nil

/-- A connection on which nothing has happened agrees with a broker that has to publish. -/
theorem mirrors_start {f : InboundPublishFlow} {exchanges : Int → Option BrokerExchange}
    (hex : Exchanging f [] []) (htrace : f.trace = [])
    (hheld : ∀ q, f.heldWith q = 0) (hflights : f.inflightQos2In = [])
    (hpending : f.pendingAckQos2In = ∅) (hcallback : ∀ message ∈ f.messages, message.ackCallback = none)
    (hstart : ∀ pid x, exchanges pid = some x → x.progress = .toPublish) :
    Mirrors 0 exchanges f [] [] := by
  have hacks : f.acknowledgements = [] := by
    rw [acknowledgements, htrace]
    rfl
  refine ⟨hex, Nat.zero_le _, fun pid => .idle (hstart pid) ⟨?_, ?_, ?_⟩ ?_,
    ⟨fun pid r hr => ?_, fun pid flight hget => ?_, fun message hmem pid r hc => ?_⟩⟩
  · rw [hheld]
    rfl
  · rw [hflights]
    rfl
  · rw [hpending]
    exact Finset.notMem_empty pid
  · rw [onWay, hacks]
    rfl
  · rw [htrace] at hr
    rcases hr with hr | hr <;> cases hr
  · rw [hflights] at hget
    cases hget
  · rw [hcallback message hmem] at hc
    cases hc

theorem Invariant.reconnect {s : ResumedSession} (h : s.Invariant)
    (hok : s.cutOutside .reconnect) : s.reconnect.Invariant := by
  obtain ⟨hstages, hfirst⟩ := hok
  have hrestart : ∀ pid x', (s.exchanges pid).map BrokerExchange.restart = some x' →
      ∃ x, s.exchanges pid = some x ∧ x'.progress = .toPublish ∧
        ∃ dup, x'.packet = { x.packet with dup } := by
    intro pid x' hx'
    obtain ⟨x, hx, rfl⟩ := Option.map_eq_some_iff.1 hx'
    refine ⟨x, hx, ?_⟩
    rcases hstages pid x hx with hp | hp <;> rw [BrokerExchange.restart, hp]
    · exact ⟨hp, x.packet.dup, rfl⟩
    · exact ⟨rfl, true, rfl⟩
  refine ⟨?_, ?_, ?_, Written.nil, fun pid x' hx' => ?_, fun f hf pid r hsent => ?_,
    fun x hx => ?_⟩
  · intro b hb
    cases hb
  · intro _ j b hb
    cases hb
  · refine mirrors_start (exchanging_reconnected s.flow) rfl (fun _ => rfl) rfl rfl ?_ ?_
    · intro message hmem
      obtain ⟨old, -, rfl⟩ := List.mem_map.1 hmem
      rfl
    · intro pid x' hx'
      obtain ⟨x, -, hp, -⟩ := hrestart pid x' hx'
      exact hp
  · obtain ⟨x, hx, -, dup, hpacket⟩ := hrestart pid x' hx'
    rw [hpacket]
    exact h.wellFormed pid x hx
  · rcases List.mem_cons.1 hf with rfl | hf
    · cases hsent
    · rcases h.kept f hf pid r hsent with ⟨x, hx, hsame⟩ | hfin
      · refine Or.inl ⟨x.restart, ?_, ?_⟩
        · have hmap : (s.exchanges pid).map BrokerExchange.restart = some x.restart := by
            rw [hx]
            rfl
          exact hmap
        · rcases hstages pid x hx with hp | hp <;> rw [BrokerExchange.restart, hp]
          · exact hsame
          · exact hsame.resent true
      · exact Or.inr hfin
  · obtain ⟨hpacket, hcases⟩ := h.finished x hx
    refine ⟨hpacket, Or.inl ?_⟩
    rcases hcases with ⟨f, hf, hover⟩ | ⟨pid, hsent⟩
    · exact ⟨f, List.mem_cons_of_mem _ hf, hover⟩
    · rcases h.mirrors.fulfilled.sent pid x.recipient (Or.inl hsent) with hover | ⟨callback, hact⟩
      · exact ⟨s.flow, List.mem_cons_self, hover⟩
      · exact absurd hsent (hfirst x.recipient callback hact pid)

theorem Invariant.step {s : ResumedSession} (h : s.Invariant) {e : SessionEvent}
    (hok : s.cutOutside e) : (s.step e).Invariant := by
  cases e with
  | offer packet => exact h.offer packet
  | send pid env => exact h.send pid env
  | take => exact h.take
  | client e =>
    rw [ResumedSession.step]
    split
    · next hother =>
      obtain ⟨hm, hw⟩ := h.mirrors.step h.idle h.live h.written hother hok.1 hok.2
      exact h.advance (h.idle.step e) (h.live.step h.idle hok.1.2) hm hw (trace_step h.idle e)
        (fun pid x hx => ⟨x, hx, rfl⟩) h.wellFormed
    · exact h
  | reconnect => exact h.reconnect hok

theorem invariant_fresh (bufferSize : Nat) (maxsize : Nat → Nat) (sessionPresent : Bool) :
    (fresh bufferSize maxsize sessionPresent).Invariant := by
  refine ⟨idleRest_fresh _ _ _, live_fresh _ _ _, mirrors_start (exchanging_fresh _ _ _) rfl
    (fun _ => rfl) rfl rfl (fun _ hmem => by cases hmem) (fun _ _ hx => by cases hx), Written.nil,
    (fun _ _ hx => by cases hx), fun f hf pid r hsent => ?_, (fun _ hx => by cases hx)⟩
  obtain rfl := List.mem_singleton.1 hf
  cases hsent

/-- **Resumed sessions.** In every run across reconnects in which no connection is cut while
    the broker waits for a PUBCOMP, or between a PUBCOMP and the delivery of its message, and
    no delivery of a held message is interrupted, every PUBREL is answered with PUBCOMP, and
    every message whose PUBREC was sent is still with the broker or was handed over. -/
theorem qos2_survives (bufferSize : Nat) (maxsize : Nat → Nat) (sessionPresent : Bool)
    (s : ResumedSession)
    (h : Reach step cutOutside (fresh bufferSize maxsize sessionPresent) s) : s.Survives := by
  have hinv : s.Invariant := by
    refine Reach.invariant (I := Invariant) h (invariant_fresh _ _ _) fun s e hs hok => ?_
    exact hs.step hok
  exact hinv.survives

/-- An id under which the broker takes up no message has no exchange. -/
theorem exchanges_eq_none {pid : Int} {es : List SessionEvent} {s : ResumedSession}
    (h : s.exchanges pid = none)
    (hes : ∀ packet, .offer packet ∈ es → packet.packetId ≠ some pid) :
    (es.foldl step s).exchanges pid = none := by
  induction es generalizing s with
  | nil => exact h
  | cons e es ih =>
    refine ih ?_ fun packet hmem => hes packet (List.mem_cons_of_mem _ hmem)
    have hset : ∀ (s : ResumedSession) pid' x x', s.exchanges pid = none →
        s.exchanges pid' = some x → (s.setExchange pid' x').exchanges pid = none := by
      intro s pid' x x' hnone hx
      rw [exchanges_setExchange, Function.update_of_ne]
      · exact hnone
      · rintro rfl
        rw [hnone] at hx
        cases hx
    cases e with
    | offer packet =>
      rw [step, ResumedSession.offer]
      split
      · exact h
      · next pid' hpid =>
        split
        · rw [exchanges_setExchange, Function.update_of_ne]
          · exact h
          · rintro rfl
            exact hes packet List.mem_cons_self hpid
        · exact h
    | send pid' env =>
      rw [step, ResumedSession.send]
      split
      · next hx => exact hset s pid' _ _ h hx
      · next hx => exact hset s pid' _ _ h hx
      · exact h
    | take =>
      rw [step, ResumedSession.take]
      split
      · exact h
      · rw [receive]
        split
        · next hx => exact hset { s with taken := s.taken + 1 } _ _ _ h hx
        · next hx => exact hset { s with taken := s.taken + 1 } _ _ _ h hx
        · exact h
    | client e =>
      rw [step]
      split <;> exact h
    | reconnect =>
      have hmap : (s.exchanges pid).map BrokerExchange.restart = none := by
        rw [h]
        rfl
      exact hmap

/-- The connection is cut when PUBREC was sent and not received; the PUBLISH is sent again. -/
def resentRun : List SessionEvent :=
  [.client (.subscriptions (indexA true)), .offer (publishA .exactlyOnce (some 1)), .send 1 {},
    .reconnect, .client (.subscriptions (indexA true)), .send 1 {}, .take, .send 1 {}, .take]

theorem qos2_survives_resentRun :
    (resentRun.foldl step (fresh 10 (fun _ => 0) false)).flow.queues 0 = [0] ∧
    (resentRun.foldl step (fresh 10 (fun _ => 0) false)).finished.length = 1 ∧
    (resentRun.foldl step (fresh 10 (fun _ => 0) false)).Survives := by
  refine ⟨by decide +kernel, by decide +kernel,
    qos2_survives 10 (fun _ => 0) false _ (Reach.foldl ?_)⟩
  have hclient : ∀ s : ResumedSession, s.cutOutside (.client (.subscriptions (indexA true))) :=
    fun s => ⟨⟨fun i b d _ _ => ⟨by simp, fun env he => by cases he⟩, fun he => by cases he⟩,
      fun he => by cases he⟩
  refine ⟨hclient _, trivial, trivial, ⟨fun pid x hx => Or.inr ?_, ?_⟩, hclient _, trivial, trivial,
    trivial, trivial, trivial⟩
  · change ((resentRun.take 3).foldl step (fresh 10 (fun _ => 0) false)).exchanges pid = some x at hx
    by_cases hpid : pid = 1
    · subst hpid
      have hstage : (((resentRun.take 3).foldl step (fresh 10 (fun _ => 0) false)).exchanges 1).map
          BrokerExchange.progress = some .published := by decide +kernel
      rw [hx] at hstage
      exact Option.some.inj hstage
    · rw [@exchanges_eq_none pid (resentRun.take 3) _ rfl] at hx
      · cases hx
      · intro packet hmem he
        simp only [resentRun, List.take, List.mem_cons, SessionEvent.offer.injEq, reduceCtorEq,
          List.not_mem_nil, false_or, or_false] at hmem
        subst hmem
        exact hpid (Option.some.inj he).symm
  · intro r callback hact
    change .deliver r callback ∈
      ((resentRun.take 3).foldl step (fresh 10 (fun _ => 0) false)).flow.reader.acts at hact
    have hacts : ((resentRun.take 3).foldl step (fresh 10 (fun _ => 0) false)).flow.reader.acts =
        [] := by decide +kernel
    rw [hacts] at hact
    cases hact

/-- The connection is cut when the broker has received PUBREC. -/
def releasedAgainRun : List SessionEvent :=
  [.client (.subscriptions (indexA true)), .offer (publishA .exactlyOnce (some 1)), .send 1 {},
    .take, .reconnect, .client (.subscriptions (indexA true))]

/-- The PUBREL on the new connection ends the read loop, and the message is in no queue. -/
theorem pubrel_after_reconnect :
    ¬ (∀ s, Reach step anyStep (fresh 10 (fun _ => 0) false) s → s.Survives) ∧
    ((releasedAgainRun.foldl step (fresh 10 (fun _ => 0) false)).step (.send 1 {})).flow.reader =
      .stopped (some (.protocolError "PUBREL for unknown packet_id 1")) ∧
    ((releasedAgainRun.foldl step (fresh 10 (fun _ => 0) false)).step (.send 1 {})).flow.queues 0 =
      [] := by
  refine ⟨fun h => ?_, by decide +kernel, by decide +kernel⟩
  have hsurvives := h _ (Reach.foldl (meets_anyStep releasedAgainRun))
  have hanswer := hsurvives.answered 1 (publishA .exactlyOnce (some 1)) {} (by decide +kernel)
    (by decide +kernel)
  have hstopped : ((releasedAgainRun.foldl step (fresh 10 (fun _ => 0) false)).step
      (.send 1 {})).flow.reader.isStopped = true := by decide +kernel
  rw [hanswer.1] at hstopped
  cases hstopped

end ResumedSession

end Zmqtt
