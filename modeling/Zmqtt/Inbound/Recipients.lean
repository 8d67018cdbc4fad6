/-
  One recipient for each message. A message below QoS 2 is held by the replay buffer, or by an
  await of the read loop, or was delivered, and never twice (`Placed`); a QoS 2 message has the
  token of its exchange. So no message is delivered to a request and put into a queue.
-/
import Zmqtt.Inbound.AtMostOnce

namespace Zmqtt

/-- The message opens no QoS 2 exchange. -/
def Plain (m : Received) : Prop := ∀ pid, asksFor pid m = false

/-- The entry delivers the message. -/
def TraceEntry.handsOut (m : Received) : TraceEntry → Bool
  | enqueued _ m' | requested _ m' => m' = m
  | _ => false

/-- The await delivers the message. -/
def Act.handsOut (m : Received) : Act → Bool
  | deliver r _ => r.message = m
  | send _ _ _ => false

namespace InboundPublishFlow

/-- How often a message is held, or is to be delivered, or was. -/
def places (f : InboundPublishFlow) (acts : List Act) (air : List Received) (m : Received) : Nat :=
  f.heldWith (fun m' => m' = m) + air.countP (fun m' => m' = m) + acts.countP (Act.handsOut m) +
    f.trace.countP (TraceEntry.handsOut m)

/-- A message below QoS 2 has at most one place, and none before it was received. -/
structure Placed (f : InboundPublishFlow) (acts : List Act) (air : List Received) : Prop where
  once : ∀ m, Plain m → f.places acts air m ≤ 1
  known : ∀ m, Plain m → 0 < f.places acts air m → m.num < f.received

variable {f f' : InboundPublishFlow} {acts acts' : List Act} {air air' : List Received}
  {m : Received} {r : InboundRecipient}

/-- Messages only move on or leave. -/
theorem Placed.shrink (h : Placed f acts air) (hreceived : f'.received = f.received)
    (hle : ∀ m, Plain m → f'.places acts' air' m ≤ f.places acts air m) :
    Placed f' acts' air' := by
  refine ⟨fun m hm => (hle m hm).trans (h.once m hm), fun m hm hpos => ?_⟩
  rw [hreceived]
  exact h.known m hm (Nat.lt_of_lt_of_le hpos (hle m hm))

/-- Entries that deliver nothing. -/
theorem Placed.quiet (h : Placed f acts air) (entries : List TraceEntry)
    (htrace : f'.trace = entries ++ f.trace)
    (hquiet : ∀ entry ∈ entries, ∀ m, entry.handsOut m = false)
    (hbuffers : f'.buffers = f.buffers) (hreceived : f'.received = f.received) :
    Placed f' acts air := by
  refine h.shrink hreceived fun m _ => Nat.le_of_eq ?_
  have hnone : entries.countP (TraceEntry.handsOut m) = 0 :=
    List.countP_eq_zero.2 fun entry he ht => by rw [hquiet entry he m] at ht; cases ht
  rw [places, places, heldWith, hbuffers, htrace, List.countP_append, hnone, Nat.zero_add]
  rfl

theorem Placed.congr (h : Placed f acts air) (htrace : f'.trace = f.trace)
    (hbuffers : f'.buffers = f.buffers) (hreceived : f'.received = f.received) :
    Placed f' acts air :=
  h.quiet [] htrace (fun _ he => absurd he List.not_mem_nil) hbuffers hreceived

theorem Placed.log (h : Placed f acts air) {entry : TraceEntry}
    (hquiet : ∀ m, entry.handsOut m = false) : Placed (f.log entry) acts air := by
  refine h.shrink rfl fun m _ => Nat.le_of_eq ?_
  rw [places, places, InboundPublishFlow.log, List.countP_cons, hquiet m]
  rfl

theorem Placed.send {kind : AckKind} {pid : Int} (h : Placed f (.send kind pid r :: acts) air) :
    Placed (f.log (.sent kind pid r)) acts air := by
  refine h.shrink rfl fun m _ => Nat.le_of_eq ?_
  rw [places, places, InboundPublishFlow.log, List.countP_cons, List.countP_cons]
  rfl

/-- A delivery moves the message from its await to the trace. -/
theorem Placed.handOver {callback : Option AckCallback}
    (h : Placed f (.deliver r callback :: acts) air) : Placed (f.handOver r callback) acts air := by
  have hsame := f.sameTables_handOver r callback
  refine h.shrink hsame.received fun m _ => ?_
  have htrace : (f.handOver r callback).trace.countP (TraceEntry.handsOut m) ≤
      f.trace.countP (TraceEntry.handsOut m) + if r.message = m then 1 else 0 := by
    rcases f.handOver_cases r callback with ⟨-, he⟩ | ⟨request, -, he⟩ | ⟨filter, entry, -, -, he⟩ <;>
      rw [he]
    · exact Nat.le_add_right _ _
    · rw [InboundPublishFlow.log, List.countP_cons]
      simp [TraceEntry.handsOut]
    · rw [enqueue, List.countP_cons]
      simp [TraceEntry.handsOut]
  have hheld : (f.handOver r callback).heldWith (fun m' => m' = m) =
      f.heldWith (fun m' => m' = m) := by
    rw [heldWith, hsame.buffers]
    rfl
  rw [places, places, hheld, List.countP_cons, Act.handsOut]
  simp only [decide_eq_true_eq]
  omega

/-- Messages move between object `i` and the running task, or leave. -/
theorem Placed.move (h : Placed f acts air) {i : Nat} {b b' : Buffered}
    (hb : f.buffers[i]? = some b)
    (hcount : ∀ q, b'.held.countP q + air'.countP q ≤ b.held.countP q + air.countP q) :
    Placed (f.setBuffer i b') acts air' := by
  refine h.shrink rfl fun m _ => ?_
  have hset := heldWith_setBuffer hb b' fun m' => decide (m' = m)
  have hc := hcount fun m' => decide (m' = m)
  have htrace : (f.setBuffer i b').trace = f.trace := rfl
  rw [places, places, htrace]
  omega

theorem Placed.perm (h : Placed f acts air) (hperm : air.Perm air') : Placed f acts air' := by
  refine h.shrink rfl fun m _ => Nat.le_of_eq ?_
  rw [places, places, hperm.countP_eq]

theorem Placed.addSend (h : Placed f acts air) (kind : AckKind) (pid : Int)
    (r : InboundRecipient) : Placed f (.send kind pid r :: acts) air := by
  refine h.shrink rfl fun m _ => Nat.le_of_eq ?_
  rw [places, places, List.countP_cons]
  rfl

/-- The running task is about to deliver one of its messages. -/
theorem Placed.addDeliver (h : Placed f acts (r.message :: air))
    (callback : Option AckCallback) : Placed f (.deliver r callback :: acts) air := by
  refine h.shrink rfl fun m _ => Nat.le_of_eq ?_
  rw [places, places, List.countP_cons, List.countP_cons, Act.handsOut]
  omega

/-- A message of a QoS 2 exchange is not counted. -/
theorem Placed.drop (h : Placed f acts (m :: air)) : Placed f acts air := by
  refine h.shrink rfl fun m _ => ?_
  rw [places, places, List.countP_cons]
  omega

theorem Placed.deliverQos2 (h : Placed f acts air) {pid : Int}
    (hask : asksFor pid r.message = true) (callback : Option AckCallback) :
    Placed f (.deliver r callback :: acts) air := by
  refine h.shrink rfl fun m hm => Nat.le_of_eq ?_
  have hne : (Act.deliver r callback).handsOut m = false := by
    rw [Act.handsOut, decide_eq_false_iff_not]
    rintro rfl
    rw [hm pid] at hask
    cases hask
  rw [places, places, List.countP_cons, hne]
  rfl

theorem Placed.handsOn (h : Placed f acts (r.message :: air)) (hands : HandsOn f r f') :
    Placed f' acts air := by
  cases hands with
  | qos0 _ => exact (h.addDeliver none).handOver
  | qos1Auto pid _ => exact (h.addDeliver none).handOver.log fun _ => rfl
  | qos1Manual pid _ _ => exact (h.addDeliver _).handOver
  | qos2Auto pid hqos hpid _ =>
    have hstart : Placed (f.startAuto pid r) acts air :=
      h.drop.quiet [.started r] rfl (by simp [TraceEntry.handsOut]) rfl rfl
    exact hstart.log fun _ => rfl
  | qos2Manual pid hqos hpid _ =>
    have hstart : Placed (f.startManual pid r) acts air :=
      h.drop.quiet [.started r] rfl (by simp [TraceEntry.handsOut]) rfl rfl
    exact (hstart.deliverQos2 (asksFor_iff.2 ⟨hqos, hpid⟩) _).handOver

theorem Placed.logDropped (h : Placed f acts air) (ms : List Received) :
    Placed (f.logDropped ms) acts air := by
  refine h.quiet (ms.map TraceEntry.dropped) rfl (fun entry he m => ?_) rfl rfl
  obtain ⟨m', -, rfl⟩ := List.mem_map.1 he
  rfl

theorem placed_drainRule (i : Nat) :
    DrainRule (fun f => Placed f f.reader.acts []) (fun f air => Placed f f.reader.acts air)
      (fun f air => Placed f f.reader.acts air) (fun f air _ => Placed f f.reader.acts air) i := by
  refine drainRule_of_move i ?_ ?_ ?_ ?_ ?_
  · exact fun f b b' air air' h hb hcount => h.move hb hcount
  · exact fun f a b hperm h => h.perm hperm
  · intro f f' r air h hands
    rw [hands.reader]
    exact h.handsOn hands
  · exact fun f replay h => h.congr rfl rfl rfl
  · exact fun f ms air h => h.logDropped ms

/-! ## The read loop -/

theorem Placed.runReader (env : Environment) (h : Placed f acts []) :
    Placed (f.runReader env acts) (f.runReader env acts).reader.acts [] := by
  refine @runReader_induct (fun f => Placed f f.reader.acts []) (fun f acts => Placed f acts [])
    ?_ ?_ ?_ ?_ env acts f h
  · exact fun f kind pid r acts hP => hP.send
  · exact fun f r callback acts hP _ => hP.handOver
  · exact fun f hP => hP.congr rfl rfl rfl
  · exact fun f acts hP => hP.congr rfl rfl rfl

theorem Placed.stop (h : Placed f acts []) (e : Option InboundError) :
    Placed { f with reader := .stopped e } [] [] := by
  refine h.shrink rfl fun m _ => ?_
  change f.heldWith (fun m' => m' = m) + 0 + 0 + f.trace.countP (TraceEntry.handsOut m) ≤ _
  rw [places]
  omega

/-- A message that is received now has no place yet. -/
theorem Placed.newcomer (h : Placed f [] []) (packet : Publish) :
    Placed (f.receive packet) [] [f.nextReceived packet] := by
  have hplaces : ∀ m, (f.receive packet).places [] [f.nextReceived packet] m =
      f.places [] [] m + if f.nextReceived packet = m then 1 else 0 := by
    intro m
    have htrace : (f.receive packet).trace.countP (TraceEntry.handsOut m) =
        f.trace.countP (TraceEntry.handsOut m) := rfl
    have hheld : (f.receive packet).heldWith (fun m' => m' = m) =
        f.heldWith (fun m' => m' = m) := rfl
    rw [places, places, htrace, hheld, List.countP_singleton, List.countP_nil]
    simp only [decide_eq_true_eq, List.countP_nil]
    omega
  have hnew : ∀ m, Plain m → f.nextReceived packet = m → f.places [] [] m = 0 := by
    rintro m hm rfl
    by_contra hne
    exact absurd (h.known _ hm (Nat.pos_of_ne_zero hne)) (Nat.lt_irrefl _)
  refine ⟨fun m hm => ?_, fun m hm hpos => ?_⟩
  · rw [hplaces]
    split
    · next he => rw [hnew m hm he]
    · exact h.once m hm
  · rw [hplaces] at hpos
    change m.num < f.received + 1
    split at hpos
    · next he =>
      rw [← he]
      exact Nat.lt_succ_self _
    · exact Nat.lt_succ_of_lt (h.known m hm hpos)

theorem Placed.takesIn (h : Placed f acts [m]) (htakes : TakesIn f m f') : Placed f' acts [] := by
  have hsame : f'.trace = .buffered m :: f.trace ∧ f'.received = f.received := by
    cases htakes <;> exact ⟨rfl, rfl⟩
  refine h.shrink hsame.2 fun m' _ => Nat.le_of_eq ?_
  rw [places, places, htakes.heldWith, hsame.1, List.countP_cons, List.countP_singleton,
    List.countP_nil]
  simp only [TraceEntry.handsOut, Bool.false_eq_true, if_false]
  omega

theorem Placed.handles {env : Environment} (h : Placed f [] [m]) (hands : Handles f env m f' acts) :
    Placed f' acts [] := by
  have hmsg := f.message_selectRecipient env m
  have hsel : Placed f [] [(f.selectRecipient env m).message] := by
    rw [hmsg]
    exact h
  have hask : ∀ {pid : Int}, m.packet.qos = .exactlyOnce → m.packet.packetId = some pid →
      asksFor pid (f.selectRecipient env m).message = true := fun hqos hpid => by
    rw [hmsg]
    exact asksFor_iff.2 ⟨hqos, hpid⟩
  cases hands with
  | ignored => exact h.drop
  | takesIn htakes _ => exact h.takesIn htakes
  | qos0 _ => exact hsel.addDeliver none
  | qos1Auto pid _ => exact (hsel.addSend .puback pid _).addDeliver none
  | qos1Manual pid _ _ => exact hsel.addDeliver _
  | qos2Again pid flight _ _ _ => exact h.drop.addSend .pubrec pid flight.recipient
  | qos2Auto pid hqos hpid _ _ =>
    have hstart : Placed (f.startAuto pid (f.selectRecipient env m)) [] [] :=
      h.drop.quiet [.started _] rfl (by simp [TraceEntry.handsOut]) rfl rfl
    exact hstart.addSend .pubrec pid _
  | qos2Manual pid hqos hpid _ _ =>
    have hstart : Placed (f.startManual pid (f.selectRecipient env m)) [] [] :=
      h.drop.quiet [.started _] rfl (by simp [TraceEntry.handsOut]) rfl rfl
    exact hstart.deliverQos2 (hask hqos hpid) _

theorem Placed.receivePublish (env : Environment) (packet : Publish)
    (h : Placed f f.reader.acts []) :
    Placed (f.receivePublish env packet) (f.receivePublish env packet).reader.acts [] := by
  unfold InboundPublishFlow.receivePublish
  split
  · next hreader =>
    rw [hreader] at h
    have hrec := Placed.newcomer h packet
    unfold dispatch
    split
    · exact hrec.drop.stop _
    · next f' acts hhandle => exact (hrec.handles (handlePublish_cases hhandle)).runReader env
  all_goals exact h

/-- What a PUBREL delivers belongs to a QoS 2 exchange. -/
theorem Placed.receivePubrel (env : Environment) (pid : Int) (h : Placed f f.reader.acts [])
    (hexcl : Exclusive f f.reader.acts []) :
    Placed (f.receivePubrel env pid) (f.receivePubrel env pid).reader.acts [] := by
  unfold InboundPublishFlow.receivePubrel
  split
  · next hreader =>
    rw [hreader] at h
    have hlog : Placed (f.log (.pubrel pid)) [] [] := h.log fun _ => rfl
    unfold handlePubrel
    split
    · exact hlog.stop _
    · next flight hflight =>
      have hpop : Placed ((f.log (.pubrel pid)).popFlight pid) [] [] := hlog.congr rfl rfl rfl
      refine Placed.runReader env (Placed.addSend ?_ _ _ _)
      split
      · exact hpop
      · exact hpop.deliverQos2 (hexcl.flights pid flight hflight) none
  all_goals exact h

theorem Placed.ack (h : Placed f acts []) (k : Nat) : Placed (f.ack k) acts [] := by
  rcases f.ack_cases k with he | ⟨message, -, -, hcases⟩
  · rw [he]
    exact h
  have hbase : Placed (f.resolve k message) acts [] :=
    h.quiet [.acked message.received] rfl (by simp [TraceEntry.handsOut]) rfl rfl
  rcases hcases with ⟨he, -⟩ | ⟨pid, r, -, he⟩ | ⟨pid, r, -, he⟩ <;> rw [he]
  · exact hbase
  · exact hbase.log fun _ => rfl
  · exact hbase.quiet [.sent .pubrec pid r] rfl (by simp [TraceEntry.handsOut]) rfl rfl

theorem Placed.step {e : InboundEvent} (hidle : f.IdleRest)
    (hexcl : Exclusive f f.reader.acts []) (h : Placed f f.reader.acts [])
    (hok : f.undisturbed e) : Placed (f.step e) (f.step e).reader.acts [] := by
  have hwaiting : (e = .drain ∨ (∃ i, e = .expire i) ∨ ∃ i k, e = .cancelWaiter i k) →
      Placed (f.step e) (f.step e).reader.acts [] := fun he => by
    rcases f.waiting_cases he with heq | ⟨i, b, b', hb, hsame, heq⟩ <;> rw [heq]
    · exact h
    · exact h.move hb fun q => by rw [hsame.held]
  cases e with
  | publish packet env => exact h.receivePublish env packet
  | pubrel pid env => exact h.receivePubrel env pid hexcl
  | resumeReader env =>
    rw [InboundPublishFlow.step, resumeReader]
    split
    · next acts hreader =>
      rw [hreader] at h
      exact Placed.runReader env h
    all_goals exact h
  | interruptReader =>
    rw [InboundPublishFlow.step, interruptReader]
    split
    · exact h
    all_goals exact h.stop none
  | ack k =>
    have hreader : (f.ack k).reader = f.reader := by
      rcases f.ack_cases k with he | ⟨message, _, _, ⟨he, -⟩ | ⟨pid, r, -, he⟩ | ⟨pid, r, _, he⟩⟩ <;>
        rw [he] <;> rfl
    rw [InboundPublishFlow.step, hreader]
    exact h.ack k
  | get queue => exact h.congr rfl rfl rfl
  | subscriptions index => exact h.congr rfl rfl rfl
  | drain => exact hwaiting (Or.inl rfl)
  | expire i => exact hwaiting (Or.inr (Or.inl ⟨i, rfl⟩))
  | cancelWaiter i k => exact hwaiting (Or.inr (Or.inr ⟨i, k, rfl⟩))
  | acquireLock i env => exact (placed_drainRule i).acquireLock env h
  | resumeDelivery i env =>
    refine (placed_drainRule i).resumeDelivery env hidle h fun b d hb hd => ?_
    exact (hok.1 i b d hb hd).2 env rfl
  | interruptDelivery i =>
    rw [InboundPublishFlow.step, interruptDelivery_of_finish hok.1]
    exact h
  | clear =>
    rw [InboundPublishFlow.step, clear]
    split
    · exact h
    · exact h.congr rfl rfl rfl
    · next i _ =>
      split
      · exact h.congr rfl rfl rfl
      · next b hb =>
        have hmove : Placed ((f.logDropped b.publishes).setBuffer i b.cancelExpiration.empty)
            f.reader.acts [] := (h.logDropped b.publishes).move hb fun q => ?_
        · exact hmove.congr rfl rfl rfl
        · have hheld : b.cancelExpiration.held.countP q = b.held.countP q := by
            rw [(sameContents_cancelExpiration b).held]
          rw [← hheld]
          simp only [Buffered.held, Buffered.empty, List.countP_append, List.countP_nil]
          omega

theorem placed_fresh (bufferSize : Nat) (maxsize : Nat → Nat) (sessionPresent : Bool) :
    Placed (fresh bufferSize maxsize sessionPresent) [] [] :=
  ⟨fun _ _ => Nat.zero_le _, fun _ _ hpos => absurd hpos (Nat.lt_irrefl 0)⟩

/-- No message was delivered to a request and put into a queue. -/
def OneRecipient (f : InboundPublishFlow) : Prop :=
  ∀ m request queue, .requested request m ∈ f.trace → .enqueued queue m ∉ f.trace

/-- Two entries that deliver the message. -/
theorem two_le_countP {q : TraceEntry → Bool} {trace : List TraceEntry} {x y : TraceEntry}
    (hx : x ∈ trace) (hy : y ∈ trace) (hne : x ≠ y) (hqx : q x = true) (hqy : q y = true) :
    2 ≤ trace.countP q := by
  have hmem : y ∈ trace.erase x := (List.mem_erase_of_ne hne.symm).2 hy
  rw [(List.perm_cons_erase hx).countP_eq, (List.perm_cons_erase hmem).cons x |>.countP_eq,
    List.countP_cons_of_pos hqx, List.countP_cons_of_pos hqy]
  omega

/-- In runs in which no delivery is interrupted every message has one recipient. -/
theorem oneRecipient_of_reach {bufferSize : Nat} {maxsize : Nat → Nat} {sessionPresent : Bool}
    {f : InboundPublishFlow}
    (h : Reach step undisturbed (fresh bufferSize maxsize sessionPresent) f) : f.OneRecipient := by
  have hinv : f.IdleRest ∧ (f.Live fun _ => []) ∧ Exchanging f f.reader.acts [] ∧
      Placed f f.reader.acts [] := by
    refine Reach.invariant (I := fun f => f.IdleRest ∧ (f.Live fun _ => []) ∧
      Exchanging f f.reader.acts [] ∧ Placed f f.reader.acts []) h
      ⟨idleRest_fresh _ _ _, live_fresh _ _ _, exchanging_fresh _ _ _, placed_fresh _ _ _⟩
      fun f e hf hok => ?_
    obtain ⟨hidle, hlive, hex, hplaced⟩ := hf
    exact ⟨hidle.step e, hlive.step hidle hok.2, hex.step hidle hlive hok,
      hplaced.step hidle hex.exclusive hok⟩
  obtain ⟨-, -, hex, hplaced⟩ := hinv
  intro m request queue hreq henq
  by_cases hplain : Plain m
  · have honce := hplaced.once m hplain
    have htwo : 2 ≤ f.trace.countP (TraceEntry.handsOut m) :=
      two_le_countP hreq henq (by simp) (decide_eq_true rfl) (decide_eq_true rfl)
    rw [places] at honce
    omega
  · obtain ⟨pid, hask⟩ := not_forall.1 hplain
    have hkey : keyed pid m.epoch m = true := keyed_iff.2 ⟨Bool.eq_true_of_not_eq_false hask, rfl⟩
    have honce := hex.tokens.once pid m.epoch
    have htwo : 2 ≤ f.trace.countP (TraceEntry.delivers pid m.epoch) :=
      two_le_countP hreq henq (by simp) hkey hkey
    rw [goneTokens] at honce
    omega

end InboundPublishFlow

end Zmqtt
