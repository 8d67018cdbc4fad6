/-
  Never more acknowledgements than requests. In every run in which no delivery of a drain or of
  an expiration is interrupted in the write of its acknowledgement, the PUBACK packets sent for
  a packet id are at most as many as the QoS 1 PUBLISH packets received with it, the PUBREC
  packets at most as many as the QoS 2 ones, and the PUBCOMP packets at most as many as the
  PUBREL packets (`acknowledgements_bounded`).

  A received PUBLISH allows one acknowledgement (`Debt`). The permit is with the message while
  it is held or in hand, then with an await that writes the acknowledgement or delivers a
  callback, then with a message that the application has not acknowledged, and is used up by
  the write. PUBACK is counted for each message, as it always names the PUBLISH it answers;
  PUBREC for each id, as a repeated PUBLISH is answered in the name of the first.
-/
import Zmqtt.Inbound.Answers

namespace Zmqtt

/-- Messages of which each allows one acknowledgement, and the acknowledgements counted. -/
structure Debt where
  asks : Received → Bool
  pays : AckKind → Int → InboundRecipient → Bool
  qos1 : ∀ pid r, r.message.packet.qos = .atLeastOnce → pays .puback pid r = true →
    asks r.message = true
  qos2 : ∀ pid r m, m.packet.qos = .exactlyOnce → m.packet.packetId = some pid →
    pays .pubrec pid r = true → asks m = true
  pubcomp : ∀ pid r, pays .pubcomp pid r = false

/-- The PUBACK packets for one message. -/
def Debt.puback (m : Received) : Debt where
  asks m' := m' = m
  pays kind _ r := kind = .puback ∧ r.message = m
  qos1 pid r _ h := decide_eq_true (of_decide_eq_true h).2
  qos2 pid r m' _ _ h := by cases (of_decide_eq_true h).1
  pubcomp pid r := rfl

/-- The PUBREC packets for one id. -/
def Debt.pubrec (pid : Int) : Debt where
  asks := asksFor pid
  pays kind pid' _ := kind = .pubrec ∧ pid' = pid
  qos1 pid' r _ h := by cases (of_decide_eq_true h).1
  qos2 pid' r m hqos hpid h := by
    obtain rfl : pid' = pid := (of_decide_eq_true h).2
    exact asksFor_iff.2 ⟨hqos, hpid⟩
  pubcomp pid' r := rfl

section Weights

variable (debt : Debt)

def TraceEntry.pays : TraceEntry → Bool
  | sent kind pid r => debt.pays kind pid r
  | _ => false

def TraceEntry.asks : TraceEntry → Bool
  | publish m => debt.asks m
  | _ => false

/-- `ack()` will send the acknowledgement. -/
def AckCallback.pays : AckCallback → Bool
  | puback pid acked r => !acked && debt.pays .puback pid r
  | pubrec pid r => debt.pays .pubrec pid r

def Act.pays : Act → Bool
  | send kind pid r => debt.pays kind pid r
  | deliver _ callback => callback.any (AckCallback.pays debt)

def Message.pays (message : Message) : Bool :=
  !message.resolved && message.ackCallback.any (AckCallback.pays debt)

end Weights

namespace InboundPublishFlow

/-- The acknowledgements sent, to be sent, and still allowed. -/
def owes (f : InboundPublishFlow) (debt : Debt) (acts : List Act) (air : List Received) : Nat :=
  f.trace.countP (TraceEntry.pays debt) + acts.countP (Act.pays debt) +
    f.messages.countP (Message.pays debt) + f.heldWith debt.asks + air.countP debt.asks

/-- No more than there are requests. -/
def Covered (debt : Debt) (f : InboundPublishFlow) (acts : List Act) (air : List Received) : Prop :=
  f.owes debt acts air ≤ f.trace.countP (TraceEntry.asks debt)

variable {debt : Debt} {f f' : InboundPublishFlow} {acts acts' : List Act}
  {air air' : List Received} {m : Received} {r : InboundRecipient} {kind : AckKind} {pid : Int}

/-- Nothing becomes due that was not. -/
theorem Covered.shrink (h : Covered debt f acts air)
    (hasks : f.trace.countP (TraceEntry.asks debt) ≤ f'.trace.countP (TraceEntry.asks debt))
    (hle : f'.owes debt acts' air' ≤ f.owes debt acts air) : Covered debt f' acts' air' :=
  hle.trans (le_trans h hasks)

/-- Entries that neither ask nor pay. -/
theorem Covered.quiet (h : Covered debt f acts air) (entries : List TraceEntry)
    (htrace : f'.trace = entries ++ f.trace)
    (hquiet : ∀ entry ∈ entries, entry.pays debt = false) (hmessages : f'.messages = f.messages)
    (hbuffers : f'.buffers = f.buffers) : Covered debt f' acts air := by
  have hnone : entries.countP (TraceEntry.pays debt) = 0 :=
    List.countP_eq_zero.2 fun entry he ht => by rw [hquiet entry he] at ht; cases ht
  refine h.shrink ?_ (Nat.le_of_eq ?_)
  · rw [htrace, List.countP_append]
    exact Nat.le_add_left _ _
  · rw [owes, owes, heldWith, hbuffers, hmessages, htrace, List.countP_append, hnone, Nat.zero_add]
    rfl

theorem Covered.congr (h : Covered debt f acts air) (htrace : f'.trace = f.trace)
    (hmessages : f'.messages = f.messages) (hbuffers : f'.buffers = f.buffers) :
    Covered debt f' acts air :=
  h.quiet [] htrace (fun _ he => absurd he List.not_mem_nil) hmessages hbuffers

theorem Covered.log (h : Covered debt f acts air) {entry : TraceEntry}
    (hquiet : entry.pays debt = false) : Covered debt (f.log entry) acts air := by
  refine h.quiet [entry] rfl (fun e he => ?_) rfl rfl
  rw [List.mem_singleton.1 he]
  exact hquiet

/-- The write of an acknowledgement. -/
theorem Covered.send (h : Covered debt f (.send kind pid r :: acts) air) :
    Covered debt (f.log (.sent kind pid r)) acts air := by
  have hasks : (f.log (.sent kind pid r)).trace.countP (TraceEntry.asks debt) =
      f.trace.countP (TraceEntry.asks debt) := rfl
  refine h.shrink (Nat.le_of_eq hasks.symm) (Nat.le_of_eq ?_)
  have hsame : (TraceEntry.sent kind pid r).pays debt = (Act.send kind pid r).pays debt := rfl
  have htrace : (f.log (.sent kind pid r)).trace = .sent kind pid r :: f.trace := rfl
  have hmessages : (f.log (.sent kind pid r)).messages = f.messages := rfl
  have hheld : (f.log (.sent kind pid r)).heldWith debt.asks = f.heldWith debt.asks := rfl
  rw [owes, owes, hheld, hmessages, htrace, List.countP_cons, List.countP_cons, hsame]
  omega

/-- A delivery passes the callback to the message, or drops it. -/
theorem Covered.handOver {callback : Option AckCallback}
    (h : Covered debt f (.deliver r callback :: acts) air) :
    Covered debt (f.handOver r callback) acts air := by
  have hdrop : Covered debt f acts air := by
    refine h.shrink (Nat.le_refl _) ?_
    rw [owes, owes, List.countP_cons]
    omega
  rcases f.handOver_cases r callback with ⟨-, he⟩ | ⟨request, -, he⟩ | ⟨filter, entry, -, -, he⟩
  · rw [he]
    exact hdrop
  · rw [he]
    exact hdrop.log rfl
  · obtain ⟨message, hpays, he⟩ : ∃ message : Message,
        (message.pays debt = true → (Act.deliver r callback).pays debt = true) ∧
        f.handOver r callback = f.enqueue entry.queue message := by
      refine ⟨_, ?_, he⟩
      unfold Message.pays Act.pays
      cases entry.autoAck with
      | true => intro hno; cases hno
      | false => exact id
    have hheld : (f.enqueue entry.queue message).heldWith debt.asks = f.heldWith debt.asks := rfl
    have hentry : (TraceEntry.enqueued entry.queue message.received).pays debt = false := rfl
    rw [he]
    refine h.shrink (Nat.le_refl _) ?_
    rw [owes, owes, hheld, enqueue, List.countP_cons, List.countP_cons, List.countP_append,
      List.countP_singleton, hentry, if_neg Bool.false_ne_true]
    split
    · next hdue =>
      rw [if_pos (hpays hdue)]
      omega
    · omega

/-- Messages move between object `i` and the running task, or leave. -/
theorem Covered.move (h : Covered debt f acts air) {i : Nat} {b b' : Buffered}
    (hb : f.buffers[i]? = some b)
    (hcount : ∀ q, b'.held.countP q + air'.countP q ≤ b.held.countP q + air.countP q) :
    Covered debt (f.setBuffer i b') acts air' := by
  refine h.shrink (Nat.le_refl _) ?_
  have hset := heldWith_setBuffer hb b' debt.asks
  have hc := hcount debt.asks
  have htrace : (f.setBuffer i b').trace = f.trace := rfl
  have hmessages : (f.setBuffer i b').messages = f.messages := rfl
  rw [owes, owes, htrace, hmessages]
  omega

theorem Covered.perm (h : Covered debt f acts air) (hperm : air.Perm air') :
    Covered debt f acts air' := by
  refine h.shrink (Nat.le_refl _) (Nat.le_of_eq ?_)
  rw [owes, owes, hperm.countP_eq]

/-- The running task passes the permit of a message to the awaits that follow. -/
theorem Covered.take (h : Covered debt f acts (m :: air)) (new : List Act)
    (hpays : new.countP (Act.pays debt) ≤ if debt.asks m then 1 else 0) :
    Covered debt f (new ++ acts) air := by
  refine h.shrink (Nat.le_refl _) ?_
  rw [owes, owes, List.countP_append, List.countP_cons]
  omega

/-- Awaits that write nothing that is counted. -/
theorem Covered.addActs (h : Covered debt f acts air) (new : List Act)
    (hpays : new.countP (Act.pays debt) = 0) : Covered debt f (new ++ acts) air := by
  refine h.shrink (Nat.le_refl _) (Nat.le_of_eq ?_)
  rw [owes, owes, List.countP_append, hpays, Nat.zero_add]

theorem countP_singleton_le {act : Act} {allowed : Bool}
    (h : act.pays debt = true → allowed = true) :
    [act].countP (Act.pays debt) ≤ if allowed then 1 else 0 := by
  rw [List.countP_singleton]
  split
  · next hpays => rw [if_pos (h hpays)]
  · exact Nat.zero_le _

/-- The awaits of a QoS 1 delivery. -/
theorem countP_qos1 (debt : Debt) (pid : Int) (hqos : r.message.packet.qos = .atLeastOnce) :
    [Act.deliver r none, .send .puback pid r].countP (Act.pays debt) ≤
        (if debt.asks r.message then 1 else 0) ∧
      [Act.deliver r (some (.puback pid false r))].countP (Act.pays debt) ≤
        if debt.asks r.message then 1 else 0 := by
  refine ⟨?_, countP_singleton_le (debt.qos1 pid r hqos)⟩
  rw [List.countP_cons_of_neg (by simp [Act.pays])]
  exact countP_singleton_le (debt.qos1 pid r hqos)

/-! ## Drains -/

theorem Covered.handsOn (h : Covered debt f acts (r.message :: air)) (hands : HandsOn f r f') :
    Covered debt f' acts air := by
  cases hands with
  | qos0 _ => exact (h.take [.deliver r none] (Nat.zero_le _)).handOver
  | qos1Auto pid hqos =>
    have htake := h.take [.deliver r none, .send .puback pid r] (countP_qos1 debt pid hqos).1
    exact htake.handOver.send
  | qos1Manual pid hqos _ =>
    exact (h.take [.deliver r (some (.puback pid false r))] (countP_qos1 debt pid hqos).2).handOver
  | qos2Auto pid hqos hpid _ =>
    have htake := h.take [.send .pubrec pid r] (countP_singleton_le (debt.qos2 pid r _ hqos hpid))
    have hstart : Covered debt (f.startAuto pid r) (.send .pubrec pid r :: acts) air :=
      htake.quiet [.started r] rfl (by simp [TraceEntry.pays]) rfl rfl
    exact hstart.send
  | qos2Manual pid hqos hpid _ =>
    have htake := h.take [.deliver r (some (.pubrec pid r))]
      (countP_singleton_le (debt.qos2 pid r _ hqos hpid))
    have hstart : Covered debt (f.startManual pid r)
        (.deliver r (some (.pubrec pid r)) :: acts) air :=
      htake.quiet [.started r] rfl (by simp [TraceEntry.pays]) rfl rfl
    exact hstart.handOver

theorem Covered.logDropped (h : Covered debt f acts air) (ms : List Received) :
    Covered debt (f.logDropped ms) acts air := by
  refine h.quiet (ms.map TraceEntry.dropped) rfl (fun entry he => ?_) rfl rfl
  obtain ⟨m', -, rfl⟩ := List.mem_map.1 he
  rfl

theorem covered_drainRule (debt : Debt) (i : Nat) :
    DrainRule (fun f => Covered debt f f.reader.acts [])
      (fun f air => Covered debt f f.reader.acts air)
      (fun f air => Covered debt f f.reader.acts air)
      (fun f air _ => Covered debt f f.reader.acts air) i := by
  refine drainRule_of_move i ?_ ?_ ?_ ?_ ?_
  · exact fun f b b' air air' h hb hcount => h.move hb hcount
  · exact fun f a b hperm h => h.perm hperm
  · intro f f' r air h hands
    rw [hands.reader]
    exact h.handsOn hands
  · exact fun f replay h => h.congr rfl rfl rfl
  · exact fun f ms air h => h.logDropped ms

/-! ## The read loop -/

theorem Covered.runReader (env : Environment) (h : Covered debt f acts []) :
    Covered debt (f.runReader env acts) (f.runReader env acts).reader.acts [] := by
  refine @runReader_induct (fun f => Covered debt f f.reader.acts [])
    (fun f acts => Covered debt f acts []) ?_ ?_ ?_ ?_ env acts f h
  · exact fun f kind pid r acts hP => hP.send
  · exact fun f r callback acts hP _ => hP.handOver
  · exact fun f hP => hP.congr rfl rfl rfl
  · exact fun f acts hP => hP.congr rfl rfl rfl

theorem Covered.stop (h : Covered debt f acts []) (e : Option InboundError) :
    Covered debt { f with reader := .stopped e } [] [] := by
  refine h.shrink (Nat.le_refl _) ?_
  change f.trace.countP (TraceEntry.pays debt) + 0 + f.messages.countP (Message.pays debt) +
    f.heldWith debt.asks + 0 ≤ _
  rw [owes]
  omega

/-- A PUBLISH that is received brings its permit. -/
theorem Covered.receive (h : Covered debt f [] []) (packet : Publish) :
    Covered debt (f.receive packet) [] [f.nextReceived packet] := by
  have howes : (f.receive packet).owes debt [] [f.nextReceived packet] =
      f.owes debt [] [] + if debt.asks (f.nextReceived packet) then 1 else 0 := by
    have hheld : (f.receive packet).heldWith debt.asks = f.heldWith debt.asks := rfl
    have htrace : (f.receive packet).trace.countP (TraceEntry.pays debt) =
        f.trace.countP (TraceEntry.pays debt) := rfl
    have hmessages : (f.receive packet).messages = f.messages := rfl
    rw [owes, owes, hheld, htrace, hmessages, List.countP_singleton, List.countP_nil,
      List.countP_nil]
    omega
  have hasks : (f.receive packet).trace.countP (TraceEntry.asks debt) =
      f.trace.countP (TraceEntry.asks debt) +
        if debt.asks (f.nextReceived packet) then 1 else 0 := List.countP_cons
  rw [Covered, howes, hasks]
  exact Nat.add_le_add_right h _

theorem Covered.takesIn (h : Covered debt f acts [m]) (htakes : TakesIn f m f') :
    Covered debt f' acts [] := by
  have hsame : f'.trace = .buffered m :: f.trace ∧ f'.messages = f.messages := by
    cases htakes <;> exact ⟨rfl, rfl⟩
  have hpays : f'.trace.countP (TraceEntry.pays debt) = f.trace.countP (TraceEntry.pays debt) := by
    rw [hsame.1]
    rfl
  refine h.shrink ?_ (Nat.le_of_eq ?_)
  · rw [hsame.1]
    exact Nat.le_refl _
  · rw [owes, owes, htakes.heldWith, hpays, hsame.2, List.countP_singleton, List.countP_nil]
    omega

theorem Covered.handles {env : Environment} (h : Covered debt f [] [m])
    (hands : Handles f env m f' acts) : Covered debt f' acts [] := by
  have hmsg := f.message_selectRecipient env m
  have hsel : Covered debt f [] [(f.selectRecipient env m).message] := by
    rw [hmsg]
    exact h
  have hqos1 : m.packet.qos = .atLeastOnce →
      (f.selectRecipient env m).message.packet.qos = .atLeastOnce := fun hqos => by
    rw [hmsg]
    exact hqos
  cases hands with
  | ignored => exact h.take [] (Nat.zero_le _)
  | takesIn htakes _ => exact h.takesIn htakes
  | qos0 _ => exact h.take [.deliver (f.selectRecipient env m) none] (Nat.zero_le _)
  | qos1Auto pid hqos =>
    exact hsel.take [.deliver _ none, .send .puback pid _] (countP_qos1 debt pid (hqos1 hqos)).1
  | qos1Manual pid hqos _ =>
    exact hsel.take [.deliver _ (some (.puback pid false _))] (countP_qos1 debt pid (hqos1 hqos)).2
  | qos2Again pid flight hqos hpid _ =>
    exact h.take [.send .pubrec pid flight.recipient]
      (countP_singleton_le (debt.qos2 pid flight.recipient m hqos hpid))
  | qos2Auto pid hqos hpid _ _ =>
    have htake := h.take [.send .pubrec pid (f.selectRecipient env m)]
      (countP_singleton_le (debt.qos2 pid _ m hqos hpid))
    exact htake.quiet [.started _] rfl (by simp [TraceEntry.pays]) rfl rfl
  | qos2Manual pid hqos hpid _ _ =>
    have htake := h.take [.deliver (f.selectRecipient env m)
      (some (.pubrec pid (f.selectRecipient env m)))]
      (countP_singleton_le (debt.qos2 pid _ m hqos hpid))
    exact htake.quiet [.started _] rfl (by simp [TraceEntry.pays]) rfl rfl

theorem Covered.receivePublish (env : Environment) (packet : Publish)
    (h : Covered debt f f.reader.acts []) :
    Covered debt (f.receivePublish env packet) (f.receivePublish env packet).reader.acts [] := by
  unfold InboundPublishFlow.receivePublish
  split
  · next hreader =>
    rw [hreader] at h
    have hrec := Covered.receive h packet
    unfold dispatch
    split
    · exact (hrec.take [] (Nat.zero_le _)).stop _
    · next f' acts hhandle => exact (hrec.handles (handlePublish_cases hhandle)).runReader env
  all_goals exact h

theorem Covered.receivePubrel (env : Environment) (pid : Int)
    (h : Covered debt f f.reader.acts []) :
    Covered debt (f.receivePubrel env pid) (f.receivePubrel env pid).reader.acts [] := by
  unfold InboundPublishFlow.receivePubrel
  split
  · next hreader =>
    rw [hreader] at h
    have hlog : Covered debt (f.log (.pubrel pid)) [] [] := h.log rfl
    unfold handlePubrel
    split
    · exact hlog.stop _
    · next flight _ =>
      have hpop : Covered debt ((f.log (.pubrel pid)).popFlight pid) [] [] := hlog.congr rfl rfl rfl
      refine Covered.runReader env ?_
      split
      · refine hpop.addActs [.send .pubcomp pid flight.recipient] ?_
        simp [Act.pays, debt.pubcomp]
      · refine hpop.addActs [.send .pubcomp pid flight.recipient, .deliver flight.recipient none] ?_
        simp [Act.pays, debt.pubcomp]
  all_goals exact h

/-! ## `Message.ack` -/

/-- A message that is resolved gives its permit away. -/
theorem owes_resolve (debt : Debt) (acts : List Act) (air : List Received) {k : Nat}
    {message : Message} (hmsg : f.messages[k]? = some message) :
    (f.resolve k message).owes debt acts air + (if message.pays debt then 1 else 0) =
      f.owes debt acts air := by
  have hset := countP_set_of_get (Message.pays debt)
    { message with resolved := true, ackCallback := markAcked message.ackCallback } hmsg
  have hdone : Message.pays debt
      { message with resolved := true, ackCallback := markAcked message.ackCallback } = false := rfl
  have hheld : (f.resolve k message).heldWith debt.asks = f.heldWith debt.asks := rfl
  have htrace : (f.resolve k message).trace.countP (TraceEntry.pays debt) =
      f.trace.countP (TraceEntry.pays debt) := rfl
  rw [hdone] at hset
  rw [owes, owes, hheld, htrace]
  have hmessages : (f.resolve k message).messages.countP (Message.pays debt) +
      (if message.pays debt then 1 else 0) = f.messages.countP (Message.pays debt) := hset
  omega

theorem Covered.ack (h : Covered debt f acts air) (k : Nat) : Covered debt (f.ack k) acts air := by
  rcases f.ack_cases k with he | ⟨message, hmsg, hres, hcases⟩
  · rw [he]
    exact h
  have hresolve := owes_resolve debt acts air hmsg
  have hbase : Covered debt (f.resolve k message) acts air :=
    h.shrink (Nat.le_refl _) (by omega)
  -- the write takes the place of the callback
  have hwrite : ∀ (g : InboundPublishFlow) (kind : AckKind) (pid : Int) (r : InboundRecipient),
      g.trace = .sent kind pid r :: (f.resolve k message).trace →
      g.messages = (f.resolve k message).messages → g.buffers = (f.resolve k message).buffers →
      (debt.pays kind pid r = true → message.pays debt = true) → Covered debt g acts air := by
    intro g kind pid r htrace hmessages hbuffers hpays
    have hasks : g.trace.countP (TraceEntry.asks debt) = f.trace.countP (TraceEntry.asks debt) := by
      rw [htrace]
      rfl
    have howes : g.owes debt acts air =
        (f.resolve k message).owes debt acts air + if debt.pays kind pid r then 1 else 0 := by
      have hheld : g.heldWith debt.asks = (f.resolve k message).heldWith debt.asks := by
        rw [heldWith, hbuffers]
        rfl
      have hcons : (TraceEntry.sent kind pid r).pays debt = debt.pays kind pid r := rfl
      rw [owes, owes, hheld, htrace, hmessages, List.countP_cons, hcons]
      omega
    refine h.shrink (Nat.le_of_eq hasks.symm) ?_
    rw [howes]
    split
    · next hdue =>
      rw [if_pos (hpays hdue)] at hresolve
      omega
    · omega
  rcases hcases with ⟨he, -⟩ | ⟨pid, r, hc, he⟩ | ⟨pid, r, hc, he⟩ <;> rw [he]
  · exact hbase
  · refine hwrite _ .puback pid r rfl rfl rfl fun hdue => ?_
    simp [Message.pays, hres, hc, AckCallback.pays, hdue]
  · refine hwrite _ .pubrec pid r rfl rfl rfl fun hdue => ?_
    simp [Message.pays, hres, hc, AckCallback.pays, hdue]

/-! ## Steps -/

theorem Covered.step {e : InboundEvent} (hidle : f.IdleRest) (h : Covered debt f f.reader.acts [])
    (hok : f.deliveriesFinish e) : Covered debt (f.step e) (f.step e).reader.acts [] := by
  have hwaiting : (e = .drain ∨ (∃ i, e = .expire i) ∨ ∃ i k, e = .cancelWaiter i k) →
      Covered debt (f.step e) (f.step e).reader.acts [] := fun he => by
    rcases f.waiting_cases he with heq | ⟨i, b, b', hb, hsame, heq⟩ <;> rw [heq]
    · exact h
    · exact h.move hb fun q => by rw [hsame.held]
  cases e with
  | publish packet env => exact h.receivePublish env packet
  | pubrel pid env => exact h.receivePubrel env pid
  | resumeReader env =>
    rw [InboundPublishFlow.step, resumeReader]
    split
    · next acts hreader =>
      rw [hreader] at h
      exact Covered.runReader env h
    all_goals exact h
  | interruptReader =>
    rw [InboundPublishFlow.step, interruptReader]
    split
    · exact h
    all_goals exact h.stop none
  | ack k =>
    have hreader : (f.ack k).reader = f.reader := by
      rcases f.ack_cases k with
        he | ⟨message, _, _, ⟨he, -⟩ | ⟨pid, r, -, he⟩ | ⟨pid, r, _, he⟩⟩ <;> rw [he] <;> rfl
    rw [InboundPublishFlow.step, hreader]
    exact h.ack k
  | get queue => exact h.congr rfl rfl rfl
  | subscriptions index => exact h.congr rfl rfl rfl
  | drain => exact hwaiting (Or.inl rfl)
  | expire i => exact hwaiting (Or.inr (Or.inl ⟨i, rfl⟩))
  | cancelWaiter i k => exact hwaiting (Or.inr (Or.inr ⟨i, k, rfl⟩))
  | acquireLock i env => exact (covered_drainRule debt i).acquireLock env h
  | resumeDelivery i env =>
    refine (covered_drainRule debt i).resumeDelivery env hidle h fun b d hb hd => ?_
    exact (hok i b d hb hd).2 env rfl
  | interruptDelivery i =>
    rw [InboundPublishFlow.step, interruptDelivery_of_finish hok]
    exact h
  | clear =>
    rw [InboundPublishFlow.step, clear]
    split
    · exact h
    · exact h.congr rfl rfl rfl
    · next i _ =>
      split
      · exact h.congr rfl rfl rfl
      · next b hb =>
        have hmove : Covered debt ((f.logDropped b.publishes).setBuffer i b.cancelExpiration.empty)
            f.reader.acts [] := (h.logDropped b.publishes).move hb fun q => ?_
        · exact hmove.congr rfl rfl rfl
        · have hheld : b.cancelExpiration.held.countP q = b.held.countP q := by
            rw [(sameContents_cancelExpiration b).held]
          rw [← hheld]
          simp only [Buffered.held, Buffered.empty, List.countP_append, List.countP_nil]
          omega

/-! ## Runs -/

/-- In runs in which no delivery is interrupted no acknowledgement is sent twice. -/
theorem covered_of_reach {bufferSize : Nat} {maxsize : Nat → Nat} {sessionPresent : Bool}
    (h : Reach step deliveriesFinish (fresh bufferSize maxsize sessionPresent) f) (debt : Debt) :
    f.trace.countP (TraceEntry.pays debt) ≤ f.trace.countP (TraceEntry.asks debt) := by
  have hinv : f.IdleRest ∧ Covered debt f f.reader.acts [] := by
    refine Reach.invariant (I := fun f => f.IdleRest ∧ Covered debt f f.reader.acts []) h
      ⟨idleRest_fresh _ _ _, Nat.le_refl _⟩ fun f e hf hok => ?_
    exact ⟨hf.1.step e, hf.2.step hf.1 hok⟩
  have hcovered := hinv.2
  rw [Covered, owes] at hcovered
  omega

end InboundPublishFlow

/-- An acknowledgement of this kind with this packet id. -/
def TraceEntry.acknowledges (kind : AckKind) (pid : Int) : TraceEntry → Bool
  | sent kind' pid' _ => kind' = kind ∧ pid' = pid
  | _ => false

/-- A received PUBLISH of this QoS with this packet id. -/
def TraceEntry.requests (qos : QoS) (pid : Int) : TraceEntry → Bool
  | publish m => m.packet.qos = qos ∧ m.packet.packetId = some pid
  | _ => false

section History

variable {Sends : Publish → Prop} {trace : List TraceEntry}

/-- The message that a PUBACK of the id answers. -/
def TraceEntry.answered (pid : Int) : TraceEntry → Option Received
  | sent .puback pid' r => if pid' = pid then some r.message else none
  | _ => none

/-- The QoS 1 message of the id that was received. -/
def TraceEntry.asking (pid : Int) : TraceEntry → Option Received
  | publish m =>
      if m.packet.qos = .atLeastOnce ∧ m.packet.packetId = some pid then some m else none
  | _ => none

theorem isSome_answered (pid : Int) (entry : TraceEntry) :
    (entry.answered pid).isSome = entry.acknowledges .puback pid := by
  cases entry with
  | sent kind pid' r =>
    cases kind with
    | puback => by_cases he : pid' = pid <;> simp [TraceEntry.answered, TraceEntry.acknowledges, he]
    | pubrec => rfl
    | pubcomp => rfl
  | _ => rfl

theorem isSome_asking (pid : Int) (entry : TraceEntry) :
    (entry.asking pid).isSome = entry.requests .atLeastOnce pid := by
  cases entry with
  | publish m =>
    by_cases he : m.packet.qos = .atLeastOnce ∧ m.packet.packetId = some pid <;>
      simp [TraceEntry.asking, TraceEntry.requests, he]
  | _ => rfl

/-- PUBACK answers a QoS 1 PUBLISH of its id, so that counting it for each message counts it
    for each id. -/
theorem pubacks_le (h : Justified Sends trace) (pid : Int)
    (honce : ∀ m, trace.countP (TraceEntry.pays (Debt.puback m)) ≤
      trace.countP (TraceEntry.asks (Debt.puback m))) :
    trace.countP (TraceEntry.acknowledges .puback pid) ≤
      trace.countP (TraceEntry.requests .atLeastOnce pid) := by
  have hanswered : (trace.filterMap (TraceEntry.answered pid)).length =
      trace.countP (TraceEntry.acknowledges .puback pid) := by
    simp only [List.length_filterMap_eq_countP, isSome_answered]
  have hasking : (trace.filterMap (TraceEntry.asking pid)).length =
      trace.countP (TraceEntry.requests .atLeastOnce pid) := by
    simp only [List.length_filterMap_eq_countP, isSome_asking]
  rw [← hanswered, ← hasking]
  refine List.Subperm.length_le (List.subperm_ext_iff.2 fun m hm => ?_)
  obtain ⟨entry, hentry, hmessage⟩ := List.mem_filterMap.1 hm
  -- the message is one of the requests
  have hrequest : m.packet.qos = .atLeastOnce ∧ m.packet.packetId = some pid := by
    unfold TraceEntry.answered at hmessage
    split at hmessage
    · next pid' r =>
      split at hmessage
      · next he =>
        cases hmessage
        obtain ⟨later, before, rfl⟩ := List.append_of_mem hentry
        have hbacks : Requested before .atLeastOnce pid' r.message := h.split
        exact ⟨hbacks.2.1, he ▸ hbacks.2.2⟩
      · cases hmessage
    · cases hmessage
  rw [List.count_filterMap, List.count_filterMap]
  calc trace.countP (fun entry => entry.answered pid == some m)
      ≤ trace.countP (TraceEntry.pays (Debt.puback m)) := by
        refine List.countP_mono_left fun entry _ he => ?_
        rw [beq_iff_eq] at he
        unfold TraceEntry.answered at he
        split at he
        · next pid' r _ =>
          split at he
          · cases he
            exact decide_eq_true ⟨rfl, rfl⟩
          · cases he
        · cases he
    _ ≤ trace.countP (TraceEntry.asks (Debt.puback m)) := honce m
    _ ≤ trace.countP (fun entry => entry.asking pid == some m) := by
        refine List.countP_mono_left fun entry _ he => ?_
        rw [beq_iff_eq]
        unfold TraceEntry.asks at he
        split at he
        · next m' _ =>
          obtain rfl : m' = m := of_decide_eq_true he
          exact if_pos hrequest
        · cases he

/-- A PUBCOMP directly follows a PUBREL of its id, and no two follow the same. -/
theorem pubcomps_le (h : Justified Sends trace) (pid : Int) :
    trace.countP (TraceEntry.acknowledges .pubcomp pid) +
      (if trace.head? = some (.pubrel pid) then 1 else 0) ≤ trace.count (.pubrel pid) := by
  induction trace with
  | nil => exact Nat.le_refl _
  | cons entry before ih =>
    have hbefore := ih h.2
    rw [List.countP_cons, List.count_cons, List.head?_cons]
    by_cases hcomp : entry.acknowledges .pubcomp pid = true
    · -- the entry before it is the PUBREL
      unfold TraceEntry.acknowledges at hcomp
      split at hcomp
      · next kind pid' r =>
        obtain ⟨rfl, rfl⟩ := of_decide_eq_true hcomp
        obtain ⟨older, rfl, -⟩ : ∃ older, before = .pubrel pid' :: older ∧ _ := h.1
        rw [List.head?_cons, if_pos rfl] at hbefore
        simp [TraceEntry.acknowledges] at hbefore ⊢
        omega
      · cases hcomp
    · rw [if_neg hcomp, Nat.add_zero]
      by_cases hrel : entry = .pubrel pid
      · rw [if_pos (by rw [hrel]), if_pos (by rw [hrel]; exact beq_self_eq_true _)]
        have hle : before.countP (TraceEntry.acknowledges .pubcomp pid) ≤
            before.count (.pubrel pid) := le_trans (Nat.le_add_right _ _) hbefore
        omega
      · rw [if_neg (by simpa using hrel)]
        have hle : before.countP (TraceEntry.acknowledges .pubcomp pid) ≤
            before.count (.pubrel pid) := le_trans (Nat.le_add_right _ _) hbefore
        omega

end History

namespace InboundPublishFlow

variable {f : InboundPublishFlow}

/-- **Never more acknowledgements than requests.** At every moment of a run in which no delivery
    is interrupted in the write of its acknowledgement, over any duplicates, drains, losses and
    calls of `ack()`, the broker got for a packet id no more PUBACK packets than it sent QoS 1
    PUBLISH packets with it, no more PUBREC packets than QoS 2 PUBLISH packets, and no more
    PUBCOMP packets than PUBREL packets. -/
theorem acknowledgements_bounded (bufferSize : Nat) (maxsize : Nat → Nat) (sessionPresent : Bool)
    (f : InboundPublishFlow)
    (h : Reach step deliveriesFinish (fresh bufferSize maxsize sessionPresent) f) (pid : Int) :
    f.trace.countP (TraceEntry.acknowledges .puback pid) ≤
        f.trace.countP (TraceEntry.requests .atLeastOnce pid) ∧
      f.trace.countP (TraceEntry.acknowledges .pubrec pid) ≤
        f.trace.countP (TraceEntry.requests .exactlyOnce pid) ∧
      f.trace.countP (TraceEntry.acknowledges .pubcomp pid) ≤ f.trace.count (.pubrel pid) := by
  have hhears : Reach step (Hears fun _ => True) (fresh bufferSize maxsize sessionPresent) f :=
    h.mono fun _ _ _ _ _ _ => trivial
  have hjust := (answering_of_reach hhears).trace
  refine ⟨pubacks_le hjust pid fun m => covered_of_reach h (Debt.puback m), ?_,
    le_trans (Nat.le_add_right _ _) (pubcomps_le hjust pid)⟩
  have hpubrec := covered_of_reach h (Debt.pubrec pid)
  have hpays : TraceEntry.pays (Debt.pubrec pid) = TraceEntry.acknowledges .pubrec pid := by
    funext entry
    cases entry <;> rfl
  have hasks : TraceEntry.asks (Debt.pubrec pid) = TraceEntry.requests .exactlyOnce pid := by
    funext entry
    cases entry <;> rfl
  rw [hpays, hasks] at hpubrec
  exact hpubrec

/-- Four QoS 2 PUBLISH packets of an id, of which the second is ignored and the last not yet
    acknowledged by the application, and one PUBREL. -/
theorem acknowledgements_bounded_manualRun :
    (manualRun.foldl step (fresh 10 (fun _ => 0) false)).trace.countP
      (TraceEntry.acknowledges .pubrec 1) = 2 ∧
    ∀ pid, (manualRun.foldl step (fresh 10 (fun _ => 0) false)).trace.countP
        (TraceEntry.acknowledges .puback pid) ≤
        (manualRun.foldl step (fresh 10 (fun _ => 0) false)).trace.countP
          (TraceEntry.requests .atLeastOnce pid) ∧
      (manualRun.foldl step (fresh 10 (fun _ => 0) false)).trace.countP
        (TraceEntry.acknowledges .pubrec pid) ≤
        (manualRun.foldl step (fresh 10 (fun _ => 0) false)).trace.countP
          (TraceEntry.requests .exactlyOnce pid) ∧
      (manualRun.foldl step (fresh 10 (fun _ => 0) false)).trace.countP
        (TraceEntry.acknowledges .pubcomp pid) ≤
        (manualRun.foldl step (fresh 10 (fun _ => 0) false)).trace.count (.pubrel pid) := by
  refine ⟨by decide +kernel,
    acknowledgements_bounded 10 (fun _ => 0) false _ (Reach.foldl ?_)⟩
  refine ⟨?_, ?_, ?_, ?_, ?_, ?_, ?_, ?_, trivial⟩ <;>
    exact fun i b d _ _ => ⟨by simp, fun env he => by cases he⟩

end InboundPublishFlow

end Zmqtt
