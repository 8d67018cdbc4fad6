/-
  What the steps of the inbound flow can do. Every invariant of the flow is derived from
  these lemmas: `handlePublish_cases` for a PUBLISH, `runActs_induct` for a handler between
  two suspensions, `deliverReplay_cases` for one message of a drain, and
  `deliverPending_induct` for a drain between two suspensions.
-/
import Zmqtt.Inbound.Drain

namespace Zmqtt

namespace InboundPublishFlow

/-! ## Recipients -/

@[simp] theorem message_selectRecipient (f : InboundPublishFlow) (env : Environment)
    (m : Received) : (f.selectRecipient env m).message = m := by
  unfold selectRecipient
  split <;> rfl

/-- A selected recipient for which the drain need not wait gets the message at once. -/
theorem putWaits_of_mustWait {f : InboundPublishFlow} {r : InboundRecipient}
    (h : f.mustWait r = false) : f.putWaits r = false := by
  rw [mustWait, Bool.or_eq_false_iff] at h
  unfold putWaits
  split
  · next hsub =>
    rw [hsub] at h
    exact h.2
  · rfl

theorem not_isNobody_of_mustWait {f : InboundPublishFlow} {r : InboundRecipient}
    (h : f.mustWait r = false) : r.isNobody = false :=
  (Bool.or_eq_false_iff.1 h).1

/-! ## Buffering -/

theorem accept_empty {bufferSize : Nat} {m : Received} {r : InboundRecipient}
    (h : r.isNobody = true) :
    Buffered.accept {} bufferSize m r = (Buffered.append {} m, .buffered) := by
  rw [InboundRecipient.isNobody, Bool.and_eq_true, Option.isNone_iff_eq_none,
    Option.isNone_iff_eq_none] at h
  simp [Buffered.accept, h.1, h.2]

/-- The message was put into the replay buffer. -/
inductive TakesIn (f : InboundPublishFlow) (m : Received) : InboundPublishFlow → Prop
  | new (hreplay : f.replay = .idle) :
      TakesIn f m
        { f with
          replay := .buffered f.buffers.length
          buffers := f.buffers ++ [Buffered.append {} m]
          trace := .buffered m :: f.trace }
  | old (i : Nat) (b : Buffered) (hreplay : f.replay = .buffered i)
      (hb : f.buffers[i]? = some b) (hpid : ∀ pid, m.packet.packetId = some pid → pid ∉ b.packetIds)
      (hsize : f.bufferSize ≠ 0 → b.messageCount < f.bufferSize) :
      TakesIn f m ((f.setBuffer i (b.append m)).log (.buffered m))

theorem selectRecipientOrBuffer_cases (f : InboundPublishFlow) (env : Environment)
    (m : Received) :
    f.selectRecipientOrBuffer env m = (f, .recipient (f.selectRecipient env m)) ∨
      (∃ f', f.selectRecipientOrBuffer env m = (f', .buffered) ∧ TakesIn f m f') ∨
      f.selectRecipientOrBuffer env m = (f, .known) ∨
      f.selectRecipientOrBuffer env m = (f, .overflow) := by
  unfold selectRecipientOrBuffer
  dsimp only
  split
  · exact Or.inl rfl
  · next hreplay =>
    split
    · next hnobody =>
      rw [accept_empty hnobody]
      exact Or.inr (Or.inl ⟨_, rfl, TakesIn.new hreplay⟩)
    · exact Or.inl rfl
  · next i hreplay =>
    split
    · exact Or.inl rfl
    · next b hb =>
      unfold Buffered.accept
      split_ifs with hreq hsub hknown hfull
      · exact Or.inl rfl
      · exact Or.inl rfl
      · exact Or.inr (Or.inr (Or.inl rfl))
      · exact Or.inr (Or.inr (Or.inr rfl))
      · refine Or.inr (Or.inl ⟨_, rfl, TakesIn.old i b hreplay hb ?_ ?_⟩)
        · intro pid hpid hin
          exact hknown ⟨pid, hpid, hin⟩
        · intro hsize
          by_contra hge
          exact hfull ⟨hsize, not_lt.1 hge⟩

/-! ## PUBLISH -/

/-- No exchange of the id is known to the flow. -/
def IdFree (f : InboundPublishFlow) (pid : Int) : Prop :=
  f.inflightQos2In.get? pid = none ∧ pid ∉ f.pendingAckQos2In ∧ ¬ f.replayContains pid

/-- The flow after an automatically acknowledged QoS 2 exchange was started. -/
def startAuto (f : InboundPublishFlow) (pid : Int) (r : InboundRecipient) : InboundPublishFlow :=
  { f.log (.started r) with
    inflightQos2In := f.inflightQos2In.set pid { recipient := r } }

/-- The flow after a manually acknowledged QoS 2 exchange was started. -/
def startManual (f : InboundPublishFlow) (pid : Int) (r : InboundRecipient) :
    InboundPublishFlow :=
  { f.log (.started r) with pendingAckQos2In := insert pid f.pendingAckQos2In }

/-- What `handle_publish` does before its first await, and the awaits that follow. -/
inductive Handles (f : InboundPublishFlow) (env : Environment) (m : Received) :
    InboundPublishFlow → List Act → Prop
  | ignored : Handles f env m f []
  | takesIn {f' : InboundPublishFlow} (htakes : TakesIn f m f')
      (hfree : m.packet.qos = .exactlyOnce → ∃ pid, m.packet.packetId = some pid ∧ f.IdFree pid) :
      Handles f env m f' []
  | qos0 (hqos : m.packet.qos = .atMostOnce) :
      Handles f env m f [.deliver (f.selectRecipient env m) none]
  | qos1Auto (pid : Int) (hqos : m.packet.qos = .atLeastOnce) :
      Handles f env m f [.deliver (f.selectRecipient env m) none,
        .send .puback pid (f.selectRecipient env m)]
  | qos1Manual (pid : Int) (hqos : m.packet.qos = .atLeastOnce)
      (hmanual : (f.selectRecipient env m).autoAck = false) :
      Handles f env m f [.deliver (f.selectRecipient env m)
        (some (.puback pid false (f.selectRecipient env m)))]
  | qos2Again (pid : Int) (flight : InboundQoS2Flight) (hqos : m.packet.qos = .exactlyOnce)
      (hpid : m.packet.packetId = some pid) (hflight : f.inflightQos2In.get? pid = some flight) :
      Handles f env m f [.send .pubrec pid flight.recipient]
  | qos2Auto (pid : Int) (hqos : m.packet.qos = .exactlyOnce)
      (hpid : m.packet.packetId = some pid) (hfree : f.IdFree pid)
      (hauto : (f.selectRecipient env m).autoAck = true) :
      Handles f env m (f.startAuto pid (f.selectRecipient env m))
        [.send .pubrec pid (f.selectRecipient env m)]
  | qos2Manual (pid : Int) (hqos : m.packet.qos = .exactlyOnce)
      (hpid : m.packet.packetId = some pid) (hfree : f.IdFree pid)
      (hmanual : (f.selectRecipient env m).autoAck = false) :
      Handles f env m (f.startManual pid (f.selectRecipient env m))
        [.deliver (f.selectRecipient env m) (some (.pubrec pid (f.selectRecipient env m)))]

theorem handleQos1Publish_cases {f f' : InboundPublishFlow} {env : Environment} {m : Received}
    {acts : List Act} (hqos : m.packet.qos = .atLeastOnce)
    (h : f.handleQos1Publish env m = .ok (f', acts)) : Handles f env m f' acts := by
  have hnot : ¬ m.packet.qos = .exactlyOnce := by rw [hqos]; simp
  unfold handleQos1Publish at h
  split at h
  · cases h
  · next pid hpid =>
    split at h
    · cases h; exact Handles.ignored
    · rcases f.selectRecipientOrBuffer_cases env m with hs | ⟨f₁, hs, htakes⟩ | hs | hs <;>
        rw [hs] at h <;> dsimp only at h
      · unfold deliverQos1Publish at h
        rw [hpid] at h
        dsimp only at h
        split at h
        · cases h; exact Handles.qos1Auto pid hqos
        · next hmanual =>
          cases h
          exact Handles.qos1Manual pid hqos (Bool.not_eq_true _ ▸ hmanual)
      · cases h; exact Handles.takesIn htakes fun he => absurd he hnot
      · cases h; exact Handles.ignored
      · cases h

theorem handleQos2Publish_cases {f f' : InboundPublishFlow} {env : Environment} {m : Received}
    {acts : List Act} (hqos : m.packet.qos = .exactlyOnce)
    (h : f.handleQos2Publish env m = .ok (f', acts)) : Handles f env m f' acts := by
  unfold handleQos2Publish at h
  split at h
  · cases h
  · next pid hpid =>
    split at h
    · next flight hflight => cases h; exact Handles.qos2Again pid flight hqos hpid hflight
    · next hnone =>
      split at h
      · cases h; exact Handles.ignored
      · next hbusy =>
        rw [not_or] at hbusy
        have hfree : f.IdFree pid := ⟨hnone, hbusy.1, hbusy.2⟩
        rcases f.selectRecipientOrBuffer_cases env m with hs | ⟨f₁, hs, htakes⟩ | hs | hs <;>
          rw [hs] at h <;> dsimp only at h
        · unfold acceptQos2Publish at h
          rw [hpid] at h
          dsimp only at h
          split at h
          · next hauto => cases h; exact Handles.qos2Auto pid hqos hpid hfree hauto
          · next hmanual =>
            cases h
            exact Handles.qos2Manual pid hqos hpid hfree (Bool.not_eq_true _ ▸ hmanual)
        · cases h; exact Handles.takesIn htakes fun _ => ⟨pid, hpid, hfree⟩
        · cases h; exact Handles.ignored
        · cases h

theorem handlePublish_cases {f f' : InboundPublishFlow} {env : Environment} {m : Received}
    {acts : List Act} (h : f.handlePublish env m = .ok (f', acts)) :
    Handles f env m f' acts := by
  unfold handlePublish at h
  split at h
  · next hqos =>
    have hnot : ¬ m.packet.qos = .exactlyOnce := by rw [hqos]; simp
    rcases f.selectRecipientOrBuffer_cases env m with hs | ⟨f₁, hs, htakes⟩ | hs | hs <;>
      rw [hs] at h <;> dsimp only at h
    · cases h; exact Handles.qos0 hqos
    · cases h; exact Handles.takesIn htakes fun he => absurd he hnot
    · cases h; exact Handles.ignored
    · cases h
  · next hqos => exact handleQos1Publish_cases hqos h
  · next hqos => exact handleQos2Publish_cases hqos h

theorem Handles.received {f f' : InboundPublishFlow} {env : Environment} {m : Received}
    {acts : List Act} (h : Handles f env m f' acts) : f'.received = f.received := by
  cases h with
  | takesIn htakes _ => cases htakes <;> rfl
  | _ => rfl

/-! ## Handlers between suspensions -/

/-- What every await of a handler keeps holds at its next suspension, or at its end. -/
theorem runActs_induct {P : InboundPublishFlow → List Act → Prop}
    (hsend : ∀ f kind pid r acts, P f (.send kind pid r :: acts) →
      P (f.log (.sent kind pid r)) acts)
    (hdeliver : ∀ f r callback acts, P f (.deliver r callback :: acts) →
      f.putWaits r = false → P (f.handOver r callback) acts)
    (env : Environment) {acts : List Act} {f : InboundPublishFlow} (h : P f acts) :
    P (runActs env acts f).1 ((runActs env acts f).2.getD []) := by
  induction acts generalizing f with
  | nil => exact h
  | cons act acts ih =>
    cases act with
    | send kind pid r =>
      rw [runActs]
      split
      · exact hsend f kind pid r acts h
      · exact ih (hsend f kind pid r acts h)
    | deliver r callback =>
      rw [runActs]
      split
      · exact h
      · next hroom => exact ih (hdeliver f r callback acts h (Bool.not_eq_true _ ▸ hroom))

/-- The read loop in a handler: `P` between its awaits, `Inv` where it suspends or ends. -/
theorem runReader_induct {Inv : InboundPublishFlow → Prop}
    {P : InboundPublishFlow → List Act → Prop}
    (hsend : ∀ f kind pid r acts, P f (.send kind pid r :: acts) →
      P (f.log (.sent kind pid r)) acts)
    (hdeliver : ∀ f r callback acts, P f (.deliver r callback :: acts) →
      f.putWaits r = false → P (f.handOver r callback) acts)
    (hdone : ∀ f, P f [] → Inv { f with reader := .reading })
    (hsuspend : ∀ f acts, P f acts → Inv { f with reader := .suspended acts })
    (env : Environment) {acts : List Act} {f : InboundPublishFlow} (h : P f acts) :
    Inv (f.runReader env acts) := by
  have hrun := runActs_induct hsend hdeliver env h
  unfold runReader
  split
  · next f' heq => rw [heq] at hrun; exact hdone f' hrun
  · next f' acts' heq => rw [heq] at hrun; exact hsuspend f' acts' hrun

/-! ## One message of a drain -/

/-- What `deliver_replay` does with a message for which there is room. -/
inductive HandsOn (f : InboundPublishFlow) (r : InboundRecipient) : InboundPublishFlow → Prop
  | qos0 (hqos : r.message.packet.qos = .atMostOnce) : HandsOn f r (f.handOver r none)
  | qos1Auto (pid : Int) (hqos : r.message.packet.qos = .atLeastOnce) :
      HandsOn f r ((f.handOver r none).log (.sent .puback pid r))
  | qos1Manual (pid : Int) (hqos : r.message.packet.qos = .atLeastOnce)
      (hmanual : r.autoAck = false) :
      HandsOn f r (f.handOver r (some (.puback pid false r)))
  | qos2Auto (pid : Int) (hqos : r.message.packet.qos = .exactlyOnce)
      (hpid : r.message.packet.packetId = some pid) (hauto : r.autoAck = true) :
      HandsOn f r ((f.startAuto pid r).log (.sent .pubrec pid r))
  | qos2Manual (pid : Int) (hqos : r.message.packet.qos = .exactlyOnce)
      (hpid : r.message.packet.packetId = some pid) (hmanual : r.autoAck = false) :
      HandsOn f r ((f.startManual pid r).handOver r (some (.pubrec pid r)))

theorem runActs_send_nil (env : Environment) (kind : AckKind) (pid : Int) (r : InboundRecipient)
    (f : InboundPublishFlow) :
    (runActs env [.send kind pid r] f).1 = f.log (.sent kind pid r) ∧
      (runActs env [.send kind pid r] f).2.getD [] = [] := by
  rw [runActs]
  split <;> exact ⟨rfl, rfl⟩

/-- A message with room for it is handed on without waiting, and a suspension in the write
    of its acknowledgement leaves nothing to do. -/
theorem deliverReplay_cases {f f' : InboundPublishFlow} {env : Environment}
    {r : InboundRecipient} {rest : Option (List Act)} (hroom : f.mustWait r = false)
    (h : f.deliverReplay env r.message r = .ok (f', rest)) :
    HandsOn f r f' ∧ rest.getD [] = [] := by
  have hput := putWaits_of_mustWait hroom
  unfold deliverReplay at h
  split at h
  · next hqos =>
    rw [runActs, hput] at h
    cases h
    exact ⟨HandsOn.qos0 hqos, rfl⟩
  · next hqos =>
    unfold deliverQos1Publish at h
    split at h
    · cases h
    · next pid hpid =>
      split at h
      · simp only [Except.map] at h
        rw [runActs, hput] at h
        obtain ⟨hfst, hsnd⟩ := runActs_send_nil env .puback pid r (f.handOver r none)
        injection h with h
        rw [if_neg Bool.false_ne_true] at h
        rw [h] at hfst hsnd
        obtain rfl : f' = _ := hfst
        exact ⟨HandsOn.qos1Auto pid hqos, hsnd⟩
      · next hmanual =>
        simp only [Except.map] at h
        rw [runActs, hput] at h
        cases h
        exact ⟨HandsOn.qos1Manual pid hqos (Bool.not_eq_true _ ▸ hmanual), rfl⟩
  · next hqos =>
    unfold acceptQos2Publish at h
    split at h
    · cases h
    · next pid hpid =>
      dsimp only at h
      split at h
      · next hauto =>
        simp only [Except.map] at h
        obtain ⟨hfst, hsnd⟩ := runActs_send_nil env .pubrec pid r (f.startAuto pid r)
        injection h with h
        change runActs env [.send .pubrec pid r] (f.startAuto pid r) = (f', rest) at h
        rw [h] at hfst hsnd
        obtain rfl : f' = _ := hfst
        exact ⟨HandsOn.qos2Auto pid hqos hpid hauto, hsnd⟩
      · next hmanual =>
        simp only [Except.map] at h
        injection h with h
        change runActs env [.deliver r (some (.pubrec pid r))] (f.startManual pid r) =
          (f', rest) at h
        have hput' : (f.startManual pid r).putWaits r = false := hput
        rw [runActs, hput'] at h
        cases h
        exact ⟨HandsOn.qos2Manual pid hqos hpid (Bool.not_eq_true _ ▸ hmanual), rfl⟩

/-! ## Frames -/

/-- `_deliver` gives the message to nobody, to a request, or into a queue. -/
theorem handOver_cases (f : InboundPublishFlow) (r : InboundRecipient)
    (callback : Option AckCallback) :
    (r.isNobody = true ∧ f.handOver r callback = f) ∨
      (∃ request, r.request = some request ∧
        f.handOver r callback = f.log (.requested request r.message)) ∨
      ∃ filter entry, r.request = none ∧ r.subscription = some (filter, entry) ∧
        f.handOver r callback = f.enqueue entry.queue
          { received := r.message, ackCallback := if entry.autoAck then none else callback } := by
  unfold handOver
  cases hreq : r.request with
  | some request => exact Or.inr (Or.inl ⟨request, rfl, rfl⟩)
  | none =>
    cases hsub : r.subscription with
    | none => exact Or.inl ⟨by rw [InboundRecipient.isNobody, hreq, hsub]; rfl, rfl⟩
    | some item => exact Or.inr (Or.inr ⟨item.1, item.2, rfl, rfl, rfl⟩)

/-- What a delivery and a write leave unchanged. -/
structure SameTables (f f' : InboundPublishFlow) : Prop where
  inflight : f'.inflightQos2In = f.inflightQos2In
  pendingAck : f'.pendingAckQos2In = f.pendingAckQos2In
  replay : f'.replay = f.replay
  buffers : f'.buffers = f.buffers
  received : f'.received = f.received

theorem SameTables.refl (f : InboundPublishFlow) : SameTables f f := ⟨rfl, rfl, rfl, rfl, rfl⟩

theorem SameTables.trans {f f' f'' : InboundPublishFlow} (h : SameTables f f')
    (h' : SameTables f' f'') : SameTables f f'' :=
  ⟨h'.inflight.trans h.inflight, h'.pendingAck.trans h.pendingAck, h'.replay.trans h.replay,
    h'.buffers.trans h.buffers, h'.received.trans h.received⟩

theorem sameTables_log (f : InboundPublishFlow) (entry : TraceEntry) :
    SameTables f (f.log entry) := ⟨rfl, rfl, rfl, rfl, rfl⟩

theorem sameTables_handOver (f : InboundPublishFlow) (r : InboundRecipient)
    (callback : Option AckCallback) : SameTables f (f.handOver r callback) := by
  unfold handOver
  split <;> exact ⟨rfl, rfl, rfl, rfl, rfl⟩

theorem sameTables_runActs (env : Environment) (acts : List Act) (f : InboundPublishFlow) :
    SameTables f (runActs env acts f).1 := by
  refine runActs_induct (P := fun f' _ => SameTables f f') ?_ ?_ env (SameTables.refl f)
  · intro f' kind pid r _ h
    exact h.trans (f'.sameTables_log _)
  · intro f' r callback _ h _
    exact h.trans (f'.sameTables_handOver r callback)

theorem sameTables_runReader (env : Environment) (acts : List Act) (f : InboundPublishFlow) :
    SameTables f (f.runReader env acts) := by
  have h := sameTables_runActs env acts f
  unfold runReader
  split
  · next f' heq => rw [heq] at h; exact ⟨h.1, h.2, h.3, h.4, h.5⟩
  · next f' acts' heq => rw [heq] at h; exact ⟨h.1, h.2, h.3, h.4, h.5⟩

theorem HandsOn.buffers {f f' : InboundPublishFlow} {r : InboundRecipient}
    (h : HandsOn f r f') : f'.buffers = f.buffers := by
  cases h with
  | qos0 _ => exact (f.sameTables_handOver r _).buffers
  | qos1Auto pid _ => exact (f.sameTables_handOver r _).buffers
  | qos1Manual pid _ _ => exact (f.sameTables_handOver r _).buffers
  | qos2Auto pid _ _ _ => rfl
  | qos2Manual pid _ _ _ => exact ((f.startManual pid r).sameTables_handOver r _).buffers

theorem HandsOn.replay {f f' : InboundPublishFlow} {r : InboundRecipient}
    (h : HandsOn f r f') : f'.replay = f.replay := by
  cases h with
  | qos0 _ => exact (f.sameTables_handOver r _).replay
  | qos1Auto pid _ => exact (f.sameTables_handOver r _).replay
  | qos1Manual pid _ _ => exact (f.sameTables_handOver r _).replay
  | qos2Auto pid _ _ _ => rfl
  | qos2Manual pid _ _ _ => exact ((f.startManual pid r).sameTables_handOver r _).replay

theorem reader_handOver (f : InboundPublishFlow) (r : InboundRecipient)
    (callback : Option AckCallback) : (f.handOver r callback).reader = f.reader := by
  unfold handOver
  split <;> rfl

theorem HandsOn.reader {f f' : InboundPublishFlow} {r : InboundRecipient}
    (h : HandsOn f r f') : f'.reader = f.reader := by
  cases h with
  | qos0 _ => exact f.reader_handOver r _
  | qos1Auto pid _ => exact f.reader_handOver r _
  | qos1Manual pid _ _ => exact f.reader_handOver r _
  | qos2Auto pid _ _ _ => rfl
  | qos2Manual pid _ _ _ => exact (f.startManual pid r).reader_handOver r _

/-- An object is left without a change to the rest of the flow. -/
theorem leaveBuffer_eq (f : InboundPublishFlow) (i : Nat) (next : ReplayState) :
    ∃ replay, f.leaveBuffer i next = { f with replay } := by
  unfold leaveBuffer
  split
  · exact ⟨next, rfl⟩
  · exact ⟨f.replay, rfl⟩

/-- An entry that is not among the new ones has the history behind it that it had. -/
theorem suffix_of_append {α : Type} {x : α} {t es xs : List α} (hx : x ∉ es)
    (h : (x :: t) <:+ es ++ xs) : (x :: t) <:+ xs := by
  induction es with
  | nil => exact h
  | cons e es ih =>
    rcases List.suffix_cons_iff.1 h with he | h
    · exact absurd (List.mem_cons.2 (Or.inl (List.cons.inj he).1)) hx
    · exact ih (fun hmem => hx (List.mem_cons_of_mem _ hmem)) h

/-! ## A drain between suspensions -/

/-- The task inside a lock is suspended in the last await of a delivery. -/
def IdleRest (f : InboundPublishFlow) : Prop :=
  ∀ b ∈ f.buffers, ∀ h, b.holder = some h → h.rest = []

/-- Object `i` while the task inside its lock runs. -/
def Unlocked (f : InboundPublishFlow) (i : Nat) (b : Buffered) : Prop :=
  f.buffers[i]? = some b ∧ b.holder = none

variable {i : Nat}

theorem getElem?_setBuffer {f : InboundPublishFlow} {b : Buffered}
    (hb : f.buffers[i]? = some b) (b' : Buffered) : (f.setBuffer i b').buffers[i]? = some b' :=
  List.getElem?_set_self (List.getElem?_eq_some_iff.1 hb).1

theorem Unlocked.setBuffer {f : InboundPublishFlow} {b b' : Buffered} (hb : f.Unlocked i b)
    (hb' : b'.holder = none) : (f.setBuffer i b').Unlocked i b' :=
  ⟨getElem?_setBuffer hb.1 b', hb'⟩

theorem holder_discard (b : Buffered) (m : Received) : (b.discard m).1.holder = b.holder := by
  unfold Buffered.discard
  split <;> rfl

theorem Unlocked.discard {f : InboundPublishFlow} {b : Buffered} (hb : f.Unlocked i b)
    (m : Received) : (f.setBuffer i (b.discard m).1).Unlocked i (b.discard m).1 :=
  hb.setBuffer ((holder_discard b m).trans hb.2)

/-- An invariant `Inv` of the flow while a task works on object `i`: `I` holds between two
    messages, with the messages set aside and those to come; `S` while the task delivers a
    message; `F` when it leaves the loop with an exception. -/
structure PassRule (Inv : InboundPublishFlow → Prop)
    (I : InboundPublishFlow → List Received → List Received → Prop)
    (F : InboundPublishFlow → List Received → Prop)
    (S : InboundPublishFlow → List Received → List Received → Received → Prop)
    (env : Environment) (i : Nat) : Prop where
  setAside : ∀ f unmatched m pending, I f unmatched (m :: pending) →
    f.mustWait (f.selectRecipient env m) = true → I f (unmatched ++ [m]) pending
  refill : ∀ f b unmatched, I f unmatched [] → f.Unlocked i b →
    I (f.setBuffer i { b with publishes := [] }) unmatched b.publishes
  handsOn : ∀ f f' unmatched m pending, I f unmatched (m :: pending) →
    f.mustWait (f.selectRecipient env m) = false → HandsOn f (f.selectRecipient env m) f' →
    S f' unmatched pending m
  discarded : ∀ f b unmatched pending m, S f unmatched pending m → f.Unlocked i b →
    (b.discard m).2 = true → I (f.setBuffer i (b.discard m).1) unmatched pending
  keyError : ∀ f b unmatched pending m, S f unmatched pending m → f.Unlocked i b →
    (b.discard m).2 = false → F (f.setBuffer i (b.discard m).1) (unmatched ++ pending)
  valueError : ∀ f unmatched m pending, I f unmatched (m :: pending) →
    F f (unmatched ++ m :: pending)
  suspend : ∀ f b caller unmatched pending current, S f unmatched pending current →
    f.Unlocked i b →
    Inv (f.setBuffer i { b with
      holder := some { caller, unmatched, pending, current, rest := [] } })
  fail : ∀ f b caller unmatched pending, F f (unmatched ++ pending) → f.Unlocked i b →
    Inv (f.setBuffer i ((b.putBack (unmatched ++ pending)).endExpiration caller))
  drained : ∀ f b unmatched, I f unmatched [] → f.Unlocked i b →
    Inv (f.finishDrain i (b.putBack unmatched))
  expired : ∀ f b unmatched, I f unmatched [] → f.Unlocked i b →
    Inv (f.finishExpire i (b.putBack unmatched))

section PassRule

variable {Inv : InboundPublishFlow → Prop}
  {I : InboundPublishFlow → List Received → List Received → Prop}
  {F : InboundPublishFlow → List Received → Prop}
  {S : InboundPublishFlow → List Received → List Received → Received → Prop}
  {env : Environment}

/-- What holds where a pass stops. -/
def StopsWith (I : InboundPublishFlow → List Received → List Received → Prop)
    (F : InboundPublishFlow → List Received → Prop)
    (S : InboundPublishFlow → List Received → List Received → Received → Prop) (i : Nat)
    (result : InboundPublishFlow × PassResult) : Prop :=
  (∃ b, result.1.Unlocked i b) ∧
    match result.2 with
    | .suspended unmatched pending m rest => S result.1 unmatched pending m ∧ rest = []
    | .finished unmatched => I result.1 unmatched []
    | .failed unmatched pending => F result.1 (unmatched ++ pending)

theorem PassRule.deliverPass (rule : PassRule Inv I F S env i)
    {unmatched pending : List Received} {f : InboundPublishFlow} {b : Buffered}
    (hb : f.Unlocked i b) (h : I f unmatched pending) :
    StopsWith I F S i (deliverPass env i unmatched pending f) := by
  induction pending generalizing unmatched f b with
  | nil => exact ⟨⟨b, hb⟩, h⟩
  | cons m pending ih =>
    rw [InboundPublishFlow.deliverPass]
    split
    · next hwait => exact ih hb (rule.setAside f unmatched m pending h hwait)
    · next hroom =>
      rw [Bool.not_eq_true] at hroom
      -- the message of the selected recipient is the message itself
      have hcases : ∀ f' rest,
          f.deliverReplay env m (f.selectRecipient env m) = .ok (f', rest) →
          S f' unmatched pending m ∧ rest.getD [] = [] ∧ f'.Unlocked i b := by
        intro f' rest hd
        have hmsg := f.message_selectRecipient env m
        have hc := deliverReplay_cases hroom (by rw [hmsg]; exact hd)
        refine ⟨?_, hc.2, by rw [Unlocked, hc.1.buffers]; exact hb⟩
        exact rule.handsOn f f' unmatched m pending h hroom hc.1
      split
      · refine ⟨⟨b, hb⟩, ?_⟩
        have hF := rule.valueError f unmatched m pending h
        rw [← List.singleton_append, ← List.append_assoc] at hF
        exact hF
      · next f' rest hd =>
        obtain ⟨hS, hrest, hb'⟩ := hcases f' (some rest) hd
        exact ⟨⟨b, hb'⟩, hS, hrest⟩
      · next f' hd =>
        obtain ⟨hS, -, hb'⟩ := hcases f' none hd
        simp only [InboundPublishFlow.discard, hb'.1]
        split
        · next f'' hdis =>
          obtain ⟨rfl, hok⟩ := Prod.mk.inj hdis
          exact ih (hb'.discard m) (rule.discarded f' b _ _ m hS hb' hok)
        · next f'' hdis =>
          obtain ⟨rfl, hok⟩ := Prod.mk.inj hdis
          exact ⟨⟨_, hb'.discard m⟩, rule.keyError f' b _ _ m hS hb' hok⟩

theorem PassRule.deliverPending (rule : PassRule Inv I F S env i)
    (unmatched pending : List Received) {f : InboundPublishFlow} {b : Buffered}
    (hb : f.Unlocked i b) (h : I f unmatched pending) :
    StopsWith I F S i (f.deliverPending env i unmatched pending) := by
  have hpass := rule.deliverPass hb h
  unfold InboundPublishFlow.deliverPending
  split
  · next f' unmatched' heq =>
    rw [heq] at hpass
    obtain ⟨⟨b', hb'⟩, hI⟩ := hpass
    simp only [InboundPublishFlow.publishes, InboundPublishFlow.setPublishes, hb'.1]
    exact rule.deliverPass (hb'.setBuffer (by exact hb'.2)) (rule.refill f' b' _ hI hb')
  · exact hpass

theorem PassRule.settle (rule : PassRule Inv I F S env i) (caller : Caller)
    {f : InboundPublishFlow} {result : PassResult} (h : StopsWith I F S i (f, result)) :
    Inv (f.settle i caller result) := by
  obtain ⟨⟨b, hb⟩, h⟩ := h
  simp only [InboundPublishFlow.settle, hb.1]
  cases result with
  | suspended unmatched pending m rest =>
    obtain ⟨hS, rfl⟩ := h
    exact rule.suspend f b caller unmatched pending m hS hb
  | finished unmatched =>
    cases caller with
    | drain => exact rule.drained f b unmatched h hb
    | expire => exact rule.expired f b unmatched h hb
  | failed unmatched pending => exact rule.fail f b caller unmatched pending h hb

/-- **Acquired lock.** -/
theorem PassRule.acquireLock (rule : PassRule Inv I F S env i) {f : InboundPublishFlow}
    (h : Inv f)
    (hstart : ∀ b waiters, f.buffers[i]? = some b → b.holder = none →
      I (f.setBuffer i { b with waiters }) [] []) : Inv (f.acquireLock env i) := by
  unfold InboundPublishFlow.acquireLock
  split
  · exact h
  · next b hb =>
    split
    · next caller waiters hholder _ =>
      exact rule.settle caller (rule.deliverPending [] [] ⟨getElem?_setBuffer hb _, hholder⟩
        (hstart b waiters hb hholder))
    · exact h

/-- **Resumed delivery.** -/
theorem PassRule.resumeDelivery (rule : PassRule Inv I F S env i) {f : InboundPublishFlow}
    (hidle : f.IdleRest) (h : Inv f)
    (hkeep : ∀ b d, f.buffers[i]? = some b → b.holder = some d → d.cancelled = false)
    (hwake : ∀ b d, f.buffers[i]? = some b → b.holder = some d →
      S (f.setBuffer i { b with holder := none }) d.unmatched d.pending d.current) :
    Inv (f.resumeDelivery env i) := by
  unfold InboundPublishFlow.resumeDelivery
  split
  · exact h
  · next b hb =>
    split
    · exact h
    · next d hholder =>
      have hS := hwake b d hb hholder
      have hb' : (f.setBuffer i { b with holder := none }).Unlocked i { b with holder := none } :=
        ⟨getElem?_setBuffer hb _, rfl⟩
      rw [if_neg (by rw [hkeep b d hb hholder]; exact Bool.false_ne_true),
        hidle b (List.mem_of_getElem? hb) d hholder, runActs]
      simp only [InboundPublishFlow.discard, hb'.1]
      split
      · next f' hdis =>
        obtain ⟨rfl, hok⟩ := Prod.mk.inj hdis
        exact rule.settle d.caller ⟨⟨_, hb'.discard d.current⟩, rule.keyError _ _ _ _ _ hS hb' hok⟩
      · next f' hdis =>
        obtain ⟨rfl, hok⟩ := Prod.mk.inj hdis
        exact rule.settle d.caller (rule.deliverPending d.unmatched d.pending
          (hb'.discard d.current) (rule.discarded _ _ _ _ _ hS hb' hok))

/-- **Interrupted delivery.** -/
theorem PassRule.interruptDelivery (rule : PassRule Inv I F S env i) {f : InboundPublishFlow}
    (h : Inv f)
    (hback : ∀ b d, f.buffers[i]? = some b → b.holder = some d →
      F (f.setBuffer i { b with holder := none }) (d.unmatched ++ [d.current] ++ d.pending)) :
    Inv (f.interruptDelivery i) := by
  unfold InboundPublishFlow.interruptDelivery
  split
  · exact h
  · next b hb =>
    split
    · exact h
    · next d hholder =>
      exact rule.settle d.caller ⟨⟨_, getElem?_setBuffer hb _, rfl⟩, hback b d hb hholder⟩

end PassRule

/-- The rule for an invariant that does not depend on the order of the messages: `I`, `F` and
    `S` see what the task has taken out of the object. -/
structure DrainRule (Inv : InboundPublishFlow → Prop)
    (I F : InboundPublishFlow → List Received → Prop)
    (S : InboundPublishFlow → List Received → Received → Prop) (i : Nat) : Prop where
  start : ∀ f b waiters, Inv f → f.buffers[i]? = some b → b.holder = none →
    I (f.setBuffer i { b with waiters }) []
  wake : ∀ f b h, Inv f → f.buffers[i]? = some b → b.holder = some h → h.cancelled = false →
    S (f.setBuffer i { b with holder := none }) (h.unmatched ++ h.pending) h.current
  perm : ∀ f a b, a.Perm b → I f a → I f b
  refill : ∀ f b air, I f air → f.Unlocked i b →
    I (f.setBuffer i { b with publishes := [] }) (air ++ b.publishes)
  handsOn : ∀ f f' r air, I f (r.message :: air) → r.isNobody = false → HandsOn f r f' →
    S f' air r.message
  discarded : ∀ f b air m, S f air m → f.Unlocked i b → (b.discard m).2 = true →
    I (f.setBuffer i (b.discard m).1) air
  keyError : ∀ f b air m, S f air m → f.Unlocked i b → (b.discard m).2 = false →
    F (f.setBuffer i (b.discard m).1) air
  valueError : ∀ f air, I f air → F f air
  suspend : ∀ f b caller unmatched pending current, S f (unmatched ++ pending) current →
    f.Unlocked i b →
    Inv (f.setBuffer i { b with
      holder := some { caller, unmatched, pending, current, rest := [] } })
  fail : ∀ f b caller unmatched pending, F f (unmatched ++ pending) → f.Unlocked i b →
    Inv (f.setBuffer i ((b.putBack (unmatched ++ pending)).endExpiration caller))
  drained : ∀ f b unmatched, I f unmatched → f.Unlocked i b →
    Inv (f.finishDrain i (b.putBack unmatched))
  expired : ∀ f b unmatched, I f unmatched → f.Unlocked i b →
    Inv (f.finishExpire i (b.putBack unmatched))

section DrainRule

variable {Inv : InboundPublishFlow → Prop} {I F : InboundPublishFlow → List Received → Prop}
  {S : InboundPublishFlow → List Received → Received → Prop}

theorem DrainRule.passRule (rule : DrainRule Inv I F S i) (env : Environment) :
    PassRule Inv (fun f unmatched pending => I f (unmatched ++ pending)) F
      (fun f unmatched pending m => S f (unmatched ++ pending) m) env i where
  setAside f unmatched m pending h _ := by
    rw [List.append_assoc]
    exact h
  refill f b unmatched h hb := by
    rw [List.append_nil] at h
    exact rule.refill f b unmatched h hb
  handsOn f f' unmatched m pending h hroom hands := by
    have hmsg := f.message_selectRecipient env m
    have hm : I f (m :: (unmatched ++ pending)) := rule.perm f _ _ List.perm_middle h
    have hS := rule.handsOn f f' _ (unmatched ++ pending) (by rw [hmsg]; exact hm)
      (not_isNobody_of_mustWait hroom) hands
    rw [hmsg] at hS
    exact hS
  discarded f b unmatched pending m h hb hok := rule.discarded f b _ m h hb hok
  keyError f b unmatched pending m h hb hok := rule.keyError f b _ m h hb hok
  valueError f unmatched m pending h := rule.valueError f _ h
  suspend f b caller unmatched pending m h hb := rule.suspend f b caller unmatched pending m h hb
  fail f b caller unmatched pending h hb := rule.fail f b caller unmatched pending h hb
  drained f b unmatched h hb := by
    rw [List.append_nil] at h
    exact rule.drained f b unmatched h hb
  expired f b unmatched h hb := by
    rw [List.append_nil] at h
    exact rule.expired f b unmatched h hb

theorem DrainRule.acquireLock (rule : DrainRule Inv I F S i) {f : InboundPublishFlow}
    (env : Environment) (h : Inv f) : Inv (f.acquireLock env i) :=
  (rule.passRule env).acquireLock h fun b waiters hb hd => rule.start f b waiters h hb hd

theorem DrainRule.resumeDelivery (rule : DrainRule Inv I F S i) {f : InboundPublishFlow}
    (env : Environment) (hidle : f.IdleRest) (h : Inv f)
    (hkeep : ∀ b d, f.buffers[i]? = some b → b.holder = some d → d.cancelled = false) :
    Inv (f.resumeDelivery env i) :=
  (rule.passRule env).resumeDelivery hidle h hkeep fun b d hb hd =>
    rule.wake f b d h hb hd (hkeep b d hb hd)

theorem DrainRule.interruptDelivery (rule : DrainRule Inv I F S i) {f : InboundPublishFlow}
    (h : Inv f)
    (hback : ∀ b d, f.buffers[i]? = some b → b.holder = some d →
      F (f.setBuffer i { b with holder := none }) (d.unmatched ++ [d.current] ++ d.pending)) :
    Inv (f.interruptDelivery i) :=
  (rule.passRule {}).interruptDelivery h hback

end DrainRule

/-- A task that `clear` cancelled is interrupted when it is resumed. -/
theorem resumeDelivery_of_cancelled {f : InboundPublishFlow} {env : Environment}
    (h : ¬ ∀ b d, f.buffers[i]? = some b → b.holder = some d → d.cancelled = false) :
    f.resumeDelivery env i = f.interruptDelivery i := by
  push Not at h
  obtain ⟨b, d, hb, hd, hc⟩ := h
  have hc := Bool.eq_true_of_not_eq_false hc
  simp only [InboundPublishFlow.resumeDelivery, hb, hd, hc, if_true]

/-! ## Bookkeeping of the waiting tasks -/

/-- The same messages, counters and suspended delivery. -/
structure SameContents (b b' : Buffered) : Prop where
  publishes : b'.publishes = b.publishes
  packetIds : b'.packetIds = b.packetIds
  topics : b'.topics = b.topics
  messageCount : b'.messageCount = b.messageCount
  holder : ∀ h', b'.holder = some h' → ∃ h, b.holder = some h ∧ h'.unmatched = h.unmatched ∧
    h'.pending = h.pending ∧ h'.current = h.current ∧ h'.rest = h.rest
  noHolder : b'.holder = none → b.holder = none

theorem sameContents_of_eq {b b' : Buffered} (hp : b'.publishes = b.publishes)
    (hi : b'.packetIds = b.packetIds) (ht : b'.topics = b.topics)
    (hc : b'.messageCount = b.messageCount) (hh : b'.holder = b.holder) : SameContents b b' :=
  ⟨hp, hi, ht, hc, fun h' he => ⟨h', hh ▸ he, rfl, rfl, rfl, rfl⟩, fun he => hh ▸ he⟩

theorem SameContents.held {b b' : Buffered} (h : SameContents b b') : b'.held = b.held := by
  unfold Buffered.held
  rw [h.publishes]
  cases hb : b'.holder with
  | none => rw [h.noHolder hb]
  | some h' =>
    obtain ⟨d, hd, hu, hp, -, -⟩ := h.holder h' hb
    rw [hd]
    dsimp only
    rw [hu, hp]

theorem sameContents_cancelExpiration (b : Buffered) : SameContents b b.cancelExpiration := by
  unfold Buffered.cancelExpiration
  split
  · exact sameContents_of_eq rfl rfl rfl rfl rfl
  · exact sameContents_of_eq rfl rfl rfl rfl rfl
  · refine ⟨rfl, rfl, rfl, rfl, fun h' he => ?_, fun he => Option.map_eq_none_iff.1 he⟩
    obtain ⟨h, hh, rfl⟩ := Option.map_eq_some_iff.1 he
    refine ⟨h, hh, ?_⟩
    split <;> exact ⟨rfl, rfl, rfl, rfl⟩

theorem sameContents_endExpiration (b : Buffered) (caller : Caller) :
    SameContents b (b.endExpiration caller) := by
  cases caller <;> exact sameContents_of_eq rfl rfl rfl rfl rfl

theorem held_discard (b : Buffered) (m : Received) : (b.discard m).1.held = b.held := by
  unfold Buffered.discard
  split <;> rfl

/-- An invariant that lets messages move between an object and the task inside its lock, and
    leave, is one of the drains as soon as it is kept by each message handed on. -/
theorem drainRule_of_move {K : InboundPublishFlow → List Received → Prop} (i : Nat)
    (hmove : ∀ f b b' air air', K f air → f.buffers[i]? = some b →
      (∀ q, b'.held.countP q + air'.countP q ≤ b.held.countP q + air.countP q) →
      K (f.setBuffer i b') air')
    (hperm : ∀ f a b, a.Perm b → K f a → K f b)
    (hands : ∀ f f' r air, K f (r.message :: air) → HandsOn f r f' → K f' air)
    (hreplay : ∀ f replay, K f [] → K { f with replay } [])
    (hdropped : ∀ f ms air, K f air → K (f.logDropped ms) air) :
    DrainRule (fun f => K f []) K K (fun f air _ => K f air) i where
  start f b waiters h hb _ := hmove f b _ [] [] h hb fun q => Nat.le_refl _
  wake f b d h hb hd _ := hmove f b _ [] _ h hb fun q => by
    simp only [Buffered.held, hd, List.countP_append, List.countP_nil]
    omega
  perm := hperm
  refill f b air h hb := hmove f b _ air _ h hb.1 fun q => by
    simp only [Buffered.held, hb.2, List.countP_append, List.countP_nil]
    omega
  handsOn f f' r air h _ hon := hands f f' r air h hon
  discarded f b air m h hb _ := hmove f b _ air air h hb.1 fun q => by rw [held_discard]
  keyError f b air m h hb _ := hmove f b _ air air h hb.1 fun q => by rw [held_discard]
  valueError f air h := h
  suspend f b caller unmatched pending m h hb := hmove f b _ _ [] h hb.1 fun q => by
    simp only [Buffered.held, hb.2, List.countP_append, List.countP_nil]
    omega
  fail f b caller unmatched pending h hb := hmove f b _ _ [] h hb.1 fun q => by
    rw [(sameContents_endExpiration _ _).held]
    simp only [Buffered.held, Buffered.putBack, hb.2, List.countP_append, List.countP_nil]
    omega
  drained f b unmatched h hb := by
    have hcount : ∀ q : Received → Bool, (b.putBack unmatched).held.countP q +
        ([] : List Received).countP q ≤ b.held.countP q + unmatched.countP q := fun q => by
      simp only [Buffered.held, Buffered.putBack, hb.2, List.countP_append, List.countP_nil]
      omega
    unfold finishDrain
    split
    · obtain ⟨replay, he⟩ := leaveBuffer_eq (f.setBuffer i _) i .idle
      rw [he]
      refine hreplay _ _ (hmove f b _ unmatched [] h hb.1 fun q => ?_)
      rw [(sameContents_cancelExpiration _).held]
      exact hcount q
    · exact hmove f b _ unmatched [] h hb.1 hcount
  expired f b unmatched h hb := by
    unfold finishExpire
    obtain ⟨replay, he⟩ := leaveBuffer_eq ((f.logDropped _).setBuffer i _) i _
    rw [he]
    refine hreplay _ _ (hmove _ b _ unmatched [] (hdropped f _ unmatched h) hb.1 fun q => ?_)
    rw [(sameContents_endExpiration _ _).held]
    exact Nat.zero_le _

theorem bufferSize_handOver (f : InboundPublishFlow) (r : InboundRecipient)
    (callback : Option AckCallback) : (f.handOver r callback).bufferSize = f.bufferSize := by
  unfold handOver
  split <;> rfl

theorem HandsOn.bufferSize {f f' : InboundPublishFlow} {r : InboundRecipient}
    (h : HandsOn f r f') : f'.bufferSize = f.bufferSize := by
  cases h with
  | qos0 _ => exact f.bufferSize_handOver r _
  | qos1Auto pid _ => exact f.bufferSize_handOver r _
  | qos1Manual pid _ _ => exact f.bufferSize_handOver r _
  | qos2Auto pid _ _ _ => rfl
  | qos2Manual pid _ _ _ => exact (f.startManual pid r).bufferSize_handOver r _

/-- Drains touch neither the read loop nor the limit of the buffer. -/
theorem frame_drainRule (c : Reader → Nat → Prop) (i : Nat) :
    DrainRule (fun f => c f.reader f.bufferSize) (fun f _ => c f.reader f.bufferSize)
      (fun f _ => c f.reader f.bufferSize) (fun f _ _ => c f.reader f.bufferSize) i := by
  refine drainRule_of_move (K := fun f _ => c f.reader f.bufferSize) i ?_ ?_ ?_ ?_ ?_
  · exact fun f b b' air air' h _ _ => h
  · exact fun f a b _ h => h
  · intro f f' r air h hands
    rw [hands.reader, hands.bufferSize]
    exact h
  · exact fun f replay h => h
  · exact fun f ms air h => h

/-- `drain()`, a timeout and a cancelled waiter touch no message. -/
theorem waiting_cases (f : InboundPublishFlow) {e : InboundEvent}
    (he : e = .drain ∨ (∃ i, e = .expire i) ∨ ∃ i k, e = .cancelWaiter i k) :
    f.step e = f ∨ ∃ i b b', f.buffers[i]? = some b ∧ SameContents b b' ∧
      f.step e = f.setBuffer i b' := by
  rcases he with rfl | ⟨i, rfl⟩ | ⟨i, k, rfl⟩
  · rw [step, drain]
    split
    · exact Or.inl rfl
    · exact Or.inl rfl
    · next i _ =>
      split
      · exact Or.inl rfl
      · next b hb =>
        refine Or.inr ⟨i, b, _, hb, ?_, rfl⟩
        exact sameContents_of_eq rfl rfl rfl rfl rfl
  · rw [step, expireReplay]
    split
    · exact Or.inl rfl
    · next b hb =>
      split
      · split
        · refine Or.inr ⟨i, b, _, hb, ?_, rfl⟩
          exact sameContents_of_eq rfl rfl rfl rfl rfl
        · refine Or.inr ⟨i, b, _, hb, ?_, rfl⟩
          exact sameContents_of_eq rfl rfl rfl rfl rfl
      · exact Or.inl rfl
  · rw [step, cancelWaiter]
    split
    · exact Or.inl rfl
    · next b hb =>
      split
      · exact Or.inl rfl
      · next caller _ =>
        refine Or.inr ⟨i, b, _, hb, ?_, rfl⟩
        have h := sameContents_endExpiration { b with waiters := b.waiters.eraseIdx k } caller
        exact ⟨h.1, h.2, h.3, h.4, h.5, h.6⟩

/-! ## Suspended deliveries -/

theorem IdleRest.setBuffer {f : InboundPublishFlow} (h : f.IdleRest) {i : Nat} {b' : Buffered}
    (hb : ∀ d, b'.holder = some d → d.rest = []) : (f.setBuffer i b').IdleRest := by
  intro c hc d hd
  rcases List.mem_or_eq_of_mem_set hc with hc | rfl
  · exact h c hc d hd
  · exact hb d hd

theorem IdleRest.of_buffers {f f' : InboundPublishFlow} (h : f.IdleRest)
    (he : f'.buffers = f.buffers) : f'.IdleRest := by
  intro b hb
  rw [he] at hb
  exact h b hb

theorem IdleRest.get {f : InboundPublishFlow} (h : f.IdleRest) {i : Nat} {b : Buffered}
    (hb : f.buffers[i]? = some b) : ∀ d, b.holder = some d → d.rest = [] :=
  h b (List.mem_of_getElem? hb)

theorem SameContents.rest {b b' : Buffered} (h : SameContents b b')
    (hb : ∀ d, b.holder = some d → d.rest = []) : ∀ d, b'.holder = some d → d.rest = [] := by
  intro d hd
  obtain ⟨d', hd', -, -, -, hrest⟩ := h.holder d hd
  rw [hrest]
  exact hb d' hd'

theorem IdleRest.waiting {f : InboundPublishFlow} (h : f.IdleRest) {e : InboundEvent}
    (he : e = .drain ∨ (∃ i, e = .expire i) ∨ ∃ i k, e = .cancelWaiter i k) :
    (f.step e).IdleRest := by
  rcases f.waiting_cases he with heq | ⟨i, b, b', hb, hsame, heq⟩ <;> rw [heq]
  · exact h
  · exact h.setBuffer (hsame.rest (h.get hb))

theorem TakesIn.idleRest {f f' : InboundPublishFlow} {m : Received} (h : TakesIn f m f')
    (hf : f.IdleRest) : f'.IdleRest := by
  cases h with
  | new _ =>
    intro b hb d hd
    rcases List.mem_append.1 hb with hb | hb
    · exact hf b hb d hd
    · rw [List.mem_singleton.1 hb] at hd
      cases hd
  | old i b _ hb _ _ =>
    have hset : (f.setBuffer i (b.append m)).IdleRest := hf.setBuffer fun d hd => hf.get hb d hd
    exact hset.of_buffers rfl

theorem Handles.idleRest {f f' : InboundPublishFlow} {env : Environment} {m : Received}
    {acts : List Act} (h : Handles f env m f' acts) (hf : f.IdleRest) : f'.IdleRest := by
  cases h with
  | takesIn htakes _ => exact htakes.idleRest hf
  | _ => exact hf

theorem buffers_leaveBuffer (f : InboundPublishFlow) (i : Nat) (next : ReplayState) :
    (f.leaveBuffer i next).buffers = f.buffers := by
  unfold leaveBuffer
  split <;> rfl

theorem idleRest_drainRule (i : Nat) :
    DrainRule IdleRest (fun f _ => f.IdleRest) (fun f _ => f.IdleRest)
      (fun f _ _ => f.IdleRest) i where
  start f b waiters h hb _ := h.setBuffer fun d hd => h.get hb d hd
  wake f b d h _ _ _ := h.setBuffer fun _ hd => by cases hd
  perm f a b _ h := h
  refill f b air h hb := h.setBuffer fun d hd => h.get hb.1 d hd
  handsOn f f' r air h _ hands := h.of_buffers hands.buffers
  discarded f b air m h hb _ := h.setBuffer (by rw [holder_discard]; exact h.get hb.1)
  keyError f b air m h hb _ := h.setBuffer (by rw [holder_discard]; exact h.get hb.1)
  valueError f air h := h
  suspend f b caller unmatched pending m h _ := h.setBuffer fun d hd => by cases hd; rfl
  fail f b caller unmatched pending h _ :=
    h.setBuffer ((sameContents_endExpiration _ _).rest fun d hd => by cases hd)
  drained f b unmatched h _ := by
    unfold finishDrain
    split
    · refine IdleRest.of_buffers (h.setBuffer ?_) (buffers_leaveBuffer _ _ _)
      exact (sameContents_cancelExpiration _).rest fun d hd => by cases hd
    · exact h.setBuffer fun d hd => by cases hd
  expired f b unmatched h _ := by
    refine IdleRest.of_buffers (IdleRest.setBuffer ?_ ?_) (buffers_leaveBuffer _ _ _)
    · exact h.of_buffers rfl
    · exact (sameContents_endExpiration _ _).rest fun d hd => by cases hd

theorem IdleRest.interruptDelivery {f : InboundPublishFlow} (h : f.IdleRest) (i : Nat) :
    (f.interruptDelivery i).IdleRest :=
  (idleRest_drainRule i).interruptDelivery h fun b d _ _ => h.setBuffer fun _ hd => by cases hd

theorem IdleRest.dispatch {f : InboundPublishFlow} {env : Environment}
    {handled : Except InboundError (InboundPublishFlow × List Act)} (h : f.IdleRest)
    (hok : ∀ f' acts, handled = .ok (f', acts) → f'.IdleRest) :
    (f.dispatch env handled).IdleRest := by
  unfold InboundPublishFlow.dispatch
  split
  · exact h
  · next f' acts => exact (hok f' acts rfl).of_buffers (sameTables_runReader env acts f').buffers

theorem IdleRest.step {f : InboundPublishFlow} (h : f.IdleRest) (e : InboundEvent) :
    (f.step e).IdleRest := by
  cases e with
  | publish packet env =>
    rw [InboundPublishFlow.step, receivePublish]
    split
    · have hrec : (f.receive packet).IdleRest := h
      exact hrec.dispatch fun f' acts hok => (handlePublish_cases hok).idleRest hrec
    all_goals exact h
  | pubrel pid env =>
    rw [InboundPublishFlow.step, receivePubrel]
    split
    · have hlog : (f.log (.pubrel pid)).IdleRest := h
      refine hlog.dispatch fun f' acts hok => ?_
      unfold handlePubrel at hok
      split at hok
      · cases hok
      · cases hok; exact hlog
    all_goals exact h
  | resumeReader env =>
    rw [InboundPublishFlow.step, resumeReader]
    split
    · next acts _ => exact h.of_buffers (sameTables_runReader env acts f).buffers
    all_goals exact h
  | interruptReader =>
    rw [InboundPublishFlow.step, interruptReader]
    split <;> exact h
  | ack k =>
    rw [InboundPublishFlow.step, ack]
    split
    · exact h
    · split
      · exact h
      · unfold runCallback
        split
        · exact h
        · split <;> exact h
        · exact h
  | get queue => exact h
  | subscriptions index => exact h
  | acquireLock i env => exact (idleRest_drainRule i).acquireLock env h
  | resumeDelivery i env =>
    by_cases hkeep : ∀ b d, f.buffers[i]? = some b → b.holder = some d → d.cancelled = false
    · exact (idleRest_drainRule i).resumeDelivery env h h hkeep
    · rw [InboundPublishFlow.step, resumeDelivery_of_cancelled hkeep]
      exact h.interruptDelivery i
  | interruptDelivery i => exact h.interruptDelivery i
  | clear =>
    rw [InboundPublishFlow.step, clear]
    split
    · exact h
    · exact h
    · next i _ =>
      split
      · exact h
      · next b hb =>
        have hset : ((f.logDropped b.publishes).setBuffer i b.cancelExpiration.empty).IdleRest :=
          IdleRest.setBuffer (h.of_buffers rfl) ((sameContents_cancelExpiration b).rest (h.get hb))
        exact hset
  | drain => exact h.waiting (Or.inl rfl)
  | expire i => exact h.waiting (Or.inr (Or.inl ⟨i, rfl⟩))
  | cancelWaiter i k => exact h.waiting (Or.inr (Or.inr ⟨i, k, rfl⟩))

end InboundPublishFlow

end Zmqtt
