/-
  Conservation of the replay buffer: a message that was taken into the buffer is held by an
  object or by the task inside its lock, or was handed on once, or was dropped by `expire`
  or `clear`.

  `_deliver_pending` puts a message back when its delivery raises. For an automatically
  acknowledged message the delivery suspends in the write of PUBACK or PUBREC, after the
  message was handed on; an interruption there puts back a message that is already in its
  queue (`replayed_twice`). In runs in which no delivery is interrupted there, every message
  of the buffer is conserved (`replay_conserved`).
-/
import Zmqtt.Lib.Tasks
import Zmqtt.Inbound.FinalAck

namespace Zmqtt

/-! ## Counting -/

/-- The entry hands the message on: a QoS 2 message by the start of its exchange, another by
    its delivery. -/
def TraceEntry.handsOn (m : Received) : TraceEntry → Bool
  | started r => r.message = m
  | enqueued _ m' | requested _ m' => m' = m ∧ m.packet.qos ≠ .exactlyOnce
  | _ => false

/-- How often a message was handed on. -/
def handedOn (trace : List TraceEntry) (m : Received) : Nat := trace.countP (TraceEntry.handsOn m)

/-- How often a message was dropped. -/
def droppedCount (trace : List TraceEntry) (m : Received) : Nat := trace.count (.dropped m)

theorem handedOn_cons (entry : TraceEntry) (trace : List TraceEntry) (m : Received) :
    handedOn (entry :: trace) m = handedOn trace m + if entry.handsOn m then 1 else 0 :=
  List.countP_cons

theorem handedOn_map_dropped (ms : List Received) (trace : List TraceEntry) (m : Received) :
    handedOn (ms.map TraceEntry.dropped ++ trace) m = handedOn trace m := by
  rw [handedOn, List.countP_append, List.countP_map]
  have hnone : List.countP (TraceEntry.handsOn m ∘ TraceEntry.dropped) ms = 0 :=
    List.countP_eq_zero.2 fun m' _ h => by cases h
  rw [hnone, Nat.zero_add]
  rfl

theorem droppedCount_map_dropped (ms : List Received) (trace : List TraceEntry) (m : Received) :
    droppedCount (ms.map TraceEntry.dropped ++ trace) m = ms.count m + droppedCount trace m := by
  rw [droppedCount, List.count_append, List.count_map_of_injective _ _ fun a b h => by cases h; rfl]
  rfl

theorem buffered_mem_map_dropped {ms : List Received} {trace : List TraceEntry} {m : Received} :
    .buffered m ∈ ms.map TraceEntry.dropped ++ trace ↔ .buffered m ∈ trace := by
  simp

/-- A delivery below QoS 2 hands its message on. -/
theorem handsOn_of_qos {m : Received} (hqos : m.packet.qos ≠ .exactlyOnce) (m' : Received) :
    decide (m = m' ∧ m'.packet.qos ≠ .exactlyOnce) = decide (m = m') := by
  refine decide_eq_decide.2 ⟨And.left, ?_⟩
  rintro rfl
  exact ⟨rfl, hqos⟩

namespace InboundPublishFlow

/-- How often a message is held by the objects and the tasks inside their locks. -/
def heldCount (f : InboundPublishFlow) (m : Received) : Nat :=
  (f.buffers.map fun b => b.held.count m).sum

theorem heldCount_setBuffer {f : InboundPublishFlow} {i : Nat} {b : Buffered}
    (hb : f.buffers[i]? = some b) (b' : Buffered) (m : Received) :
    (f.setBuffer i b').heldCount m + b.held.count m = f.heldCount m + b'.held.count m :=
  sum_map_set (fun b => b.held.count m) b' hb

/-- An acknowledgement was sent for the message. -/
def Acknowledged (f : InboundPublishFlow) (m : Received) : Prop :=
  ∃ kind pid r, .sent kind pid r ∈ f.trace ∧ r.message = m

/-- The message is held and not acknowledged, or was handed on once, or was dropped and not
    acknowledged. -/
def Conserved (f : InboundPublishFlow) (m : Received) : Prop :=
  (f.heldCount m = 1 ∧ handedOn f.trace m = 0 ∧ droppedCount f.trace m = 0 ∧ ¬ f.Acknowledged m) ∨
    (f.heldCount m = 0 ∧ handedOn f.trace m = 1 ∧ droppedCount f.trace m = 0) ∨
    (f.heldCount m = 0 ∧ handedOn f.trace m = 0 ∧ droppedCount f.trace m = 1 ∧
      ¬ f.Acknowledged m)

/-! ## The invariant -/

/-- A message below number `n` that was handed on if it was ever in the buffer. -/
def Backed (n : Nat) (trace : List TraceEntry) (m : Received) : Prop :=
  m.num < n ∧ (.buffered m ∈ trace → 0 < handedOn trace m)

/-- A PUBREC callback belongs to a QoS 2 message. -/
def QosOk : AckCallback → Prop
  | .pubrec _ r => r.message.packet.qos = .exactlyOnce
  | .puback _ _ _ => True

theorem no_callback_ok {p : AckCallback → Prop} (c : AckCallback)
    (h : (none : Option AckCallback) = some c) : p c := by
  cases h

/-- The messages below number `n` are accounted for; `air` are those that the running task
    has taken out of its object. -/
structure Conserves (n : Nat) (f : InboundPublishFlow) (air : List Received) : Prop where
  once : ∀ m, .buffered m ∈ f.trace →
    f.heldCount m + air.count m + handedOn f.trace m + droppedCount f.trace m = 1
  unknown : ∀ m, .buffered m ∉ f.trace →
    f.heldCount m + air.count m + droppedCount f.trace m = 0
  old : ∀ m, .buffered m ∈ f.trace ∨ 0 < handedOn f.trace m → m.num < n
  sent : ∀ kind pid r, .sent kind pid r ∈ f.trace → Backed n f.trace r.message
  messages : ∀ message ∈ f.messages, ∀ c, message.ackCallback = some c →
    Backed n f.trace c.recipient.message ∧ QosOk c
  flights : ∀ pid flight, f.inflightQos2In.get? pid = some flight →
    Backed n f.trace flight.recipient.message ∧
      flight.recipient.message.packet.qos = .exactlyOnce

/-- What the read loop still has to do hands on no message of the buffer. -/
def ActSafe (n : Nat) (trace : List TraceEntry) (act : Act) : Prop :=
  Backed n trace act.recipient.message ∧
    (.buffered act.recipient.message ∈ trace →
      act.recipient.message.packet.qos = .exactlyOnce) ∧
    ∀ r c, act = .deliver r (some c) → c.recipient = r ∧ QosOk c

def ReplayInv (f : InboundPublishFlow) (air : List Received) : Prop :=
  Conserves f.received f air ∧ ∀ act ∈ f.reader.acts, ActSafe f.received f.trace act

theorem Conserves.congr {n : Nat} {f f' : InboundPublishFlow} {air : List Received}
    (h : Conserves n f air) (htrace : f'.trace = f.trace) (hbuffers : f'.buffers = f.buffers)
    (hmessages : f'.messages = f.messages)
    (hflights : f'.inflightQos2In = f.inflightQos2In) : Conserves n f' air := by
  have hheld : ∀ m, f'.heldCount m = f.heldCount m := fun m => by
    rw [heldCount, hbuffers]
    rfl
  refine ⟨?_, ?_, ?_, ?_, ?_, ?_⟩
  · simp only [htrace, hheld]; exact h.once
  · simp only [htrace, hheld]; exact h.unknown
  · rw [htrace]; exact h.old
  · rw [htrace]; exact h.sent
  · rw [htrace, hmessages]; exact h.messages
  · rw [htrace, hflights]; exact h.flights

theorem Backed.mono {n n' : Nat} {trace trace' : List TraceEntry} {m : Received}
    (h : Backed n trace m) (hn : n ≤ n')
    (hbuffered : .buffered m ∈ trace' → .buffered m ∈ trace)
    (hhanded : handedOn trace m ≤ handedOn trace' m) : Backed n' trace' m :=
  ⟨Nat.lt_of_lt_of_le h.1 hn, fun hb => Nat.lt_of_lt_of_le (h.2 (hbuffered hb)) hhanded⟩

theorem Backed.cons {n : Nat} {trace : List TraceEntry} {m : Received} (h : Backed n trace m)
    {entry : TraceEntry} (hentry : entry ≠ .buffered m) : Backed n (entry :: trace) m := by
  refine h.mono (Nat.le_refl n) (fun hb => ?_) ?_
  · rcases List.mem_cons.1 hb with he | hb
    · exact absurd he.symm hentry
    · exact hb
  · rw [handedOn_cons]
    exact Nat.le_add_right _ _

/-- The entry adds nothing to the account of a message of the buffer. -/
def Neutral (n : Nat) (trace : List TraceEntry) : TraceEntry → Prop
  | .buffered _ | .dropped _ => False
  | .sent _ _ r => Backed n trace r.message
  | .started r => r.message.num < n ∧ .buffered r.message ∉ trace
  | .enqueued _ m | .requested _ m =>
      m.num < n ∧ (.buffered m ∈ trace → m.packet.qos = .exactlyOnce)
  | .publish _ | .pubrel _ | .acked _ => True

theorem Neutral.not_buffered {n : Nat} {trace : List TraceEntry} {entry : TraceEntry}
    (h : Neutral n trace entry) (m : Received) : entry ≠ .buffered m ∧ entry ≠ .dropped m := by
  constructor <;> rintro rfl <;> exact h

theorem Neutral.handsOn {n : Nat} {trace : List TraceEntry} {entry : TraceEntry}
    (h : Neutral n trace entry) {m : Received} (hon : entry.handsOn m = true) :
    m.num < n ∧ .buffered m ∉ trace := by
  cases entry with
  | started r =>
    obtain rfl : r.message = m := of_decide_eq_true hon
    exact h
  | enqueued queue m' =>
    obtain ⟨rfl, hqos⟩ := of_decide_eq_true hon
    exact ⟨h.1, fun hb => hqos (h.2 hb)⟩
  | requested request m' =>
    obtain ⟨rfl, hqos⟩ := of_decide_eq_true hon
    exact ⟨h.1, fun hb => hqos (h.2 hb)⟩
  | publish _ => cases hon
  | pubrel _ => cases hon
  | buffered _ => cases hon
  | dropped _ => cases hon
  | acked _ => cases hon
  | sent _ _ _ => cases hon

/-! ## Operations -/

/-- The parts of the invariant about the tables, after new entries. -/
theorem Conserves.of_counts {n : Nat} {f f' : InboundPublishFlow} {air air' : List Received}
    (h : Conserves n f air) {entry : TraceEntry} (htrace : f'.trace = entry :: f.trace)
    (hmessages : f'.messages = f.messages) (hflights : f'.inflightQos2In = f.inflightQos2In)
    (hentry : ∀ m, entry ≠ .buffered m)
    (hsent : ∀ kind pid r, entry = .sent kind pid r → Backed n f.trace r.message)
    (hold : ∀ m, entry.handsOn m = true → m.num < n)
    (honce : ∀ m, .buffered m ∈ f.trace →
      f'.heldCount m + air'.count m + handedOn f'.trace m + droppedCount f'.trace m = 1)
    (hunknown : ∀ m, .buffered m ∉ f.trace →
      f'.heldCount m + air'.count m + droppedCount f'.trace m = 0) :
    Conserves n f' air' := by
  have hback : ∀ m, .buffered m ∈ f'.trace ↔ .buffered m ∈ f.trace := by
    intro m
    rw [htrace, List.mem_cons]
    exact ⟨fun hb => hb.resolve_left fun he => hentry m he.symm, Or.inr⟩
  have hkeep : ∀ m, Backed n f.trace m → Backed n f'.trace m := fun m hm => by
    rw [htrace]
    exact hm.cons (hentry m)
  refine ⟨?_, ?_, ?_, ?_, ?_, ?_⟩
  · intro m hb
    exact honce m ((hback m).1 hb)
  · intro m hb
    exact hunknown m fun hb' => hb ((hback m).2 hb')
  · intro m hm
    rcases hm with hb | hpos
    · exact h.old m (Or.inl ((hback m).1 hb))
    · rw [htrace, handedOn_cons] at hpos
      by_cases hon : entry.handsOn m = true
      · exact hold m hon
      · rw [if_neg hon, Nat.add_zero] at hpos
        exact h.old m (Or.inr hpos)
  · intro kind pid r hs
    refine hkeep _ ?_
    rw [htrace] at hs
    rcases List.mem_cons.1 hs with he | hs
    · exact hsent kind pid r he.symm
    · exact h.sent kind pid r hs
  · rw [hmessages]
    intro message hm c hc
    exact ⟨hkeep _ (h.messages message hm c hc).1, (h.messages message hm c hc).2⟩
  · rw [hflights]
    intro pid flight hf
    exact ⟨hkeep _ (h.flights pid flight hf).1, (h.flights pid flight hf).2⟩

theorem droppedCount_cons {entry : TraceEntry} {trace : List TraceEntry} {m : Received}
    (h : entry ≠ .dropped m) : droppedCount (entry :: trace) m = droppedCount trace m :=
  List.count_cons_of_ne h

theorem Conserves.log {n : Nat} {f : InboundPublishFlow} {air : List Received}
    (h : Conserves n f air) {entry : TraceEntry} (hentry : Neutral n f.trace entry) :
    Conserves n (f.log entry) air := by
  have hdrop : ∀ m, droppedCount (f.log entry).trace m = droppedCount f.trace m := fun m =>
    droppedCount_cons (hentry.not_buffered m).2
  refine h.of_counts rfl rfl rfl (fun m => (hentry.not_buffered m).1) ?_
    (fun m hon => (hentry.handsOn hon).1) ?_ ?_
  · rintro kind pid r rfl
    exact hentry
  · intro m hb
    have hhand : handedOn (f.log entry).trace m = handedOn f.trace m := by
      rw [InboundPublishFlow.log, handedOn_cons, if_neg fun hon => (hentry.handsOn hon).2 hb]
      rfl
    rw [hhand, hdrop]
    exact h.once m hb
  · intro m hb
    rw [hdrop]
    exact h.unknown m hb

/-- The message the running task holds is handed on. -/
theorem Conserves.handOn {n : Nat} {f : InboundPublishFlow} {air : List Received}
    {m : Received} (h : Conserves n f (m :: air)) (entry : TraceEntry)
    (hon : ∀ m', entry.handsOn m' = decide (m = m')) :
    Conserves n (f.log entry) air ∧ Backed n (f.log entry).trace m := by
  have hm : .buffered m ∈ f.trace := by
    by_contra hb
    have hzero := h.unknown m hb
    rw [List.count_cons_self] at hzero
    omega
  have hself : entry.handsOn m = true := by rw [hon, decide_eq_true rfl]
  have hne : (∀ m', entry ≠ .buffered m') ∧ (∀ m', entry ≠ .dropped m') ∧
      ∀ kind pid r, entry ≠ .sent kind pid r := by
    refine ⟨?_, ?_, ?_⟩
    · rintro m' rfl; cases hself
    · rintro m' rfl; cases hself
    · rintro kind pid r rfl; cases hself
  have hhand : ∀ m', handedOn (f.log entry).trace m' =
      handedOn f.trace m' + if m = m' then 1 else 0 := by
    intro m'
    rw [InboundPublishFlow.log, handedOn_cons, hon]
    simp only [decide_eq_true_eq]
  have hdrop : ∀ m', droppedCount (f.log entry).trace m' = droppedCount f.trace m' := fun m' =>
    droppedCount_cons (hne.2.1 m')
  refine ⟨?_, h.old m (Or.inl hm), fun _ => ?_⟩
  · refine h.of_counts rfl rfl rfl hne.1 (fun kind pid r he => absurd he (hne.2.2 kind pid r))
      (fun m' hon' => ?_) ?_ ?_
    · rw [hon] at hon'
      obtain rfl := of_decide_eq_true hon'
      exact h.old m (Or.inl hm)
    · intro m' hb
      have honce := h.once m' hb
      rw [List.count_cons] at honce
      rw [hhand, hdrop]
      have hheld : (f.log entry).heldCount m' = f.heldCount m' := rfl
      simp only [beq_iff_eq] at honce
      omega
    · intro m' hb
      have hzero := h.unknown m' hb
      have hne' : m ≠ m' := fun he => hb (he ▸ hm)
      rw [List.count_cons_of_ne hne'] at hzero
      rw [hdrop]
      exact hzero
  · rw [hhand, if_pos rfl]
    exact Nat.succ_pos _

/-- Messages move between object `i` and the running task, or are dropped. -/
theorem Conserves.move {n : Nat} {f : InboundPublishFlow} {air air' ms : List Received}
    (h : Conserves n f air) {i : Nat} {b b' : Buffered} (hb : f.buffers[i]? = some b)
    (hcount : ∀ m, b'.held.count m + air'.count m + ms.count m =
      b.held.count m + air.count m) :
    Conserves n ((f.logDropped ms).setBuffer i b') air' := by
  have hheld : ∀ m, ((f.logDropped ms).setBuffer i b').heldCount m + b.held.count m =
      f.heldCount m + b'.held.count m := fun m => heldCount_setBuffer hb b' m
  have hhand : ∀ m, handedOn ((f.logDropped ms).setBuffer i b').trace m = handedOn f.trace m :=
    handedOn_map_dropped ms f.trace
  have hdrop : ∀ m, droppedCount ((f.logDropped ms).setBuffer i b').trace m =
      ms.count m + droppedCount f.trace m := droppedCount_map_dropped ms f.trace
  have hback : ∀ m, .buffered m ∈ ((f.logDropped ms).setBuffer i b').trace ↔
      .buffered m ∈ f.trace := fun m => buffered_mem_map_dropped
  have hkeep : ∀ m, Backed n f.trace m →
      Backed n ((f.logDropped ms).setBuffer i b').trace m := fun m hm =>
    hm.mono (Nat.le_refl n) (hback m).1 (Nat.le_of_eq (hhand m).symm)
  refine ⟨?_, ?_, ?_, ?_, ?_, ?_⟩
  · intro m hm
    have honce := h.once m ((hback m).1 hm)
    have hc := hcount m
    have hh := hheld m
    rw [hhand, hdrop]
    omega
  · intro m hm
    have hzero := h.unknown m fun hb' => hm ((hback m).2 hb')
    have hc := hcount m
    have hh := hheld m
    rw [hdrop]
    omega
  · intro m hm
    rw [hback, hhand] at hm
    exact h.old m hm
  · intro kind pid r hs
    refine hkeep _ (h.sent kind pid r ?_)
    rcases List.mem_append.1 hs with hs | hs
    · obtain ⟨m, -, he⟩ := List.mem_map.1 hs
      cases he
    · exact hs
  · intro message hm c hc
    exact ⟨hkeep _ (h.messages message hm c hc).1, (h.messages message hm c hc).2⟩
  · intro pid flight hf
    exact ⟨hkeep _ (h.flights pid flight hf).1, (h.flights pid flight hf).2⟩

theorem Conserves.move_nothing {n : Nat} {f : InboundPublishFlow} {air air' : List Received}
    (h : Conserves n f air) {i : Nat} {b b' : Buffered} (hb : f.buffers[i]? = some b)
    (hcount : ∀ m, b'.held.count m + air'.count m = b.held.count m + air.count m) :
    Conserves n (f.setBuffer i b') air' :=
  @Conserves.move n f air air' [] h i b b' hb fun m => by
    rw [List.count_nil, Nat.add_zero]
    exact hcount m

/-- A message is put into a queue. -/
theorem Conserves.addMessage {n : Nat} {f f' : InboundPublishFlow} {air : List Received}
    (h : Conserves n f air) {message : Message} (htrace : f'.trace = f.trace)
    (hbuffers : f'.buffers = f.buffers) (hmessages : f'.messages = f.messages ++ [message])
    (hflights : f'.inflightQos2In = f.inflightQos2In)
    (hcallback : ∀ c, message.ackCallback = some c →
      Backed n f.trace c.recipient.message ∧ QosOk c) :
    Conserves n f' air := by
  have h' : Conserves n { f' with messages := f.messages } air :=
    h.congr htrace hbuffers rfl hflights
  refine ⟨h'.once, h'.unknown, h'.old, h'.sent, ?_, h'.flights⟩
  rw [hmessages, htrace]
  intro other hother c hc
  rcases List.mem_append.1 hother with hother | hother
  · exact h.messages other hother c hc
  · rw [List.mem_singleton.1 hother] at hc
    exact hcallback c hc

theorem Conserves.setFlight {n : Nat} {f f' : InboundPublishFlow} {air : List Received}
    (h : Conserves n f air) {pid : Int} {flight : InboundQoS2Flight} (htrace : f'.trace = f.trace)
    (hbuffers : f'.buffers = f.buffers) (hmessages : f'.messages = f.messages)
    (hflights : f'.inflightQos2In = f.inflightQos2In.set pid flight)
    (hback : Backed n f.trace flight.recipient.message)
    (hqos : flight.recipient.message.packet.qos = .exactlyOnce) : Conserves n f' air := by
  have h' : Conserves n { f' with inflightQos2In := f.inflightQos2In } air :=
    h.congr htrace hbuffers hmessages rfl
  refine ⟨h'.once, h'.unknown, h'.old, h'.sent, h'.messages, ?_⟩
  rw [hflights, htrace]
  intro pid' flight' hf
  rw [Dict.get?_set] at hf
  split at hf
  · obtain rfl := Option.some.inj hf
    exact ⟨hback, hqos⟩
  · exact h.flights pid' flight' hf

/-! ## Deliveries -/

/-- New entries, none of which takes a message into the buffer. -/
def Extends (trace trace' : List TraceEntry) : Prop :=
  ∃ new, trace' = new ++ trace ∧ ∀ m, .buffered m ∉ new

theorem Extends.cons {trace : List TraceEntry} {entry : TraceEntry}
    (h : ∀ m, entry ≠ .buffered m) : Extends trace (entry :: trace) :=
  ⟨[entry], rfl, fun m hm => h m (List.mem_singleton.1 hm).symm⟩

theorem Extends.refl (trace : List TraceEntry) : Extends trace trace :=
  ⟨[], rfl, fun _ hm => by cases hm⟩

theorem Extends.trans {trace trace' trace'' : List TraceEntry} (h : Extends trace trace')
    (h' : Extends trace' trace'') : Extends trace trace'' := by
  obtain ⟨new, rfl, hnew⟩ := h
  obtain ⟨new', rfl, hnew'⟩ := h'
  refine ⟨new' ++ new, (List.append_assoc _ _ _).symm, fun m hm => ?_⟩
  rcases List.mem_append.1 hm with hm | hm
  · exact hnew' m hm
  · exact hnew m hm

theorem Extends.buffered {trace trace' : List TraceEntry} (h : Extends trace trace')
    {m : Received} (hm : .buffered m ∈ trace') : .buffered m ∈ trace := by
  obtain ⟨new, rfl, hnew⟩ := h
  exact (List.mem_append.1 hm).resolve_left (hnew m)

theorem Extends.backed {n : Nat} {trace trace' : List TraceEntry} (h : Extends trace trace')
    {m : Received} (hm : Backed n trace m) : Backed n trace' m := by
  refine hm.mono (Nat.le_refl n) h.buffered ?_
  obtain ⟨new, rfl, -⟩ := h
  rw [handedOn, handedOn, List.countP_append]
  exact Nat.le_add_left _ _

theorem Extends.actSafe {n : Nat} {trace trace' : List TraceEntry} (h : Extends trace trace')
    {act : Act} (hact : ActSafe n trace act) : ActSafe n trace' act :=
  ⟨h.backed hact.1, fun hb => hact.2.1 (h.buffered hb), hact.2.2⟩

theorem extends_handOver (f : InboundPublishFlow) (r : InboundRecipient)
    (callback : Option AckCallback) : Extends f.trace (f.handOver r callback).trace := by
  rcases f.handOver_cases r callback with ⟨-, he⟩ | ⟨request, -, he⟩ | ⟨filter, entry, -, -, he⟩ <;>
    rw [he]
  · exact Extends.refl _
  · exact Extends.cons fun m => by simp
  · exact Extends.cons fun m => by simp

theorem HandsOn.extends {f f' : InboundPublishFlow} {r : InboundRecipient}
    (h : HandsOn f r f') : Extends f.trace f'.trace := by
  have hstart : Extends f.trace (f.log (.started r)).trace := Extends.cons fun m => by simp
  cases h with
  | qos0 _ => exact f.extends_handOver r _
  | qos1Auto pid _ => exact (f.extends_handOver r _).trans (Extends.cons fun m => by simp)
  | qos1Manual pid _ _ => exact f.extends_handOver r _
  | qos2Auto pid _ _ _ => exact hstart.trans (Extends.cons fun m => by simp)
  | qos2Manual pid _ _ _ => exact hstart.trans ((f.startManual pid r).extends_handOver r _)

/-- A delivery that hands on no message of the buffer. -/
theorem Conserves.handOver {n : Nat} {f : InboundPublishFlow} {air : List Received}
    (h : Conserves n f air) {r : InboundRecipient} {callback : Option AckCallback}
    (hnum : r.message.num < n)
    (hqos : .buffered r.message ∈ f.trace → r.message.packet.qos = .exactlyOnce)
    (hcallback : ∀ c, callback = some c → Backed n f.trace c.recipient.message ∧ QosOk c) :
    Conserves n (f.handOver r callback) air := by
  rcases f.handOver_cases r callback with ⟨-, he⟩ | ⟨request, -, he⟩ | ⟨filter, entry, -, -, he⟩ <;>
    rw [he]
  · exact h
  · exact h.log ⟨hnum, hqos⟩
  · have hlog : Conserves n (f.log (.enqueued entry.queue r.message)) air := h.log ⟨hnum, hqos⟩
    refine hlog.addMessage rfl rfl rfl rfl fun c hc => ?_
    dsimp only at hc
    split at hc
    · cases hc
    · exact ⟨(hcallback c hc).1.cons (by simp), (hcallback c hc).2⟩

/-- The delivery of a message of the buffer below QoS 2. -/
theorem Conserves.handOverHeld {n : Nat} {f : InboundPublishFlow} {air : List Received}
    {r : InboundRecipient} (h : Conserves n f (r.message :: air)) (hsome : r.isNobody = false)
    (hqos : r.message.packet.qos ≠ .exactlyOnce) {callback : Option AckCallback}
    (hcallback : ∀ c, callback = some c → c.recipient = r ∧ QosOk c) :
    Conserves n (f.handOver r callback) air ∧ Backed n (f.handOver r callback).trace r.message := by
  rcases f.handOver_cases r callback with ⟨hnobody, -⟩ | ⟨request, -, he⟩ | ⟨filter, entry, -, -, he⟩
  · rw [hsome] at hnobody
    cases hnobody
  · rw [he]
    exact h.handOn (.requested request r.message) fun m' => handsOn_of_qos hqos m'
  · rw [he]
    have hlog := h.handOn (.enqueued entry.queue r.message) fun m' => handsOn_of_qos hqos m'
    refine ⟨hlog.1.addMessage rfl rfl rfl rfl fun c hc => ?_, hlog.2⟩
    dsimp only at hc
    split at hc
    · cases hc
    · rw [(hcallback c hc).1]
      exact ⟨hlog.2, (hcallback c hc).2⟩

theorem Conserves.handsOn {n : Nat} {f f' : InboundPublishFlow} {air : List Received}
    {r : InboundRecipient} (h : Conserves n f (r.message :: air)) (hsome : r.isNobody = false)
    (hands : HandsOn f r f') : Conserves n f' air := by
  have hstart := h.handOn (.started r) fun m' => rfl
  cases hands with
  | qos0 hqos => exact (h.handOverHeld hsome (by rw [hqos]; simp) no_callback_ok).1
  | qos1Auto pid hqos =>
    obtain ⟨hover, hback⟩ := h.handOverHeld hsome (by rw [hqos]; simp) no_callback_ok
    exact hover.log hback
  | qos1Manual pid hqos _ =>
    exact (h.handOverHeld hsome (by rw [hqos]; simp) (by rintro c ⟨rfl⟩; exact ⟨rfl, trivial⟩)).1
  | qos2Auto pid hqos _ _ =>
    have hset : Conserves n (f.startAuto pid r) air :=
      hstart.1.setFlight rfl rfl rfl rfl hstart.2 hqos
    exact hset.log hstart.2
  | qos2Manual pid hqos _ _ =>
    have hpend : Conserves n (f.startManual pid r) air := hstart.1.congr rfl rfl rfl rfl
    exact hpend.handOver hstart.2.1 (fun _ => hqos) (by rintro c ⟨rfl⟩; exact ⟨hstart.2, hqos⟩)

/-! ## Packets -/

theorem Conserves.mono {n n' : Nat} {f : InboundPublishFlow} {air : List Received}
    (h : Conserves n f air) (hn : n ≤ n') : Conserves n' f air := by
  have hkeep : ∀ m, Backed n f.trace m → Backed n' f.trace m := fun m hm =>
    hm.mono hn id (Nat.le_refl _)
  refine ⟨h.once, h.unknown, fun m hm => Nat.lt_of_lt_of_le (h.old m hm) hn, ?_, ?_, ?_⟩
  · intro kind pid r hs
    exact hkeep _ (h.sent kind pid r hs)
  · intro message hm c hc
    exact ⟨hkeep _ (h.messages message hm c hc).1, (h.messages message hm c hc).2⟩
  · intro pid flight hf
    exact ⟨hkeep _ (h.flights pid flight hf).1, (h.flights pid flight hf).2⟩

/-- A new message is taken into the buffer. -/
theorem Conserves.takeIn {n : Nat} {f f' : InboundPublishFlow} {air : List Received}
    (h : Conserves n f air) {m : Received} (hn : n ≤ m.num)
    (htrace : f'.trace = .buffered m :: f.trace) (hmessages : f'.messages = f.messages)
    (hflights : f'.inflightQos2In = f.inflightQos2In)
    (hheld : ∀ m', f'.heldCount m' = f.heldCount m' + if m = m' then 1 else 0) :
    Conserves (m.num + 1) f' air := by
  have hnew : .buffered m ∉ f.trace := fun hb => by
    have hlt := h.old m (Or.inl hb)
    omega
  have hzero : handedOn f.trace m = 0 := by
    by_contra hne
    have hlt := h.old m (Or.inr (Nat.pos_of_ne_zero hne))
    omega
  have hback : ∀ m', .buffered m' ∈ f'.trace ↔ m = m' ∨ .buffered m' ∈ f.trace := by
    intro m'
    rw [htrace, List.mem_cons]
    refine or_congr ⟨fun he => ?_, fun he => by rw [he]⟩ Iff.rfl
    cases he
    rfl
  have hhand : ∀ m', handedOn f'.trace m' = handedOn f.trace m' := fun m' => by
    rw [htrace, handedOn_cons]
    rfl
  have hdrop : ∀ m', droppedCount f'.trace m' = droppedCount f.trace m' := fun m' => by
    rw [htrace]
    exact droppedCount_cons (by simp)
  have hkeep : ∀ m', Backed n f.trace m' → Backed (m.num + 1) f'.trace m' := by
    intro m' hm'
    refine hm'.mono (by omega) (fun hb => ((hback m').1 hb).resolve_left ?_) (hhand m').symm.le
    rintro rfl
    have hlt := hm'.1
    omega
  refine ⟨?_, ?_, ?_, ?_, ?_, ?_⟩
  · intro m' hb
    rw [hheld, hhand, hdrop]
    rcases (hback m').1 hb with rfl | hb
    · have hun := h.unknown m hnew
      rw [if_pos rfl]
      omega
    · have hne : ¬ m = m' := fun he => hnew (he ▸ hb)
      rw [if_neg hne]
      exact h.once m' hb
  · intro m' hb
    rw [hback, not_or] at hb
    rw [hheld, hdrop, if_neg hb.1]
    exact h.unknown m' hb.2
  · intro m' hm'
    rw [hback, hhand] at hm'
    rcases hm' with (rfl | hb) | hpos
    · exact Nat.lt_succ_self _
    · have hlt := h.old m' (Or.inl hb)
      omega
    · have hlt := h.old m' (Or.inr hpos)
      omega
  · intro kind pid r hs
    refine hkeep _ (h.sent kind pid r ?_)
    rw [htrace] at hs
    rcases List.mem_cons.1 hs with he | hs
    · cases he
    · exact hs
  · rw [hmessages]
    intro message hm c hc
    exact ⟨hkeep _ (h.messages message hm c hc).1, (h.messages message hm c hc).2⟩
  · rw [hflights]
    intro pid flight hf
    exact ⟨hkeep _ (h.flights pid flight hf).1, (h.flights pid flight hf).2⟩

theorem held_append (b : Buffered) (m : Received) (m' : Received) :
    (b.append m).held.count m' = b.held.count m' + if m = m' then 1 else 0 := by
  have hcount : [m].count m' = if m = m' then 1 else 0 := by
    rw [List.count_singleton]
    simp only [beq_iff_eq]
  simp only [Buffered.held, Buffered.append, List.count_append, hcount]
  omega

theorem Conserves.takesIn {n : Nat} {f f' : InboundPublishFlow} (h : Conserves n f [])
    {m : Received} (hn : n ≤ m.num) (htakes : TakesIn f m f') : Conserves (m.num + 1) f' [] := by
  cases htakes with
  | new _ =>
    refine h.takeIn hn rfl rfl rfl fun m' => ?_
    have hempty : ({} : Buffered).held.count m' = 0 := rfl
    rw [heldCount, List.map_append, List.sum_append, List.map_singleton, List.sum_singleton,
      held_append, hempty, Nat.zero_add]
    rfl
  | old i b _ hb _ _ =>
    refine h.takeIn hn rfl rfl rfl fun m' => ?_
    have hset := heldCount_setBuffer hb (b.append m) m'
    rw [held_append] at hset
    have hlog : ((f.setBuffer i (b.append m)).log (.buffered m)).heldCount m' =
        (f.setBuffer i (b.append m)).heldCount m' := rfl
    omega

/-- An await for a message that was never in the buffer. -/
theorem actSafe_new {trace : List TraceEntry} {m : Received} {act : Act}
    (hmsg : act.recipient.message = m) (hnew : .buffered m ∉ trace)
    (hc : ∀ r c, act = .deliver r (some c) → c.recipient = r ∧ QosOk c) :
    ActSafe (m.num + 1) trace act := by
  refine ⟨?_, fun hb => ?_, hc⟩
  · rw [hmsg]
    exact ⟨Nat.lt_succ_self _, fun hb => absurd hb hnew⟩
  · rw [hmsg] at hb
    exact absurd hb hnew

theorem Conserves.handles {f f' : InboundPublishFlow} {env : Environment} {m : Received}
    {acts : List Act} (h : Conserves m.num f []) (hands : Handles f env m f' acts) :
    Conserves (m.num + 1) f' [] ∧ ∀ act ∈ acts, ActSafe (m.num + 1) f'.trace act := by
  have hnew : .buffered m ∉ f.trace := fun hb => Nat.lt_irrefl _ (h.old m (Or.inl hb))
  have h' := h.mono (Nat.le_succ m.num)
  have hmsg := f.message_selectRecipient env m
  have hnew' : .buffered m ∉ (f.log (.started (f.selectRecipient env m))).trace := fun hb => by
    rcases List.mem_cons.1 hb with he | hb
    · cases he
    · exact hnew hb
  have hstart : Conserves (m.num + 1) (f.log (.started (f.selectRecipient env m))) [] := by
    refine h'.log ?_
    rw [Neutral, hmsg]
    exact ⟨Nat.lt_succ_self _, hnew⟩
  cases hands with
  | ignored => exact ⟨h', fun act hact => by cases hact⟩
  | takesIn htakes _ => exact ⟨h.takesIn (Nat.le_refl _) htakes, fun act hact => by cases hact⟩
  | qos0 _ =>
    refine ⟨h', List.forall_mem_singleton.2 ?_⟩
    exact actSafe_new hmsg hnew (by rintro r c ⟨⟩)
  | qos1Auto pid _ =>
    refine ⟨h', List.forall_mem_cons.2 ⟨?_, List.forall_mem_singleton.2 ?_⟩⟩
    · exact actSafe_new hmsg hnew (by rintro r c ⟨⟩)
    · exact actSafe_new hmsg hnew (by rintro r c ⟨⟩)
  | qos1Manual pid _ _ =>
    refine ⟨h', List.forall_mem_singleton.2 ?_⟩
    exact actSafe_new hmsg hnew (by rintro r c ⟨⟩; exact ⟨rfl, trivial⟩)
  | qos2Again pid flight _ _ hflight =>
    obtain ⟨hback, hqos⟩ := h'.flights pid flight hflight
    exact ⟨h', List.forall_mem_singleton.2 ⟨hback, fun _ => hqos, by rintro r c ⟨⟩⟩⟩
  | qos2Auto pid hqos _ _ _ =>
    have hact : ActSafe (m.num + 1) _ (.send .pubrec pid (f.selectRecipient env m)) :=
      actSafe_new hmsg hnew' (by rintro r c ⟨⟩)
    refine ⟨?_, List.forall_mem_singleton.2 hact⟩
    exact hstart.setFlight rfl rfl rfl rfl hact.1 (by rw [hmsg]; exact hqos)
  | qos2Manual pid hqos _ _ _ =>
    refine ⟨hstart.congr rfl rfl rfl rfl, List.forall_mem_singleton.2 ?_⟩
    refine actSafe_new hmsg hnew' ?_
    rintro r c ⟨⟩
    refine ⟨rfl, ?_⟩
    rw [QosOk, hmsg]
    exact hqos

/-! ## Steps -/

theorem ReplayInv.move {f : InboundPublishFlow} {air air' : List Received}
    (h : ReplayInv f air) {i : Nat} {b b' : Buffered} (hb : f.buffers[i]? = some b)
    (hcount : ∀ m, b'.held.count m + air'.count m = b.held.count m + air.count m) :
    ReplayInv (f.setBuffer i b') air' :=
  ⟨h.1.move_nothing hb hcount, h.2⟩

theorem ReplayInv.drop {f : InboundPublishFlow} {air air' ms : List Received}
    (h : ReplayInv f air) {i : Nat} {b b' : Buffered} (hb : f.buffers[i]? = some b)
    (hcount : ∀ m, b'.held.count m + air'.count m + ms.count m =
      b.held.count m + air.count m) :
    ReplayInv ((f.logDropped ms).setBuffer i b') air' := by
  refine ⟨h.1.move hb hcount, fun act hact => Extends.actSafe ?_ (h.2 act hact)⟩
  exact ⟨ms.map TraceEntry.dropped, rfl, fun m hm => by simp at hm⟩

theorem ReplayInv.congr {f f' : InboundPublishFlow} {air : List Received} (h : ReplayInv f air)
    (htrace : f'.trace = f.trace) (hbuffers : f'.buffers = f.buffers)
    (hmessages : f'.messages = f.messages) (hflights : f'.inflightQos2In = f.inflightQos2In)
    (hreceived : f'.received = f.received) (hreader : f'.reader = f.reader) :
    ReplayInv f' air := by
  rw [ReplayInv, hreceived, hreader, htrace]
  exact ⟨h.1.congr htrace hbuffers hmessages hflights, h.2⟩

theorem held_of_holder_none {b : Buffered} (h : b.holder = none) : b.held = b.publishes := by
  rw [Buffered.held, h, List.append_nil]

theorem count_held_putBack {b : Buffered} (h : b.holder = none) (ms : List Received)
    (m : Received) : (b.putBack ms).held.count m = b.held.count m + ms.count m := by
  rw [held_of_holder_none h, held_of_holder_none rfl, Buffered.putBack, List.count_append]
  omega

theorem HandsOn.received {f f' : InboundPublishFlow} {r : InboundRecipient}
    (h : HandsOn f r f') : f'.received = f.received := by
  cases h with
  | qos0 _ => exact (f.sameTables_handOver r _).received
  | qos1Auto pid _ => exact (f.sameTables_handOver r _).received
  | qos1Manual pid _ _ => exact (f.sameTables_handOver r _).received
  | qos2Auto pid _ _ _ => rfl
  | qos2Manual pid _ _ _ => exact ((f.startManual pid r).sameTables_handOver r _).received

theorem replayInv_drainRule (i : Nat) :
    DrainRule (fun f => ReplayInv f []) ReplayInv ReplayInv (fun f air _ => ReplayInv f air) i where
  start f b waiters h hb _ := h.move hb fun m => rfl
  wake f b d h hb hd _ := by
    refine h.move hb fun m => ?_
    simp only [Buffered.held, hd, List.count_append, List.count_nil]
    omega
  perm f a b hab h :=
    ⟨⟨fun m hm => by rw [← hab.count_eq m]; exact h.1.once m hm,
      fun m hm => by rw [← hab.count_eq m]; exact h.1.unknown m hm,
      h.1.old, h.1.sent, h.1.messages, h.1.flights⟩, h.2⟩
  refill f b air h hb := by
    refine h.move hb.1 fun m => ?_
    simp only [Buffered.held, hb.2, List.count_append, List.count_nil]
    omega
  handsOn f f' r air h hsome hands := by
    rw [ReplayInv, hands.received, hands.reader]
    exact ⟨h.1.handsOn hsome hands, fun act hact => hands.extends.actSafe (h.2 act hact)⟩
  discarded f b air m h hb _ := h.move hb.1 fun m' => by rw [held_discard]
  keyError f b air m h hb _ := h.move hb.1 fun m' => by rw [held_discard]
  valueError f air h := h
  suspend f b caller unmatched pending m h hb := by
    refine h.move hb.1 fun m' => ?_
    simp only [Buffered.held, hb.2, List.count_append, List.count_nil]
    omega
  fail f b caller unmatched pending h hb := by
    refine h.move hb.1 fun m' => ?_
    rw [(sameContents_endExpiration _ _).held, count_held_putBack hb.2]
    rfl
  drained f b unmatched h hb := by
    unfold finishDrain
    split
    · obtain ⟨replay, he⟩ := leaveBuffer_eq (f.setBuffer i _) i .idle
      rw [he]
      have hmove : ReplayInv (f.setBuffer i (b.putBack unmatched).cancelExpiration) [] := by
        refine h.move hb.1 fun m => ?_
        rw [(sameContents_cancelExpiration _).held, count_held_putBack hb.2]
        rfl
      exact hmove.congr rfl rfl rfl rfl rfl rfl
    · exact h.move hb.1 fun m => by rw [count_held_putBack hb.2]; rfl
  expired f b unmatched h hb := by
    unfold finishExpire
    obtain ⟨replay, he⟩ := leaveBuffer_eq ((f.logDropped _).setBuffer i _) i _
    rw [he]
    have hdrop : ReplayInv ((f.logDropped (b.putBack unmatched).publishes).setBuffer i
        ((b.putBack unmatched).empty.endExpiration .expire)) [] := by
      refine h.drop hb.1 fun m => ?_
      have hempty : (b.putBack unmatched).empty.held = [] := rfl
      rw [(sameContents_endExpiration _ _).held, hempty, held_of_holder_none hb.2,
        Buffered.putBack, List.count_append, List.count_nil]
      omega
    exact hdrop.congr rfl rfl rfl rfl rfl rfl

theorem Conserves.runReader {f : InboundPublishFlow} {acts : List Act} (env : Environment)
    (h : Conserves f.received f []) (hacts : ∀ act ∈ acts, ActSafe f.received f.trace act) :
    ReplayInv (f.runReader env acts) [] := by
  refine @runReader_induct (fun f => ReplayInv f [])
    (fun f acts => Conserves f.received f [] ∧
      ∀ act ∈ acts, ActSafe f.received f.trace act) ?_ ?_ ?_ ?_ env acts f ⟨h, hacts⟩
  · intro f kind pid r acts hP
    rw [List.forall_mem_cons] at hP
    refine ⟨hP.1.log hP.2.1.1, fun act hact => ?_⟩
    exact Extends.actSafe (Extends.cons fun m => by simp) (hP.2.2 act hact)
  · intro f r callback acts hP _
    rw [List.forall_mem_cons] at hP
    obtain ⟨hcons, hact, hrest⟩ := hP
    rw [(f.sameTables_handOver r callback).received]
    refine ⟨hcons.handOver hact.1.1 hact.2.1 fun c hc => ?_, fun act hmem => ?_⟩
    · obtain ⟨hrec, hqos⟩ := hact.2.2 r c (by rw [hc])
      rw [hrec]
      exact ⟨hact.1, hqos⟩
    · exact (f.extends_handOver r callback).actSafe (hrest act hmem)
  · intro f hP
    exact ⟨hP.1.congr rfl rfl rfl rfl, fun act hact => by cases hact⟩
  · intro f acts hP
    exact ⟨hP.1.congr rfl rfl rfl rfl, hP.2⟩

theorem ReplayInv.receivePubrel {f : InboundPublishFlow} (h : ReplayInv f []) (env : Environment)
    (pid : Int) : ReplayInv (f.receivePubrel env pid) [] := by
  unfold InboundPublishFlow.receivePubrel
  split
  · have hlog : Conserves f.received (f.log (.pubrel pid)) [] := h.1.log trivial
    rw [handlePubrel]
    split
    · exact ⟨hlog.congr rfl rfl rfl rfl, fun act hact => by cases hact⟩
    · next flight hflight =>
      obtain ⟨hback, hqos⟩ := hlog.flights pid flight hflight
      have hpop : Conserves f.received ((f.log (.pubrel pid)).popFlight pid) [] := by
        refine ⟨hlog.once, hlog.unknown, hlog.old, hlog.sent, hlog.messages, ?_⟩
        intro pid' flight' hf
        rw [popFlight, Dict.get?_pop] at hf
        split at hf
        · cases hf
        · exact hlog.flights pid' flight' hf
      refine hpop.runReader env (List.forall_mem_cons.2 ⟨⟨hback, fun _ => hqos, ?_⟩, ?_⟩)
      · rintro r c ⟨⟩
      · intro act hact
        split at hact
        · cases hact
        · rw [List.mem_singleton.1 hact]
          exact ⟨hback, fun _ => hqos, by rintro r c ⟨⟩⟩
  all_goals exact h

theorem qosOk_markAcked {callback : Option AckCallback} {c c' : AckCallback}
    (hc : callback = some c) (hqos : QosOk c) (h : markAcked callback = some c') :
    c'.recipient = c.recipient ∧ QosOk c' := by
  subst hc
  cases c <;> cases h <;> exact ⟨rfl, hqos⟩

theorem ReplayInv.ack {f : InboundPublishFlow} (h : ReplayInv f []) (k : Nat) :
    ReplayInv (f.ack k) [] := by
  unfold InboundPublishFlow.ack
  split
  · exact h
  · next message hmsg =>
    split
    · exact h
    · have hmem := List.mem_of_getElem? hmsg
      have hlog : Conserves f.received (f.log (.acked message.received)) [] := h.1.log trivial
      have hext : Extends f.trace (f.log (.acked message.received)).trace :=
        Extends.cons fun m => by simp
      have hmarked : Conserves f.received { f with
          messages := f.messages.set k
            { message with resolved := true, ackCallback := markAcked message.ackCallback }
          trace := .acked message.received :: f.trace } [] := by
        refine ⟨hlog.once, hlog.unknown, hlog.old, hlog.sent, fun other hother c hc => ?_,
          hlog.flights⟩
        rcases List.mem_or_eq_of_mem_set hother with hold | rfl
        · exact hlog.messages other hold c hc
        · obtain ⟨c', hc', -⟩ := recipient_markAcked hc
          obtain ⟨hback, hqos⟩ := hlog.messages message hmem c' hc'
          obtain ⟨hrec, hqos'⟩ := qosOk_markAcked hc' hqos hc
          rw [hrec]
          exact ⟨hback, hqos'⟩
      cases hc : message.ackCallback with
      | none =>
        rw [hc] at hmarked
        exact ⟨hmarked, fun act hact => hext.actSafe (h.2 act hact)⟩
      | some c =>
        obtain ⟨hback, hqos⟩ := hlog.messages message hmem c hc
        rw [hc] at hmarked
        have hsent : ∀ kind pid, Extends f.trace
            (.sent kind pid c.recipient :: .acked message.received :: f.trace) := fun kind pid =>
          hext.trans (Extends.cons fun m => by simp)
        cases c with
        | puback pid acked r =>
          rw [runCallback]
          split
          · exact ⟨hmarked, fun act hact => hext.actSafe (h.2 act hact)⟩
          · exact ⟨hmarked.log hback, fun act hact =>
              (hsent .puback pid).actSafe (h.2 act hact)⟩
        | pubrec pid r =>
          refine ⟨?_, fun act hact => (hsent .pubrec pid).actSafe (h.2 act hact)⟩
          refine (@Conserves.log _ _ _ hmarked (.sent .pubrec pid r) hback).setFlight rfl rfl rfl rfl ?_ hqos
          exact hback.cons (by simp)

theorem ReplayInv.waiting {f : InboundPublishFlow} (h : ReplayInv f []) {e : InboundEvent}
    (he : e = .drain ∨ (∃ i, e = .expire i) ∨ ∃ i k, e = .cancelWaiter i k) :
    ReplayInv (f.step e) [] := by
  rcases f.waiting_cases he with heq | ⟨i, b, b', hb, hsame, heq⟩ <;> rw [heq]
  · exact h
  · exact h.move hb fun m => by rw [hsame.held]

/-- No delivery of a drain or of an expiration is interrupted where it is suspended, in the
    write of the acknowledgement. -/
def deliveriesFinish (f : InboundPublishFlow) (e : InboundEvent) : Prop :=
  ∀ i b d, f.buffers[i]? = some b → b.holder = some d →
    e ≠ .interruptDelivery i ∧ ∀ env, e = .resumeDelivery i env → d.cancelled = false

theorem interruptDelivery_of_finish {f : InboundPublishFlow} {i : Nat}
    (h : f.deliveriesFinish (.interruptDelivery i)) : f.interruptDelivery i = f := by
  unfold interruptDelivery
  split
  · rfl
  · next b hb =>
    split
    · rfl
    · next d hd => exact absurd rfl (h i b d hb hd).1

theorem ReplayInv.step {f : InboundPublishFlow} {e : InboundEvent} (hidle : f.IdleRest)
    (h : ReplayInv f []) (hok : f.deliveriesFinish e) : ReplayInv (f.step e) [] := by
  cases e with
  | publish packet env =>
    rw [InboundPublishFlow.step, receivePublish]
    split
    · have hlog : Conserves f.received (f.log (.publish (f.nextReceived packet))) [] :=
        h.1.log trivial
      have hrec : Conserves (f.nextReceived packet).num (f.receive packet) [] :=
        hlog.congr rfl rfl rfl rfl
      unfold dispatch
      split
      · exact ⟨(hrec.mono (Nat.le_succ _)).congr rfl rfl rfl rfl, fun act hact => by cases hact⟩
      · next f' acts hhandle =>
        have hcases := handlePublish_cases hhandle
        obtain ⟨hcons, hacts⟩ := hrec.handles hcases
        have hnum : (f.nextReceived packet).num + 1 = f'.received := hcases.received.symm
        rw [hnum] at hcons hacts
        exact hcons.runReader env hacts
    all_goals exact h
  | pubrel pid env => exact h.receivePubrel env pid
  | resumeReader env =>
    rw [InboundPublishFlow.step, resumeReader]
    split
    · next acts hreader =>
      have hacts := h.2
      rw [hreader] at hacts
      exact h.1.runReader env hacts
    all_goals exact h
  | interruptReader =>
    rw [InboundPublishFlow.step, interruptReader]
    split
    · exact h
    all_goals exact ⟨h.1.congr rfl rfl rfl rfl, fun act hact => by cases hact⟩
  | ack k => exact h.ack k
  | get queue => exact h.congr rfl rfl rfl rfl rfl rfl
  | subscriptions index => exact h.congr rfl rfl rfl rfl rfl rfl
  | drain => exact h.waiting (Or.inl rfl)
  | expire i => exact h.waiting (Or.inr (Or.inl ⟨i, rfl⟩))
  | cancelWaiter i k => exact h.waiting (Or.inr (Or.inr ⟨i, k, rfl⟩))
  | acquireLock i env => exact (replayInv_drainRule i).acquireLock env h
  | resumeDelivery i env =>
    refine (replayInv_drainRule i).resumeDelivery env hidle h fun b d hb hd => ?_
    exact (hok i b d hb hd).2 env rfl
  | interruptDelivery i =>
    rw [InboundPublishFlow.step, interruptDelivery_of_finish hok]
    exact h
  | clear =>
    rw [InboundPublishFlow.step, clear]
    split
    · exact h
    · exact h.congr rfl rfl rfl rfl rfl rfl
    · next i _ =>
      split
      · exact h.congr rfl rfl rfl rfl rfl rfl
      · next b hb =>
        have hdrop : ReplayInv ((f.logDropped b.publishes).setBuffer i
            b.cancelExpiration.empty) [] := by
          refine h.drop hb fun m => ?_
          have hsame := sameContents_cancelExpiration b
          have hheld : b.cancelExpiration.held.count m = b.held.count m := by rw [hsame.held]
          have hpub := hsame.publishes
          simp only [Buffered.held, Buffered.empty, List.count_append, List.count_nil, hpub]
            at hheld ⊢
          omega
        exact hdrop.congr rfl rfl rfl rfl rfl rfl

/-! ## Runs -/

theorem replayInv_fresh (bufferSize : Nat) (maxsize : Nat → Nat) (sessionPresent : Bool) :
    ReplayInv (fresh bufferSize maxsize sessionPresent) [] := by
  refine ⟨⟨?_, fun _ _ => rfl, ?_, ?_, ?_, ?_⟩, ?_⟩
  · intro m hm
    cases hm
  · rintro m (hm | hm) <;> cases hm
  · intro kind pid r hs
    cases hs
  · intro message hm
    cases hm
  · intro pid flight hf
    cases hf
  · intro act hact
    cases hact

/-- **Replay buffer conservation.** In every run of a resumed session in which no delivery of
    a drain or an expiration is interrupted in the write of its acknowledgement, each message
    of the buffer is held and not acknowledged, or was handed on once, or was dropped and not
    acknowledged. -/
theorem replay_conserved (bufferSize : Nat) (maxsize : Nat → Nat) (f : InboundPublishFlow)
    (h : Reach step deliveriesFinish (fresh bufferSize maxsize true) f) :
    ∀ m, .buffered m ∈ f.trace → f.Conserved m := by
  have hinv : f.IdleRest ∧ ReplayInv f [] := by
    refine Reach.invariant (I := fun f => f.IdleRest ∧ ReplayInv f []) h
      ⟨idleRest_fresh _ _ _, replayInv_fresh _ _ _⟩ fun f e hf hok => ?_
    exact ⟨hf.1.step e, hf.2.step hf.1 hok⟩
  intro m hm
  have honce := hinv.2.1.once m hm
  rw [List.count_nil] at honce
  have hack : handedOn f.trace m = 0 → ¬ f.Acknowledged m := by
    rintro hzero ⟨kind, pid, r, hs, rfl⟩
    have hpos := (hinv.2.1.sent kind pid r hs).2 hm
    omega
  unfold Conserved
  rcases Nat.eq_zero_or_pos (handedOn f.trace m) with hzero | hpos
  · rcases Nat.eq_zero_or_pos (f.heldCount m) with hheld | hheld
    · exact Or.inr (Or.inr ⟨hheld, hzero, by omega, hack hzero⟩)
    · exact Or.inl ⟨by omega, hzero, by omega, hack hzero⟩
  · exact Or.inr (Or.inl ⟨by omega, by omega, by omega⟩)

/-- The write of the acknowledgement of every message suspends. -/
def slowWrites : Environment := { stalls := fun _ => true }

/-- A second message arrives while the drain is suspended, and is delivered by it. -/
def drainRun : List InboundEvent :=
  [.publish (publishA .atLeastOnce (some 1)) {}, .subscriptions (indexA true), .drain,
    .acquireLock 0 slowWrites, .publish (publishA .exactlyOnce (some 2)) {},
    .resumeDelivery 0 slowWrites, .resumeDelivery 0 {}]

theorem replay_conserved_drainRun :
    (drainRun.foldl step (fresh 10 (fun _ => 0) true)).replay = .idle ∧
    .buffered ⟨1, 0, publishA .exactlyOnce (some 2)⟩ ∈
      (drainRun.foldl step (fresh 10 (fun _ => 0) true)).trace ∧
    ∀ m, .buffered m ∈ (drainRun.foldl step (fresh 10 (fun _ => 0) true)).trace →
      (drainRun.foldl step (fresh 10 (fun _ => 0) true)).Conserved m := by
  refine ⟨by decide +kernel, by decide +kernel,
    replay_conserved 10 (fun _ => 0) _ (Reach.foldl ?_)⟩
  have hkeep : ∀ k ∈ [5, 6], ∀ b ∈ ((drainRun.take k).foldl step
      (fresh 10 (fun _ => 0) true)).buffers, ∀ d ∈ b.holder, d.cancelled = false := by
    decide +kernel
  have hfinish : ∀ k ∈ [5, 6], ∀ env, ((drainRun.take k).foldl step
      (fresh 10 (fun _ => 0) true)).deliveriesFinish (.resumeDelivery 0 env) := by
    intro k hk env i b d hb hd
    exact ⟨by simp, fun _ _ => hkeep k hk b (List.mem_of_getElem? hb) d hd⟩
  refine ⟨?_, ?_, ?_, ?_, ?_, hfinish 5 (by simp) _, hfinish 6 (by simp) _, trivial⟩ <;>
    exact fun i b d _ _ => ⟨by simp, fun env he => by cases he⟩

/-- The drain is cancelled in the write of PUBACK, and the next one delivers again. -/
def cancelledDrainRun : List InboundEvent :=
  [.publish (publishA .atLeastOnce (some 1)) {}, .subscriptions (indexA true), .drain,
    .acquireLock 0 slowWrites, .interruptDelivery 0, .drain, .acquireLock 0 {}]

/-- The message is put into its queue twice. -/
theorem replayed_twice :
    ¬ (∀ f, Reach step anyStep (fresh 10 (fun _ => 0) true) f →
      ∀ m, .buffered m ∈ f.trace → f.Conserved m) ∧
    handedOn (cancelledDrainRun.foldl step (fresh 10 (fun _ => 0) true)).trace
      ⟨0, 0, publishA .atLeastOnce (some 1)⟩ = 2 := by
  have htwice : handedOn (cancelledDrainRun.foldl step (fresh 10 (fun _ => 0) true)).trace
      ⟨0, 0, publishA .atLeastOnce (some 1)⟩ = 2 := by decide +kernel
  refine ⟨fun h => ?_, htwice⟩
  have hcons := h _ (Reach.foldl (meets_anyStep cancelledDrainRun))
    ⟨0, 0, publishA .atLeastOnce (some 1)⟩ (by decide +kernel)
  rw [Conserved, htwice] at hcons
  omega

end InboundPublishFlow

end Zmqtt
