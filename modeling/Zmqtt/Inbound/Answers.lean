/-
  What the inbound flow answers (`InboundPublishFlow` of `_internal/inbound.py`), over any run:
  packets in any order, handlers and drains interrupted at any await, acknowledgements by the
  application at any time.

  Nothing is delivered, held or acknowledged that was not received. PUBACK and PUBREC carry the
  packet id of a received PUBLISH of their QoS, and a PUBCOMP directly follows a PUBREL, for an
  exchange whose PUBREC was sent before it (`acknowledgements_justified`). `Backs` says what has
  to stand behind an entry of the history, and `Justified` that it does for every entry.
-/
import Zmqtt.Inbound.AtMostOnce

namespace Zmqtt

/-! ## The history -/

/-- The message was received with this QoS and packet id. -/
def Requested (trace : List TraceEntry) (qos : QoS) (pid : Int) (m : Received) : Prop :=
  .publish m ∈ trace ∧ m.packet.qos = qos ∧ m.packet.packetId = some pid

/-- What has to stand behind an entry of the history, when the broker sends PUBLISH packets with
    `Sends` only. -/
def Backs (Sends : Publish → Prop) (before : List TraceEntry) : TraceEntry → Prop
  | .publish m => Sends m.packet
  | .sent .puback pid r => Requested before .atLeastOnce pid r.message
  | .sent .pubrec pid r => Requested before .exactlyOnce pid r.message
  | .sent .pubcomp pid r =>
      ∃ older, before = .pubrel pid :: older ∧ .sent .pubrec pid r ∈ older
  | .buffered m | .dropped m | .enqueued _ m | .requested _ m | .acked m => .publish m ∈ before
  | .pubrel _ | .started _ => True

/-- Every entry has behind it what it needs. -/
def Justified (Sends : Publish → Prop) : List TraceEntry → Prop
  | [] => True
  | entry :: before => Backs Sends before entry ∧ Justified Sends before

section History

variable {Sends : Publish → Prop} {trace trace' : List TraceEntry} {qos : QoS} {pid : Int}
  {m : Received}

theorem Requested.mono (h : Requested trace qos pid m) (hsub : trace ⊆ trace') :
    Requested trace' qos pid m :=
  ⟨hsub h.1, h.2⟩

/-- The history that an entry of a justified one has behind it. -/
theorem Justified.split {later before : List TraceEntry} {entry : TraceEntry}
    (h : Justified Sends (later ++ entry :: before)) : Backs Sends before entry := by
  induction later with
  | nil => exact h.1
  | cons _ later ih => exact ih h.2

theorem Justified.pubrec (h : Justified Sends trace) {r : InboundRecipient}
    (hsent : .sent .pubrec pid r ∈ trace) : Requested trace .exactlyOnce pid r.message := by
  obtain ⟨later, before, rfl⟩ := List.append_of_mem hsent
  have hbacks : Requested before .exactlyOnce pid r.message := h.split
  exact hbacks.mono fun _ he => List.mem_append_right _ (List.mem_cons_of_mem _ he)

theorem Justified.publish (h : Justified Sends trace) (hm : .publish m ∈ trace) :
    Sends m.packet := by
  obtain ⟨later, before, rfl⟩ := List.append_of_mem hm
  have hbacks : Backs Sends before (.publish m) := h.split
  exact hbacks

theorem justified_dropped (h : Justified Sends trace) {ms : List Received}
    (hms : ∀ m ∈ ms, .publish m ∈ trace) :
    Justified Sends (ms.map TraceEntry.dropped ++ trace) := by
  induction ms with
  | nil => exact h
  | cons m ms ih =>
    refine ⟨?_, ih fun m' hm' => hms m' (List.mem_cons_of_mem _ hm')⟩
    exact List.mem_append_right _ (hms m List.mem_cons_self)

end History

/-! ## What is still to come -/

/-- The callback acknowledges a received message. -/
def AckCallback.Backed (trace : List TraceEntry) : AckCallback → Prop
  | puback pid _ r => Requested trace .atLeastOnce pid r.message
  | pubrec pid r => Requested trace .exactlyOnce pid r.message

/-- The await sends or delivers what was received. PUBCOMP is the first await of its handler
    and never left for later. -/
def Act.Backed (trace : List TraceEntry) : Act → Prop
  | send .puback pid r => Requested trace .atLeastOnce pid r.message
  | send .pubrec pid r => Requested trace .exactlyOnce pid r.message
  | send .pubcomp _ _ => False
  | deliver r callback =>
      .publish r.message ∈ trace ∧ ∀ c, callback = some c → c.Backed trace

def Message.Backed (trace : List TraceEntry) (message : Message) : Prop :=
  .publish message.received ∈ trace ∧ ∀ c, message.ackCallback = some c → c.Backed trace

/-- What an object and the task inside its lock hold was received. -/
structure Buffered.Backed (trace : List TraceEntry) (b : Buffered) : Prop where
  publishes : ∀ m ∈ b.publishes, .publish m ∈ trace
  holder : ∀ d, b.holder = some d →
    (∀ m ∈ d.unmatched ++ d.current :: d.pending, .publish m ∈ trace) ∧
    ∀ act ∈ d.rest, act.Backed trace

section Backed

variable {trace trace' : List TraceEntry}

theorem AckCallback.Backed.mono {c : AckCallback} (h : c.Backed trace) (hsub : trace ⊆ trace') :
    c.Backed trace' := by
  cases c <;> exact Requested.mono h hsub

theorem Act.Backed.mono {act : Act} (h : act.Backed trace) (hsub : trace ⊆ trace') :
    act.Backed trace' := by
  cases act with
  | send kind pid r =>
    cases kind with
    | puback | pubrec => exact Requested.mono h hsub
    | pubcomp => exact h
  | deliver r callback => exact ⟨hsub h.1, fun c hc => (h.2 c hc).mono hsub⟩

theorem Message.Backed.mono {message : Message} (h : message.Backed trace) (hsub : trace ⊆ trace') :
    message.Backed trace' :=
  ⟨hsub h.1, fun c hc => (h.2 c hc).mono hsub⟩

theorem Buffered.Backed.mono {b : Buffered} (h : b.Backed trace) (hsub : trace ⊆ trace') :
    b.Backed trace' :=
  ⟨fun m hm => hsub (h.publishes m hm), fun d hd =>
    ⟨fun m hm => hsub ((h.holder d hd).1 m hm), fun act ha => ((h.holder d hd).2 act ha).mono hsub⟩⟩

theorem Buffered.Backed.unlocked {b : Buffered} (hp : ∀ m ∈ b.publishes, .publish m ∈ trace)
    (hb : b.holder = none) : b.Backed trace :=
  ⟨hp, fun d hd => by rw [hb] at hd; cases hd⟩

/-- The `finally` block gives back received messages. -/
theorem Buffered.Backed.putBack {b : Buffered} (hb : b.Backed trace)
    {ms : List Received} (hms : ∀ m ∈ ms, .publish m ∈ trace) : (b.putBack ms).Backed trace := by
  refine Buffered.Backed.unlocked (fun m hm => ?_) rfl
  exact (List.mem_append.1 hm).elim (hms m) (hb.publishes m)

end Backed

namespace InboundPublishFlow

theorem SameContents.backed {trace : List TraceEntry} {b b' : Buffered} (h : SameContents b b')
    (hb : b.Backed trace) : b'.Backed trace := by
  refine ⟨?_, fun d' hd' => ?_⟩
  · rw [h.publishes]
    exact hb.publishes
  · obtain ⟨d, hd, hu, hp, hc, hr⟩ := h.holder d' hd'
    rw [hu, hp, hc, hr]
    exact hb.holder d hd

/-! ## The invariant -/

/-- The history is justified, and whatever is held, to be delivered or to be acknowledged was
    received; `acts` is what is left of the handler that runs, `air` the messages its task has
    in hand. -/
structure Answering (Sends : Publish → Prop) (f : InboundPublishFlow) (acts : List Act)
    (air : List Received) : Prop where
  trace : Justified Sends f.trace
  flights : ∀ pid flight, f.inflightQos2In.get? pid = some flight →
    .sent .pubrec pid flight.recipient ∈ f.trace
  messages : ∀ message ∈ f.messages, message.Backed f.trace
  buffers : ∀ b ∈ f.buffers, b.Backed f.trace
  reader : ∀ act ∈ f.reader.acts, act.Backed f.trace
  acts : ∀ act ∈ acts, act.Backed f.trace
  air : ∀ m ∈ air, .publish m ∈ f.trace

variable {Sends : Publish → Prop} {f f' : InboundPublishFlow} {acts acts' : List Act}
  {air air' : List Received}
  {r : InboundRecipient} {pid : Int} {kind : AckKind}

/-- The history grows, and all that is new is backed by it. -/
theorem Answering.extend (h : Answering Sends f acts air) (hjust : Justified Sends f'.trace)
    (hsub : f.trace ⊆ f'.trace) (hreader : f'.reader = f.reader)
    (hflights : ∀ pid flight, f'.inflightQos2In.get? pid = some flight →
      f.inflightQos2In.get? pid = some flight ∨ .sent .pubrec pid flight.recipient ∈ f'.trace)
    (hmessages : ∀ message ∈ f'.messages, message ∈ f.messages ∨ message.Backed f'.trace)
    (hbuffers : ∀ b ∈ f'.buffers, b ∈ f.buffers ∨ b.Backed f'.trace)
    (hacts : ∀ act ∈ acts', act ∈ acts ∨ act.Backed f'.trace)
    (hair : ∀ m ∈ air', m ∈ air ∨ .publish m ∈ f'.trace) : Answering Sends f' acts' air' := by
  refine ⟨hjust, fun pid flight hf => ?_, fun message hm => ?_, fun b hb => ?_, fun act ha => ?_,
    fun act ha => ?_, fun m hm => ?_⟩
  · exact (hflights pid flight hf).elim (fun ho => hsub (h.flights pid flight ho)) id
  · exact (hmessages message hm).elim (fun ho => (h.messages message ho).mono hsub) id
  · exact (hbuffers b hb).elim (fun ho => (h.buffers b ho).mono hsub) id
  · exact (h.reader act (hreader ▸ ha)).mono hsub
  · exact (hacts act ha).elim (fun ho => (h.acts act ho).mono hsub) id
  · exact (hair m hm).elim (fun ho => hsub (h.air m ho)) id

/-- Nothing changes that the invariant is about. -/
theorem Answering.congr (h : Answering Sends f acts air) (htrace : f'.trace = f.trace)
    (hflights : f'.inflightQos2In = f.inflightQos2In) (hmessages : f'.messages = f.messages)
    (hbuffers : f'.buffers = f.buffers) (hreader : f'.reader = f.reader) :
    Answering Sends f' acts air := by
  refine h.extend (htrace ▸ h.trace) (htrace ▸ fun _ he => he) hreader
    (fun pid flight hf => Or.inl ?_) (fun message hm => Or.inl (hmessages ▸ hm))
    (fun b hb => Or.inl (hbuffers ▸ hb)) (fun _ ha => Or.inl ha) fun _ hm => Or.inl hm
  rw [← hflights]
  exact hf

theorem Answering.log (h : Answering Sends f acts air) {entry : TraceEntry}
    (hentry : Backs Sends f.trace entry) : Answering Sends (f.log entry) acts air :=
  h.extend ⟨hentry, h.trace⟩ (List.subset_cons_self _ _) rfl (fun _ _ hf => Or.inl hf)
    (fun _ hm => Or.inl hm) (fun _ hb => Or.inl hb) (fun _ ha => Or.inl ha) fun _ hm => Or.inl hm

/-- The running task takes other received messages in hand. -/
theorem Answering.hold (h : Answering Sends f acts air) (hair : ∀ m ∈ air', .publish m ∈ f.trace) :
    Answering Sends f acts air' :=
  ⟨h.trace, h.flights, h.messages, h.buffers, h.reader, h.acts, hair⟩

theorem Answering.perm (h : Answering Sends f acts air) (hair : air' ⊆ air) :
    Answering Sends f acts air' :=
  h.hold fun m hm => h.air m (hair hm)

theorem Answering.setBuffer (h : Answering Sends f acts air) (i : Nat) {b : Buffered}
    (hb : b.Backed f.trace) : Answering Sends (f.setBuffer i b) acts air := by
  refine h.extend h.trace (fun _ he => he) rfl (fun _ _ hf => Or.inl hf)
    (fun _ hm => Or.inl hm) (fun b' hb' => ?_) (fun _ ha => Or.inl ha) fun _ hm => Or.inl hm
  rcases List.mem_or_eq_of_mem_set hb' with ho | rfl
  · exact Or.inl ho
  · exact Or.inr hb

theorem Answering.logDropped (h : Answering Sends f acts air) {ms : List Received}
    (hms : ∀ m ∈ ms, .publish m ∈ f.trace) : Answering Sends (f.logDropped ms) acts air :=
  h.extend (justified_dropped h.trace hms) (List.subset_append_right _ _) rfl
    (fun _ _ hf => Or.inl hf) (fun _ hm => Or.inl hm) (fun _ hb => Or.inl hb)
    (fun _ ha => Or.inl ha) fun _ hm => Or.inl hm

/-! ## Handlers -/

theorem Answering.tail {act : Act} (h : Answering Sends f (act :: acts) air) :
    Answering Sends f acts air :=
  ⟨h.trace, h.flights, h.messages, h.buffers, h.reader,
    fun act' ha => h.acts act' (List.mem_cons_of_mem _ ha), h.air⟩

theorem Answering.send (h : Answering Sends f (.send kind pid r :: acts) air) :
    Answering Sends (f.log (.sent kind pid r)) acts air := by
  have hact := h.acts _ List.mem_cons_self
  cases kind with
  | puback | pubrec => exact h.tail.log hact
  | pubcomp => exact hact.elim

theorem Answering.handOver {callback : Option AckCallback}
    (h : Answering Sends f (.deliver r callback :: acts) air) :
    Answering Sends (f.handOver r callback) acts air := by
  obtain ⟨hknown, hcallback⟩ := h.acts _ List.mem_cons_self
  rcases f.handOver_cases r callback with ⟨-, he⟩ | ⟨request, -, he⟩ | ⟨filter, entry, -, -, he⟩ <;>
    rw [he]
  · exact h.tail
  · exact h.tail.log hknown
  · have hlog : Answering Sends (f.log (.enqueued entry.queue r.message)) acts air :=
      h.tail.log hknown
    refine hlog.extend hlog.trace (fun _ he => he) rfl (fun _ _ hf => Or.inl hf)
      (fun message hm => ?_) (fun _ hb => Or.inl hb) (fun _ ha => Or.inl ha) fun _ hm => Or.inl hm
    rcases List.mem_append.1 hm with hm | hm
    · exact Or.inl hm
    · rw [List.mem_singleton.1 hm]
      refine Or.inr ⟨List.mem_cons_of_mem _ hknown, fun c hc => ?_⟩
      split at hc
      · cases hc
      · exact (hcallback c hc).mono (List.subset_cons_self _ _)

/-- The handler runs to its next suspension, or to its end. -/
def Runs (Sends : Publish → Prop) (f : InboundPublishFlow) (acts : List Act)
    (air : List Received) : Prop :=
  ∀ env, Answering Sends (runActs env acts f).1 ((runActs env acts f).2.getD []) air

theorem Answering.runs (h : Answering Sends f acts air) : Runs Sends f acts air := by
  intro env
  refine @runActs_induct (fun f acts => Answering Sends f acts air) ?_ ?_ env acts f h
  · exact fun f kind pid r acts hP => hP.send
  · exact fun f r callback acts hP _ => hP.handOver

/-- A handler that begins with a write: the packet is on the wire before it can suspend. -/
theorem Answering.runs_send (h : Answering Sends (f.log (.sent kind pid r)) acts air) :
    Runs Sends f (.send kind pid r :: acts) air := by
  intro env
  rw [runActs]
  split
  · exact h
  · exact h.runs env

theorem Answering.addActs (h : Answering Sends f [] air)
    (hacts : ∀ act ∈ acts, act.Backed f.trace) : Answering Sends f acts air :=
  ⟨h.trace, h.flights, h.messages, h.buffers, h.reader, hacts, h.air⟩

/-- The read loop is left in another state. -/
theorem Answering.setReader (h : Answering Sends f acts air) {reader : Reader}
    (hacts : ∀ act ∈ reader.acts, act.Backed f.trace) : Answering Sends { f with reader } [] [] :=
  ⟨h.trace, h.flights, h.messages, h.buffers, hacts, fun _ ha => (by cases ha),
    fun _ hm => (by cases hm)⟩

theorem Answering.stop (h : Answering Sends f acts air) (e : Option InboundError) :
    Answering Sends { f with reader := .stopped e } [] [] :=
  h.setReader fun _ ha => by cases ha

theorem Runs.runReader (h : Runs Sends f acts []) (env : Environment) :
    Answering Sends (f.runReader env acts) [] [] := by
  have hrun := h env
  unfold InboundPublishFlow.runReader
  split
  · next f' heq =>
    rw [heq] at hrun
    exact hrun.setReader fun _ ha => by cases ha
  · next f' acts' heq =>
    rw [heq] at hrun
    exact hrun.setReader hrun.acts

/-! ## One message -/

section OneMessage

variable {m : Received} {env : Environment}

theorem deliverQos1Publish_acts (h : deliverQos1Publish m r = .ok acts) :
    ∃ pid, m.packet.packetId = some pid ∧
      (acts = [.deliver r none, .send .puback pid r] ∨
        acts = [.deliver r (some (.puback pid false r))]) := by
  unfold deliverQos1Publish at h
  split at h
  · cases h
  · next pid hpid =>
    refine ⟨pid, hpid, ?_⟩
    split at h
    · exact Or.inl (Except.ok.inj h).symm
    · exact Or.inr (Except.ok.inj h).symm

theorem acceptQos2Publish_acts (h : f.acceptQos2Publish m r = .ok (f', acts)) :
    ∃ pid, m.packet.packetId = some pid ∧
      (f' = f.startAuto pid r ∧ acts = [.send .pubrec pid r] ∨
        f' = f.startManual pid r ∧ acts = [.deliver r (some (.pubrec pid r))]) := by
  unfold acceptQos2Publish at h
  split at h
  · cases h
  · next pid hpid =>
    refine ⟨pid, hpid, ?_⟩
    dsimp only at h
    split at h
    · cases h
      exact Or.inl ⟨rfl, rfl⟩
    · cases h
      exact Or.inr ⟨rfl, rfl⟩

theorem Answering.qos0 (h : Answering Sends f [] air) (hm : .publish r.message ∈ f.trace) :
    Answering Sends f [.deliver r none] air := by
  refine h.addActs fun act ha => ?_
  rw [List.mem_singleton.1 ha]
  exact ⟨hm, fun _ hc => by cases hc⟩

theorem Answering.qos1 (h : Answering Sends f [] air) (hm : .publish r.message ∈ f.trace)
    (hqos : r.message.packet.qos = .atLeastOnce)
    (hacts : deliverQos1Publish r.message r = .ok acts) : Answering Sends f acts air := by
  obtain ⟨pid, hpid, hcase⟩ := deliverQos1Publish_acts hacts
  have hrequest : Requested f.trace .atLeastOnce pid r.message := ⟨hm, hqos, hpid⟩
  refine h.addActs fun act ha => ?_
  rcases hcase with rfl | rfl
  · rcases List.mem_cons.1 ha with rfl | ha
    · exact ⟨hm, fun _ hc => by cases hc⟩
    · rw [List.mem_singleton.1 ha]
      exact hrequest
  · rw [List.mem_singleton.1 ha]
    refine ⟨hm, fun c hc => ?_⟩
    rw [← Option.some.inj hc]
    exact hrequest

/-- An exchange starts, and PUBREC goes out at once. -/
theorem Answering.startAuto (h : Answering Sends f [] air)
    (hrequest : Requested f.trace .exactlyOnce pid r.message) :
    Runs Sends (f.startAuto pid r) [.send .pubrec pid r] air := by
  have hstarted : Answering Sends (f.log (.started r)) [] air := h.log trivial
  have hsent : Answering Sends ((f.log (.started r)).log (.sent .pubrec pid r)) [] air :=
    hstarted.log (hrequest.mono (List.subset_cons_self _ _))
  refine Answering.runs_send (hsent.extend hsent.trace (fun _ he => he) rfl
    (fun pid' flight hf => ?_) (fun _ hm => Or.inl hm) (fun _ hb => Or.inl hb)
    (fun _ ha => Or.inl ha) fun _ hm => Or.inl hm)
  have hset : (f.inflightQos2In.set pid { recipient := r }).get? pid' = some flight := hf
  rw [Dict.get?_set] at hset
  split at hset
  · next he =>
    rw [← Option.some.inj hset, ← he]
    exact Or.inr List.mem_cons_self
  · exact Or.inl hset

/-- An exchange starts whose PUBREC is left to `ack()`. -/
theorem Answering.startManual (h : Answering Sends f [] air)
    (hrequest : Requested f.trace .exactlyOnce pid r.message) :
    Runs Sends (f.startManual pid r) [.deliver r (some (.pubrec pid r))] air := by
  have hstarted : Answering Sends (f.log (.started r)) [] air := h.log trivial
  have hmanual : Answering Sends (f.startManual pid r) [] air := hstarted.congr rfl rfl rfl rfl rfl
  have hrequest' : Requested (f.startManual pid r).trace .exactlyOnce pid r.message :=
    hrequest.mono (List.subset_cons_self _ _)
  refine (hmanual.addActs fun act ha => ?_).runs
  rw [List.mem_singleton.1 ha]
  refine ⟨hrequest'.1, fun c hc => ?_⟩
  rw [← Option.some.inj hc]
  exact hrequest'

theorem Answering.qos2 (h : Answering Sends f [] air) (hm : .publish r.message ∈ f.trace)
    (hqos : r.message.packet.qos = .exactlyOnce)
    (hacts : f.acceptQos2Publish r.message r = .ok (f', acts)) : Runs Sends f' acts air := by
  obtain ⟨pid, hpid, ⟨rfl, rfl⟩ | ⟨rfl, rfl⟩⟩ := acceptQos2Publish_acts hacts
  · exact h.startAuto ⟨hm, hqos, hpid⟩
  · exact h.startManual ⟨hm, hqos, hpid⟩

/-- `deliver_replay` of a message that is held. -/
theorem Answering.deliverReplay (h : Answering Sends f [] air) (hm : .publish r.message ∈ f.trace)
    {rest : Option (List Act)} (hd : f.deliverReplay env r.message r = .ok (f', rest)) :
    Answering Sends f' (rest.getD []) air := by
  have hrun : ∀ {f₁ : InboundPublishFlow} {acts : List Act}, Runs Sends f₁ acts air →
      runActs env acts f₁ = (f', rest) → Answering Sends f' (rest.getD []) air := by
    intro f₁ acts hruns he
    have hout := hruns env
    rw [he] at hout
    exact hout
  unfold InboundPublishFlow.deliverReplay at hd
  split at hd
  · exact hrun (h.qos0 hm).runs (Except.ok.inj hd)
  · next hqos =>
    cases hacts : deliverQos1Publish r.message r with
    | error e => rw [hacts] at hd; cases hd
    | ok acts =>
      rw [hacts] at hd
      exact hrun (h.qos1 hm hqos hacts).runs (Except.ok.inj hd)
  · next hqos =>
    cases hacts : f.acceptQos2Publish r.message r with
    | error e => rw [hacts] at hd; cases hd
    | ok result =>
      rw [hacts] at hd
      exact hrun (h.qos2 hm hqos hacts) (Except.ok.inj hd)

end OneMessage

/-! ## Packets -/

section Packets

variable {m : Received} {env : Environment}

theorem Answering.takesIn (h : Answering Sends f [] air) (hm : .publish m ∈ f.trace)
    (htakes : TakesIn f m f') : Answering Sends f' [] air := by
  have hlog : Answering Sends (f.log (.buffered m)) [] air := h.log hm
  have happend : ∀ b : Buffered, b.Backed (f.log (.buffered m)).trace →
      (b.append m).Backed (f.log (.buffered m)).trace := by
    refine fun b hb => ⟨fun m' hm' => ?_, hb.holder⟩
    rcases List.mem_append.1 hm' with hm' | hm'
    · exact hb.publishes m' hm'
    · rw [List.mem_singleton.1 hm']
      exact List.mem_cons_of_mem _ hm
  cases htakes with
  | new hreplay =>
    refine hlog.extend hlog.trace (fun _ he => he) rfl (fun _ _ hf => Or.inl hf)
      (fun _ hm => Or.inl hm) (fun b hb => ?_) (fun _ ha => Or.inl ha) fun _ hm => Or.inl hm
    rcases List.mem_append.1 hb with hb | hb
    · exact Or.inl hb
    · rw [List.mem_singleton.1 hb]
      exact Or.inr (happend {} (Buffered.Backed.unlocked (fun _ hm => by cases hm) rfl))
  | old i b hreplay hb hpid hsize =>
    have hold := h.buffers b (List.mem_of_getElem? hb)
    exact hlog.setBuffer i (happend b (hold.mono (List.subset_cons_self _ _)))

/-- What `_handle_qos1_publish` does: PUBACK carries the id of the message. -/
theorem handleQos1Publish_acts (h : f.handleQos1Publish env m = .ok (f', acts)) :
    f' = f ∧ deliverQos1Publish m (f.selectRecipient env m) = .ok acts ∨
      acts = [] ∧ (f' = f ∨ TakesIn f m f') := by
  unfold handleQos1Publish at h
  split at h
  · cases h
  · split at h
    · cases h
      exact Or.inr ⟨rfl, Or.inl rfl⟩
    · rcases f.selectRecipientOrBuffer_cases env m with he | ⟨f₁, he, htakes⟩ | he | he <;>
        rw [he] at h <;> dsimp only at h
      · cases hacts : deliverQos1Publish m (f.selectRecipient env m) with
        | error e => rw [hacts] at h; cases h
        | ok acts₁ =>
          rw [hacts] at h
          cases h
          exact Or.inl ⟨rfl, rfl⟩
      · cases h
        exact Or.inr ⟨rfl, Or.inr htakes⟩
      · cases h
        exact Or.inr ⟨rfl, Or.inl rfl⟩
      · cases h

theorem Answering.handlePublish (h : Answering Sends f [] []) (hm : .publish m ∈ f.trace)
    (hhandle : f.handlePublish env m = .ok (f', acts)) : Runs Sends f' acts [] := by
  have hmsg := f.message_selectRecipient env m
  have hreq : ∀ {pid : Int}, m.packet.qos = .exactlyOnce → m.packet.packetId = some pid →
      Requested f.trace .exactlyOnce pid (f.selectRecipient env m).message := by
    intro pid hqos hpid
    rw [hmsg]
    exact ⟨hm, hqos, hpid⟩
  cases hqos : m.packet.qos with
  | atLeastOnce =>
    rw [InboundPublishFlow.handlePublish, hqos] at hhandle
    rcases handleQos1Publish_acts hhandle with ⟨rfl, hacts⟩ | ⟨rfl, rfl | htakes⟩
    · refine (Answering.qos1 h ?_ ?_ (by rw [hmsg]; exact hacts)).runs <;> rw [hmsg]
      · exact hm
      · exact hqos
    · exact h.runs
    · exact (h.takesIn hm htakes).runs
  | atMostOnce | exactlyOnce =>
    cases handlePublish_cases hhandle with
    | ignored => exact h.runs
    | takesIn htakes _ => exact (h.takesIn hm htakes).runs
    | qos0 _ => exact (h.qos0 (by rw [hmsg]; exact hm)).runs
    | qos1Auto _ hqos' | qos1Manual _ hqos' _ => rw [hqos] at hqos'; cases hqos'
    | qos2Again pid flight _ _ hflight =>
      exact Answering.runs_send (h.log (h.trace.pubrec (h.flights pid flight hflight)))
    | qos2Auto pid hqos' hpid _ _ => exact h.startAuto (hreq hqos' hpid)
    | qos2Manual pid hqos' hpid _ _ => exact h.startManual (hreq hqos' hpid)

theorem Answering.receivePublish (h : Answering Sends f [] []) (env : Environment)
    {packet : Publish} (hsends : Sends packet) :
    Answering Sends (f.receivePublish env packet) [] [] := by
  unfold InboundPublishFlow.receivePublish
  split
  · have hlog : Answering Sends (f.log (.publish (f.nextReceived packet))) [] [] := h.log hsends
    have hrec : Answering Sends (f.receive packet) [] [] := hlog.congr rfl rfl rfl rfl rfl
    unfold dispatch
    split
    · exact hrec.stop _
    · next f' acts hhandle =>
      exact (hrec.handlePublish List.mem_cons_self hhandle).runReader env
  · exact h
  · exact h

/-- PUBCOMP is sent before anything else happens. -/
theorem Answering.pubrel (h : Answering Sends f [] []) {flight : InboundQoS2Flight}
    (hflight : f.inflightQos2In.get? pid = some flight) :
    Runs Sends ((f.log (.pubrel pid)).popFlight pid) (.send .pubcomp pid flight.recipient ::
      if flight.delivered then [] else [.deliver flight.recipient none]) [] := by
  have hsent := h.flights pid flight hflight
  have hrequest := h.trace.pubrec hsent
  have hpop : Answering Sends ((f.log (.pubrel pid)).popFlight pid) [] [] := by
    have hlog : Answering Sends (f.log (.pubrel pid)) [] [] := h.log trivial
    refine hlog.extend hlog.trace (fun _ he => he) rfl (fun pid' flight' hf => Or.inl ?_)
      (fun _ hm => Or.inl hm) (fun _ hb => Or.inl hb) (fun _ ha => Or.inl ha) fun _ hm => Or.inl hm
    have hget : (f.inflightQos2In.pop pid).get? pid' = some flight' := hf
    rw [Dict.get?_pop] at hget
    split at hget
    · cases hget
    · exact hget
  have hcomp : Answering Sends (((f.log (.pubrel pid)).popFlight pid).log
      (.sent .pubcomp pid flight.recipient)) [] [] := hpop.log ⟨f.trace, rfl, hsent⟩
  refine Answering.runs_send (hcomp.addActs fun act ha => ?_)
  split at ha
  · cases ha
  · rw [List.mem_singleton.1 ha]
    exact ⟨List.mem_cons_of_mem _ (List.mem_cons_of_mem _ hrequest.1), fun _ hc => by cases hc⟩

theorem Answering.receivePubrel (h : Answering Sends f [] []) (env : Environment) (pid : Int) :
    Answering Sends (f.receivePubrel env pid) [] [] := by
  unfold InboundPublishFlow.receivePubrel
  split
  · unfold handlePubrel
    split
    · have hlog : Answering Sends (f.log (.pubrel pid)) [] [] := h.log trivial
      exact hlog.stop _
    · next flight hflight => exact (h.pubrel hflight).runReader env
  · exact h
  · exact h

end Packets

/-! ## `Message.ack` -/

theorem backed_markAcked {trace : List TraceEntry} {callback : Option AckCallback}
    (h : ∀ c, callback = some c → c.Backed trace) :
    ∀ c, InboundPublishFlow.markAcked callback = some c → c.Backed trace := by
  intro c hc
  cases callback with
  | none => cases hc
  | some c' =>
    have hbacked := h c' rfl
    cases c' with
    | puback pid acked r | pubrec pid r =>
      cases hc
      exact hbacked

theorem Answering.resolve (h : Answering Sends f acts air) {k : Nat} {message : Message}
    (hmsg : f.messages[k]? = some message) : Answering Sends (f.resolve k message) acts air := by
  obtain ⟨hknown, hcallback⟩ := h.messages message (List.mem_of_getElem? hmsg)
  have hlog : Answering Sends (f.log (.acked message.received)) acts air := h.log hknown
  refine hlog.extend hlog.trace (fun _ he => he) rfl (fun _ _ hf => Or.inl hf)
    (fun message' hm' => ?_) (fun _ hb => Or.inl hb) (fun _ ha => Or.inl ha) fun _ hm => Or.inl hm
  rcases List.mem_or_eq_of_mem_set hm' with hm' | rfl
  · exact Or.inl hm'
  · exact Or.inr (Message.Backed.mono ⟨hknown, backed_markAcked hcallback⟩
      (List.subset_cons_self _ _))

/-- The callback of a received message sends what the message asks for. -/
theorem Answering.ack (h : Answering Sends f acts air) (k : Nat) :
    Answering Sends (f.ack k) acts air := by
  rcases f.ack_cases k with he | ⟨message, hmsg, -, hcases⟩
  · rw [he]
    exact h
  have hbase := h.resolve hmsg
  have hback : ∀ c, message.ackCallback = some c → c.Backed (f.resolve k message).trace :=
    fun c hc => ((h.messages message (List.mem_of_getElem? hmsg)).2 c hc).mono
      (List.subset_cons_self _ _)
  rcases hcases with ⟨he, -⟩ | ⟨pid, r, hc, he⟩ | ⟨pid, r, hc, he⟩ <;> rw [he]
  · exact hbase
  · exact hbase.log (hback _ hc)
  · have hsent : Answering Sends ((f.resolve k message).log (.sent .pubrec pid r)) acts air :=
      hbase.log (hback _ hc)
    refine hsent.extend hsent.trace (fun _ he => he) rfl (fun pid' flight hf => ?_)
      (fun _ hm => Or.inl hm) (fun _ hb => Or.inl hb) (fun _ ha => Or.inl ha) fun _ hm => Or.inl hm
    have hset : (f.inflightQos2In.set pid { recipient := r, delivered := true }).get? pid' =
        some flight := hf
    rw [Dict.get?_set] at hset
    split at hset
    · next he =>
      rw [← Option.some.inj hset, ← he]
      exact Or.inr List.mem_cons_self
    · exact Or.inl hset

/-! ## Drains -/

section Drains

variable {i : Nat} {env : Environment} {caller : Caller} {unmatched pending : List Received}

theorem Answering.bare (h : Answering Sends f acts air) : Answering Sends f [] [] :=
  h.setReader h.reader

/-- What holds where a pass stops. -/
def PassAnswers (Sends : Publish → Prop) (result : InboundPublishFlow × PassResult) : Prop :=
  match result.2 with
  | .suspended unmatched pending current rest =>
      Answering Sends result.1 rest (unmatched ++ current :: pending)
  | .finished unmatched => Answering Sends result.1 [] unmatched
  | .failed unmatched pending => Answering Sends result.1 [] (unmatched ++ pending)

theorem Answering.discard (h : Answering Sends f acts air) (i : Nat) (m : Received) :
    Answering Sends (f.discard i m).1 acts air := by
  unfold InboundPublishFlow.discard
  split
  · exact h
  · next b hb =>
    have hold := h.buffers b (List.mem_of_getElem? hb)
    refine h.setBuffer i ⟨?_, ?_⟩
    · rw [show (b.discard m).1.publishes = b.publishes by unfold Buffered.discard; split <;> rfl]
      exact hold.publishes
    · rw [holder_discard]
      exact hold.holder

theorem Answering.deliverPass (h : Answering Sends f [] (unmatched ++ pending)) :
    PassAnswers Sends (deliverPass env i unmatched pending f) := by
  induction pending generalizing unmatched f with
  | nil =>
    rw [List.append_nil] at h
    exact h
  | cons m pending ih =>
    rw [InboundPublishFlow.deliverPass]
    have hstays : Answering Sends f [] (unmatched ++ [m] ++ pending) :=
      h.perm (by simp)
    split
    · exact ih hstays
    · have hm : .publish m ∈ f.trace := h.air m (by simp)
      have hdelivers : ∀ f' rest,
          f.deliverReplay env m (f.selectRecipient env m) = .ok (f', rest) →
          Answering Sends f' (rest.getD []) (unmatched ++ m :: pending) := by
        intro f' rest hd
        have hmsg := f.message_selectRecipient env m
        exact h.deliverReplay (by rw [hmsg]; exact hm) (by rw [hmsg]; exact hd)
      split
      · exact hstays
      · next f' rest hd => exact hdelivers f' (some rest) hd
      · next f' hd =>
        have hdis : Answering Sends (f'.discard i m).1 [] (unmatched ++ pending) :=
          ((hdelivers f' none hd).discard i m).perm (by simp)
        split
        · next f'' heq =>
          rw [heq] at hdis
          exact ih hdis
        · next f'' heq =>
          rw [heq] at hdis
          exact hdis

theorem Answering.deliverPending (h : Answering Sends f [] (unmatched ++ pending)) :
    PassAnswers Sends (f.deliverPending env i unmatched pending) := by
  have hpass : PassAnswers Sends (InboundPublishFlow.deliverPass env i unmatched pending f) :=
    h.deliverPass
  unfold InboundPublishFlow.deliverPending
  split
  · next f' unmatched' heq =>
    rw [heq] at hpass
    have hend : Answering Sends f' [] unmatched' := hpass
    refine Answering.deliverPass ?_
    unfold InboundPublishFlow.publishes InboundPublishFlow.setPublishes
    split
    · rw [List.append_nil]
      exact hend
    · next b hb =>
      have hold := hend.buffers b (List.mem_of_getElem? hb)
      have hempty : Buffered.Backed f'.trace { b with publishes := [] } :=
        ⟨fun _ hm => (by cases hm), hold.holder⟩
      refine (hend.setBuffer i hempty).hold fun m hm => ?_
      rcases List.mem_append.1 hm with hm | hm
      · exact hend.air m hm
      · exact hold.publishes m hm
  · exact hpass

theorem Answering.leaveBuffer (h : Answering Sends f acts air) (i : Nat) (next : ReplayState) :
    Answering Sends (f.leaveBuffer i next) acts air := by
  obtain ⟨replay, he⟩ := f.leaveBuffer_eq i next
  rw [he]
  exact h.congr rfl rfl rfl rfl rfl

theorem Answering.settle {result : PassResult} (h : PassAnswers Sends (f, result)) :
    Answering Sends (f.settle i caller result) [] [] := by
  have hbare : Answering Sends f [] [] := by
    cases result with
    | suspended unmatched pending current rest =>
      exact Answering.bare (show Answering Sends f rest (unmatched ++ current :: pending) from h)
    | finished unmatched => exact Answering.bare (show Answering Sends f [] unmatched from h)
    | failed unmatched pending =>
      exact Answering.bare (show Answering Sends f [] (unmatched ++ pending) from h)
  unfold InboundPublishFlow.settle
  split
  · exact hbare
  · next b hb =>
    have hold := hbare.buffers b (List.mem_of_getElem? hb)
    cases result with
    | suspended unmatched pending current rest =>
      have hrest : Answering Sends f rest (unmatched ++ current :: pending) := h
      refine hbare.setBuffer i ⟨hold.publishes, fun d hd => ?_⟩
      rw [← Option.some.inj hd]
      exact ⟨hrest.air, hrest.acts⟩
    | failed unmatched pending =>
      have hfail : Answering Sends f [] (unmatched ++ pending) := h
      have hback := hold.putBack hfail.air
      exact hbare.setBuffer i ((sameContents_endExpiration _ caller).backed hback)
    | finished unmatched =>
      have hend : Answering Sends f [] unmatched := h
      have hback := hold.putBack hend.air
      cases caller with
      | drain =>
        change Answering Sends (f.finishDrain i (b.putBack unmatched)) [] []
        unfold InboundPublishFlow.finishDrain
        split
        · have hset := hbare.setBuffer i ((sameContents_cancelExpiration _).backed hback)
          exact hset.leaveBuffer i .idle
        · exact hbare.setBuffer i hback
      | expire =>
        have hempty : Buffered.Backed (f.logDropped (b.putBack unmatched).publishes).trace
            (b.putBack unmatched).empty :=
          Buffered.Backed.unlocked (fun _ hm => (by cases hm)) rfl
        have hset := (hbare.logDropped hback.publishes).setBuffer i
          ((sameContents_endExpiration _ .expire).backed hempty)
        exact hset.leaveBuffer i _

theorem Answering.acquireLock (h : Answering Sends f [] []) (env : Environment) (i : Nat) :
    Answering Sends (f.acquireLock env i) [] [] := by
  unfold InboundPublishFlow.acquireLock
  split
  · exact h
  · next b hb =>
    split
    · next caller waiters hholder _ =>
      have hold := h.buffers b (List.mem_of_getElem? hb)
      have hset : Answering Sends (f.setBuffer i { b with waiters }) [] ([] ++ []) :=
        h.setBuffer i ⟨hold.publishes, hold.holder⟩
      exact Answering.settle hset.deliverPending
    · exact h

/-- The task inside the lock takes up what it was left with. -/
theorem Answering.wake (h : Answering Sends f [] []) {b : Buffered} {d : Delivery}
    (hb : f.buffers[i]? = some b) (hd : b.holder = some d) :
    Answering Sends (f.setBuffer i { b with holder := none }) d.rest
      (d.unmatched ++ d.current :: d.pending) := by
  have hold := h.buffers b (List.mem_of_getElem? hb)
  obtain ⟨hknown, hacts⟩ := hold.holder d hd
  have hfree : Buffered.Backed f.trace { b with holder := none } :=
    Buffered.Backed.unlocked hold.publishes rfl
  exact ((h.setBuffer i hfree).addActs hacts).hold hknown

theorem Answering.interruptDelivery (h : Answering Sends f [] []) (i : Nat) :
    Answering Sends (f.interruptDelivery i) [] [] := by
  unfold InboundPublishFlow.interruptDelivery
  split
  · exact h
  · next b hb =>
    split
    · exact h
    · next d hd =>
      have hwake := h.wake hb hd
      have hback : Answering Sends (f.setBuffer i { b with holder := none }) []
          (d.unmatched ++ [d.current] ++ d.pending) := by
        rw [List.append_assoc]
        exact hwake.bare.hold hwake.air
      exact Answering.settle hback

theorem Answering.resumeDelivery (h : Answering Sends f [] []) (env : Environment) (i : Nat) :
    Answering Sends (f.resumeDelivery env i) [] [] := by
  unfold InboundPublishFlow.resumeDelivery
  split
  · exact h
  · next b hb =>
    split
    · exact h
    · next d hd =>
      split
      · exact h.interruptDelivery i
      · have hrun := (h.wake hb hd).runs env
        split
        · next f' rest heq =>
          rw [heq] at hrun
          exact Answering.settle (show PassAnswers Sends (f', .suspended _ _ _ _) from hrun)
        · next f' heq =>
          rw [heq] at hrun
          have hdis : Answering Sends (f'.discard i d.current).1 [] (d.unmatched ++ d.pending) :=
            (hrun.discard i d.current).perm (by simp)
          split
          · next f'' hfalse =>
            rw [hfalse] at hdis
            exact Answering.settle (show PassAnswers Sends (f'', .failed _ _) from hdis)
          · next f'' htrue =>
            rw [htrue] at hdis
            exact Answering.settle hdis.deliverPending

theorem Answering.clear (h : Answering Sends f [] []) : Answering Sends f.clear [] [] := by
  unfold InboundPublishFlow.clear
  split
  · exact h
  · exact h.congr rfl rfl rfl rfl rfl
  · next i _ =>
    split
    · exact h.congr rfl rfl rfl rfl rfl
    · next b hb =>
      have hold := h.buffers b (List.mem_of_getElem? hb)
      have hdrop := h.logDropped hold.publishes
      have hsame := (sameContents_cancelExpiration b).backed
        (hdrop.buffers b (List.mem_of_getElem? hb))
      have hempty : Buffered.Backed (f.logDropped b.publishes).trace b.cancelExpiration.empty :=
        ⟨fun _ hm => (by cases hm), hsame.holder⟩
      exact (hdrop.setBuffer i hempty).congr rfl rfl rfl rfl rfl

end Drains

/-! ## Runs -/

/-- The broker sends PUBLISH packets with `Sends` only. -/
def Hears (Sends : Publish → Prop) (_ : InboundPublishFlow) (e : InboundEvent) : Prop :=
  ∀ packet env, e = .publish packet env → Sends packet

theorem Answering.step (h : Answering Sends f [] []) {e : InboundEvent} (hears : Hears Sends f e) :
    Answering Sends (f.step e) [] [] := by
  have hwaiting : (e = .drain ∨ (∃ i, e = .expire i) ∨ ∃ i k, e = .cancelWaiter i k) →
      Answering Sends (f.step e) [] [] := by
    intro he
    rcases f.waiting_cases he with heq | ⟨i, b, b', hb, hsame, heq⟩ <;> rw [heq]
    · exact h
    · exact h.setBuffer i (hsame.backed (h.buffers b (List.mem_of_getElem? hb)))
  cases e with
  | publish packet env => exact h.receivePublish env (hears packet env rfl)
  | pubrel pid env => exact h.receivePubrel env pid
  | resumeReader env =>
    rw [InboundPublishFlow.step, resumeReader]
    split
    · next acts hreader =>
      refine (h.addActs fun act ha => h.reader act ?_).runs.runReader env
      rw [hreader]
      exact ha
    all_goals exact h
  | interruptReader =>
    rw [InboundPublishFlow.step, interruptReader]
    split
    · exact h
    all_goals exact h.stop none
  | ack k => exact h.ack k
  | get queue => exact h.congr rfl rfl rfl rfl rfl
  | subscriptions index => exact h.congr rfl rfl rfl rfl rfl
  | drain => exact hwaiting (Or.inl rfl)
  | expire i => exact hwaiting (Or.inr (Or.inl ⟨i, rfl⟩))
  | cancelWaiter i k => exact hwaiting (Or.inr (Or.inr ⟨i, k, rfl⟩))
  | acquireLock i env => exact h.acquireLock env i
  | resumeDelivery i env => exact h.resumeDelivery env i
  | interruptDelivery i => exact h.interruptDelivery i
  | clear => exact h.clear

theorem answering_fresh (bufferSize : Nat) (maxsize : Nat → Nat) (sessionPresent : Bool) :
    Answering Sends (fresh bufferSize maxsize sessionPresent) [] [] :=
  ⟨trivial, fun _ _ hf => (by cases hf), fun _ hm => (by cases hm), fun _ hb => (by cases hb),
    fun _ ha => (by cases ha), fun _ ha => (by cases ha), fun _ hm => (by cases hm)⟩

theorem answering_of_reach {bufferSize : Nat} {maxsize : Nat → Nat} {sessionPresent : Bool}
    (h : Reach step (Hears Sends) (fresh bufferSize maxsize sessionPresent) f) :
    Answering Sends f [] [] :=
  Reach.invariant (I := fun f => Answering Sends f [] []) h (answering_fresh _ _ _)
    fun _ _ hf hears => hf.step hears

/-- **Nothing unasked for.** In every run of a connection, whatever is interrupted, each entry
    of the history has behind it what it answers: PUBACK and PUBREC a received PUBLISH of their
    QoS and packet id, PUBCOMP the PUBREL it directly follows and an earlier PUBREC of the same
    exchange, and what is buffered, dropped, delivered or acknowledged was received. -/
theorem acknowledgements_justified (Sends : Publish → Prop) (bufferSize : Nat) (maxsize : Nat → Nat)
    (sessionPresent : Bool) (f : InboundPublishFlow)
    (h : Reach step (Hears Sends) (fresh bufferSize maxsize sessionPresent) f)
    (later before : List TraceEntry) (entry : TraceEntry)
    (hentry : f.trace = later ++ entry :: before) : Backs Sends before entry := by
  have htrace := (answering_of_reach h).trace
  rw [hentry] at htrace
  exact htrace.split

/-- The PUBCOMP of the first exchange of the run. -/
theorem acknowledgements_justified_manualRun :
    ∃ pid r before, .sent .pubcomp pid r :: before =
        (manualRun.foldl step (fresh 10 (fun _ => 0) false)).trace.drop 3 ∧
      Backs (fun packet => packet.qos = .exactlyOnce) before (.sent .pubcomp pid r) := by
  have hentry : (manualRun.foldl step (fresh 10 (fun _ => 0) false)).trace =
      (manualRun.foldl step (fresh 10 (fun _ => 0) false)).trace.take 3 ++
        .sent .pubcomp 1 ⟨⟨0, 0, publishA .exactlyOnce (some 1)⟩, none,
          some ("a", { queue := 0, autoAck := false, actualFilter := "a" })⟩ ::
        (manualRun.foldl step (fresh 10 (fun _ => 0) false)).trace.drop 4 := by decide +kernel
  refine ⟨_, _, _, ?_, acknowledgements_justified _ 10 (fun _ => 0) false _ (Reach.foldl ?_) _ _ _
    hentry⟩
  · decide +kernel
  · refine ⟨?_, ?_, ?_, ?_, ?_, ?_, ?_, ?_, trivial⟩ <;>
      exact fun packet env he => (by cases he <;> rfl)

end InboundPublishFlow

end Zmqtt
