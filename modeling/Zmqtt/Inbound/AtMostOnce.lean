/-
  Inbound QoS 2 is at-most-once per exchange. The PUBLISH packets of an id between two PUBREL
  packets for it have the same key, the id and the number of PUBREL packets received before.
  A key is a token: it is held by the replay buffer, by a flight that was not delivered, or
  by an await of the read loop, or it was delivered, and never twice (`Tokens`). A PUBLISH
  with a key that is in use finds its id known to the flow, so no second token is made.
-/
import Zmqtt.Inbound.Exchanges

namespace Zmqtt

/-- A QoS 2 message with this key. -/
def keyed (pid : Int) (k : Nat) (m : Received) : Bool := asksFor pid m && decide (m.epoch = k)

theorem keyed_iff {pid : Int} {k : Nat} {m : Received} :
    keyed pid k m = true ↔ asksFor pid m = true ∧ m.epoch = k := by
  rw [keyed, Bool.and_eq_true, decide_eq_true_iff]

/-- The id of a message is in its key. -/
theorem keyed_eq_false_of_ne {pid pid' : Int} {m : Received} (hask : asksFor pid m = true)
    (hne : pid ≠ pid') (k : Nat) : keyed pid' k m = false := by
  rw [Bool.eq_false_iff]
  intro hk
  have hpid := (asksFor_iff.1 hask).2
  rw [(asksFor_iff.1 (keyed_iff.1 hk).1).2] at hpid
  exact hne (Option.some.inj hpid).symm

theorem countP_keyed_le (pid : Int) (k : Nat) (ms : List Received) :
    ms.countP (keyed pid k) ≤ ms.countP (asksFor pid) :=
  List.countP_mono_left fun _ _ hk => (keyed_iff.1 hk).1

/-- The entry delivers a message with this key. -/
def TraceEntry.delivers (pid : Int) (k : Nat) : TraceEntry → Bool
  | enqueued _ m | requested _ m => keyed pid k m
  | _ => false

/-- The await delivers a message with this key. -/
def Act.delivers (pid : Int) (k : Nat) : Act → Bool
  | deliver r _ => keyed pid k r.message
  | send _ _ _ => false

/-- The flight has still to deliver a message with this key. -/
def InboundQoS2Flight.owes (pid : Int) (k : Nat) (flight : InboundQoS2Flight) : Bool :=
  !flight.delivered && keyed pid k flight.recipient.message

namespace InboundPublishFlow

/-- The token of a key in `inflight_qos2_in`. -/
def flightToken (f : InboundPublishFlow) (pid : Int) (k : Nat) : Nat :=
  match f.inflightQos2In.get? pid with
  | none => 0
  | some flight => if flight.owes pid k then 1 else 0

/-- The tokens of a key in the replay buffer and with the running task. -/
def heldTokens (f : InboundPublishFlow) (air : List Received) (pid : Int) (k : Nat) : Nat :=
  f.heldWith (keyed pid k) + air.countP (keyed pid k)

/-- The tokens of a key past the replay buffer: in flight, in an await, delivered. -/
def goneTokens (f : InboundPublishFlow) (acts : List Act) (pid : Int) (k : Nat) : Nat :=
  f.flightToken pid k + acts.countP (Act.delivers pid k) +
    f.trace.countP (TraceEntry.delivers pid k)

/-- The PUBREL packets received for an id. -/
def released (f : InboundPublishFlow) (pid : Int) : Nat := f.trace.count (.pubrel pid)

/-- The key is in use: its id is in one of the three places. -/
def InUse (f : InboundPublishFlow) (air : List Received) (pid : Int) (k : Nat) : Prop :=
  f.inflightQos2In.get? pid ≠ none ∨ pid ∈ f.pendingAckQos2In ∨ 0 < f.heldTokens air pid k

/-- Every key has at most one token; while the read loop runs, the current key of an id that
    has a token is in use. -/
structure Tokens (f : InboundPublishFlow) (acts : List Act) (air : List Received) : Prop where
  once : ∀ pid k, f.heldTokens air pid k + f.goneTokens acts pid k ≤ 1
  recent : f.reader.isStopped = false → ∀ pid k,
    0 < f.heldTokens air pid k + f.goneTokens acts pid k →
    k ≤ f.released pid ∧ (k = f.released pid → f.InUse air pid k)

/-- Tokens only move on or leave. -/
theorem Tokens.shrink {f f' : InboundPublishFlow} {acts acts' : List Act}
    {air air' : List Received} (h : Tokens f acts air)
    (hheld : ∀ pid k, f'.heldTokens air' pid k ≤ f.heldTokens air pid k)
    (hgone : ∀ pid k, f'.goneTokens acts' pid k ≤ f.goneTokens acts pid k)
    (hflights : f'.inflightQos2In = f.inflightQos2In)
    (hpending : f'.pendingAckQos2In = f.pendingAckQos2In)
    (hreleased : ∀ pid, f'.released pid = f.released pid)
    (hreader : f'.reader.isStopped = false → f.reader.isStopped = false) :
    Tokens f' acts' air' := by
  refine ⟨fun pid k => ?_, fun hrun pid k hpos => ?_⟩
  · have honce := h.once pid k
    have hA := hheld pid k
    have hB := hgone pid k
    omega
  · have honce := h.once pid k
    have hA := hheld pid k
    have hB := hgone pid k
    obtain ⟨hle, huse⟩ := h.recent (hreader hrun) pid k (by omega)
    rw [hreleased]
    refine ⟨hle, fun hk => ?_⟩
    rw [InUse, hflights, hpending]
    rcases huse hk with hfl | hpe | hin
    · exact Or.inl hfl
    · exact Or.inr (Or.inl hpe)
    · exact Or.inr (Or.inr (by omega))

theorem flightToken_congr {f f' : InboundPublishFlow}
    (h : f'.inflightQos2In = f.inflightQos2In) (pid : Int) (k : Nat) :
    f'.flightToken pid k = f.flightToken pid k := by
  rw [flightToken, h]
  rfl

theorem heldTokens_congr {f f' : InboundPublishFlow} (h : f'.buffers = f.buffers)
    (air : List Received) (pid : Int) (k : Nat) :
    f'.heldTokens air pid k = f.heldTokens air pid k := by
  rw [heldTokens, heldWith, h]
  rfl

/-- An entry that neither delivers nor releases. -/
def Quiet (entry : TraceEntry) : Prop :=
  ∀ pid, entry ≠ .pubrel pid ∧ ∀ k, entry.delivers pid k = false

theorem Quiet.goneTokens {entry : TraceEntry} (h : Quiet entry) {f f' : InboundPublishFlow}
    (htrace : f'.trace = entry :: f.trace) (hflights : f'.inflightQos2In = f.inflightQos2In)
    (acts : List Act) (pid : Int) (k : Nat) :
    f'.goneTokens acts pid k = f.goneTokens acts pid k := by
  rw [InboundPublishFlow.goneTokens, flightToken_congr hflights, htrace, List.countP_cons,
    (h pid).2 k]
  rfl

theorem Quiet.released {entry : TraceEntry} (h : Quiet entry) {f f' : InboundPublishFlow}
    (htrace : f'.trace = entry :: f.trace) (pid : Int) : f'.released pid = f.released pid := by
  rw [InboundPublishFlow.released, htrace]
  exact List.count_cons_of_ne (h pid).1

/-- A quiet entry. -/
theorem Tokens.quiet {f f' : InboundPublishFlow} {acts : List Act} {air : List Received}
    (h : Tokens f acts air) {entry : TraceEntry} (hentry : Quiet entry)
    (htrace : f'.trace = entry :: f.trace) (hbuffers : f'.buffers = f.buffers)
    (hflights : f'.inflightQos2In = f.inflightQos2In)
    (hpending : f'.pendingAckQos2In = f.pendingAckQos2In)
    (hreader : f'.reader.isStopped = false → f.reader.isStopped = false) :
    Tokens f' acts air :=
  h.shrink (fun pid k => (heldTokens_congr hbuffers air pid k).le)
    (fun pid k => (hentry.goneTokens htrace hflights acts pid k).le) hflights hpending
    (hentry.released htrace) hreader

theorem Tokens.congr {f f' : InboundPublishFlow} {acts : List Act} {air : List Received}
    (h : Tokens f acts air) (htrace : f'.trace = f.trace) (hbuffers : f'.buffers = f.buffers)
    (hflights : f'.inflightQos2In = f.inflightQos2In)
    (hpending : f'.pendingAckQos2In = f.pendingAckQos2In)
    (hreader : f'.reader.isStopped = false → f.reader.isStopped = false) :
    Tokens f' acts air := by
  refine h.shrink (fun pid k => (heldTokens_congr hbuffers air pid k).le) (fun pid k => ?_)
    hflights hpending (fun pid => by rw [InboundPublishFlow.released, htrace]; rfl) hreader
  rw [goneTokens, flightToken_congr hflights, htrace]
  exact Nat.le_refl _

theorem quiet_sent (kind : AckKind) (pid : Int) (r : InboundRecipient) :
    Quiet (.sent kind pid r) := fun _ => ⟨by simp, fun _ => rfl⟩

theorem quiet_started (r : InboundRecipient) : Quiet (.started r) :=
  fun _ => ⟨by simp, fun _ => rfl⟩

theorem Tokens.send {f : InboundPublishFlow} {acts : List Act} {air : List Received}
    {kind : AckKind} {pid : Int} {r : InboundRecipient}
    (h : Tokens f (.send kind pid r :: acts) air) : Tokens (f.log (.sent kind pid r)) acts air := by
  refine h.shrink (fun pid k => Nat.le_refl _) (fun pid' k => ?_) rfl rfl
    ((quiet_sent kind pid r).released rfl) id
  have hgone := @Quiet.goneTokens _ (quiet_sent kind pid r) f (f.log (.sent kind pid r)) rfl rfl
    acts pid' k
  have hcons : acts.countP (Act.delivers pid' k) ≤
      (Act.send kind pid r :: acts).countP (Act.delivers pid' k) := by
    rw [List.countP_cons]
    exact Nat.le_add_right _ _
  rw [hgone, goneTokens, goneTokens]
  omega

/-- A delivery turns the token of its await into a delivered one. -/
theorem Tokens.handOver {f : InboundPublishFlow} {acts : List Act} {air : List Received}
    {r : InboundRecipient} {callback : Option AckCallback}
    (h : Tokens f (.deliver r callback :: acts) air) : Tokens (f.handOver r callback) acts air := by
  have hsame := f.sameTables_handOver r callback
  have htrace : (∀ pid k, (f.handOver r callback).trace.countP (TraceEntry.delivers pid k) ≤
      f.trace.countP (TraceEntry.delivers pid k) + if keyed pid k r.message then 1 else 0) ∧
      ∀ pid, (f.handOver r callback).released pid = f.released pid := by
    rcases f.handOver_cases r callback with ⟨-, he⟩ | ⟨request, -, he⟩ | ⟨filter, entry, -, -, he⟩ <;>
      rw [he]
    · exact ⟨fun pid k => Nat.le_add_right _ _, fun pid => rfl⟩
    · refine ⟨fun pid k => ?_, fun pid => ?_⟩
      · rw [log, List.countP_cons]
        exact Nat.le_refl _
      · rw [released, log]
        exact List.count_cons_of_ne (by simp)
    · refine ⟨fun pid k => ?_, fun pid => ?_⟩
      · rw [enqueue, List.countP_cons]
        exact Nat.le_refl _
      · rw [released, enqueue]
        exact List.count_cons_of_ne (by simp)
  refine h.shrink (fun pid k => (heldTokens_congr hsame.buffers air pid k).le) (fun pid k => ?_)
    hsame.inflight hsame.pendingAck htrace.2 (by rw [reader_handOver]; exact id)
  have hle := htrace.1 pid k
  rw [goneTokens, goneTokens, flightToken_congr hsame.inflight, List.countP_cons, Act.delivers]
  omega

/-- Messages move between object `i` and the running task, or leave. -/
theorem Tokens.move {f : InboundPublishFlow} {acts : List Act} {air air' : List Received}
    (h : Tokens f acts air) {i : Nat} {b b' : Buffered} (hb : f.buffers[i]? = some b)
    (hcount : ∀ q, b'.held.countP q + air'.countP q ≤ b.held.countP q + air.countP q) :
    Tokens (f.setBuffer i b') acts air' := by
  refine h.shrink (fun pid k => ?_) (fun pid k => Nat.le_refl _) rfl rfl (fun pid => rfl) id
  have hset := heldWith_setBuffer hb b' (keyed pid k)
  have hc := hcount (keyed pid k)
  rw [heldTokens, heldTokens]
  omega

/-! ## Exchanges -/

/-- A new message brings a new token: its key is not in use. -/
theorem Tokens.newcomer {f : InboundPublishFlow} {acts : List Act} (h : Tokens f acts [])
    (hrun : f.reader.isStopped = false) {m : Received}
    (hnew : ∀ pid, asksFor pid m = true → Nowhere f [] pid ∧ m.epoch = f.released pid) :
    Tokens f acts [m] := by
  have hheld : ∀ pid k, f.heldTokens [m] pid k =
      f.heldTokens [] pid k + if keyed pid k m then 1 else 0 := fun pid k => by
    rw [heldTokens, heldTokens, List.countP_singleton, List.countP_nil, Nat.add_zero]
  have hzero : ∀ pid k, keyed pid k m = true →
      f.heldTokens [] pid k + f.goneTokens acts pid k = 0 := by
    intro pid k hk
    obtain ⟨hask, hepoch⟩ := keyed_iff.1 hk
    obtain ⟨hno, hrel⟩ := hnew pid hask
    by_contra hne
    rcases (h.recent hrun pid k (Nat.pos_of_ne_zero hne)).2 (hepoch.symm.trans hrel) with
      hfl | hpe | hin
    · exact hfl hno.flight
    · exact hno.pending hpe
    · have hle : f.heldTokens [] pid k ≤ f.heldWith (asksFor pid) := by
        rw [heldTokens, List.countP_nil, Nat.add_zero]
        exact List.sum_le_sum fun b _ => countP_keyed_le pid k b.held
      have hnone := hno.held
      rw [List.countP_nil] at hnone
      omega
  refine ⟨fun pid k => ?_, fun _ pid k hpos => ?_⟩
  · rw [hheld]
    split
    · next hk =>
      have hz := hzero pid k hk
      omega
    · exact h.once pid k
  · rw [hheld] at hpos
    by_cases hk : keyed pid k m = true
    · obtain ⟨hask, hepoch⟩ := keyed_iff.1 hk
      refine ⟨by rw [← hepoch, (hnew pid hask).2], fun _ => Or.inr (Or.inr ?_)⟩
      rw [hheld, if_pos hk]
      exact Nat.succ_pos _
    · rw [if_neg hk, Nat.add_zero] at hpos
      obtain ⟨hle, huse⟩ := h.recent hrun pid k hpos
      refine ⟨hle, fun he => ?_⟩
      rw [InUse, hheld, if_neg hk]
      exact huse he

theorem heldTokens_cons (f : InboundPublishFlow) (m : Received) (air : List Received)
    (pid : Int) (k : Nat) : f.heldTokens (m :: air) pid k =
      f.heldTokens air pid k + if keyed pid k m then 1 else 0 := by
  rw [heldTokens, heldTokens, List.countP_cons, Nat.add_assoc]

/-- The exchange of a message of the running task starts: its token moves to where the id
    is from now on. -/
theorem Tokens.start {f f' : InboundPublishFlow} {acts acts' : List Act} {air : List Received}
    {m : Received} {pid : Int} (h : Tokens f acts (m :: air)) (hask : asksFor pid m = true)
    (hbuffers : f'.buffers = f.buffers)
    (hgone : ∀ pid' k, f'.goneTokens acts' pid' k ≤
      f.goneTokens acts pid' k + if keyed pid' k m then 1 else 0)
    (hplace : f'.inflightQos2In.get? pid ≠ none ∨ pid ∈ f'.pendingAckQos2In)
    (hflights : ∀ pid', pid ≠ pid' →
      f'.inflightQos2In.get? pid' = f.inflightQos2In.get? pid')
    (hpending : f.pendingAckQos2In ⊆ f'.pendingAckQos2In)
    (hreleased : ∀ pid', f'.released pid' = f.released pid')
    (hreader : f'.reader = f.reader) : Tokens f' acts' air := by
  have hheld : ∀ pid' k, f'.heldTokens air pid' k = f.heldTokens air pid' k :=
    heldTokens_congr hbuffers air
  refine ⟨fun pid' k => ?_, fun hrun pid' k hpos => ?_⟩
  · have honce := h.once pid' k
    have hg := hgone pid' k
    rw [heldTokens_cons] at honce
    rw [hheld]
    omega
  · rw [hreader] at hrun
    have hg := hgone pid' k
    rw [hheld] at hpos
    obtain ⟨hle, huse⟩ := h.recent hrun pid' k (by rw [heldTokens_cons]; omega)
    rw [hreleased]
    refine ⟨hle, fun he => ?_⟩
    by_cases hp : pid = pid'
    · subst hp
      rcases hplace with hfl | hpe
      · exact Or.inl hfl
      · exact Or.inr (Or.inl hpe)
    · rcases huse he with hfl | hpe | hin
      · exact Or.inl (by rw [hflights pid' hp]; exact hfl)
      · exact Or.inr (Or.inl (hpending hpe))
      · rw [heldTokens_cons, keyed_eq_false_of_ne hask hp k] at hin
        exact Or.inr (Or.inr (by rw [hheld]; exact hin))

theorem flightToken_startAuto {f : InboundPublishFlow} {air : List Received} {pid : Int}
    {r : InboundRecipient} (hno : Nowhere f air pid) (hask : asksFor pid r.message = true)
    (pid' : Int) (k : Nat) : (f.startAuto pid r).flightToken pid' k =
      f.flightToken pid' k + if keyed pid' k r.message then 1 else 0 := by
  have hget : (f.startAuto pid r).inflightQos2In.get? pid' =
      if pid = pid' then some { recipient := r } else f.inflightQos2In.get? pid' :=
    Dict.get?_set _ _ pid' _
  rw [flightToken, hget]
  by_cases hp : pid = pid'
  · subst hp
    rw [if_pos rfl, flightToken, hno.flight, Nat.zero_add]
    rfl
  · rw [if_neg hp, keyed_eq_false_of_ne hask hp k]
    rfl

theorem Tokens.startAuto {f : InboundPublishFlow} {acts : List Act} {air : List Received}
    {pid : Int} {r : InboundRecipient} (h : Tokens f acts (r.message :: air))
    (hno : Nowhere f air pid) (hask : asksFor pid r.message = true) :
    Tokens (f.startAuto pid r) acts air := by
  have hget : ∀ pid', (f.startAuto pid r).inflightQos2In.get? pid' =
      if pid = pid' then some { recipient := r } else f.inflightQos2In.get? pid' :=
    fun pid' => Dict.get?_set _ _ pid' _
  refine h.start hask rfl (fun pid' k => ?_) (Or.inl ?_) (fun pid' hne => ?_)
    (Finset.Subset.refl _) ((quiet_started r).released rfl) rfl
  · rw [goneTokens, goneTokens, flightToken_startAuto hno hask]
    have htrace : (f.startAuto pid r).trace.countP (TraceEntry.delivers pid' k) =
        f.trace.countP (TraceEntry.delivers pid' k) := rfl
    omega
  · rw [hget, if_pos rfl]
    simp
  · rw [hget, if_neg hne]

theorem Tokens.startManual {f : InboundPublishFlow} {acts : List Act} {air : List Received}
    {pid : Int} {r : InboundRecipient} (h : Tokens f acts (r.message :: air))
    (hask : asksFor pid r.message = true) (callback : Option AckCallback) :
    Tokens (f.startManual pid r) (.deliver r callback :: acts) air := by
  refine h.start hask rfl (fun pid' k => ?_) (Or.inr (Finset.mem_insert_self _ _))
    (fun _ _ => rfl) (Finset.subset_insert _ _) ((quiet_started r).released rfl) rfl
  have hflight : (f.startManual pid r).flightToken pid' k = f.flightToken pid' k := rfl
  have htrace : (f.startManual pid r).trace.countP (TraceEntry.delivers pid' k) =
      f.trace.countP (TraceEntry.delivers pid' k) := rfl
  rw [goneTokens, goneTokens, List.countP_cons, Act.delivers, hflight, htrace]
  omega

theorem Tokens.tail {f : InboundPublishFlow} {acts : List Act} {air : List Received}
    {m : Received} (h : Tokens f acts (m :: air)) : Tokens f acts air := by
  refine h.shrink (fun pid k => ?_) (fun pid k => Nat.le_refl _) rfl rfl (fun _ => rfl) id
  rw [heldTokens_cons]
  exact Nat.le_add_right _ _

/-- A delivery below QoS 2 has no token. -/
theorem Tokens.addDeliver {f : InboundPublishFlow} {acts : List Act} {air : List Received}
    {r : InboundRecipient} (h : Tokens f acts air)
    (hqos : r.message.packet.qos ≠ .exactlyOnce) (callback : Option AckCallback) :
    Tokens f (.deliver r callback :: acts) air := by
  refine h.shrink (fun pid k => Nat.le_refl _) (fun pid k => ?_) rfl rfl (fun _ => rfl) id
  have hno : keyed pid k r.message = false := by
    rw [Bool.eq_false_iff]
    exact fun hk => hqos (asksFor_iff.1 (keyed_iff.1 hk).1).1
  rw [goneTokens, goneTokens, List.countP_cons, Act.delivers, hno]
  exact Nat.le_refl _

theorem Tokens.handsOn {f f' : InboundPublishFlow} {acts : List Act} {air : List Received}
    {r : InboundRecipient} (h : Tokens f acts (r.message :: air))
    (hexcl : Exclusive f acts (r.message :: air)) (hands : HandsOn f r f') :
    Tokens f' acts air := by
  cases hands with
  | qos0 hqos => exact (h.tail.addDeliver (by rw [hqos]; simp) none).handOver
  | qos1Auto pid hqos =>
    have hover := (h.tail.addDeliver (by rw [hqos]; simp) none).handOver
    exact hover.quiet (quiet_sent .puback pid r) rfl rfl rfl rfl id
  | qos1Manual pid hqos _ => exact (h.tail.addDeliver (by rw [hqos]; simp) _).handOver
  | qos2Auto pid hqos hpid _ =>
    have hask := asksFor_iff.2 ⟨hqos, hpid⟩
    have hstart := h.startAuto (hexcl.nowhere hask) hask
    exact hstart.quiet (quiet_sent .pubrec pid r) rfl rfl rfl rfl id
  | qos2Manual pid hqos hpid _ =>
    exact (h.startManual (asksFor_iff.2 ⟨hqos, hpid⟩) _).handOver

theorem Tokens.perm {f : InboundPublishFlow} {acts : List Act} {air air' : List Received}
    (h : Tokens f acts air) (hperm : air.Perm air') : Tokens f acts air' := by
  refine h.shrink (fun pid k => ?_) (fun pid k => Nat.le_refl _) rfl rfl (fun _ => rfl) id
  rw [heldTokens, heldTokens, hperm.countP_eq]

/-- The message is taken into the buffer, and its token with it. -/
theorem Tokens.takesIn {f f' : InboundPublishFlow} {acts : List Act} {m : Received}
    (h : Tokens f acts [m]) (htakes : TakesIn f m f') : Tokens f' acts [] := by
  have hquiet : Quiet (.buffered m) := fun _ => ⟨by simp, fun _ => rfl⟩
  have hsame : f'.trace = .buffered m :: f.trace ∧ f'.inflightQos2In = f.inflightQos2In ∧
      f'.pendingAckQos2In = f.pendingAckQos2In ∧ f'.reader = f.reader := by
    cases htakes <;> exact ⟨rfl, rfl, rfl, rfl⟩
  obtain ⟨htrace, hflights, hpending, hreader⟩ := hsame
  refine h.shrink (fun pid k => ?_)
    (fun pid k => (hquiet.goneTokens htrace hflights acts pid k).le) hflights hpending
    (hquiet.released htrace) (by rw [hreader]; exact id)
  rw [heldTokens, heldTokens, htakes.heldWith, List.countP_singleton, List.countP_nil, Nat.add_zero]

theorem Tokens.addSend {f : InboundPublishFlow} {acts : List Act} {air : List Received}
    (h : Tokens f acts air) (kind : AckKind) (pid : Int) (r : InboundRecipient) :
    Tokens f (.send kind pid r :: acts) air := by
  refine h.shrink (fun _ _ => Nat.le_refl _) (fun pid' k => ?_) rfl rfl (fun _ => rfl) id
  rw [goneTokens, goneTokens, List.countP_cons]
  exact Nat.le_refl _

theorem Tokens.handles {f f' : InboundPublishFlow} {env : Environment} {m : Received}
    {acts : List Act} (h : Tokens f [] []) (hacc : f.Accounts fun _ => [])
    (hrun : f.reader.isStopped = false)
    (hepoch : ∀ pid, m.packet.packetId = some pid → m.epoch = f.released pid)
    (hands : Handles f env m f' acts) : Tokens f' acts [] := by
  have hmsg := f.message_selectRecipient env m
  have hnew : ∀ {pid : Int}, m.packet.packetId = some pid → f.IdFree pid → Tokens f [] [m] := by
    intro pid hpid hfree
    refine h.newcomer hrun fun pid' hask => ?_
    have hpid' := (asksFor_iff.1 hask).2
    obtain rfl : pid' = pid := Option.some.inj (hpid'.symm.trans hpid)
    exact ⟨⟨hacc.heldWith_eq_zero hfree, hfree.1, hfree.2.1⟩, hepoch pid' hpid⟩
  have hask : ∀ {pid : Int}, m.packet.qos = .exactlyOnce → m.packet.packetId = some pid →
      asksFor pid (f.selectRecipient env m).message = true := fun hqos hpid => by
    rw [hmsg]
    exact asksFor_iff.2 ⟨hqos, hpid⟩
  cases hands with
  | ignored => exact h
  | takesIn htakes hfree =>
    by_cases hqos : m.packet.qos = .exactlyOnce
    · obtain ⟨pid, hpid, hfree⟩ := hfree hqos
      exact (hnew hpid hfree).takesIn htakes
    · refine Tokens.takesIn (h.newcomer hrun fun pid hask => ?_) htakes
      exact absurd (asksFor_iff.1 hask).1 hqos
  | qos0 hqos => exact h.addDeliver (by rw [hmsg, hqos]; simp) none
  | qos1Auto pid hqos => exact (h.addSend .puback pid _).addDeliver (by rw [hmsg, hqos]; simp) none
  | qos1Manual pid hqos _ => exact h.addDeliver (by rw [hmsg, hqos]; simp) _
  | qos2Again pid flight _ _ _ => exact h.addSend .pubrec pid flight.recipient
  | qos2Auto pid hqos hpid hfree _ =>
    have hm : Tokens f [] [(f.selectRecipient env m).message] := by
      rw [hmsg]
      exact hnew hpid hfree
    exact (hm.startAuto ⟨hacc.heldWith_eq_zero hfree, hfree.1, hfree.2.1⟩
      (hask hqos hpid)).addSend .pubrec pid _
  | qos2Manual pid hqos hpid hfree _ =>
    have hm : Tokens f [] [(f.selectRecipient env m).message] := by
      rw [hmsg]
      exact hnew hpid hfree
    exact hm.startManual (hask hqos hpid) _

/-- A PUBREL ends the key: its token moves from the flight to the await, and a later PUBLISH
    of the id has another key. -/
theorem Tokens.pubrel {f : InboundPublishFlow} {pid : Int} {flight : InboundQoS2Flight}
    (h : Tokens f [] []) (hexcl : Exclusive f [] [])
    (hflight : f.inflightQos2In.get? pid = some flight) :
    Tokens ((f.log (.pubrel pid)).popFlight pid)
      (.send .pubcomp pid flight.recipient ::
        if flight.delivered then [] else [.deliver flight.recipient none]) [] := by
  have hask := hexcl.flights pid flight hflight
  have hget : ∀ pid', ((f.log (.pubrel pid)).popFlight pid).inflightQos2In.get? pid' =
      if pid = pid' then none else f.inflightQos2In.get? pid' := Dict.get?_pop _ _
  have hreleased : ∀ pid', ((f.log (.pubrel pid)).popFlight pid).released pid' =
      f.released pid' + if pid = pid' then 1 else 0 := fun pid' => by
    simp only [released, popFlight, log, List.count_cons, beq_iff_eq, TraceEntry.pubrel.injEq]
  have hacts : ∀ pid' k, (Act.send .pubcomp pid flight.recipient ::
      if flight.delivered then [] else [.deliver flight.recipient none]).countP
        (Act.delivers pid' k) = if flight.owes pid' k then 1 else 0 := fun pid' k => by
    rw [List.countP_cons, InboundQoS2Flight.owes]
    cases flight.delivered with
    | true => rfl
    | false =>
      rw [if_neg Bool.false_ne_true, List.countP_singleton]
      rfl
  have hsum : ∀ pid' k, ((f.log (.pubrel pid)).popFlight pid).goneTokens
      (.send .pubcomp pid flight.recipient ::
        if flight.delivered then [] else [.deliver flight.recipient none]) pid' k =
      f.goneTokens [] pid' k := fun pid' k => by
    have htrace : ((f.log (.pubrel pid)).popFlight pid).trace.countP (TraceEntry.delivers pid' k) =
        f.trace.countP (TraceEntry.delivers pid' k) := rfl
    rw [goneTokens, goneTokens, hacts, htrace, List.countP_nil, flightToken, flightToken, hget]
    by_cases hp : pid = pid'
    · subst hp
      rw [if_pos rfl, hflight]
      dsimp only
      omega
    · have hno : flight.owes pid' k = false := by
        rw [InboundQoS2Flight.owes, keyed_eq_false_of_ne hask hp, Bool.and_false]
      rw [if_neg hp, hno, if_neg Bool.false_ne_true]
  have hheld : ∀ pid' k, ((f.log (.pubrel pid)).popFlight pid).heldTokens [] pid' k =
      f.heldTokens [] pid' k := heldTokens_congr rfl []
  refine ⟨fun pid' k => ?_, fun hrun pid' k hpos => ?_⟩
  · rw [hheld, hsum]
    exact h.once pid' k
  · rw [hheld, hsum] at hpos
    obtain ⟨hle, huse⟩ := h.recent hrun pid' k hpos
    rw [hreleased]
    by_cases hp : pid = pid'
    · rw [if_pos hp]
      exact ⟨by omega, fun he => absurd he (by omega)⟩
    · rw [if_neg hp, Nat.add_zero]
      refine ⟨hle, fun he => ?_⟩
      rw [InUse, hget, if_neg hp, hheld]
      exact huse he

/-- The id moves to `inflight_qos2_in` with nothing left to deliver. -/
theorem Tokens.deliveredFlight {f : InboundPublishFlow} {acts : List Act} {air : List Received}
    {pid : Int} {r : InboundRecipient} (h : Tokens f acts air)
    (hnone : f.inflightQos2In.get? pid = none) :
    Tokens (f.runCallback (some (.pubrec pid r))) acts air := by
  have hget : ∀ pid', (f.runCallback (some (.pubrec pid r))).inflightQos2In.get? pid' =
      if pid = pid' then some { recipient := r, delivered := true }
        else f.inflightQos2In.get? pid' := fun pid' => Dict.get?_set _ _ pid' _
  have hgone : ∀ pid' k, (f.runCallback (some (.pubrec pid r))).goneTokens acts pid' k =
      f.goneTokens acts pid' k := fun pid' k => by
    have htrace : (f.runCallback (some (.pubrec pid r))).trace.countP (TraceEntry.delivers pid' k) =
        f.trace.countP (TraceEntry.delivers pid' k) := rfl
    rw [goneTokens, goneTokens, htrace, flightToken, flightToken, hget]
    by_cases hp : pid = pid'
    · subst hp
      rw [if_pos rfl, hnone]
      rfl
    · rw [if_neg hp]
  have hheld : ∀ pid' k, (f.runCallback (some (.pubrec pid r))).heldTokens air pid' k =
      f.heldTokens air pid' k := heldTokens_congr rfl air
  refine ⟨fun pid' k => ?_, fun hrun pid' k hpos => ?_⟩
  · rw [hheld, hgone]
    exact h.once pid' k
  · rw [hheld, hgone] at hpos
    obtain ⟨hle, huse⟩ := h.recent hrun pid' k hpos
    have hreleased : (f.runCallback (some (.pubrec pid r))).released pid' = f.released pid' :=
      (quiet_sent .pubrec pid r).released rfl pid'
    rw [hreleased]
    refine ⟨hle, fun he => ?_⟩
    rw [InUse, hget, hheld]
    by_cases hp : pid = pid'
    · rw [if_pos hp]
      exact Or.inl (Option.some_ne_none _)
    · rw [if_neg hp]
      rcases huse he with hfl | hpe | hin
      · exact Or.inl hfl
      · exact Or.inr (Or.inl (Finset.mem_erase.2 ⟨Ne.symm hp, hpe⟩))
      · exact Or.inr (Or.inr hin)

/-- A message of a callback was delivered, and its id stays in use. -/
theorem Tokens.ack {f : InboundPublishFlow} {acts : List Act} (h : Tokens f acts [])
    (hexcl : Exclusive f acts []) (k : Nat) : Tokens (f.ack k) acts [] := by
  have hacked : ∀ message : Message, Quiet (.acked message.received) :=
    fun message _ => ⟨by simp, fun _ => rfl⟩
  rcases f.ack_cases k with he | ⟨message, hmsg, hres, hcases⟩
  · rw [he]
    exact h
  have hbase : Tokens (f.resolve k message) acts [] :=
    h.quiet (hacked message) rfl rfl rfl rfl id
  rcases hcases with ⟨he, -⟩ | ⟨pid, r, -, he⟩ | ⟨pid, r, hc, he⟩ <;> rw [he]
  · exact hbase
  · exact hbase.quiet (quiet_sent .puback pid r) rfl rfl rfl rfl id
  · have hun : unresolved pid message = true := by
      rw [unresolved, hres, hc]
      exact decide_eq_true rfl
    have hpos : 0 < f.messages.countP (unresolved pid) :=
      List.countP_pos_iff.2 ⟨message, List.mem_of_getElem? hmsg, hun⟩
    have hpend := hexcl.callbackPending pid (by omega)
    have hnone : (f.resolve k message).inflightQos2In.get? pid = none := hexcl.pendingFree pid hpend
    exact hbase.deliveredFlight hnone

/-! ## The order of `ack()` and PUBREC -/

theorem mem_takeWhile_of_append {α : Type} {x : α} {p : α → Bool} {es xs : List α} (hx : x ∉ es)
    (h : x ∈ (es ++ xs).takeWhile p) : x ∈ xs.takeWhile p := by
  induction es with
  | nil => exact h
  | cons e es ih =>
    rw [List.cons_append, List.takeWhile_cons] at h
    split at h
    · rcases List.mem_cons.1 h with he | h
      · exact absurd (List.mem_cons.2 (Or.inl he)) hx
      · exact ih (fun hmem => hx (List.mem_cons_of_mem _ hmem)) h
    · cases h

/-- The entry is after the last PUBREL for the id. -/
def SincePubrel (f : InboundPublishFlow) (pid : Int) (entry : TraceEntry) : Prop :=
  entry ∈ f.trace.takeWhile fun e => decide (e ≠ .pubrel pid)

/-- PUBREC of a manually acknowledged message follows its `ack()`, and an id whose PUBREC was
    sent after its last PUBREL is in flight. `acts` are the awaits to come. -/
structure AckOrder (f : InboundPublishFlow) (acts : List Act) : Prop where
  sent : ∀ pid r t, (.sent .pubrec pid r :: t) <:+ f.trace → r.autoAck = false →
    .acked r.message ∈ t
  flights : ∀ pid flight, f.inflightQos2In.get? pid = some flight →
    flight.recipient.autoAck = false → .acked flight.recipient.message ∈ f.trace
  sends : ∀ pid r, .send .pubrec pid r ∈ acts → f.inflightQos2In.get? pid ≠ none ∧
    (r.autoAck = false → .acked r.message ∈ f.trace)
  messages : ∀ message ∈ f.messages, ∀ pid r, message.ackCallback = some (.pubrec pid r) →
    r.message = message.received
  deliveries : ∀ r pid r', .deliver r (some (.pubrec pid r')) ∈ acts → r' = r
  window : ∀ pid r, f.SincePubrel pid (.sent .pubrec pid r) → f.inflightQos2In.get? pid ≠ none

/-- No PUBREC is sent, and the flights stay as they are. -/
theorem AckOrder.calm {f f' : InboundPublishFlow} {acts acts' : List Act} (h : AckOrder f acts)
    {l : List TraceEntry} (hcalm : ∀ pid r, .sent .pubrec pid r ∉ l)
    (htrace : f'.trace = l ++ f.trace) (hflights : f'.inflightQos2In = f.inflightQos2In)
    (hmessages : ∀ message ∈ f'.messages, ∀ pid r, message.ackCallback = some (.pubrec pid r) →
      r.message = message.received)
    (hacts : acts' ⊆ acts) : AckOrder f' acts' := by
  have hmem : ∀ {e}, e ∈ f.trace → e ∈ f'.trace := fun he => by
    rw [htrace]
    exact List.mem_append_right _ he
  refine ⟨fun pid r t hsuf => ?_, fun pid flight hget hman => ?_, fun pid r hact => ?_, hmessages,
    fun r pid r' hact => h.deliveries r pid r' (hacts hact), fun pid r hin => ?_⟩
  · rw [htrace] at hsuf
    exact h.sent pid r t (suffix_of_append (hcalm pid r) hsuf)
  · rw [hflights] at hget
    exact hmem (h.flights pid flight hget hman)
  · obtain ⟨hfl, hack⟩ := h.sends pid r (hacts hact)
    rw [hflights]
    exact ⟨hfl, fun hman => hmem (hack hman)⟩
  · rw [hflights]
    rw [SincePubrel, htrace] at hin
    exact h.window pid r (mem_takeWhile_of_append (hcalm pid r) hin)

theorem AckOrder.congr {f f' : InboundPublishFlow} {acts : List Act} (h : AckOrder f acts)
    (htrace : f'.trace = f.trace) (hflights : f'.inflightQos2In = f.inflightQos2In)
    (hmessages : f'.messages = f.messages) : AckOrder f' acts := by
  refine h.calm (l := []) (fun _ _ hmem => by cases hmem) htrace hflights ?_
    (List.Subset.refl _)
  rw [hmessages]
  exact h.messages

/-- A PUBREC is sent for an id in flight, after its `ack()` if there has to be one. -/
theorem AckOrder.pubrec {f : InboundPublishFlow} {acts : List Act} (h : AckOrder f acts)
    {pid : Int} {r : InboundRecipient} (hflight : f.inflightQos2In.get? pid ≠ none)
    (hack : r.autoAck = false → .acked r.message ∈ f.trace) :
    AckOrder (f.log (.sent .pubrec pid r)) acts := by
  refine ⟨fun pid' r' t hsuf hman => ?_, fun pid' flight hget hman => ?_, fun pid' r' hact => ?_,
    h.messages, h.deliveries, fun pid' r' hin => ?_⟩
  · rcases List.suffix_cons_iff.1 hsuf with he | hsuf
    · cases he
      exact hack hman
    · exact h.sent pid' r' t hsuf hman
  · exact List.mem_cons_of_mem _ (h.flights pid' flight hget hman)
  · obtain ⟨hfl, hacked⟩ := h.sends pid' r' hact
    exact ⟨hfl, fun hman => List.mem_cons_of_mem _ (hacked hman)⟩
  · rw [SincePubrel, log, List.takeWhile_cons] at hin
    split at hin
    · rcases List.mem_cons.1 hin with he | hin
      · cases he
        exact hflight
      · exact h.window pid' r' hin
    · cases hin

theorem AckOrder.send {f : InboundPublishFlow} {acts : List Act} {kind : AckKind} {pid : Int}
    {r : InboundRecipient} (h : AckOrder f (.send kind pid r :: acts)) :
    AckOrder (f.log (.sent kind pid r)) acts := by
  have hcalm : kind ≠ .pubrec → AckOrder (f.log (.sent kind pid r)) acts := fun hne =>
    h.calm (l := [.sent kind pid r])
      (fun pid' r' hmem => hne (TraceEntry.sent.inj (List.mem_singleton.1 hmem)).1.symm) rfl rfl
      h.messages (List.subset_cons_self _ _)
  cases kind with
  | puback => exact hcalm (by simp)
  | pubcomp => exact hcalm (by simp)
  | pubrec =>
    obtain ⟨hfl, hack⟩ := h.sends pid r List.mem_cons_self
    exact AckOrder.pubrec (h.calm (l := []) (fun _ _ hmem => by cases hmem) rfl rfl h.messages
      (List.subset_cons_self _ _)) hfl hack

theorem AckOrder.handOver {f : InboundPublishFlow} {acts : List Act} {r : InboundRecipient}
    {callback : Option AckCallback} (h : AckOrder f (.deliver r callback :: acts)) :
    AckOrder (f.handOver r callback) acts := by
  have hsub : acts ⊆ .deliver r callback :: acts := List.subset_cons_self _ _
  rcases f.handOver_cases r callback with ⟨-, he⟩ | ⟨request, -, he⟩ | ⟨filter, entry, -, -, he⟩ <;>
    rw [he]
  · exact h.calm (l := []) (fun _ _ hmem => by cases hmem) rfl rfl h.messages hsub
  · exact h.calm (l := [_]) (fun _ _ hmem => by cases List.mem_singleton.1 hmem) rfl rfl
      h.messages hsub
  · refine h.calm (l := [_]) (fun _ _ hmem => by cases List.mem_singleton.1 hmem) rfl rfl
      (fun message hmem pid r' hc => ?_) hsub
    rcases List.mem_append.1 hmem with hmem | hmem
    · exact h.messages message hmem pid r' hc
    · rw [List.mem_singleton.1 hmem] at hc ⊢
      dsimp only at hc
      split at hc
      · cases hc
      · rw [h.deliveries r pid r' (hc ▸ List.mem_cons_self)]

theorem AckOrder.startAuto {f : InboundPublishFlow} {acts : List Act} (h : AckOrder f acts)
    {pid : Int} {r : InboundRecipient} (hauto : r.autoAck = true) :
    AckOrder (f.startAuto pid r) (.send .pubrec pid r :: acts) := by
  have hget : ∀ pid', (f.startAuto pid r).inflightQos2In.get? pid' =
      if pid = pid' then some { recipient := r } else f.inflightQos2In.get? pid' :=
    fun pid' => Dict.get?_set _ _ pid' _
  have hsome : ∀ pid', f.inflightQos2In.get? pid' ≠ none ∨ pid = pid' →
      (f.startAuto pid r).inflightQos2In.get? pid' ≠ none := fun pid' hor => by
    rw [hget]
    split
    · exact Option.some_ne_none _
    · next hne => exact hor.resolve_right hne
  have hbase : AckOrder (f.log (.started r)) acts :=
    h.calm (l := [_]) (fun _ _ hmem => by cases List.mem_singleton.1 hmem) rfl rfl h.messages
      (List.Subset.refl _)
  refine ⟨hbase.sent, fun pid' flight hf hman => ?_, fun pid' r' hact => ?_, h.messages,
    fun r' pid' r'' hact => ?_, fun pid' r' hin => hsome pid' (Or.inl (hbase.window pid' r' hin))⟩
  · rw [hget] at hf
    split at hf
    · obtain rfl := Option.some.inj hf
      rw [hauto] at hman
      cases hman
    · exact hbase.flights pid' flight hf hman
  · rcases List.mem_cons.1 hact with he | hact
    · cases he
      exact ⟨hsome pid (Or.inr rfl), fun hman => by rw [hauto] at hman; cases hman⟩
    · obtain ⟨hfl, hack⟩ := hbase.sends pid' r' hact
      exact ⟨hsome pid' (Or.inl hfl), hack⟩
  · rcases List.mem_cons.1 hact with he | hact
    · cases he
    · exact h.deliveries r' pid' r'' hact

theorem AckOrder.addDeliver {f : InboundPublishFlow} {acts : List Act} (h : AckOrder f acts)
    {r : InboundRecipient} {callback : Option AckCallback}
    (hown : ∀ pid r', callback = some (.pubrec pid r') → r' = r) :
    AckOrder f (.deliver r callback :: acts) := by
  refine ⟨h.sent, h.flights, fun pid r' hact => ?_, h.messages, fun r' pid r'' hact => ?_, h.window⟩
  · rcases List.mem_cons.1 hact with he | hact
    · cases he
    · exact h.sends pid r' hact
  · rcases List.mem_cons.1 hact with he | hact
    · cases he
      exact hown pid r'' rfl
    · exact h.deliveries r' pid r'' hact

theorem AckOrder.startManual {f : InboundPublishFlow} {acts : List Act} (h : AckOrder f acts)
    (pid : Int) (r : InboundRecipient) :
    AckOrder (f.startManual pid r) (.deliver r (some (.pubrec pid r)) :: acts) := by
  have hbase : AckOrder (f.startManual pid r) acts :=
    h.calm (l := [.started r]) (fun _ _ hmem => by cases List.mem_singleton.1 hmem) rfl rfl
      h.messages (List.Subset.refl _)
  refine hbase.addDeliver fun pid' r' he => ?_
  cases he
  rfl

theorem AckOrder.handsOn {f f' : InboundPublishFlow} {acts : List Act} {r : InboundRecipient}
    (h : AckOrder f acts) (hands : HandsOn f r f') : AckOrder f' acts := by
  cases hands with
  | qos0 _ => exact (h.addDeliver fun _ _ he => by cases he).handOver
  | qos1Auto pid _ =>
    have hover : AckOrder (f.handOver r none) acts :=
      (h.addDeliver fun _ _ he => by cases he).handOver
    exact hover.calm (l := [.sent .puback pid r])
      (fun _ _ hmem => by cases List.mem_singleton.1 hmem) rfl rfl hover.messages
      (List.Subset.refl _)
  | qos1Manual pid _ _ => exact (h.addDeliver fun _ _ he => by cases he).handOver
  | qos2Auto pid _ _ hauto => exact (h.startAuto hauto).send
  | qos2Manual pid _ _ _ => exact (h.startManual pid r).handOver

theorem AckOrder.addSend {f : InboundPublishFlow} {acts : List Act} (h : AckOrder f acts)
    {kind : AckKind} {pid : Int} {r : InboundRecipient}
    (hack : kind = .pubrec → f.inflightQos2In.get? pid ≠ none ∧
      (r.autoAck = false → .acked r.message ∈ f.trace)) :
    AckOrder f (.send kind pid r :: acts) := by
  refine ⟨h.sent, h.flights, fun pid' r' hact => ?_, h.messages, fun r' pid' r'' hact => ?_, h.window⟩
  · rcases List.mem_cons.1 hact with he | hact
    · cases he
      exact hack rfl
    · exact h.sends pid' r' hact
  · rcases List.mem_cons.1 hact with he | hact
    · cases he
    · exact h.deliveries r' pid' r'' hact

theorem AckOrder.handles {f f' : InboundPublishFlow} {env : Environment} {m : Received}
    {acts : List Act} (h : AckOrder f []) (hands : Handles f env m f' acts) :
    AckOrder f' acts := by
  cases hands with
  | ignored => exact h
  | takesIn htakes _ =>
    cases htakes <;>
    exact h.calm (l := [.buffered m]) (fun _ _ hmem => by cases List.mem_singleton.1 hmem) rfl rfl
      h.messages (List.Subset.refl _)
  | qos0 _ => exact h.addDeliver fun _ _ he => by cases he
  | qos1Auto pid _ =>
    exact (h.addSend fun he => by cases he).addDeliver fun _ _ he => by cases he
  | qos1Manual pid _ _ => exact h.addDeliver fun _ _ he => by cases he
  | qos2Again pid flight _ _ hflight =>
    refine h.addSend fun _ => ⟨?_, h.flights pid flight hflight⟩
    rw [hflight]
    exact Option.some_ne_none _
  | qos2Auto pid _ _ _ hauto => exact h.startAuto hauto
  | qos2Manual pid _ _ _ _ => exact h.startManual pid _

/-- A PUBREL opens a new window for its id. -/
theorem AckOrder.pubrel {f : InboundPublishFlow} {pid : Int} {flight : InboundQoS2Flight}
    (h : AckOrder f []) :
    AckOrder ((f.log (.pubrel pid)).popFlight pid)
      (.send .pubcomp pid flight.recipient ::
        if flight.delivered then [] else [.deliver flight.recipient none]) := by
  have hlog : AckOrder (f.log (.pubrel pid)) [] :=
    h.calm (l := [.pubrel pid]) (fun _ _ hmem => by cases List.mem_singleton.1 hmem) rfl rfl
      h.messages (List.Subset.refl _)
  have hget : ∀ pid', ((f.log (.pubrel pid)).popFlight pid).inflightQos2In.get? pid' =
      if pid = pid' then none else f.inflightQos2In.get? pid' := Dict.get?_pop _ _
  have hpop : AckOrder ((f.log (.pubrel pid)).popFlight pid) [] := by
    refine ⟨hlog.sent, fun pid' flight' hf hman => ?_, fun _ _ hact => absurd hact List.not_mem_nil, h.messages,
      hlog.deliveries, fun pid' r hin => ?_⟩
    · rw [hget] at hf
      split at hf
      · cases hf
      · exact hlog.flights pid' flight' hf hman
    · rw [hget]
      split
      · next he =>
        -- nothing was sent for the id since this PUBREL
        subst he
        rw [SincePubrel, popFlight, log, List.takeWhile_cons, if_neg (by simp)] at hin
        cases hin
      · exact hlog.window pid' r hin
  refine AckOrder.addSend ?_ fun he => by cases he
  split
  · exact hpop
  · exact hpop.addDeliver fun _ _ he => by cases he

/-- The callback of an acknowledged message starts its flight and sends PUBREC. -/
theorem AckOrder.pubrecCallback {f : InboundPublishFlow} {acts : List Act} (h : AckOrder f acts)
    {pid : Int} {r : InboundRecipient} (hacked : .acked r.message ∈ f.trace) :
    AckOrder (f.runCallback (some (.pubrec pid r))) acts := by
  have hget : ∀ pid', (f.inflightQos2In.set pid { recipient := r, delivered := true }).get? pid' =
      if pid = pid' then some { recipient := r, delivered := true }
        else f.inflightQos2In.get? pid' := fun pid' => Dict.get?_set _ _ pid' _
  have hsome : ∀ pid', f.inflightQos2In.get? pid' ≠ none ∨ pid = pid' →
      (f.inflightQos2In.set pid { recipient := r, delivered := true }).get? pid' ≠ none :=
    fun pid' hor => by
      rw [hget]
      split
      · exact Option.some_ne_none _
      · next hne => exact hor.resolve_right hne
  have hset : AckOrder
      { f with
        pendingAckQos2In := f.pendingAckQos2In.erase pid
        inflightQos2In := f.inflightQos2In.set pid { recipient := r, delivered := true } } acts := by
    refine ⟨h.sent, fun pid' flight hf hman => ?_, fun pid' r' hact => ?_, h.messages, h.deliveries,
      fun pid' r' hin => hsome pid' (Or.inl (h.window pid' r' hin))⟩
    · rw [hget] at hf
      split at hf
      · obtain rfl := Option.some.inj hf
        exact hacked
      · exact h.flights pid' flight hf hman
    · obtain ⟨hfl, hack⟩ := h.sends pid' r' hact
      exact ⟨hsome pid' (Or.inl hfl), hack⟩
  exact hset.pubrec (hsome pid (Or.inr rfl)) fun _ => hacked

theorem AckOrder.ack {f : InboundPublishFlow} {acts : List Act} (h : AckOrder f acts) (k : Nat) :
    AckOrder (f.ack k) acts := by
  rcases f.ack_cases k with he | ⟨message, hmsg, hres, hcases⟩
  · rw [he]
    exact h
  have hmem := List.mem_of_getElem? hmsg
  have hbase : AckOrder (f.resolve k message) acts := by
    refine h.calm (l := [.acked message.received])
      (fun _ _ hin => by cases List.mem_singleton.1 hin) rfl rfl (fun other hother pid r hc => ?_)
      (List.Subset.refl _)
    rcases List.mem_or_eq_of_mem_set hother with hother | rfl
    · exact h.messages other hother pid r hc
    · refine h.messages message hmem pid r ?_
      cases hcb : message.ackCallback with
      | none => rw [hcb] at hc; cases hc
      | some c =>
        rw [hcb] at hc
        cases c with
        | puback _ _ _ => cases hc
        | pubrec _ _ => exact hc
  rcases hcases with ⟨he, -⟩ | ⟨pid, r, -, he⟩ | ⟨pid, r, hc, he⟩ <;> rw [he]
  · exact hbase
  · exact hbase.calm (l := [.sent .puback pid r])
      (fun _ _ hin => by cases List.mem_singleton.1 hin) rfl rfl hbase.messages
      (List.Subset.refl _)
  · -- the message was acknowledged in this call
    have hown := h.messages message hmem pid r hc
    have hacked : TraceEntry.acked r.message ∈ (f.resolve k message).trace := by
      rw [hown]
      exact List.mem_cons_self
    exact hbase.pubrecCallback hacked

/-! ## Steps -/

/-- The exchanges of the connection. -/
structure Exchanging (f : InboundPublishFlow) (acts : List Act) (air : List Received) : Prop where
  exclusive : Exclusive f acts air
  tokens : Tokens f acts air
  order : AckOrder f acts

theorem Exchanging.move {f : InboundPublishFlow} {acts : List Act} {air air' : List Received}
    (h : Exchanging f acts air) {i : Nat} {b b' : Buffered} (hb : f.buffers[i]? = some b)
    (hcount : ∀ q, b'.held.countP q + air'.countP q ≤ b.held.countP q + air.countP q) :
    Exchanging (f.setBuffer i b') acts air' :=
  ⟨h.exclusive.move hb hcount, h.tokens.move hb hcount, h.order.congr rfl rfl rfl⟩

/-- Only the buffers, the flights, the pending ids, the messages and the trace matter, and
    whether the read loop runs. -/
theorem Exchanging.congr {f f' : InboundPublishFlow} {acts : List Act} {air : List Received}
    (h : Exchanging f acts air) (htrace : f'.trace = f.trace) (hbuffers : f'.buffers = f.buffers)
    (hflights : f'.inflightQos2In = f.inflightQos2In)
    (hpending : f'.pendingAckQos2In = f.pendingAckQos2In) (hmessages : f'.messages = f.messages)
    (hreader : f'.reader.isStopped = false → f.reader.isStopped = false) :
    Exchanging f' acts air :=
  ⟨h.exclusive.congr hbuffers hflights hpending hmessages,
    h.tokens.congr htrace hbuffers hflights hpending hreader,
    h.order.congr htrace hflights hmessages⟩

/-- The read loop ends. -/
theorem Exchanging.stop {f : InboundPublishFlow} {acts : List Act} (h : Exchanging f acts [])
    (e : Option InboundError) : Exchanging { f with reader := .stopped e } [] [] := by
  have hfrozen : Exchanging { f with reader := .stopped e } acts [] :=
    h.congr rfl rfl rfl rfl rfl fun hrun => by cases hrun
  refine ⟨?_, ?_, ?_⟩
  · refine hfrozen.exclusive.shrink (fun _ => Nat.le_refl _) rfl rfl (fun pid => ?_)
      h.exclusive.messages fun _ _ hact => absurd hact List.not_mem_nil
    exact Nat.le_add_right _ _
  · refine hfrozen.tokens.shrink (fun _ _ => Nat.le_refl _) (fun pid k => ?_) rfl rfl (fun _ => rfl)
      id
    rw [goneTokens, goneTokens, List.countP_nil]
    omega
  · exact hfrozen.order.calm (l := []) (fun _ _ hmem => by cases hmem) rfl rfl h.order.messages
      (List.nil_subset _)

theorem Exchanging.logDropped {f : InboundPublishFlow} {acts : List Act} {air : List Received}
    (h : Exchanging f acts air) (ms : List Received) : Exchanging (f.logDropped ms) acts air := by
  have hcount : ∀ q : TraceEntry → Bool, (∀ m, q (.dropped m) = false) →
      (f.logDropped ms).trace.countP q = f.trace.countP q := fun q hq => by
    rw [InboundPublishFlow.logDropped, List.countP_append, List.countP_map]
    have hzero : ms.countP (q ∘ TraceEntry.dropped) = 0 :=
      List.countP_eq_zero.2 fun m _ hm => by rw [Function.comp, hq] at hm; cases hm
    rw [hzero, Nat.zero_add]
  refine ⟨h.exclusive.congr rfl rfl rfl rfl, ?_, ?_⟩
  · refine h.tokens.shrink (fun _ _ => Nat.le_refl _) (fun pid k => ?_) rfl rfl (fun pid => ?_) id
    · have hflight : (f.logDropped ms).flightToken pid k = f.flightToken pid k := rfl
      rw [goneTokens, goneTokens, hcount _ fun _ => rfl, hflight]
    · exact hcount _ fun m => by simp
  · refine h.order.calm (l := ms.map TraceEntry.dropped) (fun pid r hmem => ?_) rfl rfl
      h.order.messages (List.Subset.refl _)
    obtain ⟨m, -, he⟩ := List.mem_map.1 hmem
    cases he

theorem exchanging_drainRule (i : Nat) :
    DrainRule (fun f => Exchanging f f.reader.acts []) (fun f air => Exchanging f f.reader.acts air)
      (fun f air => Exchanging f f.reader.acts air)
      (fun f air _ => Exchanging f f.reader.acts air) i := by
  refine drainRule_of_move i ?_ ?_ ?_ ?_ ?_
  · exact fun f b b' air air' h hb hcount => h.move hb hcount
  · exact fun f a b hperm h => ⟨h.exclusive.perm hperm, h.tokens.perm hperm, h.order⟩
  · intro f f' r air h hands
    rw [hands.reader]
    exact ⟨h.exclusive.handsOn hands, h.tokens.handsOn h.exclusive hands, h.order.handsOn hands⟩
  · exact fun f replay h => h.congr rfl rfl rfl rfl rfl id
  · exact fun f ms air h => h.logDropped ms

theorem Exchanging.runReader {f : InboundPublishFlow} {acts : List Act} (env : Environment)
    (h : Exchanging f acts []) (hrun : f.reader.isStopped = false) :
    Exchanging (f.runReader env acts) (f.runReader env acts).reader.acts [] := by
  refine @runReader_induct (fun f => Exchanging f f.reader.acts [])
    (fun f acts => Exchanging f acts [] ∧ f.reader.isStopped = false) ?_ ?_ ?_ ?_ env acts f
    ⟨h, hrun⟩
  · exact fun f kind pid r acts hP =>
      ⟨⟨hP.1.exclusive.send, hP.1.tokens.send, hP.1.order.send⟩, hP.2⟩
  · refine fun f r callback acts hP _ =>
      ⟨⟨hP.1.exclusive.handOver, hP.1.tokens.handOver, hP.1.order.handOver⟩, ?_⟩
    rw [reader_handOver]
    exact hP.2
  · exact fun f hP => hP.1.congr rfl rfl rfl rfl rfl fun _ => hP.2
  · exact fun f acts hP => hP.1.congr rfl rfl rfl rfl rfl fun _ => hP.2

/-- A PUBLISH is read. -/
theorem Exchanging.receive {f : InboundPublishFlow} {acts : List Act} {air : List Received}
    (h : Exchanging f acts air) (packet : Publish) : Exchanging (f.receive packet) acts air :=
  have hquiet : Quiet (.publish (f.nextReceived packet)) := fun _ => ⟨by simp, fun _ => rfl⟩
  ⟨h.exclusive.congr rfl rfl rfl rfl, h.tokens.quiet hquiet rfl rfl rfl rfl id,
    h.order.calm (l := [_]) (fun _ _ hmem => by cases List.mem_singleton.1 hmem) rfl rfl
      h.order.messages (List.Subset.refl _)⟩

/-- The handler of a PUBLISH up to its first await. -/
theorem Exchanging.handles {f f' : InboundPublishFlow} {env : Environment} {packet : Publish}
    {acts : List Act} (h : Exchanging f [] []) (hlive : f.Live fun _ => [])
    (hrun : f.reader.isStopped = false)
    (hands : Handles (f.receive packet) env (f.nextReceived packet) f' acts) :
    Exchanging f' acts [] ∧ f'.reader.isStopped = false := by
  have hrec := h.receive packet
  have hacc : (f.receive packet).Accounts fun _ => [] := (hlive hrun).congr rfl rfl
  have hepoch : ∀ pid, (f.nextReceived packet).packet.packetId = some pid →
      (f.nextReceived packet).epoch = (f.receive packet).released pid := by
    intro pid hpid
    have hpid' : packet.packetId = some pid := hpid
    have hquiet : Quiet (.publish (f.nextReceived packet)) := fun _ => ⟨by simp, fun _ => rfl⟩
    rw [hquiet.released rfl pid]
    simp only [nextReceived, epoch, hpid']
    rfl
  refine ⟨⟨hrec.exclusive.handles hacc hands, hrec.tokens.handles hacc hrun hepoch hands,
    hrec.order.handles hands⟩, ?_⟩
  have hreader' : f'.reader = f.reader := by
    cases hands with
    | takesIn htakes _ => cases htakes <;> rfl
    | _ => rfl
  rw [hreader']
  exact hrun

theorem Exchanging.receivePublish {f : InboundPublishFlow} (env : Environment) (packet : Publish)
    (hlive : f.Live fun _ => []) (h : Exchanging f f.reader.acts []) :
    Exchanging (f.receivePublish env packet) (f.receivePublish env packet).reader.acts [] := by
  unfold InboundPublishFlow.receivePublish
  split
  · next hreader =>
    rw [hreader] at h
    have hrun : f.reader.isStopped = false := by rw [hreader]; rfl
    unfold dispatch
    split
    · exact (h.receive packet).stop _
    · next f' acts hhandle =>
      obtain ⟨hex, hrun'⟩ := h.handles hlive hrun (handlePublish_cases hhandle)
      exact hex.runReader env hrun'
  all_goals exact h

/-- The handler of a PUBREL up to its first await. -/
theorem Exchanging.pubrel {f : InboundPublishFlow} {pid : Int} {flight : InboundQoS2Flight}
    (h : Exchanging f [] []) (hflight : f.inflightQos2In.get? pid = some flight) :
    Exchanging ((f.log (.pubrel pid)).popFlight pid)
      (.send .pubcomp pid flight.recipient ::
        if flight.delivered then [] else [.deliver flight.recipient none]) [] := by
  have hlog : Exclusive (f.log (.pubrel pid)) [] [] := h.exclusive.congr rfl rfl rfl rfl
  refine ⟨?_, h.tokens.pubrel h.exclusive hflight, h.order.pubrel⟩
  refine (hlog.popFlight pid).shrink (fun _ => Nat.le_refl _) rfl rfl (fun pid' => ?_)
    hlog.messages fun r callback hact => ?_
  · cases flight.delivered <;> exact Nat.le_refl _
  · have hnone : callback = none := by
      rcases List.mem_cons.1 hact with he | hact
      · cases he
      · split at hact
        · cases hact
        · cases List.mem_singleton.1 hact
          rfl
    rw [hnone]
    trivial

theorem Exchanging.receivePubrel {f : InboundPublishFlow} (env : Environment) (pid : Int)
    (h : Exchanging f f.reader.acts []) :
    Exchanging (f.receivePubrel env pid) (f.receivePubrel env pid).reader.acts [] := by
  unfold InboundPublishFlow.receivePubrel
  split
  · next hreader =>
    rw [hreader] at h
    have hrun : f.reader.isStopped = false := by rw [hreader]; rfl
    unfold handlePubrel
    split
    · -- PUBREL for an unknown id ends the read loop
      refine ⟨(h.stop none).exclusive.congr rfl rfl rfl rfl, ⟨fun pid' k => ?_, fun hrun => ?_⟩, ?_⟩
      · exact (h.stop none).tokens.once pid' k
      · cases hrun
      · exact h.order.calm (l := [.pubrel pid]) (fun _ _ hmem => by cases List.mem_singleton.1 hmem)
          rfl rfl h.order.messages (List.Subset.refl _)
    · next flight hflight => exact (h.pubrel hflight).runReader env hrun
  all_goals exact h

theorem Exchanging.step {f : InboundPublishFlow} {e : InboundEvent} (hidle : f.IdleRest)
    (hlive : f.Live fun _ => []) (h : Exchanging f f.reader.acts []) (hok : f.undisturbed e) :
    Exchanging (f.step e) (f.step e).reader.acts [] := by
  have hwaiting : (e = .drain ∨ (∃ i, e = .expire i) ∨ ∃ i k, e = .cancelWaiter i k) →
      Exchanging (f.step e) (f.step e).reader.acts [] := fun he => by
    rcases f.waiting_cases he with heq | ⟨i, b, b', hb, hsame, heq⟩ <;> rw [heq]
    · exact h
    · exact h.move hb fun q => by rw [hsame.held]
  cases e with
  | publish packet env => exact h.receivePublish env packet hlive
  | pubrel pid env => exact h.receivePubrel env pid
  | resumeReader env =>
    rw [InboundPublishFlow.step, resumeReader]
    split
    · next acts hreader =>
      rw [hreader] at h
      exact h.runReader env (by rw [hreader]; rfl)
    all_goals exact h
  | interruptReader =>
    rw [InboundPublishFlow.step, interruptReader]
    split
    · exact h
    all_goals exact h.stop none
  | ack k =>
    have hreader : (f.ack k).reader = f.reader := by
      rcases f.ack_cases k with he | ⟨message, _, _, ⟨he, -⟩ | ⟨pid, r, -, he⟩ | ⟨pid, r, _, he⟩⟩ <;>
        rw [he] <;> rfl
    rw [InboundPublishFlow.step, hreader]
    exact ⟨h.exclusive.ack k, h.tokens.ack h.exclusive k, h.order.ack k⟩
  | get queue => exact h.congr rfl rfl rfl rfl rfl id
  | subscriptions index => exact h.congr rfl rfl rfl rfl rfl id
  | drain => exact hwaiting (Or.inl rfl)
  | expire i => exact hwaiting (Or.inr (Or.inl ⟨i, rfl⟩))
  | cancelWaiter i k => exact hwaiting (Or.inr (Or.inr ⟨i, k, rfl⟩))
  | acquireLock i env => exact (exchanging_drainRule i).acquireLock env h
  | resumeDelivery i env =>
    refine (exchanging_drainRule i).resumeDelivery env hidle h fun b d hb hd => ?_
    exact (hok.1 i b d hb hd).2 env rfl
  | interruptDelivery i =>
    rw [InboundPublishFlow.step, interruptDelivery_of_finish hok.1]
    exact h
  | clear =>
    rw [InboundPublishFlow.step, clear]
    split
    · exact h
    · exact h.congr rfl rfl rfl rfl rfl id
    · next i _ =>
      split
      · exact h.congr rfl rfl rfl rfl rfl id
      · next b hb =>
        have hmove : Exchanging ((f.logDropped b.publishes).setBuffer i b.cancelExpiration.empty)
            f.reader.acts [] := (h.logDropped b.publishes).move hb fun q => ?_
        · exact hmove.congr rfl rfl rfl rfl rfl id
        · have hheld : b.cancelExpiration.held.countP q = b.held.countP q := by
            rw [(sameContents_cancelExpiration b).held]
          rw [← hheld]
          simp only [Buffered.held, Buffered.empty, List.countP_append, List.countP_nil]
          omega

theorem exchanging_fresh (bufferSize : Nat) (maxsize : Nat → Nat) (sessionPresent : Bool) :
    Exchanging (fresh bufferSize maxsize sessionPresent) [] [] := by
  refine ⟨⟨fun _ => Nat.zero_le _, fun _ hpos => ?_, fun pid hp => ?_, fun _ => Nat.zero_le _,
    fun _ hpos => ?_, fun _ hm => ?_, fun _ _ hm => ?_, fun _ _ hf => ?_⟩,
    ⟨fun _ _ => Nat.zero_le _, fun _ _ _ hpos => ?_⟩,
    ⟨fun _ _ _ hsuf => ?_, fun _ _ hf => ?_, fun _ _ hm => ?_, fun _ hm => ?_, fun _ _ _ hm => ?_,
      fun _ _ hin => ?_⟩⟩
  · exact absurd hpos (Nat.lt_irrefl 0)
  · exact absurd hp (Finset.notMem_empty pid)
  · exact absurd hpos (Nat.lt_irrefl 0)
  · exact absurd hm List.not_mem_nil
  · exact absurd hm List.not_mem_nil
  · cases hf
  · exact absurd hpos (Nat.lt_irrefl 0)
  · exact absurd (List.suffix_nil.1 hsuf) (List.cons_ne_nil _ _)
  · cases hf
  · exact absurd hm List.not_mem_nil
  · exact absurd hm List.not_mem_nil
  · exact absurd hm List.not_mem_nil
  · exact absurd hin List.not_mem_nil

theorem live_fresh (bufferSize : Nat) (maxsize : Nat → Nat) (sessionPresent : Bool) :
    (fresh bufferSize maxsize sessionPresent).Live fun _ => [] := by
  intro _ j b hb
  cases hb

/-- A delivered message with this id waits for the `ack()` that sends its PUBREC. -/
def Unacknowledged (f : InboundPublishFlow) (pid : Int) : Prop :=
  ∃ message ∈ f.messages, message.resolved = false ∧
    ∃ r, message.ackCallback = some (.pubrec pid r)

/-- What at-most-once means for the state of a connection. -/
structure AtMostOnce (f : InboundPublishFlow) : Prop where
  /-- Of the PUBLISH packets of an id between two PUBREL packets one is delivered, once. -/
  deliveredOnce : ∀ pid k, f.trace.countP (TraceEntry.delivers pid k) ≤ 1
  /-- PUBREC of a manually acknowledged message follows its `ack()`. -/
  pubrecAfterAck : ∀ pid r earlier, (.sent .pubrec pid r :: earlier) <:+ f.trace →
    r.autoAck = false → .acked r.message ∈ earlier
  /-- A duplicate before `ack()` changes nothing and sends nothing. -/
  duplicateBeforeAck : ∀ pid packet env, f.reader = .reading → packet.qos = .exactlyOnce →
    packet.packetId = some pid → f.Unacknowledged pid →
    f.step (.publish packet env) = f.receive packet
  /-- A duplicate after PUBREC only sends PUBREC again. -/
  duplicateAfterPubrec : ∀ pid packet env, f.reader = .reading → packet.qos = .exactlyOnce →
    packet.packetId = some pid → (∃ r, f.SincePubrel pid (.sent .pubrec pid r)) →
    ∃ r reader, reader.acts = [] ∧
      f.step (.publish packet env) = { (f.receive packet).log (.sent .pubrec pid r) with reader }
  /-- No id is in `inflight_qos2_in` and in `pending_ack_qos2_in`. -/
  apart : ∀ pid ∈ f.pendingAckQos2In, f.inflightQos2In.get? pid = none

theorem step_publish {f f' : InboundPublishFlow} {packet : Publish} {env : Environment}
    {acts : List Act} (hreader : f.reader = .reading)
    (hhandle : (f.receive packet).handlePublish env (f.nextReceived packet) = .ok (f', acts)) :
    f.step (.publish packet env) = f'.runReader env acts := by
  simp only [step, receivePublish, hreader, hhandle, dispatch]

theorem Exchanging.duplicateBeforeAck {f : InboundPublishFlow} (h : Exchanging f f.reader.acts [])
    {pid : Int} {packet : Publish} (env : Environment) (hreader : f.reader = .reading)
    (hqos : packet.qos = .exactlyOnce) (hpid : packet.packetId = some pid)
    (hun : f.Unacknowledged pid) : f.step (.publish packet env) = f.receive packet := by
  obtain ⟨message, hmem, hres, r, hc⟩ := hun
  have hone : unresolved pid message = true := by
    rw [unresolved, hres, hc]
    exact decide_eq_true rfl
  have hpos : 0 < f.messages.countP (unresolved pid) := List.countP_pos_iff.2 ⟨message, hmem, hone⟩
  have hpend := h.exclusive.callbackPending pid (by omega)
  have hnone : (f.receive packet).inflightQos2In.get? pid = none :=
    h.exclusive.pendingFree pid hpend
  have hhandle : (f.receive packet).handlePublish env (f.nextReceived packet) =
      .ok (f.receive packet, []) := by
    simp only [handlePublish, nextReceived, hqos, handleQos2Publish, hpid, hnone]
    exact if_pos (Or.inl hpend)
  have hsame : { f.receive packet with reader := .reading } = f.receive packet := by
    rw [← hreader]
    rfl
  rw [step_publish hreader hhandle]
  exact hsame

theorem Exchanging.duplicateAfterPubrec {f : InboundPublishFlow}
    (h : Exchanging f f.reader.acts []) {pid : Int} {packet : Publish} (env : Environment)
    (hreader : f.reader = .reading) (hqos : packet.qos = .exactlyOnce)
    (hpid : packet.packetId = some pid)
    (hsent : ∃ r, f.SincePubrel pid (.sent .pubrec pid r)) :
    ∃ r reader, reader.acts = [] ∧
      f.step (.publish packet env) =
        { (f.receive packet).log (.sent .pubrec pid r) with reader } := by
  obtain ⟨r, hr⟩ := hsent
  obtain ⟨flight, hflight⟩ := Option.ne_none_iff_exists'.1 (h.order.window pid r hr)
  have hget : (f.receive packet).inflightQos2In.get? pid = some flight := hflight
  have hhandle : (f.receive packet).handlePublish env (f.nextReceived packet) =
      .ok (f.receive packet, [.send .pubrec pid flight.recipient]) := by
    simp only [handlePublish, nextReceived, hqos, handleQos2Publish, hpid, hget]
  rw [step_publish hreader hhandle, InboundPublishFlow.runReader, runActs]
  cases env.stalls flight.recipient.message.num with
  | true => exact ⟨flight.recipient, .suspended [], rfl, rfl⟩
  | false => exact ⟨flight.recipient, .reading, rfl, rfl⟩

/-- The invariants of the exchanges in undisturbed runs. -/
theorem exchanging_of_reach {bufferSize : Nat} {maxsize : Nat → Nat} {sessionPresent : Bool}
    {f : InboundPublishFlow}
    (h : Reach step undisturbed (fresh bufferSize maxsize sessionPresent) f) :
    f.IdleRest ∧ (f.Live fun _ => []) ∧ Exchanging f f.reader.acts [] := by
  refine Reach.invariant (I := fun f => f.IdleRest ∧ (f.Live fun _ => []) ∧
    Exchanging f f.reader.acts []) h
    ⟨idleRest_fresh _ _ _, live_fresh _ _ _, exchanging_fresh _ _ _⟩ fun f e hf hok => ?_
  exact ⟨hf.1.step e, hf.2.1.step hf.1 hok.2, hf.2.2.step hf.1 hf.2.1 hok⟩

/-- **At most once.** In every state of a connection on which no delivery is interrupted, the
    PUBLISH packets of an id between two PUBREL packets for it were delivered at most once. -/
theorem qos2_at_most_once (bufferSize : Nat) (maxsize : Nat → Nat) (sessionPresent : Bool)
    (f : InboundPublishFlow)
    (h : Reach step undisturbed (fresh bufferSize maxsize sessionPresent) f) : f.AtMostOnce := by
  obtain ⟨-, -, hex⟩ := exchanging_of_reach h
  refine ⟨fun pid k => ?_, hex.order.sent, fun pid packet env => hex.duplicateBeforeAck env,
    fun pid packet env => hex.duplicateAfterPubrec env, hex.exclusive.pendingFree⟩
  have honce := hex.tokens.once pid k
  rw [goneTokens] at honce
  omega

/-- A manually acknowledged QoS 2 message, a duplicate before and one after its `ack()`, and
    a second exchange of its id. -/
def manualRun : List InboundEvent :=
  [.subscriptions (indexA false), .publish (publishA .exactlyOnce (some 1)) {},
    .publish (publishA .exactlyOnce (some 1)) {}, .ack 0, .ack 0,
    .publish (publishA .exactlyOnce (some 1)) {}, .pubrel 1 {},
    .publish (publishA .exactlyOnce (some 1)) {}]

theorem qos2_at_most_once_manualRun :
    (manualRun.foldl step (fresh 10 (fun _ => 0) false)).queues 0 = [0, 1] ∧
    (manualRun.foldl step (fresh 10 (fun _ => 0) false)).AtMostOnce := by
  refine ⟨by decide +kernel, qos2_at_most_once 10 (fun _ => 0) false _ (Reach.foldl ?_)⟩
  refine ⟨?_, ?_, ?_, ?_, ?_, ?_, ?_, ?_, trivial⟩ <;>
    exact ⟨fun i b d _ _ => ⟨by simp, fun env he => by cases he⟩, fun he => by cases he⟩

end InboundPublishFlow

end Zmqtt
