/-
  The outbound QoS 2 handshake (`publish`, `_handle_pubrec` and `_handle_pubcomp` of
  `_internal/protocol.py`): PUBLISH, PUBREC, PUBREL, PUBCOMP.

  A run of the protocol is kept with its log, what was sent and what the read loop took. The
  invariant reads the phase of a flight off the log: what last happened to its exchange is the
  PUBLISH of its call, or the PUBREL that answers a PUBREC (`Published`, `Released`).
-/
import Zmqtt.Lib.Tasks
import Zmqtt.Session.Broker

namespace Zmqtt

/-! ## Logs -/

/-- A packet is sent, for a call, or taken by the read loop. -/
inductive Happening where
  | sent (packet : Packet) (owner : Option Nat)
  | received (packet : Packet)
  deriving Repr, DecidableEq

/-- The packets that a step wrote. -/
def Protocol.writtenSince (p p' : Protocol) : List Happening :=
  (p'.written.take (p'.written.length - p.written.length)).map fun item => .sent item.1 item.2

/-- The packet that the read loop takes in a step. -/
def Protocol.taken (p : Protocol) (e : ProtocolEvent) : List Happening :=
  match e, p.readLoop with
  | .receive packet, .reading => [.received packet]
  | _, _ => []

/-- A protocol with its log, the newest first. -/
structure Logged where
  protocol : Protocol
  log : List Happening := []

namespace Logged

def step (s : Logged) (e : ProtocolEvent) : Logged where
  protocol := s.protocol.step e
  log := s.protocol.writtenSince (s.protocol.step e) ++ (s.protocol.taken e ++ s.log)

def fresh (version : Version) (maxPublishQos : QoS) : Logged :=
  { protocol := Protocol.fresh version maxPublishQos }

end Logged

namespace Happening

/-- The packets of outbound QoS 2 exchanges with packet id `pid`. -/
def isAbout (pid : Int) : Happening → Bool
  | .sent (.publish packet) _ => packet.qos = .exactlyOnce ∧ packet.packetId = some pid
  | .sent (.pubrel packet) (some _) => packet.packetId = pid
  | .received (.pubrec packet) | .received (.pubcomp packet) => packet.packetId = pid
  | _ => false

/-- The PUBREL of a call. -/
def isPubrelOf (i : Nat) : Happening → Bool
  | .sent (.pubrel _) owner => owner = some i
  | _ => false

/-- The newest in the exchange is the PUBLISH of call `i`. -/
def Published (pid : Int) (i : Nat) (exchange : List Happening) : Prop :=
  ∃ (packet : Publish) (before : List Happening), packet.qos = .exactlyOnce ∧
    packet.packetId = some pid ∧ exchange = .sent (.publish packet) (some i) :: before

/-- Then a PUBREC came that accepts it, and the PUBREL was sent. -/
def Released (pid : Int) (i : Nat) (exchange : List Happening) : Prop :=
  ∃ (pubrec : PubAck) (before : List Happening), pubrec.packetId = pid ∧
    pubrec.reasonCode < 0x80 ∧ Published pid i before ∧
    exchange = .sent (.pubrel { packetId := pid }) (some i) :: .received (.pubrec pubrec) :: before

/-- Then the PUBCOMP came. -/
def Completed (pid : Int) (i : Nat) (exchange : List Happening) : Prop :=
  ∃ (pubcomp : PubAck) (before : List Happening), pubcomp.packetId = pid ∧
    Released pid i before ∧ exchange = .received (.pubcomp pubcomp) :: before

end Happening

namespace Logged

/-- What happened to the outbound QoS 2 exchanges with packet id `pid`. -/
def exchange (s : Logged) (pid : Int) : List Happening := s.log.filter (Happening.isAbout pid)

/-- Between the PUBLISH of call `i` and the PUBCOMP that ended it, its packet id saw one
    accepting PUBREC and one PUBREL, in this order, and nothing else. -/
def Handshaken (s : Logged) (pid : Int) (i : Nat) : Prop :=
  ∃ after completed, Happening.Completed pid i completed ∧ s.exchange pid = after ++ completed

end Logged

/-! ## What a step does -/

/-- The call raised before its packet was sent; its flight stays. -/
def Call.Unsent (c : Call) : Prop := ∃ e, c.pc = .finished (.raised (.encode e))

/-- A call later on: a future that is done stays as it is, and a call that ends does so with the
    outcome of its future, with a failed write or as cancelled. -/
structure Call.Advances (c c' : Call) : Prop where
  kind : c'.kind = c.kind
  pid : c'.pid = c.pid
  future : c.future ≠ .pending → c'.future = c.future
  cancelRequested : c.cancelRequested = true → c'.cancelRequested = true
  pc : c'.pc = c.pc ∨ c.pc.isFinished = false ∧ (c'.pc = .waiting ∨
    ∃ outcome, c'.pc = .finished outcome ∧ (outcome = .raised .write ∨
      outcome = .cancelled ∧ c.cancelRequested = true ∨
      c.future ≠ .pending ∧ outcome = Protocol.outcomeOf c))

/-- No QoS 2 publish comes to a result, and no flight is made. -/
structure Stays (p p' : Protocol) : Prop where
  loop : p'.readLoop ≠ .stopped → p.readLoop ≠ .stopped
  flights : ∀ pid flight, p'.state.inflightQos2Out.get? pid = some flight →
    p.state.inflightQos2Out.get? pid = some flight
  calls : ∀ (i : Nat) c, p.calls[i]? = some c → ∃ c', p'.calls[i]? = some c' ∧ c.Advances c' ∧
    (c.kind = .publishQos2 → ∀ packet, c'.future = .result packet → c.future = .result packet)
  new : ∀ (i : Nat) c', p'.calls[i]? = some c' → p.calls.length ≤ i → c'.kind ≠ .publishQos2

/-- One step with the log, as far as it concerns the QoS 2 publishes. -/
inductive LogStep (s : Logged) (e : ProtocolEvent) (s' : Logged) : Prop where
  | stays (new : List Happening) (hstays : Stays s.protocol s'.protocol)
      (hlog : s'.log = new ++ s.log)
      (howners : ∀ packet i, .sent packet (some i) ∈ new → i < s'.protocol.calls.length)
      (habout : s'.protocol.readLoop ≠ .stopped → ∀ pid flight,
        s'.protocol.state.inflightQos2Out.get? pid = some flight →
          ∀ x ∈ new, x.isAbout pid = false)
      (hpubrel : ∀ x ∈ new, ∀ i, x.isPubrelOf i = false)
  | register (new : List Happening) (pid : Int) (c : Call) (hlog : s'.log = new ++ s.log)
      (hcalls : s'.protocol.calls = s.protocol.calls ++ [c])
      (hloop : s'.protocol.readLoop = s.protocol.readLoop)
      (hflights : s'.protocol.state.inflightQos2Out =
        s.protocol.state.inflightQos2Out.set pid ⟨s.protocol.calls.length, .pendingPubrec⟩)
      (hnew : ∀ x ∈ new, ∃ packet : Publish, packet.packetId = some pid ∧
        x = .sent (.publish packet) (some s.protocol.calls.length))
      (hc : c.Unsent ∨ c.pc = .sending ∧ c.future = .pending ∧
        Happening.Published pid s.protocol.calls.length (s'.exchange pid))
  | pubrec (packet : PubAck) (flight : OutboundQoS2Flight)
      (hloop : s.protocol.readLoop = .reading)
      (hf : s.protocol.state.inflightQos2Out.get? packet.packetId = some flight)
      (hstate : flight.state = .pendingPubrec) (hcode : packet.reasonCode < 0x80)
      (hcalls : s'.protocol.calls = s.protocol.calls)
      (hflights : s'.protocol.state.inflightQos2Out = s.protocol.state.inflightQos2Out.set
        packet.packetId { flight with state := .pendingPubcomp })
      (hlog : s'.log = [.sent (.pubrel { packetId := packet.packetId }) (some flight.call),
        .received (.pubrec packet)] ++ s.log)
  | pubcomp (packet : PubAck) (flight : OutboundQoS2Flight) (he : e = .receive (.pubcomp packet))
      (hloop : s.protocol.readLoop = .reading)
      (hf : s.protocol.state.inflightQos2Out.get? packet.packetId = some flight)
      (hprotocol : s'.protocol = { s.protocol with
        state := s.protocol.state.popRelease .publishQos2 packet.packetId }.setFuture flight.call
          (.result (.pubcomp packet)))
      (hlog : s'.log = [.received (.pubcomp packet)] ++ s.log)

variable {p p' p'' : Protocol} {c c' c'' : Call}

theorem Call.advances_refl (c : Call) : c.Advances c := ⟨rfl, rfl, fun _ => rfl, id, Or.inl rfl⟩

/-- A call that has ended stays as it ended. -/
theorem Call.Advances.pc_of_finished (h : c.Advances c') (hfin : c.pc.isFinished = true) :
    c'.pc = c.pc := by
  rcases h.pc with heq | ⟨hrun, -⟩
  · exact heq
  · rw [hfin] at hrun
    cases hrun

theorem Call.Advances.unsent (h : c.Advances c') (hu : c.Unsent) : c'.Unsent := by
  obtain ⟨e, he⟩ := hu
  refine ⟨e, (h.pc_of_finished ?_).trans he⟩
  rw [he]
  rfl

theorem outcomeOf_eq_returned {packet : Packet} (h : Protocol.outcomeOf c = .returned packet) :
    c.future = .result packet := by
  unfold Protocol.outcomeOf at h
  split at h
  · cases h
  · cases h
  · cases h
  · next reply hfut =>
    rw [hfut]
    split at h
    · split at h
      · cases h
      · exact congrArg FutureState.result (Outcome.returned.inj h)
    · split at h
      · cases h
      · exact congrArg FutureState.result (Outcome.returned.inj h)
    · exact congrArg FutureState.result (Outcome.returned.inj h)

/-- What a call returns is the result of its future. -/
theorem Call.Advances.returned (h : c.Advances c')
    (hret : ∀ packet, c.pc = .finished (.returned packet) → c.future = .result packet)
    {packet : Packet} (hpc : c'.pc = .finished (.returned packet)) :
    c'.future = .result packet := by
  have hkeep : c.future = .result packet → c'.future = .result packet := fun hfut => by
    rw [h.future (by rw [hfut]; exact nofun), hfut]
  rcases h.pc with heq | ⟨-, hw | ⟨outcome, ho, hcase⟩⟩
  · exact hkeep (hret packet (heq ▸ hpc))
  · rw [hpc] at hw
    cases hw
  · rw [hpc] at ho
    obtain rfl := Pc.finished.inj ho
    rcases hcase with hw | ⟨hw, -⟩ | ⟨-, hout⟩
    · cases hw
    · cases hw
    · exact hkeep (outcomeOf_eq_returned hout.symm)

theorem stays_refl (p : Protocol) : Stays p p := by
  refine ⟨fun h => h, fun _ _ h => h, fun i c hc => ?_, fun i c' hc' hle => ?_⟩
  · exact ⟨c, hc, c.advances_refl, fun _ _ h => h⟩
  · exact absurd (List.getElem?_eq_some_iff.1 hc').1 (Nat.not_lt.2 hle)

/-- A step that changes neither tables nor calls. -/
theorem stays_of_eq (hloop : p'.readLoop ≠ .stopped → p.readLoop ≠ .stopped)
    (hstate : p'.state = p.state) (hcalls : p'.calls = p.calls) : Stays p p' := by
  have h := stays_refl p
  refine ⟨hloop, ?_, ?_, ?_⟩
  · rw [hstate]
    exact h.flights
  · rw [hcalls]
    exact h.calls
  · rw [hcalls]
    exact h.new

theorem Stays.length (h : Stays p p') : p.calls.length ≤ p'.calls.length := by
  by_contra hlt
  obtain ⟨c', hc', -, -⟩ := h.calls p'.calls.length _
    (List.getElem?_eq_getElem (Nat.lt_of_not_le hlt))
  exact absurd (List.getElem?_eq_some_iff.1 hc').1 (Nat.lt_irrefl _)

/-- A QoS 2 publish before the step. -/
theorem Stays.back (h : Stays p p') {i : Nat} (hc' : p'.calls[i]? = some c')
    (hk : c'.kind = .publishQos2) : ∃ c, p.calls[i]? = some c ∧ c.Advances c' ∧
      ∀ packet, c'.future = .result packet → c.future = .result packet := by
  rcases Nat.lt_or_ge i p.calls.length with hlt | hge
  · obtain ⟨d, hd, hadv, hres⟩ := h.calls i _ (List.getElem?_eq_getElem hlt)
    obtain rfl := Option.some.inj (hc'.symm.trans hd)
    exact ⟨_, List.getElem?_eq_getElem hlt, hadv, hres (hadv.kind ▸ hk)⟩
  · exact absurd hk (h.new i c' hc' hge)

/-- The calls are those before, each a bit further. -/
theorem stays_of_length (hloop : p'.readLoop ≠ .stopped → p.readLoop ≠ .stopped)
    (hflights : ∀ pid flight, p'.state.inflightQos2Out.get? pid = some flight →
      p.state.inflightQos2Out.get? pid = some flight)
    (hlength : p'.calls.length = p.calls.length)
    (hcalls : ∀ (i : Nat) c c', p.calls[i]? = some c → p'.calls[i]? = some c' → c.Advances c' ∧
      (c.kind = .publishQos2 → ∀ packet, c'.future = .result packet → c.future = .result packet)) :
    Stays p p' := by
  refine ⟨hloop, hflights, fun i c hc => ?_, fun i c' hc' hle => ?_⟩
  · have hlt : i < p'.calls.length := hlength ▸ (List.getElem?_eq_some_iff.1 hc).1
    exact ⟨_, List.getElem?_eq_getElem hlt, hcalls i c _ hc (List.getElem?_eq_getElem hlt)⟩
  · have hlt := (List.getElem?_eq_some_iff.1 hc').1
    omega

/-- One call changes. -/
theorem stays_set {i : Nat} (hc : p.calls[i]? = some c) (hadv : c.Advances c')
    (hresult : c.kind = .publishQos2 → ∀ packet, c'.future = .result packet →
      c.future = .result packet) {st : SessionState}
    (hst : ∀ pid flight, st.inflightQos2Out.get? pid = some flight →
      p.state.inflightQos2Out.get? pid = some flight) :
    Stays p { p with state := st, calls := p.calls.set i c' } := by
  refine stays_of_length (fun h => h) hst List.length_set fun j d d' hd hd' => ?_
  dsimp only at hd'
  by_cases hj : i = j
  · subst hj
    rw [List.getElem?_set_self (List.getElem?_eq_some_iff.1 hc).1] at hd'
    rw [hc] at hd
    rw [← Option.some.inj hd, ← Option.some.inj hd']
    exact ⟨hadv, hresult⟩
  · rw [List.getElem?_set_ne hj, hd] at hd'
    rw [← Option.some.inj hd']
    exact ⟨d.advances_refl, fun _ _ h => h⟩

theorem inflightQos2Out_cleanup (st : SessionState) (kind : CallKind) (pid : Int) :
    (st.cleanup kind pid).inflightQos2Out = st.inflightQos2Out := by
  cases kind <;> rfl

theorem stays_finish {i : Nat} (hc : p.calls[i]? = some c) (hfin : c.pc.isFinished = false)
    {outcome : Outcome} (hout : outcome = .raised .write ∨
      outcome = .cancelled ∧ c.cancelRequested = true ∨
      c.future ≠ .pending ∧ outcome = Protocol.outcomeOf c) : Stays p (p.finish i c outcome) := by
  refine stays_set hc ?_ ?_ ?_
  · exact ⟨rfl, rfl, fun _ => rfl, id, Or.inr ⟨hfin, Or.inr ⟨outcome, rfl, hout⟩⟩⟩
  · exact fun _ _ hfut => hfut
  · intro pid flight hf
    rw [inflightQos2Out_cleanup] at hf
    exact hf

theorem stays_resume (p : Protocol) (i : Nat) (written : Bool) : Stays p (p.resume i written) := by
  unfold Protocol.resume
  split
  · exact stays_refl p
  · next c hc =>
    split
    · exact stays_refl p
    · next hpc =>
      have hfin : c.pc.isFinished = false := by rw [hpc]; rfl
      split
      · next hcancel => exact stays_finish hc hfin (Or.inr (Or.inl ⟨rfl, hcancel⟩))
      · split
        · split
          · refine stays_set hc ?_ ?_ fun _ _ hf => hf
            · exact ⟨rfl, rfl, fun _ => rfl, id, Or.inr ⟨hfin, Or.inl rfl⟩⟩
            · exact fun _ _ hfut => hfut
          · next hdone => exact stays_finish hc hfin (Or.inr (Or.inr ⟨hdone, rfl⟩))
        · exact stays_finish hc hfin (Or.inl rfl)
    · next hpc =>
      have hfin : c.pc.isFinished = false := by rw [hpc]; rfl
      split
      · exact stays_refl p
      · next hdone =>
        split
        · next hcancel => exact stays_finish hc hfin (Or.inr (Or.inl ⟨rfl, hcancel⟩))
        · exact stays_finish hc hfin (Or.inr (Or.inr ⟨hdone, rfl⟩))

theorem stays_cancel (p : Protocol) (i : Nat) : Stays p (p.cancel i) := by
  unfold Protocol.cancel
  split
  · exact stays_refl p
  · next c hc =>
    have hflag : Stays p { p with calls := p.calls.set i { c with cancelRequested := true } } := by
      refine stays_set hc ?_ ?_ fun _ _ hf => hf
      · exact ⟨rfl, rfl, fun _ => rfl, fun _ => rfl, Or.inl rfl⟩
      · exact fun _ _ hfut => hfut
    split
    · exact stays_refl p
    · exact hflag
    · split
      · next hpending =>
        refine stays_set hc ?_ ?_ fun _ _ hf => hf
        · exact ⟨rfl, rfl, fun hdone => absurd hpending hdone, id, Or.inl rfl⟩
        · exact fun _ _ hfut => by cases hfut
      · exact hflag

/-- Tables lose entries and a future is set: for a QoS 2 publish to an exception. -/
theorem stays_setFuture {st : SessionState} (i : Nat) {future : FutureState}
    (hst : ∀ pid flight, st.inflightQos2Out.get? pid = some flight →
      p.state.inflightQos2Out.get? pid = some flight)
    (hfuture : ∀ c, p.calls[i]? = some c → c.kind = .publishQos2 → ∀ packet, future ≠ .result packet) :
    Stays p ({ p with state := st }.setFuture i future) := by
  refine stays_of_length (fun h => ?_) (fun pid flight hf => ?_)
    (Protocol.length_calls_setFuture { p with state := st } i future) fun j c c' hc hc' => ?_
  · rwa [Protocol.readLoop_setFuture] at h
  · rw [Protocol.state_setFuture] at hf
    exact hst pid flight hf
  · obtain ⟨d, hd, hcase⟩ := Protocol.call_setFuture hc'
    obtain rfl := Option.some.inj (hc.symm.trans hd)
    rcases hcase with rfl | ⟨rfl, hpending, rfl⟩
    · exact ⟨c'.advances_refl, fun _ _ h => h⟩
    · refine ⟨⟨rfl, rfl, fun hdone => absurd hpending hdone, id, Or.inl rfl⟩, fun hk packet hres => ?_⟩
      exact absurd hres (hfuture c hc hk packet)

/-- The exit of `run()` fails the futures that are left. -/
theorem stays_runExit (p : Protocol) : Stays p p.runExit := by
  have hfold : ∀ (is : List Nat) (p : Protocol),
      let p' := is.foldl (fun p i => p.setFuture i (.exception .disconnected)) p
      p'.state = p.state ∧ p'.readLoop = p.readLoop ∧ p'.calls.length = p.calls.length ∧
      ∀ (j : Nat) c', p'.calls[j]? = some c' → ∃ c, p.calls[j]? = some c ∧
        (c' = c ∨ c.future = .pending ∧ c' = { c with future := .exception .disconnected }) := by
    intro is
    induction is with
    | nil => exact fun p => ⟨rfl, rfl, rfl, fun j c hc => ⟨c, hc, Or.inl rfl⟩⟩
    | cons i is ih =>
      intro p
      obtain ⟨hstate, hloop, hlength, hcalls⟩ := ih (p.setFuture i (.exception .disconnected))
      refine ⟨hstate.trans (Protocol.state_setFuture p i _),
        hloop.trans (Protocol.readLoop_setFuture p i _),
        hlength.trans (Protocol.length_calls_setFuture p i _), fun j c'' hc'' => ?_⟩
      obtain ⟨c', hc', hcase'⟩ := hcalls j c'' hc''
      obtain ⟨c, hc, hcase⟩ := Protocol.call_setFuture hc'
      refine ⟨c, hc, ?_⟩
      rcases hcase with rfl | ⟨-, hpending, rfl⟩
      · exact hcase'
      · rcases hcase' with rfl | ⟨hdone, -⟩
        · exact Or.inr ⟨hpending, rfl⟩
        · cases hdone
  obtain ⟨hstate, hloop, hlength, hcalls⟩ := hfold (Protocol.awaited p.state)
    { p with dead := true, readLoop := .stopped }
  refine stays_of_length (fun hne => absurd hloop hne) (fun pid flight hf => ?_) hlength
    fun j c c' hc hc' => ?_
  · have hflights : p.runExit.state = p.state := hstate
    rw [hflights] at hf
    exact hf
  · obtain ⟨d, hd, hcase⟩ := hcalls j c' hc'
    obtain rfl := Option.some.inj (hc.symm.trans hd)
    rcases hcase with rfl | ⟨hpending, rfl⟩
    · exact ⟨c'.advances_refl, fun _ _ h => h⟩
    · exact ⟨⟨rfl, rfl, fun hdone => absurd hpending hdone, id, Or.inl rfl⟩, fun _ _ => nofun⟩

theorem stays_append {new : Call} (hcalls : p'.calls = p.calls ++ [new])
    (hkind : new.kind ≠ .publishQos2) (hloop : p'.readLoop = p.readLoop)
    (hflights : p'.state.inflightQos2Out = p.state.inflightQos2Out) : Stays p p' := by
  refine ⟨fun hl => by rwa [hloop] at hl, fun pid flight hf => by rwa [hflights] at hf,
    fun i c hc => ?_, fun i c' hc' hle => ?_⟩
  · refine ⟨c, ?_, c.advances_refl, fun _ _ h => h⟩
    rw [hcalls, List.getElem?_append_left (List.getElem?_eq_some_iff.1 hc).1]
    exact hc
  · rw [hcalls] at hc'
    rcases getElem?_concat_cases hc' with hc | ⟨-, rfl⟩
    · exact absurd (List.getElem?_eq_some_iff.1 hc).1 (Nat.not_lt.2 hle)
    · exact hkind

/-! ## The events -/

theorem writtenSince_of_eq (h : p'.written = p.written) : p.writtenSince p' = [] := by
  rw [Protocol.writtenSince, h, Nat.sub_self]
  rfl

theorem writtenSince_of_cons {packet : Packet} {owner : Option Nat}
    (h : p'.written = (packet, owner) :: p.written) :
    p.writtenSince p' = [.sent packet owner] := by
  rw [Protocol.writtenSince, h, List.length_cons, Nat.add_sub_cancel_left]
  rfl

/-- What `startCall` does: nothing, a call that fails in `_encode`, or one that waits. -/
theorem Protocol.startCall_cases (p : Protocol) (kind : CallKind) (filters : List String)
    (packetOf : Int → Packet) :
    p.startCall kind filters packetOf = p ∨
    ∃ pid pool, p.state.packetIds.acquire = some (pid, pool) ∧
      let st := ({ p.state with packetIds := pool } : SessionState).register kind pid p.calls.length
      (∃ e, encode (packetOf pid) p.version = .error e ∧ p.startCall kind filters packetOf =
        { p with
          state := st.cleanup kind pid
          calls := p.calls ++ [{ kind, pid, filters, pc := .finished (.raised (.encode e)) }] }) ∨
      (∃ bytes, encode (packetOf pid) p.version = .ok bytes) ∧ p.startCall kind filters packetOf =
        { p with
          state := st
          calls := p.calls ++ [{ kind, pid, filters, pc := .sending }]
          written := (packetOf pid, some p.calls.length) :: p.written } := by
  unfold Protocol.startCall
  split
  · exact Or.inl rfl
  · split
    · exact Or.inl rfl
    · next pid pool hacq =>
      refine Or.inr ⟨pid, pool, hacq, ?_⟩
      dsimp only
      split
      · next e he => exact Or.inl ⟨e, he, rfl⟩
      · next bytes hb => exact Or.inr ⟨⟨bytes, hb⟩, rfl⟩

theorem inflightQos2Out_register (st : SessionState) {kind : CallKind} (hkind : kind ≠ .publishQos2)
    (pid : Int) (i : Nat) : (st.register kind pid i).inflightQos2Out = st.inflightQos2Out := by
  cases kind with
  | publishQos2 => exact absurd rfl hkind
  | publishQos1 | subscribe | unsubscribe => rfl

theorem get?_popRelease {st : SessionState} {kind : CallKind} {pid pid' : Int}
    {flight : OutboundQoS2Flight}
    (h : (st.popRelease kind pid).inflightQos2Out.get? pid' = some flight) :
    st.inflightQos2Out.get? pid' = some flight ∧ (kind = .publishQos2 → pid' ≠ pid) := by
  cases kind with
  | publishQos1 | subscribe | unsubscribe => exact ⟨h, nofun⟩
  | publishQos2 =>
    simp only [SessionState.popRelease, Dict.get?_pop] at h
    split at h
    · cases h
    · next hne => exact ⟨h, fun _ he => hne he.symm⟩

namespace Logged

variable {s s' : Logged} {e : ProtocolEvent} {packet : Packet}

theorem log_step (s : Logged) (e : ProtocolEvent) : (s.step e).log =
    s.protocol.writtenSince (s.protocol.step e) ++ (s.protocol.taken e ++ s.log) := rfl

/-- A step that sends nothing and takes no packet. -/
theorem logStep_silent (hw : (s.protocol.step e).written = s.protocol.written)
    (htaken : s.protocol.taken e = []) (hstays : Stays s.protocol (s.protocol.step e)) :
    LogStep s e (s.step e) := by
  refine .stays [] hstays ?_ ?_ ?_ ?_
  · rw [log_step, writtenSince_of_eq hw, htaken]
    rfl
  · exact fun _ _ hx => absurd hx List.not_mem_nil
  · exact fun _ _ _ _ x hx => absurd hx List.not_mem_nil
  · exact fun x hx => absurd hx List.not_mem_nil

theorem logStep_same (hstep : s.protocol.step e = s.protocol) (htaken : s.protocol.taken e = []) :
    LogStep s e (s.step e) := by
  refine logStep_silent ?_ htaken ?_
  · rw [hstep]
  · rw [hstep]
    exact stays_refl _

/-- A step that sends a packet which is no part of an outbound QoS 2 exchange. -/
theorem logStep_sends {owner : Option Nat}
    (hw : (s.protocol.step e).written = (packet, owner) :: s.protocol.written)
    (htaken : s.protocol.taken e = []) (hstays : Stays s.protocol (s.protocol.step e))
    (howner : ∀ i, owner = some i → i < (s.protocol.step e).calls.length)
    (habout : ∀ pid, (Happening.sent packet owner).isAbout pid = false)
    (hpubrel : ∀ i, (Happening.sent packet owner).isPubrelOf i = false) :
    LogStep s e (s.step e) := by
  refine .stays [.sent packet owner] hstays ?_ (fun packet' i hx => ?_) (fun _ pid _ _ x hx => ?_)
    fun x hx i => ?_
  · rw [log_step, writtenSince_of_cons hw, htaken]
    rfl
  · rw [List.mem_singleton] at hx
    injection hx with hp ho
    exact howner i ho.symm
  · rw [List.mem_singleton.1 hx]
    exact habout pid
  · rw [List.mem_singleton.1 hx]
    exact hpubrel i

/-- A new call that is no QoS 2 publish. -/
theorem logStep_startCall {kind : CallKind} {filters : List String} {packetOf : Int → Packet}
    (hstep : s.protocol.step e = s.protocol.startCall kind filters packetOf)
    (hkind : kind ≠ .publishQos2) (htaken : s.protocol.taken e = [])
    (habout : ∀ pid pid' owner, (Happening.sent (packetOf pid) owner).isAbout pid' = false)
    (hpubrel : ∀ pid owner i, (Happening.sent (packetOf pid) owner).isPubrelOf i = false) :
    LogStep s e (s.step e) := by
  rcases s.protocol.startCall_cases kind filters packetOf with
    heq | ⟨pid, pool, -, ⟨err, -, heq⟩ | ⟨-, heq⟩⟩
  · exact logStep_same (hstep.trans heq) htaken
  · rw [heq] at hstep
    refine logStep_silent ?_ htaken ?_
    · rw [hstep]
    · rw [hstep]
      exact @stays_append _ _ { kind, pid, filters, pc := .finished (.raised (.encode err)) } rfl hkind
        rfl ((inflightQos2Out_cleanup _ kind pid).trans (inflightQos2Out_register _ hkind pid _))
  · rw [heq] at hstep
    refine @logStep_sends s e (packetOf pid) (some s.protocol.calls.length) ?_ htaken ?_ ?_
      (fun pid' => habout pid pid' _) fun i => hpubrel pid _ i
    · rw [hstep]
    · rw [hstep]
      exact @stays_append _ _ { kind, pid, filters, pc := .sending } rfl hkind rfl
        (inflightQos2Out_register _ hkind pid _)
    · intro i hi
      rw [hstep]
      dsimp only
      rw [List.length_append, List.length_singleton, Option.some.inj hi]
      exact Nat.lt_succ_self _

/-- A QoS 2 publish: its flight is registered, whether or not its packet is sent. -/
theorem logStep_publishQos2 {packet : Publish} (hqos : packet.qos = .exactlyOnce)
    (htaken : s.protocol.taken e = [])
    (hstep : s.protocol.step e = s.protocol.startCall .publishQos2 [] fun pid =>
      .publish { packet with packetId := some pid }) : LogStep s e (s.step e) := by
  rcases s.protocol.startCall_cases .publishQos2 [] fun pid =>
      .publish { packet with packetId := some pid } with
    heq | ⟨pid, pool, -, ⟨err, -, heq⟩ | ⟨-, heq⟩⟩
  · exact logStep_same (hstep.trans heq) htaken
  · rw [heq] at hstep
    refine .register [] pid { kind := .publishQos2, pid, pc := .finished (.raised (.encode err)) } ?_
      (congrArg Protocol.calls hstep) ?_ (congrArg (fun p : Protocol => p.state.inflightQos2Out) hstep)
      (fun x hx => absurd hx List.not_mem_nil) (Or.inl ⟨err, rfl⟩)
    · rw [log_step, writtenSince_of_eq (by rw [hstep]), htaken]
      rfl
    · show (s.protocol.step e).readLoop = s.protocol.readLoop
      rw [hstep]
  · rw [heq] at hstep
    have hlog : (s.step e).log =
        [.sent (.publish { packet with packetId := some pid }) (some s.protocol.calls.length)] ++
          s.log := by
      rw [log_step, writtenSince_of_cons (congrArg Protocol.written hstep), htaken]
      rfl
    refine .register _ pid { kind := .publishQos2, pid, pc := .sending } hlog
      (congrArg Protocol.calls hstep) ?_ (congrArg (fun p : Protocol => p.state.inflightQos2Out) hstep)
      (fun x hx => ⟨_, rfl, List.mem_singleton.1 hx⟩) (Or.inr ⟨rfl, rfl, ?_⟩)
    · show (s.protocol.step e).readLoop = s.protocol.readLoop
      rw [hstep]
    · refine ⟨{ packet with packetId := some pid }, s.exchange pid, hqos, rfl, ?_⟩
      rw [Logged.exchange, hlog, List.singleton_append, List.filter_cons_of_pos, Logged.exchange]
      exact decide_eq_true ⟨hqos, rfl⟩

theorem taken_of_reading (hloop : s.protocol.readLoop = .reading) (packet : Packet) :
    s.protocol.taken (.receive packet) = [.received packet] := by
  unfold Protocol.taken
  rw [hloop]

/-- The read loop takes a packet that has to do with no flight left. -/
theorem logStep_takes (hloop : s.protocol.readLoop = .reading)
    (hw : (s.protocol.step (.receive packet)).written = s.protocol.written)
    (hstays : Stays s.protocol (s.protocol.step (.receive packet)))
    (habout : (s.protocol.step (.receive packet)).readLoop ≠ .stopped → ∀ pid flight,
      (s.protocol.step (.receive packet)).state.inflightQos2Out.get? pid = some flight →
        (Happening.received packet).isAbout pid = false) :
    LogStep s (.receive packet) (s.step (.receive packet)) := by
  refine .stays [.received packet] hstays ?_ (fun packet' i hx => ?_) (fun hl pid flight hf x hx => ?_)
    fun x hx i => ?_
  · rw [log_step, writtenSince_of_eq hw, taken_of_reading hloop]
    rfl
  · cases List.mem_singleton.1 hx
  · rw [List.mem_singleton.1 hx]
    exact habout hl pid flight hf
  · rw [List.mem_singleton.1 hx]
    rfl

theorem step_of_dispatch {p : Protocol} (hloop : s.protocol.readLoop = .reading)
    (hd : s.protocol.dispatch packet = .ok p) : s.protocol.step (.receive packet) = p := by
  rw [Protocol.step, Protocol.receive, hloop]
  dsimp only
  rw [hd]

theorem step_of_error {error : DispatchError} (hloop : s.protocol.readLoop = .reading)
    (hd : s.protocol.dispatch packet = .error error) :
    s.protocol.step (.receive packet) = { s.protocol with readLoop := .stopped } := by
  rw [Protocol.step, Protocol.receive, hloop]
  dsimp only
  rw [hd]

/-- A reply is taken that ends or moves no flight left. -/
theorem logStep_replies {p : Protocol} (hloop : s.protocol.readLoop = .reading)
    (hd : s.protocol.dispatch packet = .ok p) (hw : p.written = s.protocol.written)
    (hstays : Stays s.protocol p)
    (habout : ∀ pid flight, p.state.inflightQos2Out.get? pid = some flight →
      (Happening.received packet).isAbout pid = false) : LogStep s (.receive packet) (s.step (.receive packet)) := by
  have hstep := step_of_dispatch hloop hd
  refine logStep_takes hloop ?_ ?_ ?_
  · rw [hstep]
    exact hw
  · rw [hstep]
    exact hstays
  · rw [hstep]
    exact fun _ => habout

/-- The read loop takes a packet and dies. -/
theorem logStep_fails {error : DispatchError} (hloop : s.protocol.readLoop = .reading)
    (hd : s.protocol.dispatch packet = .error error) : LogStep s (.receive packet) (s.step (.receive packet)) := by
  have hstep := step_of_error hloop hd
  refine logStep_takes hloop ?_ ?_ ?_
  · rw [hstep]
  · rw [hstep]
    exact stays_of_eq (fun hne => absurd rfl hne) rfl rfl
  · rw [hstep]
    exact fun hne => absurd rfl hne

theorem setResult_eq {p p' : Protocol} {i : Nat} {packet : Packet}
    (h : p.setResult i packet = .ok p') : p' = p.setFuture i (.result packet) := by
  unfold Protocol.setResult at h
  unfold Protocol.setFuture
  split at h
  · cases h
  · next c hc =>
    split at h
    · next hpending =>
      cases h
      exact (if_pos hpending).symm
    · cases h

/-- A packet that the dispatch accepts. -/
theorem logStep_dispatch {p : Protocol} (hown : s.protocol.OwnershipInv)
    (hloop : s.protocol.readLoop = .reading) (hd : s.protocol.dispatch packet = .ok p) :
    LogStep s (.receive packet) (s.step (.receive packet)) := by
  have hsame : s.protocol = p → (∀ pid, (Happening.received packet).isAbout pid = false) →
      LogStep s (.receive packet) (s.step (.receive packet)) := by
    rintro rfl habout
    exact logStep_replies hloop hd rfl (stays_refl _) fun pid _ _ => habout pid
  -- a reply to a call of another kind
  have hother : ∀ (kind : CallKind) (pid : Int) (i : Nat) (st : SessionState) (reply : FutureState),
      kind ≠ .publishQos2 → s.protocol.state.lookup kind pid = some i →
      (∀ pid flight, st.inflightQos2Out.get? pid = some flight →
        s.protocol.state.inflightQos2Out.get? pid = some flight) →
      Stays s.protocol ({ s.protocol with state := st }.setFuture i reply) := by
    intro kind pid i st reply hkind hl hst
    refine stays_setFuture i hst fun c hc hk => ?_
    obtain ⟨d, hd, hdk, -⟩ := hown.entries kind pid i hl
    rw [Option.some.inj (hc.symm.trans hd), hdk] at hk
    exact absurd hk hkind
  have hd' := hd
  unfold Protocol.dispatch at hd
  split at hd
  · exact hsame (Except.ok.inj hd) fun _ => rfl
  · exact hsame (Except.ok.inj hd) fun _ => rfl
  · exact hsame (Except.ok.inj hd) fun _ => rfl
  · next packet =>
    unfold Protocol.handlePuback at hd
    split at hd
    · cases hd
    · next i hl =>
      cases hd
      refine logStep_replies hloop hd' (Protocol.written_setFuture _ _ _) ?_ fun _ _ _ => rfl
      exact hother .publishQos1 packet.packetId i _ _ nofun hl fun _ _ hf => (get?_popRelease hf).1
  · next packet =>
    unfold Protocol.handlePubrec at hd
    split at hd
    · cases hd
    · next flight hf =>
      split at hd
      · cases hd
      · next hstate =>
        split at hd
        · cases hd
          refine logStep_replies hloop hd' (Protocol.written_setFuture _ _ _) ?_ fun pid flight' hf' => ?_
          · refine stays_setFuture _ (fun pid flight' hf' => (get?_popRelease hf').1) ?_
            exact fun _ _ _ _ => nofun
          · rw [Protocol.state_setFuture] at hf'
            exact decide_eq_false fun he => (get?_popRelease hf').2 rfl he.symm
        · next hcode =>
          cases hd
          have hstep := step_of_dispatch hloop hd'
          refine .pubrec packet flight hloop hf (not_not.1 hstate) (by omega) ?_
            (congrArg (fun p : Protocol => p.state.inflightQos2Out) hstep) ?_
          · show (s.protocol.step (.receive (.pubrec packet))).calls = s.protocol.calls
            rw [hstep]
          · rw [log_step, writtenSince_of_cons (congrArg Protocol.written hstep), taken_of_reading hloop]
            rfl
  · next packet =>
    unfold Protocol.handlePubcomp at hd
    split at hd
    · cases hd
    · next flight hf =>
      have hstep := step_of_dispatch hloop hd'
      rw [← Except.ok.inj hd] at hstep
      refine .pubcomp packet flight rfl hloop hf hstep ?_
      rw [log_step, writtenSince_of_eq (by rw [hstep, Protocol.written_setFuture]),
        taken_of_reading hloop]
      rfl
  · next packet =>
    unfold Protocol.handleSuback at hd
    split at hd
    · cases hd
    · next i hl =>
      rw [setResult_eq hd] at hd'
      refine logStep_replies hloop hd' (Protocol.written_setFuture _ _ _) ?_ fun _ _ _ => rfl
      exact hother .subscribe packet.packetId i s.protocol.state _ nofun hl fun _ _ hf => hf
  · next packet =>
    unfold Protocol.handleUnsuback at hd
    split at hd
    · cases hd
    · next i hl =>
      rw [setResult_eq hd] at hd'
      refine logStep_replies hloop hd' (Protocol.written_setFuture _ _ _) ?_ fun _ _ _ => rfl
      exact hother .unsubscribe packet.packetId i s.protocol.state _ nofun hl fun _ _ hf => hf
  · cases hd
  · split at hd
    · cases hd
    · exact hsame (Except.ok.inj hd) fun _ => rfl
  all_goals cases hd

theorem logStep_publish (packet : Publish) : LogStep s (.publish packet) (s.step (.publish packet)) := by
  by_cases hrefused : s.protocol.dead ∨ packet.qos.val > s.protocol.maxPublishQos.val
  · refine logStep_same ?_ rfl
    rw [Protocol.step, Protocol.publish, if_pos hrefused]
  · cases hqos : packet.qos with
    | atMostOnce =>
      rcases henc : encode (.publish packet) s.protocol.version with e | bytes
      · refine logStep_same ?_ rfl
        rw [Protocol.step, Protocol.publish, if_neg hrefused]
        simp only [hqos, henc]
      · have hstep : s.protocol.step (.publish packet) =
            { s.protocol with written := (.publish packet, none) :: s.protocol.written } := by
          rw [Protocol.step, Protocol.publish, if_neg hrefused]
          simp only [hqos, henc]
        refine @logStep_sends s _ (.publish packet) none ?_ rfl ?_ (fun _ ho => by cases ho)
          (fun pid => ?_) fun i => rfl
        · rw [hstep]
        · rw [hstep]
          exact stays_of_eq (fun hl => hl) rfl rfl
        · refine decide_eq_false fun habout => ?_
          rw [hqos] at habout
          cases habout.1
    | atLeastOnce =>
      have hstep : s.protocol.step (.publish packet) = s.protocol.startCall .publishQos1 []
          fun pid => .publish { packet with packetId := some pid } := by
        rw [Protocol.step, Protocol.publish, if_neg hrefused]
        simp only [hqos]
      refine logStep_startCall hstep (by decide) rfl (fun pid pid' owner => ?_) fun _ _ _ => rfl
      refine decide_eq_false fun habout => ?_
      cases hqos.symm.trans habout.1
    | exactlyOnce =>
      refine logStep_publishQos2 hqos rfl ?_
      rw [Protocol.step, Protocol.publish, if_neg hrefused]
      simp only [hqos]

/-- **One step.** -/
theorem logStep_step (hown : s.protocol.OwnershipInv) (e : ProtocolEvent) :
    LogStep s e (s.step e) := by
  cases e with
  | publish packet => exact logStep_publish packet
  | sendSubscribe filters identifier =>
    exact logStep_startCall rfl (by decide) rfl (fun _ _ _ => rfl) fun _ _ _ => rfl
  | sendUnsubscribe filters =>
    exact logStep_startCall rfl (by decide) rfl (fun _ _ _ => rfl) fun _ _ _ => rfl
  | resume i written =>
    exact logStep_silent (Protocol.written_resume s.protocol i written) rfl (stays_resume _ i written)
  | cancel i => exact logStep_silent (Protocol.written_cancel s.protocol i) rfl (stays_cancel _ i)
  | receive packet =>
    cases hloop : s.protocol.readLoop with
    | reading =>
      cases hd : s.protocol.dispatch packet with
      | ok p => exact logStep_dispatch hown hloop hd
      | error e => exact logStep_fails hloop hd
    | sendingPubrel | stopped =>
      refine logStep_same ?_ ?_
      · rw [Protocol.step, Protocol.receive, hloop]
      · unfold Protocol.taken
        rw [hloop]
  | resumeReadLoop written =>
    refine logStep_silent ?_ rfl ?_
    · rw [Protocol.step, Protocol.resumeReadLoop]
      split <;> rfl
    · rw [Protocol.step, Protocol.resumeReadLoop]
      split
      · next hloop =>
        refine stays_of_eq (fun _ => ?_) rfl rfl
        rw [hloop]
        decide
      · exact stays_refl _
      · exact stays_refl _
  | runExit => exact logStep_silent (Protocol.written_runExit s.protocol) rfl (stays_runExit _)

/-! ## The invariant -/

end Logged

/-- The exchange of a flight is where its state says. -/
def OutboundQoS2Flight.InPhase (flight : OutboundQoS2Flight) (pid : Int)
    (exchange : List Happening) : Prop :=
  match flight.state with
  | .pendingPubrec => Happening.Published pid flight.call exchange
  | .pendingPubcomp => Happening.Released pid flight.call exchange

namespace Logged

variable {s s' : Logged}

/-- No PUBREL of call `i` was sent. -/
def Quiet (s : Logged) (i : Nat) : Prop := ∀ x ∈ s.log, x.isPubrelOf i = false

/-- No PUBCOMP comes for an exchange whose PUBREC is still out. -/
def pubcompExpected (s : Logged) (e : ProtocolEvent) : Prop :=
  ∀ packet flight, e = .receive (.pubcomp packet) → s.protocol.readLoop = .reading →
    s.protocol.state.inflightQos2Out.get? packet.packetId = some flight →
      flight.state = .pendingPubcomp

structure HandshakeInv (s : Logged) : Prop where
  owned : s.protocol.OwnershipInv
  owners : ∀ packet i, .sent packet (some i) ∈ s.log → i < s.protocol.calls.length
  phases : s.protocol.readLoop ≠ .stopped → ∀ pid flight c,
    s.protocol.state.inflightQos2Out.get? pid = some flight →
      s.protocol.calls[flight.call]? = some c → ¬ c.Unsent → flight.InPhase pid (s.exchange pid)
  quiet : ∀ pid flight, s.protocol.state.inflightQos2Out.get? pid = some flight →
    flight.state = .pendingPubrec → s.Quiet flight.call
  completed : ∀ (i : Nat) c packet, s.protocol.calls[i]? = some c → c.kind = .publishQos2 →
    c.future = .result packet → ¬ c.Unsent → s.Handshaken c.pid i
  returned : ∀ (i : Nat) c packet, s.protocol.calls[i]? = some c → c.kind = .publishQos2 →
    c.pc = .finished (.returned packet) → c.future = .result packet

theorem Handshaken.mono {pid : Int} {i : Nat} (h : s.Handshaken pid i) {new : List Happening}
    (hlog : s'.log = new ++ s.log) : s'.Handshaken pid i := by
  obtain ⟨after, completed, hc, he⟩ := h
  refine ⟨new.filter (Happening.isAbout pid) ++ after, completed, hc, ?_⟩
  rw [Logged.exchange, hlog, List.filter_append, ← Logged.exchange, he, List.append_assoc]

theorem exchange_of_not_about {pid : Int} {new : List Happening} (hlog : s'.log = new ++ s.log)
    (hnew : ∀ x ∈ new, x.isAbout pid = false) : s'.exchange pid = s.exchange pid := by
  rw [Logged.exchange, hlog, List.filter_append, List.filter_eq_nil_iff.2, List.nil_append,
    Logged.exchange]
  intro x hx
  rw [hnew x hx]
  exact nofun

theorem Quiet.mono {i : Nat} (h : s.Quiet i) {new : List Happening} (hlog : s'.log = new ++ s.log)
    (hnew : ∀ x ∈ new, x.isPubrelOf i = false) : s'.Quiet i := by
  intro x hx
  rw [hlog, List.mem_append] at hx
  rcases hx with hx | hx
  · exact hnew x hx
  · exact h x hx

/-- The call of a flight. -/
theorem HandshakeInv.call (h : s.HandshakeInv) {pid : Int} {flight : OutboundQoS2Flight}
    (hf : s.protocol.state.inflightQos2Out.get? pid = some flight) :
    ∃ c, s.protocol.calls[flight.call]? = some c ∧ c.kind = .publishQos2 ∧ c.pid = pid := by
  refine h.owned.entries .publishQos2 pid flight.call ?_
  rw [SessionState.lookup, hf]
  rfl

theorem HandshakeInv.stays (h : s.HandshakeInv) (hown : s'.protocol.OwnershipInv)
    {new : List Happening} (hstays : Stays s.protocol s'.protocol) (hlog : s'.log = new ++ s.log)
    (howners : ∀ packet i, .sent packet (some i) ∈ new → i < s'.protocol.calls.length)
    (habout : s'.protocol.readLoop ≠ .stopped → ∀ pid flight,
      s'.protocol.state.inflightQos2Out.get? pid = some flight → ∀ x ∈ new, x.isAbout pid = false)
    (hpubrel : ∀ x ∈ new, ∀ i, x.isPubrelOf i = false) : s'.HandshakeInv := by
  refine ⟨hown, fun packet i hx => ?_, fun hloop pid flight c' hf hc' hu => ?_,
    fun pid flight hf hstate => ?_, fun i c' packet hc' hk hfut hu => ?_,
    fun i c' packet hc' hk hpc => ?_⟩
  · rw [hlog, List.mem_append] at hx
    rcases hx with hx | hx
    · exact howners packet i hx
    · exact Nat.lt_of_lt_of_le (h.owners packet i hx) hstays.length
  · have hold := hstays.flights pid flight hf
    obtain ⟨c, hc, -, -⟩ := h.call hold
    obtain ⟨d, hd, hadv, -⟩ := hstays.calls _ c hc
    rw [hc'] at hd
    rw [exchange_of_not_about hlog (habout hloop pid flight hf)]
    exact h.phases (hstays.loop hloop) pid flight c hold hc
      fun hu' => hu (Option.some.inj hd ▸ hadv.unsent hu')
  · exact (h.quiet pid flight (hstays.flights pid flight hf) hstate).mono hlog
      fun x hx => hpubrel x hx _
  · obtain ⟨c, hc, hadv, hres⟩ := hstays.back hc' hk
    rw [hadv.pid]
    exact (h.completed i c packet hc (hadv.kind ▸ hk) (hres packet hfut)
      fun hu' => hu (hadv.unsent hu')).mono hlog
  · obtain ⟨c, hc, hadv, -⟩ := hstays.back hc' hk
    exact hadv.returned (fun packet => h.returned i c packet hc (hadv.kind ▸ hk)) hpc

/-- No PUBREL was sent for a call that is yet to come. -/
theorem HandshakeInv.quiet_length (h : s.HandshakeInv) : s.Quiet s.protocol.calls.length := by
  intro x hx
  rw [Bool.eq_false_iff]
  intro hpubrel
  unfold Happening.isPubrelOf at hpubrel
  split at hpubrel
  · next packet owner =>
    obtain rfl := of_decide_eq_true hpubrel
    exact absurd (h.owners _ _ hx) (Nat.lt_irrefl _)
  · cases hpubrel

/-- A table in which one flight was set. -/
theorem get?_set_cases {d : Dict Int OutboundQoS2Flight} {pid pid' : Int}
    {flight flight' : OutboundQoS2Flight} (h : (d.set pid flight).get? pid' = some flight') :
    pid = pid' ∧ flight' = flight ∨ pid ≠ pid' ∧ d.get? pid' = some flight' := by
  rw [Dict.get?_set] at h
  split at h
  · next he => exact Or.inl ⟨he, (Option.some.inj h).symm⟩
  · next hne => exact Or.inr ⟨hne, h⟩

theorem HandshakeInv.register (h : s.HandshakeInv) (hown : s'.protocol.OwnershipInv)
    {new : List Happening} {pid : Int} {c : Call} (hlog : s'.log = new ++ s.log)
    (hcalls : s'.protocol.calls = s.protocol.calls ++ [c])
    (hloop : s'.protocol.readLoop = s.protocol.readLoop)
    (hflights : s'.protocol.state.inflightQos2Out =
      s.protocol.state.inflightQos2Out.set pid ⟨s.protocol.calls.length, .pendingPubrec⟩)
    (hnew : ∀ x ∈ new, ∃ packet : Publish, packet.packetId = some pid ∧
      x = .sent (.publish packet) (some s.protocol.calls.length))
    (hc : c.Unsent ∨ c.pc = .sending ∧ c.future = .pending ∧
      Happening.Published pid s.protocol.calls.length (s'.exchange pid)) : s'.HandshakeInv := by
  have hold : ∀ (i : Nat) c', s'.protocol.calls[i]? = some c' →
      s.protocol.calls[i]? = some c' ∨ i = s.protocol.calls.length ∧ c' = c :=
    fun i c' hc' => getElem?_concat_cases (hcalls ▸ hc')
  have hlength : s'.protocol.calls.length = s.protocol.calls.length + 1 := by
    rw [hcalls, List.length_append, List.length_singleton]
  have hquiet : ∀ i, ∀ x ∈ new, x.isPubrelOf i = false := by
    intro i x hx
    obtain ⟨publish, -, rfl⟩ := hnew x hx
    rfl
  refine ⟨hown, fun packet i hx => ?_, fun hl pid' flight c' hf hc' hu => ?_,
    fun pid' flight hf hstate => ?_, fun i c' packet hc' hk hfut hu => ?_,
    fun i c' packet hc' hk hpc => ?_⟩
  · rw [hlog, List.mem_append] at hx
    rcases hx with hx | hx
    · obtain ⟨publish, -, he⟩ := hnew _ hx
      injection he with _ ho
      rw [Option.some.inj ho]
      omega
    · exact Nat.lt_of_lt_of_le (h.owners packet i hx) (by omega)
  · rw [hflights] at hf
    rcases get?_set_cases hf with ⟨rfl, rfl⟩ | ⟨hne, hf⟩
    · rcases hold _ c' hc' with hlt | ⟨-, rfl⟩
      · exact absurd (List.getElem?_eq_some_iff.1 hlt).1 (Nat.lt_irrefl _)
      · rcases hc with hun | ⟨-, -, hpub⟩
        · exact absurd hun hu
        · exact hpub
    · rw [hloop] at hl
      obtain ⟨d, hd, -, -⟩ := h.call hf
      have hdc : s.protocol.calls[flight.call]? = some c' := by
        rcases hold _ c' hc' with hlt | ⟨he, -⟩
        · exact hlt
        · rw [he] at hd
          exact absurd (List.getElem?_eq_some_iff.1 hd).1 (Nat.lt_irrefl _)
      rw [@exchange_of_not_about s s' pid' new hlog]
      · exact h.phases hl pid' flight c' hf hdc hu
      · intro x hx
        obtain ⟨publish, hpid, rfl⟩ := hnew x hx
        rw [Happening.isAbout, hpid]
        exact decide_eq_false fun hand => hne (Option.some.inj hand.2)
  · rw [hflights] at hf
    rcases get?_set_cases hf with ⟨rfl, rfl⟩ | ⟨-, hf⟩
    · exact h.quiet_length.mono hlog (hquiet _)
    · exact (h.quiet pid' flight hf hstate).mono hlog (hquiet _)
  · rcases hold i c' hc' with hc' | ⟨-, rfl⟩
    · exact (h.completed i c' packet hc' hk hfut hu).mono hlog
    · rcases hc with hun | ⟨-, hpending, -⟩
      · exact absurd hun hu
      · rw [hpending] at hfut
        cases hfut
  · rcases hold i c' hc' with hc' | ⟨-, rfl⟩
    · exact h.returned i c' packet hc' hk hpc
    · rcases hc with ⟨e, he⟩ | ⟨hsending, -, -⟩
      · rw [hpc] at he
        cases he
      · rw [hpc] at hsending
        cases hsending

/-- Two flights have two calls. -/
theorem HandshakeInv.pid_of_call (h : s.HandshakeInv) {pid pid' : Int}
    {flight flight' : OutboundQoS2Flight}
    (hf : s.protocol.state.inflightQos2Out.get? pid = some flight)
    (hf' : s.protocol.state.inflightQos2Out.get? pid' = some flight')
    (hcall : flight.call = flight'.call) : pid = pid' := by
  obtain ⟨c, hc, -, hp⟩ := h.call hf
  obtain ⟨c', hc', -, hp'⟩ := h.call hf'
  rw [hcall, hc'] at hc
  rw [← hp, ← hp', Option.some.inj hc]

theorem HandshakeInv.pubrec (h : s.HandshakeInv) (hown : s'.protocol.OwnershipInv)
    {packet : PubAck} {flight : OutboundQoS2Flight} (hloop : s.protocol.readLoop = .reading)
    (hf : s.protocol.state.inflightQos2Out.get? packet.packetId = some flight)
    (hstate : flight.state = .pendingPubrec) (hcode : packet.reasonCode < 0x80)
    (hcalls : s'.protocol.calls = s.protocol.calls)
    (hflights : s'.protocol.state.inflightQos2Out = s.protocol.state.inflightQos2Out.set
      packet.packetId { flight with state := .pendingPubcomp })
    (hlog : s'.log = [.sent (.pubrel { packetId := packet.packetId }) (some flight.call),
      .received (.pubrec packet)] ++ s.log) : s'.HandshakeInv := by
  have hreading : s.protocol.readLoop ≠ .stopped := by
    rw [hloop]
    exact nofun
  refine ⟨hown, fun packet' i hx => ?_, fun _ pid flight' c hf' hc hu => ?_,
    fun pid flight' hf' hstate' => ?_, fun i c packet' hc hk hfut hu => ?_,
    fun i c packet' hc hk hpc => ?_⟩
  · rw [hcalls]
    rw [hlog, List.mem_append] at hx
    rcases hx with hx | hx
    · rcases List.mem_cons.1 hx with hx | hx
      · injection hx with _ ho
        obtain ⟨c, hc, -, -⟩ := h.call hf
        rw [Option.some.inj ho]
        exact (List.getElem?_eq_some_iff.1 hc).1
      · cases List.mem_singleton.1 hx
    · exact h.owners packet' i hx
  · rw [hcalls] at hc
    rw [hflights] at hf'
    rcases get?_set_cases hf' with ⟨rfl, rfl⟩ | ⟨hne, hf'⟩
    · have hphase := h.phases hreading packet.packetId flight c hf hc hu
      rw [OutboundQoS2Flight.InPhase, hstate] at hphase
      refine ⟨packet, s.exchange packet.packetId, rfl, hcode, hphase, ?_⟩
      rw [Logged.exchange, hlog, List.cons_append, List.singleton_append, List.filter_cons_of_pos,
        List.filter_cons_of_pos, Logged.exchange]
      · exact decide_eq_true rfl
      · exact decide_eq_true rfl
    · rw [@exchange_of_not_about s s' pid _ hlog]
      · exact h.phases hreading pid flight' c hf' hc hu
      · intro x hx
        rcases List.mem_cons.1 hx with rfl | hx
        · exact decide_eq_false hne
        · rw [List.mem_singleton.1 hx]
          exact decide_eq_false hne
  · rw [hflights] at hf'
    rcases get?_set_cases hf' with ⟨rfl, rfl⟩ | ⟨hne, hf'⟩
    · cases hstate'
    · refine (h.quiet pid flight' hf' hstate').mono hlog fun x hx => ?_
      rcases List.mem_cons.1 hx with rfl | hx
      · exact decide_eq_false fun he => hne (h.pid_of_call hf hf' (Option.some.inj he))
      · rw [List.mem_singleton.1 hx]
        rfl
  · rw [hcalls] at hc
    exact (h.completed i c packet' hc hk hfut hu).mono hlog
  · rw [hcalls] at hc
    exact h.returned i c packet' hc hk hpc

theorem HandshakeInv.pubcomp (h : s.HandshakeInv) (hown : s'.protocol.OwnershipInv)
    {packet : PubAck} {flight : OutboundQoS2Flight} (hloop : s.protocol.readLoop = .reading)
    (hf : s.protocol.state.inflightQos2Out.get? packet.packetId = some flight)
    (hstate : flight.state = .pendingPubcomp)
    (hprotocol : s'.protocol = { s.protocol with
      state := s.protocol.state.popRelease .publishQos2 packet.packetId }.setFuture flight.call
        (.result (.pubcomp packet)))
    (hlog : s'.log = [.received (.pubcomp packet)] ++ s.log) : s'.HandshakeInv := by
  have hreading : s.protocol.readLoop ≠ .stopped := by
    rw [hloop]
    exact nofun
  have hcalls : ∀ (i : Nat) c', s'.protocol.calls[i]? = some c' →
      ∃ c, s.protocol.calls[i]? = some c ∧ (c' = c ∨ i = flight.call ∧ c.future = .pending ∧
        c' = { c with future := .result (.pubcomp packet) }) := by
    intro i c' hc'
    rw [hprotocol] at hc'
    obtain ⟨c, hc, hcase⟩ := Protocol.call_setFuture hc'
    exact ⟨c, hc, hcase⟩
  have hflights : ∀ pid flight', s'.protocol.state.inflightQos2Out.get? pid = some flight' →
      s.protocol.state.inflightQos2Out.get? pid = some flight' ∧ pid ≠ packet.packetId := by
    intro pid flight' hf'
    rw [hprotocol, Protocol.state_setFuture] at hf'
    exact ⟨(get?_popRelease hf').1, (get?_popRelease hf').2 rfl⟩
  have hlength : s'.protocol.calls.length = s.protocol.calls.length := by
    rw [hprotocol]
    exact Protocol.length_calls_setFuture _ _ _
  refine ⟨hown, fun packet' i hx => ?_, fun _ pid flight' c' hf' hc' hu => ?_,
    fun pid flight' hf' hstate' => ?_, fun i c' packet' hc' hk hfut hu => ?_,
    fun i c' packet' hc' hk hpc => ?_⟩
  · rw [hlength]
    rw [hlog, List.mem_append] at hx
    rcases hx with hx | hx
    · cases List.mem_singleton.1 hx
    · exact h.owners packet' i hx
  · obtain ⟨hf', hne⟩ := hflights pid flight' hf'
    obtain ⟨c, hc, hcase⟩ := hcalls _ c' hc'
    rw [@exchange_of_not_about s s' pid _ hlog]
    · refine h.phases hreading pid flight' c hf' hc fun hu' => hu ?_
      rcases hcase with rfl | ⟨-, -, rfl⟩
      · exact hu'
      · exact hu'
    · intro x hx
      rw [List.mem_singleton.1 hx]
      exact decide_eq_false (Ne.symm hne)
  · refine (h.quiet pid flight' (hflights pid flight' hf').1 hstate').mono hlog fun x hx => ?_
    rw [List.mem_singleton.1 hx]
    rfl
  · obtain ⟨c, hc, hcase⟩ := hcalls i c' hc'
    rcases hcase with rfl | ⟨rfl, hpending, rfl⟩
    · exact (h.completed i c' packet' hc hk hfut hu).mono hlog
    · -- the exchange was at its PUBREL
      have hphase := h.phases hreading packet.packetId flight c hf hc hu
      rw [OutboundQoS2Flight.InPhase, hstate] at hphase
      obtain ⟨d, hd, -, hp⟩ := h.call hf
      obtain rfl := Option.some.inj (hc.symm.trans hd)
      refine ⟨[], s'.exchange c.pid, ⟨packet, s.exchange packet.packetId, hp.symm, ?_, ?_⟩, rfl⟩
      · rw [hp]
        exact hphase
      · rw [hp, Logged.exchange, hlog, List.singleton_append, List.filter_cons_of_pos, Logged.exchange]
        exact decide_eq_true rfl
  · obtain ⟨c, hc, hcase⟩ := hcalls i c' hc'
    rcases hcase with rfl | ⟨rfl, hpending, rfl⟩
    · exact h.returned i c' packet' hc hk hpc
    · have hres := h.returned _ c packet' hc hk hpc
      rw [hpending] at hres
      cases hres

/-- The invariant holds after every step that meets the condition. -/
theorem HandshakeInv.step (h : s.HandshakeInv) {e : ProtocolEvent} (he : s.pubcompExpected e) :
    (s.step e).HandshakeInv := by
  have hown : (s.step e).protocol.OwnershipInv := h.owned.step e
  cases logStep_step h.owned e with
  | stays new hstays hlog howners habout hpubrel =>
    exact h.stays hown hstays hlog howners habout hpubrel
  | register new pid c hlog hcalls hloop hflights hnew hc =>
    exact h.register hown hlog hcalls hloop hflights hnew hc
  | pubrec packet flight hloop hf hstate hcode hcalls hflights hlog =>
    exact h.pubrec hown hloop hf hstate hcode hcalls hflights hlog
  | pubcomp packet flight hrecv hloop hf hprotocol hlog =>
    exact h.pubcomp hown hloop hf (he packet flight hrecv hloop hf) hprotocol hlog

theorem handshakeInv_fresh (version : Version) (maxPublishQos : QoS) :
    (fresh version maxPublishQos).HandshakeInv := by
  refine ⟨Protocol.ownershipInv_fresh version maxPublishQos, ?_, ?_, ?_, ?_, ?_⟩
  · exact fun _ _ hx => absurd hx List.not_mem_nil
  · intro _ pid flight c hf
    cases hf
  · intro pid flight hf
    cases hf
  · intro i c packet hc
    cases hc
  · intro i c packet hc
    cases hc

theorem handshakeInv_of_reach {version : Version} {maxPublishQos : QoS}
    (h : Reach step pubcompExpected (fresh version maxPublishQos) s) : s.HandshakeInv :=
  h.invariant (handshakeInv_fresh version maxPublishQos) fun _ _ hs he => hs.step he

/-! ## A PUBREC that refuses the publish -/

/-- A call whose future is done only goes on. -/
theorem advances_of_logStep {e : ProtocolEvent} (h : LogStep s e s') {i : Nat} {c : Call}
    (hc : s.protocol.calls[i]? = some c) (hdone : c.future ≠ .pending) :
    ∃ c', s'.protocol.calls[i]? = some c' ∧ c.Advances c' := by
  have hsame : s'.protocol.calls[i]? = s.protocol.calls[i]? →
      ∃ c', s'.protocol.calls[i]? = some c' ∧ c.Advances c' :=
    fun he => ⟨c, he.trans hc, c.advances_refl⟩
  cases h with
  | stays new hstays =>
    obtain ⟨c', hc', hadv, -⟩ := hstays.calls i c hc
    exact ⟨c', hc', hadv⟩
  | register new pid d hlog hcalls =>
    refine hsame ?_
    rw [hcalls, List.getElem?_append_left (List.getElem?_eq_some_iff.1 hc).1]
  | pubrec packet flight hloop hf hstate hcode hcalls =>
    refine hsame ?_
    rw [hcalls]
  | pubcomp packet flight he hloop hf hprotocol =>
    have hlt : i < s'.protocol.calls.length := by
      rw [hprotocol, Protocol.length_calls_setFuture]
      exact (List.getElem?_eq_some_iff.1 hc).1
    obtain ⟨c', hc'⟩ : ∃ c', s'.protocol.calls[i]? = some c' := ⟨_, List.getElem?_eq_getElem hlt⟩
    have hset := hc'
    rw [hprotocol] at hset
    obtain ⟨d, hd, hcase⟩ := Protocol.call_setFuture hset
    obtain rfl := Option.some.inj (hc.symm.trans hd)
    rcases hcase with rfl | ⟨-, hpending, -⟩
    · exact ⟨c', hc', c'.advances_refl⟩
    · exact absurd hpending hdone

/-- The flight of call `i` is gone, and no PUBREL was sent for it. -/
structure Refused (s : Logged) (i : Nat) : Prop where
  started : i < s.protocol.calls.length
  gone : ∀ pid flight, s.protocol.state.inflightQos2Out.get? pid = some flight → flight.call ≠ i
  quiet : s.Quiet i

theorem Refused.step {e : ProtocolEvent} {i : Nat} (h : s.Refused i) (hs : LogStep s e s') :
    s'.Refused i := by
  cases hs with
  | stays new hstays hlog howners habout hpubrel =>
    exact ⟨Nat.lt_of_lt_of_le h.started hstays.length,
      fun pid flight hf => h.gone pid flight (hstays.flights pid flight hf),
      h.quiet.mono hlog fun x hx => hpubrel x hx i⟩
  | register new pid c hlog hcalls hloop hflights hnew =>
    refine ⟨?_, fun pid' flight hf => ?_, h.quiet.mono hlog fun x hx => ?_⟩
    · rw [hcalls, List.length_append]
      exact Nat.lt_add_right _ h.started
    · rw [hflights] at hf
      rcases get?_set_cases hf with ⟨-, rfl⟩ | ⟨-, hf⟩
      · exact Nat.ne_of_gt h.started
      · exact h.gone pid' flight hf
    · obtain ⟨publish, -, rfl⟩ := hnew x hx
      rfl
  | pubrec packet flight hloop hf hstate hcode hcalls hflights hlog =>
    refine ⟨hcalls ▸ h.started, fun pid flight' hf' => ?_, h.quiet.mono hlog fun x hx => ?_⟩
    · rw [hflights] at hf'
      rcases get?_set_cases hf' with ⟨-, rfl⟩ | ⟨-, hf'⟩
      · exact h.gone _ flight hf
      · exact h.gone pid flight' hf'
    · rcases List.mem_cons.1 hx with rfl | hx
      · exact decide_eq_false fun he => h.gone _ flight hf (Option.some.inj he)
      · rw [List.mem_singleton.1 hx]
        rfl
  | pubcomp packet flight he hloop hf hprotocol hlog =>
    refine ⟨?_, fun pid flight' hf' => ?_, h.quiet.mono hlog fun x hx => ?_⟩
    · rw [hprotocol, Protocol.length_calls_setFuture]
      exact h.started
    · rw [hprotocol, Protocol.state_setFuture] at hf'
      exact h.gone pid flight' (get?_popRelease hf').1
    · rw [List.mem_singleton.1 hx]
      rfl

end Logged

/-- The call raises the error of the PUBREC, unless its write fails or its caller cancels it. -/
structure Call.Raises (c : Call) (packet : PubAck) : Prop where
  future : c.future = .exception (.publishError packet)
  outcome : ∀ outcome, c.pc = .finished outcome → outcome = .raised (.publishError packet) ∨
    outcome = .raised .write ∨ outcome = .cancelled ∧ c.cancelRequested = true

theorem Call.Raises.advances {packet : PubAck} (h : c.Raises packet) (hadv : c.Advances c') :
    c'.Raises packet := by
  have hdone : c.future ≠ .pending := by
    rw [h.future]
    exact nofun
  refine ⟨(hadv.future hdone).trans h.future, fun outcome hpc => ?_⟩
  rcases hadv.pc with heq | ⟨-, hw | ⟨outcome', ho, hcase⟩⟩
  · rcases h.outcome outcome (heq ▸ hpc) with hr | hr | ⟨hr, hcancel⟩
    · exact Or.inl hr
    · exact Or.inr (Or.inl hr)
    · exact Or.inr (Or.inr ⟨hr, hadv.cancelRequested hcancel⟩)
  · rw [hpc] at hw
    cases hw
  · rw [hpc] at ho
    obtain rfl := Pc.finished.inj ho
    rcases hcase with hr | ⟨hr, hcancel⟩ | ⟨-, hr⟩
    · exact Or.inr (Or.inl hr)
    · exact Or.inr (Or.inr ⟨hr, hadv.cancelRequested hcancel⟩)
    · rw [Protocol.outcomeOf, h.future] at hr
      exact Or.inl hr

/-- A call that is resumed raises. -/
theorem Call.Raises.resume {packet : PubAck} (h : c.Raises packet) {i : Nat}
    (hc : p.calls[i]? = some c) (hfin : c.pc.isFinished = false) (hcancel : c.cancelRequested = false) :
    ∃ c', (p.resume i true).calls[i]? = some c' ∧
      c'.pc = .finished (.raised (.publishError packet)) := by
  have hdone : c.future ≠ .pending := by
    rw [h.future]
    exact nofun
  have hfinish : ∃ c', (p.finish i c (Protocol.outcomeOf c)).calls[i]? = some c' ∧
      c'.pc = .finished (.raised (.publishError packet)) := by
    rw [Protocol.outcomeOf, h.future]
    exact ⟨_, List.getElem?_set_self (List.getElem?_eq_some_iff.1 hc).1, rfl⟩
  unfold Protocol.resume
  rw [hc]
  dsimp only
  rw [hcancel]
  split
  · next hpc =>
    rw [hpc] at hfin
    cases hfin
  · rw [if_neg nofun, if_pos rfl, if_neg hdone]
    exact hfinish
  · rw [if_neg hdone, if_neg nofun]
    exact hfinish

/-! ## The order of the handshake -/

/-- The flight of the packet id is in the phase that the packet answers. -/
def Protocol.Expects (p : Protocol) : Packet → Prop
  | .pubrec packet => ∃ flight, p.state.inflightQos2Out.get? packet.packetId = some flight ∧
      flight.state = .pendingPubrec
  | .pubcomp packet => ∃ flight, p.state.inflightQos2Out.get? packet.packetId = some flight ∧
      flight.state = .pendingPubcomp
  | _ => True

namespace Logged

variable {s s' : Logged}

/-- After the step to `s'` the publish of call `i` is refused: its id is free, it sends no
    PUBREL, and it raises. -/
structure RefusedBy (packet : PubAck) (i : Nat) (s s' : Logged) : Prop where
  unsent : s'.protocol.written = s.protocol.written
  free : packet.packetId ∉ s'.protocol.state.packetIds.inUse
  quiet : ∀ s'', Reach step pubcompExpected s' s'' → s''.Quiet i
  raises : ∀ c, s.protocol.calls[i]? = some c → c.pc.isFinished = false → c.future = .pending →
    ∀ s'', Reach step pubcompExpected s' s'' → ∃ c', s''.protocol.calls[i]? = some c' ∧
      c'.Raises packet ∧ (c'.pc.isFinished = false → c'.cancelRequested = false →
        ∃ c'', (s''.protocol.resume i true).calls[i]? = some c'' ∧
          c''.pc = .finished (.raised (.publishError packet)))

theorem HandshakeInv.refusedBy (h : s.HandshakeInv) {packet : PubAck} {flight : OutboundQoS2Flight}
    (hloop : s.protocol.readLoop = .reading)
    (hf : s.protocol.state.inflightQos2Out.get? packet.packetId = some flight)
    (hstate : flight.state = .pendingPubrec) (hcode : packet.reasonCode ≥ 0x80) :
    RefusedBy packet flight.call s (s.step (.receive (.pubrec packet))) := by
  have hprotocol : (s.step (.receive (.pubrec packet))).protocol = { s.protocol with
      state := s.protocol.state.popRelease .publishQos2 packet.packetId }.setFuture flight.call
        (.exception (.publishError packet)) := by
    refine step_of_dispatch hloop ?_
    rw [Protocol.dispatch, Protocol.handlePubrec, hf]
    dsimp only
    rw [if_neg (not_not.2 hstate), if_pos hcode]
  have hwritten : (s.step (.receive (.pubrec packet))).protocol.written = s.protocol.written := by
    rw [hprotocol, Protocol.written_setFuture]
  have hinv : (s.step (.receive (.pubrec packet))).HandshakeInv := h.step (fun _ _ he => by cases he)
  obtain ⟨c, hc, -, -⟩ := h.call hf
  have hlog : (s.step (.receive (.pubrec packet))).log = [.received (.pubrec packet)] ++ s.log := by
    have hnone : s.protocol.writtenSince (s.protocol.step (.receive (.pubrec packet))) = [] :=
      writtenSince_of_eq hwritten
    rw [log_step, hnone, taken_of_reading hloop]
    rfl
  have hrefused : (s.step (.receive (.pubrec packet))).Refused flight.call := by
    refine ⟨?_, fun pid flight' hf' => ?_, (h.quiet _ flight hf hstate).mono hlog fun x hx => ?_⟩
    · rw [hprotocol, Protocol.length_calls_setFuture]
      exact (List.getElem?_eq_some_iff.1 hc).1
    · rw [hprotocol, Protocol.state_setFuture] at hf'
      obtain ⟨hold, hne⟩ := get?_popRelease hf'
      exact fun he => hne rfl (h.pid_of_call hold hf he)
    · rw [List.mem_singleton.1 hx]
      rfl
  refine ⟨hwritten, ?_, fun s'' hr => ?_, fun d hd hfin hpending s'' hr => ?_⟩
  · rw [hprotocol, Protocol.state_setFuture]
    exact Finset.notMem_erase _ _
  · have hrun : s''.HandshakeInv ∧ s''.Refused flight.call := by
      refine Reach.invariant (I := fun s : Logged => s.HandshakeInv ∧ s.Refused flight.call) hr
        ⟨hinv, hrefused⟩ ?_
      rintro t e ⟨ht, hq⟩ he
      exact ⟨ht.step he, hq.step (logStep_step ht.owned e)⟩
    exact hrun.2.quiet
  · have hstart : ∃ c', (s.step (.receive (.pubrec packet))).protocol.calls[flight.call]? = some c' ∧
        c'.Raises packet := by
      refine ⟨{ d with future := .exception (.publishError packet) }, ?_, rfl, fun outcome hpc => ?_⟩
      · rw [hprotocol]
        unfold Protocol.setFuture
        rw [hd]
        dsimp only
        rw [if_pos hpending]
        exact List.getElem?_set_self (List.getElem?_eq_some_iff.1 hd).1
      · rw [show d.pc = .finished outcome from hpc] at hfin
        cases hfin
    have hrun : s''.HandshakeInv ∧ ∃ c', s''.protocol.calls[flight.call]? = some c' ∧
        c'.Raises packet := by
      refine Reach.invariant (I := fun s : Logged => s.HandshakeInv ∧
        ∃ c', s.protocol.calls[flight.call]? = some c' ∧ c'.Raises packet) hr ⟨hinv, hstart⟩ ?_
      rintro t e ⟨ht, c', hc', hraises⟩ he
      have hdone : c'.future ≠ .pending := by
        rw [hraises.future]
        intro he
        cases he
      obtain ⟨c'', hc'', hadv⟩ := advances_of_logStep (logStep_step ht.owned e) hc' hdone
      exact ⟨ht.step he, c'', hc'', hraises.advances hadv⟩
    obtain ⟨-, c', hc', hraises⟩ := hrun
    exact ⟨c', hc', hraises, hraises.resume hc'⟩

/-- A PUBREC or PUBCOMP that no flight waits for. -/
theorem dispatch_of_not_expects {packet : Packet} (hloop : s.protocol.readLoop = .reading)
    (he : s.pubcompExpected (.receive packet)) (hnot : ¬ s.protocol.Expects packet) :
    ∃ msg, s.protocol.dispatch packet = .error (.protocolError msg) := by
  cases packet with
  | pubrec packet =>
    rw [Protocol.dispatch, Protocol.handlePubrec]
    split
    · exact ⟨_, rfl⟩
    · next flight hf =>
      rw [if_pos fun hstate => hnot ⟨flight, hf, hstate⟩]
      exact ⟨_, rfl⟩
  | pubcomp packet =>
    rw [Protocol.dispatch, Protocol.handlePubcomp]
    split
    · exact ⟨_, rfl⟩
    · next flight hf => exact absurd ⟨flight, hf, he packet flight rfl hloop hf⟩ hnot
  | _ => exact absurd trivial hnot

/-- **Outbound QoS 2 order.** In every run in which no PUBCOMP comes for an exchange whose
    PUBREC is still out, a QoS 2 publish that returns has been through PUBLISH, PUBREC, one
    PUBREL and PUBCOMP; a PUBREC that refuses it frees the id and lets it raise; and the other
    PUBRECs and PUBCOMPs raise `MQTTProtocolError` and change nothing. -/
theorem qos2_handshake_ordered (version : Version) (maxPublishQos : QoS) (s : Logged)
    (h : Reach step pubcompExpected (fresh version maxPublishQos) s) :
    (∀ (i : Nat) c reply, s.protocol.calls[i]? = some c → c.kind = .publishQos2 →
      c.pc = .finished (.returned reply) → s.Handshaken c.pid i) ∧
    (∀ packet flight, s.protocol.readLoop = .reading →
      s.protocol.state.inflightQos2Out.get? packet.packetId = some flight →
      flight.state = .pendingPubrec → packet.reasonCode ≥ 0x80 →
      RefusedBy packet flight.call s (s.step (.receive (.pubrec packet)))) ∧
    (∀ packet, s.protocol.readLoop = .reading → s.pubcompExpected (.receive packet) →
      ¬ s.protocol.Expects packet →
      ∃ msg, s.protocol.dispatch packet = .error (.protocolError msg) ∧
        s.protocol.step (.receive packet) = { s.protocol with readLoop := .stopped }) := by
  have hinv := handshakeInv_of_reach h
  refine ⟨fun i c reply hc hk hpc => ?_, fun packet flight => hinv.refusedBy,
    fun packet hloop he hnot => ?_⟩
  · refine hinv.completed i c reply hc hk (hinv.returned i c reply hc hk hpc) ?_
    rintro ⟨e, hu⟩
    rw [hpc] at hu
    cases hu
  · obtain ⟨msg, hd⟩ := dispatch_of_not_expects hloop he hnot
    exact ⟨msg, hd, step_of_error hloop hd⟩

/-- A publish that is answered in order. -/
def orderedExchange : List ProtocolEvent :=
  [.publish { topic := "a", payload := [], qos := .exactlyOnce, retain := false, dup := false },
    .resume 0 true, .receive (.pubrec { packetId := 1 }), .resumeReadLoop true,
    .receive (.pubcomp { packetId := 1 }), .resume 0 true]

theorem qos2_handshake_ordered_orderedExchange :
    ((orderedExchange.foldl step (fresh .v311 .exactlyOnce)).protocol.calls.map (·.pc)) =
      [.finished (.returned (.pubcomp { packetId := 1 }))] ∧
    (orderedExchange.foldl step (fresh .v311 .exactlyOnce)).Handshaken 1 0 := by
  have hmeets : Meets step pubcompExpected (fresh .v311 .exactlyOnce) orderedExchange := by
    refine ⟨nofun, nofun, nofun, nofun, fun packet flight he _ hf => ?_, nofun, trivial⟩
    cases he
    obtain rfl := Option.some.inj hf
    rfl
  refine ⟨by decide +kernel, ?_⟩
  exact (qos2_handshake_ordered .v311 .exactlyOnce _ (Reach.foldl hmeets)).1 0 _ _ rfl rfl rfl

/-- The broker answers the PUBLISH with PUBCOMP. -/
def hastyExchange : List ProtocolEvent :=
  [.publish { topic := "a", payload := [], qos := .exactlyOnce, retain := false, dup := false },
    .resume 0 true, .receive (.pubcomp { packetId := 1 }), .resume 0 true]

/-- Then the publish returns without a PUBREC and without a PUBREL. -/
theorem pubcomp_before_pubrec :
    ((hastyExchange.foldl step (fresh .v311 .exactlyOnce)).protocol.calls.map (·.pc)) =
      [.finished (.returned (.pubcomp { packetId := 1 }))] ∧
    ¬ (hastyExchange.foldl step (fresh .v311 .exactlyOnce)).Handshaken 1 0 := by
  refine ⟨by decide +kernel, ?_⟩
  rintro ⟨after, completed, ⟨pubcomp, released, -, ⟨pubrec, published, -, -, ⟨packet, before, -, -, rfl⟩,
    rfl⟩, rfl⟩, he⟩
  have hlength := congrArg List.length he
  have htwo : ((hastyExchange.foldl step (fresh .v311 .exactlyOnce)).exchange 1).length = 2 := by
    decide +kernel
  rw [htwo] at hlength
  simp only [List.length_append, List.length_cons] at hlength
  omega

end Logged

end Zmqtt
