/-
  A connection whose `run()` has exited (`_cancel_pending`, `_ensure_alive` and `ping` of
  `_internal/protocol.py`): the futures that are stored then are done (`Over`), and the
  operations that check `_ensure_alive` raise before they register or send anything.

  `ping` is added to the calls of `Interests`: it registers with `_ping_waiters`, sends PINGREQ
  and waits, and it is the one operation that makes no check. The ping loop is a caller of
  `ping` that ends before the tables are failed.
-/
import Zmqtt.Session.Entries
import Zmqtt.Session.Moves

namespace Zmqtt

/-! ## How an operation begins -/

/-- What an operation raises before its first wait. -/
inductive Refusal where
  | disconnected
  | qosExceeded (requested maximum : QoS)
  | idsExhausted
  | encode (e : PyError)
  deriving Repr, DecidableEq

/-- How the code of an operation goes up to its first wait. -/
inductive Opening where
  | waits
  | returned
  | raised (refusal : Refusal)
  deriving Repr, DecidableEq

namespace Protocol

/-- `_ensure_alive`, `acquire` and `_encode`, in this order. -/
def sendOpening (p : Protocol) (packetOf : Int → Packet) : Opening :=
  if p.dead then .raised .disconnected
  else
    match p.state.packetIds.acquire with
    | none => .raised .idsExhausted
    | some (pid, _) =>
        match encode (packetOf pid) p.version with
        | .error e => .raised (.encode e)
        | .ok _ => .waits

/-- `publish`. -/
def publishOpening (p : Protocol) (packet : Publish) : Opening :=
  if p.dead then .raised .disconnected
  else if packet.qos.val > p.maxPublishQos.val then .raised (.qosExceeded packet.qos p.maxPublishQos)
  else
    match packet.qos with
    | .atMostOnce =>
        match encode (.publish packet) p.version with
        | .error e => .raised (.encode e)
        | .ok _ => .waits
    | .atLeastOnce | .exactlyOnce =>
        p.sendOpening fun pid => .publish { packet with packetId := some pid }

/-- A call is started exactly when its opening waits. -/
theorem awaits_startCall (p : Protocol) (kind : CallKind) (filters : List String)
    (packetOf : Int → Packet) :
    (p.startCall kind filters packetOf).awaits p.calls.length = true ↔
      p.sendOpening packetOf = .waits := by
  unfold startCall sendOpening
  by_cases hdead : p.dead = true
  · simp [awaits, hdead]
  · rw [if_neg hdead, if_neg hdead]
    rcases p.state.packetIds.acquire with _ | ⟨pid, pool⟩
    · simp [awaits]
    · dsimp only
      rcases encode (packetOf pid) p.version with e | bytes
      · simp [awaits]
      · simp [awaits]

end Protocol

namespace Interests

/-- The code of a call inside its guards. -/
def callOpening (s : Interests) : InterestCall → Opening
  | .subscribe filters _ _ identifier =>
      s.protocol.sendOpening fun pid => .subscribe ⟨pid, filters, identifier.map fun i =>
        { subscriptionIdentifier := some i }⟩
  | .unsubscribe filters =>
      if s.protocol.dead then .raised .disconnected
      else
        let observedFilters := filters.filter fun f => s.index.hasResponseObserver f
        let brokerFilters := filters.filter fun f => !observedFilters.contains f
        if brokerFilters ≠ [] then
          s.protocol.sendOpening fun pid => .unsubscribe { packetId := pid, topicFilters := brokerFilters }
        else if observedFilters ≠ [] then
          s.protocol.sendOpening fun pid =>
            .subscribe ⟨pid, observedFilters.map observerRequest, none⟩
        else .returned
  | .addResponseObserver topic =>
      if s.protocol.dead then .raised .disconnected
      else if s.index.hasResponseObserver topic ∨ s.index.contains topic then .returned
      else s.protocol.sendOpening fun pid => .subscribe ⟨pid, [observerRequest topic], none⟩
  | .removeResponseObserver topic =>
      if !s.index.hasResponseObserver topic ∨ s.index.contains topic ∨ s.protocol.dead then .returned
      else s.protocol.sendOpening fun pid => .unsubscribe { packetId := pid, topicFilters := [topic] }

end Interests

/-! ## `ping` -/

inductive PingOutcome where
  | returned
  | timedOut
  | notWaiting
  | disconnected
  | writeFailed
  | cancelled
  deriving Repr, DecidableEq

inductive PingFuture where
  | pending
  | result
  | disconnected
  deriving Repr, DecidableEq

inductive PingPc where
  | sending
  | waiting
  | finished (outcome : PingOutcome)
  deriving Repr, DecidableEq

structure PingCall where
  future : PingFuture := .pending
  pc : PingPc := .sending
  deriving Repr, DecidableEq

/-- The connection with its pings; `pingWaiters` names the calls whose futures are in
    `_ping_waiters`. -/
structure Connection where
  interests : Interests
  pings : List PingCall := []
  pingWaiters : List Nat := []

inductive ConnectionEvent where
  | call (e : InterestEvent)
  | ping
  | resumePing (j : Nat) (written : Bool)
  | timeoutPing (j : Nat)
  | cancelPing (j : Nat)

namespace Connection

def protocol (s : Connection) : Protocol := s.interests.protocol

/-- `if not f.done(): f.set_...`. -/
def setPing (s : Connection) (j : Nat) (future : PingFuture) : Connection :=
  { s with pings := s.pings.modify j fun ping =>
    if ping.future = .pending then { ping with future } else ping }

def endPing (s : Connection) (j : Nat) (outcome : PingOutcome) : Connection :=
  { s with pings := s.pings.modify j fun ping => { ping with pc := .finished outcome } }

/-- `ping`, up to its write. -/
def ping (s : Connection) : Connection where
  interests := { s.interests with
    protocol := { s.protocol with written := (.pingreq, none) :: s.protocol.written } }
  pings := s.pings ++ [{}]
  pingWaiters := s.pingWaiters ++ [s.pings.length]

/-- The event loop resumes ping `j`. -/
def resumePing (s : Connection) (j : Nat) (written : Bool) : Connection :=
  match s.pings[j]? with
  | none => s
  | some ping =>
      match ping.pc, ping.future with
      | .finished _, _ => s
      | .sending, .pending =>
          if written then
            { s with pings := s.pings.modify j fun ping => { ping with pc := .waiting } }
          else s.endPing j .writeFailed
      | .waiting, .pending => s
      | .sending, .result => s.endPing j (if written then .returned else .writeFailed)
      | .sending, .disconnected => s.endPing j (if written then .disconnected else .writeFailed)
      | .waiting, .result => s.endPing j .returned
      | .waiting, .disconnected => s.endPing j .disconnected

/-- The timeout of ping `j`; `_ping_waiters.remove(future)` raises when the future has left. -/
def timeoutPing (s : Connection) (j : Nat) : Connection :=
  match s.pings[j]? with
  | some { pc := .waiting, .. } =>
      { s with pingWaiters := s.pingWaiters.erase j }.endPing j
        (if j ∈ s.pingWaiters then .timedOut else .notWaiting)
  | _ => s

def cancelPing (s : Connection) (j : Nat) : Connection :=
  match s.pings[j]? with
  | some { pc := .finished _, .. } | none => s
  | some _ => s.endPing j .cancelled

/-- `_handle_pingresp`. -/
def handlePingresp (s : Connection) : Connection :=
  match s.pingWaiters with
  | [] => s
  | j :: waiters => { s with pingWaiters := waiters }.setPing j .result

/-- The part of `_cancel_pending` for the pings. -/
def cancelPings (s : Connection) : Connection :=
  { s.pingWaiters.foldl (fun s j => s.setPing j .disconnected) s with pingWaiters := [] }

def step (s : Connection) : ConnectionEvent → Connection
  | .call e =>
      let s' := { s with interests := s.interests.step e }
      match e with
      | .background (.receive .pingresp) =>
          if s.protocol.readLoop = .reading then s'.handlePingresp else s'
      | .background .runExit => s'.cancelPings
      | _ => s'
  | .ping => s.ping
  | .resumePing j written => s.resumePing j written
  | .timeoutPing j => s.timeoutPing j
  | .cancelPing j => s.cancelPing j

/-- A connection right after the handshake. -/
def fresh (version : Version) (maxPublishQos : QoS) (strippedPrefixes : List String) : Connection :=
  { interests := Interests.fresh version maxPublishQos strippedPrefixes }

end Connection

/-! ## The tables of a dead connection -/

namespace Protocol

/-- `run()` has exited, and the futures in the tables are done. -/
structure Over (p : Protocol) : Prop where
  dead : p.dead = true
  stopped : p.readLoop = .stopped
  done : ∀ kind pid i, p.state.lookup kind pid = some i →
    ∃ c, p.calls[i]? = some c ∧ c.future ≠ .pending

/-- Nothing is sent, and no future is made. -/
structure Silent (p p' : Protocol) : Prop where
  written : p'.written = p.written
  calls : p'.calls.length = p.calls.length

theorem silent_refl (p : Protocol) : Silent p p := ⟨rfl, rfl⟩

theorem Silent.trans {p p' p'' : Protocol} (h : Silent p p') (h' : Silent p' p'') : Silent p p'' :=
  ⟨h'.written.trans h.written, h'.calls.trans h.calls⟩

variable {p : Protocol}

theorem calls_setFuture_done (p : Protocol) (i : Nat) (future : FutureState)
    (hfuture : future ≠ .pending) {j : Nat} {c : Call} (hc : (p.setFuture i future).calls[j]? = some c)
    (hor : j = i ∨ ∀ c, p.calls[j]? = some c → c.future ≠ .pending) : c.future ≠ .pending := by
  obtain ⟨d, hd, hcase⟩ := call_setFuture hc
  rcases hcase with rfl | ⟨rfl, -, rfl⟩
  · rcases hor with rfl | hdone
    · intro hpending
      unfold setFuture at hc
      rw [hd] at hc
      dsimp only at hc
      rw [if_pos hpending, List.getElem?_set_self (List.getElem?_eq_some_iff.1 hd).1] at hc
      have hset := congrArg Call.future (Option.some.inj hc)
      exact hfuture (hset.trans hpending)
    · exact hdone c hd
  · exact hfuture

/-- The loop of `_cancel_pending`: the futures it has come to are done, and stay so. -/
theorem foldl_setFuture_done (is : List Nat) (p : Protocol) {j : Nat} {c : Call}
    (hc : (is.foldl (fun s i => s.setFuture i (.exception .disconnected)) p).calls[j]? = some c)
    (hor : j ∈ is ∨ ∀ c, p.calls[j]? = some c → c.future ≠ .pending) : c.future ≠ .pending := by
  induction is generalizing p with
  | nil => exact (hor.resolve_left List.not_mem_nil) c hc
  | cons i is ih =>
    refine ih _ hc ?_
    rcases hor with hj | hdone
    · rcases List.mem_cons.1 hj with rfl | hj
      · exact Or.inr fun c hc => calls_setFuture_done p j _ (by decide) hc (Or.inl rfl)
      · exact Or.inl hj
    · exact Or.inr fun c hc => calls_setFuture_done p i _ (by decide) hc (Or.inr hdone)

theorem foldl_setFuture_frame (is : List Nat) (p : Protocol) :
    let p' := is.foldl (fun s i => s.setFuture i (.exception .disconnected)) p
    p'.state = p.state ∧ p'.calls.length = p.calls.length ∧ p'.dead = p.dead ∧
      p'.readLoop = p.readLoop := by
  induction is generalizing p with
  | nil => exact ⟨rfl, rfl, rfl, rfl⟩
  | cons i is ih =>
    obtain ⟨hstate, hcalls, hdead, hloop⟩ := ih (p.setFuture i (.exception .disconnected))
    exact ⟨hstate.trans (state_setFuture p i _), hcalls.trans (length_calls_setFuture p i _),
      hdead.trans (Interests.dead_setFuture p i _), hloop.trans (readLoop_setFuture p i _)⟩

/-- What is in a table is among the futures that `_cancel_pending` fails. -/
theorem mem_awaited {st : SessionState} {kind : CallKind} {pid : Int} {i : Nat}
    (h : st.lookup kind pid = some i) : i ∈ awaited st := by
  have hval : ∀ {d : Dict Int Nat}, d.get? pid = some i → i ∈ d.map Prod.snd :=
    fun hd => List.mem_map.2 ⟨(pid, i), Dict.mem_of_get? hd, rfl⟩
  simp only [awaited, List.mem_append]
  cases kind with
  | publishQos1 => exact Or.inl (Or.inr (hval h))
  | publishQos2 =>
    obtain ⟨flight, hf, rfl⟩ := Option.map_eq_some_iff.1 h
    exact Or.inr (List.mem_map.2 ⟨(pid, flight), Dict.mem_of_get? hf, rfl⟩)
  | subscribe => exact Or.inl (Or.inl (Or.inl (hval h)))
  | unsubscribe => exact Or.inl (Or.inl (Or.inr (hval h)))

theorem silent_runExit (p : Protocol) : Silent p p.runExit := by
  obtain ⟨-, hcalls, -, -⟩ := foldl_setFuture_frame (awaited p.state)
    { p with dead := true, readLoop := .stopped }
  exact ⟨written_runExit p, hcalls⟩

theorem over_runExit (hinv : p.OwnershipInv) : p.runExit.Over := by
  obtain ⟨hstate, hcalls, hdead, hloop⟩ := foldl_setFuture_frame (awaited p.state)
    { p with dead := true, readLoop := .stopped }
  refine ⟨hdead, hloop, fun kind pid i hl => ?_⟩
  have hlookup : p.state.lookup kind pid = some i := by
    rw [← hl]
    exact congrArg (fun st : SessionState => st.lookup kind pid) hstate.symm
  obtain ⟨c, hc, -, -⟩ := hinv.entries kind pid i hlookup
  have hlt : i < p.runExit.calls.length := by
    refine Nat.lt_of_lt_of_eq (List.getElem?_eq_some_iff.1 hc).1 ?_
    exact hcalls.symm
  exact ⟨_, List.getElem?_eq_getElem hlt,
    foldl_setFuture_done _ _ (List.getElem?_eq_getElem hlt) (Or.inl (mem_awaited hlookup))⟩

theorem startCall_of_dead (hdead : p.dead = true) (kind : CallKind) (filters : List String)
    (packetOf : Int → Packet) : p.startCall kind filters packetOf = p := by
  rw [startCall, if_pos hdead]

theorem publish_of_dead (hdead : p.dead = true) (packet : Publish) : p.publish packet = p := by
  rw [publish, if_pos (Or.inl hdead)]

theorem lookup_of_cleanup {st : SessionState} {kind kind' : CallKind} {pid pid' : Int} {i : Nat}
    (h : (st.cleanup kind pid).lookup kind' pid' = some i) : st.lookup kind' pid' = some i := by
  rw [SessionState.cleanup_eq] at h
  split at h
  · exact SessionState.lookup_of_popRelease h
  · exact h

/-- A call changes, and its future stays done if it is. -/
theorem Over.set (h : p.Over) {i : Nat} {c c' : Call} (hc : p.calls[i]? = some c)
    (hfuture : c.future ≠ .pending → c'.future ≠ .pending) {st : SessionState}
    (hst : ∀ kind pid j, st.lookup kind pid = some j → p.state.lookup kind pid = some j) :
    Over { p with state := st, calls := p.calls.set i c' } := by
  refine ⟨h.dead, h.stopped, fun kind pid j hl => ?_⟩
  obtain ⟨d, hd, hdone⟩ := h.done kind pid j (hst kind pid j hl)
  by_cases hj : i = j
  · subst hj
    rw [hc] at hd
    obtain rfl := Option.some.inj hd
    exact ⟨c', List.getElem?_set_self (List.getElem?_eq_some_iff.1 hc).1, hfuture hdone⟩
  · exact ⟨d, (List.getElem?_set_ne hj).trans hd, hdone⟩

theorem silent_set {i : Nat} {c' : Call} (st : SessionState) :
    Silent p { p with state := st, calls := p.calls.set i c' } := ⟨rfl, List.length_set⟩

theorem Over.resume (h : p.Over) (i : Nat) (written : Bool) :
    (p.resume i written).Over ∧ Silent p (p.resume i written) := by
  have hfinish : ∀ c outcome, p.calls[i]? = some c →
      (p.finish i c outcome).Over ∧ Silent p (p.finish i c outcome) := by
    intro c outcome hc
    refine ⟨h.set hc ?_ fun kind pid j => lookup_of_cleanup, silent_set _⟩
    exact fun hdone => hdone
  unfold Protocol.resume
  split
  · exact ⟨h, silent_refl p⟩
  · next c hc =>
    split
    · exact ⟨h, silent_refl p⟩
    · split
      · exact hfinish c _ hc
      · split
        · split
          · refine ⟨h.set hc ?_ fun _ _ _ hl => hl, silent_set _⟩
            exact fun hdone => hdone
          · exact hfinish c _ hc
        · exact hfinish c _ hc
    · split
      · exact ⟨h, silent_refl p⟩
      · split
        · exact hfinish c _ hc
        · exact hfinish c _ hc

theorem Over.cancel (h : p.Over) (i : Nat) : (p.cancel i).Over ∧ Silent p (p.cancel i) := by
  unfold Protocol.cancel
  split
  · exact ⟨h, silent_refl p⟩
  · next c hc =>
    split
    · exact ⟨h, silent_refl p⟩
    · refine ⟨h.set hc ?_ fun _ _ _ hl => hl, silent_set _⟩
      exact fun hdone => hdone
    · split
      · refine ⟨h.set hc ?_ fun _ _ _ hl => hl, silent_set _⟩
        exact fun _ => nofun
      · refine ⟨h.set hc ?_ fun _ _ _ hl => hl, silent_set _⟩
        exact fun hdone => hdone

/-- **After the exit.** No step of the protocol sends a packet or makes a future, and the
    futures in the tables stay done. -/
theorem Over.step (h : p.Over) (hinv : p.OwnershipInv) (e : ProtocolEvent) :
    (p.step e).Over ∧ Silent p (p.step e) := by
  have hsame : p.Over ∧ Silent p p := ⟨h, silent_refl p⟩
  cases e with
  | publish packet =>
    rw [Protocol.step, publish_of_dead h.dead]
    exact hsame
  | sendSubscribe filters identifier =>
    rw [Protocol.step, sendSubscribe, startCall_of_dead h.dead]
    exact hsame
  | sendUnsubscribe filters =>
    rw [Protocol.step, sendUnsubscribe, startCall_of_dead h.dead]
    exact hsame
  | resume i written => exact h.resume i written
  | cancel i => exact h.cancel i
  | receive packet =>
    rw [Protocol.step, receive, h.stopped]
    exact hsame
  | resumeReadLoop written =>
    rw [Protocol.step, resumeReadLoop, h.stopped]
    exact hsame
  | runExit => exact ⟨over_runExit hinv, silent_runExit p⟩

theorem Over.reach (h : p.Over) (hinv : p.OwnershipInv) {p' : Protocol}
    (hr : Reach Protocol.step anyStep p p') : p'.Over ∧ Silent p p' ∧ p'.OwnershipInv := by
  refine Reach.invariant (I := fun q : Protocol => q.Over ∧ Silent p q ∧ q.OwnershipInv) hr
    ⟨h, silent_refl p, hinv⟩ fun q e ⟨hover, hsilent, hown⟩ _ => ?_
  obtain ⟨hover', hsilent'⟩ := hover.step hown e
  exact ⟨hover', hsilent.trans hsilent', hown.step e⟩

/-! ### Publishes -/

/-- A publish that waits for its future is in its table. -/
def Outstanding (p : Protocol) : Prop :=
  ∀ i c, p.calls[i]? = some c → c.kind.hasFinally = false → c.pc.isFinished = false →
    c.future = .pending → p.state.lookup c.kind c.pid = some i

/-- A step keeps the entries of publishes or completes their futures, and makes no publish wait
    without an entry. -/
theorem Outstanding.congr {p' : Protocol} (h : p.Outstanding)
    (htables : ∀ kind pid i, kind.hasFinally = false → p.state.lookup kind pid = some i →
      p'.state.lookup kind pid = some i ∨ ∀ c, p'.calls[i]? = some c → c.future ≠ .pending)
    (hcalls : ∀ i c', p'.calls[i]? = some c' → c'.pc.isFinished = false → c'.future = .pending →
      (∃ c, p.calls[i]? = some c ∧ c.kind = c'.kind ∧ c.pid = c'.pid ∧ c.pc.isFinished = false ∧
        c.future = .pending) ∨ p'.state.lookup c'.kind c'.pid = some i) : p'.Outstanding := by
  intro i c' hc' hkind hpc hpending
  rcases hcalls i c' hc' hpc hpending with ⟨c, hc, hk, hp, hfin, hpend⟩ | hnew
  · have hl := h i c hc (by rw [hk]; exact hkind) hfin hpend
    rw [hk, hp] at hl
    rcases htables c'.kind c'.pid i hkind hl with hl | hdone
    · exact hl
    · exact absurd hpending (hdone c' hc')
  · exact hnew

/-- A call changes, and does not begin to wait. -/
theorem Outstanding.set (h : p.Outstanding) {i : Nat} {c c' : Call} (hc : p.calls[i]? = some c)
    (hk : c'.kind = c.kind) (hp : c'.pid = c.pid)
    (hwait : c'.pc.isFinished = false → c'.future = .pending →
      c.pc.isFinished = false ∧ c.future = .pending) {st : SessionState}
    (hst : ∀ kind pid j, kind.hasFinally = false → p.state.lookup kind pid = some j →
      st.lookup kind pid = some j) :
    Outstanding { p with state := st, calls := p.calls.set i c' } := by
  refine h.congr (fun kind pid j hkind hl => Or.inl (hst kind pid j hkind hl)) ?_
  intro j d hd hpc hpending
  dsimp only at hd
  rw [List.getElem?_set] at hd
  split at hd
  · next hij =>
    subst hij
    split at hd
    · obtain rfl := Option.some.inj hd
      obtain ⟨hfin, hpend⟩ := hwait hpc hpending
      exact Or.inl ⟨c, hc, hk.symm, hp.symm, hfin, hpend⟩
    · cases hd
  · exact Or.inl ⟨d, hd, rfl, rfl, hpc, hpending⟩

theorem lookup_cleanup {st : SessionState} {kind kind' : CallKind} {pid pid' : Int} {i : Nat}
    (hkind : kind'.hasFinally = false) (h : st.lookup kind' pid' = some i) :
    (st.cleanup kind pid).lookup kind' pid' = some i := by
  rw [SessionState.cleanup_eq]
  split
  · next hfin =>
    rw [SessionState.lookup_popRelease, if_neg]
    · exact h
    · rintro ⟨rfl, -⟩
      rw [hkind] at hfin
      cases hfin
  · exact h

theorem Outstanding.finish (h : p.Outstanding) {i : Nat} {c : Call} (hc : p.calls[i]? = some c)
    (outcome : Outcome) : (p.finish i c outcome).Outstanding := by
  refine h.set hc ?_ ?_ ?_ fun kind pid j => lookup_cleanup
  · rfl
  · rfl
  · exact nofun

theorem Outstanding.setFuture (h : p.Outstanding) (i : Nat) {future : FutureState}
    (hfuture : future ≠ .pending) : (p.setFuture i future).Outstanding := by
  unfold Protocol.setFuture
  split
  · exact h
  · next c hc =>
    split
    · refine h.set hc ?_ ?_ ?_ fun _ _ _ _ hl => hl
      · rfl
      · rfl
      · exact fun _ hpend => absurd hpend hfuture
    · exact h

/-- A reply that ends an exchange completes the future of the call whose entry goes. -/
theorem Outstanding.popRelease (h : p.Outstanding) {kind : CallKind} {pid : Int} {i : Nat}
    (hl : p.state.lookup kind pid = some i) {future : FutureState} (hfuture : future ≠ .pending) :
    ({ p with state := p.state.popRelease kind pid }.setFuture i future).Outstanding := by
  refine h.congr (fun kind' pid' j hkind hj => ?_) fun j d hd hpc hpending => ?_
  · rw [state_setFuture, SessionState.lookup_popRelease]
    split
    · next he =>
      rw [← he.1, ← he.2, hl] at hj
      obtain rfl := Option.some.inj hj
      exact Or.inr fun c hc => calls_setFuture_done _ _ _ hfuture hc (Or.inl rfl)
    · exact Or.inl hj
  · by_cases hj : j = i
    · exact absurd hpending (calls_setFuture_done _ _ _ hfuture hd (Or.inl hj))
    · rw [calls_setFuture_of_ne _ hj] at hd
      exact Or.inl ⟨d, hd, rfl, rfl, hpc, hpending⟩

theorem Outstanding.startCall (h : p.Outstanding) (hinv : p.OwnershipInv) (kind : CallKind)
    (filters : List String) (packetOf : Int → Packet) :
    (p.startCall kind filters packetOf).Outstanding := by
  unfold Protocol.startCall
  split
  · exact h
  · split
    · exact h
    · next pid pool hacq =>
      obtain ⟨hfree, -, -, -⟩ := PacketIdPool.acquire_eq_some hinv.ids.next hacq
      rw [hinv.ids.inUse] at hfree
      have hold : ∀ kind' pid' i, p.state.lookup kind' pid' = some i →
          ({ p.state with packetIds := pool }.register kind pid p.calls.length).lookup kind' pid' =
            some i := by
        intro kind' pid' i hl
        rw [SessionState.lookup_register, if_neg, SessionState.lookup_packetIds]
        · exact hl
        · rintro ⟨rfl, rfl⟩
          exact hfree (SessionState.owns_of_lookup hl).mem
      dsimp only
      split
      · refine h.congr (fun kind' pid' i hkind hl => Or.inl ?_) fun i d hd hpc hpending => ?_
        · exact lookup_cleanup hkind (hold kind' pid' i hl)
        · rcases getElem?_concat_cases hd with hd | ⟨-, rfl⟩
          · exact Or.inl ⟨d, hd, rfl, rfl, hpc, hpending⟩
          · cases hpc
      · refine h.congr (fun kind' pid' i _ hl => Or.inl (hold kind' pid' i hl)) fun i d hd hpc hpending => ?_
        rcases getElem?_concat_cases hd with hd | ⟨rfl, rfl⟩
        · exact Or.inl ⟨d, hd, rfl, rfl, hpc, hpending⟩
        · right
          rw [SessionState.lookup_register, if_pos ⟨rfl, rfl⟩]

theorem Outstanding.dispatch (h : p.Outstanding) {p' : Protocol} {packet : Packet}
    (hd : p.dispatch packet = .ok p') : p'.Outstanding := by
  have hresult : ∀ i reply, p.setResult i reply = .ok p' → p'.Outstanding := by
    intro i reply hs
    unfold Protocol.setResult at hs
    split at hs
    · cases hs
    · next c hc =>
      split at hs
      · cases hs
        refine h.set hc ?_ ?_ ?_ fun _ _ _ _ hl => hl
        · rfl
        · rfl
        · exact fun _ hpend => by cases hpend
      · cases hs
  unfold Protocol.dispatch at hd
  split at hd
  · cases hd; exact h
  · cases hd; exact h
  · cases hd; exact h
  · unfold Protocol.handlePuback at hd
    split at hd
    · cases hd
    · next i hl =>
      cases hd
      exact @Outstanding.popRelease p h .publishQos1 _ _ hl _ fun he => by cases he
  · unfold Protocol.handlePubrec at hd
    split at hd
    · cases hd
    · next flight hf =>
      have hl : ∀ pid, p.state.lookup .publishQos2 pid =
        (p.state.inflightQos2Out.get? pid).map OutboundQoS2Flight.call := fun _ => rfl
      split at hd
      · cases hd
      · split at hd
        · cases hd
          exact @Outstanding.popRelease p h .publishQos2 _ _ (by rw [hl, hf]; rfl) _ fun he => by cases he
        · cases hd
          -- the flight keeps its call
          refine h.congr (fun kind pid i hkind hi => Or.inl ?_) fun i d hd hpc hpending =>
            Or.inl ⟨d, hd, rfl, rfl, hpc, hpending⟩
          cases kind with
          | publishQos2 =>
            rw [hl] at hi
            simp only [SessionState.lookup, Dict.get?_set]
            split
            · next he =>
              rw [← he, hf] at hi
              exact hi
            · exact hi
          | publishQos1 => exact hi
          | subscribe => exact hi
          | unsubscribe => exact hi
  · unfold Protocol.handlePubcomp at hd
    split at hd
    · cases hd
    · next flight hf =>
      cases hd
      refine @Outstanding.popRelease p h .publishQos2 _ _ ?_ _ fun he => by cases he
      rw [SessionState.lookup, hf]
      rfl
  · unfold Protocol.handleSuback at hd
    split at hd
    · cases hd
    · exact hresult _ _ hd
  · unfold Protocol.handleUnsuback at hd
    split at hd
    · cases hd
    · exact hresult _ _ hd
  · cases hd
  · split at hd
    · cases hd
    · cases hd; exact h
  all_goals cases hd

theorem Outstanding.step (h : p.Outstanding) (hinv : p.OwnershipInv) (e : ProtocolEvent) :
    (p.step e).Outstanding := by
  cases e with
  | publish packet =>
    rw [Protocol.step, Protocol.publish]
    split
    · exact h
    · split
      · split
        · exact h
        · exact h
      · exact h.startCall hinv _ _ _
      · exact h.startCall hinv _ _ _
  | sendSubscribe filters identifier => exact h.startCall hinv _ _ _
  | sendUnsubscribe filters => exact h.startCall hinv _ _ _
  | resume i written =>
    rw [Protocol.step, Protocol.resume]
    split
    · exact h
    · next c hc =>
      split
      · exact h
      · next hpc =>
        split
        · exact h.finish hc _
        · split
          · split
            · refine h.set hc ?_ ?_ ?_ fun _ _ _ _ hl => hl
              · rfl
              · rfl
              · exact fun _ hpend => ⟨by rw [hpc]; rfl, hpend⟩
            · exact h.finish hc _
          · exact h.finish hc _
      · split
        · exact h
        · split
          · exact h.finish hc _
          · exact h.finish hc _
  | cancel i =>
    rw [Protocol.step, Protocol.cancel]
    split
    · exact h
    · next c hc =>
      have hflag : Outstanding { p with calls := p.calls.set i { c with cancelRequested := true } } := by
        refine h.set hc ?_ ?_ ?_ fun _ _ _ _ hl => hl
        · rfl
        · rfl
        · exact fun hfin hpend => ⟨hfin, hpend⟩
      split
      · exact h
      · exact hflag
      · split
        · refine h.set hc ?_ ?_ ?_ fun _ _ _ _ hl => hl
          · rfl
          · rfl
          · exact fun _ hpend => by cases hpend
        · exact hflag
  | receive packet =>
    rw [Protocol.step, Protocol.receive]
    split
    · split
      · next hd => exact h.dispatch hd
      · exact h
    · exact h
    · exact h
  | resumeReadLoop written =>
    rw [Protocol.step, Protocol.resumeReadLoop]
    split <;> exact h
  | runExit =>
    have hfold : ∀ (is : List Nat) (p : Protocol), p.Outstanding →
        (is.foldl (fun s i => s.setFuture i (.exception .disconnected)) p).Outstanding := by
      intro is
      induction is with
      | nil => exact fun _ hp => hp
      | cons i is ih => exact fun p hp => ih _ (hp.setFuture i fun he => by cases he)
    exact hfold _ _ h

/-- On a dead connection no call waits for its future. -/
theorem Over.future (h : p.Over) (hout : p.Outstanding) (hinv : p.OwnershipInv) {i : Nat} {c : Call}
    (hc : p.calls[i]? = some c) (hpc : c.pc.isFinished = false) : c.future ≠ .pending := by
  intro hpending
  have hl : p.state.lookup c.kind c.pid = some i := by
    by_cases hkind : c.kind.hasFinally = true
    · exact hinv.calls i c hc hpc hkind
    · exact hout i c hc (Bool.eq_false_of_not_eq_true hkind) hpc hpending
  obtain ⟨d, hd, hdone⟩ := h.done _ _ _ hl
  rw [hc] at hd
  exact hdone (Option.some.inj hd ▸ hpending)

end Protocol

/-! ## The whole connection -/

namespace Protocol

/-- Only the exit of `run()` ends a connection. -/
theorem dead_step_of_ne (p : Protocol) {e : ProtocolEvent} (he : e ≠ .runExit) :
    (p.step e).dead = p.dead := by
  cases e with
  | publish packet =>
    rw [Protocol.step, Protocol.publish]
    split
    · rfl
    · split
      · split <;> rfl
      · exact Interests.dead_startCall p _ _ _
      · exact Interests.dead_startCall p _ _ _
  | sendSubscribe filters identifier => exact Interests.dead_startCall p _ _ _
  | sendUnsubscribe filters => exact Interests.dead_startCall p _ _ _
  | resume i written => exact Interests.dead_resume p i written
  | cancel i => exact Interests.dead_cancel p i
  | receive packet =>
    rw [Protocol.step, Protocol.receive]
    split
    · split
      · next hok => exact Interests.dead_dispatch hok
      · rfl
    · rfl
    · rfl
  | resumeReadLoop written =>
    rw [Protocol.step, Protocol.resumeReadLoop]
    split <;> rfl
  | runExit => exact absurd rfl he

theorem dead_of_stays {p p' : Protocol} (h : Reach Protocol.step Interests.stays p p') :
    p'.dead = p.dead := by
  refine Reach.invariant (I := fun q : Protocol => q.dead = p.dead) h rfl ?_
  exact fun q e hq he => (dead_step_of_ne q he).trans hq

theorem outstanding_of_reach {p p' : Protocol} (h : Reach Protocol.step anyStep p p')
    (hinv : p.OwnershipInv) (hout : p.Outstanding) : p'.OwnershipInv ∧ p'.Outstanding := by
  refine Reach.invariant (I := fun q : Protocol => q.OwnershipInv ∧ q.Outstanding) h ⟨hinv, hout⟩ ?_
  exact fun q e ⟨hown, hq⟩ _ => ⟨hown.step e, hq.step hown e⟩

end Protocol

/-- The ping waits for a PINGRESP. -/
def PingCall.Waits (ping : PingCall) : Prop :=
  (∀ outcome, ping.pc ≠ .finished outcome) ∧ ping.future = .pending

namespace Connection

/-- The futures of the pings that wait are in `_ping_waiters`. -/
def PingsStored (s : Connection) : Prop :=
  ∀ j ping, s.pings[j]? = some ping → ping.Waits → j ∈ s.pingWaiters

/-- What holds along a run in which no ping starts after the exit of `run()`. -/
structure ExitInv (s : Connection) : Prop where
  owned : s.protocol.OwnershipInv
  outstanding : s.protocol.Outstanding
  stored : s.PingsStored
  ended : s.protocol.dead = true → s.protocol.Over ∧ s.pingWaiters = []

variable {s : Connection}

/-- One ping changes, and does not begin to wait. -/
theorem PingsStored.modify (h : s.PingsStored) (j : Nat) {change : PingCall → PingCall}
    (hchange : ∀ ping, s.pings[j]? = some ping → (change ping).Waits → ping.Waits) :
    PingsStored { s with pings := s.pings.modify j change } := by
  intro k ping hk hwaits
  dsimp only at hk
  rw [List.getElem?_modify] at hk
  obtain ⟨old, hold, rfl⟩ := Option.map_eq_some_iff.1 hk
  refine h k old hold ?_
  by_cases hj : j = k
  · rw [if_pos hj] at hwaits
    exact hchange old (hj ▸ hold) hwaits
  · rw [if_neg hj] at hwaits
    exact hwaits

/-- The ping at `j` no longer waits, so it may leave `_ping_waiters`. -/
theorem PingsStored.leave (h : s.PingsStored) {j : Nat} {change : PingCall → PingCall}
    (hchange : ∀ ping, ¬ (change ping).Waits) {waiters : List Nat}
    (hsub : ∀ k ∈ s.pingWaiters, k ≠ j → k ∈ waiters) :
    PingsStored { s with pings := s.pings.modify j change, pingWaiters := waiters } := by
  intro k ping hk hwaits
  dsimp only at hk
  rw [List.getElem?_modify] at hk
  obtain ⟨old, hold, rfl⟩ := Option.map_eq_some_iff.1 hk
  by_cases hj : j = k
  · rw [if_pos hj] at hwaits
    exact absurd hwaits (hchange old)
  · rw [if_neg hj] at hwaits
    exact hsub k (h k old hold hwaits) (Ne.symm hj)

theorem PingsStored.endPing (h : s.PingsStored) (j : Nat) (outcome : PingOutcome) :
    (s.endPing j outcome).PingsStored :=
  h.modify j fun _ _ hwaits => absurd rfl (hwaits.1 outcome)

/-- A future that is set is done. -/
theorem not_waits_setPing {future : PingFuture} (hfuture : future ≠ .pending) (ping : PingCall) :
    ¬ (if ping.future = .pending then { ping with future } else ping : PingCall).Waits := by
  split
  · exact fun hwaits => hfuture hwaits.2
  · next hdone => exact fun hwaits => hdone hwaits.2

theorem PingsStored.handlePingresp (h : s.PingsStored) : s.handlePingresp.PingsStored := by
  unfold Connection.handlePingresp
  split
  · exact h
  · next j waiters hw =>
    refine h.leave (@not_waits_setPing .result nofun) fun k hk hne => ?_
    rw [hw] at hk
    exact (List.mem_cons.1 hk).resolve_left hne

/-- The loop over `_ping_waiters`: the pings that still wait are in the rest. -/
theorem PingsStored.cancelPings (h : s.PingsStored) : s.cancelPings.PingsStored := by
  have hloop : ∀ (waiters : List Nat) (s : Connection),
      PingsStored { s with pingWaiters := waiters } →
      PingsStored { waiters.foldl (fun (s : Connection) j => s.setPing j .disconnected) s with
        pingWaiters := [] } := by
    intro waiters
    induction waiters with
    | nil => exact fun _ hs => hs
    | cons i waiters ih =>
      intro s hs
      refine ih (s.setPing i .disconnected) ?_
      refine hs.leave (@not_waits_setPing .disconnected nofun) fun k hk hne => ?_
      exact (List.mem_cons.1 hk).resolve_left hne
  exact hloop s.pingWaiters s h

theorem interests_cancelPings (s : Connection) :
    s.cancelPings.interests = s.interests ∧ s.cancelPings.pings.length = s.pings.length := by
  have hloop : ∀ (waiters : List Nat) (s : Connection),
      let s' := waiters.foldl (fun (s : Connection) j => s.setPing j .disconnected) s
      s'.interests = s.interests ∧ s'.pings.length = s.pings.length := by
    intro waiters
    induction waiters with
    | nil => exact fun s => ⟨rfl, rfl⟩
    | cons i waiters ih =>
      intro s
      obtain ⟨hi, hl⟩ := ih (s.setPing i .disconnected)
      exact ⟨hi, hl.trans (List.length_modify ..)⟩
  exact hloop s.pingWaiters s

theorem interests_handlePingresp (s : Connection) : s.handlePingresp.interests = s.interests := by
  unfold Connection.handlePingresp
  split
  · rfl
  · rfl

/-- What a step of the calls does to the pings: a PINGRESP that the read loop takes, or the
    exit of `run()`. -/
theorem step_call_cases (s : Connection) (e : InterestEvent) :
    s.step (.call e) = { s with interests := s.interests.step e } ∧ e ≠ .background .runExit ∨
    s.protocol.readLoop = .reading ∧ e ≠ .background .runExit ∧
      s.step (.call e) = { s with interests := s.interests.step e }.handlePingresp ∨
    e = .background .runExit ∧
      s.step (.call e) = { s with interests := s.interests.step e }.cancelPings := by
  unfold Connection.step
  dsimp only
  split
  · split
    · next hloop => exact Or.inr (Or.inl ⟨hloop, nofun, rfl⟩)
    · exact Or.inl ⟨rfl, nofun⟩
  · exact Or.inr (Or.inr ⟨rfl, rfl⟩)
  · next hexit => exact Or.inl ⟨rfl, hexit⟩

theorem interests_step_call (s : Connection) (e : InterestEvent) :
    (s.step (.call e)).interests = s.interests.step e := by
  rcases step_call_cases s e with ⟨hs, -⟩ | ⟨-, -, hs⟩ | ⟨-, hs⟩
  · rw [hs]
  · rw [hs]
    exact interests_handlePingresp _
  · rw [hs]
    exact (interests_cancelPings _).1

/-- A ping that is resumed, times out or is cancelled touches only its own record. -/
theorem resumePing_frame (s : Connection) (j : Nat) (written : Bool) :
    (s.resumePing j written).interests = s.interests ∧
      (s.resumePing j written).pingWaiters = s.pingWaiters ∧
      (s.resumePing j written).pings.length = s.pings.length ∧
      (s.PingsStored → (s.resumePing j written).PingsStored) := by
  have hend : ∀ outcome, (s.endPing j outcome).interests = s.interests ∧
      (s.endPing j outcome).pingWaiters = s.pingWaiters ∧
      (s.endPing j outcome).pings.length = s.pings.length ∧
      (s.PingsStored → (s.endPing j outcome).PingsStored) :=
    fun outcome => ⟨rfl, rfl, List.length_modify .., fun h => h.endPing j outcome⟩
  unfold Connection.resumePing
  split
  · exact ⟨rfl, rfl, rfl, id⟩
  · next ping hj =>
    split
    · exact ⟨rfl, rfl, rfl, id⟩
    · next hpc hfuture =>
      split
      · refine ⟨rfl, rfl, List.length_modify .., fun h => h.modify j fun old hold _ => ?_⟩
        rw [hj] at hold
        obtain rfl := Option.some.inj hold
        refine ⟨fun outcome => ?_, hfuture⟩
        rw [hpc]
        exact nofun
      · exact hend _
    · exact ⟨rfl, rfl, rfl, id⟩
    · exact hend _
    · exact hend _
    · exact hend _
    · exact hend _

theorem timeoutPing_frame (s : Connection) (j : Nat) :
    (s.timeoutPing j).interests = s.interests ∧
      (∀ k ∈ (s.timeoutPing j).pingWaiters, k ∈ s.pingWaiters) ∧
      (s.timeoutPing j).pings.length = s.pings.length ∧
      (s.PingsStored → (s.timeoutPing j).PingsStored) := by
  unfold Connection.timeoutPing
  split
  · refine ⟨rfl, fun k hk => List.mem_of_mem_erase hk, List.length_modify .., fun h => ?_⟩
    refine h.leave (fun _ hwaits => absurd rfl (hwaits.1 _)) fun k hk hne => ?_
    exact (List.mem_erase_of_ne hne).2 hk
  · exact ⟨rfl, fun _ hk => hk, rfl, id⟩

theorem cancelPing_frame (s : Connection) (j : Nat) :
    (s.cancelPing j).interests = s.interests ∧ (s.cancelPing j).pingWaiters = s.pingWaiters ∧
      (s.cancelPing j).pings.length = s.pings.length ∧
      (s.PingsStored → (s.cancelPing j).PingsStored) := by
  unfold Connection.cancelPing
  split
  · exact ⟨rfl, rfl, rfl, id⟩
  · exact ⟨rfl, rfl, rfl, id⟩
  · exact ⟨rfl, rfl, List.length_modify .., fun h => h.endPing j .cancelled⟩

/-- The condition: no ping starts on a connection that has ended. -/
def pingsAlive (s : Connection) (e : ConnectionEvent) : Prop :=
  e = .ping → s.protocol.dead = false

theorem protocol_ping (s : Connection) : s.ping.protocol =
    { s.protocol with written := (.pingreq, none) :: s.protocol.written } := rfl

/-- A new ping registers its future. -/
theorem PingsStored.ping (h : s.PingsStored) : s.ping.PingsStored := by
  intro j ping hj hwaits
  show j ∈ s.pingWaiters ++ [s.pings.length]
  by_cases hlt : j < s.pings.length
  · have hold : s.pings[j]? = some ping := by
      rw [← hj]
      exact (List.getElem?_append_left hlt).symm
    exact List.mem_append_left _ (h j ping hold hwaits)
  · have hle : j < s.ping.pings.length := (List.getElem?_eq_some_iff.1 hj).1
    rw [Connection.ping, List.length_append, List.length_singleton] at hle
    obtain rfl : j = s.pings.length := by omega
    exact List.mem_append_right _ List.mem_cons_self

theorem ExitInv.ping (h : s.ExitInv) (hdead : s.protocol.dead = false) : s.ping.ExitInv := by
  refine ⟨⟨h.owned.ids, h.owned.calls, h.owned.entries⟩, h.outstanding, h.stored.ping, fun hd => ?_⟩
  rw [protocol_ping, hdead] at hd
  cases hd

/-- A step of the calls. -/
theorem ExitInv.call (h : s.ExitInv) (e : InterestEvent) :
    (s.step (.call e)).ExitInv ∧ (s.protocol.dead = true →
      (s.step (.call e)).protocol.dead = true ∧ s.protocol.Silent (s.step (.call e)).protocol ∧
        (s.step (.call e)).pings.length = s.pings.length) := by
  have hprotocol : (s.step (.call e)).protocol = (s.interests.step e).protocol :=
    congrArg Interests.protocol (interests_step_call s e)
  have hreach : Reach Protocol.step anyStep s.protocol (s.interests.step e).protocol :=
    Interests.reach_step s.interests e
  obtain ⟨howned, hout⟩ := Protocol.outstanding_of_reach hreach h.owned h.outstanding
  have hstays : e ≠ .background .runExit → (s.interests.step e).protocol.dead = s.protocol.dead :=
    fun he => Protocol.dead_of_stays (Interests.moves_step s.interests he).protocol
  have hover : s.protocol.dead = true → (s.interests.step e).protocol.Over ∧
      s.protocol.Silent (s.interests.step e).protocol := fun hdead => by
    obtain ⟨hover, hsilent, -⟩ := (h.ended hdead).1.reach h.owned hreach
    exact ⟨hover, hsilent⟩
  rw [← hprotocol] at howned hout hstays hover
  rcases step_call_cases s e with ⟨hs, he⟩ | ⟨hloop, he, hs⟩ | ⟨rfl, hs⟩
  · refine ⟨⟨howned, hout, ?_, fun hdead => ?_⟩, fun hdead =>
      ⟨(hover hdead).1.dead, (hover hdead).2, ?_⟩⟩
    · rw [hs]
      exact h.stored
    · rw [hstays he] at hdead
      refine ⟨(hover hdead).1, ?_⟩
      rw [hs]
      exact (h.ended hdead).2
    · rw [hs]
  · -- the read loop of a dead connection takes no packet
    have halive : s.protocol.dead ≠ true := fun hdead => by
      have hstopped := (h.ended hdead).1.stopped
      rw [hloop] at hstopped
      cases hstopped
    refine ⟨⟨howned, hout, ?_, fun hdead => ?_⟩, fun hdead => absurd hdead halive⟩
    · rw [hs]
      exact PingsStored.handlePingresp h.stored
    · rw [hstays he] at hdead
      exact absurd hdead halive
  · have hexit : (s.step (.call (.background .runExit))).protocol = s.protocol.runExit := hprotocol
    refine ⟨⟨howned, hout, ?_, fun _ => ⟨?_, rfl⟩⟩, fun hdead =>
      ⟨(hover hdead).1.dead, (hover hdead).2, ?_⟩⟩
    · rw [hs]
      exact PingsStored.cancelPings h.stored
    · rw [hexit]
      exact Protocol.over_runExit h.owned
    · rw [hs]
      exact (interests_cancelPings _).2

/-- What the later steps of a ping leave alone. -/
theorem step_ping_frame (s : Connection) (e : ConnectionEvent) (hcall : ∀ e', e ≠ .call e')
    (hping : e ≠ .ping) :
    (s.step e).interests = s.interests ∧ (∀ k ∈ (s.step e).pingWaiters, k ∈ s.pingWaiters) ∧
      (s.step e).pings.length = s.pings.length ∧ (s.PingsStored → (s.step e).PingsStored) := by
  cases e with
  | call e => exact absurd rfl (hcall e)
  | ping => exact absurd rfl hping
  | resumePing j written =>
    obtain ⟨hi, hw, hl, hs⟩ := resumePing_frame s j written
    exact ⟨hi, fun k hk => hw ▸ hk, hl, hs⟩
  | timeoutPing j => exact timeoutPing_frame s j
  | cancelPing j =>
    obtain ⟨hi, hw, hl, hs⟩ := cancelPing_frame s j
    exact ⟨hi, fun k hk => hw ▸ hk, hl, hs⟩

/-- One step of the connection; a dead one sends nothing and makes no future. -/
theorem ExitInv.step (h : s.ExitInv) {e : ConnectionEvent} (he : pingsAlive s e) :
    (s.step e).ExitInv ∧ (s.protocol.dead = true →
      (s.step e).protocol.dead = true ∧ s.protocol.Silent (s.step e).protocol ∧
        (s.step e).pings.length = s.pings.length) := by
  by_cases hcall : ∃ e', e = .call e'
  · obtain ⟨e', rfl⟩ := hcall
    exact h.call e'
  · by_cases hping : e = .ping
    · rw [hping]
      have halive := he hping
      refine ⟨h.ping halive, fun hdead => ?_⟩
      rw [halive] at hdead
      cases hdead
    · obtain ⟨hi, hw, hl, hs⟩ := step_ping_frame s e (fun e' h' => hcall ⟨e', h'⟩) hping
      have hprotocol : (s.step e).protocol = s.protocol := congrArg Interests.protocol hi
      refine ⟨⟨?_, ?_, hs h.stored, fun hdead => ?_⟩, fun hdead => ⟨?_, ?_, hl⟩⟩
      · rw [hprotocol]
        exact h.owned
      · rw [hprotocol]
        exact h.outstanding
      · rw [hprotocol] at hdead ⊢
        obtain ⟨hover, hnil⟩ := h.ended hdead
        refine ⟨hover, List.eq_nil_iff_forall_not_mem.2 fun k hk => ?_⟩
        have hmem := hw k hk
        rw [hnil] at hmem
        cases hmem
      · rw [hprotocol]
        exact hdead
      · rw [hprotocol]
        exact Protocol.silent_refl _

theorem exitInv_fresh (version : Version) (maxPublishQos : QoS) (strippedPrefixes : List String) :
    (fresh version maxPublishQos strippedPrefixes).ExitInv := by
  refine ⟨Protocol.ownershipInv_fresh version maxPublishQos, ?_, ?_, nofun⟩
  · intro i c hc
    cases hc
  · intro j ping hj
    cases hj

theorem exitInv_of_reach {version : Version} {maxPublishQos : QoS} {strippedPrefixes : List String}
    (h : Reach step pingsAlive (fresh version maxPublishQos strippedPrefixes) s) : s.ExitInv :=
  h.invariant (exitInv_fresh version maxPublishQos strippedPrefixes) fun _ _ hs he => (hs.step he).1

/-! ## The exit of `run()` -/

/-- Nobody is left hanging: the stored futures are done, and so is the future of every
    operation that has not ended. -/
structure Settled (s : Connection) : Prop where
  stored : ∀ kind pid i, s.protocol.state.lookup kind pid = some i →
    ∃ c, s.protocol.calls[i]? = some c ∧ c.future ≠ .pending
  storedPings : ∀ j ∈ s.pingWaiters, ∃ ping, s.pings[j]? = some ping ∧ ping.future ≠ .pending
  calls : ∀ (i : Nat) c, s.protocol.calls[i]? = some c → c.pc.isFinished = false →
    c.future ≠ .pending
  pings : ∀ (j : Nat) ping, s.pings[j]? = some ping → ¬ ping.Waits

theorem ExitInv.settled (h : s.ExitInv) (hdead : s.protocol.dead = true) : s.Settled := by
  obtain ⟨hover, hnil⟩ := h.ended hdead
  refine ⟨hover.done, fun j hj => ?_, fun i c hc hpc => ?_, fun j ping hj hwaits => ?_⟩
  · rw [hnil] at hj
    cases hj
  · exact hover.future h.outstanding h.owned hc hpc
  · have hmem := h.stored j ping hj hwaits
    rw [hnil] at hmem
    cases hmem

/-- The operations that check raise before they send or register anything; a call does once it
    is inside its guards. -/
structure Refuses (s : Connection) : Prop where
  publish : ∀ packet, s.protocol.publishOpening packet = .raised .disconnected ∧
    s.protocol.publish packet = s.protocol
  call : ∀ call, (∀ topic, call ≠ .removeResponseObserver topic) → ∀ guards tasks k,
    SubscriptionGuards.isInside guards k = true →
    let entered : Interests := { s.interests with guards, tasks }
    entered.callOpening call = .raised .disconnected ∧
      (entered.enter k call).protocol = s.protocol ∧
      ∀ task, (entered.enter k call).tasks[k]? = some task → task.pc = .ended

end Connection

namespace Interests

theorem sendOpening_of_dead {p : Protocol} (hdead : p.dead = true) (packetOf : Int → Packet) :
    p.sendOpening packetOf = .raised .disconnected := by
  rw [Protocol.sendOpening, if_pos hdead]

theorem not_awaits_of_dead {p : Protocol} (hdead : p.dead = true) (kind : CallKind)
    (filters : List String) (packetOf : Int → Packet) :
    (p.startCall kind filters packetOf).awaits p.calls.length = false := by
  rw [Bool.eq_false_iff]
  intro hawaits
  rw [Protocol.awaits_startCall, sendOpening_of_dead hdead] at hawaits
  cases hawaits

theorem pc_finish (s : Interests) (k : Nat) {task : InterestTask}
    (h : (s.finish k).tasks[k]? = some task) : task.pc = .ended := by
  unfold Interests.finish Interests.setPc at h
  dsimp only at h
  rw [List.getElem?_modify_eq] at h
  obtain ⟨old, -, rfl⟩ := Option.map_eq_some_iff.1 h
  rfl

/-- A call that enters its guards on a dead connection raises there. -/
theorem enter_of_dead {s : Interests} (hdead : s.protocol.dead = true) {k : Nat} {call : InterestCall}
    (hcall : ∀ topic, call ≠ .removeResponseObserver topic) (hinside : s.guards.isInside k = true) :
    s.callOpening call = .raised .disconnected ∧ (s.enter k call).protocol = s.protocol ∧
      ∀ task, (s.enter k call).tasks[k]? = some task → task.pc = .ended := by
  unfold Interests.enter
  rw [if_pos hinside]
  cases call with
  | subscribe filters autoAck queue identifier =>
    refine ⟨sendOpening_of_dead hdead _, ?_⟩
    dsimp only
    unfold Interests.subscribe
    dsimp only
    rw [Protocol.sendSubscribe, not_awaits_of_dead hdead, if_neg nofun,
      Protocol.startCall_of_dead hdead]
    exact ⟨rfl, fun task => pc_finish _ k⟩
  | unsubscribe filters =>
    refine ⟨?_, ?_⟩
    · rw [callOpening, if_pos hdead]
    · dsimp only
      rw [Interests.unsubscribe, if_pos hdead]
      exact ⟨rfl, fun task => pc_finish _ k⟩
  | addResponseObserver topic =>
    refine ⟨?_, ?_⟩
    · rw [callOpening, if_pos hdead]
    · dsimp only
      rw [Interests.addResponseObserver, if_pos (Or.inl hdead)]
      exact ⟨rfl, fun task => pc_finish _ k⟩
  | removeResponseObserver topic => exact absurd rfl (hcall topic)

end Interests

namespace Connection

variable {s : Connection}

theorem refuses_of_dead (hdead : s.protocol.dead = true) : s.Refuses := by
  refine ⟨fun packet => ⟨?_, Protocol.publish_of_dead hdead packet⟩,
    fun call hcall guards tasks k hinside => ?_⟩
  · rw [Protocol.publishOpening, if_pos hdead]
  · exact Interests.enter_of_dead (s := { s.interests with guards, tasks }) hdead hcall hinside

/-- A ping that starts on a dead connection waits for nothing. -/
theorem not_settled_ping (s : Connection) : ¬ s.ping.Settled := by
  intro h
  refine h.pings s.pings.length {} (List.getElem?_concat_length ..) ⟨nofun, rfl⟩

/-- **Dead connections.** In every run in which no ping starts after the exit of `run()`, once
    it has exited every stored future is done, nobody waits on one that is not, and later calls
    raise `MQTTDisconnectedError` without sending a packet or making a future. -/
theorem dead_connection_settled (version : Version) (maxPublishQos : QoS)
    (strippedPrefixes : List String) (s : Connection)
    (h : Reach step pingsAlive (fresh version maxPublishQos strippedPrefixes) s)
    (hdead : s.protocol.dead = true) :
    s.Settled ∧ s.Refuses ∧ ∀ s', Reach step pingsAlive s s' →
      s'.protocol.dead = true ∧ s'.Settled ∧ s'.Refuses ∧ s.protocol.Silent s'.protocol ∧
        s'.pings.length = s.pings.length := by
  have hinv := exitInv_of_reach h
  refine ⟨hinv.settled hdead, refuses_of_dead hdead, fun s' hs' => ?_⟩
  have hrun : s'.ExitInv ∧ s'.protocol.dead = true ∧ s.protocol.Silent s'.protocol ∧
      s'.pings.length = s.pings.length := by
    refine Reach.invariant (I := fun s' : Connection => s'.ExitInv ∧ s'.protocol.dead = true ∧
      s.protocol.Silent s'.protocol ∧ s'.pings.length = s.pings.length) hs'
      ⟨hinv, hdead, Protocol.silent_refl _, rfl⟩ ?_
    intro t e ⟨ht, htd, htq, htp⟩ he
    obtain ⟨ht', hquiet⟩ := ht.step he
    obtain ⟨hdead', hsilent, hlength⟩ := hquiet htd
    exact ⟨ht', hdead', htq.trans hsilent, hlength.trans htp⟩
  obtain ⟨hinv', hdead', hsilent, hlength⟩ := hrun
  exact ⟨hdead', hinv'.settled hdead', refuses_of_dead hdead', hsilent, hlength⟩

/-- A publish, a subscribe and a ping are under way when `run()` exits. -/
def interruptedRun : List ConnectionEvent :=
  [.call (.background (.publish
      { topic := "a", payload := [], qos := .atLeastOnce, retain := false, dup := false })),
    .call (.start (.subscribe [{ topicFilter := "b", qos := .atMostOnce }] true 0 none)), .ping,
    .call (.background .runExit)]

theorem dead_connection_settled_interruptedRun :
    (interruptedRun.foldl step (fresh .v311 .exactlyOnce [])).protocol.calls.map (·.future) =
      [.exception .disconnected, .exception .disconnected] ∧
    (interruptedRun.foldl step (fresh .v311 .exactlyOnce [])).pings.map (·.future) = [.disconnected] ∧
    (interruptedRun.foldl step (fresh .v311 .exactlyOnce [])).Settled ∧
    (interruptedRun.foldl step (fresh .v311 .exactlyOnce [])).Refuses := by
  have hmeets : Meets step pingsAlive (fresh .v311 .exactlyOnce []) interruptedRun :=
    ⟨nofun, nofun, fun _ => rfl, nofun, trivial⟩
  obtain ⟨hsettled, hrefuses, -⟩ := dead_connection_settled .v311 .exactlyOnce [] _
    (Reach.foldl hmeets) rfl
  exact ⟨by decide +kernel, by decide +kernel, hsettled, hrefuses⟩

/-- A ping on a connection that has ended writes PINGREQ and waits for ever. -/
theorem dead_ping_waits :
    let s := [.call (.background .runExit), .ping].foldl step (fresh .v311 .exactlyOnce [])
    s.protocol.dead = true ∧ s.pingWaiters = [0] ∧ s.pings = [{}] ∧
      s.protocol.written = [(.pingreq, none)] ∧ ¬ s.Settled := by
  refine ⟨rfl, rfl, rfl, rfl, ?_⟩
  exact not_settled_ping _

end Connection

end Zmqtt
