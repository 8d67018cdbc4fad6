/-
  One client and a conforming broker: every request on the wire is answered once, with
  the matching packet type and id, in any order and arbitrarily late. The broker keeps
  the ids of QoS 2 PUBLISH packets it holds without a PUBREL across connections; each
  connection of the client starts from a fresh `SessionState`
  (`MQTTClient._connect`).

  `Registered` says that the tables still know the request an exchange belongs to. The
  frame lemmas say which steps keep it: for a subscribe or unsubscribe call every step
  but its own cancellation, its failed write and the end of `run`
  (`Registered.step`); for a publish every step. From it follow the attribution of
  replies and the freedom of collisions, each under the condition that the code needs.
-/
import Zmqtt.Session.Ownership

namespace Zmqtt

/-! ## Exchanges -/

/-- The reply that a request waits for. -/
inductive Stage where
  | puback
  | pubrec
  | pubcomp
  | suback
  | unsuback
  deriving Repr, DecidableEq

/-- A request on the wire that belongs to call `owner`, and its reply once the broker has
    sent it. -/
structure Exchange where
  stage : Stage
  pid : Int
  owner : Nat
  reply : Option Packet := none

/-- The request that a written packet makes. -/
def requestOf (packet : Packet) : Option (Stage × Int) :=
  match packet with
  | .publish p =>
      match p.qos, p.packetId with
      | .atLeastOnce, some pid => some (.puback, pid)
      | .exactlyOnce, some pid => some (.pubrec, pid)
      | _, _ => none
  | .pubrel p => some (.pubcomp, p.packetId)
  | .subscribe p => some (.suback, p.packetId)
  | .unsubscribe p => some (.unsuback, p.packetId)
  | _ => none

/-- The request that a packet of the broker answers. -/
def replyOf (packet : Packet) : Option (Stage × Int) :=
  match packet with
  | .puback p => some (.puback, p.packetId)
  | .pubrec p => some (.pubrec, p.packetId)
  | .pubcomp p => some (.pubcomp, p.packetId)
  | .suback p => some (.suback, p.packetId)
  | .unsuback p => some (.unsuback, p.packetId)
  | _ => none

/-- The exchange that a written packet opens. -/
def exchangeOf (item : Packet × Option Nat) : Option Exchange :=
  match requestOf item.1, item.2 with
  | some (stage, pid), some owner => some { stage, pid, owner }
  | _, _ => none

/-- The exchanges opened between two states of the client. -/
def newExchanges (s s' : Protocol) : List Exchange :=
  (s'.written.take (s'.written.length - s.written.length)).filterMap exchangeOf

/-- The client, the exchanges on the wire, and what the broker keeps of the session: the
    QoS 2 ids with a PUBLISH received and no PUBREL, and the calls whose PUBLISH it took for
    a duplicate. -/
structure Net where
  client : Protocol
  exchanges : List Exchange := []
  unreleased : Finset Int := ∅
  discarded : List Nat := []

inductive NetEvent where
  | client (e : ProtocolEvent)
  | answer (k : Nat) (reply : Packet)
  | deliver (k : Nat)
  | reconnect

/-- The events of the client's own tasks; packets arrive by `deliver` only. -/
def ProtocolEvent.isLocal : ProtocolEvent → Bool
  | .receive _ => false
  | _ => true

namespace Net

/-- The broker receives the request of an exchange and answers it. -/
def answer (n : Net) (k : Nat) (reply : Packet) : Net :=
  match n.exchanges[k]? with
  | none => n
  | some x =>
      if x.reply = none ∧ replyOf reply = some (x.stage, x.pid) then
        let n := { n with exchanges := n.exchanges.set k { x with reply := some reply } }
        match x.stage, reply with
        | .pubrec, .pubrec p =>
            if x.pid ∈ n.unreleased then { n with discarded := x.owner :: n.discarded }
            else if p.reasonCode ≥ 0x80 then n
            else { n with unreleased := insert x.pid n.unreleased }
        | .pubcomp, _ => { n with unreleased := n.unreleased.erase x.pid }
        | _, _ => n
      else n

/-- The client's read loop takes the reply of an exchange. -/
def deliver (n : Net) (k : Nat) : Net :=
  match n.exchanges[k]? with
  | none => n
  | some x =>
      match x.reply with
      | none => n
      | some reply =>
          if n.client.readLoop = .reading then
            { n with
              client := n.client.receive reply
              exchanges := n.exchanges.eraseIdx k ++
                newExchanges n.client (n.client.receive reply) }
          else n

def step (n : Net) : NetEvent → Net
  | .client e =>
      if e.isLocal then
        { n with
          client := n.client.step e
          exchanges := n.exchanges ++ newExchanges n.client (n.client.step e) }
      else n
  | .answer k reply => n.answer k reply
  | .deliver k => n.deliver k
  | .reconnect =>
      { n with
        client := Protocol.fresh n.client.version n.client.maxPublishQos
        exchanges := [] }

/-- The first connection. -/
def fresh (version : Version) (maxPublishQos : QoS) : Net :=
  { client := Protocol.fresh version maxPublishQos }

end Net

/-! ## Requests the tables know -/

namespace Protocol

/-- Call `owner` is suspended, its future is pending and nobody has cancelled it. -/
def AwaitsReply (s : Protocol) (owner : Nat) (kind : CallKind) (pid : Int) : Prop :=
  ∃ c, s.calls[owner]? = some c ∧ c.kind = kind ∧ c.pid = pid ∧ c.future = .pending ∧
    c.cancelRequested = false ∧ c.pc.isFinished = false

/-- The tables know the request of `owner` with this id that waits for this reply. -/
def Registered (s : Protocol) (stage : Stage) (pid : Int) (owner : Nat) : Prop :=
  match stage with
  | .puback => s.state.inflightQos1.get? pid = some owner
  | .pubrec => s.state.inflightQos2Out.get? pid = some ⟨owner, .pendingPubrec⟩
  | .pubcomp => s.state.inflightQos2Out.get? pid = some ⟨owner, .pendingPubcomp⟩
  | .suback => s.state.pendingSubs.get? pid = some owner ∧ s.AwaitsReply owner .subscribe pid
  | .unsuback =>
      s.state.pendingUnsubs.get? pid = some owner ∧ s.AwaitsReply owner .unsubscribe pid

end Protocol

/-- The replies that a call with a `finally` block waits for. -/
def Stage.hasFinally : Stage → Bool
  | .puback | .pubrec | .pubcomp => false
  | .suback | .unsuback => true

/-- The table of a stage. -/
def Stage.kind : Stage → CallKind
  | .puback => .publishQos1
  | .pubrec | .pubcomp => .publishQos2
  | .suback => .subscribe
  | .unsuback => .unsubscribe

/-- The step does not end call `owner` from outside. -/
def Spares (e : ProtocolEvent) (owner : Nat) : Prop :=
  e ≠ .cancel owner ∧ e ≠ .resume owner false ∧ e ≠ .runExit

namespace Protocol

theorem Registered.lookup {s : Protocol} {stage : Stage} {pid : Int} {owner : Nat}
    (h : s.Registered stage pid owner) : s.state.lookup stage.kind pid = some owner := by
  cases stage with
  | puback => exact h
  | pubrec => simp only [Registered] at h; simp [Stage.kind, SessionState.lookup, h]
  | pubcomp => simp only [Registered] at h; simp [Stage.kind, SessionState.lookup, h]
  | suback => exact h.1
  | unsuback => exact h.1

theorem Registered.mem_ownedIds {s : Protocol} {stage : Stage} {pid : Int} {owner : Nat}
    (h : s.Registered stage pid owner) : pid ∈ s.state.ownedIds :=
  (SessionState.owns_of_lookup h.lookup).mem

/-! ## What keeps a request registered -/

end Protocol

namespace SessionState

/-- The tables agree at an id. -/
def SameAt (st st' : SessionState) (pid : Int) : Prop :=
  st'.inflightQos1.get? pid = st.inflightQos1.get? pid ∧
  st'.inflightQos2Out.get? pid = st.inflightQos2Out.get? pid ∧
  st'.pendingSubs.get? pid = st.pendingSubs.get? pid ∧
  st'.pendingUnsubs.get? pid = st.pendingUnsubs.get? pid

theorem sameAt_rfl (st : SessionState) (pid : Int) : SameAt st st pid := ⟨rfl, rfl, rfl, rfl⟩

theorem SameAt.trans {st st' st'' : SessionState} {pid : Int} (h : SameAt st st' pid)
    (h' : SameAt st' st'' pid) : SameAt st st'' pid := by
  obtain ⟨h1, h2, h3, h4⟩ := h
  obtain ⟨h1', h2', h3', h4'⟩ := h'
  exact ⟨h1'.trans h1, h2'.trans h2, h3'.trans h3, h4'.trans h4⟩

theorem sameAt_popRelease (st : SessionState) (kind : CallKind) {pid pid' : Int}
    (hne : pid ≠ pid') : SameAt st (st.popRelease kind pid) pid' := by
  cases kind <;> simp [SameAt, popRelease, Dict.get?_pop, hne]

theorem sameAt_register (st : SessionState) (pool : PacketIdPool) (kind : CallKind)
    {pid pid' : Int} (hne : pid ≠ pid') (i : Nat) :
    SameAt st (({ st with packetIds := pool } : SessionState).register kind pid i) pid' := by
  cases kind <;> simp [SameAt, register, Dict.get?_set, hne]

/-- An id is registered for one kind of call only. -/
theorem IdsOwned.kind_unique {st : SessionState} (h : st.IdsOwned) {kind kind' : CallKind}
    {pid : Int} {i j : Nat} (hi : st.lookup kind pid = some i)
    (hj : st.lookup kind' pid = some j) : kind = kind' := by
  have hn := h.nodup
  simp only [ownedIds, List.nodup_append, List.mem_append] at hn
  obtain ⟨-, ⟨-, ⟨-, -, h34⟩, h2⟩, h1⟩ := hn
  have oi := owns_of_lookup hi
  have oj := owns_of_lookup hj
  cases kind <;> cases kind' <;> simp only [Owns] at oi oj <;> first
    | rfl
    | exact absurd rfl (h1 pid oi pid (by simp [oj]))
    | exact absurd rfl (h1 pid oj pid (by simp [oi]))
    | exact absurd rfl (h2 pid oi pid (by simp [oj]))
    | exact absurd rfl (h2 pid oj pid (by simp [oi]))
    | exact absurd rfl (h34 pid oi pid oj)
    | exact absurd rfl (h34 pid oj pid oi)

end SessionState

namespace Protocol

theorem Registered.of_sameAt {s s' : Protocol} {stage : Stage} {pid : Int} {owner : Nat}
    (h : s.Registered stage pid owner) (hsame : SessionState.SameAt s.state s'.state pid)
    (hcall : stage.hasFinally = true → s.AwaitsReply owner stage.kind pid →
      s'.AwaitsReply owner stage.kind pid) : s'.Registered stage pid owner := by
  obtain ⟨h1, h2, h3, h4⟩ := hsame
  cases stage with
  | puback => exact h1.trans h
  | pubrec => exact h2.trans h
  | pubcomp => exact h2.trans h
  | suback => exact ⟨h3.trans h.1, hcall rfl h.2⟩
  | unsuback => exact ⟨h4.trans h.1, hcall rfl h.2⟩

/-- Another call may change. -/
theorem AwaitsReply.set {s : Protocol} {owner i : Nat} {kind : CallKind} {pid : Int}
    (h : s.AwaitsReply owner kind pid) (hne : owner ≠ i) (c' : Call) (st : SessionState) :
    ({ s with state := st, calls := s.calls.set i c' } : Protocol).AwaitsReply owner kind pid := by
  obtain ⟨c, hc, hrest⟩ := h
  refine ⟨c, ?_, hrest⟩
  dsimp only
  rw [List.getElem?_set_ne (Ne.symm hne), hc]

/-- The end of another call, or of a publish, keeps a request registered. -/
theorem Registered.finish {s : Protocol} (hinv : s.OwnershipInv) {stage : Stage} {pid : Int}
    {owner : Nat} (h : s.Registered stage pid owner) {i : Nat} {c : Call}
    (hi : s.calls[i]? = some c) (hfin : c.pc.isFinished = false)
    (hne : stage.hasFinally = true → owner ≠ i) (outcome : Outcome) :
    (s.finish i c outcome).Registered stage pid owner := by
  have hcall : ∀ st : SessionState, stage.hasFinally = true →
      s.AwaitsReply owner stage.kind pid →
      ({ s with state := st, calls := s.calls.set i { c with pc := .finished outcome } } :
        Protocol).AwaitsReply owner stage.kind pid :=
    fun st hs ha => ha.set (hne hs) _ st
  rw [Protocol.finish, SessionState.cleanup_eq]
  split
  · next hk =>
    have hl := hinv.calls i c hi hfin hk
    refine h.of_sameAt (SessionState.sameAt_popRelease _ _ ?_) (hcall _)
    -- with the same id the two requests would be of one kind, hence the same call
    rintro rfl
    have hkind := hinv.ids.kind_unique hl h.lookup
    rw [hkind, h.lookup] at hl
    have howner := Option.some.inj hl
    cases stage <;> simp only [Stage.kind] at hkind <;> rw [hkind] at hk <;> first
      | exact hne rfl howner
      | cases hk
  · exact h.of_sameAt (SessionState.sameAt_rfl _ _) (hcall _)

theorem Registered.set {s : Protocol} {stage : Stage} {pid : Int} {owner : Nat}
    (h : s.Registered stage pid owner) {i : Nat} (hne : stage.hasFinally = true → owner ≠ i)
    (c' : Call) : ({ s with calls := s.calls.set i c' } : Protocol).Registered stage pid owner :=
  h.of_sameAt (SessionState.sameAt_rfl _ _) fun hs ha => ha.set (hne hs) c' s.state

theorem Registered.setFuture {s : Protocol} {stage : Stage} {pid : Int} {owner : Nat}
    (h : s.Registered stage pid owner) {i : Nat} (hne : stage.hasFinally = true → owner ≠ i)
    (future : FutureState) : (s.setFuture i future).Registered stage pid owner := by
  unfold Protocol.setFuture
  split
  · exact h
  · split
    · exact h.set hne _
    · exact h

theorem Registered.startCall {s : Protocol} (hinv : s.OwnershipInv) {stage : Stage} {pid : Int}
    {owner : Nat} (h : s.Registered stage pid owner) (kind : CallKind) (filters : List String)
    (packetOf : Int → Packet) :
    (s.startCall kind filters packetOf).Registered stage pid owner := by
  unfold Protocol.startCall
  split
  · exact h
  · split
    · exact h
    · next pid' pool hacq =>
      have hfree := (PacketIdPool.acquire_eq_some hinv.ids.next hacq).1
      have hne : pid' ≠ pid := by
        rintro rfl
        exact hfree ((hinv.ids.inUse pid').2 h.mem_ownedIds)
      have hcall : ∀ (s' : Protocol) (d : Call), s'.calls = s.calls ++ [d] →
          s.AwaitsReply owner stage.kind pid → s'.AwaitsReply owner stage.kind pid := by
        rintro s' d hs' ⟨c, hc, hrest⟩
        refine ⟨c, ?_, hrest⟩
        rw [hs', List.getElem?_append_left (List.getElem?_eq_some_iff.1 hc).1, hc]
      have hreg := SessionState.sameAt_register s.state pool kind hne s.calls.length
      dsimp only
      split
      · rw [SessionState.cleanup_eq]
        refine h.of_sameAt ?_ fun _ => hcall _ _ rfl
        dsimp only
        split
        · exact hreg.trans (SessionState.sameAt_popRelease _ _ hne)
        · exact hreg
      · exact h.of_sameAt hreg fun _ => hcall _ _ rfl

theorem Registered.resume {s : Protocol} (hinv : s.OwnershipInv) {stage : Stage} {pid : Int}
    {owner : Nat} (h : s.Registered stage pid owner) {i : Nat} {written : Bool}
    (hsp : stage.hasFinally = true → Spares (.resume i written) owner) :
    (s.resume i written).Registered stage pid owner := by
  unfold Protocol.resume
  split
  · exact h
  · next c hi =>
    by_cases hown : stage.hasFinally = true ∧ owner = i
    · -- the call itself: its future is pending, so it goes on waiting
      obtain ⟨hs, rfl⟩ := hown
      have ha : s.AwaitsReply owner stage.kind pid := by
        cases stage <;> first | exact h.2 | cases hs
      obtain ⟨c', hc', hk, hp, hfut, hcancel, hpc⟩ := ha
      rw [hi] at hc'
      obtain rfl := Option.some.inj hc'
      have hw : written = true := by
        by_contra hw
        rw [Bool.not_eq_true] at hw
        subst hw
        exact (hsp hs).2.1 rfl
      subst hw
      split
      · exact h
      · rw [if_neg (by simp [hcancel]), if_pos rfl, if_pos hfut]
        refine h.of_sameAt (SessionState.sameAt_rfl _ _) fun _ _ => ?_
        refine ⟨{ c with pc := .waiting }, ?_, hk, hp, hfut, hcancel, rfl⟩
        dsimp only
        rw [List.getElem?_set_self (List.getElem?_eq_some_iff.1 hi).1]
      · rw [if_pos hfut]
        exact h
    · have hne : stage.hasFinally = true → owner ≠ i := fun hs ho => hown ⟨hs, ho⟩
      split
      · exact h
      · next hpc =>
        have hfin : c.pc.isFinished = false := by rw [hpc]; rfl
        split
        · exact h.finish hinv hi hfin hne _
        · split
          · split
            · exact h.set hne _
            · exact h.finish hinv hi hfin hne _
          · exact h.finish hinv hi hfin hne _
      · next hpc =>
        have hfin : c.pc.isFinished = false := by rw [hpc]; rfl
        split
        · exact h
        · split
          · exact h.finish hinv hi hfin hne _
          · exact h.finish hinv hi hfin hne _

theorem Registered.cancel {s : Protocol} {stage : Stage} {pid : Int} {owner : Nat}
    (h : s.Registered stage pid owner) {i : Nat} (hne : stage.hasFinally = true → owner ≠ i) :
    (s.cancel i).Registered stage pid owner := by
  unfold Protocol.cancel
  split
  · exact h
  · split
    · exact h
    · exact h.set hne _
    · split
      · exact h.set hne _
      · exact h.set hne _

theorem Registered.runExit {s : Protocol} {stage : Stage} {pid : Int} {owner : Nat}
    (h : s.Registered stage pid owner) (hs : stage.hasFinally = false) :
    s.runExit.Registered stage pid owner := by
  have hfold : ∀ (is : List Nat) (s : Protocol), s.Registered stage pid owner →
      (is.foldl (fun s i => s.setFuture i (.exception .disconnected)) s).Registered stage pid
        owner := by
    intro is
    induction is with
    | nil => intro s h; exact h
    | cons i is ih =>
      intro s h
      exact ih _ (h.setFuture (fun hf => by rw [hs] at hf; cases hf) _)
  refine hfold _ _ (h.of_sameAt (SessionState.sameAt_rfl _ _) ?_)
  intro hf
  rw [hs] at hf
  cases hf

/-- **Frame.** A local step keeps every request registered; a request with a `finally`
    block provided the step does not end its call from outside. -/
theorem Registered.step {s : Protocol} (hinv : s.OwnershipInv) {stage : Stage} {pid : Int}
    {owner : Nat} (h : s.Registered stage pid owner) {e : ProtocolEvent} (hloc : e.isLocal = true)
    (hsp : stage.hasFinally = true → Spares e owner) :
    (s.step e).Registered stage pid owner := by
  cases e with
  | publish packet =>
    rw [Protocol.step, Protocol.publish]
    split
    · exact h
    · split
      · split
        · exact h
        · exact h.of_sameAt (SessionState.sameAt_rfl _ _) fun _ ha => ha
      · exact h.startCall hinv _ _ _
      · exact h.startCall hinv _ _ _
  | sendSubscribe filters identifier => exact h.startCall hinv _ _ _
  | sendUnsubscribe filters => exact h.startCall hinv _ _ _
  | resume i written => exact h.resume hinv hsp
  | cancel i =>
    refine h.cancel fun hs ho => ?_
    exact (hsp hs).1 (by rw [ho])
  | receive packet => cases hloc
  | resumeReadLoop written =>
    rw [Protocol.step, Protocol.resumeReadLoop]
    split
    · exact h.of_sameAt (SessionState.sameAt_rfl _ _) fun _ ha => ha
    · exact h
    · exact h
  | runExit =>
    refine h.runExit ?_
    by_contra hs
    exact (hsp (Bool.eq_true_of_not_eq_false hs)).2.2 rfl

end Protocol

/-! ## Replies to registered requests -/

namespace Protocol

theorem calls_setFuture_of_ne (s : Protocol) {i j : Nat} (hne : j ≠ i) (future : FutureState) :
    (s.setFuture i future).calls[j]? = s.calls[j]? := by
  unfold Protocol.setFuture
  split
  · rfl
  · split
    · exact List.getElem?_set_ne (Ne.symm hne)
    · rfl

theorem length_calls_setFuture (s : Protocol) (i : Nat) (future : FutureState) :
    (s.setFuture i future).calls.length = s.calls.length := by
  unfold Protocol.setFuture
  split
  · rfl
  · split
    · exact List.length_set
    · rfl

/-- A call after a future was set. -/
theorem call_setFuture {s : Protocol} {i j : Nat} {future : FutureState} {c' : Call}
    (hc' : (s.setFuture i future).calls[j]? = some c') :
    ∃ c, s.calls[j]? = some c ∧ (c' = c ∨ j = i ∧ c.future = .pending ∧ c' = { c with future }) := by
  by_cases hj : j = i
  · subst hj
    unfold Protocol.setFuture at hc'
    split at hc'
    · next hnone =>
      rw [hnone] at hc'
      cases hc'
    · next c hc =>
      split at hc'
      · next hpending =>
        rw [List.getElem?_set_self (List.getElem?_eq_some_iff.1 hc).1] at hc'
        exact ⟨c, hc, Or.inr ⟨rfl, hpending, (Option.some.inj hc').symm⟩⟩
      · rw [hc] at hc'
        exact ⟨c, hc, Or.inl (Option.some.inj hc').symm⟩
  · rw [calls_setFuture_of_ne s hj] at hc'
    exact ⟨c', hc', Or.inl rfl⟩

@[simp] theorem state_setFuture (s : Protocol) (i : Nat) (future : FutureState) :
    (s.setFuture i future).state = s.state := by
  unfold Protocol.setFuture
  split
  · rfl
  · split <;> rfl

@[simp] theorem written_setFuture (s : Protocol) (i : Nat) (future : FutureState) :
    (s.setFuture i future).written = s.written := by
  unfold Protocol.setFuture
  split
  · rfl
  · split <;> rfl

@[simp] theorem readLoop_setFuture (s : Protocol) (i : Nat) (future : FutureState) :
    (s.setFuture i future).readLoop = s.readLoop := by
  unfold Protocol.setFuture
  split
  · rfl
  · split <;> rfl

/-- What the dispatch of the reply to a request of `owner` may change: the future of
    `owner`, the tables at the request's id, and, on a PUBREC that is not negative, one
    PUBREL is written. -/
structure Answered (s s' : Protocol) (stage : Stage) (pid : Int) (owner : Nat) (reply : Packet) :
    Prop where
  calls : ∀ j, j ≠ owner → s'.calls[j]? = s.calls[j]?
  tables : ∀ pid', pid' ≠ pid → SessionState.SameAt s.state s'.state pid'
  written : s'.written = s.written ∨
    (stage = .pubrec ∧ s'.written = (.pubrel { packetId := pid }, some owner) :: s.written ∧
      s'.Registered .pubcomp pid owner)
  pubrel : ∀ p, reply = .pubrec p → ¬ p.reasonCode ≥ 0x80 → s'.written ≠ s.written

theorem dispatch_setResult {s : Protocol} {kind : CallKind} {pid : Int} {owner : Nat}
    (h : s.AwaitsReply owner kind pid) (reply : Packet) :
    ∃ s', s.setResult owner reply = .ok s' ∧ s'.state = s.state ∧ s'.written = s.written ∧
      ∀ j, j ≠ owner → s'.calls[j]? = s.calls[j]? := by
  obtain ⟨c, hc, -, -, hfut, -, -⟩ := h
  unfold setResult
  rw [hc]
  dsimp only
  rw [if_pos hfut]
  exact ⟨_, rfl, rfl, rfl, fun j hj => List.getElem?_set_ne (Ne.symm hj)⟩

/-- The reply to a registered request is dispatched without an exception. -/
theorem Registered.dispatch {s : Protocol} {stage : Stage} {pid : Int} {owner : Nat}
    (h : s.Registered stage pid owner) {reply : Packet}
    (hreply : replyOf reply = some (stage, pid)) :
    ∃ s', s.dispatch reply = .ok s' ∧ Answered s s' stage pid owner reply := by
  cases reply with
  | puback p =>
    cases hreply
    rw [Protocol.dispatch, handlePuback, show s.state.inflightQos1.get? p.packetId = some owner from h]
    refine ⟨_, rfl, fun j hj => calls_setFuture_of_ne _ hj _, fun pid' hne => ?_, Or.inl ?_,
      fun _ hp => by cases hp⟩
    · rw [state_setFuture]
      exact SessionState.sameAt_popRelease _ _ (Ne.symm hne)
    · rw [written_setFuture]
  | pubrec p =>
    cases hreply
    rw [Protocol.dispatch, handlePubrec,
      show s.state.inflightQos2Out.get? p.packetId = some ⟨owner, .pendingPubrec⟩ from h]
    dsimp only
    rw [if_neg (by simp)]
    split
    · next hneg =>
      refine ⟨_, rfl, fun j hj => calls_setFuture_of_ne _ hj _, fun pid' hne => ?_, Or.inl ?_,
        fun q hq hok => ?_⟩
      · rw [state_setFuture]
        exact SessionState.sameAt_popRelease _ _ (Ne.symm hne)
      · rw [written_setFuture]
      · cases hq
        exact absurd hneg hok
    · refine ⟨_, rfl, fun j hj => rfl, fun pid' hne => ?_, Or.inr ⟨rfl, rfl, ?_⟩, fun q _ _ => ?_⟩
      · refine ⟨rfl, ?_, rfl, rfl⟩
        dsimp only
        rw [Dict.get?_set, if_neg (Ne.symm hne)]
      · simp only [Registered]
        rw [Dict.get?_set, if_pos rfl]
      · dsimp only
        exact List.cons_ne_self _ _
  | pubcomp p =>
    cases hreply
    rw [Protocol.dispatch, handlePubcomp,
      show s.state.inflightQos2Out.get? p.packetId = some ⟨owner, .pendingPubcomp⟩ from h]
    refine ⟨_, rfl, fun j hj => calls_setFuture_of_ne _ hj _, fun pid' hne => ?_, Or.inl ?_,
      fun _ hp => by cases hp⟩
    · rw [state_setFuture]
      exact SessionState.sameAt_popRelease _ _ (Ne.symm hne)
    · rw [written_setFuture]
  | suback p =>
    cases hreply
    rw [Protocol.dispatch, handleSuback, h.1]
    obtain ⟨s', hs', hst, hw, hcalls⟩ := dispatch_setResult h.2 (.suback p)
    refine ⟨s', hs', hcalls, fun pid' _ => ?_, Or.inl hw, fun _ hp => by cases hp⟩
    rw [hst]
    exact SessionState.sameAt_rfl _ _
  | unsuback p =>
    cases hreply
    rw [Protocol.dispatch, handleUnsuback, h.1]
    obtain ⟨s', hs', hst, hw, hcalls⟩ := dispatch_setResult h.2 (.unsuback p)
    refine ⟨s', hs', hcalls, fun pid' _ => ?_, Or.inl hw, fun _ hp => by cases hp⟩
    rw [hst]
    exact SessionState.sameAt_rfl _ _
  | publish p => cases hreply
  | pubrel p => cases hreply
  | connect p => cases hreply
  | connack p => cases hreply
  | subscribe p => cases hreply
  | unsubscribe p => cases hreply
  | pingreq => cases hreply
  | pingresp => cases hreply
  | disconnect p => cases hreply
  | auth p => cases hreply

/-- The reply to one request keeps the requests with other ids registered. -/
theorem Registered.answered {s s' : Protocol} (hinv : s.OwnershipInv) {stage stage' : Stage}
    {pid pid' : Int} {owner owner' : Nat} {reply : Packet} (h : s.Registered stage pid owner)
    (h' : s.Registered stage' pid' owner') (hne : pid' ≠ pid)
    (ha : Answered s s' stage pid owner reply) : s'.Registered stage' pid' owner' := by
  refine h'.of_sameAt (ha.tables pid' hne) ?_
  rintro - ⟨c, hc, hk, hp, hrest⟩
  have howner : owner' ≠ owner := by
    rintro rfl
    obtain ⟨d, hd, -, hdp⟩ := hinv.entries _ _ _ h.lookup
    rw [hc] at hd
    obtain rfl := Option.some.inj hd
    exact hne (hp.symm.trans hdp)
  exact ⟨c, by rw [ha.calls _ howner, hc], hk, hp, hrest⟩

/-! ## The requests a step opens -/

/-- A local step opens no exchange, or one with a fresh id that the tables know. -/
def Opens (s s' : Protocol) : Prop :=
  newExchanges s s' = [] ∨
    ∃ x, newExchanges s s' = [x] ∧ x.reply = none ∧ x.stage ≠ .pubcomp ∧
      x.pid ∉ s.state.ownedIds ∧ s'.Registered x.stage x.pid x.owner

theorem newExchanges_of_written_eq {s s' : Protocol} (h : s'.written = s.written) :
    newExchanges s s' = [] := by
  simp [newExchanges, h]

theorem newExchanges_of_written_cons {s s' : Protocol} {item : Packet × Option Nat}
    (h : s'.written = item :: s.written) : newExchanges s s' = [item].filterMap exchangeOf := by
  simp [newExchanges, h]

theorem newExchanges_of_written_pubrel {s s' : Protocol} {pid : Int} {owner : Nat}
    (h : s'.written = (.pubrel { packetId := pid }, some owner) :: s.written) :
    newExchanges s s' = [{ stage := .pubcomp, pid, owner }] := by
  rw [newExchanges_of_written_cons h]
  rfl

theorem opens_startCall {s : Protocol} (hinv : s.OwnershipInv) (stage : Stage)
    (filters : List String) {packetOf : Int → Packet} (hstage : stage ≠ .pubcomp)
    (hreq : ∀ pid, requestOf (packetOf pid) = some (stage, pid)) :
    Opens s (s.startCall stage.kind filters packetOf) := by
  unfold Protocol.startCall
  split
  · exact Or.inl (newExchanges_of_written_eq rfl)
  · split
    · exact Or.inl (newExchanges_of_written_eq rfl)
    · next pid pool hacq =>
      have hfree := (PacketIdPool.acquire_eq_some hinv.ids.next hacq).1
      dsimp only
      split
      · exact Or.inl (newExchanges_of_written_eq rfl)
      · refine Or.inr ⟨{ stage, pid, owner := s.calls.length }, ?_, rfl, hstage, ?_, ?_⟩
        · rw [newExchanges_of_written_cons rfl]
          simp [exchangeOf, hreq]
        · exact fun hm => hfree ((hinv.ids.inUse pid).2 hm)
        · -- the call just started is suspended in its write and has its entry
          have hcall : ∀ s' : Protocol,
              s'.calls = s.calls ++ [{ kind := stage.kind, pid, filters, pc := .sending }] →
              s'.AwaitsReply s.calls.length stage.kind pid := by
            intro s' hs'
            refine ⟨{ kind := stage.kind, pid, filters, pc := .sending }, ?_, rfl, rfl, rfl, rfl, rfl⟩
            rw [hs', List.getElem?_append_right (le_refl _), Nat.sub_self]
            rfl
          cases stage with
          | puback => simp [Registered, Stage.kind, SessionState.register, Dict.get?_set]
          | pubrec => simp [Registered, Stage.kind, SessionState.register, Dict.get?_set]
          | pubcomp => exact absurd rfl hstage
          | suback =>
            refine ⟨?_, hcall _ rfl⟩
            simp [Stage.kind, SessionState.register, Dict.get?_set]
          | unsuback =>
            refine ⟨?_, hcall _ rfl⟩
            simp [Stage.kind, SessionState.register, Dict.get?_set]

@[simp] theorem written_finish (s : Protocol) (i : Nat) (c : Call) (outcome : Outcome) :
    (s.finish i c outcome).written = s.written := rfl

theorem written_resume (s : Protocol) (i : Nat) (written : Bool) :
    (s.resume i written).written = s.written := by
  unfold Protocol.resume
  repeat' split
  all_goals rfl

theorem written_cancel (s : Protocol) (i : Nat) : (s.cancel i).written = s.written := by
  unfold Protocol.cancel
  repeat' split
  all_goals rfl

theorem written_runExit (s : Protocol) : s.runExit.written = s.written := by
  have hfold : ∀ (is : List Nat) (s : Protocol),
      (is.foldl (fun s i => s.setFuture i (.exception .disconnected)) s).written =
        s.written := by
    intro is
    induction is with
    | nil => intro s; rfl
    | cons i is ih => intro s; rw [List.foldl_cons, ih, written_setFuture]
  exact hfold _ _

theorem opens_step {s : Protocol} (hinv : s.OwnershipInv) {e : ProtocolEvent}
    (hloc : e.isLocal = true) : Opens s (s.step e) := by
  cases e with
  | publish packet =>
    rw [Protocol.step, Protocol.publish]
    split
    · exact Or.inl (newExchanges_of_written_eq rfl)
    · split
      · split
        · exact Or.inl (newExchanges_of_written_eq rfl)
        · left
          rw [newExchanges_of_written_cons rfl]
          simp [exchangeOf]
      · next hq =>
        exact opens_startCall hinv .puback [] (by decide) fun pid => by
          simp [requestOf, hq]
      · next hq =>
        exact opens_startCall hinv .pubrec [] (by decide) fun pid => by
          simp [requestOf, hq]
  | sendSubscribe filters identifier =>
    exact opens_startCall hinv .suback _ (by decide) fun pid => rfl
  | sendUnsubscribe filters =>
    exact opens_startCall hinv .unsuback _ (by decide) fun pid => rfl
  | resume i written => exact Or.inl (newExchanges_of_written_eq (written_resume s i written))
  | cancel i => exact Or.inl (newExchanges_of_written_eq (written_cancel s i))
  | receive packet => cases hloc
  | resumeReadLoop written =>
    left
    apply newExchanges_of_written_eq
    rw [Protocol.step, Protocol.resumeReadLoop]
    split <;> rfl
  | runExit => exact Or.inl (newExchanges_of_written_eq (written_runExit s))

end Protocol

end Zmqtt
