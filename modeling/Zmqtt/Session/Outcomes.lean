/-
  What a call comes to, and why (`publish` above QoS 0, `_send_subscribe`, `_send_unsubscribe`
  and the handlers of the replies in `_internal/protocol.py`), over any run and whatever the
  broker sends.

  A call that returns got the first reply of its type and packet id that the read loop took
  after its request was sent; one that raises `MQTTPublishError` or `MQTTSubscribeError` got the
  refusal in such a reply; `MQTTDisconnectedError` comes with the exit of `run()`
  (`outcomes_caused`). The invariant follows a request in the log as long as its entry stands in
  a table and its future is pending (`Asked`); a reply that finds the entry turns that into the
  cause of the result (`Told`).
-/
import Zmqtt.Session.DeadConnection
import Zmqtt.Session.OutboundHandshake

namespace Zmqtt

/-! ## Causes -/

/-- The reply that the request of a call asks for. -/
def CallKind.asks : CallKind → Stage
  | .publishQos1 => .puback
  | .publishQos2 => .pubrec
  | .subscribe => .suback
  | .unsubscribe => .unsuback

/-- The reply that gives a call its result. -/
def CallKind.answer : CallKind → Stage
  | .publishQos1 => .puback
  | .publishQos2 => .pubcomp
  | .subscribe => .suback
  | .unsubscribe => .unsuback

namespace Logged

/-- The request of call `i` was sent, and no answer to its packet id was taken since. -/
def Asked (s : Logged) (kind : CallKind) (pid : Int) (i : Nat) : Prop :=
  ∃ since request before, s.log = since ++ .sent request (some i) :: before ∧
    requestOf request = some (kind.asks, pid) ∧
    ∀ reply, .received reply ∈ since → replyOf reply ≠ some (kind.answer, pid)

/-- The read loop took the packet, a reply of this stage, while call `i` was asking. -/
def Told (s : Logged) (kind : CallKind) (stage : Stage) (pid : Int) (i : Nat) (packet : Packet) :
    Prop :=
  ∃ later since request before,
    s.log = later ++ .received packet :: (since ++ .sent request (some i) :: before) ∧
    requestOf request = some (kind.asks, pid) ∧ replyOf packet = some (stage, pid) ∧
    ∀ reply, .received reply ∈ since → replyOf reply ≠ some (kind.answer, pid)

/-- What the outcome of call `i` goes back to. A call whose packet cannot be encoded or written
    says so itself. -/
def Causes (s : Logged) (i : Nat) (c : Call) : Outcome → Prop
  | .returned packet => s.Told c.kind c.kind.answer c.pid i packet ∧
      (∀ p, packet = .puback p → p.reasonCode < 0x80) ∧
      ∀ p, packet = .suback p → Protocol.rejectedFilters c.filters p.returnCodes = []
  | .raised (.publishError p) => 0x80 ≤ p.reasonCode ∧
      (c.kind = .publishQos1 ∧ s.Told c.kind .puback c.pid i (.puback p) ∨
        c.kind = .publishQos2 ∧ s.Told c.kind .pubrec c.pid i (.pubrec p))
  | .raised (.subscribeError failures) => c.kind = .subscribe ∧ failures ≠ [] ∧
      ∃ p, s.Told c.kind .suback c.pid i (.suback p) ∧
        failures = Protocol.rejectedFilters c.filters p.returnCodes
  | .raised .disconnected => s.protocol.dead = true
  | .raised (.encode _) | .raised .write => True
  | .cancelled => c.cancelRequested = true ∨ c.future = .cancelled

/-- What the future of call `i` goes back to. -/
def FutureCaused (s : Logged) (i : Nat) (c : Call) : Prop :=
  match c.future with
  | .pending | .cancelled => True
  | .result packet => s.Told c.kind c.kind.answer c.pid i packet
  | .exception (.publishError p) =>
      c.kind = .publishQos2 ∧ 0x80 ≤ p.reasonCode ∧ s.Told c.kind .pubrec c.pid i (.pubrec p)
  | .exception .disconnected => s.protocol.dead = true
  | .exception _ => False

end Logged

/-- How a call whose packet was sent can end. -/
def Call.Ends (c : Call) (outcome : Outcome) : Prop :=
  outcome = .raised .write ∨ outcome = .cancelled ∧ c.cancelRequested = true ∨
    c.future ≠ .pending ∧ outcome = Protocol.outcomeOf c

namespace Logged

/-- What holds of a call whose packet was sent. -/
structure Caused (s : Logged) (i : Nat) (c : Call) : Prop where
  asked : s.protocol.readLoop ≠ .stopped → c.future = .pending →
    s.protocol.state.lookup c.kind c.pid = some i → s.Asked c.kind c.pid i
  future : s.FutureCaused i c
  ended : ∀ outcome, c.pc = .finished outcome → c.Ends outcome

structure OutcomeInv (s : Logged) : Prop where
  owned : s.protocol.OwnershipInv
  calls : ∀ (i : Nat) c, s.protocol.calls[i]? = some c → ¬ c.Unsent → s.Caused i c

variable {s s' : Logged} {i : Nat} {c c' : Call} {kind : CallKind} {stage : Stage} {pid : Int}
  {packet : Packet} {new : List Happening}

theorem Asked.mono (h : s.Asked kind pid i) (hlog : s'.log = new ++ s.log)
    (hnew : ∀ reply, .received reply ∈ new → replyOf reply ≠ some (kind.answer, pid)) :
    s'.Asked kind pid i := by
  obtain ⟨since, request, before, hs, hrequest, hsince⟩ := h
  refine ⟨new ++ since, request, before, ?_, hrequest, fun reply hreply => ?_⟩
  · rw [hlog, hs, List.append_assoc]
  · rcases List.mem_append.1 hreply with hr | hr
    · exact hnew reply hr
    · exact hsince reply hr

theorem Told.mono (h : s.Told kind stage pid i packet) (hlog : s'.log = new ++ s.log) :
    s'.Told kind stage pid i packet := by
  obtain ⟨later, since, request, before, hs, hrest⟩ := h
  refine ⟨new ++ later, since, request, before, ?_, hrest⟩
  rw [hlog, hs, List.append_assoc]

theorem Told.reply (h : s.Told kind stage pid i packet) : replyOf packet = some (stage, pid) := by
  obtain ⟨-, -, -, -, -, -, hreply, -⟩ := h
  exact hreply

/-- A reply that is taken while the call asks. -/
theorem Asked.told (h : s.Asked kind pid i) (hlog : s'.log = [.received packet] ++ s.log)
    (hreply : replyOf packet = some (stage, pid)) : s'.Told kind stage pid i packet := by
  obtain ⟨since, request, before, hs, hrequest, hsince⟩ := h
  refine ⟨[], since, request, before, ?_, hrequest, hreply, hsince⟩
  rw [hlog, hs]
  rfl

theorem FutureCaused.mono (h : s.FutureCaused i c) (hlog : s'.log = new ++ s.log)
    (hdead : s.protocol.dead = true → s'.protocol.dead = true) (hkind : c'.kind = c.kind)
    (hpid : c'.pid = c.pid) (hfuture : c'.future = c.future) : s'.FutureCaused i c' := by
  unfold FutureCaused at h ⊢
  rw [hfuture, hkind, hpid]
  cases hf : c.future with
  | pending | cancelled => trivial
  | result packet =>
    rw [hf] at h
    exact h.mono hlog
  | exception e =>
    rw [hf] at h
    cases e with
    | publishError p => exact ⟨h.1, h.2.1, h.2.2.mono hlog⟩
    | disconnected => exact hdead h
    | encode _ | write | subscribeError _ => exact h

end Logged

/-! ## Calls that go on -/

theorem outcomeOf_congr {c c' : Call} (hkind : c'.kind = c.kind) (hfilters : c'.filters = c.filters)
    (hfuture : c'.future = c.future) : Protocol.outcomeOf c' = Protocol.outcomeOf c := by
  rw [Protocol.outcomeOf, Protocol.outcomeOf, hkind, hfilters, hfuture]

/-- A call that has ended keeps its outcome, and one that ends now has one of its future. -/
theorem Call.Ends.advances {c c' : Call}
    (h : ∀ outcome, c.pc = .finished outcome → c.Ends outcome) (hadv : c.Advances c')
    (hfilters : c'.filters = c.filters) :
    ∀ outcome, c'.pc = .finished outcome → c'.Ends outcome := by
  have hends : ∀ outcome, c.Ends outcome → c'.Ends outcome := by
    rintro outcome (hw | ⟨hout, hcancel⟩ | ⟨hdone, hout⟩)
    · exact Or.inl hw
    · exact Or.inr (Or.inl ⟨hout, hadv.cancelRequested hcancel⟩)
    · have hsame := hadv.future hdone
      refine Or.inr (Or.inr ⟨by rw [hsame]; exact hdone, ?_⟩)
      rw [hout, outcomeOf_congr hadv.kind hfilters hsame]
  intro outcome hpc
  rcases hadv.pc with heq | ⟨-, hw | ⟨outcome', ho, hcase⟩⟩
  · exact hends outcome (h outcome (heq ▸ hpc))
  · rw [hpc] at hw
    cases hw
  · rw [hpc] at ho
    obtain rfl := Pc.finished.inj ho
    exact hends outcome hcase

/-- From `p` to `p'` no reply is taken: tables lose entries, calls go on, and a future that is
    done now was cancelled or failed by the exit of `run()`. -/
structure GoesOn (p p' : Protocol) : Prop where
  loop : p'.readLoop ≠ .stopped → p.readLoop ≠ .stopped
  dead : p.dead = true → p'.dead = true
  entries : ∀ kind pid i, p'.state.lookup kind pid = some i → p.state.lookup kind pid = some i
  calls : ∀ (i : Nat) c', p'.calls[i]? = some c' → ∃ c, p.calls[i]? = some c ∧ c.Advances c' ∧
    c'.filters = c.filters ∧ (c'.future = c.future ∨ c.future = .pending ∧
      (c'.future = .cancelled ∨ c'.future = .exception .disconnected ∧ p'.dead = true))

section GoesOn

variable {p p' : Protocol} {c c' : Call} {i : Nat}

theorem goesOn_refl (p : Protocol) : GoesOn p p :=
  ⟨id, id, fun _ _ _ h => h, fun _ c hc => ⟨c, hc, c.advances_refl, rfl, Or.inl rfl⟩⟩

/-- One call changes. -/
theorem goesOn_set (hc : p.calls[i]? = some c) (hadv : c.Advances c')
    (hfilters : c'.filters = c.filters)
    (hfuture : c'.future = c.future ∨ c.future = .pending ∧ c'.future = .cancelled)
    {st : SessionState} (hst : ∀ kind pid j, st.lookup kind pid = some j →
      p.state.lookup kind pid = some j) :
    GoesOn p { p with state := st, calls := p.calls.set i c' } := by
  refine ⟨id, id, hst, fun j d' hd' => ?_⟩
  dsimp only at hd'
  by_cases hj : i = j
  · subst hj
    rw [List.getElem?_set_self (List.getElem?_eq_some_iff.1 hc).1] at hd'
    obtain rfl := Option.some.inj hd'
    refine ⟨c, hc, hadv, hfilters, hfuture.imp_right fun h => ?_⟩
    exact ⟨h.1, Or.inl h.2⟩
  · rw [List.getElem?_set_ne hj] at hd'
    exact ⟨d', hd', d'.advances_refl, rfl, Or.inl rfl⟩

theorem goesOn_finish (hc : p.calls[i]? = some c) (hfin : c.pc.isFinished = false)
    {outcome : Outcome} (hout : c.Ends outcome) : GoesOn p (p.finish i c outcome) := by
  refine goesOn_set hc ?_ ?_ ?_ fun _ _ _ => Protocol.lookup_of_cleanup
  · exact ⟨rfl, rfl, fun _ => rfl, id, Or.inr ⟨hfin, Or.inr ⟨outcome, rfl, hout⟩⟩⟩
  · rfl
  · exact Or.inl rfl

theorem goesOn_resume (p : Protocol) (i : Nat) (written : Bool) :
    GoesOn p (p.resume i written) := by
  unfold Protocol.resume
  split
  · exact goesOn_refl p
  · next c hc =>
    split
    · exact goesOn_refl p
    · next hpc =>
      have hfin : c.pc.isFinished = false := by rw [hpc]; rfl
      split
      · next hcancel => exact goesOn_finish hc hfin (Or.inr (Or.inl ⟨rfl, hcancel⟩))
      · split
        · split
          · refine goesOn_set hc ?_ ?_ ?_ fun _ _ _ h => h
            · exact ⟨rfl, rfl, fun _ => rfl, id, Or.inr ⟨hfin, Or.inl rfl⟩⟩
            · rfl
            · exact Or.inl rfl
          · next hdone => exact goesOn_finish hc hfin (Or.inr (Or.inr ⟨hdone, rfl⟩))
        · exact goesOn_finish hc hfin (Or.inl rfl)
    · next hpc =>
      have hfin : c.pc.isFinished = false := by rw [hpc]; rfl
      split
      · exact goesOn_refl p
      · next hdone =>
        split
        · next hcancel => exact goesOn_finish hc hfin (Or.inr (Or.inl ⟨rfl, hcancel⟩))
        · exact goesOn_finish hc hfin (Or.inr (Or.inr ⟨hdone, rfl⟩))

theorem goesOn_cancel (p : Protocol) (i : Nat) : GoesOn p (p.cancel i) := by
  unfold Protocol.cancel
  split
  · exact goesOn_refl p
  · next c hc =>
    have hflag : GoesOn p { p with calls := p.calls.set i { c with cancelRequested := true } } := by
      refine goesOn_set hc ?_ ?_ ?_ fun _ _ _ h => h
      · exact ⟨rfl, rfl, fun _ => rfl, fun _ => rfl, Or.inl rfl⟩
      · rfl
      · exact Or.inl rfl
    split
    · exact goesOn_refl p
    · exact hflag
    · split
      · next hpending =>
        refine goesOn_set hc ?_ ?_ ?_ fun _ _ _ h => h
        · exact ⟨rfl, rfl, fun hdone => absurd hpending hdone, id, Or.inl rfl⟩
        · rfl
        · exact Or.inr ⟨hpending, rfl⟩
      · exact hflag

/-- The loop of `_cancel_pending` sets futures that are pending. -/
theorem call_foldl_setFuture (is : List Nat) (p : Protocol) {j : Nat} {c' : Call}
    (hc' : (is.foldl (fun p i => p.setFuture i (.exception .disconnected)) p).calls[j]? = some c') :
    ∃ c, p.calls[j]? = some c ∧
      (c' = c ∨ c.future = .pending ∧ c' = { c with future := .exception .disconnected }) := by
  induction is generalizing p with
  | nil => exact ⟨c', hc', Or.inl rfl⟩
  | cons i is ih =>
    obtain ⟨d, hd, hcase'⟩ := ih (p.setFuture i (.exception .disconnected)) hc'
    obtain ⟨c, hc, hcase⟩ := Protocol.call_setFuture hd
    refine ⟨c, hc, ?_⟩
    rcases hcase with rfl | ⟨-, hpending, rfl⟩
    · exact hcase'
    · rcases hcase' with rfl | ⟨hdone, -⟩
      · exact Or.inr ⟨hpending, rfl⟩
      · cases hdone

theorem goesOn_runExit (p : Protocol) : GoesOn p p.runExit := by
  obtain ⟨hstate, -, hdead, hloop⟩ := Protocol.foldl_setFuture_frame (Protocol.awaited p.state)
    { p with dead := true, readLoop := .stopped }
  have hsame : p.runExit.state = p.state := hstate
  have hisdead : p.runExit.dead = true := hdead
  refine ⟨fun hne => absurd hloop hne, fun _ => hisdead, fun kind pid i hl => ?_,
    fun j c' hc' => ?_⟩
  · rw [hsame] at hl
    exact hl
  · obtain ⟨c, hc, hcase⟩ := call_foldl_setFuture _ _ hc'
    refine ⟨c, hc, ?_⟩
    rcases hcase with rfl | ⟨hpending, rfl⟩
    · exact ⟨c'.advances_refl, rfl, Or.inl rfl⟩
    · refine ⟨?_, rfl, Or.inr ⟨hpending, Or.inr ⟨rfl, hisdead⟩⟩⟩
      exact ⟨rfl, rfl, fun hdone => absurd hpending hdone, id, Or.inl rfl⟩

/-- A future is set, and tables lose entries. -/
theorem advances_setFuture {st : SessionState} {future : FutureState} {j : Nat}
    (hc' : ({ p with state := st }.setFuture i future).calls[j]? = some c') :
    ∃ c, p.calls[j]? = some c ∧ c.Advances c' ∧ c'.filters = c.filters ∧
      (c' = c ∨ j = i ∧ c.future = .pending ∧ c'.future = future) := by
  obtain ⟨c, hc, hcase⟩ := Protocol.call_setFuture hc'
  refine ⟨c, hc, ?_⟩
  rcases hcase with rfl | ⟨hj, hpending, rfl⟩
  · exact ⟨c'.advances_refl, rfl, Or.inl rfl⟩
  · refine ⟨?_, rfl, Or.inr ⟨hj, hpending, rfl⟩⟩
    exact ⟨rfl, rfl, fun hdone => absurd hpending hdone, id, Or.inl rfl⟩

end GoesOn

/-! ## Replies -/

/-- What the dispatch of a packet does to the calls: nothing, or it sets the future of the call
    whose entry the packet finds, or it sends a PUBREL. -/
inductive Dispatched (p : Protocol) (packet : Packet) (p' : Protocol) : Prop where
  | nothing (hreply : replyOf packet = none) (heq : p' = p)
  | answers (kind : CallKind) (pid : Int) (i : Nat) (st : SessionState)
      (hreply : replyOf packet = some (kind.answer, pid)) (hl : p.state.lookup kind pid = some i)
      (hst : ∀ kind pid j, st.lookup kind pid = some j → p.state.lookup kind pid = some j)
      (heq : p' = { p with state := st }.setFuture i (.result packet))
  | refuses (pubrec : PubAck) (i : Nat) (st : SessionState) (hpacket : packet = .pubrec pubrec)
      (hcode : 0x80 ≤ pubrec.reasonCode)
      (hl : p.state.lookup .publishQos2 pubrec.packetId = some i)
      (hst : ∀ kind pid j, st.lookup kind pid = some j → p.state.lookup kind pid = some j)
      (heq : p' = { p with state := st }.setFuture i (.exception (.publishError pubrec)))
  | accepts (pubrec : PubAck) (owner : Nat) (st : SessionState) (hpacket : packet = .pubrec pubrec)
      (hst : ∀ kind pid j, st.lookup kind pid = some j → p.state.lookup kind pid = some j)
      (heq : p' = { p with
        state := st
        readLoop := .sendingPubrel
        written := (.pubrel { packetId := pubrec.packetId }, some owner) :: p.written })

theorem dispatched_of_ok {p p' : Protocol} {packet : Packet} (h : p.dispatch packet = .ok p') :
    Dispatched p packet p' := by
  have hpop : ∀ {kind : CallKind} {pid : Int} kind' pid' j,
      (p.state.popRelease kind pid).lookup kind' pid' = some j →
        p.state.lookup kind' pid' = some j := fun _ _ _ hl => SessionState.lookup_of_popRelease hl
  unfold Protocol.dispatch at h
  split at h
  · exact .nothing rfl (Except.ok.inj h).symm
  · exact .nothing rfl (Except.ok.inj h).symm
  · exact .nothing rfl (Except.ok.inj h).symm
  · next packet =>
    unfold Protocol.handlePuback at h
    split at h
    · cases h
    · next i hl =>
      exact .answers .publishQos1 packet.packetId i _ rfl hl hpop (Except.ok.inj h).symm
  · next packet =>
    unfold Protocol.handlePubrec at h
    split at h
    · cases h
    · next flight hf =>
      have hl : p.state.lookup .publishQos2 packet.packetId = some flight.call := by
        rw [SessionState.lookup, hf]
        rfl
      split at h
      · cases h
      · split at h
        · next hcode => exact .refuses packet flight.call _ rfl hcode hl hpop (Except.ok.inj h).symm
        · refine .accepts packet flight.call _ rfl (fun kind pid j hj => ?_) (Except.ok.inj h).symm
          cases kind with
          | publishQos1 | subscribe | unsubscribe => exact hj
          | publishQos2 =>
            rw [SessionState.lookup, Dict.get?_set] at hj
            split at hj
            · next he =>
              rw [← he, hl, ← hj]
              rfl
            · exact hj
  · next packet =>
    unfold Protocol.handlePubcomp at h
    split at h
    · cases h
    · next flight hf =>
      refine .answers .publishQos2 packet.packetId flight.call _ rfl ?_ hpop (Except.ok.inj h).symm
      rw [SessionState.lookup, hf]
      rfl
  · next packet =>
    unfold Protocol.handleSuback at h
    split at h
    · cases h
    · next i hl =>
      exact .answers .subscribe packet.packetId i p.state rfl hl (fun _ _ _ hj => hj)
        (Logged.setResult_eq h)
  · next packet =>
    unfold Protocol.handleUnsuback at h
    split at h
    · cases h
    · next i hl =>
      exact .answers .unsubscribe packet.packetId i p.state rfl hl (fun _ _ _ hj => hj)
        (Logged.setResult_eq h)
  · cases h
  · split at h
    · cases h
    · exact .nothing rfl (Except.ok.inj h).symm
  all_goals cases h

/-! ## The invariant -/

namespace Logged

variable {s s' : Logged} {i : Nat} {kind : CallKind} {pid : Int} {packet : Packet}
  {new : List Happening}

/-- A step that takes no answer. -/
theorem OutcomeInv.goesOn (h : s.OutcomeInv) (hown : s'.protocol.OwnershipInv)
    (hgoes : GoesOn s.protocol s'.protocol) (hlog : s'.log = new ++ s.log)
    (hnew : s'.protocol.readLoop ≠ .stopped → ∀ reply, .received reply ∈ new →
      ∀ (kind : CallKind) pid, replyOf reply ≠ some (kind.answer, pid)) : s'.OutcomeInv := by
  refine ⟨hown, fun i c' hc' hsent => ?_⟩
  obtain ⟨c, hc, hadv, hfilters, hfuture⟩ := hgoes.calls i c' hc'
  have hcaused := h.calls i c hc fun hu => hsent (hadv.unsent hu)
  refine ⟨fun hloop hpending hl => ?_, ?_, Call.Ends.advances hcaused.ended hadv hfilters⟩
  · have hwas : c.future = .pending := by
      rcases hfuture with heq | ⟨hp, -⟩
      · rw [← heq]
        exact hpending
      · exact hp
    rw [hadv.kind, hadv.pid] at hl ⊢
    exact (hcaused.asked (hgoes.loop hloop) hwas (hgoes.entries _ _ _ hl)).mono hlog
      fun reply hr => hnew hloop reply hr _ _
  · rcases hfuture with heq | ⟨-, heq | ⟨heq, hdead⟩⟩
    · exact hcaused.future.mono hlog hgoes.dead hadv.kind hadv.pid heq
    · rw [FutureCaused, heq]
      trivial
    · rw [FutureCaused, heq]
      exact hdead

/-- A call that the step leaves alone. -/
theorem Caused.mono {c : Call} (h : s.Caused i c)
    (hloop : s'.protocol.readLoop ≠ .stopped → s.protocol.readLoop ≠ .stopped)
    (hdead : s.protocol.dead = true → s'.protocol.dead = true)
    (hentry : s'.protocol.state.lookup c.kind c.pid = some i →
      s.protocol.state.lookup c.kind c.pid = some i)
    (hlog : s'.log = new ++ s.log)
    (hnew : c.future = .pending → s'.protocol.state.lookup c.kind c.pid = some i →
      ∀ reply, .received reply ∈ new → replyOf reply ≠ some (c.kind.answer, c.pid)) :
    s'.Caused i c := by
  refine ⟨fun hl hpending he => ?_, h.future.mono hlog hdead rfl rfl rfl, h.ended⟩
  exact (h.asked (hloop hl) hpending (hentry he)).mono hlog (hnew hpending he)

/-- A new call. -/
theorem OutcomeInv.append (h : s.OutcomeInv) (hown : s'.protocol.OwnershipInv) {c' : Call}
    (hcalls : s'.protocol.calls = s.protocol.calls ++ [c'])
    (hloop : s'.protocol.readLoop = s.protocol.readLoop)
    (hdead : s'.protocol.dead = s.protocol.dead)
    (hentries : ∀ kind pid j, s'.protocol.state.lookup kind pid = some j →
      j = s.protocol.calls.length ∨ s.protocol.state.lookup kind pid = some j)
    (hlog : s'.log = new ++ s.log) (hnew : ∀ reply, .received reply ∉ new)
    (hcaused : ¬ c'.Unsent → s'.Caused s.protocol.calls.length c') : s'.OutcomeInv := by
  refine ⟨hown, fun i c hc hsent => ?_⟩
  rw [hcalls] at hc
  rcases getElem?_concat_cases hc with hold | ⟨hi, rfl⟩
  · refine (h.calls i c hold hsent).mono (fun hl => by rwa [hloop] at hl)
      (fun hd => by rw [hdead]; exact hd) (fun he => ?_) hlog fun _ _ reply hr => ?_
    · have hlt := (List.getElem?_eq_some_iff.1 hold).1
      exact (hentries _ _ _ he).resolve_left (Nat.ne_of_lt hlt)
    · exact absurd hr (hnew reply)
  · rw [hi]
    exact hcaused hsent

/-- A call starts: its request is in the log once its packet is sent. -/
theorem OutcomeInv.startCall (h : s.OutcomeInv) (hown : s'.protocol.OwnershipInv)
    {filters : List String} {packetOf : Int → Packet}
    (hrequest : ∀ pid, requestOf (packetOf pid) = some (kind.asks, pid))
    (hstep : s'.protocol = s.protocol.startCall kind filters packetOf)
    (hlog : s'.log = s.protocol.writtenSince s'.protocol ++ s.log) : s'.OutcomeInv := by
  have hregister : ∀ (pid : Int) (pool : PacketIdPool) kind' pid' j,
      (({ s.protocol.state with packetIds := pool } : SessionState).register kind pid
        s.protocol.calls.length).lookup kind' pid' = some j →
      j = s.protocol.calls.length ∨ s.protocol.state.lookup kind' pid' = some j := by
    intro pid pool kind' pid' j hl
    rw [SessionState.lookup_register, SessionState.lookup_packetIds] at hl
    split at hl
    · exact Or.inl (Option.some.inj hl).symm
    · exact Or.inr hl
  rcases s.protocol.startCall_cases kind filters packetOf with
    heq | ⟨pid, pool, -, ⟨e, -, heq⟩ | ⟨-, heq⟩⟩
  · rw [heq] at hstep
    refine h.goesOn hown ?_ hlog fun _ reply hr => ?_
    · rw [hstep]
      exact goesOn_refl _
    · rw [writtenSince_of_eq (by rw [hstep])] at hr
      cases hr
  · rw [heq] at hstep
    rw [writtenSince_of_eq (by rw [hstep])] at hlog
    refine h.append hown (congrArg Protocol.calls hstep) (by rw [hstep]) (by rw [hstep])
      (fun kind' pid' j hl => ?_) hlog (fun _ hr => by cases hr)
      fun hsent => absurd ⟨e, rfl⟩ hsent
    rw [hstep] at hl
    exact hregister pid pool kind' pid' j (Protocol.lookup_of_cleanup hl)
  · rw [heq] at hstep
    rw [writtenSince_of_cons (congrArg Protocol.written hstep)] at hlog
    refine h.append hown (congrArg Protocol.calls hstep) (by rw [hstep]) (by rw [hstep])
      (fun kind' pid' j hl => ?_) hlog
      (fun reply hr => by cases List.mem_singleton.1 hr) fun _ => ?_
    · rw [hstep] at hl
      exact hregister pid pool kind' pid' j hl
    · refine ⟨fun _ _ _ => ?_, trivial, fun _ hpc => by cases hpc⟩
      exact ⟨[], packetOf pid, s.log, hlog, hrequest pid, fun _ hr => by cases hr⟩

/-- A reply finds the entry of a call whose future is pending. -/
theorem OutcomeInv.tells (h : s.OutcomeInv) (hown : s'.protocol.OwnershipInv)
    {future : FutureState} {st : SessionState} (hloop : s.protocol.readLoop ≠ .stopped)
    (hl : s.protocol.state.lookup kind pid = some i)
    (hst : ∀ kind pid j, st.lookup kind pid = some j → s.protocol.state.lookup kind pid = some j)
    (hstep : s'.protocol = { s.protocol with state := st }.setFuture i future)
    (hlog : s'.log = [.received packet] ++ s.log) (hdone : future ≠ .pending)
    (hreply : ∀ (kind' : CallKind) pid', replyOf packet = some (kind'.answer, pid') →
      kind' = kind ∧ pid' = pid)
    (hcaused : ∀ c : Call, c.kind = kind → c.pid = pid → c.future = future → s.Asked kind pid i →
      s'.FutureCaused i c) : s'.OutcomeInv := by
  have hentries : ∀ kind pid j, s'.protocol.state.lookup kind pid = some j →
      s.protocol.state.lookup kind pid = some j := by
    intro kind pid j hj
    rw [hstep, Protocol.state_setFuture] at hj
    exact hst kind pid j hj
  refine ⟨hown, fun j c' hc' hsent => ?_⟩
  rw [hstep] at hc'
  obtain ⟨c, hc, hadv, hfilters, hcase⟩ := advances_setFuture hc'
  have hold := h.calls j c hc fun hu => hsent (hadv.unsent hu)
  rcases hcase with rfl | ⟨rfl, hpending, hfuture⟩
  · refine hold.mono (fun _ => hloop) (fun hd => ?_) (hentries _ _ _) hlog fun hpending he reply hr => ?_
    · rw [hstep, Interests.dead_setFuture]
      exact hd
    · -- the entry that the reply finds is that of call `i`, whose future is done now
      intro heq
      rw [Happening.received.inj (List.mem_singleton.1 hr)] at heq
      obtain ⟨hkind, hpid⟩ := hreply _ _ heq
      have hj := hentries _ _ _ he
      rw [hkind, hpid, hl] at hj
      exact Protocol.calls_setFuture_done _ i future hdone hc' (Or.inl (Option.some.inj hj).symm)
        hpending
  · obtain ⟨d, hd, hkind, hpid⟩ := h.owned.entries kind pid j hl
    obtain rfl := Option.some.inj (hc.symm.trans hd)
    have hasked := hold.asked hloop hpending (by rw [hkind, hpid]; exact hl)
    rw [hkind, hpid] at hasked
    refine ⟨fun _ hp => ?_, ?_, Call.Ends.advances hold.ended hadv hfilters⟩
    · exact absurd (hfuture.symm.trans hp) hdone
    · exact hcaused c' (hadv.kind.trans hkind) (hadv.pid.trans hpid) hfuture hasked

/-- The tables and calls stay, up to entries that leave. -/
theorem goesOn_of_calls {p p' : Protocol} (hcalls : p'.calls = p.calls) (hdead : p'.dead = p.dead)
    (hloop : p'.readLoop ≠ .stopped → p.readLoop ≠ .stopped)
    (hentries : ∀ kind pid i, p'.state.lookup kind pid = some i →
      p.state.lookup kind pid = some i) : GoesOn p p' := by
  refine ⟨hloop, fun hd => by rw [hdead]; exact hd, hentries, fun i c hc => ?_⟩
  rw [hcalls] at hc
  exact ⟨c, hc, c.advances_refl, rfl, Or.inl rfl⟩

theorem answer_injective {kind kind' : CallKind} (h : kind.answer = kind'.answer) : kind = kind' := by
  cases kind <;> cases kind' <;> first | rfl | cases h

theorem answer_ne_pubrec (kind : CallKind) : kind.answer ≠ .pubrec := by
  cases kind <;> decide

/-- The read loop takes a packet. -/
theorem OutcomeInv.received (h : s.OutcomeInv) (packet : Packet) :
    (s.step (.receive packet)).OutcomeInv := by
  have hown : (s.step (.receive packet)).protocol.OwnershipInv :=
    h.owned.step (.receive packet)
  cases hloop : s.protocol.readLoop with
  | sendingPubrel | stopped =>
    have hsame : s.protocol.step (.receive packet) = s.protocol := by
      rw [Protocol.step, Protocol.receive, hloop]
    have hgoes : GoesOn s.protocol (s.protocol.step (.receive packet)) := by
      rw [hsame]
      exact goesOn_refl _
    have htaken : s.protocol.taken (.receive packet) = [] := by
      unfold Protocol.taken
      rw [hloop]
    refine @OutcomeInv.goesOn s _ [] h hown hgoes ?_ fun _ _ hr => by cases hr
    rw [log_step, writtenSince_of_eq (by rw [hsame]), htaken]
    rfl
  | reading =>
    have hreading : s.protocol.readLoop ≠ .stopped := by rw [hloop]; decide
    have htaken := taken_of_reading hloop packet
    cases hd : s.protocol.dispatch packet with
    | error e =>
      have hstep := step_of_error hloop hd
      have hgoes : GoesOn s.protocol (s.protocol.step (.receive packet)) := by
        rw [hstep]
        exact goesOn_of_calls rfl rfl (fun _ => hreading) fun _ _ _ hl => hl
      refine @OutcomeInv.goesOn s _ [.received packet] h hown hgoes ?_ fun hne => absurd ?_ hne
      · rw [log_step, writtenSince_of_eq (by rw [hstep]), htaken]
        rfl
      · exact congrArg Protocol.readLoop hstep
    | ok p =>
      have hstep := step_of_dispatch hloop hd
      have hlog : p.written = s.protocol.written →
          (s.step (.receive packet)).log = [.received packet] ++ s.log := by
        intro hw
        rw [log_step, writtenSince_of_eq (by rw [hstep, hw]), htaken]
        rfl
      cases dispatched_of_ok hd with
      | nothing hreply heq =>
        rw [heq] at hstep
        have hgoes : GoesOn s.protocol (s.protocol.step (.receive packet)) := by
          rw [hstep]
          exact goesOn_refl _
        refine h.goesOn hown hgoes (hlog (by rw [heq])) fun _ reply hr kind pid => ?_
        rw [Happening.received.inj (List.mem_singleton.1 hr), hreply]
        exact Option.some_ne_none _ |>.symm
      | answers kind pid i st hreply hl hst heq =>
        refine h.tells hown hreading hl hst (hstep.trans heq) (hlog ?_)
          (fun hp => by cases hp) ?_ ?_
        · rw [heq, Protocol.written_setFuture]
        · intro kind' pid' hr
          rw [hreply] at hr
          obtain ⟨hk, hp⟩ := Prod.mk.inj (Option.some.inj hr)
          exact ⟨(answer_injective hk).symm, hp.symm⟩
        · intro c hkind hpid hfuture hasked
          rw [FutureCaused, hfuture, hkind, hpid]
          refine hasked.told (hlog ?_) hreply
          rw [heq, Protocol.written_setFuture]
      | refuses pubrec i st hpacket hcode hl hst heq =>
        have hreply : replyOf packet = some (.pubrec, pubrec.packetId) := by rw [hpacket]; rfl
        refine h.tells hown hreading hl hst (hstep.trans heq) (hlog ?_)
          (fun hp => by cases hp) ?_ ?_
        · rw [heq, Protocol.written_setFuture]
        · intro kind' pid' hr
          rw [hreply] at hr
          exact absurd (Prod.mk.inj (Option.some.inj hr)).1.symm (answer_ne_pubrec kind')
        · intro c hkind hpid hfuture hasked
          rw [FutureCaused, hfuture, hkind, hpid]
          refine ⟨rfl, hcode, ?_⟩
          rw [← hpacket]
          refine hasked.told (hlog ?_) hreply
          rw [heq, Protocol.written_setFuture]
      | accepts pubrec owner st hpacket hst heq =>
        rw [heq] at hstep
        have hgoes : GoesOn s.protocol (s.protocol.step (.receive packet)) := by
          rw [hstep]
          exact goesOn_of_calls rfl rfl (fun _ => hreading) hst
        refine @OutcomeInv.goesOn s _ [.sent (.pubrel { packetId := pubrec.packetId })
          (some owner), .received packet] h hown hgoes ?_ fun _ reply hr kind pid => ?_
        · rw [log_step, writtenSince_of_cons (congrArg Protocol.written hstep), htaken]
          rfl
        · rcases List.mem_cons.1 hr with hr | hr
          · cases hr
          · rw [Happening.received.inj (List.mem_singleton.1 hr), hpacket]
            intro he
            exact answer_ne_pubrec kind (Prod.mk.inj (Option.some.inj he)).1.symm

/-- **One step keeps the causes.** -/
theorem OutcomeInv.step (h : s.OutcomeInv) (e : ProtocolEvent) : (s.step e).OutcomeInv := by
  have hown : (s.step e).protocol.OwnershipInv := h.owned.step e
  have hsilent : (s.protocol.step e).written = s.protocol.written → s.protocol.taken e = [] →
      GoesOn s.protocol (s.protocol.step e) → (s.step e).OutcomeInv := by
    intro hw htaken hgoes
    refine @OutcomeInv.goesOn s _ [] h hown hgoes ?_ fun _ _ hr => by cases hr
    rw [log_step, writtenSince_of_eq hw, htaken]
    rfl
  cases e with
  | publish packet =>
    have hcall : ∀ kind : CallKind, (∀ pid, requestOf (.publish { packet with packetId := some pid }) =
        some (kind.asks, pid)) → s.protocol.publish packet = s.protocol.startCall kind [] (fun pid =>
          .publish { packet with packetId := some pid }) → (s.step (.publish packet)).OutcomeInv :=
      fun kind hrequest heq => h.startCall hown hrequest heq rfl
    have hsame : s.protocol.publish packet = s.protocol → (s.step (.publish packet)).OutcomeInv := by
      intro heq
      have heq' : s.protocol.step (.publish packet) = s.protocol := heq
      refine hsilent (by rw [heq']) rfl ?_
      rw [heq']
      exact goesOn_refl _
    by_cases hrefused : s.protocol.dead ∨ packet.qos.val > s.protocol.maxPublishQos.val
    · exact hsame (if_pos hrefused)
    · cases hqos : packet.qos with
      | atMostOnce =>
        cases henc : encode (.publish packet) s.protocol.version with
        | error e => exact hsame (by rw [Protocol.publish, if_neg hrefused]; simp only [hqos, henc])
        | ok bytes =>
          have hstep : s.protocol.step (.publish packet) =
              { s.protocol with written := (.publish packet, none) :: s.protocol.written } := by
            rw [Protocol.step, Protocol.publish, if_neg hrefused]
            simp only [hqos, henc]
          have hgoes : GoesOn s.protocol (s.protocol.step (.publish packet)) := by
            rw [hstep]
            exact goesOn_of_calls rfl rfl id fun _ _ _ hl => hl
          refine @OutcomeInv.goesOn s _ [.sent (.publish packet) none] h hown hgoes ?_
            fun _ _ hr => by cases List.mem_singleton.1 hr
          rw [log_step, writtenSince_of_cons (congrArg Protocol.written hstep)]
          rfl
      | atLeastOnce =>
        refine hcall .publishQos1 (fun pid => ?_) ?_
        · simp only [requestOf, hqos]
          rfl
        · rw [Protocol.publish, if_neg hrefused]
          simp only [hqos]
      | exactlyOnce =>
        refine hcall .publishQos2 (fun pid => ?_) ?_
        · simp only [requestOf, hqos]
          rfl
        · rw [Protocol.publish, if_neg hrefused]
          simp only [hqos]
  | sendSubscribe filters identifier =>
    exact @OutcomeInv.startCall s _ .subscribe h hown _ _ (fun _ => rfl) rfl rfl
  | sendUnsubscribe filters =>
    exact @OutcomeInv.startCall s _ .unsubscribe h hown _ _ (fun _ => rfl) rfl rfl
  | resume i written => exact hsilent (Protocol.written_resume _ i written) rfl (goesOn_resume _ i written)
  | cancel i => exact hsilent (Protocol.written_cancel _ i) rfl (goesOn_cancel _ i)
  | receive packet => exact h.received packet
  | resumeReadLoop written =>
    refine hsilent ?_ rfl ?_
    · rw [Protocol.step, Protocol.resumeReadLoop]
      split <;> rfl
    · rw [Protocol.step, Protocol.resumeReadLoop]
      split
      · next hloop =>
        refine goesOn_of_calls rfl rfl (fun _ => ?_) fun _ _ _ hl => hl
        rw [hloop]
        decide
      · exact goesOn_refl _
      · exact goesOn_refl _
  | runExit => exact hsilent (Protocol.written_runExit _) rfl (goesOn_runExit _)

theorem outcomeInv_fresh (version : Version) (maxPublishQos : QoS) :
    (fresh version maxPublishQos).OutcomeInv :=
  ⟨Protocol.ownershipInv_fresh version maxPublishQos, fun _ _ hc => by cases hc⟩

/-- What the outcome of a future goes back to. -/
theorem FutureCaused.causes {c : Call} (h : s.FutureCaused i c) (hdone : c.future ≠ .pending) :
    s.Causes i c (Protocol.outcomeOf c) := by
  unfold FutureCaused at h
  unfold Protocol.outcomeOf
  cases hf : c.future with
  | pending => exact absurd hf hdone
  | cancelled => exact Or.inr hf
  | exception e =>
    rw [hf] at h
    cases e with
    | publishError p => exact ⟨h.2.1, Or.inr ⟨h.1, h.2.2⟩⟩
    | disconnected => exact h
    | encode _ | write => trivial
    | subscribeError _ => exact h.elim
  | result packet =>
    rw [hf] at h
    have htold : s.Told c.kind c.kind.answer c.pid i packet := h
    have hreply := htold.reply
    have hkind : ∀ (kind : CallKind) (pid : Int), replyOf packet = some (kind.answer, pid) →
        c.kind = kind := by
      intro kind pid hr
      rw [hreply] at hr
      exact answer_injective (Prod.mk.inj (Option.some.inj hr)).1
    dsimp only
    split
    · next p hk =>
      rw [hk] at htold
      split
      · next hcode => exact ⟨hcode, Or.inl ⟨hk, by rw [hk]; exact htold⟩⟩
      · next hcode =>
        refine ⟨by rw [hk]; exact htold, fun p' he => ?_, fun p' he => (by cases he)⟩
        rw [← Packet.puback.inj he]
        exact Int.not_le.1 hcode
    · next p hk =>
      rw [hk] at htold
      split
      · next hrejected => exact ⟨hk, hrejected, p, by rw [hk]; exact htold, rfl⟩
      · next hnone =>
        refine ⟨by rw [hk]; exact htold, fun p' he => (by cases he), fun p' he => ?_⟩
        rw [← Packet.suback.inj he]
        exact not_not.1 hnone
    · next hpublish hsubscribe =>
      refine ⟨htold, fun p he => ?_, fun p he => ?_⟩
      · exact absurd he (hpublish p (hkind .publishQos1 p.packetId (by rw [he]; rfl)))
      · exact absurd he (hsubscribe p (hkind .subscribe p.packetId (by rw [he]; rfl)))

/-- **Every outcome has its cause.** In every state of a connection, over any interleaving of
    calls, cancellations and packets of any broker: a call that returned was told so by the first
    reply of its type and packet id after its request, a call that raised a refusal has it from
    such a reply, and one that raised `MQTTDisconnectedError` from the exit of `run()`. -/
theorem outcomes_caused (version : Version) (maxPublishQos : QoS) (s : Logged)
    (h : Reach step anyStep (fresh version maxPublishQos) s) (i : Nat) (c : Call)
    (outcome : Outcome) (hc : s.protocol.calls[i]? = some c) (hpc : c.pc = .finished outcome) :
    s.Causes i c outcome := by
  have hinv : s.OutcomeInv :=
    Reach.invariant h (outcomeInv_fresh version maxPublishQos) fun s e hs _ => hs.step e
  by_cases hsent : c.Unsent
  · obtain ⟨e, he⟩ := hsent
    rw [he] at hpc
    rw [← Pc.finished.inj hpc]
    trivial
  · have hcaused := hinv.calls i c hc hsent
    rcases hcaused.ended outcome hpc with rfl | ⟨rfl, hcancel⟩ | ⟨hdone, rfl⟩
    · trivial
    · exact Or.inl hcancel
    · exact hcaused.future.causes hdone

/-- A publish is confirmed, and a subscription is refused for one of its two filters. -/
def refusedRun : List ProtocolEvent :=
  [.publish { topic := "t", payload := [], qos := .atLeastOnce, retain := false, dup := false },
    .sendSubscribe [{ topicFilter := "a", qos := .atMostOnce },
      { topicFilter := "b", qos := .atMostOnce }] none,
    .resume 0 true, .resume 1 true, .receive (.suback { packetId := 2, returnCodes := [0, 0x87] }),
    .receive (.puback { packetId := 1 }), .resume 1 true, .resume 0 true]

theorem outcomes_caused_refusedRun :
    let s := refusedRun.foldl step (fresh .v5 .exactlyOnce)
    let c : Call :=
      { kind := .subscribe, pid := 2, filters := ["a", "b"],
        future := .result (.suback { packetId := 2, returnCodes := [0, 0x87] }),
        pc := .finished (.raised (.subscribeError [("b", 0x87)])) }
    s.protocol.calls[1]? = some c ∧ s.Causes 1 c (.raised (.subscribeError [("b", 0x87)])) := by
  intro s c
  have hc : s.protocol.calls[1]? = some c := by decide +kernel
  exact ⟨hc, outcomes_caused .v5 .exactlyOnce s (Reach.foldl (meets_anyStep refusedRun)) 1 c
    (.raised (.subscribeError [("b", 0x87)])) hc rfl⟩

end Logged

end Zmqtt
