/-
  Attribution of acknowledgements on one connection with a conforming broker: a reply is
  dispatched without an exception and completes no call but the one it answers
  (`RepliesAttributed`).

  The code does not keep this when a subscribe or unsubscribe call is cancelled while its
  reply is outstanding: the `finally` block forgets the request and frees its id
  (`replies_not_attributed`). It keeps it in every run without such a cancellation
  (`replies_attributed`); publish calls may be cancelled anywhere, their flights stay.
-/
import Zmqtt.Session.Broker

namespace Zmqtt

namespace Protocol

/-! ## A read loop that has ended stays so -/

theorem readLoop_startCall (s : Protocol) (kind : CallKind) (filters : List String)
    (packetOf : Int → Packet) : (s.startCall kind filters packetOf).readLoop = s.readLoop := by
  unfold Protocol.startCall
  repeat' split
  all_goals rfl

theorem readLoop_resume (s : Protocol) (i : Nat) (written : Bool) :
    (s.resume i written).readLoop = s.readLoop := by
  unfold Protocol.resume
  repeat' split
  all_goals rfl

theorem readLoop_cancel (s : Protocol) (i : Nat) : (s.cancel i).readLoop = s.readLoop := by
  unfold Protocol.cancel
  repeat' split
  all_goals rfl

theorem readLoop_runExit (s : Protocol) : s.runExit.readLoop = .stopped := by
  have hfold : ∀ (is : List Nat) (s : Protocol),
      (is.foldl (fun s i => s.setFuture i (.exception .disconnected)) s).readLoop =
        s.readLoop := by
    intro is
    induction is with
    | nil => intro s; rfl
    | cons i is ih => intro s; rw [List.foldl_cons, ih, readLoop_setFuture]
  exact hfold _ _

/-- No local step brings a read loop back that has ended. -/
theorem readLoop_step_stopped {s : Protocol} (h : s.readLoop = .stopped) {e : ProtocolEvent}
    (hloc : e.isLocal = true) : (s.step e).readLoop = .stopped := by
  cases e with
  | publish packet =>
    rw [Protocol.step, Protocol.publish]
    split
    · exact h
    · split
      · split <;> exact h
      · rw [readLoop_startCall]; exact h
      · rw [readLoop_startCall]; exact h
  | sendSubscribe filters identifier => exact (readLoop_startCall _ _ _ _).trans h
  | sendUnsubscribe filters => exact (readLoop_startCall _ _ _ _).trans h
  | resume i written => exact (readLoop_resume s i written).trans h
  | cancel i => exact (readLoop_cancel s i).trans h
  | receive packet => cases hloc
  | resumeReadLoop written => rw [Protocol.step, Protocol.resumeReadLoop, h]; exact h
  | runExit => exact readLoop_runExit s

end Protocol

/-! ## Exchanges on the wire -/

/-- The exchanges before the answer of the broker, up to the reply. -/
theorem Net.answer_cases (n : Net) (k : Nat) (reply : Packet) :
    n.answer k reply = n ∨ ∃ x, n.exchanges[k]? = some x ∧ x.reply = none ∧
      replyOf reply = some (x.stage, x.pid) ∧ (n.answer k reply).client = n.client ∧
      (n.answer k reply).exchanges = n.exchanges.set k { x with reply := some reply } := by
  unfold Net.answer
  split
  · exact Or.inl rfl
  · next x hx =>
    split
    · next hcond =>
      refine Or.inr ⟨x, hx, hcond.1, hcond.2, ?_, ?_⟩
      · dsimp only
        repeat' split
        all_goals rfl
      · dsimp only
        repeat' split
        all_goals rfl
    · exact Or.inl rfl

/-- A member of the list after an answer is one from before, with another reply. -/
theorem mem_set_reply {xs : List Exchange} {k : Nat} {x y : Exchange} {reply : Packet}
    (hx : xs[k]? = some x) (hy : y ∈ xs.set k { x with reply := some reply }) :
    (y ∈ xs) ∨ y = { x with reply := some reply } ∧ x ∈ xs := by
  rcases List.mem_or_eq_of_mem_set hy with hy | hy
  · exact Or.inl hy
  · exact Or.inr ⟨hy, List.mem_of_getElem? hx⟩

theorem map_set_reply {α : Type} {f : Exchange → α} {xs : List Exchange} {k : Nat} {x : Exchange}
    {reply : Packet} (hx : xs[k]? = some x) (hf : f { x with reply := some reply } = f x) :
    (xs.set k { x with reply := some reply }).map f = xs.map f := by
  have hk : (xs.map f)[k]? = some (f x) := by rw [List.getElem?_map, hx, Option.map_some]
  obtain ⟨hlt, he⟩ := List.getElem?_eq_some_iff.1 hk
  rw [List.map_set, hf, ← he]
  exact List.set_getElem_self hlt

theorem perm_eraseIdx {xs : List Exchange} {k : Nat} {x : Exchange} (hx : xs[k]? = some x) :
    xs.Perm (x :: xs.eraseIdx k) := by
  obtain ⟨hk, rfl⟩ := List.getElem?_eq_some_iff.1 hx
  exact (List.getElem_cons_eraseIdx_perm hk).symm

/-- The other exchanges have other ids. -/
theorem pid_ne_of_mem_eraseIdx {xs : List Exchange} {k : Nat} {x y : Exchange}
    (hn : (xs.map Exchange.pid).Nodup) (hx : xs[k]? = some x) (hy : y ∈ xs.eraseIdx k) :
    y.pid ≠ x.pid := by
  have hn' := ((perm_eraseIdx hx).map Exchange.pid).nodup_iff.1 hn
  rw [List.map_cons, List.nodup_cons] at hn'
  intro he
  exact hn'.1 (he ▸ List.mem_map_of_mem hy)

/-! ## The property and the condition -/

/-- Every reply that the read loop can take next is dispatched without an exception, and
    completes no call but the one whose request it answers. -/
def RepliesAttributed (n : Net) : Prop :=
  ∀ (k : Nat) (x : Exchange) (reply : Packet), n.exchanges[k]? = some x → x.reply = some reply →
    n.client.readLoop = .reading →
    ∃ s', n.client.dispatch reply = .ok s' ∧
      ∀ j, j ≠ x.owner → s'.calls[j]? = n.client.calls[j]?

/-- One connection. -/
def sameConnection (_ : Net) (e : NetEvent) : Prop := e ≠ .reconnect

/-- One connection, and no subscribe or unsubscribe call whose reply is outstanding is
    cancelled or fails in its write. -/
def noEarlyEnd (n : Net) (e : NetEvent) : Prop :=
  e ≠ .reconnect ∧ ∀ x ∈ n.exchanges, x.stage.hasFinally = true →
    e ≠ .client (.cancel x.owner) ∧ e ≠ .client (.resume x.owner false)

/-- The tables know the request of every exchange, one for each id, while the read loop
    runs. -/
structure Attributed (n : Net) : Prop where
  own : n.client.OwnershipInv
  replies : ∀ x ∈ n.exchanges, ∀ p, x.reply = some p → replyOf p = some (x.stage, x.pid)
  registered : n.client.readLoop ≠ .stopped →
    ∀ x ∈ n.exchanges, n.client.Registered x.stage x.pid x.owner
  nodup : n.client.readLoop ≠ .stopped → (n.exchanges.map Exchange.pid).Nodup

theorem Attributed.client {n : Net} (h : Attributed n) {e : ProtocolEvent} (hloc : e.isLocal = true)
    (hok : noEarlyEnd n (.client e)) :
    Attributed { n with
      client := n.client.step e
      exchanges := n.exchanges ++ newExchanges n.client (n.client.step e) } := by
  have hrun : (n.client.step e).readLoop ≠ .stopped → n.client.readLoop ≠ .stopped :=
    fun hs hn => hs (Protocol.readLoop_step_stopped hn hloc)
  have hold : (n.client.step e).readLoop ≠ .stopped → ∀ x ∈ n.exchanges,
      (n.client.step e).Registered x.stage x.pid x.owner := by
    intro hs x hx
    refine (h.registered (hrun hs) x hx).step h.own hloc fun hf => ?_
    refine ⟨fun he => (hok.2 x hx hf).1 (by rw [he]), fun he => (hok.2 x hx hf).2 (by rw [he]), ?_⟩
    rintro rfl
    exact hs (Protocol.readLoop_runExit _)
  rcases Protocol.opens_step h.own hloc with hnew | ⟨x, hnew, hrep, -, hfree, hreg⟩
  · rw [hnew, List.append_nil]
    exact ⟨h.own.step e, h.replies, hold, fun hs => h.nodup (hrun hs)⟩
  · rw [hnew]
    refine ⟨h.own.step e, ?_, ?_, ?_⟩
    · intro y hy p hp
      rcases List.mem_append.1 hy with hy | hy
      · exact h.replies y hy p hp
      · rw [List.mem_singleton.1 hy, hrep] at hp
        cases hp
    · intro hs y hy
      rcases List.mem_append.1 hy with hy | hy
      · exact hold hs y hy
      · rw [List.mem_singleton.1 hy]
        exact hreg
    · intro hs
      rw [List.map_append, List.nodup_append]
      refine ⟨h.nodup (hrun hs), List.nodup_singleton _, ?_⟩
      intro a ha b hb hab
      obtain ⟨y, hy, rfl⟩ := List.mem_map.1 ha
      rw [List.map_singleton, List.mem_singleton] at hb
      exact hfree (hb ▸ hab ▸ (h.registered (hrun hs) y hy).mem_ownedIds)

theorem Attributed.answer {n : Net} (h : Attributed n) (k : Nat) (reply : Packet) :
    Attributed (n.answer k reply) := by
  rcases n.answer_cases k reply with he | ⟨x, hx, hnone, hreply, hclient, hex⟩
  · rw [he]; exact h
  · refine ⟨by rw [hclient]; exact h.own, ?_, ?_, ?_⟩
    · rw [hex]
      intro y hy p hp
      rcases mem_set_reply hx hy with hy | ⟨rfl, -⟩
      · exact h.replies y hy p hp
      · obtain rfl := Option.some.inj hp
        exact hreply
    · rw [hclient, hex]
      intro hs y hy
      rcases mem_set_reply hx hy with hy | ⟨rfl, hmem⟩
      · exact h.registered hs y hy
      · exact h.registered hs x hmem
    · rw [hclient, hex, map_set_reply hx rfl]
      exact h.nodup

theorem Attributed.deliver {n : Net} (h : Attributed n) (k : Nat) : Attributed (n.deliver k) := by
  unfold Net.deliver
  split
  · exact h
  · next x hx =>
    split
    · exact h
    · next reply hrep =>
      split
      · next hreading =>
        have hs : n.client.readLoop ≠ .stopped := by rw [hreading]; decide
        have hmem := List.mem_of_getElem? hx
        have hreg := h.registered hs x hmem
        obtain ⟨s', hd, ha⟩ := hreg.dispatch (h.replies x hmem reply hrep)
        have hrecv : n.client.receive reply = s' := by
          rw [Protocol.receive, hreading]
          simp only [hd]
        have hother : ∀ y ∈ n.exchanges.eraseIdx k, s'.Registered y.stage y.pid y.owner := by
          intro y hy
          exact hreg.answered h.own (h.registered hs y (List.mem_of_mem_eraseIdx hy))
            (pid_ne_of_mem_eraseIdx (h.nodup hs) hx hy) ha
        have hnd : ((x :: n.exchanges.eraseIdx k).map Exchange.pid).Nodup :=
          ((perm_eraseIdx hx).map Exchange.pid).nodup_iff.1 (h.nodup hs)
        rw [List.map_cons, List.nodup_cons] at hnd
        rw [hrecv]
        rcases ha.written with hw | ⟨-, hw, hreg'⟩
        · rw [Protocol.newExchanges_of_written_eq hw, List.append_nil]
          exact ⟨h.own.dispatch hd, fun y hy => h.replies y (List.mem_of_mem_eraseIdx hy),
            fun _ => hother, fun _ => hnd.2⟩
        · -- the PUBREL takes the place of the PUBLISH under the same id
          rw [Protocol.newExchanges_of_written_pubrel hw]
          refine ⟨h.own.dispatch hd, ?_, ?_, ?_⟩
          · intro y hy p hp
            rcases List.mem_append.1 hy with hy | hy
            · exact h.replies y (List.mem_of_mem_eraseIdx hy) p hp
            · rw [List.mem_singleton.1 hy] at hp
              cases hp
          · intro _ y hy
            rcases List.mem_append.1 hy with hy | hy
            · exact hother y hy
            · rw [List.mem_singleton.1 hy]
              exact hreg'
          · intro _
            rw [List.map_append]
            have hperm := List.perm_append_singleton x.pid
              ((n.exchanges.eraseIdx k).map Exchange.pid)
            refine hperm.nodup_iff.2 ?_
            rw [List.nodup_cons]
            exact hnd
      · exact h

theorem attributed_fresh (version : Version) (maxPublishQos : QoS) :
    Attributed (Net.fresh version maxPublishQos) :=
  ⟨Protocol.ownershipInv_fresh _ _, by simp [Net.fresh], by simp [Net.fresh], by simp [Net.fresh]⟩

/-- **Attribution.** In every run on one connection in which no subscribe or unsubscribe
    call is cancelled (or fails in its write) while its reply is outstanding, every reply is
    dispatched without an exception and completes only the call it answers. -/
theorem replies_attributed (version : Version) (maxPublishQos : QoS) (n : Net)
    (h : Reach Net.step noEarlyEnd (Net.fresh version maxPublishQos) n) : RepliesAttributed n := by
  have hinv : Attributed n := by
    refine h.invariant (attributed_fresh version maxPublishQos) fun n e hn hok => ?_
    cases e with
    | client e =>
      rw [Net.step]
      split
      · next hloc => exact hn.client hloc hok
      · exact hn
    | answer k reply => exact hn.answer k reply
    | deliver k => exact hn.deliver k
    | reconnect => exact absurd rfl hok.1
  intro k x reply hx hrep hreading
  have hs : n.client.readLoop ≠ .stopped := by rw [hreading]; decide
  have hmem := List.mem_of_getElem? hx
  obtain ⟨s', hd, ha⟩ := (hinv.registered hs x hmem).dispatch (hinv.replies x hmem reply hrep)
  exact ⟨s', hd, ha.calls⟩

/-- A QoS 1 publish that is cancelled while the broker's PUBACK is on its way. -/
def sampleRun : List NetEvent :=
  [.client (.publish ⟨"a", [], .atLeastOnce, false, false, none, none⟩),
    .client (.resume 0 true), .client (.cancel 0), .answer 0 (.puback { packetId := 1 })]

theorem replies_attributed_sampleRun :
    (sampleRun.foldl Net.step (Net.fresh .v311 .exactlyOnce)).exchanges.length = 1 ∧
    RepliesAttributed (sampleRun.foldl Net.step (Net.fresh .v311 .exactlyOnce)) := by
  refine ⟨by decide +kernel, replies_attributed .v311 .exactlyOnce _ (Reach.foldl ?_)⟩
  have hstages : ∀ es ∈ [sampleRun.take 1, sampleRun.take 2, sampleRun.take 3],
      (es.foldl Net.step (Net.fresh .v311 .exactlyOnce)).exchanges.all
        (fun x => !x.stage.hasFinally) = true := by decide +kernel
  have hok : ∀ (n : Net) (e : NetEvent), n.exchanges.all (fun x => !x.stage.hasFinally) = true →
      e ≠ .reconnect → noEarlyEnd n e := by
    intro n e hall hne
    refine ⟨hne, fun x hx hf => ?_⟩
    have := List.all_eq_true.1 hall x hx
    rw [hf] at this
    cases this
  simp only [List.forall_mem_cons] at hstages
  obtain ⟨h1, h2, h3, -⟩ := hstages
  exact ⟨hok _ _ rfl (by simp), hok _ _ h1 (by simp), hok _ _ h2 (by simp), hok _ _ h3 (by simp),
    trivial⟩

/-- A subscribe call that is cancelled while it waits; the SUBACK arrives after the task has
    ended. -/
def lateSuback : List NetEvent :=
  [.client (.sendSubscribe [{ topicFilter := "a", qos := .atMostOnce }] none),
    .client (.resume 0 true), .client (.cancel 0), .client (.resume 0 true),
    .answer 0 (.suback { packetId := 1, returnCodes := [0] })]

/-- With a cancelled subscribe call the late SUBACK raises "unknown packet_id". -/
theorem replies_not_attributed :
    ¬ ∀ n, Reach Net.step sameConnection (Net.fresh .v311 .exactlyOnce) n → RepliesAttributed n := by
  intro h
  have hmeets : Meets Net.step sameConnection (Net.fresh .v311 .exactlyOnce) lateSuback := by
    simp [lateSuback, Meets, sameConnection]
  obtain ⟨s', hd, -⟩ := h _ (Reach.foldl hmeets) 0
    { stage := .suback, pid := 1, owner := 0,
      reply := some (.suback { packetId := 1, returnCodes := [0] }) }
    (.suback { packetId := 1, returnCodes := [0] }) (by rfl) rfl (by decide +kernel)
  have herr : (lateSuback.foldl Net.step (Net.fresh .v311 .exactlyOnce)).client.state.pendingSubs =
      [] := by decide +kernel
  rw [Protocol.dispatch, Protocol.handleSuback, herr] at hd
  cases hd

end Zmqtt
