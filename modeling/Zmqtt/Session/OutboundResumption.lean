/-
  Packet ids of QoS 2 publishes across reconnects with a resumed session. The broker keeps
  the ids of the PUBLISH packets it holds without a PUBREL; the client starts each
  connection with a fresh pool.

  When a connection ends while the broker holds such an id, the next connection can take
  the id for another message, which the broker then discards as a duplicate although
  `publish()` reports success (`qos2_ids_collide`). When every connection ends with no
  such id held, the tables of the current connection know all of them, and `acquire`
  avoids them (`qos2_ids_fresh`).
-/
import Zmqtt.Session.Attribution

namespace Zmqtt

/-- The stages of an outbound QoS 2 exchange. -/
def Stage.isQos2 : Stage → Bool
  | .pubrec | .pubcomp => true
  | .puback | .suback | .unsuback => false

theorem Stage.hasFinally_of_isQos2 {stage : Stage} (h : stage.isQos2 = true) :
    stage.hasFinally = false := by
  cases stage <;> first | rfl | cases h

/-- The exchange because of which the broker holds its id: a PUBREC that is not negative is
    on its way, or the PUBREL has not arrived. -/
def Exchange.Holds (x : Exchange) : Prop :=
  (x.stage = .pubrec ∧ ∃ p, x.reply = some (.pubrec p) ∧ ¬ p.reasonCode ≥ 0x80) ∨
    (x.stage = .pubcomp ∧ x.reply = none)

theorem Exchange.Holds.isQos2 {x : Exchange} (h : x.Holds) : x.stage.isQos2 = true := by
  rcases h with ⟨h, -⟩ | ⟨h, -⟩ <;> rw [h] <;> rfl

/-- Two QoS 2 exchanges have different ids. -/
def Apart (a b : Stage × Int) : Prop :=
  a.1.isQos2 = true → b.1.isQos2 = true → a.2 ≠ b.2

theorem Apart.symm {a b : Stage × Int} (h : Apart a b) : Apart b a :=
  fun hb ha he => h ha hb he.symm

/-- The stage and id of an exchange. -/
def Exchange.key (x : Exchange) : Stage × Int := (x.stage, x.pid)

/-- The tables of the current connection know every QoS 2 id the broker holds. -/
structure CollisionFree (n : Net) : Prop where
  own : n.client.OwnershipInv
  replies : ∀ x ∈ n.exchanges, ∀ p, x.reply = some p → replyOf p = some (x.stage, x.pid)
  registered : ∀ x ∈ n.exchanges, x.stage.isQos2 = true →
    n.client.Registered x.stage x.pid x.owner
  apart : (n.exchanges.map Exchange.key).Pairwise Apart
  held : ∀ pid ∈ n.unreleased, ∃ x ∈ n.exchanges, x.pid = pid ∧ x.Holds
  noneDiscarded : n.discarded = []

/-- Of the exchanges, one holds an id. -/
theorem CollisionFree.eq_of_pid {n : Net} (h : CollisionFree n) {x y : Exchange}
    (hx : x ∈ n.exchanges) (hy : y ∈ n.exchanges) (hxq : x.stage.isQos2 = true)
    (hyq : y.stage.isQos2 = true) (hpid : x.pid = y.pid) : x = y := by
  obtain ⟨i, hi⟩ := List.mem_iff_getElem?.1 hx
  obtain ⟨j, hj⟩ := List.mem_iff_getElem?.1 hy
  have hpw := List.pairwise_iff_getElem.1 (List.pairwise_map.1 h.apart)
  obtain ⟨hil, rfl⟩ := List.getElem?_eq_some_iff.1 hi
  obtain ⟨hjl, rfl⟩ := List.getElem?_eq_some_iff.1 hj
  rcases Nat.lt_trichotomy i j with hlt | rfl | hlt
  · exact absurd hpid (hpw i j hil hjl hlt hxq hyq)
  · rfl
  · exact absurd hpid.symm (hpw j i hjl hil hlt hyq hxq)

theorem CollisionFree.mem_ownedIds {n : Net} (h : CollisionFree n) {pid : Int}
    (hpid : pid ∈ n.unreleased) : pid ∈ n.client.state.ownedIds := by
  obtain ⟨x, hx, rfl, hh⟩ := h.held pid hpid
  exact (h.registered x hx hh.isQos2).mem_ownedIds

/-! ## Steps -/

theorem CollisionFree.client {n : Net} (h : CollisionFree n) {e : ProtocolEvent}
    (hloc : e.isLocal = true) :
    CollisionFree { n with
      client := n.client.step e
      exchanges := n.exchanges ++ newExchanges n.client (n.client.step e) } := by
  have hold : ∀ x ∈ n.exchanges, x.stage.isQos2 = true →
      (n.client.step e).Registered x.stage x.pid x.owner := by
    intro x hx hq
    refine (h.registered x hx hq).step h.own hloc fun hf => ?_
    rw [Stage.hasFinally_of_isQos2 hq] at hf
    cases hf
  rcases Protocol.opens_step h.own hloc with hnew | ⟨x, hnew, hrep, -, hfree, hreg⟩
  · rw [hnew, List.append_nil]
    exact ⟨h.own.step e, h.replies, hold, h.apart, h.held, h.noneDiscarded⟩
  · rw [hnew]
    refine ⟨h.own.step e, ?_, ?_, ?_, ?_, h.noneDiscarded⟩
    · intro y hy p hp
      rcases List.mem_append.1 hy with hy | hy
      · exact h.replies y hy p hp
      · rw [List.mem_singleton.1 hy, hrep] at hp
        cases hp
    · intro y hy hq
      rcases List.mem_append.1 hy with hy | hy
      · exact hold y hy hq
      · rw [List.mem_singleton.1 hy]
        exact hreg
    · rw [List.map_append, List.pairwise_append]
      refine ⟨h.apart, List.pairwise_singleton _ _, ?_⟩
      intro a ha b hb
      obtain ⟨y, hy, rfl⟩ := List.mem_map.1 ha
      rw [List.map_singleton, List.mem_singleton] at hb
      subst hb
      intro hyq _ he
      have hpid : y.pid = x.pid := he
      have hmem := (h.registered y hy hyq).mem_ownedIds
      rw [hpid] at hmem
      exact hfree hmem
    · intro pid hpid
      obtain ⟨y, hy, hyp, hh⟩ := h.held pid hpid
      exact ⟨y, List.mem_append_left _ hy, hyp, hh⟩

/-- An exchange other than the answered one stays. -/
theorem mem_set_of_ne {xs : List Exchange} {k : Nat} {x y z : Exchange} (hx : xs[k]? = some x)
    (hy : y ∈ xs) (hne : y ≠ x) : y ∈ xs.set k z := by
  obtain ⟨j, hj⟩ := List.mem_iff_getElem?.1 hy
  have hkj : k ≠ j := by
    rintro rfl
    rw [hx] at hj
    exact hne (Option.some.inj hj).symm
  exact List.mem_iff_getElem?.2 ⟨j, by rw [List.getElem?_set_ne hkj, hj]⟩

/-- What the broker keeps after it answered a request. -/
theorem Net.answer_kept {n : Net} {k : Nat} {reply : Packet} {x : Exchange}
    (hx : n.exchanges[k]? = some x) (hnone : x.reply = none)
    (hreply : replyOf reply = some (x.stage, x.pid))
    (hfresh : x.stage = .pubrec → x.pid ∉ n.unreleased) :
    (n.answer k reply).discarded = n.discarded ∧
      ∀ pid ∈ (n.answer k reply).unreleased,
        (pid = x.pid ∧ ({ x with reply := some reply } : Exchange).Holds) ∨
        (pid ∈ n.unreleased ∧ (x.stage = .pubcomp → pid ≠ x.pid)) := by
  unfold Net.answer
  rw [hx]
  dsimp only
  rw [if_pos ⟨hnone, hreply⟩]
  split
  · next p hst =>
    rw [if_neg (hfresh hst)]
    split
    · exact ⟨rfl, fun pid hpid => Or.inr ⟨hpid, fun he => by rw [hst] at he; cases he⟩⟩
    · next hneg =>
      refine ⟨rfl, fun pid hpid => ?_⟩
      rcases Finset.mem_insert.1 hpid with rfl | hpid
      · exact Or.inl ⟨rfl, Or.inl ⟨hst, p, rfl, hneg⟩⟩
      · exact Or.inr ⟨hpid, fun he => by rw [hst] at he; cases he⟩
  · refine ⟨rfl, fun pid hpid => Or.inr ?_⟩
    obtain ⟨hne, hpid⟩ := Finset.mem_erase.1 hpid
    exact ⟨hpid, fun _ => hne⟩
  · next hcomp _ =>
    refine ⟨rfl, fun pid hpid => Or.inr ⟨hpid, fun he => ?_⟩⟩
    exact absurd he hcomp

theorem CollisionFree.answer {n : Net} (h : CollisionFree n) (k : Nat) (reply : Packet) :
    CollisionFree (n.answer k reply) := by
  rcases n.answer_cases k reply with he | ⟨x, hx, hnone, hreply, hclient, hex⟩
  · rw [he]; exact h
  · have hmem := List.mem_of_getElem? hx
    -- an id held by the broker belongs to an exchange in another stage than this one
    have hfresh : x.stage = .pubrec → x.pid ∉ n.unreleased := by
      intro hst hin
      obtain ⟨y, hy, hyp, hh⟩ := h.held x.pid hin
      have hxq : x.stage.isQos2 = true := by rw [hst]; rfl
      obtain rfl := h.eq_of_pid hy hmem hh.isQos2 hxq hyp
      rcases hh with ⟨-, p, hp, -⟩ | ⟨hst', -⟩
      · rw [hnone] at hp; cases hp
      · rw [hst] at hst'; cases hst'
    obtain ⟨hdis, hunrel⟩ := Net.answer_kept hx hnone hreply hfresh
    refine ⟨by rw [hclient]; exact h.own, ?_, ?_, ?_, ?_, hdis.trans h.noneDiscarded⟩
    · rw [hex]
      intro y hy p hp
      rcases mem_set_reply hx hy with hy | ⟨rfl, -⟩
      · exact h.replies y hy p hp
      · obtain rfl := Option.some.inj hp
        exact hreply
    · rw [hclient, hex]
      intro y hy hq
      rcases mem_set_reply hx hy with hy | ⟨rfl, -⟩
      · exact h.registered y hy hq
      · exact h.registered x hmem hq
    · rw [hex, map_set_reply hx rfl]
      exact h.apart
    · intro pid hpid
      rw [hex]
      rcases hunrel pid hpid with ⟨rfl, hh⟩ | ⟨hin, hne⟩
      · refine ⟨{ x with reply := some reply }, List.mem_iff_getElem?.2 ⟨k, ?_⟩, rfl, hh⟩
        rw [List.getElem?_set_self (List.getElem?_eq_some_iff.1 hx).1]
      · obtain ⟨y, hy, hyp, hh⟩ := h.held pid hin
        refine ⟨y, mem_set_of_ne hx hy ?_, hyp, hh⟩
        rintro rfl
        rcases hh with ⟨-, p, hp, -⟩ | ⟨hst, -⟩
        · rw [hnone] at hp; cases hp
        · exact hne hst hyp.symm

/-- The other replies do not touch the QoS 2 table and write nothing. -/
theorem Protocol.receive_of_not_qos2 {s : Protocol} {reply : Packet} {stage : Stage} {pid : Int}
    (hreply : replyOf reply = some (stage, pid)) (hq : stage.isQos2 = false) :
    (s.receive reply).state.inflightQos2Out = s.state.inflightQos2Out ∧
      (s.receive reply).written = s.written := by
  have hresult : ∀ {i : Nat} {s' : Protocol}, s.setResult i reply = .ok s' →
      s'.state.inflightQos2Out = s.state.inflightQos2Out ∧ s'.written = s.written := by
    intro i s' hs
    unfold Protocol.setResult at hs
    split at hs
    · cases hs
    · split at hs
      · cases hs; exact ⟨rfl, rfl⟩
      · cases hs
  unfold Protocol.receive
  split
  · split
    · next s' hd =>
      cases reply with
      | puback p =>
        rw [Protocol.dispatch, Protocol.handlePuback] at hd
        split at hd
        · cases hd
        · cases hd
          rw [Protocol.state_setFuture, Protocol.written_setFuture]
          exact ⟨rfl, rfl⟩
      | suback p =>
        rw [Protocol.dispatch, Protocol.handleSuback] at hd
        split at hd
        · cases hd
        · exact hresult hd
      | unsuback p =>
        rw [Protocol.dispatch, Protocol.handleUnsuback] at hd
        split at hd
        · cases hd
        · exact hresult hd
      | pubrec p => cases hreply; cases hq
      | pubcomp p => cases hreply; cases hq
      | publish p => cases hreply
      | pubrel p => cases hreply
      | connect p => cases hreply
      | connack p => cases hreply
      | subscribe p => cases hreply
      | unsubscribe p => cases hreply
      | pingreq => cases hreply
      | pingresp => cases hreply
      | disconnect p => cases hreply
      | auth p => cases hreply
    · exact ⟨rfl, rfl⟩
  · exact ⟨rfl, rfl⟩
  · exact ⟨rfl, rfl⟩

theorem Protocol.Registered.of_inflightQos2Out {s s' : Protocol} {stage : Stage} {pid : Int}
    {owner : Nat} (h : s.Registered stage pid owner) (hq : stage.isQos2 = true)
    (he : s'.state.inflightQos2Out = s.state.inflightQos2Out) :
    s'.Registered stage pid owner := by
  cases stage with
  | pubrec => simp only [Protocol.Registered] at h ⊢; rw [he, h]
  | pubcomp => simp only [Protocol.Registered] at h ⊢; rw [he, h]
  | puback => cases hq
  | suback => cases hq
  | unsuback => cases hq

theorem CollisionFree.deliver {n : Net} (h : CollisionFree n) (k : Nat) :
    CollisionFree (n.deliver k) := by
  unfold Net.deliver
  split
  · exact h
  · next x hx =>
    split
    · exact h
    · next reply hrep =>
      split
      · next hreading =>
        have hmem := List.mem_of_getElem? hx
        have hreply := h.replies x hmem reply hrep
        have hown := h.own.receive reply
        have hpw : ((x :: n.exchanges.eraseIdx k).map Exchange.key).Pairwise Apart :=
          ((perm_eraseIdx hx).map Exchange.key).pairwise h.apart (fun hab => hab.symm)
        rw [List.map_cons, List.pairwise_cons] at hpw
        have hreps : ∀ y ∈ n.exchanges.eraseIdx k, ∀ p, y.reply = some p →
            replyOf p = some (y.stage, y.pid) :=
          fun y hy => h.replies y (List.mem_of_mem_eraseIdx hy)
        have hkeep : ∀ pid ∈ n.unreleased, (x.pid = pid ∧ x.Holds) ∨
            ∃ y ∈ n.exchanges.eraseIdx k, y.pid = pid ∧ y.Holds := by
          intro pid hpid
          obtain ⟨y, hy, hyp, hh⟩ := h.held pid hpid
          rcases List.mem_cons.1 ((perm_eraseIdx hx).mem_iff.1 hy) with rfl | hy
          · exact Or.inl ⟨hyp, hh⟩
          · exact Or.inr ⟨y, hy, hyp, hh⟩
        by_cases hq : x.stage.isQos2 = true
        · have hreg := h.registered x hmem hq
          obtain ⟨s', hd, ha⟩ := hreg.dispatch hreply
          have hrecv : n.client.receive reply = s' := by
            rw [Protocol.receive, hreading]
            simp only [hd]
          have hother : ∀ y ∈ n.exchanges.eraseIdx k, y.stage.isQos2 = true →
              s'.Registered y.stage y.pid y.owner := by
            intro y hy hyq
            refine hreg.answered h.own (h.registered y (List.mem_of_mem_eraseIdx hy) hyq) ?_ ha
            exact fun he => hpw.1 _ (List.mem_map_of_mem hy) hq hyq he.symm
          rw [hrecv] at hown ⊢
          rcases ha.written with hw | ⟨hst, hw, hreg'⟩
          · rw [Protocol.newExchanges_of_written_eq hw, List.append_nil]
            refine ⟨hown, hreps, hother, hpw.2, ?_, h.noneDiscarded⟩
            intro pid hpid
            rcases hkeep pid hpid with ⟨-, hh⟩ | hy
            · -- an id whose exchange ended here was not held any more
              rcases hh with ⟨-, p, hp, hneg⟩ | ⟨-, hnone⟩
              · rw [hrep] at hp
                exact absurd hw (ha.pubrel p (Option.some.inj hp) hneg)
              · rw [hrep] at hnone; cases hnone
            · exact hy
          · rw [Protocol.newExchanges_of_written_pubrel hw]
            refine ⟨hown, ?_, ?_, ?_, ?_, h.noneDiscarded⟩
            · intro y hy p hp
              rcases List.mem_append.1 hy with hy | hy
              · exact hreps y hy p hp
              · rw [List.mem_singleton.1 hy] at hp
                cases hp
            · intro y hy hyq
              rcases List.mem_append.1 hy with hy | hy
              · exact hother y hy hyq
              · rw [List.mem_singleton.1 hy]
                exact hreg'
            · rw [List.map_append, List.pairwise_append]
              refine ⟨hpw.2, List.pairwise_singleton _ _, ?_⟩
              intro a ha' b hb
              rw [List.map_singleton, List.mem_singleton] at hb
              subst hb
              intro haq _ he
              exact hpw.1 a ha' hq haq he.symm
            · intro pid hpid
              rcases hkeep pid hpid with ⟨hxp, -⟩ | ⟨y, hy, hyp, hh⟩
              · exact ⟨_, List.mem_append_right _ (List.mem_singleton.2 rfl), hxp,
                  Or.inr ⟨rfl, rfl⟩⟩
              · exact ⟨y, List.mem_append_left _ hy, hyp, hh⟩
        · rw [Bool.not_eq_true] at hq
          obtain ⟨htab, hw⟩ := Protocol.receive_of_not_qos2 (s := n.client) hreply hq
          rw [Protocol.newExchanges_of_written_eq hw, List.append_nil]
          refine ⟨hown, hreps, ?_, hpw.2, ?_, h.noneDiscarded⟩
          · intro y hy hyq
            exact (h.registered y (List.mem_of_mem_eraseIdx hy) hyq).of_inflightQos2Out hyq htab
          · intro pid hpid
            rcases hkeep pid hpid with ⟨-, hh⟩ | hy
            · rw [hh.isQos2] at hq; cases hq
            · exact hy
      · exact h

/-! ## Runs across reconnects -/

/-- The next id is not one the broker holds from an earlier message, and no message was
    discarded as a duplicate. -/
def Qos2IdsFresh (n : Net) : Prop :=
  (∀ pid pool, n.client.state.packetIds.acquire = some (pid, pool) → pid ∉ n.unreleased) ∧
    n.discarded = []

/-- Any run across reconnects. -/
def anyReconnect (_ : Net) (_ : NetEvent) : Prop := True

/-- No connection ends while the broker holds a QoS 2 PUBLISH without its PUBREL. -/
def quietReconnect (n : Net) (e : NetEvent) : Prop := e = .reconnect → n.unreleased = ∅

theorem collisionFree_fresh {version : Version} {maxPublishQos : QoS} :
    CollisionFree (Net.fresh version maxPublishQos) :=
  ⟨Protocol.ownershipInv_fresh _ _, by simp [Net.fresh], by simp [Net.fresh], by simp [Net.fresh],
    by simp [Net.fresh], rfl⟩

/-- **No collision with the resumed session.** In every run across reconnects in which no
    connection ends while the broker holds a QoS 2 PUBLISH without its PUBREL, the id of a
    new QoS 2 PUBLISH is never held by the broker, which discards no message. -/
theorem qos2_ids_fresh (version : Version) (maxPublishQos : QoS) (n : Net)
    (h : Reach Net.step quietReconnect (Net.fresh version maxPublishQos) n) : Qos2IdsFresh n := by
  have hinv : CollisionFree n := by
    refine h.invariant collisionFree_fresh fun n e hn hok => ?_
    cases e with
    | client e =>
      rw [Net.step]
      split
      · next hloc => exact hn.client hloc
      · exact hn
    | answer k reply => exact hn.answer k reply
    | deliver k => exact hn.deliver k
    | reconnect =>
      refine ⟨Protocol.ownershipInv_fresh _ _, ?_, ?_, List.Pairwise.nil, ?_, hn.noneDiscarded⟩
      · intro x hx; cases hx
      · intro x hx; cases hx
      · intro pid hpid
        have hempty := hok rfl
        simp only [Net.step] at hpid
        rw [hempty] at hpid
        cases hpid
  refine ⟨fun pid pool hacq hin => ?_, hinv.noneDiscarded⟩
  obtain ⟨hfree, -⟩ := PacketIdPool.acquire_eq_some hinv.own.ids.next hacq
  exact hfree ((hinv.own.ids.inUse pid).2 (hinv.mem_ownedIds hin))

/-- A QoS 2 publish up to the PUBREL, and a reconnect after it. -/
def releasedRun : List NetEvent :=
  [.client (.publish ⟨"a", [], .exactlyOnce, false, false, none, none⟩),
    .answer 0 (.pubrec { packetId := 1 }), .deliver 0, .client (.resumeReadLoop true),
    .answer 0 (.pubcomp { packetId := 1 }), .reconnect,
    .client (.publish ⟨"b", [], .exactlyOnce, false, false, none, none⟩)]

theorem qos2_ids_fresh_releasedRun :
    (releasedRun.foldl Net.step (Net.fresh .v311 .exactlyOnce)).exchanges.length = 1 ∧
    Qos2IdsFresh (releasedRun.foldl Net.step (Net.fresh .v311 .exactlyOnce)) := by
  refine ⟨by decide +kernel, qos2_ids_fresh .v311 .exactlyOnce _ (Reach.foldl ?_)⟩
  have hreleased : ((releasedRun.take 5).foldl Net.step
      (Net.fresh .v311 .exactlyOnce)).unreleased = ∅ := by decide +kernel
  refine ⟨?_, ?_, ?_, ?_, ?_, fun _ => hreleased, ?_, trivial⟩ <;> intro he <;> cases he

/-- A QoS 2 publish is cut off after its PUBREC was sent; on the resumed session the next
    message takes the same id and runs through its whole handshake. -/
def collidingRun : List NetEvent :=
  [.client (.publish ⟨"a", [1], .exactlyOnce, false, false, none, none⟩),
    .answer 0 (.pubrec { packetId := 1 }), .reconnect,
    .client (.publish ⟨"b", [2], .exactlyOnce, false, false, none, none⟩),
    .client (.resume 0 true),
    .answer 0 (.pubrec { packetId := 1 }), .deliver 0, .client (.resumeReadLoop true),
    .answer 0 (.pubcomp { packetId := 1 }), .deliver 0, .client (.resume 0 true)]

/-- The new message is discarded, and its `publish()` returns. -/
theorem qos2_ids_collide :
    ¬ (∀ n, Reach Net.step anyReconnect (Net.fresh .v311 .exactlyOnce) n → Qos2IdsFresh n) ∧
    (collidingRun.foldl Net.step (Net.fresh .v311 .exactlyOnce)).discarded = [0] ∧
    (collidingRun.foldl Net.step (Net.fresh .v311 .exactlyOnce)).client.calls.map Call.pc =
      [.finished (.returned (.pubcomp { packetId := 1 }))] := by
  have hdis : (collidingRun.foldl Net.step (Net.fresh .v311 .exactlyOnce)).discarded = [0] := by
    decide +kernel
  refine ⟨fun h => ?_, hdis, by decide +kernel⟩
  have hmeets : Meets Net.step anyReconnect (Net.fresh .v311 .exactlyOnce) collidingRun := by
    simp [collidingRun, Meets, anyReconnect]
  have hfresh := h _ (Reach.foldl hmeets)
  rw [Qos2IdsFresh, hdis] at hfresh
  cases hfresh.2

end Zmqtt
