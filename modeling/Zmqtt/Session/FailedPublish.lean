/-
  Publishes that `_encode` refuses (`publish` of `_internal/protocol.py`). The packet id and the
  flight are registered before the packet is encoded, and no handler takes them back: a failed
  publish keeps its id for good, unless it raised before `acquire` (`PublishRefused`).
-/
import Zmqtt.Session.DeadConnection
import Zmqtt.Session.OutboundHandshake

namespace Zmqtt

namespace Protocol

/-- `publish` raises before it has taken a packet id. -/
def PublishRefused (p : Protocol) (packet : Publish) : Prop :=
  p.dead = true ∨ packet.qos.val > p.maxPublishQos.val ∨ p.state.packetIds.acquire = none

/-- `_encode` fails on the packet with the id it gets. -/
def Unencodable (p : Protocol) (packet : Publish) : Prop :=
  ∀ pid pool, p.state.packetIds.acquire = some (pid, pool) →
    ∃ e, encode (.publish { packet with packetId := some pid }) p.version = .error e

/-- The call of a publish above QoS 0. -/
def publishKind (packet : Publish) : CallKind :=
  if packet.qos = .atLeastOnce then .publishQos1 else .publishQos2

variable {p : Protocol} {packet : Publish}

theorem publish_eq_startCall (hqos : packet.qos ≠ .atMostOnce)
    (hgo : ¬ (p.dead ∨ packet.qos.val > p.maxPublishQos.val)) :
    p.publish packet = p.startCall (publishKind packet) [] fun pid =>
      .publish { packet with packetId := some pid } := by
  rw [Protocol.publish, if_neg hgo, publishKind]
  cases hq : packet.qos with
  | atMostOnce => exact absurd hq hqos
  | atLeastOnce => rfl
  | exactlyOnce => rfl

theorem publishOpening_eq_sendOpening (hqos : packet.qos ≠ .atMostOnce)
    (hgo : ¬ (p.dead ∨ packet.qos.val > p.maxPublishQos.val)) :
    p.publishOpening packet = p.sendOpening fun pid =>
      .publish { packet with packetId := some pid } := by
  rw [not_or] at hgo
  rw [Protocol.publishOpening, if_neg hgo.1, if_neg hgo.2]
  cases hq : packet.qos with
  | atMostOnce => exact absurd hq hqos
  | atLeastOnce => rfl
  | exactlyOnce => rfl

/-- A publish without an id raises and changes nothing. -/
theorem publish_of_refused (hqos : packet.qos ≠ .atMostOnce) (h : p.PublishRefused packet) :
    (∃ refusal, p.publishOpening packet = .raised refusal) ∧ p.publish packet = p := by
  by_cases hgo : p.dead ∨ packet.qos.val > p.maxPublishQos.val
  · refine ⟨?_, ?_⟩
    · rw [Protocol.publishOpening]
      rcases hgo with hdead | hexceeds
      · rw [if_pos hdead]
        exact ⟨_, rfl⟩
      · rw [if_pos hexceeds]
        split
        · exact ⟨_, rfl⟩
        · exact ⟨_, rfl⟩
    · rw [Protocol.publish, if_pos hgo]
  · have hnone : p.state.packetIds.acquire = none :=
      (h.resolve_left fun hd => hgo (Or.inl hd)).resolve_left fun hq => hgo (Or.inr hq)
    rw [publishOpening_eq_sendOpening hqos hgo, publish_eq_startCall hqos hgo]
    rw [not_or] at hgo
    refine ⟨⟨.idsExhausted, ?_⟩, ?_⟩
    · rw [sendOpening, if_neg hgo.1, hnone]
    · rw [startCall, if_neg hgo.1, hnone]

/-- A publish that is not encoded raises, and its id and its flight stay. -/
theorem publish_of_unencodable (hqos : packet.qos ≠ .atMostOnce) (hfail : p.Unencodable packet)
    (h : ¬ p.PublishRefused packet) :
    ∃ pid pool e, p.state.packetIds.acquire = some (pid, pool) ∧
      p.publishOpening packet = .raised (.encode e) ∧
      let st : SessionState := { p.state with packetIds := pool }
      p.publish packet = { p with
        state := st.register (publishKind packet) pid p.calls.length
        calls := p.calls ++
          [{ kind := publishKind packet, pid, pc := .finished (.raised (.encode e)) }] } := by
  rw [PublishRefused, ← or_assoc, not_or] at h
  obtain ⟨hgo, hsome⟩ := h
  obtain ⟨⟨pid, pool⟩, hacq⟩ := Option.ne_none_iff_exists'.1 hsome
  obtain ⟨e, he⟩ := hfail pid pool hacq
  refine ⟨pid, pool, e, hacq, ?_, ?_⟩
  · rw [publishOpening_eq_sendOpening hqos hgo, sendOpening, if_neg fun hd => hgo (Or.inl hd), hacq]
    dsimp only
    rw [he]
  · have hcleanup : ∀ st : SessionState, st.cleanup (publishKind packet) pid = st := by
      intro st
      unfold publishKind
      split <;> rfl
    rw [publish_eq_startCall hqos hgo, startCall, if_neg fun hd => hgo (Or.inl hd), hacq]
    dsimp only
    rw [he]
    dsimp only
    rw [hcleanup]

theorem packetIds_register (st : SessionState) (kind : CallKind) (pid : Int) (i : Nat) :
    (st.register kind pid i).packetIds = st.packetIds := by
  cases kind <;> rfl

/-- The ids in use after a publish that is not encoded. -/
theorem inUse_publish_of_unencodable (hinv : p.OwnershipInv) (hqos : packet.qos ≠ .atMostOnce)
    (hfail : p.Unencodable packet) (h : ¬ p.PublishRefused packet) :
    ∃ pid, pid ∉ p.state.packetIds.inUse ∧
      (p.publish packet).state.packetIds.inUse = insert pid p.state.packetIds.inUse := by
  obtain ⟨pid, pool, e, hacq, -, hpublish⟩ := publish_of_unencodable hqos hfail h
  obtain ⟨hfree, -, huse, -⟩ := PacketIdPool.acquire_eq_some hinv.ids.next hacq
  refine ⟨pid, hfree, ?_⟩
  rw [hpublish, ← huse]
  exact congrArg PacketIdPool.inUse (packetIds_register _ _ _ _)

/-- **Failed publishes.** A QoS 1 or QoS 2 publish whose packet is not encoded raises and sends
    nothing; it leaves the ids and the tables as they were exactly when it raised before it took
    an id. -/
theorem failed_publish_leaves_no_trace (version : Version) (maxPublishQos : QoS) (p : Protocol)
    (hreach : Reach step anyStep (fresh version maxPublishQos) p) (packet : Publish)
    (hqos : packet.qos ≠ .atMostOnce) (hfail : p.Unencodable packet) :
    (∃ refusal, p.publishOpening packet = .raised refusal) ∧
    (p.publish packet).written = p.written ∧
    ((p.publish packet).state = p.state ↔ p.PublishRefused packet) := by
  have hinv := ownershipInv_of_reach hreach
  by_cases hrefused : p.PublishRefused packet
  · obtain ⟨hraised, hpublish⟩ := publish_of_refused hqos hrefused
    rw [hpublish]
    exact ⟨hraised, rfl, fun _ => hrefused, fun _ => rfl⟩
  · obtain ⟨pid, pool, e, -, hraised, hpublish⟩ := publish_of_unencodable hqos hfail hrefused
    refine ⟨⟨_, hraised⟩, ?_, fun hsame => ?_, fun h => absurd h hrefused⟩
    · rw [hpublish]
    · obtain ⟨pid, hfree, huse⟩ := inUse_publish_of_unencodable hinv hqos hfail hrefused
      rw [hsame] at huse
      exact absurd (huse ▸ Finset.mem_insert_self pid _) hfree

/-- A message that expires after more than 2^32 - 1 seconds. -/
def longLived (qos : QoS) : Publish where
  topic := "a"
  payload := []
  qos := qos
  retain := false
  dup := false
  properties := some { messageExpiryInterval := some (2 ^ 32) }

theorem encode_longLived (qos : QoS) (pid : Int) :
    ∃ e, encode (.publish { longLived qos with packetId := some pid }) .v5 = .error e := by
  have hprops : ∃ e, encodePublishProperties (longLived qos).properties = .error e := ⟨_, rfl⟩
  obtain ⟨e, he⟩ := hprops
  have htopic : encodeStr "a" = .ok [0, 1, 97] := by decide +kernel
  rw [encode, encodePublish]
  dsimp only [longLived] at he ⊢
  rw [htopic, he]
  rcases encodePublishId _ with e' | bytes
  · exact ⟨e', rfl⟩
  · exact ⟨e, rfl⟩

/-- The server takes QoS 1 at most. -/
theorem failed_publish_leaves_no_trace_longLived :
    let p := fresh .v5 .atLeastOnce
    (∃ refusal, p.publishOpening (longLived .exactlyOnce) = .raised refusal) ∧
      (p.publish (longLived .exactlyOnce)).state = p.state := by
  intro p
  obtain ⟨hraised, -, hsame⟩ := failed_publish_leaves_no_trace .v5 .atLeastOnce p
    Relation.ReflTransGen.refl (longLived .exactlyOnce) nofun
    fun pid _ _ => encode_longLived .exactlyOnce pid
  exact ⟨hraised, hsame.2 (Or.inr (Or.inl (by decide)))⟩

/-- The id and the flight of a publish that was never sent. -/
theorem failed_publish_leaves_its_id :
    let p := fresh .v5 .exactlyOnce
    let p' := p.publish (longLived .atLeastOnce)
    p.publishOpening (longLived .atLeastOnce) ≠ .waits ∧ p'.written = [] ∧
      p.state.packetIds.inUse = ∅ ∧ p'.state.packetIds.inUse = {1} ∧
      p.state.inflightQos1 = [] ∧ p'.state.inflightQos1 = [(1, 0)] := by
  decide +kernel

/-! ## The ids run out -/

theorem card_inUse_le (hinv : p.OwnershipInv) : p.state.packetIds.inUse.card ≤ 65535 := by
  have hsub : p.state.packetIds.inUse ⊆ Finset.Icc (1 : Int) 65535 :=
    fun pid hpid => Finset.mem_Icc.2 (hinv.ids.range pid hpid)
  have hle := Finset.card_le_card hsub
  rw [Int.card_Icc] at hle
  omega

theorem acquire_eq_none_iff (pool : PacketIdPool) : pool.acquire = none ↔ 65535 ≤ pool.inUse.card := by
  rw [PacketIdPool.acquire]
  split
  · next h => exact ⟨fun _ => h, fun _ => rfl⟩
  · next h => exact ⟨(fun he => by cases he), fun hc => absurd hc h⟩

/-- Publishes of the packet reach `acquire` and fail in `_encode`. -/
structure Leaks (p : Protocol) (packet : Publish) : Prop where
  owned : p.OwnershipInv
  alive : p.dead = false
  allowed : packet.qos.val ≤ p.maxPublishQos.val
  fails : ∀ pid, ∃ e, encode (.publish { packet with packetId := some pid }) p.version = .error e

theorem Leaks.refused_iff (h : p.Leaks packet) :
    p.PublishRefused packet ↔ 65535 ≤ p.state.packetIds.inUse.card := by
  rw [PublishRefused, h.alive, acquire_eq_none_iff]
  have hallowed := Nat.not_lt.2 h.allowed
  exact ⟨fun hr => (hr.resolve_left nofun).resolve_left hallowed, fun hc => Or.inr (Or.inr hc)⟩

/-- One failed publish takes an id, as long as there is one. -/
theorem Leaks.publish (h : p.Leaks packet) (hqos : packet.qos ≠ .atMostOnce) :
    (p.publish packet).Leaks packet ∧ (p.publish packet).state.packetIds.inUse.card =
      min (p.state.packetIds.inUse.card + 1) 65535 := by
  have hcard := card_inUse_le h.owned
  by_cases hrefused : p.PublishRefused packet
  · rw [(publish_of_refused hqos hrefused).2]
    have hfull := h.refused_iff.1 hrefused
    exact ⟨h, by omega⟩
  · have hfail : p.Unencodable packet := fun pid _ _ => h.fails pid
    have hroom : p.state.packetIds.inUse.card < 65535 := Nat.lt_of_not_le fun hc => hrefused (h.refused_iff.2 hc)
    obtain ⟨pid, hfree, huse⟩ := inUse_publish_of_unencodable h.owned hqos hfail hrefused
    have hown : (p.publish packet).OwnershipInv := h.owned.publish packet
    obtain ⟨pid', pool, e, -, -, hpublish⟩ := publish_of_unencodable hqos hfail hrefused
    refine ⟨⟨hown, ?_, ?_, ?_⟩, ?_⟩
    · rw [hpublish]
      exact h.alive
    · rw [hpublish]
      exact h.allowed
    · rw [hpublish]
      exact h.fails
    · rw [huse, Finset.card_insert_of_notMem hfree]
      omega

/-- Any number of failed publishes: each takes an id, until none is left. -/
theorem card_inUse_of_failed_publishes (h : p.Leaks packet) (hqos : packet.qos ≠ .atMostOnce) (n : Nat) :
    ((fun p => p.publish packet)^[n] p).Leaks packet ∧
      ((fun p => p.publish packet)^[n] p).state.packetIds.inUse.card =
        min (p.state.packetIds.inUse.card + n) 65535 := by
  induction n with
  | zero =>
    have hcard := card_inUse_le h.owned
    exact ⟨h, by rw [Function.iterate_zero_apply]; omega⟩
  | succ n ih =>
    obtain ⟨hleaks, hcard⟩ := ih
    obtain ⟨hleaks', hcard'⟩ := hleaks.publish hqos
    rw [Function.iterate_succ_apply']
    exact ⟨hleaks', by rw [hcard', hcard]; omega⟩

/-- After 65535 failures every publish above QoS 0 raises for want of an id. -/
theorem publish_exhausted_of_failures (h : p.Leaks packet) (hqos : packet.qos ≠ .atMostOnce) :
    ((fun p => p.publish packet)^[65535] p).state.packetIds.acquire = none := by
  rw [acquire_eq_none_iff, (card_inUse_of_failed_publishes h hqos 65535).2]
  omega

end Protocol

end Zmqtt
