/-
  What a connection puts on the wire (`publish`, `_send_subscribe`, `_send_unsubscribe`,
  `_handle_pubrec` and `ping` of `_internal/protocol.py`), over any run: every packet that was
  sent is one that a client may send, with a packet id of the format and within the negotiated
  QoS, and the broker reads the bytes back as these packets (`sent_understood`). The
  acknowledgements of received publishes belong to the inbound flow and are not in it.
-/
import Zmqtt.Packets.Streams
import Zmqtt.Session.DeadConnection
import Zmqtt.Session.OutboundHandshake

namespace Zmqtt

/-- A packet that a client may send, and what the client fills in. -/
def Packet.FromClient (maxPublishQos : QoS) : Packet → Prop
  | .publish p => p.qos.val ≤ maxPublishQos.val ∧
      (p.qos ≠ .atMostOnce → ∃ pid, p.packetId = some pid ∧ PacketIdPool.InRange pid)
  | .pubrel p => PacketIdPool.InRange p.packetId ∧ p.reasonCode = 0
  | .subscribe p => PacketIdPool.InRange p.packetId
  | .unsubscribe p => PacketIdPool.InRange p.packetId
  | .pingreq => True
  | _ => False

namespace Protocol

/-- The packets that were sent, the oldest first. -/
def sent (p : Protocol) : List Packet := (p.written.map Prod.fst).reverse

/-- The packet can be encoded and may be sent. -/
def Sendable (p : Protocol) (packet : Packet) : Prop :=
  (∃ bytes, encode packet p.version = .ok bytes) ∧ packet.FromClient p.maxPublishQos

/-- A step that sends at most one packet. -/
structure Sends (p p' : Protocol) : Prop where
  version : p'.version = p.version
  maxPublishQos : p'.maxPublishQos = p.maxPublishQos
  written : p'.written = p.written ∨
    ∃ packet owner, p'.written = (packet, owner) :: p.written ∧ p.Sendable packet

variable {p p' : Protocol}

theorem sends_refl (p : Protocol) : Sends p p := ⟨rfl, rfl, Or.inl rfl⟩

/-! ## One step -/

theorem sends_setFuture (p : Protocol) (st : SessionState) (i : Nat) (future : FutureState) :
    Sends p ({ p with state := st }.setFuture i future) := by
  unfold setFuture
  split
  · exact ⟨rfl, rfl, Or.inl rfl⟩
  · split
    · exact ⟨rfl, rfl, Or.inl rfl⟩
    · exact ⟨rfl, rfl, Or.inl rfl⟩

theorem sends_startCall (hinv : p.OwnershipInv) (kind : CallKind) (filters : List String)
    (packetOf : Int → Packet)
    (hpacket : ∀ pid, PacketIdPool.InRange pid → (packetOf pid).FromClient p.maxPublishQos) :
    Sends p (p.startCall kind filters packetOf) := by
  rcases p.startCall_cases kind filters packetOf with
    heq | ⟨pid, pool, hacq, ⟨e, -, heq⟩ | ⟨hbytes, heq⟩⟩
  · rw [heq]
    exact sends_refl p
  · rw [heq]
    exact ⟨rfl, rfl, Or.inl rfl⟩
  · have hrange := (PacketIdPool.acquire_eq_some hinv.ids.next hacq).2.1
    rw [heq]
    exact ⟨rfl, rfl, Or.inr ⟨packetOf pid, some p.calls.length, rfl, hbytes, hpacket pid hrange⟩⟩

/-- The check of `publish` against the negotiated QoS comes before anything is sent. -/
theorem sends_publish (hinv : p.OwnershipInv) (packet : Publish) : Sends p (p.publish packet) := by
  unfold publish
  split
  · exact sends_refl p
  · next hlive =>
    have hqos : packet.qos.val ≤ p.maxPublishQos.val := Nat.le_of_not_lt fun h => hlive (Or.inr h)
    have hcall : ∀ kind, Sends p (p.startCall kind [] fun pid =>
        .publish { packet with packetId := some pid }) :=
      fun kind => sends_startCall hinv kind [] _ fun pid hpid => ⟨hqos, fun _ => ⟨pid, rfl, hpid⟩⟩
    split
    · next hmost =>
      split
      · exact sends_refl p
      · next bytes hbytes =>
        exact ⟨rfl, rfl, Or.inr ⟨_, none, rfl, ⟨bytes, hbytes⟩, hqos, fun h => absurd hmost h⟩⟩
    · exact hcall .publishQos1
    · exact hcall .publishQos2

/-- A PUBREL with a packet id of the format can be encoded. -/
theorem encode_pubrel {pid : Int} (h : PacketIdPool.InRange pid) (version : Version) :
    ∃ bytes, encode (.pubrel { packetId := pid }) version = .ok bytes := by
  obtain ⟨hlo, hhi⟩ := h
  have hpack : packH pid = .ok [UInt8.ofNat (pid.toNat / 256), UInt8.ofNat (pid.toNat % 256)] :=
    if_pos ⟨by omega, by omega⟩
  have hlen : encodeVarint 2 = .ok [2] := by decide +kernel
  simp [encode, encodePubAckVariant, packetIdOnly, hpack, buildPacket, hlen]

/-- What a dispatch that does not raise does: nothing here, an exchange is ended and its future
    done, a future is done, or a PUBREL is sent. -/
theorem dispatch_cases {packet : Packet} (h : p.dispatch packet = .ok p') :
    p' = p ∨
    (∃ kind pid i future,
      p' = { p with state := p.state.popRelease kind pid }.setFuture i future) ∨
    (∃ i future, p' = p.setFuture i future) ∨
    ∃ pubrec flight, p.state.inflightQos2Out.get? pubrec = some flight ∧
      p' = { p with
        state := { p.state with
          inflightQos2Out := p.state.inflightQos2Out.set pubrec { flight with state := .pendingPubcomp } }
        readLoop := .sendingPubrel
        written := (.pubrel { packetId := pubrec }, some flight.call) :: p.written } := by
  unfold dispatch at h
  split at h
  · cases h; exact Or.inl rfl
  · cases h; exact Or.inl rfl
  · cases h; exact Or.inl rfl
  · unfold handlePuback at h
    split at h
    · cases h
    · cases h; exact Or.inr (Or.inl ⟨_, _, _, _, rfl⟩)
  · unfold handlePubrec at h
    split at h
    · cases h
    · next flight hflight =>
      split at h
      · cases h
      · split at h
        · cases h; exact Or.inr (Or.inl ⟨_, _, _, _, rfl⟩)
        · cases h; exact Or.inr (Or.inr (Or.inr ⟨_, flight, hflight, rfl⟩))
  · unfold handlePubcomp at h
    split at h
    · cases h
    · cases h; exact Or.inr (Or.inl ⟨_, _, _, _, rfl⟩)
  · unfold handleSuback at h
    split at h
    · cases h
    · exact Or.inr (Or.inr (Or.inl ⟨_, _, Logged.setResult_eq h⟩))
  · unfold handleUnsuback at h
    split at h
    · cases h
    · exact Or.inr (Or.inr (Or.inl ⟨_, _, Logged.setResult_eq h⟩))
  · cases h
  · split at h
    · cases h
    · cases h; exact Or.inl rfl
  all_goals cases h

theorem sends_dispatch (hinv : p.OwnershipInv) {packet : Packet} (h : p.dispatch packet = .ok p') :
    Sends p p' := by
  rcases dispatch_cases h with
    rfl | ⟨kind, pid, i, future, rfl⟩ | ⟨i, future, rfl⟩ | ⟨pid, flight, hflight, rfl⟩
  · exact sends_refl p'
  · exact sends_setFuture p _ i future
  · exact sends_setFuture p p.state i future
  · have hin : pid ∈ p.state.packetIds.inUse := by
      refine (hinv.ids.inUse pid).2 (@SessionState.Owns.mem _ .publishQos2 _ ?_)
      exact Dict.mem_keys_of_get? hflight
    have hrange := hinv.ids.range pid hin
    exact ⟨rfl, rfl, Or.inr ⟨_, _, rfl, encode_pubrel hrange p.version, hrange, rfl⟩⟩

theorem sends_runExit (p : Protocol) : Sends p p.runExit := by
  have hfold : ∀ (is : List Nat) (s : Protocol),
      let s' := is.foldl (fun s i => s.setFuture i (.exception .disconnected)) s
      s'.version = s.version ∧ s'.maxPublishQos = s.maxPublishQos := by
    intro is
    induction is with
    | nil => exact fun s => ⟨rfl, rfl⟩
    | cons i is ih =>
      intro s
      have hone := sends_setFuture s s.state i (.exception .disconnected)
      obtain ⟨hversion, hqos⟩ := ih (s.setFuture i (.exception .disconnected))
      exact ⟨hversion.trans hone.version, hqos.trans hone.maxPublishQos⟩
  obtain ⟨hversion, hqos⟩ :=
    hfold (awaited p.state) { p with dead := true, readLoop := .stopped }
  exact ⟨hversion, hqos, Or.inl (written_runExit p)⟩

/-- The steps that touch neither the version nor the limit, and send nothing. -/
theorem sends_resume (p : Protocol) (i : Nat) (written : Bool) : Sends p (p.resume i written) := by
  refine ⟨?_, ?_, Or.inl (written_resume p i written)⟩
  · unfold resume
    repeat' split
    all_goals rfl
  · unfold resume
    repeat' split
    all_goals rfl

theorem sends_cancel (p : Protocol) (i : Nat) : Sends p (p.cancel i) := by
  refine ⟨?_, ?_, Or.inl (written_cancel p i)⟩
  · unfold cancel
    repeat' split
    all_goals rfl
  · unfold cancel
    repeat' split
    all_goals rfl

/-- **One step sends at most one packet**, and it may be sent. -/
theorem sends_step (hinv : p.OwnershipInv) (e : ProtocolEvent) : Sends p (p.step e) := by
  cases e with
  | publish packet => exact sends_publish hinv packet
  | sendSubscribe filters identifier => exact sends_startCall hinv _ _ _ fun pid hpid => hpid
  | sendUnsubscribe filters => exact sends_startCall hinv _ _ _ fun pid hpid => hpid
  | resume i written => exact sends_resume p i written
  | cancel i => exact sends_cancel p i
  | receive packet =>
    rw [step, receive]
    split
    · split
      · next hd => exact sends_dispatch hinv hd
      · exact ⟨rfl, rfl, Or.inl rfl⟩
    · exact sends_refl p
    · exact sends_refl p
  | resumeReadLoop written =>
    rw [step, resumeReadLoop]
    split
    · exact ⟨rfl, rfl, Or.inl rfl⟩
    · exact sends_refl p
    · exact sends_refl p
  | runExit => exact sends_runExit p

/-! ## Runs -/

/-- All that was sent may be sent. -/
structure SentInv (version : Version) (maxPublishQos : QoS) (p : Protocol) : Prop where
  owned : p.OwnershipInv
  version : p.version = version
  maxPublishQos : p.maxPublishQos = maxPublishQos
  sendable : ∀ packet ∈ p.sent, p.Sendable packet

variable {version : Version} {maxPublishQos : QoS}

/-- The sent packets after a step that sends. -/
theorem SentInv.sends (h : p.SentInv version maxPublishQos) (hown : p'.OwnershipInv)
    (hs : Sends p p') : p'.SentInv version maxPublishQos := by
  refine ⟨hown, hs.version.trans h.version, hs.maxPublishQos.trans h.maxPublishQos, ?_⟩
  have hsame : ∀ packet, p.Sendable packet → p'.Sendable packet := by
    intro packet hp
    unfold Sendable
    rw [hs.version, hs.maxPublishQos]
    exact hp
  rcases hs.written with hw | ⟨new, owner, hw, hnew⟩
  · intro packet hp
    rw [sent, hw] at hp
    exact hsame packet (h.sendable packet hp)
  · intro packet hp
    rw [sent, hw, List.map_cons, List.reverse_cons, List.mem_append, List.mem_singleton] at hp
    rcases hp with hp | rfl
    · exact hsame packet (h.sendable packet hp)
    · exact hsame packet hnew

theorem SentInv.step (h : p.SentInv version maxPublishQos) (e : ProtocolEvent) :
    (p.step e).SentInv version maxPublishQos :=
  h.sends (h.owned.step e) (sends_step h.owned e)

theorem sentInv_fresh (version : Version) (maxPublishQos : QoS) :
    (fresh version maxPublishQos).SentInv version maxPublishQos := by
  refine ⟨ownershipInv_fresh version maxPublishQos, rfl, rfl, fun packet hp => ?_⟩
  cases hp

end Protocol

namespace Connection

variable {version : Version} {maxPublishQos : QoS} {s : Connection}

/-- A PINGREQ changes no table. -/
theorem sentInv_ping (h : s.protocol.SentInv version maxPublishQos) :
    s.ping.protocol.SentInv version maxPublishQos := by
  refine h.sends ⟨h.owned.ids, h.owned.calls, h.owned.entries⟩ ⟨rfl, rfl, Or.inr ?_⟩
  exact ⟨.pingreq, none, rfl, ⟨_, rfl⟩, trivial⟩

theorem sentInv_step (h : s.protocol.SentInv version maxPublishQos) (e : ConnectionEvent) :
    (s.step e).protocol.SentInv version maxPublishQos := by
  cases e with
  | call e =>
    unfold protocol
    rw [interests_step_call]
    exact (Interests.reach_step s.interests e).invariant h fun p e hp _ => hp.step e
  | ping => exact sentInv_ping h
  | resumePing j written =>
    unfold protocol
    rw [step, (resumePing_frame s j written).1]
    exact h
  | timeoutPing j =>
    unfold protocol
    rw [step, (timeoutPing_frame s j).1]
    exact h
  | cancelPing j =>
    unfold protocol
    rw [step, (cancelPing_frame s j).1]
    exact h

/-- All that was sent can be encoded and may be sent. -/
theorem sendable_of_reach {version : Version} {maxPublishQos : QoS} {strippedPrefixes : List String}
    {s : Connection} (h : Reach step anyStep (fresh version maxPublishQos strippedPrefixes) s) :
    ∀ packet ∈ s.protocol.sent,
      (∃ bytes, encode packet version = .ok bytes) ∧ packet.FromClient maxPublishQos := by
  have hinv : s.protocol.SentInv version maxPublishQos :=
    h.invariant (I := fun s => s.protocol.SentInv version maxPublishQos)
      (Protocol.sentInv_fresh version maxPublishQos) fun s e hs _ => sentInv_step hs e
  intro packet hp
  obtain ⟨hbytes, hclient⟩ := hinv.sendable packet hp
  rw [hinv.version] at hbytes
  rw [hinv.maxPublishQos] at hclient
  exact ⟨hbytes, hclient⟩

/-- **What a connection sends is understood.** In every run of a connection, over any calls,
    pings and replies, everything that was sent is a packet a client may send, within the
    negotiated QoS and with a packet id of the format where one is needed; and from the bytes,
    in any chunks, the broker reads exactly these packets in order, and nothing is left. -/
theorem sent_understood (version : Version) (maxPublishQos : QoS) (strippedPrefixes : List String)
    (s : Connection)
    (h : Reach step anyStep (fresh version maxPublishQos strippedPrefixes) s) :
    (∀ packet ∈ s.protocol.sent, packet.FromClient maxPublishQos) ∧
    ∃ stream, encodeStream version s.protocol.sent = .ok stream ∧
      ∀ chunks : List Bytes, chunks.flatten = stream → consumeChunks version chunks =
        (s.protocol.sent.map (Packet.norm version), .waiting []) := by
  have hsent := sendable_of_reach h
  obtain ⟨stream, hstream⟩ :=
    (packetCodec version).encAll_of_forall fun packet hp => (hsent packet hp).1
  exact ⟨fun packet hp => (hsent packet hp).2, stream, hstream,
    fun chunks hchunks => consumeChunks_encodeStream hstream hchunks⟩

/-- A publish above the limit is not sent, one below it is; then a PINGREQ. -/
def limitedRun : List ConnectionEvent :=
  [.call (.background (.publish ⟨"t", [1], .exactlyOnce, false, false, none, none⟩)),
    .call (.background (.publish ⟨"t", [2], .atLeastOnce, false, false, none, none⟩)), .ping]

theorem sent_understood_limitedRun :
    ((limitedRun.foldl step (fresh .v5 .atLeastOnce [])).protocol.sent =
      [.publish ⟨"t", [2], .atLeastOnce, false, false, some 1, none⟩, .pingreq]) ∧
    ∀ packet ∈ (limitedRun.foldl step (fresh .v5 .atLeastOnce [])).protocol.sent,
      packet.FromClient .atLeastOnce :=
  ⟨by decide +kernel, (sent_understood .v5 .atLeastOnce [] _
    (Reach.foldl (meets_anyStep limitedRun))).1⟩

end Connection

end Zmqtt
