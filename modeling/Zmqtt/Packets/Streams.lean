/-
  Streams of packets: what a sender encodes one packet after the other, and what a receiver
  with a `PacketBuffer` (`_internal/packets/reader.py`) reads while the bytes arrive.

  `encode` and `decode` are a `FrameCodec`, so the rules of streams apply. A stream that has
  arrived in part, in any chunks, yields exactly the packets that have arrived in full
  (`stream_delivered`); when it begins with an accepting CONNACK, `_await_connack` takes that one
  and `_read_loop` dispatches all others (`stream_dispatched`). Whatever arrives, the buffer
  holds less than the longest packet after each iteration (`buffer_bounded`).
-/
import Zmqtt.Lib.FrameStream
import Zmqtt.Packets.Reader

namespace Zmqtt

/-- The codec with its round trip. -/
def packetCodec (version : Version) : FrameCodec UInt8 PyError Packet where
  toFrameDecoder := packetDecoder version
  enc p := encode p version
  norm := Packet.norm version
  roundTrip := by
    intro p bs rest h
    obtain ⟨t, flags, body, hf, hb, hd⟩ := encode_eq_buildPacket h
    change decode (bs ++ rest) version = _
    rw [decode_buildPacket hb hf rest version, hd, ok_bind]

/-- The packets in the order in which they are sent, as one byte string. -/
def encodeStream (version : Version) (packets : List Packet) : Except PyError Bytes :=
  (packetCodec version).encAll packets

/-! ## Arriving in chunks -/

/-- Once all of a stream is there, what it holds is read, and nothing is left. -/
theorem consumeChunks_encodeStream {version : Version} {packets : List Packet} {stream : Bytes}
    {chunks : List Bytes} (h : encodeStream version packets = .ok stream)
    (harrived : chunks.flatten = stream) :
    consumeChunks version chunks = (packets.map (Packet.norm version), .waiting []) := by
  have hread := (packetCodec version).frames_encAll h []
  rw [(packetCodec version).frames_of_none (packetCodec version).nil, List.append_nil,
    List.append_nil] at hread
  rw [consumeChunks_eq_frames, harrived]
  exact hread

/-- **Delivery of a stream.** While a stream of packets arrives in chunks, the receiver has read
    exactly the packets that have arrived in full, in order and normalised; the bytes it holds
    are the part of the next packet that is there, and no byte raises. -/
theorem stream_delivered (version : Version) (packets : List Packet) (stream : Bytes)
    (chunks : List Bytes) (h : encodeStream version packets = .ok stream)
    (harrived : chunks.flatten <+: stream) :
    ∃ arrived missing head rest, packets = arrived ++ missing ∧
      encodeStream version arrived = .ok head ∧ chunks.flatten = head ++ rest ∧
      (∀ p ∈ missing.head?, ∃ bs, encode p version = .ok bs ∧ rest.length < bs.length) ∧
      consumeChunks version chunks = (arrived.map (Packet.norm version), .waiting rest) := by
  obtain ⟨arrived, missing, head, rest, rfl, hd, hsplit, hnext, hframes⟩ :=
    (packetCodec version).frames_of_initial h harrived
  refine ⟨arrived, missing, head, rest, rfl, hd, hsplit, fun p hp => ?_, ?_⟩
  · obtain ⟨missing', rfl⟩ := List.head?_eq_some_iff.1 hp
    exact hnext p missing' rfl
  · rw [consumeChunks_eq_frames]
    exact hframes

/-- A PINGREQ and the first bytes of a QoS 1 PUBLISH. -/
theorem stream_delivered_partial :
    ∃ arrived missing head rest, [Packet.pingreq, .publish samplePublish] = arrived ++ missing ∧
      encodeStream .v5 arrived = .ok head ∧ [[192], [0, 50, 21]].flatten = head ++ rest ∧
      (∀ p ∈ missing.head?, ∃ bs, encode p .v5 = .ok bs ∧ rest.length < bs.length) ∧
      consumeChunks .v5 [[192], [0, 50, 21]] =
        (arrived.map (Packet.norm .v5), .waiting rest) :=
  stream_delivered .v5 [.pingreq, .publish samplePublish]
    [192, 0, 50, 21, 0, 3, 97, 47, 98, 0, 7, 11, 3, 0, 1, 116, 38, 0, 1, 107, 0, 1, 118, 1, 2]
    [[192], [0, 50, 21]] (by decide +kernel) (by decide)

/-! ## The handshake and the packets after it -/

/-- `_await_connack` takes the first packet of the stream, when it is an accepting CONNACK. -/
theorem awaitConnack_of_frames {version : Version} {pkt : Packet} {connack : ConnAck} {qos : QoS}
    (ha : acceptConnack version pkt = .ok (connack, qos)) {buf : Bytes} {reads : List Bytes}
    {packets : List Packet} {ending : Ending UInt8 PyError} (hbuf : decode buf version = .ok none)
    (h : (packetDecoder version).frames (buf ++ reads.flatten) = (pkt :: packets, ending)) :
    ∃ c, awaitConnack version buf reads = .ok c ∧ c.connack = connack ∧ c.maxPublishQos = qos := by
  induction reads generalizing buf with
  | nil =>
    rw [List.flatten_nil, List.append_nil, (packetDecoder version).frames_of_none hbuf] at h
    cases h
  | cons data reads ih =>
    rw [List.flatten_cons, ← List.append_assoc] at h
    rw [awaitConnack]
    rcases hd : decode (buf ++ data) version with e | _ | ⟨first, n⟩
    · rw [(packetDecoder version).frames_of_error
        ((packetDecoder version).dec_append_error hd reads.flatten)] at h
      cases h
    · exact ih hd h
    · obtain ⟨hdec, -⟩ := (packetDecoder version).dec_append_some hd reads.flatten
      rw [(packetDecoder version).frames_of_some hdec] at h
      obtain rfl : first = pkt := (List.cons.inj (Prod.mk.inj h).1).1
      simp only [ha]
      exact ⟨_, rfl, rfl, rfl⟩

/-- **A session of the broker.** However the bytes of an accepting CONNACK and the packets after
    it are read, `connect` returns that CONNACK with the negotiated QoS, and the read loop
    dispatches all the packets after it, in order, and waits for more. -/
theorem stream_dispatched (version : Version) (connack accepted : ConnAck) (qos : QoS)
    (packets : List Packet) (stream : Bytes) (reads : List Bytes)
    (h : encodeStream version (.connack connack :: packets) = .ok stream)
    (ha : acceptConnack version (.connack (connack.norm version)) = .ok (accepted, qos))
    (hreads : reads.flatten = stream) :
    ∃ c, awaitConnack version [] reads = .ok c ∧ c.connack = connack.norm version ∧
      c.maxPublishQos = qos ∧
      ∀ (σ ε : Type) (dispatch : σ → Packet → Except ε σ) (st : σ),
        readLoop version dispatch st c.buf c.reads =
          dispatchYield dispatch st (packets.map (Packet.norm version)) (.waiting []) := by
  obtain rfl : connack.norm version = accepted := Packet.connack.inj (acceptConnack_eq_ok ha)
  have hframes : (packetDecoder version).frames ([] ++ reads.flatten) =
      (.connack (connack.norm version) :: packets.map (Packet.norm version), .waiting []) := by
    have hread := (packetCodec version).frames_encAll h []
    rw [(packetCodec version).frames_of_none (packetCodec version).nil, List.append_nil,
      List.append_nil] at hread
    rw [List.nil_append, hreads]
    exact hread
  have hnone : decode [] version = .ok none := (packetDecoder version).nil
  obtain ⟨c, hc, hconnack, hqos⟩ := awaitConnack_of_frames ha hnone hframes
  refine ⟨c, hc, hconnack, hqos, fun σ ε dispatch st => ?_⟩
  have hrest := awaitConnack_eq_ok hc
  rw [hframes, Prod.mk.injEq, List.cons.injEq] at hrest
  rw [readLoop_eq, ← hrest.1.2, ← hrest.2]

theorem stream_dispatched_pingresp :
    ∃ c, awaitConnack .v311 [] [[32, 2, 0], [0, 208], [0]] = .ok c ∧
      c.connack = (⟨false, 0, none⟩ : ConnAck).norm .v311 ∧ c.maxPublishQos = .exactlyOnce ∧
      ∀ (σ ε : Type) (dispatch : σ → Packet → Except ε σ) (st : σ),
        readLoop .v311 dispatch st c.buf c.reads =
          dispatchYield dispatch st ([.pingresp].map (Packet.norm .v311)) (.waiting []) :=
  stream_dispatched .v311 ⟨false, 0, none⟩ ⟨false, 0, none⟩ .exactlyOnce [.pingresp]
    [32, 2, 0, 0, 208, 0] [[32, 2, 0], [0, 208], [0]] (by decide +kernel) rfl rfl

/-! ## The size of the buffer -/

/-- Without the whole header the buffer is short; with it, the remaining length has at most `k`
    further digits of base 128. -/
theorem remainingLengthLoop_bounds {buf : Bytes} {k i m r : Nat} :
    (remainingLengthLoop buf k i m r = .ok none → buf.length ≤ k + i) ∧
    ∀ remaining vb, remainingLengthLoop buf k i m r = .ok (some (remaining, vb)) →
      vb ≤ k + i ∧ remaining + m ≤ r + m * 128 ^ k := by
  induction k generalizing i m r with
  | zero =>
    rw [remainingLengthLoop]
    refine ⟨fun h => ?_, fun remaining vb h => ?_⟩
    · cases h
    · cases h
  | succ k ih =>
    rw [remainingLengthLoop]
    rcases hb : buf[1 + i]? with _ | byte
    · have hlen := List.getElem?_eq_none_iff.1 hb
      refine ⟨fun _ => by omega, fun remaining vb h => ?_⟩
      cases h
    · have hdigit : (byte &&& 0x7F).toNat * m ≤ 127 * m := by
        refine Nat.mul_le_mul_right m ?_
        rw [UInt8.toNat_and]
        exact Nat.and_le_right
      have hpow : m * 128 ^ (k + 1) = m * 128 * 128 ^ k := by
        rw [Nat.pow_succ, Nat.mul_comm (128 ^ k), Nat.mul_assoc]
      have hone : m * 128 ≤ m * 128 * 128 ^ k := Nat.le_mul_of_pos_right _ (by positivity)
      dsimp only
      split
      · refine ⟨fun h => ?_, fun remaining vb h => ?_⟩
        · cases h
        · simp only [Except.ok.injEq, Option.some.injEq, Prod.mk.injEq] at h
          omega
      · obtain ⟨hnone, hsome⟩ := @ih (i + 1) (m * 128) (r + (byte &&& 0x7F).toNat * m)
        refine ⟨fun h => (hnone h).trans (by omega), fun remaining vb h => ?_⟩
        obtain ⟨hvb, hle⟩ := hsome remaining vb h
        omega

/-- A buffer that holds no whole packet is shorter than the longest packet. -/
theorem length_of_decode_none {buf : Bytes} {version : Version}
    (h : decode buf version = .ok none) : buf.length < 1 + 4 + maxMqttVarint := by
  have hbounds := @remainingLengthLoop_bounds buf 4 0 1 0
  have hmax : maxMqttVarint = 268435455 := rfl
  rw [decode] at h
  split at h
  · omega
  · obtain ⟨first, -, h⟩ := bind_eq_ok.1 h
    obtain ⟨r, hr, h⟩ := bind_eq_ok.1 h
    rcases r with _ | ⟨remaining, vb⟩
    · have hlen := hbounds.1 hr
      omega
    · obtain ⟨hvb, hle⟩ := hbounds.2 remaining vb hr
      dsimp only at h
      split at h
      · omega
      · split at h
        · cases h
        · obtain ⟨packet, -, h⟩ := bind_eq_ok.1 h
          cases h

/-- **The buffer is bounded.** Whatever the peer sends, and in whatever chunks, an iteration that
    does not raise leaves less than the longest packet in the buffer. -/
theorem buffer_bounded (version : Version) (chunks : List Bytes) (packets : List Packet)
    (rest : Bytes) (h : consumeChunks version chunks = (packets, .waiting rest)) :
    rest.length < 1 + 4 + maxMqttVarint := by
  rw [consumeChunks_eq_frames] at h
  exact length_of_decode_none ((packetDecoder version).dec_of_frames h)

theorem buffer_bounded_partial :
    consumeChunks .v5 [[50], [21]] = ([], .waiting [50, 21]) ∧
      ([50, 21] : Bytes).length < 1 + 4 + maxMqttVarint := by
  have h : consumeChunks .v5 [[50], [21]] = ([], .waiting [50, 21]) := by
    rw [consumeChunks_eq_frames]
    exact (packetDecoder .v5).frames_of_none (by decide)
  exact ⟨h, buffer_bounded .v5 [[50], [21]] [] [50, 21] h⟩

end Zmqtt
