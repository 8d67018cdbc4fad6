/-
  All that a connection writes: the requests of `_internal/protocol.py` and the acknowledgements
  that `_internal/inbound.py` sends by `send_packet`, in any order.

  An acknowledgement has the packet id of a PUBLISH that `decode` has read, so `encode` accepts
  it, whatever bytes the broker sends; and in whatever order the two parts write, the broker reads
  what they wrote (`wire_understood`).
-/
import Zmqtt.Session.SentPackets
import Zmqtt.Inbound.Answers
import Zmqtt.Inbound.Redelivery
import Zmqtt.Packets.Reencoding

namespace Zmqtt

/-! ## Acknowledgements -/

/-- `PubAck(packet_id=…)`, `PubRec(packet_id=…)` and `PubComp(packet_id=…)`. -/
def Acknowledgement.packet (a : Acknowledgement) : Packet :=
  match a.kind with
  | .puback => .puback { packetId := a.pid }
  | .pubrec => .pubrec { packetId := a.pid }
  | .pubcomp => .pubcomp { packetId := a.pid }

/-- The QoS of the messages that are acknowledged so. -/
def AckKind.qos : AckKind → QoS
  | puback => .atLeastOnce
  | pubrec | pubcomp => .exactlyOnce

/-- A PUBLISH that `decode` reads from some bytes. -/
def Decoded (version : Version) (packet : Publish) : Prop :=
  ∃ buf n, decode buf version = .ok (some (.publish packet, n))

variable {version : Version} {pid : Int}

theorem Decoded.range {packet : Publish} (h : Decoded version packet)
    (hpid : packet.packetId = some pid) : 0 ≤ pid ∧ pid ≤ 65535 := by
  obtain ⟨buf, n, hdecode⟩ := h
  obtain ⟨-, packetType, flags, hbody⟩ := decode_eq_body hdecode
  cases packetType with
  | publish =>
    obtain ⟨p, hp, hbody⟩ := bind_eq_ok.1 hbody
    cases hbody
    unfold decodePublish at hp
    obtain ⟨qos, -, hp⟩ := bind_eq_ok.1 hp
    obtain ⟨⟨topic, pos⟩, -, hp⟩ := bind_eq_ok.1 hp
    obtain ⟨⟨packetId, k⟩, hid, hp⟩ := bind_eq_ok.1 hp
    obtain ⟨⟨props, l⟩, -, hp⟩ := bind_eq_ok.1 hp
    cases hp
    obtain rfl : packetId = some pid := hpid
    unfold readIf at hid
    split at hid
    · obtain ⟨pid', hpid', hrange⟩ := decodePublishId_range hid
      rw [Option.some.inj hpid']
      exact hrange
    · cases hid
  | pingreq | pingresp => cases hbody
  | _ =>
    obtain ⟨p, -, hbody⟩ := bind_eq_ok.1 hbody
    cases hbody

theorem Acknowledgement.encodes (a : Acknowledgement) (h : 0 ≤ a.pid ∧ a.pid ≤ 65535) :
    ∃ bytes, encode a.packet version = .ok bytes := by
  have hfits : ∀ packetType, Fits (encodePubAckVariant packetType 0 { packetId := a.pid } version)
      maxPacket := by
    intro packetType
    unfold encodePubAckVariant
    rw [if_neg (by simp)]
    exact fits_packetIdOnly h
  unfold Acknowledgement.packet
  cases a.kind with
  | puback => exact (hfits .puback).imp fun _ hb => hb.1
  | pubrec => exact (hfits .pubrec).imp fun _ hb => hb.1
  | pubcomp => exact (hfits .pubcomp).imp fun _ hb => hb.1

namespace InboundPublishFlow

variable {Sends : Publish → Prop} {f : InboundPublishFlow} {kind : AckKind} {r : InboundRecipient}

/-- An acknowledgement is for a PUBLISH that the broker sent. -/
theorem Answering.published (h : Answering Sends f [] []) (hsent : .sent kind pid r ∈ f.trace) :
    ∃ packet, Sends packet ∧ packet.qos = kind.qos ∧ packet.packetId = some pid := by
  have hrequested : ∀ {qos : QoS}, Requested f.trace qos pid r.message →
      ∃ packet, Sends packet ∧ packet.qos = qos ∧ packet.packetId = some pid :=
    fun hreq => ⟨r.message.packet, h.trace.publish hreq.1, hreq.2⟩
  obtain ⟨later, before, hsplit⟩ := List.append_of_mem hsent
  have htrace := h.trace
  rw [hsplit] at htrace
  have hback : Backs Sends before (.sent kind pid r) := htrace.split
  have hsub : before ⊆ f.trace := by
    rw [hsplit]
    exact fun _ he => List.mem_append_right _ (List.mem_cons_of_mem _ he)
  cases kind with
  | puback => exact hrequested (Requested.mono hback hsub)
  | pubrec => exact hrequested (Requested.mono hback hsub)
  | pubcomp =>
    obtain ⟨older, rfl, hrec⟩ := hback
    exact hrequested (h.trace.pubrec (hsub (List.mem_cons_of_mem _ hrec)))

theorem Answering.acknowledgement (h : Answering Sends f [] []) {a : Acknowledgement}
    (ha : a ∈ f.acknowledgements) :
    ∃ packet, Sends packet ∧ packet.qos = a.kind.qos ∧ packet.packetId = some a.pid := by
  obtain ⟨entry, hmem, hentry⟩ := List.mem_filterMap.1 (List.mem_reverse.1 ha)
  cases entry with
  | sent kind pid r =>
    cases hentry
    exact h.published hmem
  | _ => cases hentry

end InboundPublishFlow

/-! ## The wire -/

/-- **All that a connection writes is understood.** For any bytes of the broker and in every run of
    the two parts of a connection, whatever order they write in: each packet on the wire is a
    request that a client may send, or acknowledges the id of a PUBLISH that was decoded, of the
    QoS that is acknowledged so; and from the bytes, in any chunks, the broker reads exactly these
    packets. -/
theorem wire_understood (version : Version) (maxPublishQos : QoS) (strippedPrefixes : List String)
    (s : Connection)
    (hs : Reach Connection.step anyStep
      (Connection.fresh version maxPublishQos strippedPrefixes) s)
    (bufferSize : Nat) (maxsize : Nat → Nat) (sessionPresent : Bool) (f : InboundPublishFlow)
    (hf : Reach InboundPublishFlow.step (InboundPublishFlow.Hears (Decoded version))
      (InboundPublishFlow.fresh bufferSize maxsize sessionPresent) f)
    (wire : List Packet)
    (hwire : ∀ packet ∈ wire,
      packet ∈ s.protocol.sent ∨ packet ∈ f.acknowledgements.map Acknowledgement.packet) :
    (∀ packet ∈ wire, packet.FromClient maxPublishQos ∨
      ∃ a published, packet = Acknowledgement.packet a ∧ Decoded version published ∧
        published.qos = a.kind.qos ∧ published.packetId = some a.pid) ∧
    ∃ stream, encodeStream version wire = .ok stream ∧
      ∀ chunks : List Bytes, chunks.flatten = stream →
        consumeChunks version chunks = (wire.map (Packet.norm version), .waiting []) := by
  have hsent := Connection.sendable_of_reach hs
  have hacks : ∀ packet ∈ f.acknowledgements.map Acknowledgement.packet,
      ∃ a published, packet = Acknowledgement.packet a ∧ Decoded version published ∧
        published.qos = a.kind.qos ∧ published.packetId = some a.pid := by
    intro packet hp
    obtain ⟨a, ha, rfl⟩ := List.mem_map.1 hp
    obtain ⟨published, hpublished⟩ :=
      (InboundPublishFlow.answering_of_reach hf).acknowledgement ha
    exact ⟨a, published, rfl, hpublished⟩
  obtain ⟨stream, hstream⟩ := (packetCodec version).encAll_of_forall fun packet hp => by
    rcases hwire packet hp with hp | hp
    · exact (hsent packet hp).1
    · obtain ⟨a, published, rfl, hdecoded, -, hpid⟩ := hacks packet hp
      exact a.encodes (hdecoded.range hpid)
  refine ⟨fun packet hp => ?_, stream, hstream,
    fun chunks hchunks => consumeChunks_encodeStream hstream hchunks⟩
  exact (hwire packet hp).imp (fun hp => (hsent packet hp).2) (hacks packet)

/-- A QoS 2 message of the broker is answered while the client publishes and pings. -/
theorem wire_understood_manualRun :
    let wire : List Packet := [.pubrec { packetId := 1 },
      .publish ⟨"t", [2], .atLeastOnce, false, false, some 1, none⟩, .pubcomp { packetId := 1 }, .pingreq]
    ∃ stream, encodeStream .v5 wire = .ok stream ∧
      ∀ chunks : List Bytes, chunks.flatten = stream →
        consumeChunks .v5 chunks = (wire.map (Packet.norm .v5), .waiting []) := by
  intro wire
  have hdecoded : Decoded .v5 (InboundPublishFlow.publishA .exactlyOnce (some 1)) :=
    ⟨[52, 6, 0, 1, 97, 0, 1, 0], 8, by decide +kernel⟩
  refine (wire_understood .v5 .atLeastOnce [] _
    (Reach.foldl (meets_anyStep Connection.limitedRun)) 10 (fun _ => 0) false
    (InboundPublishFlow.manualRun.foldl InboundPublishFlow.step
      (InboundPublishFlow.fresh 10 (fun _ => 0) false)) (Reach.foldl ?_) wire ?_).2
  · refine ⟨?_, ?_, ?_, ?_, ?_, ?_, ?_, ?_, trivial⟩ <;>
      exact fun packet env he => (by cases he <;> exact hdecoded)
  · decide +kernel

end Zmqtt
