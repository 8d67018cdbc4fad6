/-
  Packet framing over TCP: `PacketBuffer` (`_internal/packets/reader.py`) and its two
  consumers in `_internal/protocol.py`, `_await_connack` and `_read_loop`.

  `decode` answers with an error or a packet only on bytes that it has seen, so its
  answer stays when more bytes arrive (`decode_append`); this makes it a `FrameDecoder`
  and the library's rules apply. A `PacketBuffer` is the bytes it holds: an iterator
  over it has no state of its own, every step decodes the buffer afresh and cuts the
  packet off before it is yielded.
-/
import Zmqtt.Lib.Framing
import Zmqtt.Packets.RoundTrip

namespace Zmqtt

/-! ## `decode` on an extended buffer -/

theorem remainingLengthLoop_append {buf : Bytes} {k i m r : Nat} (ext : Bytes)
    (h : remainingLengthLoop buf k i m r ≠ .ok none) :
    remainingLengthLoop (buf ++ ext) k i m r = remainingLengthLoop buf k i m r := by
  induction k generalizing i m r with
  | zero => rfl
  | succ k ih =>
    rw [remainingLengthLoop] at h ⊢
    rw [remainingLengthLoop]
    rcases hb : buf[1 + i]? with _ | byte
    · simp [hb] at h
    · have hlt : 1 + i < buf.length := by
        by_contra hge
        rw [List.getElem?_eq_none (by omega)] at hb
        cases hb
      rw [List.getElem?_append_left hlt, hb]
      simp only [hb] at h ⊢
      split
      · rfl
      · next hbit =>
        rw [if_neg hbit] at h
        exact ih h

/-- The answer of `decode`, unless it is "not yet", does not depend on the bytes that
    follow. -/
theorem decode_append {buf : Bytes} {version : Version} (ext : Bytes)
    (h : decode buf version ≠ .ok none) :
    decode (buf ++ ext) version = decode buf version := by
  have hlen : ¬ buf.length < 2 := by
    intro hlt
    exact h (by rw [decode, if_pos hlt])
  have hlen' : ¬ (buf ++ ext).length < 2 := by
    rw [List.length_append]; omega
  have hbyte : byteAt (buf ++ ext) 0 = byteAt buf 0 := by
    rw [byteAt, byteAt, List.getElem?_append_left (by omega)]
  rw [decode, if_neg hlen] at h
  rw [decode, decode, if_neg hlen, if_neg hlen', hbyte]
  rcases hb : byteAt buf 0 with e | first
  · rw [error_bind, error_bind]
  · simp only [hb, ok_bind] at h ⊢
    have hloop : remainingLengthLoop buf 4 0 1 0 ≠ .ok none := by
      intro hl
      exact h (by rw [hl, ok_bind])
    rw [remainingLengthLoop_append ext hloop]
    rcases hl : remainingLengthLoop buf 4 0 1 0 with e | _ | ⟨remaining, vb⟩
    · rw [error_bind, error_bind]
    · exact absurd hl hloop
    · simp only [hl, ok_bind] at h ⊢
      have htotal : ¬ buf.length < 1 + vb + remaining := by
        intro hlt
        exact h (by rw [if_pos hlt])
      have htotal' : ¬ (buf ++ ext).length < 1 + vb + remaining := by
        rw [List.length_append]; omega
      rw [if_neg htotal, if_neg htotal', List.drop_append_of_le_length (by omega),
        List.take_append_of_le_length (by rw [List.length_drop]; omega)]

/-- A decoded packet takes at least one byte and no more than the buffer holds. -/
theorem decode_consumed {buf : Bytes} {version : Version} {p : Packet} {n : Nat}
    (h : decode buf version = .ok (some (p, n))) : 0 < n ∧ n ≤ buf.length := by
  rw [decode] at h
  split at h
  · cases h
  · obtain ⟨first, -, h⟩ := bind_eq_ok.1 h
    obtain ⟨r, -, h⟩ := bind_eq_ok.1 h
    rcases r with _ | ⟨remaining, vb⟩
    · cases h
    · dsimp only at h
      split at h
      · cases h
      · next htotal =>
        split at h
        · cases h
        · obtain ⟨packet, -, h⟩ := bind_eq_ok.1 h
          simp only [Except.ok.injEq, Option.some.injEq, Prod.mk.injEq] at h
          omega

/-- `decode` as a decoder of frames. -/
def packetDecoder (version : Version) : FrameDecoder UInt8 PyError Packet where
  dec buf := decode buf version
  nil := rfl
  consumed := decode_consumed
  stable := decode_append

/-! ## Feeding a `PacketBuffer` -/

/-- Feed the chunks to a fresh `PacketBuffer` and iterate after each one, up to the first
    error. -/
def consumeChunks (version : Version) (chunks : List Bytes) : Yield UInt8 PyError Packet :=
  (packetDecoder version).run (chunks.flatMap fun data => [.feed data, .all]) []

theorem fed_chunks (chunks : List Bytes) :
    FrameDecoder.fed (chunks.flatMap fun data => [.feed data, .all]) = chunks.flatten := by
  induction chunks with
  | nil => rfl
  | cons data chunks ih =>
    rw [List.flatMap_cons, List.flatten_cons, ← ih]
    rfl

/-- Chunk by chunk or all at once: the same packets, the same end. -/
theorem consumeChunks_eq_frames (version : Version) (chunks : List Bytes) :
    consumeChunks version chunks = (packetDecoder version).frames chunks.flatten := by
  unfold consumeChunks
  rcases List.eq_nil_or_concat chunks with rfl | ⟨init, data, rfl⟩
  · exact ((packetDecoder version).frames_of_none (packetDecoder version).nil).symm
  · have hsplit : ((init ++ [data]).flatMap fun data => [FrameDecoder.Op.feed data, .all]) =
        ((init.flatMap fun data => [.feed data, .all]) ++ [.feed data]) ++ [.all] := by
      simp [List.flatMap_append]
    rw [List.concat_eq_append, hsplit, FrameDecoder.run_concat_all, List.nil_append, ← fed_chunks,
      List.flatMap_append]
    congr 1
    induction init with
    | nil => rfl
    | cons c init ih => simpa [FrameDecoder.fed] using ih

/-! ## The handshake and the read loop -/

/-- How `_await_connack` fails. -/
inductive ConnectFailure where
  | raised (e : PyError)
  | protocolError (pkt : Packet)
  | connectError (returnCode : Int) (properties : Option ConnAckProperties)
  | disconnected

/-- What `_await_connack` leaves: the CONNACK, the limit for `publish`, the buffer, and the
    reads that have not happened yet. -/
structure Connected where
  connack : ConnAck
  maxPublishQos : QoS
  buf : Bytes
  reads : List Bytes

/-- The body of the `for pkt in self._buf` loop of `_await_connack`. -/
def acceptConnack (version : Version) (pkt : Packet) : Except ConnectFailure (ConnAck × QoS) :=
  match pkt with
  | .connack c =>
      if c.returnCode ≠ 0 then .error (.connectError c.returnCode c.properties)
      else
        match version, c.properties with
        | .v5, some props =>
            match props.maximumQos with
            | none => .ok (c, .exactlyOnce)
            | some maxQos =>
                match QoS.ofVal maxQos.toNat with
                | .ok qos => .ok (c, qos)
                | .error e => .error (.raised e)
        | _, _ => .ok (c, .exactlyOnce)
  | _ => .error (.protocolError pkt)

/-- `_await_connack` over the chunks that `transport.read` returns. The loop body returns
    or raises at the first packet, so each iteration takes at most one. -/
def awaitConnack (version : Version) (buf : Bytes) : List Bytes → Except ConnectFailure Connected
  | [] => .error .disconnected
  | data :: reads =>
      match decode (buf ++ data) version with
      | .error e => .error (.raised e)
      | .ok none => awaitConnack version (buf ++ data) reads
      | .ok (some (pkt, n)) =>
          match acceptConnack version pkt with
          | .error e => .error e
          | .ok (connack, qos) => .ok ⟨connack, qos, (buf ++ data).drop n, reads⟩

section ReadLoop

variable {σ ε : Type} (version : Version) (dispatch : σ → Packet → Except ε σ)

/-- How the read loop stops: `decode` raised, `_dispatch` raised, or there is nothing more
    to read. -/
inductive LoopEnd (σ ε : Type) where
  | decodeError (e : PyError)
  | dispatchError (e : ε)
  | reading (st : σ) (buf : Bytes)

/-- `for packet in self._buf: await self._dispatch(packet)`: the packets dispatched, and
    how the loop ends. -/
def dispatchBuffered (st : σ) (buf : Bytes) : List Packet × LoopEnd σ ε :=
  match _h : decode buf version with
  | .error e => ([], .decodeError e)
  | .ok none => ([], .reading st buf)
  | .ok (some (packet, n)) =>
      match dispatch st packet with
      | .error e => ([packet], .dispatchError e)
      | .ok st' =>
          (packet :: (dispatchBuffered st' (buf.drop n)).1, (dispatchBuffered st' (buf.drop n)).2)
termination_by buf.length
decreasing_by
  all_goals
    have := decode_consumed _h
    rw [List.length_drop]
    omega

/-- `_read_loop` over the chunks that `transport.read` returns: all the packets it
    dispatches, and how it ends. -/
def readLoop : σ → Bytes → List Bytes → List Packet × LoopEnd σ ε
  | st, buf, [] => dispatchBuffered version dispatch st buf
  | st, buf, data :: reads =>
      match dispatchBuffered version dispatch st buf with
      | (log, .reading st' rest) =>
          (log ++ (readLoop st' (rest ++ data) reads).1, (readLoop st' (rest ++ data) reads).2)
      | stopped => stopped

/-- Dispatch a stream of packets in order, up to the first that raises; then the stream
    ends as it does. -/
def dispatchYield (st : σ) : List Packet → Ending UInt8 PyError → List Packet × LoopEnd σ ε
  | [], .waiting rest => ([], .reading st rest)
  | [], .failed e => ([], .decodeError e)
  | packet :: packets, ending =>
      match dispatch st packet with
      | .error e => ([packet], .dispatchError e)
      | .ok st' => (packet :: (dispatchYield st' packets ending).1,
          (dispatchYield st' packets ending).2)

/-- The dispatched packets are those of the buffer, in order. -/
theorem dispatchBuffered_eq (st : σ) (buf : Bytes) :
    dispatchBuffered version dispatch st buf =
      dispatchYield dispatch st ((packetDecoder version).frames buf).1
        ((packetDecoder version).frames buf).2 := by
  induction hn : buf.length using Nat.strongRecOn generalizing st buf with
  | ind n ih =>
    rw [dispatchBuffered]
    split
    · next e h => rw [(packetDecoder version).frames_of_error h, dispatchYield]
    · next h => rw [(packetDecoder version).frames_of_none h, dispatchYield]
    · next packet k h =>
      have hk := decode_consumed h
      have hlt : (buf.drop k).length < n := by rw [List.length_drop]; omega
      rw [(packetDecoder version).frames_of_some h, dispatchYield]
      rcases dispatch st packet with e | st'
      · rfl
      · simp only [ih _ hlt st' (buf.drop k) rfl]

/-- Dispatching goes on with `f` where the iteration left off, unless it stopped. -/
theorem dispatchYield_andThen (st : σ) (y : Yield UInt8 PyError Packet)
    (f : Bytes → Yield UInt8 PyError Packet) :
    dispatchYield dispatch st (y.andThen f).1 (y.andThen f).2 =
      match dispatchYield dispatch st y.1 y.2 with
      | (log, .reading st' rest) =>
          (log ++ (dispatchYield dispatch st' (f rest).1 (f rest).2).1,
            (dispatchYield dispatch st' (f rest).1 (f rest).2).2)
      | stopped => stopped := by
  obtain ⟨packets, ending⟩ := y
  induction packets generalizing st with
  | nil =>
    rcases ending with rest | e
    · simp [dispatchYield]
    · simp [dispatchYield]
  | cons packet packets ih =>
    rw [Yield.cons_andThen packet (packets, ending)]
    simp only [dispatchYield]
    rcases dispatch st packet with e | st'
    · rfl
    · simp only [ih st']
      rcases dispatchYield dispatch st' packets ending with ⟨log, e | e | ⟨st'', rest⟩⟩
      · rfl
      · rfl
      · rfl

/-- The read loop dispatches the packets of the buffer and of everything read after it, in
    order, whatever the reads are. -/
theorem readLoop_eq (st : σ) (buf : Bytes) (reads : List Bytes) :
    readLoop version dispatch st buf reads =
      dispatchYield dispatch st ((packetDecoder version).frames (buf ++ reads.flatten)).1
        ((packetDecoder version).frames (buf ++ reads.flatten)).2 := by
  induction reads generalizing st buf with
  | nil => rw [readLoop, dispatchBuffered_eq, List.flatten_nil, List.append_nil]
  | cons data reads ih =>
    rw [readLoop, dispatchBuffered_eq, ← FrameDecoder.frames_append, dispatchYield_andThen]
    rcases dispatchYield dispatch st _ _ with ⟨log, e | e | ⟨st', rest⟩⟩
    · rfl
    · rfl
    · simp only [ih, List.flatten_cons, List.append_assoc]

/-- When no dispatch raises, every packet is dispatched. -/
theorem dispatchYield_log (hok : ∀ st packet, ∃ st', dispatch st packet = .ok st') (st : σ)
    (packets : List Packet) (ending : Ending UInt8 PyError) :
    (dispatchYield dispatch st packets ending).1 = packets := by
  induction packets generalizing st with
  | nil => cases ending <;> rfl
  | cons packet packets ih =>
    obtain ⟨st', h⟩ := hok st packet
    simp only [dispatchYield, h, ih st']

end ReadLoop

theorem acceptConnack_eq_ok {version : Version} {pkt : Packet} {c : ConnAck} {qos : QoS}
    (h : acceptConnack version pkt = .ok (c, qos)) : pkt = .connack c := by
  unfold acceptConnack at h
  split at h
  · next c' =>
    have hc : c' = c := by
      split at h
      · cases h
      · split at h
        · split at h
          · cases h; rfl
          · split at h
            · cases h; rfl
            · cases h
        · cases h; rfl
    rw [hc]
  · cases h

/-- The CONNACK is the first packet of the stream, and the buffer and the reads left hold
    exactly the stream after it. -/
theorem awaitConnack_eq_ok {version : Version} {buf : Bytes} {reads : List Bytes} {c : Connected}
    (h : awaitConnack version buf reads = .ok c) :
    (packetDecoder version).frames (buf ++ reads.flatten) =
      (.connack c.connack ::
          ((packetDecoder version).frames (c.buf ++ c.reads.flatten)).1,
        ((packetDecoder version).frames (c.buf ++ c.reads.flatten)).2) := by
  induction reads generalizing buf with
  | nil => cases h
  | cons data reads ih =>
    rw [List.flatten_cons, ← List.append_assoc]
    rw [awaitConnack] at h
    rcases hd : decode (buf ++ data) version with e | _ | ⟨pkt, n⟩
    · simp [hd] at h
    · rw [hd] at h
      exact ih h
    · simp only [hd] at h
      rcases ha : acceptConnack version pkt with e | ⟨connack, qos⟩
      · simp [ha] at h
      · simp only [ha, Except.ok.injEq] at h
        subst h
        obtain ⟨hdec, hdrop⟩ := (packetDecoder version).dec_append_some hd reads.flatten
        rw [(packetDecoder version).frames_of_some hdec, hdrop, acceptConnack_eq_ok ha]

/-- **Framing is independent of chunking.** However a byte string is cut into chunks, and
    whatever iterations are abandoned on the way, the same packets are yielded and the
    iteration ends alike, with the same error or the same suffix left. After a successful
    handshake `_read_loop` dispatches every packet that followed the CONNACK, once and in
    order (up to the first dispatch that raises). -/
theorem framing_independent_of_chunks (version : Version) (s : Bytes) :
    (∀ chunks chunks' : List Bytes, chunks.flatten = s → chunks'.flatten = s →
      consumeChunks version chunks = consumeChunks version chunks') ∧
    (∀ (chunks : List Bytes) (packets : List Packet) (rest : Bytes), chunks.flatten = s →
      consumeChunks version chunks = (packets, .waiting rest) → rest <:+ s) ∧
    (∀ ops : List (FrameDecoder.Op UInt8), FrameDecoder.fed ops = s →
      (packetDecoder version).run (ops ++ [.all]) [] = consumeChunks version [s]) ∧
    (∀ (reads : List Bytes) (c : Connected), reads.flatten = s →
      awaitConnack version [] reads = .ok c →
      ∃ packets ending, consumeChunks version [s] = (.connack c.connack :: packets, ending) ∧
        ∀ (σ ε : Type) (dispatch : σ → Packet → Except ε σ) (st : σ),
          readLoop version dispatch st c.buf c.reads = dispatchYield dispatch st packets ending ∧
          ((∀ st packet, ∃ st', dispatch st packet = .ok st') →
            (readLoop version dispatch st c.buf c.reads).1 = packets)) := by
  refine ⟨?_, ?_, ?_, ?_⟩
  · intro chunks chunks' h h'
    rw [consumeChunks_eq_frames, consumeChunks_eq_frames, h, h']
  · intro chunks packets rest h hw
    rw [consumeChunks_eq_frames, h] at hw
    exact (packetDecoder version).suffix_of_frames hw
  · intro ops h
    rw [FrameDecoder.run_concat_all, consumeChunks_eq_frames, h]
    simp
  · intro reads c h hc
    have hfr := awaitConnack_eq_ok hc
    rw [List.nil_append, h] at hfr
    refine ⟨_, _, by rw [consumeChunks_eq_frames]; simpa using hfr, ?_⟩
    intro σ ε dispatch st
    rw [readLoop_eq]
    exact ⟨rfl, fun hok => dispatchYield_log dispatch hok st _ _⟩

theorem framing_independent_of_chunks_connack :
    consumeChunks .v311 [[32, 2, 0], [0, 208, 0]] = consumeChunks .v311 [[32], [2, 0, 0, 208, 0]] ∧
    ∃ packets ending, consumeChunks .v311 [[32, 2, 0, 0, 208, 0]] =
      (.connack ⟨false, 0, none⟩ :: packets, ending) := by
  obtain ⟨h, -, -, hc⟩ := framing_independent_of_chunks .v311 [32, 2, 0, 0, 208, 0]
  have h1 : decode ([] ++ [32, 2]) .v311 = .ok none := by decide +kernel
  have h2 : decode ([] ++ [32, 2] ++ [0, 0, 208, 0]) .v311 =
      .ok (some (.connack ⟨false, 0, none⟩, 4)) := by decide +kernel
  have hconn : awaitConnack .v311 [] [[32, 2], [0, 0, 208, 0]] =
      .ok ⟨⟨false, 0, none⟩, .exactlyOnce, [208, 0], []⟩ := by
    simp only [awaitConnack, h1, h2]
    rfl
  obtain ⟨packets, ending, hy, -⟩ := hc [[32, 2], [0, 0, 208, 0]] _ rfl hconn
  exact ⟨h _ _ rfl rfl, packets, ending, hy⟩

end Zmqtt
