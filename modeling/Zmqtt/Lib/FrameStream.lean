/-
  Streams of encoded frames: a decoder of frames with the encoder that it inverts.

  `FrameCodec` adds to a `FrameDecoder` an encoder and the round trip, with any bytes after the
  frame. A stream is the concatenation of the encodings (`encAll`). `frames_encAll`: the
  iteration reads a stream back frame by frame. `frames_of_initial`: of a stream that has arrived
  in part it reads exactly the frames that have arrived in full, and never fails.
-/
import Zmqtt.Lib.Bytes
import Zmqtt.Lib.Framing

namespace Zmqtt

/-- A decoder of frames with the encoder it inverts, up to `norm`. -/
structure FrameCodec (β ε α : Type) extends FrameDecoder β ε α where
  enc : α → Except ε (List β)
  norm : α → α
  roundTrip : ∀ {a : α} {bs : List β} (rest : List β), enc a = .ok bs →
    dec (bs ++ rest) = .ok (some (norm a, bs.length))

namespace FrameCodec

variable {β ε α : Type} (c : FrameCodec β ε α)

/-- The frames one after the other; fails when one of them cannot be encoded. -/
def encAll : List α → Except ε (List β)
  | [] => .ok []
  | a :: as => do
      let bs ← c.enc a
      let rest ← encAll as
      .ok (bs ++ rest)

theorem encAll_cons {a : α} {as : List α} {stream : List β} :
    c.encAll (a :: as) = .ok stream ↔
      ∃ bs rest, c.enc a = .ok bs ∧ c.encAll as = .ok rest ∧ stream = bs ++ rest := by
  rw [encAll]
  constructor
  · intro h
    obtain ⟨bs, hb, h⟩ := bind_eq_ok.1 h
    obtain ⟨rest, hr, h⟩ := bind_eq_ok.1 h
    exact ⟨bs, rest, hb, hr, (Except.ok.inj h).symm⟩
  · rintro ⟨bs, rest, hb, hr, rfl⟩
    rw [hb, hr, ok_bind, ok_bind]

/-- The frames of a stream can be encoded one by one. -/
theorem encAll_of_forall {as : List α} (h : ∀ a ∈ as, ∃ bs, c.enc a = .ok bs) :
    ∃ stream, c.encAll as = .ok stream := by
  induction as with
  | nil => exact ⟨[], rfl⟩
  | cons a as ih =>
    obtain ⟨bs, hb⟩ := h a List.mem_cons_self
    obtain ⟨rest, hr⟩ := ih fun b hb => h b (List.mem_cons_of_mem a hb)
    exact ⟨bs ++ rest, c.encAll_cons.2 ⟨bs, rest, hb, hr, rfl⟩⟩

/-- An encoded frame is not empty. -/
theorem length_pos {a : α} {bs : List β} (h : c.enc a = .ok bs) : 0 < bs.length :=
  (c.consumed (c.roundTrip [] h)).1

/-- A frame that has arrived only in part is waited for. -/
theorem dec_of_short {a : α} {bs pre : List β} (h : c.enc a = .ok bs) (hpre : pre <+: bs)
    (hlt : pre.length < bs.length) : c.dec pre = .ok none := by
  obtain ⟨ext, rfl⟩ := hpre
  by_contra hne
  have hwhole := c.roundTrip [] h
  rw [List.append_nil, c.stable ext hne] at hwhole
  have hle := (c.consumed hwhole).2
  omega

/-- **A stream is read back.** The frames in order, then what the rest of the buffer holds. -/
theorem frames_encAll {as : List α} {stream : List β} (h : c.encAll as = .ok stream)
    (rest : List β) :
    c.frames (stream ++ rest) = (as.map c.norm ++ (c.frames rest).1, (c.frames rest).2) := by
  induction as generalizing stream with
  | nil =>
    cases h
    rfl
  | cons a as ih =>
    obtain ⟨bs, tail, hb, ht, rfl⟩ := c.encAll_cons.1 h
    rw [List.append_assoc, c.frames_of_some (c.roundTrip (tail ++ rest) hb), List.drop_left, ih ht]
    rfl

/-- A prefix of a stream ends inside one of the frames. -/
theorem prefix_cases {as : List α} {stream pre : List β} (h : c.encAll as = .ok stream)
    (hpre : pre <+: stream) :
    ∃ done todo head rest, as = done ++ todo ∧ c.encAll done = .ok head ∧ pre = head ++ rest ∧
      (todo = [] → rest = []) ∧
      ∀ a todo', todo = a :: todo' → ∃ bs, c.enc a = .ok bs ∧ rest <+: bs ∧
        rest.length < bs.length := by
  induction as generalizing stream pre with
  | nil =>
    cases h
    have hnil := List.prefix_nil.1 hpre
    refine ⟨[], [], [], [], rfl, rfl, hnil, fun _ => rfl, fun a todo' ht => ?_⟩
    cases ht
  | cons a as ih =>
    obtain ⟨bs, tail, hb, ht, rfl⟩ := c.encAll_cons.1 h
    by_cases hlt : pre.length < bs.length
    · have hshort : pre <+: bs :=
        List.prefix_of_prefix_length_le hpre (List.prefix_append bs tail) hlt.le
      refine ⟨[], a :: as, [], pre, rfl, rfl, rfl, fun ht => ?_, fun b todo' ht => ?_⟩
      · cases ht
      · cases ht
        exact ⟨bs, hb, hshort, hlt⟩
    · obtain ⟨pre', rfl⟩ :=
        List.prefix_of_prefix_length_le (List.prefix_append bs tail) hpre (Nat.le_of_not_lt hlt)
      obtain ⟨done, todo, head, rest, rfl, hd, rfl, hend, hnext⟩ :=
        ih ht ((List.prefix_append_right_inj bs).1 hpre)
      refine ⟨a :: done, todo, bs ++ head, rest, rfl, ?_, (List.append_assoc ..).symm, hend, hnext⟩
      exact c.encAll_cons.2 ⟨bs, head, hb, hd, rfl⟩

/-- **A stream that has arrived in part.** The frames that have arrived in full are read, the
    others are waited for. -/
theorem frames_of_initial {as : List α} {stream pre : List β} (h : c.encAll as = .ok stream)
    (hpre : pre <+: stream) :
    ∃ done todo head rest, as = done ++ todo ∧ c.encAll done = .ok head ∧ pre = head ++ rest ∧
      (∀ a todo', todo = a :: todo' → ∃ bs, c.enc a = .ok bs ∧ rest.length < bs.length) ∧
      c.frames pre = (done.map c.norm, .waiting rest) := by
  obtain ⟨done, todo, head, rest, has, hd, rfl, hend, hnext⟩ := c.prefix_cases h hpre
  have hrest : c.dec rest = .ok none := by
    cases todo with
    | nil =>
      rw [hend rfl]
      exact c.nil
    | cons a todo' =>
      obtain ⟨bs, hb, hshort, hlt⟩ := hnext a todo' rfl
      exact c.dec_of_short hb hshort hlt
  refine ⟨done, todo, head, rest, has, hd, rfl, fun a todo' ht => ?_, ?_⟩
  · obtain ⟨bs, hb, -, hlt⟩ := hnext a todo' ht
    exact ⟨bs, hb, hlt⟩
  · rw [c.frames_encAll hd, c.frames_of_none hrest, List.append_nil]

end FrameCodec

/-- What an iteration leaves holds no whole frame. -/
theorem FrameDecoder.dec_of_frames {β ε α : Type} (d : FrameDecoder β ε α) {buf rest : List β}
    {as : List α} (h : d.frames buf = (as, .waiting rest)) : d.dec rest = .ok none := by
  induction hn : buf.length using Nat.strongRecOn generalizing buf as with
  | ind n ih =>
    rcases hd : d.dec buf with e | _ | ⟨a, k⟩
    · rw [d.frames_of_error hd] at h
      cases h
    · rw [d.frames_of_none hd] at h
      cases h
      exact hd
    · have hk := d.consumed hd
      rw [d.frames_of_some hd] at h
      refine ih (buf.drop k).length (by rw [List.length_drop]; omega) (Prod.ext rfl ?_) rfl
      exact (Prod.mk.inj h).2

end Zmqtt
