/-
  Framing of a byte stream: a decoder that takes one frame off the front of a
  buffer, and what a consumer sees when it feeds the buffer in chunks.

  `FrameDecoder` bundles the decoder with its three laws: nothing is decoded from
  an empty buffer, a frame takes at least one element and at most the whole
  buffer, and an answer other than "not yet" does not change when the buffer is
  extended. `frames` is the iteration to exhaustion. `run_andThen_frames` says that
  any script of feeds, complete and abandoned iterations, followed by a last
  iteration, yields what one iteration over the whole stream yields.
-/
import Mathlib.Tactic

namespace Zmqtt

/-- A decoder of one frame of a stream over `β`: the frame and its length, `none` while
    the buffer holds less than one frame, or an error. -/
structure FrameDecoder (β ε α : Type) where
  dec : List β → Except ε (Option (α × Nat))
  nil : dec [] = .ok none
  consumed : ∀ {buf : List β} {a : α} {n : Nat}, dec buf = .ok (some (a, n)) →
    0 < n ∧ n ≤ buf.length
  stable : ∀ {buf : List β} (ext : List β), dec buf ≠ .ok none → dec (buf ++ ext) = dec buf

/-- How an iteration ends: the frames are used up and `rest` is left, or `dec` raised. -/
inductive Ending (β ε : Type) where
  | waiting (rest : List β)
  | failed (e : ε)
  deriving DecidableEq

/-- The frames an iteration yielded, and how it ended. -/
abbrev Yield (β ε α : Type) := List α × Ending β ε

/-- Go on with `f` from what an iteration left. -/
def Yield.andThen {β ε α : Type} (y : Yield β ε α) (f : List β → Yield β ε α) : Yield β ε α :=
  match y.2 with
  | .waiting rest => (y.1 ++ (f rest).1, (f rest).2)
  | .failed e => (y.1, .failed e)

section Yield

variable {β ε α : Type}

@[simp] theorem Yield.andThen_waiting (as : List α) (rest : List β)
    (f : List β → Yield β ε α) :
    Yield.andThen (as, .waiting rest) f = (as ++ (f rest).1, (f rest).2) := rfl

@[simp] theorem Yield.andThen_failed (as : List α) (e : ε) (f : List β → Yield β ε α) :
    Yield.andThen (as, .failed e) f = (as, .failed e) := rfl

theorem Yield.andThen_assoc (y : Yield β ε α) (f g : List β → Yield β ε α) :
    (y.andThen f).andThen g = y.andThen fun rest => (f rest).andThen g := by
  obtain ⟨as, ending⟩ := y
  cases ending with
  | failed e => rfl
  | waiting rest =>
    rw [Yield.andThen_waiting, Yield.andThen_waiting]
    rcases f rest with ⟨bs, rest' | e⟩
    · simp
    · simp

theorem Yield.cons_andThen (a : α) (y : Yield β ε α) (f : List β → Yield β ε α) :
    Yield.andThen (a :: y.1, y.2) f = (a :: (y.andThen f).1, (y.andThen f).2) := by
  rcases y with ⟨as, rest | e⟩
  · simp
  · simp

end Yield

namespace FrameDecoder

variable {β ε α : Type} (d : FrameDecoder β ε α)

/-- The iteration to exhaustion: decode, cut the frame off the buffer, yield it. -/
def frames (buf : List β) : Yield β ε α :=
  match _h : d.dec buf with
  | .error e => ([], .failed e)
  | .ok none => ([], .waiting buf)
  | .ok (some (a, n)) => (a :: (frames (buf.drop n)).1, (frames (buf.drop n)).2)
termination_by buf.length
decreasing_by
  all_goals
    have := d.consumed _h
    rw [List.length_drop]
    omega

/-- An iteration that the consumer abandons after `k` frames. -/
def takeFrames : Nat → List β → Yield β ε α
  | 0, buf => ([], .waiting buf)
  | k + 1, buf =>
      match d.dec buf with
      | .error e => ([], .failed e)
      | .ok none => ([], .waiting buf)
      | .ok (some (a, n)) => (a :: (takeFrames k (buf.drop n)).1, (takeFrames k (buf.drop n)).2)

/-- What a consumer does with the buffer. -/
inductive Op (β : Type) where
  | feed (data : List β)
  | take (k : Nat)
  | all

/-- A script on a buffer, up to the first error. -/
def run : List (Op β) → List β → Yield β ε α
  | [], buf => ([], .waiting buf)
  | .feed data :: ops, buf => run ops (buf ++ data)
  | .take k :: ops, buf => (d.takeFrames k buf).andThen (run ops)
  | .all :: ops, buf => (d.frames buf).andThen (run ops)

/-- The bytes a script feeds. -/
def fed : List (Op β) → List β
  | [] => []
  | .feed data :: ops => data ++ fed ops
  | .take _ :: ops => fed ops
  | .all :: ops => fed ops

variable {buf ext : List β}

theorem frames_of_error {e : ε} (h : d.dec buf = .error e) : d.frames buf = ([], .failed e) := by
  rw [frames]
  split <;> simp_all

theorem frames_of_none (h : d.dec buf = .ok none) : d.frames buf = ([], .waiting buf) := by
  rw [frames]
  split <;> simp_all

theorem frames_of_some {a : α} {n : Nat} (h : d.dec buf = .ok (some (a, n))) :
    d.frames buf = (a :: (d.frames (buf.drop n)).1, (d.frames (buf.drop n)).2) := by
  rw [frames]
  split <;> simp_all

/-- What is decoded from `buf` is decoded from every extension of it, and the cut buffer
    is extended alike. -/
theorem dec_append_some {a : α} {n : Nat} (h : d.dec buf = .ok (some (a, n))) (ext : List β) :
    d.dec (buf ++ ext) = .ok (some (a, n)) ∧ (buf ++ ext).drop n = buf.drop n ++ ext := by
  have hne : d.dec buf ≠ .ok none := by rw [h]; simp
  refine ⟨by rw [d.stable ext hne, h], ?_⟩
  exact List.drop_append_of_le_length (d.consumed h).2

theorem dec_append_error {e : ε} (h : d.dec buf = .error e) (ext : List β) :
    d.dec (buf ++ ext) = .error e := by
  have hne : d.dec buf ≠ .ok none := by rw [h]; simp
  rw [d.stable ext hne, h]

/-- Iterating over an extended buffer: first what the buffer itself yields, then on with
    what it left. The induction follows `takeFrames`; the frame cut off in each step is cut
    off the extended buffer too. -/
theorem takeFrames_andThen (k : Nat) (buf ext : List β) :
    (d.takeFrames k buf).andThen (fun rest => d.frames (rest ++ ext)) = d.frames (buf ++ ext) := by
  induction k generalizing buf with
  | zero => simp [takeFrames]
  | succ k ih =>
    rw [takeFrames]
    rcases hd : d.dec buf with e | _ | ⟨a, n⟩
    · simp [d.frames_of_error (d.dec_append_error hd ext)]
    · simp
    · obtain ⟨hd', hdrop⟩ := d.dec_append_some hd ext
      rw [d.frames_of_some hd', hdrop, ← ih (buf.drop n)]
      exact Yield.cons_andThen a _ _

/-- A complete iteration is one abandoned after enough frames. -/
theorem frames_eq_takeFrames (buf : List β) : d.frames buf = d.takeFrames (buf.length + 1) buf := by
  suffices h : ∀ k buf, buf.length < k → d.frames buf = d.takeFrames k buf from
    h _ buf (Nat.lt_succ_self _)
  intro k
  induction k with
  | zero => intro buf hk; omega
  | succ k ih =>
    intro buf hk
    rw [takeFrames]
    rcases hd : d.dec buf with e | _ | ⟨a, n⟩
    · exact d.frames_of_error hd
    · exact d.frames_of_none hd
    · have hn := d.consumed hd
      have hlt : (buf.drop n).length < k := by rw [List.length_drop]; omega
      rw [d.frames_of_some hd, ih _ hlt]

theorem frames_append (buf ext : List β) :
    (d.frames buf).andThen (fun rest => d.frames (rest ++ ext)) = d.frames (buf ++ ext) := by
  rw [frames_eq_takeFrames d buf]
  exact d.takeFrames_andThen _ buf ext

/-- Any script, followed by a complete iteration, yields what one iteration over the
    buffer and all the bytes fed yields. -/
theorem run_andThen_frames (ops : List (Op β)) (buf : List β) :
    (d.run ops buf).andThen d.frames = d.frames (buf ++ fed ops) := by
  induction ops generalizing buf with
  | nil => simp [run, fed]
  | cons op ops ih =>
    cases op with
    | feed data => rw [run, ih, fed, List.append_assoc]
    | take k =>
      rw [run, Yield.andThen_assoc, fed, ← d.takeFrames_andThen k]
      simp only [ih]
    | all =>
      rw [run, Yield.andThen_assoc, fed, ← d.frames_append]
      simp only [ih]

theorem run_append (ops ops' : List (Op β)) (buf : List β) :
    d.run (ops ++ ops') buf = (d.run ops buf).andThen (d.run ops') := by
  induction ops generalizing buf with
  | nil => simp [run]
  | cons op ops ih =>
    cases op with
    | feed data => rw [List.cons_append, run, run, ih]
    | take k =>
      rw [List.cons_append, run, run, Yield.andThen_assoc]
      simp only [← ih]
    | all =>
      rw [List.cons_append, run, run, Yield.andThen_assoc]
      simp only [← ih]

/-- A script that ends with a complete iteration. -/
theorem run_concat_all (ops : List (Op β)) (buf : List β) :
    d.run (ops ++ [.all]) buf = d.frames (buf ++ fed ops) := by
  have hall : ∀ buf, d.run [.all] buf = d.frames buf := by
    intro buf
    rw [run]
    rcases d.frames buf with ⟨as, rest | e⟩
    · simp [run]
    · simp
  rw [run_append, funext hall, run_andThen_frames]

/-- What is left when the frames are used up is a suffix of the buffer. -/
theorem suffix_of_frames {as : List α} {rest : List β}
    (h : d.frames buf = (as, .waiting rest)) : rest <:+ buf := by
  suffices hk : ∀ k buf as, d.takeFrames k buf = (as, .waiting rest) → rest <:+ buf from
    hk _ buf as (d.frames_eq_takeFrames buf ▸ h)
  intro k
  induction k with
  | zero =>
    intro buf as hk
    rw [takeFrames] at hk
    cases hk
    exact List.suffix_refl _
  | succ k ih =>
    intro buf as hk
    rw [takeFrames] at hk
    rcases hd : d.dec buf with e | _ | ⟨a, n⟩
    · simp [hd] at hk
    · simp only [hd, Prod.mk.injEq, Ending.waiting.injEq] at hk
      rw [hk.2]
    · simp only [hd, Prod.mk.injEq] at hk
      exact (ih (buf.drop n) _ (Prod.ext rfl hk.2)).trans (List.drop_suffix n buf)

end FrameDecoder

end Zmqtt
