/-
  Which packet id a new exchange gets (`PacketIdPool` of `_internal/state.py`, on a connection).

  `acquire` starts its search at a cursor that `release` moves back, and never looks below it.
  All ids below the cursor are in use (`Filled`), so the search has the result of one from the
  first id: the least free id. On a connection that is the least id that no exchange owns
  (`least_id_taken`).
-/
import Mathlib.Data.Int.LeastGreatest
import Mathlib.Order.Bounds.Basic
import Zmqtt.Session.FailedPublish
import Zmqtt.Session.SentPackets

namespace Zmqtt

namespace PacketIdPool

/-- The ids below the cursor are in use. -/
def Filled (pool : PacketIdPool) : Prop := ∀ id, 1 ≤ id → id < pool.next → id ∈ pool.inUse

/-- The ids that are not in use. -/
def free (inUse : Finset Int) : Set Int := {id | InRange id ∧ id ∉ inUse}

/-- Over ids in use the search goes up without wrapping round. -/
theorem search_up {inUse : Finset Int} {next : Int} (j k : Nat) (hjk : j < k)
    (hused : ∀ i : Nat, i < j → next + i ∈ inUse) (hfree : next + j ∉ inUse)
    (hlo : 1 ≤ next) (hhi : next + j ≤ 65535) : search inUse k next = next + j := by
  induction j generalizing next k with
  | zero =>
    obtain ⟨k, rfl⟩ : ∃ k', k = k' + 1 := ⟨k - 1, by omega⟩
    rw [Nat.cast_zero, add_zero] at hfree ⊢
    rw [search, if_neg hfree]
  | succ j ih =>
    obtain ⟨k, rfl⟩ : ∃ k', k = k' + 1 := ⟨k - 1, by omega⟩
    have hmem : next ∈ inUse := by simpa using hused 0 (Nat.succ_pos j)
    have hturn : next % 65535 + 1 = next + 1 := by
      push_cast at hhi
      omega
    have hshift : ∀ i : Nat, next + 1 + (i : Int) = next + ((i + 1 : Nat) : Int) := by
      intro i
      push_cast
      ring
    rw [search, if_pos hmem, hturn, ih k (by omega), hshift]
    · intro i hi
      rw [hshift]
      exact hused (i + 1) (by omega)
    · rw [hshift]
      exact hfree
    · omega
    · rw [hshift]
      exact hhi

/-- **The search from the cursor finds the least free id.** -/
theorem isLeast_search {pool : PacketIdPool} (hn : InRange pool.next) (hfilled : pool.Filled)
    (hcard : pool.inUse.card < 65535) :
    IsLeast (free pool.inUse) (search pool.inUse 65535 pool.next) := by
  obtain ⟨least, ⟨⟨hlo, hhi⟩, hnot⟩, hmin⟩ :=
    @Int.exists_least_of_bdd (· ∈ free pool.inUse) ⟨1, fun _ h => h.1.1⟩ (exists_free hcard)
  have hle : pool.next ≤ least := by
    by_contra hlt
    exact hnot (hfilled least hlo (not_le.1 hlt))
  obtain ⟨j, rfl⟩ : ∃ j : Nat, least = pool.next + j := ⟨(least - pool.next).toNat, by omega⟩
  have hnext := hn.1
  have hused : ∀ i : Nat, i < j → pool.next + i ∈ pool.inUse := by
    intro i hi
    by_contra hfree
    have hge := hmin (pool.next + i) ⟨⟨by omega, by omega⟩, hfree⟩
    omega
  rw [search_up j 65535 (by omega) hused hnot hnext hhi]
  exact ⟨⟨⟨hlo, hhi⟩, hnot⟩, fun id hid => hmin id hid⟩

theorem isLeast_acquire {pool pool' : PacketIdPool} {pid : Int} (hn : InRange pool.next)
    (hfilled : pool.Filled) (h : pool.acquire = some (pid, pool')) :
    IsLeast (free pool.inUse) pid := by
  rw [acquire] at h
  split at h
  · cases h
  · next hcard =>
    simp only [Option.some.injEq, Prod.mk.injEq] at h
    rw [← h.1]
    exact isLeast_search hn hfilled (Nat.lt_of_not_le hcard)

/-! ## The cursor -/

theorem Filled.acquire {pool pool' : PacketIdPool} {pid : Int} (hn : InRange pool.next)
    (h : pool.Filled) (hacq : pool.acquire = some (pid, pool')) : pool'.Filled := by
  have hleast := isLeast_acquire hn h hacq
  obtain ⟨-, -, huse, -⟩ := acquire_eq_some hn hacq
  have hnext : pool'.next = pid % 65535 + 1 := by
    rw [PacketIdPool.acquire] at hacq
    split at hacq
    · cases hacq
    · cases hacq
      rfl
  intro id hlo hlt
  have hrange := hleast.1.1
  rw [huse, Finset.mem_insert]
  by_contra hnot
  obtain ⟨hne, hfree⟩ := not_or.1 hnot
  have hge := hleast.2 (show id ∈ free pool.inUse from ⟨⟨hlo, by have := hrange.2; omega⟩, hfree⟩)
  have := hrange.1
  omega

/-- A released id becomes the cursor when it lies below. -/
theorem Filled.release {pool : PacketIdPool} (h : pool.Filled) (pid : Int) :
    (pool.release pid).Filled := by
  intro id hlo hlt
  obtain ⟨hnext, hpid⟩ := lt_min_iff.1 hlt
  exact Finset.mem_erase.2 ⟨hpid.ne, h id hlo hnext⟩

end PacketIdPool

/-! ## On a connection -/

namespace Protocol

variable {s s' : Protocol}

theorem filled_cleanup {st : SessionState} (h : st.packetIds.Filled) (kind : CallKind) (pid : Int) :
    (st.cleanup kind pid).packetIds.Filled := by
  cases kind with
  | publishQos1 | publishQos2 => exact h
  | subscribe | unsubscribe => exact h.release pid

theorem filled_startCall (hinv : s.OwnershipInv) (h : s.state.packetIds.Filled) (kind : CallKind)
    (filters : List String) (packetOf : Int → Packet) :
    (s.startCall kind filters packetOf).state.packetIds.Filled := by
  rcases s.startCall_cases kind filters packetOf with
    heq | ⟨pid, pool, hacq, ⟨e, -, heq⟩ | ⟨-, heq⟩⟩
  · rw [heq]
    exact h
  · rw [heq]
    refine filled_cleanup ?_ kind pid
    rw [packetIds_register]
    exact h.acquire hinv.ids.next hacq
  · rw [heq]
    change (SessionState.register _ kind pid s.calls.length).packetIds.Filled
    rw [packetIds_register]
    exact h.acquire hinv.ids.next hacq

theorem filled_popRelease {st : SessionState} (h : st.packetIds.Filled) (kind : CallKind)
    (pid : Int) : (st.popRelease kind pid).packetIds.Filled := by
  have hpool : (st.popRelease kind pid).packetIds = st.packetIds.release pid := by
    cases kind <;> rfl
  rw [hpool]
  exact h.release pid

theorem filled_setFuture {st : SessionState} (h : st.packetIds.Filled) (s : Protocol) (i : Nat)
    (future : FutureState) :
    ({ s with state := st }.setFuture i future).state.packetIds.Filled := by
  rw [state_setFuture]
  exact h

theorem filled_dispatch {packet : Packet} (h : s.state.packetIds.Filled)
    (hd : s.dispatch packet = .ok s') : s'.state.packetIds.Filled := by
  rcases dispatch_cases hd with
    rfl | ⟨kind, pid, i, future, rfl⟩ | ⟨i, future, rfl⟩ | ⟨pid, flight, -, rfl⟩
  · exact h
  · exact filled_setFuture (filled_popRelease h kind pid) s i future
  · exact filled_setFuture h s i future
  · exact h

theorem filled_resume (h : s.state.packetIds.Filled) (i : Nat) (written : Bool) :
    (s.resume i written).state.packetIds.Filled := by
  have hfinish : ∀ c outcome, (s.finish i c outcome).state.packetIds.Filled :=
    fun c _ => filled_cleanup h c.kind c.pid
  unfold resume
  split
  · exact h
  · split
    · exact h
    · split
      · exact hfinish _ _
      · split
        · split
          · exact h
          · exact hfinish _ _
        · exact hfinish _ _
    · split
      · exact h
      · split
        · exact hfinish _ _
        · exact hfinish _ _

theorem filled_step (hinv : s.OwnershipInv) (h : s.state.packetIds.Filled) (e : ProtocolEvent) :
    (s.step e).state.packetIds.Filled := by
  cases e with
  | publish packet =>
    rw [step, publish]
    split
    · exact h
    · split
      · split
        · exact h
        · exact h
      · exact filled_startCall hinv h _ _ _
      · exact filled_startCall hinv h _ _ _
  | sendSubscribe filters identifier => exact filled_startCall hinv h _ _ _
  | sendUnsubscribe filters => exact filled_startCall hinv h _ _ _
  | resume i written => exact filled_resume h i written
  | cancel i =>
    rw [step, cancel]
    repeat' split
    all_goals exact h
  | receive packet =>
    rw [step, receive]
    split
    · split
      · next hd => exact filled_dispatch h hd
      · exact h
    · exact h
    · exact h
  | resumeReadLoop written =>
    rw [step, resumeReadLoop]
    split
    · exact h
    · exact h
    · exact h
  | runExit =>
    obtain ⟨hstate, -⟩ := foldl_setFuture_frame (awaited s.state)
      { s with dead := true, readLoop := .stopped }
    rw [step, runExit, hstate]
    exact h

/-- A packet that the read loop takes opens no exchange. -/
theorem length_calls_receive (s : Protocol) (packet : Packet) :
    (s.receive packet).calls.length = s.calls.length := by
  unfold receive
  split
  · split
    · next s' hd =>
      rcases dispatch_cases hd with
        rfl | ⟨kind, pid, i, future, rfl⟩ | ⟨i, future, rfl⟩ | ⟨pid, flight, -, rfl⟩
      · rfl
      · exact length_calls_setFuture _ i future
      · exact length_calls_setFuture s i future
      · rfl
    · rfl
  · rfl
  · rfl

/-- The exchange that a step opens, if it opens one. -/
theorem pid_of_new (hinv : s.OwnershipInv) (h : s.state.packetIds.Filled) {e : ProtocolEvent}
    {c : Call} (hc : (s.step e).calls[s.calls.length]? = some c) :
    IsLeast (PacketIdPool.free s.state.packetIds.inUse) c.pid := by
  have hold : ∀ {calls : List Call}, calls.length = s.calls.length →
      calls[s.calls.length]? ≠ some c := by
    intro calls hlen hsome
    exact absurd (List.getElem?_eq_some_iff.1 hsome).1 (by omega)
  have hstart : ∀ kind filters packetOf,
      (s.startCall kind filters packetOf).calls[s.calls.length]? = some c →
        IsLeast (PacketIdPool.free s.state.packetIds.inUse) c.pid := by
    intro kind filters packetOf hsome
    rcases s.startCall_cases kind filters packetOf with
      heq | ⟨pid, pool, hacq, ⟨e, -, heq⟩ | ⟨-, heq⟩⟩
    · rw [heq] at hsome
      exact absurd hsome (hold rfl)
    · rw [heq] at hsome
      obtain rfl : _ = c := by simpa using hsome
      exact PacketIdPool.isLeast_acquire hinv.ids.next h hacq
    · rw [heq] at hsome
      obtain rfl : _ = c := by simpa using hsome
      exact PacketIdPool.isLeast_acquire hinv.ids.next h hacq
  cases e with
  | publish packet =>
    rw [step, publish] at hc
    split at hc
    · exact absurd hc (hold rfl)
    · split at hc
      · split at hc
        · exact absurd hc (hold rfl)
        · exact absurd hc (hold rfl)
      · exact hstart _ _ _ hc
      · exact hstart _ _ _ hc
  | sendSubscribe filters identifier => exact hstart _ _ _ hc
  | sendUnsubscribe filters => exact hstart _ _ _ hc
  | resume i written =>
    refine absurd hc (hold ?_)
    rw [step, resume]
    repeat' split
    all_goals simp [finish]
  | cancel i =>
    refine absurd hc (hold ?_)
    rw [step, cancel]
    repeat' split
    all_goals simp
  | receive packet => exact absurd hc (hold (length_calls_receive s packet))
  | resumeReadLoop written =>
    refine absurd hc (hold ?_)
    rw [step, resumeReadLoop]
    split
    · rfl
    · rfl
    · rfl
  | runExit =>
    obtain ⟨-, hlen, -⟩ := foldl_setFuture_frame (awaited s.state)
      { s with dead := true, readLoop := .stopped }
    exact absurd hc (hold hlen)

/-- **The least free id.** In every run of a connection, the packet id of an exchange that a step
    opens is the least of 1..65535 that no outstanding exchange owns; and ids run out only when
    all of them are owned. -/
theorem least_id_taken (version : Version) (maxPublishQos : QoS) (s : Protocol)
    (h : Reach step anyStep (fresh version maxPublishQos) s) :
    (∀ e c, (s.step e).calls[s.calls.length]? = some c →
      IsLeast {id | PacketIdPool.InRange id ∧ id ∉ s.state.ownedIds} c.pid) ∧
    (s.state.packetIds.acquire = none ↔ ∀ id, PacketIdPool.InRange id → id ∈ s.state.ownedIds) := by
  have hboth : s.OwnershipInv ∧ s.state.packetIds.Filled := by
    refine h.invariant (I := fun s => s.OwnershipInv ∧ s.state.packetIds.Filled)
      ⟨ownershipInv_fresh version maxPublishQos, fun id hlo hlt => ?_⟩
      fun s e hs _ => ⟨hs.1.step e, filled_step hs.1 hs.2 e⟩
    exact absurd hlt (not_lt.2 hlo)
  obtain ⟨hinv, hfilled⟩ := hboth
  refine ⟨fun e c hc => ?_, ?_⟩
  · have hleast := pid_of_new hinv hfilled hc
    have hset : PacketIdPool.free s.state.packetIds.inUse =
        {id | PacketIdPool.InRange id ∧ id ∉ s.state.ownedIds} := by
      refine Set.ext fun id => ?_
      show PacketIdPool.InRange id ∧ id ∉ _ ↔ PacketIdPool.InRange id ∧ id ∉ _
      rw [hinv.ids.inUse]
    exact hset ▸ hleast
  · have hwf : s.state.packetIds.Wf :=
      ⟨hinv.ids.next, fun id hid => Finset.mem_Icc.2 (hinv.ids.range id hid)⟩
    have hnone : s.state.packetIds.acquire = none ↔ s.state.packetIds.inUse.card ≥ 65535 := by
      unfold PacketIdPool.acquire
      split
      · next hcard => exact ⟨fun _ => hcard, fun _ => rfl⟩
      · next hcard => exact ⟨fun h => (by cases h), fun h => absurd h hcard⟩
    rw [hnone, hwf.full_iff]
    constructor
    · intro hall id hid
      rw [← hinv.ids.inUse, hall]
      exact Finset.mem_Icc.2 hid
    · intro hall
      refine Finset.Subset.antisymm hwf.inUse fun id hid => ?_
      exact (hinv.ids.inUse id).2 (hall id (Finset.mem_Icc.1 hid))

/-- Ids 1 and 2 are taken, 1 is acknowledged, so the next publish gets 1 again. -/
def reuseRun : List ProtocolEvent :=
  [.publish ⟨"a", [], .atLeastOnce, false, false, none, none⟩,
    .publish ⟨"b", [], .atLeastOnce, false, false, none, none⟩,
    .receive (.puback { packetId := 1 })]

theorem least_id_taken_reuseRun :
    let s := reuseRun.foldl step (fresh .v311 .exactlyOnce)
    IsLeast {id | PacketIdPool.InRange id ∧ id ∉ s.state.ownedIds} 1 := by
  have hleast := (least_id_taken .v311 .exactlyOnce _
    (Reach.foldl (meets_anyStep reuseRun))).1
    (.publish ⟨"c", [], .atLeastOnce, false, false, none, none⟩)
    { kind := .publishQos1, pid := 1, pc := .sending } (by decide +kernel)
  exact hleast

end Protocol

end Zmqtt
