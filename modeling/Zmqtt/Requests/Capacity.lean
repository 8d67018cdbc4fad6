/-
  The bound on pending requests. A permit is free, or belongs to a waiter in `_pending`, to a
  `register` that was given one and has not inserted its waiter, or to an `unregister` that has
  removed its waiter and not finished.
-/
import Zmqtt.Requests.Dispatcher

namespace Zmqtt

/-- The caller holds a permit of its own. -/
def CallerPc.holdsPermit : CallerPc → Bool
  | .granted | .tearingDown _ _ _ | .removeQueued _ _ | .removing _ _ => true
  | .acquiring | .readying _ _ | .returned _ | .ended => false

/-- The number of permits of a caller. -/
def CallerPc.permits (pc : CallerPc) : Nat := if pc.holdsPermit then 1 else 0

/-- The permits held by callers. -/
def heldPermits (callers : List DispatcherCaller) : Nat :=
  callers.countP fun caller => caller.pc.holdsPermit

/-- There are `n` permits; the tasks in the queue of the semaphore wait for one. -/
structure Permits (free : Nat) (waiters : List Nat) (pending : Dict RequestKey Nat)
    (callers : List DispatcherCaller) (n : Nat) : Prop where
  total : free + pending.length + heldPermits callers = n
  keys : pending.keys.Nodup
  nodup : waiters.Nodup
  acquiring : ∀ k ∈ waiters, ∃ caller, callers[k]? = some caller ∧ caller.pc = .acquiring

namespace RequestDispatcher

variable {d : RequestDispatcher} {n k : Nat} {caller : DispatcherCaller}

def HasPermits (d : RequestDispatcher) (n : Nat) : Prop :=
  Permits d.free d.waiters d.pending d.callers n

theorem callers_setPc (hc : d.callers[k]? = some caller) (pc : CallerPc) :
    (d.setPc k pc).callers = d.callers.set k { caller with pc } :=
  modify_of_get _ hc

theorem heldPermits_setPc (hc : d.callers[k]? = some caller) (pc : CallerPc) :
    heldPermits (d.setPc k pc).callers + caller.pc.permits =
      heldPermits d.callers + pc.permits := by
  rw [callers_setPc hc]
  exact countP_set_of_get (fun caller => caller.pc.holdsPermit) { caller with pc } hc

/-- A caller goes on; it does not wait for a permit. -/
theorem HasPermits.setPc (h : d.HasPermits (n + caller.pc.permits))
    (hc : d.callers[k]? = some caller) (hrun : caller.pc ≠ .acquiring) (pc : CallerPc) :
    (d.setPc k pc).HasPermits (n + pc.permits) := by
  have hheld := heldPermits_setPc hc pc
  have htotal := h.total
  refine ⟨?_, h.keys, h.nodup, fun j hj => ?_⟩
  · change d.free + d.pending.length + heldPermits (d.setPc k pc).callers = _
    omega
  · obtain ⟨other, hother, hpc⟩ := h.acquiring j hj
    have hne : k ≠ j := by
      rintro rfl
      rw [hc] at hother
      obtain rfl := Option.some.inj hother
      exact hrun hpc
    refine ⟨other, ?_, hpc⟩
    rw [callers_setPc hc, List.getElem?_set_ne hne]
    exact hother

/-- A released permit is free or goes to the first that waits. -/
theorem HasPermits.release (h : d.HasPermits n) : d.release.HasPermits (n + 1) := by
  have htotal := h.total
  unfold RequestDispatcher.release
  split
  · next hnil =>
    refine ⟨?_, h.keys, h.nodup, h.acquiring⟩
    change d.free + 1 + d.pending.length + heldPermits d.callers = n + 1
    omega
  · next k waiters hcons =>
    have hnodup : (k :: waiters).Nodup := hcons ▸ h.nodup
    obtain ⟨caller, hc, hpc⟩ := h.acquiring k (by rw [hcons]; exact List.mem_cons_self)
    have hc' : ({ d with waiters } : RequestDispatcher).callers[k]? = some caller := hc
    have hheld := heldPermits_setPc hc' .granted
    have hzero : caller.pc.permits = 0 := by rw [hpc]; rfl
    have hone : CallerPc.permits .granted = 1 := rfl
    refine ⟨?_, h.keys, (List.nodup_cons.1 hnodup).2, fun j hj => ?_⟩
    · change d.free + d.pending.length + heldPermits (RequestDispatcher.setPc _ k .granted).callers = n + 1
      change _ = heldPermits d.callers + _ at hheld
      omega
    · obtain ⟨other, hother, hother'⟩ := h.acquiring j (by rw [hcons]; exact List.mem_cons_of_mem _ hj)
      have hne : k ≠ j := by
        rintro rfl
        exact (List.nodup_cons.1 hnodup).1 hj
      refine ⟨other, ?_, hother'⟩
      rw [callers_setPc hc', List.getElem?_set_ne hne]
      exact hother

/-! ## `unregister` -/

theorem HasPermits.finishUnregister (h : d.HasPermits (n + caller.pc.permits))
    (hc : d.callers[k]? = some caller) (hrun : caller.pc ≠ .acquiring) :
    (d.finishUnregister k).HasPermits (n + 1) :=
  (h.setPc hc hrun .ended).release

theorem HasPermits.teardown (h : d.HasPermits (n + caller.pc.permits))
    (hc : d.callers[k]? = some caller) (hrun : caller.pc ≠ .acquiring) (topic : String) (i : Nat)
    (observerActive : Bool) : (d.teardown k topic i observerActive).HasPermits (n + 1) := by
  unfold RequestDispatcher.teardown
  split
  · dsimp only
    split
    · exact HasPermits.setPc h hc hrun (.removeQueued _ topic)
    · exact HasPermits.finishUnregister h hc hrun
  · exact h.finishUnregister hc hrun

theorem HasPermits.awaitTeardown (h : d.HasPermits (n + caller.pc.permits))
    (hc : d.callers[k]? = some caller) (hrun : caller.pc ≠ .acquiring) (topic : String) (i : Nat) :
    (d.awaitTeardown k topic i).HasPermits (n + 1) := by
  unfold RequestDispatcher.awaitTeardown
  split
  · exact h.teardown hc hrun topic i false
  · split
    · exact h.teardown hc hrun topic i true
    · exact h.teardown hc hrun topic i false
    all_goals exact h.setPc hc hrun (.tearingDown topic i _)

/-- A waiter leaves `_pending`. -/
theorem HasPermits.popPending (h : d.HasPermits (n + 1)) {key : RequestKey} {r : Nat}
    (hr : d.pending.get? key = some r) :
    Permits d.free d.waiters (d.pending.pop key) d.callers n := by
  have hlen := (Dict.keys_perm_pop h.keys (Dict.mem_keys_of_get? hr)).length_eq
  have htotal := h.total
  refine ⟨?_, Dict.nodup_keys_pop h.keys key, h.nodup, h.acquiring⟩
  simp only [Dict.keys, List.length_map, List.length_cons] at hlen
  omega

/-- A waiter in `_pending` and a caller hold their permits. -/
theorem HasPermits.permits_lt (h : d.HasPermits n) {key : RequestKey} {r : Nat}
    (hr : d.pending.get? key = some r) (hc : d.callers[k]? = some caller) :
    caller.pc.permits < n := by
  have htotal := h.total
  have hpos : 0 < d.pending.length :=
    List.length_pos_of_mem (Dict.mem_of_get? hr)
  have hheld : caller.pc.permits ≤ heldPermits d.callers := by
    unfold CallerPc.permits heldPermits
    split
    · next hp => exact List.countP_pos_iff.2 ⟨caller, List.mem_of_getElem? hc, hp⟩
    · exact Nat.zero_le _
  omega

/-- `unregister` takes one permit from `_pending` and gives one back, or none. -/
theorem HasPermits.unregister (h : d.HasPermits (n + caller.pc.permits))
    (hc : d.callers[k]? = some caller) (hrun : caller.pc ≠ .acquiring) (r : Nat) :
    (d.unregister k r).HasPermits n := by
  unfold RequestDispatcher.unregister
  split
  · exact h.setPc hc hrun .ended
  · next request hreq =>
    split
    · next hr =>
      have hlt := h.permits_lt hr hc
      obtain ⟨m, rfl⟩ : ∃ m, n = m + 1 := ⟨n - 1, by omega⟩
      have hpop : Permits d.free d.waiters (d.pending.pop request.key) d.callers
          (m + caller.pc.permits) := by
        refine HasPermits.popPending ?_ hr
        rw [Nat.add_right_comm]
        exact h
      split
      · exact HasPermits.finishUnregister hpop hc hrun
      · next i hi =>
        dsimp only
        split
        · exact HasPermits.finishUnregister hpop hc hrun
        · have hremoved : (d.removeWaiter r request.key i).HasPermits (m + caller.pc.permits) := hpop
          exact hremoved.awaitTeardown hc hrun request.key.1 i
    · exact h.setPc hc hrun .ended

/-! ## `register` -/

theorem ensureTopicReady_frame (d : RequestDispatcher) (connection : Nat) (topic : String)
    (i : Nat) :
    ∃ adds interests, (d.ensureTopicReady connection topic i).1 = { d with adds, interests } := by
  unfold RequestDispatcher.ensureTopicReady
  split
  · exact ⟨d.adds, d.interests, rfl⟩
  · exact ⟨_, _, rfl⟩

theorem topicInterest_frame (d : RequestDispatcher) (topic : String) :
    ∃ topics interests, (d.topicInterest topic).1 = { d with topics, interests } := by
  unfold RequestDispatcher.topicInterest
  split
  · exact ⟨d.topics, d.interests, rfl⟩
  · exact ⟨_, _, rfl⟩

theorem HasPermits.awaitReady (h : d.HasPermits (n + caller.pc.permits))
    (hc : d.callers[k]? = some caller) (hrun : caller.pc ≠ .acquiring) (r a : Nat) :
    (d.awaitReady k r a).HasPermits n := by
  unfold RequestDispatcher.awaitReady
  split
  · exact h.setPc hc hrun (.returned r)
  · exact h.unregister hc hrun r
  all_goals exact h.setPc hc hrun (.readying r a)

/-- The permit of a register goes to its waiter, or back. -/
theorem HasPermits.registered (h : d.HasPermits (n + caller.pc.permits))
    (hc : d.callers[k]? = some caller) (hrun : caller.pc ≠ .acquiring) (key : RequestKey) :
    (d.registered k key).HasPermits (n + 1) := by
  unfold RequestDispatcher.registered
  split
  · next connection hkey _ =>
    obtain ⟨topics, interests, htopic⟩ := topicInterest_frame d key.1
    dsimp only
    rw [htopic]
    generalize (d.topicInterest key.1).2 = i
    obtain ⟨adds, interests', hready⟩ := ensureTopicReady_frame
      (addWaiter { d with topics, interests } key i) connection key.1 i
    rw [hready]
    have hnew := (Dict.get?_eq_none_iff d.pending key).1 hkey
    have htotal := h.total
    have hadded : Permits d.free d.waiters (d.pending.set key d.requests.length) d.callers
        (n + 1 + caller.pc.permits) := by
      refine ⟨?_, ?_, h.nodup, h.acquiring⟩
      · rw [Dict.set_of_not_mem _ hnew, List.length_append, List.length_singleton]
        omega
      · rw [Dict.keys_set_of_not_mem _ hnew]
        refine List.nodup_append.2 ⟨h.keys, List.nodup_singleton _, fun a ha b hb => ?_⟩
        rintro rfl
        exact hnew (List.mem_singleton.1 hb ▸ ha)
    generalize hd' : ({ addWaiter { d with topics, interests } key i with
      adds, interests := interests' } : RequestDispatcher) = d'
    have hd : d'.HasPermits (n + 1 + caller.pc.permits) := by
      rw [← hd']
      exact hadded
    have hc' : d'.callers[k]? = some caller := by
      rw [← hd']
      exact hc
    exact hd.awaitReady hc' hrun _ _
  · exact (h.setPc hc hrun .ended).release

/-- A new caller that waits for nothing else holds no permit yet. -/
theorem HasPermits.newCaller (h : d.HasPermits n) (caller : DispatcherCaller) :
    Permits d.free d.waiters d.pending (d.callers ++ [caller]) (n + caller.pc.permits) := by
  have htotal := h.total
  refine ⟨?_, h.keys, h.nodup, fun k hk => ?_⟩
  · unfold heldPermits CallerPc.permits at *
    rw [List.countP_append, List.countP_singleton]
    omega
  · obtain ⟨other, hother, hpc⟩ := h.acquiring k hk
    exact ⟨other, List.getElem?_append_left (List.getElem?_eq_some_iff.1 hother).1 ▸ hother, hpc⟩

theorem HasPermits.register (h : d.HasPermits n) (key : RequestKey) :
    (d.register key).HasPermits n := by
  have hnew (pc : CallerPc) := h.newCaller { kind := .register key, pc }
  unfold RequestDispatcher.register
  dsimp only
  split
  · next hfree =>
    obtain ⟨m, rfl⟩ : ∃ m, n = m + 1 := ⟨n - 1, by have := h.total; omega⟩
    have htaken : Permits (d.free - 1) d.waiters d.pending
        (d.callers ++ [{ kind := .register key, pc := .granted }]) (m + 1) := by
      have hg := hnew .granted
      have htotal := hg.total
      refine ⟨?_, hg.keys, hg.nodup, hg.acquiring⟩
      rw [show CallerPc.permits .granted = 1 from rfl] at htotal
      omega
    have hd : ({ d with
        free := d.free - 1
        callers := d.callers ++ [{ kind := .register key, pc := .granted }] } :
        RequestDispatcher).HasPermits (m + 1) := htaken
    exact hd.registered (List.getElem?_concat_length ..) (by simp) key
  · have ha := hnew .acquiring
    refine ⟨ha.total, ha.keys, ?_, fun k hk => ?_⟩
    · refine List.nodup_append.2 ⟨h.nodup, List.nodup_singleton _, fun a ha b hb => ?_⟩
      rintro rfl
      obtain ⟨other, hother, -⟩ := h.acquiring a ha
      rw [List.mem_singleton.1 hb] at hother
      exact absurd (List.getElem?_eq_some_iff.1 hother).1 (Nat.lt_irrefl _)
    · rcases List.mem_append.1 hk with hk | hk
      · exact ha.acquiring k hk
      · rw [List.mem_singleton.1 hk]
        exact ⟨_, List.getElem?_concat_length .., rfl⟩

theorem HasPermits.close (h : d.HasPermits n) (r : Nat) : (d.close r).HasPermits n := by
  unfold RequestDispatcher.close
  split
  · exact h
  · split
    · exact h
    · have hd : ({ d.modifyRequest r fun request => { request with closed := true } with
          callers := d.callers ++ [{ kind := .close r, pc := .ended }] } :
          RequestDispatcher).HasPermits n := h.newCaller { kind := .close r, pc := .ended }
      exact hd.unregister (List.getElem?_concat_length ..) (by simp) r

/-! ## The other steps -/

theorem restoreFrom_frame (d : RequestDispatcher) (items : List (String × Nat)) :
    ∃ adds interests restoring restoreAwaits,
      d.restoreFrom items = { d with adds, interests, restoring, restoreAwaits } := by
  induction items generalizing d with
  | nil => exact ⟨d.adds, d.interests, none, none, rfl⟩
  | cons item items ih =>
    obtain ⟨topic, i⟩ := item
    unfold RequestDispatcher.restoreFrom
    split
    · split
      · exact ⟨d.adds, d.interests, none, none, rfl⟩
      · obtain ⟨adds, interests, hready⟩ :=
          ensureTopicReady_frame d (d.protocol.getD 0) topic i
        dsimp only
        rw [hready]
        split
        · obtain ⟨adds', interests', restoring, awaits, hrest⟩ :=
            ih { d with adds, interests }
          exact ⟨adds', interests', restoring, awaits, hrest⟩
        all_goals exact ⟨adds, interests, _, _, rfl⟩
    · exact ih d

theorem HasPermits.restoreFrom (h : d.HasPermits n) (items : List (String × Nat)) :
    (d.restoreFrom items).HasPermits n := by
  obtain ⟨adds, interests, restoring, awaits, hrest⟩ := restoreFrom_frame d items
  rw [hrest]
  exact h

/-- The permit of a caller that holds one. -/
theorem HasPermits.of_holdsPermit (h : d.HasPermits n) (hc : d.callers[k]? = some caller)
    (hp : caller.pc.holdsPermit = true) :
    ∃ m, n = m + 1 ∧ d.HasPermits (m + caller.pc.permits) := by
  have hpos : 0 < heldPermits d.callers :=
    List.countP_pos_iff.2 ⟨caller, List.mem_of_getElem? hc, hp⟩
  have htotal := h.total
  refine ⟨n - 1, by omega, ?_⟩
  rw [CallerPc.permits, if_pos hp, Nat.sub_add_cancel (by omega)]
  exact h

theorem HasPermits.resume (h : d.HasPermits n) (k : Nat) : (d.resume k).HasPermits n := by
  unfold RequestDispatcher.resume
  split
  · exact h
  · next caller hc =>
    split
    · next key hpc _ =>
      obtain ⟨m, rfl, hm⟩ := h.of_holdsPermit hc (by rw [hpc]; rfl)
      exact hm.registered hc (by rw [hpc]; nofun) key
    · next r a hpc =>
      have hn : d.HasPermits (n + caller.pc.permits) := by rw [hpc]; exact h
      split
      · exact hn.awaitReady hc (by rw [hpc]; nofun) r a
      · exact h
    · next topic i a hpc =>
      obtain ⟨m, rfl, hm⟩ := h.of_holdsPermit hc (by rw [hpc]; rfl)
      have hrun : caller.pc ≠ .acquiring := by rw [hpc]; nofun
      split
      · exact hm.teardown hc hrun topic i true
      · exact hm.teardown hc hrun topic i false
      all_goals exact h
    · exact h

theorem HasPermits.cancel (h : d.HasPermits n) (k : Nat) : (d.cancel k).HasPermits n := by
  unfold RequestDispatcher.cancel
  split
  · exact h
  · next caller hc =>
    split
    · next hpc =>
      -- the caller leaves the queue of the semaphore
      have hheld := heldPermits_setPc hc .ended
      have htotal := h.total
      rw [hpc] at hheld
      refine ⟨?_, h.keys, h.nodup.filter _, fun j hj => ?_⟩
      · change d.free + d.pending.length + heldPermits (d.setPc k .ended).callers = n
        change _ + 0 = _ + 0 at hheld
        omega
      · obtain ⟨hj, hne⟩ := List.mem_filter.1 hj
        obtain ⟨other, hother, hother'⟩ := h.acquiring j hj
        refine ⟨other, ?_, hother'⟩
        change (d.setPc k .ended).callers[j]? = some other
        rw [callers_setPc hc, List.getElem?_set_ne (Ne.symm (by simpa using hne))]
        exact hother
    · next hpc =>
      obtain ⟨m, rfl, hm⟩ := h.of_holdsPermit hc (by rw [hpc]; rfl)
      exact (hm.setPc hc (by rw [hpc]; nofun) .ended).release
    · next r a hpc =>
      have hn : d.HasPermits (n + caller.pc.permits) := by rw [hpc]; exact h
      exact hn.unregister hc (by rw [hpc]; nofun) r
    · next topic i a hpc =>
      obtain ⟨m, rfl, hm⟩ := h.of_holdsPermit hc (by rw [hpc]; rfl)
      exact hm.teardown hc (by rw [hpc]; nofun) topic i false
    · next hpc =>
      obtain ⟨m, rfl, hm⟩ := h.of_holdsPermit hc (by rw [hpc]; rfl)
      exact HasPermits.finishUnregister hm hc (by rw [hpc]; nofun)
    · next hpc =>
      obtain ⟨m, rfl, hm⟩ := h.of_holdsPermit hc (by rw [hpc]; rfl)
      exact hm.finishUnregister hc (by rw [hpc]; nofun)
    · exact h
    · exact h

/-- The caller of a `remove_response_observer` in the queue of its guard. -/
theorem waiterGuard_remove {guard : Nat × String} (h : d.waiterGuard (.remove k) = some guard) :
    ∃ caller, d.callers[k]? = some caller ∧ caller.pc = .removeQueued guard.1 guard.2 := by
  rw [waiterGuard] at h
  split at h
  · next hpc =>
    obtain ⟨caller, hc, hpc⟩ := Option.map_eq_some_iff.1 hpc
    cases h
    exact ⟨caller, hc, hpc⟩
  · cases h

theorem HasPermits.enterGuard (h : d.HasPermits n) (j : Nat) : (d.enterGuard j).HasPermits n := by
  unfold RequestDispatcher.enterGuard
  split
  · exact h
  · next waiter _ =>
    split
    · exact h
    · next guard hguard =>
      split
      · exact h
      · dsimp only
        split
        · split
          · exact h
          · exact h
        · next k _ _ =>
          obtain ⟨caller, hc, hpc⟩ := waiterGuard_remove hguard
          obtain ⟨m, rfl, hm⟩ := h.of_holdsPermit hc (by rw [hpc]; rfl)
          have hrun : caller.pc ≠ .acquiring := by rw [hpc]; nofun
          split
          · exact HasPermits.setPc hm hc hrun (.removing guard.1 guard.2)
          · exact HasPermits.finishUnregister hm hc hrun

theorem HasPermits.endAdd (h : d.HasPermits n) (a : Nat) (ok : Bool) :
    (d.endAdd a ok).HasPermits n := by
  unfold RequestDispatcher.endAdd
  split
  · exact h
  · split
    · exact h
    · exact h
    · split <;> exact h
    · split <;> exact h
    · split <;> exact h

theorem HasPermits.endRemove (h : d.HasPermits n) (k : Nat) : (d.endRemove k).HasPermits n := by
  unfold RequestDispatcher.endRemove
  split
  · next hpc =>
    obtain ⟨caller, hc, hpc⟩ := Option.map_eq_some_iff.1 hpc
    obtain ⟨m, rfl, hm⟩ := h.of_holdsPermit hc (by rw [hpc]; rfl)
    exact hm.finishUnregister hc (by rw [hpc]; nofun)
  · exact h

/-- `cancel_pending` gives back the permit of each waiter. -/
theorem HasPermits.cancelPending (h : d.HasPermits n) : d.cancelPending.HasPermits n := by
  have hloop : ∀ (rs : List Nat) {d : RequestDispatcher} {n : Nat}, d.HasPermits n →
      (rs.foldl (fun d r => (d.finishFuture r .disconnected).release) d).HasPermits
        (n + rs.length) := by
    intro rs
    induction rs with
    | nil => exact fun h => h
    | cons r rs ih =>
      intro d n h
      have hone : (d.finishFuture r .disconnected).HasPermits n := h
      rw [List.foldl_cons, List.length_cons, Nat.add_comm rs.length, ← Nat.add_assoc]
      exact ih hone.release
  have htotal := h.total
  have hcleared : Permits d.free d.waiters [] d.callers (n - d.pending.length) :=
    ⟨by simp only [List.length_nil]; omega, List.nodup_nil, h.nodup, h.acquiring⟩
  have hn : n = n - d.pending.length + (d.pending.map Prod.snd).length := by
    rw [List.length_map]
    omega
  rw [hn]
  exact hloop _ hcleared

theorem HasPermits.step (h : d.HasPermits n) (e : DispatcherEvent) : (d.step e).HasPermits n := by
  cases e with
  | bind =>
    rw [RequestDispatcher.step]
    split <;> exact h
  | restore =>
    rw [RequestDispatcher.step, RequestDispatcher.restore]
    split
    · exact h.restoreFrom d.topics
    · exact h
  | resumeRestore =>
    rw [RequestDispatcher.step, RequestDispatcher.resumeRestore]
    split
    · split
      · exact h.restoreFrom _
      all_goals exact h
    · exact h
  | cancelRestore => exact h
  | register key => exact h.register key
  | close r => exact h.close r
  | cancelFuture r => exact h
  | resume k => exact h.resume k
  | cancel k => exact h.cancel k
  | startAdd a =>
    rw [RequestDispatcher.step, RequestDispatcher.startAdd]
    split <;> exact h
  | enterGuard j => exact h.enterGuard j
  | endAdd a ok => exact h.endAdd a ok
  | endRemove k => exact h.endRemove k
  | cancelPending => exact h.cancelPending
  | claim m =>
    rw [RequestDispatcher.step, RequestDispatcher.claim]
    split <;> exact h
  | complete c =>
    rw [RequestDispatcher.step, RequestDispatcher.complete]
    split
    · exact h
    · split <;> exact h

/-- **Conserved permits.** In every state the free permits, the pending requests and the
    permits that callers hold add up to `max_pending_requests`; so there are never more
    requests, and all permits are free when no request is pending and no caller holds one. -/
theorem permits_conserved {maxPendingRequests : Nat} {d : RequestDispatcher}
    (h : Reach step anyStep (start maxPendingRequests) d) :
    d.free + d.pending.length + heldPermits d.callers = maxPendingRequests ∧
    d.pending.length ≤ maxPendingRequests ∧
    (d.pending = [] → (∀ caller ∈ d.callers, caller.pc.holdsPermit = false) →
      d.free = maxPendingRequests) := by
  have hinv : d.HasPermits maxPendingRequests := by
    refine Reach.invariant (I := fun d => d.HasPermits maxPendingRequests) h ?_ ?_
    · exact ⟨rfl, List.nodup_nil, List.nodup_nil, by simp [start]⟩
    · exact fun d e hd _ => HasPermits.step hd e
  have htotal := hinv.total
  refine ⟨htotal, by omega, fun hnil hidle => ?_⟩
  have hheld : heldPermits d.callers = 0 := by
    rw [heldPermits, List.countP_eq_zero]
    exact fun caller hc => by simp [hidle caller hc]
  rw [hnil, hheld] at htotal
  exact htotal

/-- One permit: the second register waits for it, the first request is closed while its topic
    gets ready, the second is given the permit. -/
def handedOverRun : List DispatcherEvent :=
  [.bind, .register ("r", [1]), .register ("r", [2]), .startAdd 0, .cancel 0, .close 0,
    .enterGuard 0, .endAdd 0 true, .resume 0, .enterGuard 0, .endRemove 0]

theorem permits_conserved_handedOverRun :
    (handedOverRun.foldl step (start 1)).callers.map DispatcherCaller.pc =
      [.ended, .granted, .ended] ∧
    (handedOverRun.foldl step (start 1)).pending = [] ∧
    (handedOverRun.foldl step (start 1)).free +
      (handedOverRun.foldl step (start 1)).pending.length +
      heldPermits (handedOverRun.foldl step (start 1)).callers = 1 :=
  ⟨by decide +kernel, by decide +kernel,
    (permits_conserved (Reach.foldl (meets_anyStep handedOverRun))).1⟩

end RequestDispatcher

end Zmqtt
