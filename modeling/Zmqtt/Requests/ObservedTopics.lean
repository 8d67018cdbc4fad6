/-
  Whole runs of the dispatcher: the interest in a response topic matches the requests that are
  pending on it, and the current connection observes the topic while one of them has been
  registered there.

  An `unregister` that is cancelled while it waits for the ready task deletes the interest and
  leaves the task to itself, and one that is cancelled in the queue of a guard drops the
  removal; both leave an observer behind. A ready task of an earlier connection says nothing
  of the current one. The runs without such steps keep the invariant.
-/
import Zmqtt.Requests.Interest

namespace Zmqtt

namespace RequestDispatcher

variable {owner : Nat → String} {earlier : List Nat} {ex : Option Nat} {d d' : RequestDispatcher}
  {k : Nat} {pc pc' : CallerPc}

/-! ## `restore` -/

theorem InterestInv.restoring (h : InterestInv owner earlier ex d)
    {items : Option (List (String × Nat))} (awaits : Option Nat)
    (howned : ∀ l, items = some l → ∀ item ∈ l, owner item.2 = item.1 ∧
      item.2 < d.interests.length) (hlisted : Restores d.protocol items d.topics d.refcountOf) :
    InterestInv owner earlier ex { d with restoring := items, restoreAwaits := awaits } :=
  ⟨⟨h.acquiring, h.bound, h.counts, ⟨h.owners.topics, h.owners.teardowns, howned⟩, h.torn, hlisted,
    h.older, h.joined⟩, h.observes⟩

theorem InterestInv.endRestore (h : InterestInv owner earlier ex d) :
    InterestInv owner earlier ex { d with restoring := none, restoreAwaits := none } :=
  h.restoring none nofun nofun

/-- `_ensure_topic_ready` keeps the counts. -/
theorem refcountOf_ensureTopicReady (d : RequestDispatcher) (c : Nat) (t : String) (i : Nat) :
    (d.ensureTopicReady c t i).1.refcountOf = d.refcountOf ∧
      (d.ensureTopicReady c t i).1.interests.length = d.interests.length := by
  unfold RequestDispatcher.ensureTopicReady
  split
  · exact ⟨rfl, rfl⟩
  · refine ⟨?_, List.length_modify _ _ _⟩
    funext j
    rw [refcountOf_modifyInterest]
    split <;> rfl

/-- The loop of `restore`. What is left of it is for interests in `_topics`, as long as there is
    a connection. -/
theorem InterestInv.restoreFrom {items : List (String × Nat)} (h : InterestInv owner earlier none d)
    (howned : ∀ item ∈ items, owner item.2 = item.1 ∧ item.2 < d.interests.length)
    (hlisted : Restores d.protocol (some items) d.topics d.refcountOf) :
    InterestInv owner earlier none (d.restoreFrom items) := by
  induction items generalizing d with
  | nil => exact h.endRestore
  | cons item items ih =>
    obtain ⟨t, i⟩ := item
    have hrest : Restores d.protocol (some items) d.topics d.refcountOf := fun l hl hp item hin => by
      cases hl
      exact hlisted _ rfl hp item (List.mem_cons_of_mem _ hin)
    have hown : ∀ item ∈ items, owner item.2 = item.1 ∧ item.2 < d.interests.length :=
      fun item hin => howned item (List.mem_cons_of_mem _ hin)
    rw [RequestDispatcher.restoreFrom]
    split
    · next hpos =>
      split
      · exact h.endRestore
      · next hcase =>
        -- the ready task of the interest
        obtain ⟨hensured, htopics, hprot⟩ : InterestInv owner earlier none
            (d.ensureTopicReady (d.protocol.getD 0) t i).1 ∧
            (d.ensureTopicReady (d.protocol.getD 0) t i).1.topics = d.topics ∧
            (d.ensureTopicReady (d.protocol.getD 0) t i).1.protocol = d.protocol := by
          obtain ⟨adds, interests, hframe⟩ := ensureTopicReady_frame d (d.protocol.getD 0) t i
          refine ⟨?_, by rw [hframe], by rw [hframe]⟩
          cases hp : d.protocol with
          | none =>
            unfold RequestDispatcher.ensureTopicReady
            split
            · exact h
            · next hnone => exact (hcase hnone hp).elim
          | some c =>
            obtain ⟨interest, hint, hgt⟩ := (Option.any_eq_true ..).1 hpos
            have hcount : d.refcountOf i = some interest.refcount := by rw [refcountOf, hint]; rfl
            have hi := hlisted _ rfl (by rw [hp]; exact Option.some_ne_none c) (t, i)
              List.mem_cons_self interest.refcount hcount (of_decide_eq_true hgt)
            exact (h.ensureTopicReady hp hi).1
        obtain ⟨hcount, hlen⟩ := refcountOf_ensureTopicReady d (d.protocol.getD 0) t i
        rw [← hprot, ← htopics, ← hcount] at hrest
        rw [← hlen] at hown
        dsimp only
        split
        · exact ih hensured hown hrest
        · exact hensured.endRestore
        all_goals
          refine hensured.restoring _ (fun l hl => ?_) hrest
          cases hl
          exact hown
    · exact ih h hown hrest

theorem InterestInv.restore (h : InterestInv owner earlier none d) :
    InterestInv owner earlier none d.restore := by
  have hget {item : String × Nat} (hin : item ∈ d.topics) : d.topics.get? item.1 = some item.2 :=
    (Dict.mem_iff_get? h.counts.topicKeys item.1 item.2).1 hin
  unfold RequestDispatcher.restore
  split
  · refine h.restoreFrom (fun item hin => h.owners.topics item.1 item.2 (hget hin)) ?_
    intro l hl _ item hin _ _ _
    cases hl
    exact hget hin
  · exact h

theorem InterestInv.resumeRestore (h : InterestInv owner earlier none d) :
    InterestInv owner earlier none d.resumeRestore := by
  unfold RequestDispatcher.resumeRestore
  split
  · next items a hitems _ =>
    split
    · refine h.restoreFrom (h.owners.items items hitems) ?_
      rw [← hitems]
      exact h.restores
    · exact h.endRestore
    all_goals exact h
  · exact h

/-! ## Connections -/

/-- The callers to which `register` has returned. -/
def returnedCallers (d : RequestDispatcher) : List Nat :=
  (List.range d.callers.length).filter fun k =>
    match d.pcOf k with
    | some (.returned _) => true
    | _ => false

theorem mem_returnedCallers {r : Nat} (hk : d.pcOf k = some (.returned r)) :
    k ∈ d.returnedCallers := by
  obtain ⟨caller, hc, -⟩ := Option.map_eq_some_iff.1 hk
  refine List.mem_filter.2 ⟨List.mem_range.2 (List.getElem?_eq_some_iff.1 hc).1, ?_⟩
  rw [hk]

theorem requestKeys_bind (d : RequestDispatcher) : d.bind.requestKeys = d.requestKeys := by
  refine List.ext_getElem? fun j => ?_
  change ((d.requests.mapIdx fun r request => if r ∈ d.pending.map Prod.snd then
    { request with claimed := false } else request).map PendingRequest.key)[j]? =
    (d.requests.map PendingRequest.key)[j]?
  rw [List.getElem?_map, List.getElem?_map, List.getElem?_mapIdx]
  cases d.requests[j]? with
  | none => rfl
  | some request =>
    dsimp
    split <;> rfl

theorem refcountOf_bind (d : RequestDispatcher) : d.bind.refcountOf = d.refcountOf := by
  funext j
  change ((d.interests.mapIdx fun i interest => if i ∈ d.topics.map Prod.snd then
    { interest with ready := none } else interest)[j]?).map TopicInterest.refcount = _
  rw [List.getElem?_mapIdx, refcountOf]
  cases d.interests[j]? with
  | none => rfl
  | some interest =>
    dsimp
    split <;> rfl

theorem readyOf_bind (d : RequestDispatcher) : d.bind.readyOf = fun _ => none := by
  funext t
  change ((d.topics.get? t).bind fun i => ((d.interests.mapIdx fun i interest =>
    if i ∈ d.topics.map Prod.snd then { interest with ready := none } else interest)[i]?).bind
      TopicInterest.ready) = _
  cases hi : d.topics.get? t with
  | none => rfl
  | some i =>
    have hin : i ∈ d.topics.map Prod.snd := List.mem_map.2 ⟨(t, i), Dict.mem_of_get? hi, rfl⟩
    rw [Option.bind_some, List.getElem?_mapIdx]
    cases d.interests[i]? with
    | none => rfl
    | some interest =>
      rw [Option.map_some, if_pos hin]
      rfl

/-- A new connection; what has been registered so far was for earlier ones. -/
theorem InterestInv.bind (h : InterestInv owner earlier none d) (hrest : d.restoring = none) :
    InterestInv owner d.returnedCallers none d.bind := by
  have hlen : d.bind.interests.length = d.interests.length := List.length_mapIdx
  refine ⟨⟨h.acquiring, nofun, ?_, ?_, ?_, ?_, ⟨fun c hc => ?_, fun add hin => ?_, fun guard hin => ?_,
    fun k guard hk => ?_⟩, ⟨fun k r a hk => ?_, fun k r hk hnew => ?_⟩⟩, ?_⟩
  · rw [refcountOf_bind, requestKeys_bind]
    exact h.counts
  · rw [hlen]
    exact h.owners
  · rw [refcountOf_bind]
    exact h.torn
  · intro items hitems
    rw [show d.bind.restoring = none from hrest] at hitems
    cases hitems
  · cases hc
    exact Nat.lt_succ_self _
  · exact Nat.lt_succ_of_lt (h.older.adds add hin)
  · exact Nat.lt_succ_of_lt (h.older.observers guard hin)
  · exact Nat.lt_succ_of_lt (h.older.removes k guard hk)
  · obtain ⟨hlt, halt, -⟩ := h.joined.readying k r a hk
    refine ⟨by rw [requestKeys_bind]; exact hlt, halt, fun add key ha hp => ?_⟩
    -- the task is one of an earlier connection
    have hold := h.older.adds add (List.mem_of_getElem? ha)
    have heq : d.connections = add.connection := Option.some.inj hp
    omega
  · exact absurd (mem_returnedCallers hk) hnew
  · rw [readyOf_bind]
    exact h.observes.bind h.older

theorem InterestInv.finishFuture (h : InterestInv owner earlier ex d) (r : Nat)
    (future : RequestFuture) : InterestInv owner earlier ex (d.finishFuture r future) :=
  h.changeRequests d.claims d.log (requestKeys_finishFuture d r future)

/-- The loop of `cancel_pending`. -/
theorem InterestInv.disconnect (h : InterestInv owner earlier ex d) (requests : List Nat) :
    InterestInv owner earlier ex
      (requests.foldl (fun d r => (d.finishFuture r .disconnected).release) d) := by
  induction requests generalizing d with
  | nil => exact h
  | cons r requests ih => exact ih (h.finishFuture r .disconnected).release

theorem InterestInv.cancelPending (h : InterestInv owner earlier none d) :
    InterestInv owner earlier none d.cancelPending := by
  have hnoready : ∀ d' : RequestDispatcher, d'.topics = [] → d'.readyOf = fun _ => none :=
    fun d' hd' => by
      funext t
      rw [readyOf, hd']
      rfl
  unfold RequestDispatcher.cancelPending
  refine InterestInv.disconnect ?_ _
  generalize (d.topics.filterMap fun item => (d.interests[item.2]?).bind TopicInterest.ready) =
    readyTasks
  have hnone : ∀ {κ ν : Type} [DecidableEq κ] (k : κ) (v : ν), Dict.get? [] k ≠ some v :=
    fun _ _ he => by cases he
  refine ⟨⟨h.acquiring, fun _ => rfl, ⟨List.nodup_nil, List.nodup_nil,
      fun key r he => absurd he (hnone key r), fun key r he => absurd he (hnone key r),
      fun t i he => absurd he (hnone t i)⟩,
    ⟨fun t i he => absurd he (hnone t i), h.owners.teardowns, h.owners.items⟩,
    fun t i he => absurd he (hnone t i), fun _ _ hp => absurd rfl hp,
    ⟨(fun _ he => by cases he), fun add hin => ?_, h.older.observers, h.older.removes⟩,
    ⟨fun k r a hk => ?_, fun k r hk hnew => ?_⟩⟩, ?_⟩
  · obtain ⟨a, hlt, rfl⟩ := List.mem_mapIdx.1 hin
    have hold := h.older.adds _ (List.getElem_mem hlt)
    split <;> exact hold
  · obtain ⟨hlt, halt, -⟩ := h.joined.readying k r a hk
    exact ⟨hlt, by rw [List.length_mapIdx]; exact halt, fun _ key _ _ _ he => absurd he (hnone key r)⟩
  · exact ⟨(h.joined.returned k r hk hnew).1, fun key _ he => absurd he (hnone key r)⟩
  · rw [hnoready _ rfl]
    refine h.observes.unbind.congrAdds fun a => ?_
    rw [List.getElem?_mapIdx]
    cases d.adds[a]? with
    | none => rfl
    | some add =>
      dsimp
      split <;> rfl

/-! ## Response observers -/

/-- A task that has not succeeded gets to its next stage. -/
theorem Books.restage {a : Nat} {add : ObserverAdd} (h : Books owner earlier ex d)
    (ha : d.adds[a]? = some add) (hstage : add.stage ≠ .ok) (stage : AddStage)
    {observers : List (Nat × String)} (queue : List GuardWaiter)
    (hobs : ∀ guard ∈ observers, guard ∈ d.observers ∨ guard.1 = add.connection) :
    Books owner earlier ex { d with
      adds := d.adds.set a { add with stage }, observers, guardQueue := queue } := by
  have hlt := (List.getElem?_eq_some_iff.1 ha).1
  have hget (b : Nat) : (d.adds.set a { add with stage })[b]? =
      if a = b then some { add with stage } else d.adds[b]? := by
    rw [List.getElem?_set]
    by_cases hab : a = b
    · simp [hab, hab ▸ hlt]
    · simp [hab]
  have hconn := h.older.adds add (List.mem_of_getElem? ha)
  refine ⟨h.acquiring, h.bound, h.counts, h.owners, h.torn, h.restores, ⟨h.older.protocol,
    fun x hx => ?_, fun guard hg => ?_, h.older.removes⟩, ⟨fun k r b hk => ?_, fun k r hk hnew => ?_⟩⟩
  · rcases List.mem_or_eq_of_mem_set hx with hx | rfl
    · exact h.older.adds x hx
    · exact hconn
  · rcases hobs guard hg with hg | hg
    · exact h.older.observers guard hg
    · rw [hg]
      exact hconn
  · obtain ⟨hr, hb, hwaits⟩ := h.joined.readying k r b hk
    refine ⟨hr, by rw [List.length_set]; exact hb, fun x key hx hp => ?_⟩
    change (d.adds.set a { add with stage })[b]? = some x at hx
    rw [hget] at hx
    split at hx
    · next hab =>
      cases hx
      exact hwaits add key (hab ▸ ha) hp
    · exact hwaits x key hx hp
  · obtain ⟨hr, hfound⟩ := h.joined.returned k r hk hnew
    refine ⟨hr, fun key hkey hpend => ?_⟩
    obtain ⟨b, x, hready, hx, hok⟩ := hfound key hkey hpend
    refine ⟨b, x, hready, ?_, hok⟩
    change (d.adds.set a { add with stage })[b]? = some x
    rw [hget, if_neg]
    · exact hx
    · rintro rfl
      obtain rfl : add = x := Option.some.inj (ha.symm.trans hx)
      exact hstage hok

theorem setAddStage_of_get {a : Nat} {add : ObserverAdd} (ha : d.adds[a]? = some add)
    (stage : AddStage) :
    d.setAddStage a stage = { d with adds := d.adds.set a { add with stage } } := by
  rw [setAddStage, modify_of_get _ ha]

theorem InterestInv.startAdd (h : InterestInv owner earlier none d) (a : Nat) :
    InterestInv owner earlier none (d.startAdd a) := by
  unfold RequestDispatcher.startAdd
  split
  · next hstage =>
    rw [addStage] at hstage
    split at hstage
    · next add ha =>
      have ha' : ({ d with guardQueue := d.guardQueue ++ [.add a] } : RequestDispatcher).adds[a]? =
          some add := ha
      rw [setAddStage_of_get ha']
      exact ⟨h.toBooks.restage ha (by rw [hstage]; decide) .queued _ fun _ hg => Or.inl hg,
        h.observes.start ha hstage⟩
    · cases hstage
  · exact h

theorem InterestInv.endAdd (h : InterestInv owner earlier none d) (a : Nat) (ok : Bool) :
    InterestInv owner earlier none (d.endAdd a ok) := by
  have hearly {add : ObserverAdd} (ha : d.adds[a]? = some add)
      (hstage : add.stage = .created ∨ add.stage = .queued) : InterestInv owner earlier none
      (setAddStage { d with guardQueue := d.guardQueue.filter (· ≠ .add a) } a .failed) := by
    have ha' : ({ d with guardQueue := d.guardQueue.filter (· ≠ .add a) } :
        RequestDispatcher).adds[a]? = some add := ha
    rw [setAddStage_of_get ha']
    refine ⟨h.toBooks.restage ha ?_ .failed _ fun _ hg => Or.inl hg, h.observes.endEarly ha hstage⟩
    rcases hstage with hs | hs <;> rw [hs] <;> nofun
  unfold RequestDispatcher.endAdd
  split
  · exact h
  · next add ha =>
    split
    · exact h
    · exact h
    · next hstage =>
      split
      · exact h
      · exact hearly ha (Or.inl hstage)
    · next hstage =>
      split
      · exact h
      · exact hearly ha (Or.inr hstage)
    · next hstage =>
      have hne : add.stage ≠ .ok := by rw [hstage]; nofun
      split
      · rw [setAddStage_of_get ha]
        exact ⟨h.toBooks.restage ha hne .ok _ fun _ hg => Or.inl hg, h.observes.endOk ha hstage⟩
      · have ha' : ({ d with observers := d.observers.filter (· ≠ (add.connection, add.topic)) } :
            RequestDispatcher).adds[a]? = some add := ha
        rw [setAddStage_of_get ha']
        exact ⟨h.toBooks.restage ha hne .failed _ fun _ hg => Or.inl (List.mem_of_mem_filter hg),
          h.observes.endFailed ha hstage⟩

/-- A removal leaves the queue of its guard. -/
theorem InterestInv.leaveQueue {c : Nat} {t : String} (h : InterestInv owner earlier none d)
    (hk : d.pcOf k = some (.removeQueued c t)) {observers : List (Nat × String)}
    {queue : List GuardWaiter} (hsub : ∀ guard ∈ observers, guard ∈ d.observers)
    (hobs : Observes d.protocol d.readyOf d.adds observers queue (Function.update d.removes k none))
    (hquiet : pc'.quiet = true) :
    InterestInv owner earlier none
      (RequestDispatcher.setPc { d with observers, guardQueue := queue } k pc') := by
  have hnone : pc'.removes = none := by cases pc' <;> first | rfl | cases hquiet
  have hbooks : Books owner earlier none { d with observers, guardQueue := queue } :=
    ⟨h.acquiring, h.bound, h.counts, h.owners, h.torn, h.restores, ⟨h.older.protocol, h.older.adds,
      fun guard hg => h.older.observers guard (hsub guard hg), h.older.removes⟩, h.joined⟩
  have hk' : ({ d with observers, guardQueue := queue } : RequestDispatcher).pcOf k =
      some (.removeQueued c t) := hk
  refine ⟨hbooks.setPc hk' (h.not_mem_waiters hk nofun) nofun (fun guard hg => ?_) (fun t i a he => ?_)
    (fun r a he => ?_) fun r he => ?_, ?_⟩
  · rw [hnone] at hg
    cases hg
  · rw [he] at hquiet
    cases hquiet
  · rw [he] at hquiet
    cases hquiet
  · rw [he] at hquiet
    cases hquiet
  · rw [removes_setPc hk', hnone]
    exact hobs

theorem removes_eq_some {guard : Nat × String} (h : d.removes k = some guard) :
    d.pcOf k = some (.removeQueued guard.1 guard.2) := by
  obtain ⟨pc, hpc, hrem⟩ := Option.bind_eq_some_iff.1 h
  cases pc with
  | removeQueued c t =>
    cases hrem
    exact hpc
  | _ => cases hrem

theorem InterestInv.enterGuard (h : InterestInv owner earlier none d) (n : Nat) :
    InterestInv owner earlier none (d.enterGuard n) := by
  unfold RequestDispatcher.enterGuard
  split
  · exact h
  · next waiter hn =>
    split
    · exact h
    · next guard hguard =>
      split
      · exact h
      · next hfree =>
        have hfirst : ∀ k, .remove k ∈ d.guardQueue.take n → d.removes k ≠ some guard := by
          intro k hin hrem
          refine hfree (Or.inr (List.any_eq_true.2 ⟨.remove k, hin, ?_⟩))
          rw [waiterGuard_eq_removes, hrem]
          exact decide_eq_true rfl
        dsimp only
        split
        · next a =>
          obtain ⟨add, ha, hadd⟩ := Option.map_eq_some_iff.1 hguard
          subst hadd
          obtain ⟨add', ha', hqueued⟩ := h.observes.queued a (List.mem_of_getElem? hn)
          obtain rfl : add = add' := Option.some.inj (ha.symm.trans ha')
          have hne : add.stage ≠ .ok := by rw [hqueued]; nofun
          split
          · next hknown =>
            have ha' : ({ d with guardQueue := d.guardQueue.eraseIdx n } :
                RequestDispatcher).adds[a]? = some add := ha
            rw [setAddStage_of_get ha']
            have hin := List.contains_iff_mem.1 hknown
            exact ⟨h.toBooks.restage ha hne .ok _ fun _ hg => Or.inl hg,
              h.observes.enterAdd hn ha hfirst rfl (fun _ hg => hg) hin fun _ hg => Or.inl hg⟩
          · have ha' : ({ d with
                guardQueue := d.guardQueue.eraseIdx n
                observers := (add.connection, add.topic) :: d.observers } :
                RequestDispatcher).adds[a]? = some add := ha
            rw [setAddStage_of_get ha']
            refine ⟨h.toBooks.restage ha hne .exchanging _ fun guard hg => ?_,
              h.observes.enterAdd hn ha hfirst rfl (fun _ hg => List.mem_cons_of_mem _ hg)
                List.mem_cons_self fun guard hg => ?_⟩
            · rcases List.mem_cons.1 hg with rfl | hg
              · exact Or.inr rfl
              · exact Or.inl hg
            · exact (List.mem_cons.1 hg).symm
        · next k =>
          have hrem : d.removes k = some guard := (waiterGuard_eq_removes d k).symm.trans hguard
          have hobs := h.observes.enterRemove hn hrem
          split
          · exact h.leaveQueue (removes_eq_some hrem) (fun _ hg => List.mem_of_mem_filter hg) hobs rfl
          · next hunknown =>
            have hsame : d.observers.filter (· ≠ guard) = d.observers := by
              refine List.filter_eq_self.2 fun g hg => decide_eq_true ?_
              rintro rfl
              exact hunknown (List.contains_iff_mem.2 hg)
            rw [hsame] at hobs
            have hend : InterestInv owner earlier none (RequestDispatcher.setPc
                { d with guardQueue := d.guardQueue.eraseIdx n } k .ended) :=
              h.leaveQueue (removes_eq_some hrem) (fun _ hg => hg) hobs rfl
            exact hend.release

theorem InterestInv.endRemove (h : InterestInv owner earlier none d) (k : Nat) :
    InterestInv owner earlier none (d.endRemove k) := by
  unfold RequestDispatcher.endRemove
  split
  · next c t hk => exact h.finishUnregister hk nofun rfl nofun
  · exact h

/-! ## Callers -/

/-- The running `finally` block deletes the interest. -/
def deletes (d : RequestDispatcher) (t : String) (i : Nat) : Bool :=
  d.refcountOf i = some 0 && d.topics.get? t = some i

/-- The topic has no ready task, the task has failed, or it has succeeded and the topic is
    removed. -/
def settles (d : RequestDispatcher) (t : String) (observerActive : Bool) : Bool :=
  match d.readyOf t with
  | none => true
  | some a => d.addStage a = .failed || observerActive && d.addStage a = .ok

/-- The ready task of the topic has succeeded. -/
def topicReady (d : RequestDispatcher) (t : String) : Bool :=
  match d.readyOf t with
  | none => false
  | some a => d.addStage a = .ok

/-- The task that `register` has waited for is one of the current connection, or the topic is
    ready there. -/
def joins (d : RequestDispatcher) (r a : Nat) : Bool :=
  match d.requestKeys[r]? with
  | none => true
  | some key => d.pending.get? key ≠ some r || d.topicReady key.1 ||
      (d.adds[a]?).any fun add => d.protocol = some add.connection

/-- No `unregister` gives up its ready task, no removal of the current connection gives up its
    guard, and `register` returns on the connection that it has waited for. -/
def orderly (d : RequestDispatcher) : DispatcherEvent → Bool
  | .resume k =>
      match d.pcOf k with
      | some (.tearingDown t i a) =>
          !d.addDone a || !d.deletes t i || d.settles t (d.addStage a = .ok)
      | some (.readying r a) => d.addStage a ≠ .ok || d.joins r a
      | _ => true
  | .cancel k =>
      match d.pcOf k with
      | some (.tearingDown t i _) => !d.deletes t i || d.settles t false
      | some (.removeQueued c _) => d.protocol ≠ some c
      | _ => true
  | _ => true

theorem addStage_of_get {a : Nat} {add : ObserverAdd} (ha : d.adds[a]? = some add) :
    d.addStage a = add.stage := by
  rw [addStage, ha]

/-- The `finally` block runs where the interest is settled. -/
theorem InterestInv.teardownOf {t : String} {i a : Nat} (h : InterestInv owner earlier none d)
    (hk : d.pcOf k = some (.tearingDown t i a)) (active : Bool)
    (hok : d.deletes t i = true → d.settles t active = true) :
    InterestInv owner earlier none (d.teardown k t i active) := by
  refine (h.exempt (some i)).teardown hk nofun rfl (fun t' i' a' he => by cases he; rfl)
    (h.owners.teardowns k t i a hk).1 active fun hzero ht b add hready hadd => ?_
  have hsettled := hok (by simp [deletes, hzero, ht])
  rw [settles, hready] at hsettled
  simpa [addStage_of_get hadd] using hsettled

/-- `register` returns. -/
theorem InterestInv.returned {r a : Nat} (h : InterestInv owner earlier none d)
    (hk : d.pcOf k = some (.readying r a)) (hstage : d.addStage a = .ok) (hok : d.joins r a = true) :
    InterestInv owner earlier none (d.setPc k (.returned r)) := by
  obtain ⟨hr, ha, hwaits⟩ := h.joined.readying k r a hk
  refine h.setPc hk (h.not_mem_waiters hk nofun) rfl nofun rfl nofun nofun fun r' he => ?_
  cases he
  refine ⟨hr, fun key hkey hpend => ?_⟩
  have hfound {b : Nat} (hready : d.readyOf key.1 = some b) (hb : d.addStage b = .ok) :
      ∃ b add, d.readyOf key.1 = some b ∧ d.adds[b]? = some add ∧ add.stage = .ok := by
    obtain ⟨add, hadd, -⟩ := h.observes.ready key.1 b hready
    exact ⟨b, add, hready, hadd, (addStage_of_get hadd).symm.trans hb⟩
  rw [joins, hkey] at hok
  dsimp only at hok
  rw [Bool.or_eq_true, Bool.or_eq_true] at hok
  rcases hok with (hno | htopic) | hcurrent
  · exact absurd hpend (of_decide_eq_true hno)
  · rw [topicReady] at htopic
    split at htopic
    · cases htopic
    · next b hready => exact hfound hready (of_decide_eq_true htopic)
  · obtain ⟨add, hadd, hp⟩ := (Option.any_eq_true ..).1 hcurrent
    exact hfound (hwaits add key hadd (of_decide_eq_true hp) hkey hpend) hstage

theorem pcOf_of_get {caller : DispatcherCaller} (hc : d.callers[k]? = some caller) :
    d.pcOf k = some caller.pc := by
  rw [pcOf, hc]
  rfl

theorem InterestInv.resume (h : InterestInv owner earlier none d) (k : Nat)
    (hok : d.orderly (.resume k) = true) :
    ∃ owner', InterestInv owner' earlier none (d.resume k) := by
  unfold RequestDispatcher.resume
  split
  · exact ⟨owner, h⟩
  · next caller hc =>
    have hpc := pcOf_of_get hc
    split
    · next key hgranted _ => exact h.registered (hgranted ▸ hpc) key
    · next r a hreadying =>
      rw [hreadying] at hpc
      rw [orderly, hpc] at hok
      refine ⟨owner, ?_⟩
      split
      · next hdone =>
        unfold RequestDispatcher.awaitReady
        split
        · next hstage =>
          refine h.returned hpc hstage ?_
          simpa [hstage] using hok
        · exact h.unregister hpc nofun rfl nofun r
        all_goals
          next hstage =>
          rw [addDone, hstage] at hdone
          cases hdone
      · exact h
    · next t i a htearing =>
      rw [htearing] at hpc
      rw [orderly, hpc] at hok
      refine ⟨owner, ?_⟩
      split
      · next hstage =>
        refine h.teardownOf hpc true fun hdel => ?_
        simpa [addDone, hstage, hdel] using hok
      · next hstage =>
        refine h.teardownOf hpc false fun hdel => ?_
        simpa [addDone, hstage, hdel] using hok
      all_goals exact h
    · exact ⟨owner, h⟩

theorem InterestInv.cancel (h : InterestInv owner earlier none d) (k : Nat)
    (hok : d.orderly (.cancel k) = true) : InterestInv owner earlier none (d.cancel k) := by
  unfold RequestDispatcher.cancel
  split
  · exact h
  · next caller hc =>
    have hpc := pcOf_of_get hc
    split
    · next hacquiring =>
      rw [hacquiring] at hpc
      have hfiltered : InterestInv owner earlier none
          { d with waiters := d.waiters.filter (· ≠ k) } :=
        ⟨⟨⟨h.acquiring.nodup.filter _, fun j hj => h.acquiring.waiting j (List.mem_of_mem_filter hj)⟩,
          h.bound, h.counts, h.owners, h.torn, h.restores, h.older, h.joined⟩, h.observes⟩
      exact hfiltered.goOn hpc (by simp) rfl (fun _ _ _ he => by cases he) .ended rfl
    · next hgranted =>
      rw [hgranted] at hpc
      exact h.finishUnregister hpc (fun he => by cases he) rfl fun _ _ _ he => by cases he
    · next r a hreadying =>
      rw [hreadying] at hpc
      exact h.unregister hpc (fun he => by cases he) rfl (fun _ _ _ he => by cases he) r
    · next t i a htearing =>
      rw [htearing] at hpc
      rw [orderly, hpc] at hok
      refine h.teardownOf hpc false fun hdel => ?_
      simpa [hdel] using hok
    · next c t hqueued =>
      rw [hqueued] at hpc
      rw [orderly, hpc] at hok
      have hrem : d.removes k = some (c, t) := by rw [removes, hpc]; rfl
      have hobs : Observes d.protocol d.readyOf d.adds d.observers
          (d.guardQueue.filter (· ≠ .remove k)) (Function.update d.removes k none) := by
        by_cases hin : .remove k ∈ d.guardQueue
        · exact h.observes.cancelRemove hrem hin (of_decide_eq_true hok)
        · have hsame : d.guardQueue.filter (· ≠ .remove k) = d.guardQueue := by
            refine List.filter_eq_self.2 fun w hw => decide_eq_true ?_
            rintro rfl
            exact hin hw
          rw [hsame]
          exact h.observes.forget hin
      have hend : InterestInv owner earlier none (RequestDispatcher.setPc
          { d with guardQueue := d.guardQueue.filter (· ≠ .remove k) } k .ended) :=
        h.leaveQueue hpc (fun _ hg => hg) hobs rfl
      exact hend.release
    · next hremoving =>
      rw [hremoving] at hpc
      exact h.finishUnregister hpc (fun he => by cases he) rfl fun _ _ _ he => by cases he
    all_goals exact h

/-! ## Claims -/

theorem InterestInv.claim (h : InterestInv owner earlier none d) (m : Received) :
    InterestInv owner earlier none (d.claim m) := by
  unfold RequestDispatcher.claim
  split
  · exact h
  · exact h.changeRequests _ _ (requestKeys_modifyRequest d _ fun _ => rfl)

theorem InterestInv.complete (h : InterestInv owner earlier none d) (c : Nat) :
    InterestInv owner earlier none (d.complete c) := by
  unfold RequestDispatcher.complete
  split
  · exact h
  · split
    · exact h.changeRequests _ _ (requestKeys_finishFuture d _ _)
    · exact h

/-! ## Runs -/

theorem InterestInv.start (maxPendingRequests : Nat) :
    InterestInv (fun _ => "") [] none (start maxPendingRequests) := by
  refine ⟨⟨⟨List.nodup_nil, nofun⟩, fun _ => rfl, ⟨List.nodup_nil, List.nodup_nil, nofun, nofun, nofun⟩,
    ⟨nofun, nofun, nofun⟩, nofun, nofun, ⟨nofun, nofun, nofun, nofun⟩, ⟨nofun, nofun⟩⟩,
    ⟨List.nodup_nil, nofun, nofun, nofun, nofun, nofun, nofun, List.Pairwise.nil⟩⟩

end RequestDispatcher

/-- A dispatcher, and the callers to which `register` returned on earlier connections. -/
structure ObservedDispatcher where
  dispatcher : RequestDispatcher
  earlier : List Nat := []

namespace ObservedDispatcher

open RequestDispatcher (InterestInv)

def step (s : ObservedDispatcher) (e : DispatcherEvent) : ObservedDispatcher where
  dispatcher := s.dispatcher.step e
  earlier := if e = .bind ∧ s.dispatcher.restoring = none then s.dispatcher.returnedCallers else s.earlier

def start (maxPendingRequests : Nat) : ObservedDispatcher where
  dispatcher := RequestDispatcher.start maxPendingRequests

/-- A call of `register` or `unregister` is at work for the topic. -/
def callerBusy (d : RequestDispatcher) (t : String) (caller : DispatcherCaller) : Bool :=
  match caller.pc, caller.kind with
  | .acquiring, .register key | .granted, .register key => key.1 = t
  | .readying r _, _ => (d.requests[r]?).any fun request => request.key.1 = t
  | .tearingDown topic _ _, _ | .removeQueued _ topic, _ | .removing _ topic, _ => topic = t
  | _, _ => false

/-- A call of `register`, `unregister`, `add_response_observer` or `remove_response_observer`
    is at work for the topic. -/
def busy (d : RequestDispatcher) (t : String) : Bool :=
  d.callers.any (callerBusy d t) || d.adds.any fun add => add.topic = t && add.stage.running

/-- The interest in response topics matches the pending requests. -/
structure InterestMatches (s : ObservedDispatcher) : Prop where
  counted : ∀ (t : String) (i : Nat) (interest : TopicInterest),
    s.dispatcher.topics.get? t = some i → s.dispatcher.interests[i]? = some interest →
    interest.refcount = (pendingOn s.dispatcher.pending t : Int)
  released : ∀ (c : Nat) (t : String), s.dispatcher.protocol = some c →
    pendingOn s.dispatcher.pending t = 0 → busy s.dispatcher t = false →
    (c, t) ∉ s.dispatcher.observers
  found : ∀ (c k r : Nat) (request : PendingRequest) (kind : CallerKind),
    s.dispatcher.protocol = some c → s.dispatcher.callers[k]? = some ⟨kind, .returned r⟩ →
    k ∉ s.earlier → s.dispatcher.requests[r]? = some request →
    s.dispatcher.pending.get? request.key = some r →
    (c, request.key.1) ∈ s.dispatcher.observers

variable {s : ObservedDispatcher}

/-- A suspended caller is at work for its topic. -/
theorem busy_of_pcOf {d : RequestDispatcher} {k : Nat} {pc : CallerPc} {t : String}
    (hk : d.pcOf k = some pc) (hbusy : ∀ kind, callerBusy d t ⟨kind, pc⟩ = true) :
    busy d t = true := by
  obtain ⟨caller, hc, hpc⟩ := Option.map_eq_some_iff.1 hk
  refine Bool.or_eq_true_iff.2 (Or.inl (List.any_eq_true.2 ⟨caller, List.mem_of_getElem? hc, ?_⟩))
  have := hbusy caller.kind
  rw [← hpc] at this
  exact this

/-- What the invariant says of one state. -/
theorem matches_of_inv {owner : Nat → String}
    (h : InterestInv owner s.earlier none s.dispatcher) : InterestMatches s := by
  refine ⟨fun t i interest ht hi => ?_, fun c t hp hnone hidle hin => ?_,
    fun c k r request kind hp hk hnew hr hpend => ?_⟩
  · have hcount := h.counts.counted t i ht
    rw [RequestDispatcher.refcountOf, hi] at hcount
    exact Option.some.inj hcount
  · -- an observer without a request is about to be removed, or its interest is
    have hbusy : busy s.dispatcher t = true := by
      rcases h.observes.observed c t hp hin with ⟨k, -, hrem⟩ | ⟨a, add, hready, -, -⟩
      · exact busy_of_pcOf (RequestDispatcher.removes_eq_some hrem) fun _ => decide_eq_true rfl
      · obtain ⟨i, hi, -⟩ := Option.bind_eq_some_iff.1 hready
        have hzero := h.counts.counted t i hi
        rw [hnone] at hzero
        obtain ⟨k, b, hk⟩ := (h.torn t i hi hzero).resolve_left fun he => by cases he
        exact busy_of_pcOf hk fun _ => decide_eq_true rfl
    rw [hidle] at hbusy
    cases hbusy
  · have hkey : s.dispatcher.requestKeys[r]? = some request.key := by
      rw [RequestDispatcher.requestKeys, List.getElem?_map, hr]
      rfl
    obtain ⟨-, hfound⟩ := h.joined.returned k r (RequestDispatcher.pcOf_of_get hk) hnew
    obtain ⟨a, add, hready, ha, hok⟩ := hfound request.key hkey hpend
    exact (h.observes.held c request.key.1 a add hp hready ha (by rw [hok]; rfl)).1

theorem inv_step {owner : Nat → String} (h : InterestInv owner s.earlier none s.dispatcher)
    (e : DispatcherEvent) (hok : s.dispatcher.orderly e = true) :
    ∃ owner', InterestInv owner' (s.step e).earlier none (s.step e).dispatcher := by
  by_cases hbind : e = .bind
  · subst hbind
    by_cases hrest : s.dispatcher.restoring = none
    · rw [step, RequestDispatcher.step]
      dsimp only
      rw [if_pos hrest, if_pos ⟨rfl, hrest⟩]
      exact ⟨owner, h.bind hrest⟩
    · rw [step, RequestDispatcher.step]
      dsimp only
      rw [if_neg hrest, if_neg fun hb => hrest hb.2]
      exact ⟨owner, h⟩
  · have hsame : (s.step e).earlier = s.earlier := if_neg fun hb => hbind hb.1
    rw [hsame]
    cases e with
    | bind => exact absurd rfl hbind
    | restore => exact ⟨owner, h.restore⟩
    | resumeRestore => exact ⟨owner, h.resumeRestore⟩
    | cancelRestore => exact ⟨owner, h.endRestore⟩
    | register key => exact h.register key
    | close r => exact ⟨owner, h.close r⟩
    | cancelFuture r => exact ⟨owner, h.finishFuture r .cancelled⟩
    | resume k => exact h.resume k hok
    | cancel k => exact ⟨owner, h.cancel k hok⟩
    | startAdd a => exact ⟨owner, h.startAdd a⟩
    | enterGuard n => exact ⟨owner, h.enterGuard n⟩
    | endAdd a ok => exact ⟨owner, h.endAdd a ok⟩
    | endRemove k => exact ⟨owner, h.endRemove k⟩
    | cancelPending => exact ⟨owner, h.cancelPending⟩
    | claim m => exact ⟨owner, h.claim m⟩
    | complete c => exact ⟨owner, h.complete c⟩

/-- **The interest matches the requests.** In every run whose steps are all orderly, for any
    number of requests, topics, connections and suspended calls. -/
theorem interest_matches {maxPendingRequests : Nat}
    (h : Reach step (fun s e => s.dispatcher.orderly e = true) (start maxPendingRequests) s) :
    InterestMatches s := by
  obtain ⟨owner, hinv⟩ := h.invariant (I := fun s => ∃ owner,
    InterestInv owner s.earlier none s.dispatcher) ⟨_, InterestInv.start maxPendingRequests⟩
    fun s e ⟨owner, hinv⟩ hok => inv_step hinv e hok
  exact matches_of_inv hinv

/-- Two requests share a topic; the first is cancelled while the broker is asked, the second is
    registered. -/
def sharedRun : List DispatcherEvent :=
  [.bind, .register ("a", [1]), .register ("a", [2]), .startAdd 0, .enterGuard 0, .cancel 0,
    .endAdd 0 true, .resume 1]

theorem interest_matches_sharedRun :
    (sharedRun.foldl step (start 2)).dispatcher.observers = [(0, "a")] ∧
    InterestMatches (sharedRun.foldl step (start 2)) := by
  refine ⟨by decide +kernel, interest_matches (Reach.foldl ?_)⟩
  refine ⟨?_, ?_, ?_, ?_, ?_, ?_, ?_, ?_, trivial⟩ <;> decide +kernel

/-- A request is cancelled, and its `unregister` once more while it waits for the ready task.
    The task goes on and succeeds. -/
def abandonedRun : List DispatcherEvent :=
  [.bind, .register ("a", [1]), .cancel 0, .cancel 0, .startAdd 0, .enterGuard 0, .endAdd 0 true]

/-- The topic stays in the set of observers, and nothing is left that would remove it. -/
theorem abandoned_observer : ¬ ∀ (maxPendingRequests : Nat) (s : ObservedDispatcher),
    Reach step anyStep (start maxPendingRequests) s → InterestMatches s := by
  intro h
  have hmatches := h 1 _ (Reach.foldl (meets_anyStep abandonedRun))
  have hidle : busy (abandonedRun.foldl step (start 1)).dispatcher "a" = false := by decide +kernel
  refine hmatches.released 0 "a" ?_ ?_ hidle ?_ <;> decide +kernel

end ObservedDispatcher

end Zmqtt
