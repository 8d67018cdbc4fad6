/-
  The interest in response topics. An entry of `_topics` counts the pending requests on its
  topic, and its ready task belongs to the current connection; an interest without a request is
  kept only while some `unregister` waits for its ready task.

  An interest is named by its number; `owner` gives the topic that it was made for.
-/
import Zmqtt.Requests.Observers

namespace Zmqtt

/-- The number of pending requests on a topic. -/
def pendingOn (pending : Dict RequestKey Nat) (t : String) : Nat :=
  pending.countP fun item => item.1.1 = t

/-- What a caller in the queue of a guard removes. -/
def CallerPc.removes : CallerPc → Option (Nat × String)
  | .removeQueued c t => some (c, t)
  | _ => none

/-- The caller has got a permit, waits for the broker after a removal, or has ended. -/
def CallerPc.quiet : CallerPc → Bool
  | .granted | .removing _ _ | .ended => true
  | .acquiring | .readying _ _ | .tearingDown _ _ _ | .removeQueued _ _ | .returned _ => false

namespace RequestDispatcher

def refcountOf (d : RequestDispatcher) (i : Nat) : Option Int :=
  (d.interests[i]?).map TopicInterest.refcount

/-- The ready task of the interest in a topic. -/
def readyOf (d : RequestDispatcher) (t : String) : Option Nat :=
  (d.topics.get? t).bind fun i => (d.interests[i]?).bind TopicInterest.ready

def pcOf (d : RequestDispatcher) (k : Nat) : Option CallerPc :=
  (d.callers[k]?).map DispatcherCaller.pc

/-- The topic that a caller in the queue of a guard removes. -/
def removes (d : RequestDispatcher) (k : Nat) : Option (Nat × String) :=
  (d.pcOf k).bind CallerPc.removes

def requestKeys (d : RequestDispatcher) : List RequestKey := d.requests.map PendingRequest.key

end RequestDispatcher

/-! ## Parts of the invariant -/

/-- The tasks in the queue of the semaphore wait for a permit. -/
structure Acquiring (waiters : List Nat) (pcOf : Nat → Option CallerPc) : Prop where
  nodup : waiters.Nodup
  waiting : ∀ k ∈ waiters, pcOf k = some .acquiring

/-- The interests count the pending requests on their topics. -/
structure Counts (pending : Dict RequestKey Nat) (topics : Dict String Nat)
    (refcountOf : Nat → Option Int) (keys : List RequestKey) : Prop where
  pendingKeys : pending.keys.Nodup
  topicKeys : topics.keys.Nodup
  keyed : ∀ (key : RequestKey) (r : Nat), pending.get? key = some r → keys[r]? = some key
  listed : ∀ (key : RequestKey) (r : Nat), pending.get? key = some r → topics.get? key.1 ≠ none
  counted : ∀ (t : String) (i : Nat), topics.get? t = some i →
    refcountOf i = some (pendingOn pending t : Int)

/-- An interest is for one topic. -/
structure Owners (owner : Nat → String) (interests : Nat) (topics : Dict String Nat)
    (pcOf : Nat → Option CallerPc) (restoring : Option (List (String × Nat))) : Prop where
  topics : ∀ (t : String) (i : Nat), topics.get? t = some i → owner i = t ∧ i < interests
  teardowns : ∀ k t i a, pcOf k = some (.tearingDown t i a) → owner i = t ∧ i < interests
  items : ∀ items, restoring = some items → ∀ item ∈ items, owner item.2 = item.1 ∧
    item.2 < interests

/-- An interest without a request, other than `ex`, is about to be deleted. -/
def Torn (topics : Dict String Nat) (refcountOf : Nat → Option Int)
    (pcOf : Nat → Option CallerPc) (ex : Option Nat) : Prop :=
  ∀ (t : String) (i : Nat), topics.get? t = some i → refcountOf i = some 0 →
    ex = some i ∨ ∃ k a, pcOf k = some (.tearingDown t i a)

/-- What `restore` still has to do is for interests in `_topics`. -/
def Restores (protocol : Option Nat) (restoring : Option (List (String × Nat)))
    (topics : Dict String Nat) (refcountOf : Nat → Option Int) : Prop :=
  ∀ items, restoring = some items → protocol ≠ none → ∀ item ∈ items, ∀ n,
    refcountOf item.2 = some n → 0 < n → topics.get? item.1 = some item.2

/-- If the request is pending and the task is one of the current connection, it is the ready
    task of the topic. -/
def WaitsFor (protocol : Option Nat) (readyOf : String → Option Nat) (adds : List ObserverAdd)
    (pending : Dict RequestKey Nat) (keys : List RequestKey) (r a : Nat) : Prop :=
  r < keys.length ∧ a < adds.length ∧
    ∀ (add : ObserverAdd) (key : RequestKey), adds[a]? = some add → protocol = some add.connection →
      keys[r]? = some key → pending.get? key = some r → readyOf key.1 = some a

/-- If the request is pending, the ready task of its topic has succeeded. -/
def Ready (readyOf : String → Option Nat) (adds : List ObserverAdd)
    (pending : Dict RequestKey Nat) (keys : List RequestKey) (r : Nat) : Prop :=
  r < keys.length ∧ ∀ key : RequestKey, keys[r]? = some key → pending.get? key = some r →
    ∃ a add, readyOf key.1 = some a ∧ adds[a]? = some add ∧ add.stage = .ok

/-- Requests that wait for the ready task of the current connection, or have it. -/
structure Joined (earlier : List Nat) (protocol : Option Nat) (readyOf : String → Option Nat)
    (adds : List ObserverAdd) (pending : Dict RequestKey Nat) (keys : List RequestKey)
    (pcOf : Nat → Option CallerPc) : Prop where
  readying : ∀ k r a, pcOf k = some (.readying r a) →
    WaitsFor protocol readyOf adds pending keys r a
  returned : ∀ k r, pcOf k = some (.returned r) → k ∉ earlier → Ready readyOf adds pending keys r

namespace RequestDispatcher

/-- What the dispatcher knows of its requests and interests; `ex` is the interest of the running
    `unregister`, `earlier` are callers of `register` that returned on earlier connections. -/
structure Books (owner : Nat → String) (earlier : List Nat) (ex : Option Nat)
    (d : RequestDispatcher) : Prop where
  acquiring : Acquiring d.waiters d.pcOf
  bound : d.protocol = none → d.topics = []
  counts : Counts d.pending d.topics d.refcountOf d.requestKeys
  owners : Owners owner d.interests.length d.topics d.pcOf d.restoring
  torn : Torn d.topics d.refcountOf d.pcOf ex
  restores : Restores d.protocol d.restoring d.topics d.refcountOf
  older : Older d.connections d.protocol d.adds d.observers d.removes
  joined : Joined earlier d.protocol d.readyOf d.adds d.pending d.requestKeys d.pcOf

/-- The invariant. -/
structure InterestInv (owner : Nat → String) (earlier : List Nat) (ex : Option Nat)
    (d : RequestDispatcher) : Prop extends Books owner earlier ex d where
  observes : Observes d.protocol d.readyOf d.adds d.observers d.guardQueue d.removes

variable {owner : Nat → String} {earlier : List Nat} {ex : Option Nat} {d d' : RequestDispatcher}
  {k : Nat} {pc pc' : CallerPc}

/-! ## Callers -/

theorem pcOf_setPc (hk : d.pcOf k = some pc) (pc' : CallerPc) :
    (d.setPc k pc').pcOf = Function.update d.pcOf k (some pc') := by
  obtain ⟨caller, hc, -⟩ := Option.map_eq_some_iff.1 hk
  funext j
  rw [pcOf, callers_setPc hc, List.getElem?_set, Function.update_apply]
  have hlt := (List.getElem?_eq_some_iff.1 hc).1
  by_cases hj : k = j
  · subst hj
    simp [hlt]
  · simp [hj, Ne.symm hj, pcOf]

theorem removes_setPc (hk : d.pcOf k = some pc) (pc' : CallerPc) :
    (d.setPc k pc').removes = Function.update d.removes k pc'.removes := by
  funext j
  rw [removes, pcOf_setPc hk, Function.update_apply, Function.update_apply]
  split <;> rfl

theorem waiterGuard_eq_removes (d : RequestDispatcher) (k : Nat) :
    d.waiterGuard (.remove k) = d.removes k := by
  unfold removes pcOf
  rw [waiterGuard]
  cases (d.callers[k]?).map DispatcherCaller.pc with
  | none => rfl
  | some pc => cases pc <;> rfl

/-- A caller goes on that does not wait for a permit. -/
theorem Books.setPc (h : Books owner earlier ex d) (hk : d.pcOf k = some pc)
    (hrun : k ∉ d.waiters) (htear : ∀ t i a, pc = .tearingDown t i a → ex = some i)
    (holder : ∀ guard, pc'.removes = some guard → guard.1 < d.connections)
    (htear' : ∀ t i a, pc' = .tearingDown t i a → owner i = t ∧ i < d.interests.length)
    (hready : ∀ r a, pc' = .readying r a →
      WaitsFor d.protocol d.readyOf d.adds d.pending d.requestKeys r a)
    (hreturn : ∀ r, pc' = .returned r → Ready d.readyOf d.adds d.pending d.requestKeys r) :
    Books owner earlier ex (d.setPc k pc') := by
  have hpcs := pcOf_setPc hk pc'
  have hget {j : Nat} {q : CallerPc} (hq : Function.update d.pcOf k (some pc') j = some q) :
      pc' = q ∨ d.pcOf j = some q := by
    rw [Function.update_apply] at hq
    split at hq
    · exact Or.inl (Option.some.inj hq)
    · exact Or.inr hq
  refine ⟨⟨h.acquiring.nodup, fun j hj => ?_⟩, h.bound, h.counts, ⟨h.owners.topics, fun j t i a hj => ?_,
    h.owners.items⟩, fun t i ht hzero => ?_, h.restores, ⟨h.older.protocol, h.older.adds,
    h.older.observers, fun j guard hj => ?_⟩, ⟨fun j r a hj => ?_, fun j r hj hnew => ?_⟩⟩
  · have hwaiting := h.acquiring.waiting j hj
    rw [hpcs, Function.update_apply, if_neg]
    · exact hwaiting
    · rintro rfl
      exact hrun hj
  · rw [hpcs] at hj
    rcases hget hj with he | hj
    · exact htear' t i a he
    · exact h.owners.teardowns j t i a hj
  · rcases h.torn t i ht hzero with hex | ⟨j, a, hj⟩
    · exact Or.inl hex
    · by_cases hjk : j = k
      · rw [hjk, hk] at hj
        exact Or.inl (htear t i a (Option.some.inj hj))
      · refine Or.inr ⟨j, a, ?_⟩
        rw [hpcs, Function.update_of_ne hjk]
        exact hj
  · rw [removes_setPc hk, Function.update_apply] at hj
    split at hj
    · exact holder guard hj
    · exact h.older.removes j guard hj
  · rw [hpcs] at hj
    rcases hget hj with he | hj
    · exact hready r a he
    · exact h.joined.readying j r a hj
  · rw [hpcs] at hj
    rcases hget hj with he | hj
    · exact hreturn r he
    · exact h.joined.returned j r hj hnew

/-- A caller goes on that is not in the queue of a guard. -/
theorem InterestInv.setPc (h : InterestInv owner earlier ex d) (hk : d.pcOf k = some pc)
    (hrun : k ∉ d.waiters) (hfree : pc.removes = none)
    (htear : ∀ t i a, pc = .tearingDown t i a → ex = some i) (hfree' : pc'.removes = none)
    (htear' : ∀ t i a, pc' = .tearingDown t i a → owner i = t ∧ i < d.interests.length)
    (hready : ∀ r a, pc' = .readying r a →
      WaitsFor d.protocol d.readyOf d.adds d.pending d.requestKeys r a)
    (hreturn : ∀ r, pc' = .returned r → Ready d.readyOf d.adds d.pending d.requestKeys r) :
    InterestInv owner earlier ex (d.setPc k pc') := by
  have hrem : (d.setPc k pc').removes = d.removes := by
    have hold : d.removes k = none := by
      rw [removes, hk]
      exact hfree
    rw [removes_setPc hk, hfree', ← hold]
    exact Function.update_eq_self k d.removes
  have hnone : ∀ guard, pc'.removes = some guard → guard.1 < d.connections := fun guard hg => by
    rw [hfree'] at hg
    cases hg
  refine ⟨h.toBooks.setPc hk hrun htear hnone htear' hready hreturn, ?_⟩
  rw [hrem]
  exact h.observes

/-- The caller goes on to where nothing is known of it. -/
theorem InterestInv.goOn (h : InterestInv owner earlier ex d) (hk : d.pcOf k = some pc)
    (hrun : k ∉ d.waiters) (hfree : pc.removes = none)
    (htear : ∀ t i a, pc = .tearingDown t i a → ex = some i) (pc' : CallerPc)
    (hquiet : pc'.quiet = true) : InterestInv owner earlier ex (d.setPc k pc') := by
  refine h.setPc hk hrun hfree htear ?_ (fun t i a he => ?_) (fun r a he => ?_) fun r he => ?_
  · cases pc' <;> first | rfl | cases hquiet
  all_goals
    rw [he] at hquiet
    cases hquiet

/-- A released permit is free or goes to the first that waits. -/
theorem InterestInv.release (h : InterestInv owner earlier ex d) :
    InterestInv owner earlier ex d.release := by
  unfold RequestDispatcher.release
  split
  · exact ⟨⟨h.acquiring, h.bound, h.counts, h.owners, h.torn, h.restores, h.older, h.joined⟩,
      h.observes⟩
  · next k waiters hcons =>
    have hnodup := List.nodup_cons.1 (hcons ▸ h.acquiring.nodup : (k :: waiters).Nodup)
    have hk : d.pcOf k = some .acquiring :=
      h.acquiring.waiting k (by rw [hcons]; exact List.mem_cons_self)
    have hacquiring : Acquiring waiters d.pcOf := by
      refine ⟨hnodup.2, fun j hj => h.acquiring.waiting j ?_⟩
      rw [hcons]
      exact List.mem_cons_of_mem k hj
    have htail : InterestInv owner earlier ex { d with waiters } :=
      ⟨⟨hacquiring, h.bound, h.counts, h.owners, h.torn, h.restores, h.older, h.joined⟩, h.observes⟩
    exact htail.goOn hk hnodup.1 rfl nofun .granted rfl

/-- A caller that runs does not wait for a permit. -/
theorem InterestInv.not_mem_waiters (h : InterestInv owner earlier ex d) (hk : d.pcOf k = some pc)
    (hrun : pc ≠ .acquiring) : k ∉ d.waiters := fun hin =>
  hrun (Option.some.inj (hk.symm.trans (h.acquiring.waiting k hin)))

/-- The running caller ends, and its interest is settled. -/
theorem InterestInv.finishUnregister (h : InterestInv owner earlier ex d)
    (hk : d.pcOf k = some pc) (hrun : pc ≠ .acquiring) (hfree : pc.removes = none)
    (htear : ∀ t i a, pc = .tearingDown t i a → ex = some i) :
    InterestInv owner earlier ex (d.finishUnregister k) :=
  (h.goOn hk (h.not_mem_waiters hk hrun) hfree htear .ended rfl).release

theorem finishUnregister_frame (d : RequestDispatcher) (k : Nat) :
    ∃ free waiters callers, d.finishUnregister k = { d with free, waiters, callers } := by
  unfold RequestDispatcher.finishUnregister RequestDispatcher.release
  split <;> exact ⟨_, _, _, rfl⟩

/-- The exempt interest has requests, or is not in `_topics` any more. -/
theorem Books.settled {i : Nat} (h : Books owner earlier (some i) d)
    (hi : ∀ t, d.topics.get? t = some i → d.refcountOf i ≠ some 0) :
    Books owner earlier none d := by
  refine ⟨h.acquiring, h.bound, h.counts, h.owners, fun t j ht hzero => ?_, h.restores, h.older,
    h.joined⟩
  rcases h.torn t j ht hzero with he | htear
  · cases he
    exact absurd hzero (hi t ht)
  · exact Or.inr htear

theorem InterestInv.settled {i : Nat} (h : InterestInv owner earlier (some i) d)
    (hi : ∀ t, d.topics.get? t = some i → d.refcountOf i ≠ some 0) :
    InterestInv owner earlier none d :=
  ⟨h.toBooks.settled hi, h.observes⟩

theorem InterestInv.exempt (h : InterestInv owner earlier none d) (ex : Option Nat) :
    InterestInv owner earlier ex d :=
  ⟨⟨h.acquiring, h.bound, h.counts, h.owners, fun t i ht hzero =>
    Or.inr ((h.torn t i ht hzero).resolve_left nofun), h.restores, h.older, h.joined⟩, h.observes⟩

/-! ## Requests and interests -/

theorem pendingOn_eq_keys (pending : Dict RequestKey Nat) (t : String) :
    pendingOn pending t = pending.keys.countP fun key => key.1 = t := by
  rw [pendingOn, Dict.keys, List.countP_map]
  rfl

/-- A waiter leaves `_pending`. -/
theorem pendingOn_pop {pending : Dict RequestKey Nat} {key : RequestKey} {r : Nat}
    (hnodup : pending.keys.Nodup) (hr : pending.get? key = some r) (t : String) :
    pendingOn pending t = pendingOn (pending.pop key) t + if key.1 = t then 1 else 0 := by
  have hperm := Dict.keys_perm_pop hnodup (Dict.mem_keys_of_get? hr)
  rw [pendingOn_eq_keys, pendingOn_eq_keys, hperm.countP_eq, List.countP_cons]
  simp

/-- A waiter enters `_pending`. -/
theorem pendingOn_set {pending : Dict RequestKey Nat} {key : RequestKey}
    (hkey : pending.get? key = none) (r : Nat) (t : String) :
    pendingOn (pending.set key r) t = pendingOn pending t + if key.1 = t then 1 else 0 := by
  rw [Dict.set_of_not_mem r ((Dict.get?_eq_none_iff pending key).1 hkey), pendingOn,
    List.countP_append, List.countP_singleton]
  simp [pendingOn]

theorem pendingOn_pos {pending : Dict RequestKey Nat} {key : RequestKey} {r : Nat}
    (hr : pending.get? key = some r) : 0 < pendingOn pending key.1 :=
  List.countP_pos_iff.2 ⟨(key, r), Dict.mem_of_get? hr, decide_eq_true rfl⟩

theorem refcountOf_modifyInterest (d : RequestDispatcher) (i : Nat)
    (change : TopicInterest → TopicInterest) (j : Nat) :
    (d.modifyInterest i change).refcountOf j =
      if i = j then (d.interests[j]?).map fun interest => (change interest).refcount
      else d.refcountOf j := by
  change ((d.interests.modify i change)[j]?).map TopicInterest.refcount = _
  rw [List.getElem?_modify, refcountOf]
  split <;> cases d.interests[j]? <;> rfl

theorem readyOf_modifyInterest (d : RequestDispatcher) (i : Nat)
    {change : TopicInterest → TopicInterest} (hchange : ∀ x, (change x).ready = x.ready) :
    (d.modifyInterest i change).readyOf = d.readyOf := by
  funext t
  change ((d.topics.get? t).bind fun j => ((d.interests.modify i change)[j]?).bind TopicInterest.ready) = _
  rw [readyOf]
  congr 1
  funext j
  rw [List.getElem?_modify]
  cases d.interests[j]? with
  | none => rfl
  | some interest =>
    dsimp
    split
    · exact hchange interest
    · rfl

theorem requestKeys_modifyRequest (d : RequestDispatcher) (r : Nat)
    {change : PendingRequest → PendingRequest} (hchange : ∀ q, (change q).key = q.key) :
    (d.modifyRequest r change).requestKeys = d.requestKeys := by
  refine List.ext_getElem? fun j => ?_
  change ((d.requests.modify r change).map PendingRequest.key)[j]? =
    (d.requests.map PendingRequest.key)[j]?
  rw [List.getElem?_map, List.getElem?_map, List.getElem?_modify]
  cases d.requests[j]? with
  | none => rfl
  | some request =>
    dsimp
    split
    · exact congrArg some (hchange request)
    · rfl

theorem requestKeys_finishFuture (d : RequestDispatcher) (r : Nat) (future : RequestFuture) :
    (d.finishFuture r future).requestKeys = d.requestKeys :=
  requestKeys_modifyRequest d r fun q => by split <;> rfl

/-- A waiter leaves; its interest may have none left. -/
theorem InterestInv.removeWaiter (h : InterestInv owner earlier none d) {key : RequestKey}
    {r i : Nat} (hr : d.pending.get? key = some r) (hi : d.topics.get? key.1 = some i) :
    InterestInv owner earlier (some i) (d.removeWaiter r key i) ∧
      (d.removeWaiter r key i).refcountOf i = some (pendingOn (d.pending.pop key) key.1 : Int) := by
  have hready : (d.removeWaiter r key i).readyOf = d.readyOf :=
    readyOf_modifyInterest _ i fun _ => rfl
  have hkeys : (d.removeWaiter r key i).requestKeys = d.requestKeys :=
    requestKeys_finishFuture d r .cancelled
  have hcount (j : Nat) : (d.removeWaiter r key i).refcountOf j =
      if i = j then (d.refcountOf i).map (· - 1) else d.refcountOf j := by
    refine (refcountOf_modifyInterest _ i _ j).trans ?_
    split
    · next he =>
      subst he
      rw [refcountOf, Option.map_map]
      rfl
    · rfl
  have hown : d.refcountOf i = some (pendingOn d.pending key.1 : Int) := h.counts.counted key.1 i hi
  have hpop := pendingOn_pop h.counts.pendingKeys hr
  have hself : (d.removeWaiter r key i).refcountOf i =
      some (pendingOn (d.pending.pop key) key.1 : Int) := by
    have hone := hpop key.1
    rw [if_pos rfl] at hone
    rw [hcount, if_pos rfl, hown, Option.map_some, hone]
    congr 1
    omega
  have hget {key' : RequestKey} {r' : Nat} (hr' : (d.pending.pop key).get? key' = some r') :
      d.pending.get? key' = some r' := by
    rw [Dict.get?_pop] at hr'
    split at hr'
    · cases hr'
    · exact hr'
  refine ⟨⟨⟨h.acquiring, h.bound, ⟨Dict.nodup_keys_pop h.counts.pendingKeys key, h.counts.topicKeys,
    ?_, fun key' r' hr' => h.counts.listed key' r' (hget hr'), fun t j ht => ?_⟩, ?_,
    fun t j ht hzero => ?_, fun items hitems hp item hin n hn hpos => ?_, h.older, ?_⟩, ?_⟩, hself⟩
  · intro key' r' hr'
    rw [hkeys]
    exact h.counts.keyed key' r' (hget hr')
  · by_cases hij : i = j
    · subst hij
      have ht' : t = key.1 := (h.owners.topics t i ht).1.symm.trans (h.owners.topics key.1 i hi).1
      rw [ht']
      exact hself
    · rw [hcount, if_neg hij, h.counts.counted t j ht, hpop t, if_neg]
      · rfl
      · rintro rfl
        exact hij (Option.some.inj (hi.symm.trans ht))
  · have hlen : (d.removeWaiter r key i).interests.length = d.interests.length :=
      List.length_modify _ _ _
    rw [hlen]
    exact h.owners
  · rw [hcount] at hzero
    split at hzero
    · next hij => exact Or.inl (congrArg some hij)
    · exact Or.inr ((h.torn t j ht hzero).resolve_left nofun)
  · rw [hcount] at hn
    split at hn
    · next hij =>
      obtain ⟨m, hm, rfl⟩ := Option.map_eq_some_iff.1 hn
      exact h.restores items hitems hp item hin m (hij ▸ hm) (by omega)
    · exact h.restores items hitems hp item hin n hn hpos
  · rw [hready, hkeys]
    refine ⟨fun k r' a hk => ?_, fun k r' hk hnew => ?_⟩
    · obtain ⟨hlt, halt, hwaits⟩ := h.joined.readying k r' a hk
      exact ⟨hlt, halt, fun add key' ha hp hkey hr' => hwaits add key' ha hp hkey (hget hr')⟩
    · obtain ⟨hlt, hfound⟩ := h.joined.returned k r' hk hnew
      exact ⟨hlt, fun key' hkey hr'' => hfound key' hkey (hget hr'')⟩
  · rw [hready]
    exact h.observes

/-! ## `unregister` -/

theorem readyOf_pop (d : RequestDispatcher) (t : String) :
    ({ d with topics := d.topics.pop t } : RequestDispatcher).readyOf =
      Function.update d.readyOf t none := by
  funext t'
  change ((d.topics.pop t).get? t').bind _ = _
  rw [Dict.get?_pop, Function.update_apply]
  by_cases ht : t = t'
  · simp [ht]
  · simp [ht, Ne.symm ht, readyOf]

/-- An interest without requests is deleted. -/
theorem Books.delete {t : String} {i : Nat} (h : Books owner earlier (some i) d)
    (ht : d.topics.get? t = some i) (hzero : d.refcountOf i = some 0) :
    Books owner earlier (some i) { d with topics := d.topics.pop t } := by
  have hnone : pendingOn d.pending t = 0 := by
    have hcount := h.counts.counted t i ht
    rw [hzero] at hcount
    have heq := Option.some.inj hcount
    omega
  have hne {key : RequestKey} {r : Nat} (hr : d.pending.get? key = some r) : t ≠ key.1 := by
    rintro rfl
    have hpos := pendingOn_pos hr
    omega
  have hget {t' : String} {j : Nat} (hj : (d.topics.pop t).get? t' = some j) :
      t ≠ t' ∧ d.topics.get? t' = some j := by
    rw [Dict.get?_pop] at hj
    split at hj
    · cases hj
    · next he => exact ⟨he, hj⟩
  have hready := readyOf_pop d t
  refine ⟨h.acquiring, fun hp => ?_, ⟨h.counts.pendingKeys, Dict.nodup_keys_pop h.counts.topicKeys t,
    h.counts.keyed, fun key r hr => ?_, fun t' j hj => h.counts.counted t' j (hget hj).2⟩,
    ⟨fun t' j hj => h.owners.topics t' j (hget hj).2, h.owners.teardowns, h.owners.items⟩,
    fun t' j hj => h.torn t' j (hget hj).2, fun items hitems hp item hin n hn hpos => ?_, h.older,
    ⟨fun k r a hk => ?_, fun k r hk hnew => ?_⟩⟩
  · change d.topics.pop t = []
    rw [h.bound hp]
    rfl
  · change (d.topics.pop t).get? key.1 ≠ none
    rw [Dict.get?_pop, if_neg (hne hr)]
    exact h.counts.listed key r hr
  · have hold := h.restores items hitems hp item hin n hn hpos
    change (d.topics.pop t).get? item.1 = _
    rw [Dict.get?_pop, if_neg]
    · exact hold
    · rintro rfl
      have hitem : i = item.2 := Option.some.inj (ht.symm.trans hold)
      have hn' : d.refcountOf item.2 = some n := hn
      rw [← hitem, hzero] at hn'
      cases hn'
      exact absurd hpos (Int.lt_irrefl 0)
  · obtain ⟨hlt, halt, hwaits⟩ := h.joined.readying k r a hk
    refine ⟨hlt, halt, fun add key ha hp hkey hr => ?_⟩
    rw [hready, Function.update_of_ne (Ne.symm (hne hr))]
    exact hwaits add key ha hp hkey hr
  · obtain ⟨hlt, hfound⟩ := h.joined.returned k r hk hnew
    refine ⟨hlt, fun key hkey hr => ?_⟩
    rw [hready, Function.update_of_ne (Ne.symm (hne hr))]
    exact hfound key hkey hr

/-- The inner `finally` block. An interest that is deleted has no ready task that could still
    put its topic into the set, or the topic is removed. -/
theorem InterestInv.teardown {t : String} {i : Nat} (h : InterestInv owner earlier (some i) d)
    (hk : d.pcOf k = some pc) (hrun : pc ≠ .acquiring) (hfree : pc.removes = none)
    (htear : ∀ t' i' a, pc = .tearingDown t' i' a → i' = i) (howner : owner i = t) (active : Bool)
    (hdone : d.refcountOf i = some 0 → d.topics.get? t = some i →
      ∀ (a : Nat) (add : ObserverAdd), d.readyOf t = some a → d.adds[a]? = some add →
        add.stage = .failed ∨ active = true ∧ add.stage = .ok) :
    InterestInv owner earlier none (d.teardown k t i active) := by
  have hex : ∀ t' i' a, pc = .tearingDown t' i' a → some i = some i' := fun t' i' a he => by
    rw [htear t' i' a he]
  have hzero_iff : (d.interests[i]?).any (fun interest => interest.refcount = 0) = true ↔
      d.refcountOf i = some 0 := by
    unfold refcountOf
    cases d.interests[i]? with
    | none => simp
    | some interest => simp
  unfold RequestDispatcher.teardown
  split
  · next hcond =>
    obtain ⟨hzero, ht⟩ := hcond
    rw [hzero_iff] at hzero
    have hbooks := h.toBooks.delete ht hzero
    have hgone : ∀ t', (d.topics.pop t).get? t' ≠ some i := fun t' hj => by
      rw [Dict.get?_pop] at hj
      split at hj
      · cases hj
      · next hne => exact hne (howner.symm.trans (h.owners.topics t' i hj).1)
    have hready := readyOf_pop d t
    dsimp only
    split
    · next c hp =>
      -- the topic is removed
      have hp : d.protocol = some c := hp
      have hrem : d.removes k = none := by rw [removes, hk]; exact hfree
      have hobs := h.observes.deleteRemove (t := t) (fun a add hr ha => ?_) hp hrem
      · have hbooks' : Books owner earlier (some i) { d with
            topics := d.topics.pop t, guardQueue := d.guardQueue ++ [.remove k] } :=
          ⟨hbooks.acquiring, hbooks.bound, hbooks.counts, hbooks.owners, hbooks.torn,
            hbooks.restores, hbooks.older, hbooks.joined⟩
        refine InterestInv.settled (i := i) ⟨hbooks'.setPc hk (h.not_mem_waiters hk hrun) hex ?_ nofun
          nofun nofun, ?_⟩ fun t' hj => absurd hj (hgone t')
        · intro guard hg
          cases hg
          exact h.older.protocol c hp
        · rw [removes_setPc (d := { d with
            topics := d.topics.pop t, guardQueue := d.guardQueue ++ [.remove k] }) hk]
          change Observes d.protocol ({ d with topics := d.topics.pop t } : RequestDispatcher).readyOf
            d.adds d.observers (d.guardQueue ++ [.remove k]) _
          rw [hready]
          exact hobs
      · rcases hdone hzero ht a add hr ha with hs | ⟨-, hs⟩ <;> rw [hs] <;> rfl
    · next hinactive =>
      have hdeleted : InterestInv owner earlier (some i) { d with topics := d.topics.pop t } := by
        refine ⟨hbooks, ?_⟩
        rw [hready]
        refine h.observes.delete fun a add hr ha => ?_
        rcases hdone hzero ht a add hr ha with hs | ⟨hactive, -⟩
        · exact hs
        · -- there is a connection, or there were no interests
          cases hp : d.protocol with
          | none =>
            rw [h.bound hp] at ht
            cases ht
          | some c => exact absurd hp (hinactive c hactive)
      have hnow := hdeleted.finishUnregister hk hrun hfree hex
      obtain ⟨_, _, _, hframe⟩ :=
        finishUnregister_frame ({ d with topics := d.topics.pop t } : RequestDispatcher) k
      rw [hframe] at hnow ⊢
      exact hnow.settled fun t' hj => absurd hj (hgone t')
  · next hcond =>
    have hnow := h.finishUnregister hk hrun hfree hex
    obtain ⟨_, _, _, hframe⟩ := finishUnregister_frame d k
    rw [hframe] at hnow ⊢
    refine hnow.settled fun t' hj hzero => hcond ⟨hzero_iff.2 hzero, ?_⟩
    rw [← howner, (h.owners.topics t' i hj).1]
    exact hj

/-- The wait for the ready task of an interest that has lost its last request. -/
theorem InterestInv.awaitTeardown {t : String} {i : Nat} (h : InterestInv owner earlier (some i) d)
    (hk : d.pcOf k = some pc) (hrun : pc ≠ .acquiring) (hfree : pc.removes = none)
    (htear : ∀ t' i' a, pc ≠ .tearingDown t' i' a) (ht : d.topics.get? t = some i) :
    InterestInv owner earlier none (d.awaitTeardown k t i) := by
  have howner := (h.owners.topics t i ht).1
  have hready : d.readyOf t = (d.interests[i]?).bind TopicInterest.ready := by
    rw [readyOf, ht]
    rfl
  have hno : ∀ t' i' a, pc = .tearingDown t' i' a → i' = i := fun t' i' a he =>
    absurd he (htear t' i' a)
  have hstage {a : Nat} {add : ObserverAdd} (ha : d.adds[a]? = some add) : d.addStage a = add.stage := by
    rw [addStage, ha]
  unfold RequestDispatcher.awaitTeardown
  split
  · next hnone =>
    refine h.teardown hk hrun hfree hno howner false fun _ _ a add hr _ => ?_
    rw [hready, hnone] at hr
    cases hr
  · next a hsome =>
    have hmine {a' : Nat} (hr : d.readyOf t = some a') : a' = a := by
      rw [hready, hsome] at hr
      exact (Option.some.inj hr).symm
    split
    · next hok =>
      refine h.teardown hk hrun hfree hno howner true fun _ _ a' add hr ha => Or.inr ⟨rfl, ?_⟩
      rw [← hstage ha, hmine hr]
      exact hok
    · next hfailed =>
      refine h.teardown hk hrun hfree hno howner false fun _ _ a' add hr ha => Or.inl ?_
      rw [← hstage ha, hmine hr]
      exact hfailed
    all_goals
      -- the caller waits, and is to delete the interest
      have hnow : InterestInv owner earlier (some i) (d.setPc k (.tearingDown t i a)) :=
        h.setPc hk (h.not_mem_waiters hk hrun) hfree
          (fun t' i' a' he => absurd he (htear t' i' a')) rfl (fun t' i' a' he => ?_) nofun nofun
      · refine ⟨⟨hnow.acquiring, hnow.bound, hnow.counts, hnow.owners, fun t' j hj hzero => ?_,
          hnow.restores, hnow.older, hnow.joined⟩, hnow.observes⟩
        rcases hnow.torn t' j hj hzero with he | htearing
        · cases he
          obtain rfl : t' = t := (h.owners.topics t' i hj).1.symm.trans howner
          refine Or.inr ⟨k, a, ?_⟩
          rw [pcOf_setPc hk, Function.update_self]
        · exact Or.inr htearing
      · cases he
        exact h.owners.topics t i ht

theorem InterestInv.unregister (h : InterestInv owner earlier none d) (hk : d.pcOf k = some pc)
    (hrun : pc ≠ .acquiring) (hfree : pc.removes = none)
    (htear : ∀ t' i' a, pc ≠ .tearingDown t' i' a) (r : Nat) :
    InterestInv owner earlier none (d.unregister k r) := by
  have hnotear : ∀ t i a, pc = .tearingDown t i a → none = some i := fun t i a he =>
    absurd he (htear t i a)
  have hend : InterestInv owner earlier none (d.setPc k .ended) :=
    h.goOn hk (h.not_mem_waiters hk hrun) hfree hnotear .ended rfl
  unfold RequestDispatcher.unregister
  split
  · exact hend
  · next request hreq =>
    split
    · next hr =>
      split
      · next hnone => exact absurd hnone (h.counts.listed request.key r hr)
      · next i hi =>
        obtain ⟨hremoved, hcount⟩ := h.removeWaiter hr hi
        have hi' : (d.removeWaiter r request.key i).topics.get? request.key.1 = some i := hi
        have hk' : (d.removeWaiter r request.key i).pcOf k = some pc := hk
        generalize d.removeWaiter r request.key i = d' at hremoved hcount hi' hk' ⊢
        dsimp only
        split
        · next hpos =>
          have hnow := hremoved.finishUnregister hk' hrun hfree fun t' i' a he =>
            absurd he (htear t' i' a)
          obtain ⟨_, _, _, hframe⟩ := finishUnregister_frame d' k
          rw [hframe] at hnow ⊢
          refine hnow.settled fun t' _ hzero => ?_
          change d'.refcountOf i = some 0 at hzero
          obtain ⟨interest, hint, hpos⟩ := (Option.any_eq_true ..).1 hpos
          rw [refcountOf, hint] at hzero
          have hz := Option.some.inj hzero
          have hp := of_decide_eq_true hpos
          omega
        · exact hremoved.awaitTeardown hk' hrun hfree htear hi'
    · exact hend

/-! ## `register` -/

/-- No request is pending on a topic that is not in `_topics`. -/
theorem pendingOn_eq_zero {pending : Dict RequestKey Nat} {topics : Dict String Nat}
    {refcountOf : Nat → Option Int} {keys : List RequestKey}
    (h : Counts pending topics refcountOf keys) {t : String} (ht : topics.get? t = none) :
    pendingOn pending t = 0 := by
  rw [pendingOn, List.countP_eq_zero]
  intro item hin hon
  have hr := (Dict.mem_iff_get? h.pendingKeys item.1 item.2).1 hin
  refine h.listed item.1 item.2 hr ?_
  rw [of_decide_eq_true hon]
  exact ht

/-- A new interest, that has no request yet. -/
theorem InterestInv.newInterest {t : String} (h : InterestInv owner earlier none d)
    (hp : d.protocol ≠ none) (ht : d.topics.get? t = none) :
    InterestInv (Function.update owner d.interests.length t) earlier (some d.interests.length)
      { d with
        topics := d.topics.set t d.interests.length
        interests := d.interests ++ [{}] } := by
  have hget (t' : String) : (d.topics.set t d.interests.length).get? t' =
      if t = t' then some d.interests.length else d.topics.get? t' := Dict.get?_set _ _ _ _
  have hold {t' : String} {i : Nat} (hi : d.topics.get? t' = some i) : t ≠ t' := by
    rintro rfl
    rw [ht] at hi
    cases hi
  have hcount {i : Nat} (hi : i ≠ d.interests.length) :
      ((d.interests ++ [({} : TopicInterest)])[i]?).map TopicInterest.refcount = d.refcountOf i := by
    rw [List.getElem?_append, refcountOf]
    split
    · rfl
    · next hge =>
      rw [List.getElem?_eq_none (by simp only [List.length_singleton]; omega),
        List.getElem?_eq_none (by omega)]
  have hnew : ((d.interests ++ [({} : TopicInterest)])[d.interests.length]?).map
      TopicInterest.refcount = some 0 := by
    rw [List.getElem?_concat_length]
    rfl
  have howner {i : Nat} (hi : i < d.interests.length) :
      Function.update owner d.interests.length t i = owner i := by
    refine Function.update_of_ne ?_ _ _
    omega
  have hready : ({ d with
      topics := d.topics.set t d.interests.length
      interests := d.interests ++ [{}] } : RequestDispatcher).readyOf = d.readyOf := by
    funext t'
    change ((d.topics.set t d.interests.length).get? t').bind (fun i =>
      ((d.interests ++ [({} : TopicInterest)])[i]?).bind TopicInterest.ready) = _
    rw [hget, readyOf]
    split
    · next he =>
      rw [← he, ht, Option.bind_some, List.getElem?_concat_length]
      rfl
    · cases hi : d.topics.get? t' with
      | none => rfl
      | some i =>
        rw [Option.bind_some, Option.bind_some,
          List.getElem?_append_left (h.owners.topics t' i hi).2]
  have hlen : (d.interests ++ [({} : TopicInterest)]).length = d.interests.length + 1 := by simp
  refine ⟨⟨h.acquiring, fun hnone => absurd hnone hp, ⟨h.counts.pendingKeys, ?_, h.counts.keyed,
    fun key r hr => ?_, fun t' i hi => ?_⟩, ⟨fun t' i hi => ?_, fun k t' i a hk => ?_,
    fun items hitems item hin => ?_⟩, fun t' i hi hzero => ?_,
    fun items hitems hp' item hin n hn hpos => ?_, h.older, ?_⟩, ?_⟩
  · change (d.topics.set t d.interests.length).keys.Nodup
    have hnot := (Dict.get?_eq_none_iff d.topics t).1 ht
    rw [Dict.keys_set_of_not_mem _ hnot]
    refine List.nodup_append.2 ⟨h.counts.topicKeys, List.nodup_singleton _, fun x hx y hy => ?_⟩
    rw [List.mem_singleton.1 hy]
    rintro rfl
    exact hnot hx
  · change (d.topics.set t d.interests.length).get? key.1 ≠ none
    rw [hget]
    split
    · exact Option.some_ne_none _
    · exact h.counts.listed key r hr
  · change (d.topics.set t d.interests.length).get? t' = some i at hi
    rw [hget] at hi
    split at hi
    · next he =>
      cases hi
      rw [← he, pendingOn_eq_zero h.counts ht]
      exact hnew
    · exact (hcount (Nat.ne_of_lt (h.owners.topics t' i hi).2)).trans (h.counts.counted t' i hi)
  · change (d.topics.set t d.interests.length).get? t' = some i at hi
    rw [hget] at hi
    rw [hlen]
    split at hi
    · next he =>
      cases hi
      exact ⟨(Function.update_self ..).trans he, Nat.lt_succ_self _⟩
    · obtain ⟨ho, hlt⟩ := h.owners.topics t' i hi
      exact ⟨(howner hlt).trans ho, Nat.lt_succ_of_lt hlt⟩
  · obtain ⟨ho, hlt⟩ := h.owners.teardowns k t' i a hk
    rw [hlen]
    exact ⟨(howner hlt).trans ho, Nat.lt_succ_of_lt hlt⟩
  · obtain ⟨ho, hlt⟩ := h.owners.items items hitems item hin
    rw [hlen]
    exact ⟨(howner hlt).trans ho, Nat.lt_succ_of_lt hlt⟩
  · change (d.topics.set t d.interests.length).get? t' = some i at hi
    rw [hget] at hi
    split at hi
    · cases hi
      exact Or.inl rfl
    · refine Or.inr ((h.torn t' i hi ?_).resolve_left nofun)
      exact (hcount (Nat.ne_of_lt (h.owners.topics t' i hi).2)).symm.trans hzero
  · obtain ⟨-, hlt⟩ := h.owners.items items hitems item hin
    have hn' : d.refcountOf item.2 = some n := (hcount (Nat.ne_of_lt hlt)).symm.trans hn
    have hi := h.restores items hitems hp' item hin n hn' hpos
    change (d.topics.set t d.interests.length).get? item.1 = _
    rw [hget, if_neg (hold hi)]
    exact hi
  · rw [hready]
    exact h.joined
  · rw [hready]
    exact h.observes

/-- A new waiter counts for its interest. -/
theorem InterestInv.addWaiter {key : RequestKey} {i : Nat} (h : InterestInv owner earlier (some i) d)
    (hkey : d.pending.get? key = none) (hi : d.topics.get? key.1 = some i) :
    InterestInv owner earlier none (d.addWaiter key i) := by
  have hready : (d.addWaiter key i).readyOf = d.readyOf := readyOf_modifyInterest _ i fun _ => rfl
  have hkeys : (d.addWaiter key i).requestKeys = d.requestKeys ++ [key] := by
    change (d.requests ++ [({ key := key } : PendingRequest)]).map PendingRequest.key = _
    rw [List.map_append]
    rfl
  have hlength : d.requestKeys.length = d.requests.length := List.length_map _
  have hcount (j : Nat) : (d.addWaiter key i).refcountOf j =
      if i = j then (d.refcountOf i).map (· + 1) else d.refcountOf j := by
    refine (refcountOf_modifyInterest _ i _ j).trans ?_
    split
    · next he =>
      subst he
      rw [refcountOf, Option.map_map]
      rfl
    · rfl
  have hown : d.refcountOf i = some (pendingOn d.pending key.1 : Int) := h.counts.counted key.1 i hi
  have hset := pendingOn_set hkey d.requests.length
  have hself : (d.addWaiter key i).refcountOf i =
      some (pendingOn (d.pending.set key d.requests.length) key.1 : Int) := by
    rw [hcount, if_pos rfl, hown, hset, if_pos rfl]
    rfl
  have hget (key' : RequestKey) : (d.pending.set key d.requests.length).get? key' =
      if key = key' then some d.requests.length else d.pending.get? key' := Dict.get?_set _ _ _ _
  have hleft {r : Nat} (hlt : r < d.requestKeys.length) :
      (d.requestKeys ++ [key])[r]? = d.requestKeys[r]? := List.getElem?_append_left hlt
  have hold {key' : RequestKey} {r : Nat} (hlt : r < d.requestKeys.length)
      (hr : (d.pending.set key d.requests.length).get? key' = some r) :
      d.pending.get? key' = some r := by
    rw [hget] at hr
    split at hr
    · have := Option.some.inj hr
      omega
    · exact hr
  refine ⟨⟨h.acquiring, h.bound, ⟨?_, h.counts.topicKeys, fun key' r hr => ?_, fun key' r hr => ?_,
    fun t j hj => ?_⟩, ?_, fun t j hj hzero => ?_,
    fun items hitems hp item hin n hn hpos => ?_, h.older, ?_⟩, ?_⟩
  · change (d.pending.set key d.requests.length).keys.Nodup
    have hnot := (Dict.get?_eq_none_iff d.pending key).1 hkey
    rw [Dict.keys_set_of_not_mem _ hnot]
    refine List.nodup_append.2 ⟨h.counts.pendingKeys, List.nodup_singleton _, fun x hx y hy => ?_⟩
    rw [List.mem_singleton.1 hy]
    rintro rfl
    exact hnot hx
  · change (d.pending.set key d.requests.length).get? key' = some r at hr
    rw [hget] at hr
    rw [hkeys]
    split at hr
    · next he =>
      cases hr
      rw [← hlength, List.getElem?_concat_length, he]
    · have hk := h.counts.keyed key' r hr
      rw [hleft (List.getElem?_eq_some_iff.1 hk).1]
      exact hk
  · change (d.pending.set key d.requests.length).get? key' = some r at hr
    rw [hget] at hr
    split at hr
    · next he =>
      rw [← he]
      change d.topics.get? key.1 ≠ none
      rw [hi]
      exact Option.some_ne_none _
    · exact h.counts.listed key' r hr
  · by_cases hij : i = j
    · subst hij
      have ht : t = key.1 := (h.owners.topics t i hj).1.symm.trans (h.owners.topics key.1 i hi).1
      rw [ht]
      exact hself
    · rw [hcount, if_neg hij, h.counts.counted t j hj]
      refine congrArg some ?_
      have hne : key.1 ≠ t := by
        rintro rfl
        exact hij (Option.some.inj (hi.symm.trans hj))
      have hs := hset t
      rw [if_neg hne] at hs
      exact congrArg Nat.cast hs.symm
  · have hlen : (d.addWaiter key i).interests.length = d.interests.length := List.length_modify _ _ _
    rw [hlen]
    exact h.owners
  · rw [hcount] at hzero
    split at hzero
    · rw [hown, Option.map_some] at hzero
      have hz := Option.some.inj hzero
      omega
    · next hij =>
      refine Or.inr ((h.torn t j hj hzero).resolve_left fun he => ?_)
      exact hij (Option.some.inj he)
  · rw [hcount] at hn
    split at hn
    · next hij =>
      have ho := (h.owners.items items hitems item hin).1
      rw [← hij, (h.owners.topics key.1 i hi).1] at ho
      change d.topics.get? item.1 = some item.2
      rw [← ho, ← hij]
      exact hi
    · exact h.restores items hitems hp item hin n hn hpos
  · rw [hready, hkeys]
    refine ⟨fun k r a hk => ?_, fun k r hk hnew => ?_⟩
    · obtain ⟨hlt, halt, hwaits⟩ := h.joined.readying k r a hk
      refine ⟨by rw [List.length_append]; omega, halt, fun add key' ha hp hkey' hr => ?_⟩
      rw [hleft hlt] at hkey'
      exact hwaits add key' ha hp hkey' (hold hlt hr)
    · obtain ⟨hlt, hfound⟩ := h.joined.returned k r hk hnew
      refine ⟨by rw [List.length_append]; omega, fun key' hkey' hr => ?_⟩
      rw [hleft hlt] at hkey'
      exact hfound key' hkey' (hold hlt hr)
  · rw [hready]
    exact h.observes

/-- A ready task is created. -/
theorem InterestInv.newAdd {t : String} {i c : Nat} (h : InterestInv owner earlier none d)
    (hp : d.protocol = some c) (hi : d.topics.get? t = some i) (hnone : d.readyOf t = none)
    (hd' : ({ d with adds := d.adds ++ [{ connection := c, topic := t }] } :
      RequestDispatcher).modifyInterest i (fun interest =>
        { interest with ready := some d.adds.length }) = d') :
    InterestInv owner earlier none d' ∧ d'.readyOf t = some d.adds.length := by
  have hcount : d'.refcountOf = d.refcountOf := by
    funext j
    rw [← hd', refcountOf_modifyInterest]
    split <;> rfl
  have hlen : d'.interests.length = d.interests.length := by
    rw [← hd']
    exact List.length_modify _ _ _
  have hready : d'.readyOf = Function.update d.readyOf t (some d.adds.length) := by
    funext t'
    rw [← hd']
    change ((d.topics.get? t').bind fun j => ((d.interests.modify i fun interest =>
      { interest with ready := some d.adds.length })[j]?).bind TopicInterest.ready) = _
    rw [Function.update_apply]
    split
    · next he =>
      obtain ⟨interest, hint⟩ : ∃ interest, d.interests[i]? = some interest :=
        ⟨_, List.getElem?_eq_getElem (h.owners.topics t i hi).2⟩
      rw [he, hi, Option.bind_some, List.getElem?_modify_eq, hint]
      rfl
    · next hne =>
      rw [readyOf]
      cases hj : d.topics.get? t' with
      | none => rfl
      | some j =>
        have hij : i ≠ j := by
          rintro rfl
          exact hne ((h.owners.topics t' i hj).1.symm.trans (h.owners.topics t i hi).1)
        rw [Option.bind_some, Option.bind_some, List.getElem?_modify_ne _ _ hij]
  have hother {t' : String} {a : Nat} (hr : d.readyOf t' = some a) :
      Function.update d.readyOf t (some d.adds.length) t' = some a := by
    rw [Function.update_of_ne]
    · exact hr
    · rintro rfl
      rw [hnone] at hr
      cases hr
  have hadds : d'.adds = d.adds ++ [{ connection := c, topic := t }] := by rw [← hd']; rfl
  have hleft {a : Nat} (hlt : a < d.adds.length) : d'.adds[a]? = d.adds[a]? := by
    rw [hadds]
    exact List.getElem?_append_left hlt
  have hsame : d'.waiters = d.waiters ∧ d'.pcOf = d.pcOf ∧ d'.protocol = d.protocol ∧
      d'.topics = d.topics ∧ d'.pending = d.pending ∧ d'.requestKeys = d.requestKeys ∧
      d'.restoring = d.restoring ∧ d'.connections = d.connections ∧ d'.observers = d.observers ∧
      d'.guardQueue = d.guardQueue ∧ d'.removes = d.removes := by
    rw [← hd']
    exact ⟨rfl, rfl, rfl, rfl, rfl, rfl, rfl, rfl, rfl, rfl, rfl⟩
  obtain ⟨hw, hpc, hprot, htop, hpend, hkeys, hrest, hconn, hobs, hqueue, hrem⟩ := hsame
  have hown := (h.owners.topics t i hi).1
  refine ⟨⟨⟨?_, ?_, ?_, ?_, ?_, ?_, ?_, ?_⟩, ?_⟩, ?_⟩
  · rw [hw, hpc]
    exact h.acquiring
  · rw [hprot, htop]
    exact h.bound
  · rw [hpend, htop, hcount, hkeys]
    exact h.counts
  · rw [hlen, htop, hpc, hrest]
    exact h.owners
  · rw [htop, hcount, hpc]
    exact h.torn
  · rw [hprot, hrest, htop, hcount]
    exact h.restores
  · rw [hconn, hprot, hadds, hobs, hrem]
    refine ⟨h.older.protocol, fun add hin => ?_, h.older.observers, h.older.removes⟩
    rcases List.mem_append.1 hin with hin | hin
    · exact h.older.adds add hin
    · rw [List.mem_singleton.1 hin]
      exact h.older.protocol c hp
  · rw [hprot, hready, hpend, hkeys, hpc]
    refine ⟨fun k r a hk => ?_, fun k r hk hnew => ?_⟩
    · obtain ⟨hlt, halt, hwaits⟩ := h.joined.readying k r a hk
      refine ⟨hlt, by rw [hadds, List.length_append]; omega, fun add key ha hp' hkey hr => ?_⟩
      rw [hleft halt] at ha
      exact hother (hwaits add key ha hp' hkey hr)
    · obtain ⟨hlt, hfound⟩ := h.joined.returned k r hk hnew
      refine ⟨hlt, fun key hkey hr => ?_⟩
      obtain ⟨a, add, hra, ha, hok⟩ := hfound key hkey hr
      refine ⟨a, add, hother hra, ?_, hok⟩
      rw [hleft (List.getElem?_eq_some_iff.1 ha).1]
      exact ha
  · rw [hprot, hready, hadds, hobs, hqueue, hrem]
    exact h.observes.newAdd hp hnone
  · rw [hready, Function.update_self]

/-- `_ensure_topic_ready` for an interest in `_topics`. -/
theorem InterestInv.ensureTopicReady {t : String} {i c : Nat} (h : InterestInv owner earlier none d)
    (hp : d.protocol = some c) (hi : d.topics.get? t = some i) :
    InterestInv owner earlier none (d.ensureTopicReady c t i).1 ∧
      (d.ensureTopicReady c t i).1.readyOf t = some (d.ensureTopicReady c t i).2 := by
  have hready : d.readyOf t = (d.interests[i]?).bind TopicInterest.ready := by
    rw [readyOf, hi]
    rfl
  unfold RequestDispatcher.ensureTopicReady
  split
  · next a hsome =>
    rw [hsome] at hready
    exact ⟨h, hready⟩
  · next hnone =>
    rw [hnone] at hready
    exact h.newAdd hp hi hready rfl

/-- The wait for the ready task in `register`. -/
theorem InterestInv.awaitReady {key : RequestKey} {r a : Nat} (h : InterestInv owner earlier none d)
    (hk : d.pcOf k = some pc) (hrun : pc ≠ .acquiring) (hfree : pc.removes = none)
    (htear : ∀ t' i' a, pc ≠ .tearingDown t' i' a) (hkey : d.requestKeys[r]? = some key)
    (hready : d.pending.get? key = some r → d.readyOf key.1 = some a) (halt : a < d.adds.length) :
    InterestInv owner earlier none (d.awaitReady k r a) := by
  have hwait := h.not_mem_waiters hk hrun
  have hlt := (List.getElem?_eq_some_iff.1 hkey).1
  have hnotear : ∀ t i a, pc = .tearingDown t i a → none = some i := fun t i a he =>
    absurd he (htear t i a)
  unfold RequestDispatcher.awaitReady
  split
  · next hok =>
    refine h.setPc hk hwait hfree hnotear rfl nofun nofun fun r' he => ?_
    cases he
    refine ⟨hlt, fun key' hkey' hr => ?_⟩
    cases hkey.symm.trans hkey'
    refine ⟨a, _, hready hr, List.getElem?_eq_getElem halt, ?_⟩
    rw [addStage, List.getElem?_eq_getElem halt] at hok
    exact hok
  · exact h.unregister hk hrun hfree htear r
  all_goals
    refine h.setPc hk hwait hfree hnotear rfl nofun (fun r' a' he => ?_) nofun
    cases he
    refine ⟨hlt, halt, fun add key' _ _ hkey' hr => ?_⟩
    cases hkey.symm.trans hkey'
    exact hready hr

/-- `register` after the semaphore. -/
theorem InterestInv.registered (h : InterestInv owner earlier none d) (hk : d.pcOf k = some .granted)
    (key : RequestKey) : ∃ owner', InterestInv owner' earlier none (d.registered k key) := by
  unfold RequestDispatcher.registered
  split
  · next c hkey hp =>
    -- an interest in the topic of the request
    obtain ⟨owner', hinv, hi⟩ : ∃ owner', InterestInv owner' earlier
        (some (d.topicInterest key.1).2) (d.topicInterest key.1).1 ∧
        (d.topicInterest key.1).1.topics.get? key.1 = some (d.topicInterest key.1).2 := by
      unfold RequestDispatcher.topicInterest
      split
      · next i hi => exact ⟨owner, h.exempt (some i), hi⟩
      · next hnone =>
        have hsome : d.protocol ≠ none := by rw [hp]; exact Option.some_ne_none c
        refine ⟨_, h.newInterest hsome hnone, ?_⟩
        change (d.topics.set key.1 d.interests.length).get? key.1 = _
        rw [Dict.get?_set, if_pos rfl]
    obtain ⟨topics, interests, htopic⟩ := topicInterest_frame d key.1
    dsimp only
    rw [htopic] at hinv hi ⊢
    generalize (d.topicInterest key.1).2 = i at hinv hi ⊢
    have hjoined := hinv.addWaiter hkey hi
    obtain ⟨hensured, hready⟩ := hjoined.ensureTopicReady hp hi
    obtain ⟨adds, interests', hframe⟩ := ensureTopicReady_frame
      (RequestDispatcher.addWaiter { d with topics, interests } key i) c key.1 i
    have hkeys : (RequestDispatcher.addWaiter { d with topics, interests } key i).requestKeys[d.requests.length]? =
        some key := by
      change ((d.requests ++ [({ key := key } : PendingRequest)]).map PendingRequest.key)[_]? = _
      rw [List.getElem?_map, List.getElem?_concat_length]
      rfl
    have hk' : ((RequestDispatcher.addWaiter { d with topics, interests } key i).ensureTopicReady
        c key.1 i).1.pcOf k = some .granted := by
      rw [hframe]
      exact hk
    refine ⟨owner', hensured.awaitReady hk' nofun rfl nofun ?_ (fun _ => hready) ?_⟩
    · rw [hframe]
      exact hkeys
    · obtain ⟨add, ha, -⟩ := hensured.observes.ready key.1 _ hready
      exact (List.getElem?_eq_some_iff.1 ha).1
  · have hend := h.goOn hk (h.not_mem_waiters hk nofun) rfl nofun .ended rfl
    exact ⟨owner, hend.release⟩

/-- A new caller of whom nothing is known. -/
theorem InterestInv.newCaller (h : InterestInv owner earlier none d) (free : Nat)
    (waiters : List Nat) (caller : DispatcherCaller)
    (hquiet : caller.pc.quiet = true ∨ caller.pc = .acquiring)
    (hwaiters : Acquiring waiters (Function.update d.pcOf d.callers.length (some caller.pc))) :
    InterestInv owner earlier none
      { d with free, waiters, callers := d.callers ++ [caller] } := by
  generalize hd' : ({ d with free, waiters, callers := d.callers ++ [caller] } :
    RequestDispatcher) = d'
  have hpcs : d'.pcOf = Function.update d.pcOf d.callers.length (some caller.pc) := by
    funext j
    rw [← hd']
    change ((d.callers ++ [caller])[j]?).map DispatcherCaller.pc = _
    rw [Function.update_apply]
    split
    · next he =>
      rw [he, List.getElem?_concat_length]
      rfl
    · next hne =>
      rw [pcOf]
      rcases Nat.lt_or_ge j d.callers.length with hlt | hge
      · rw [List.getElem?_append_left hlt]
      · rw [List.getElem?_eq_none hge, List.getElem?_eq_none]
        rw [List.length_append, List.length_singleton]
        omega
  have hold : d.pcOf d.callers.length = none := by
    rw [pcOf, List.getElem?_eq_none (Nat.le_refl _)]
    rfl
  have hnoremoves : caller.pc.removes = none := by
    rcases hquiet with hq | hq
    · cases hpc : caller.pc <;> first | rfl | (rw [hpc] at hq; cases hq)
    · rw [hq]
      rfl
  have hrem : d'.removes = d.removes := by
    funext j
    rw [removes, hpcs, Function.update_apply]
    split
    · next he =>
      rw [he, removes, hold]
      exact hnoremoves
    · rfl
  have hget {j : Nat} {q : CallerPc} (hq : d'.pcOf j = some q)
      (hloud : q.quiet = false ∧ q ≠ .acquiring) : d.pcOf j = some q := by
    rw [hpcs, Function.update_apply] at hq
    split at hq
    · obtain rfl := Option.some.inj hq
      rcases hquiet with hquiet | hquiet
      · rw [hquiet] at hloud
        cases hloud.1
      · exact absurd hquiet hloud.2
    · exact hq
  have hsame : d'.waiters = waiters ∧ d'.protocol = d.protocol ∧ d'.topics = d.topics ∧
      d'.pending = d.pending ∧ d'.requestKeys = d.requestKeys ∧ d'.refcountOf = d.refcountOf ∧
      d'.readyOf = d.readyOf ∧ d'.interests = d.interests ∧ d'.restoring = d.restoring ∧
      d'.connections = d.connections ∧ d'.adds = d.adds ∧ d'.observers = d.observers ∧
      d'.guardQueue = d.guardQueue := by
    rw [← hd']
    exact ⟨rfl, rfl, rfl, rfl, rfl, rfl, rfl, rfl, rfl, rfl, rfl, rfl, rfl⟩
  obtain ⟨hw, hprot, htop, hpend, hkeys, hcount, hready, hint, hrest, hconn, hadds, hobs, hqueue⟩ :=
    hsame
  refine ⟨⟨?_, ?_, ?_, ?_, ?_, ?_, ?_, ?_⟩, ?_⟩
  · rw [hw, hpcs]
    exact hwaiters
  · rw [hprot, htop]
    exact h.bound
  · rw [hpend, htop, hcount, hkeys]
    exact h.counts
  · rw [hint, htop, hrest]
    exact ⟨h.owners.topics, fun j t i a hj => h.owners.teardowns j t i a (hget hj ⟨rfl, nofun⟩),
      h.owners.items⟩
  · rw [htop, hcount]
    intro t i ht hzero
    obtain ⟨j, a, hj⟩ := (h.torn t i ht hzero).resolve_left nofun
    refine Or.inr ⟨j, a, ?_⟩
    rw [hpcs, Function.update_of_ne]
    · exact hj
    · rintro rfl
      rw [hold] at hj
      cases hj
  · rw [hprot, hrest, htop, hcount]
    exact h.restores
  · rw [hconn, hprot, hadds, hobs, hrem]
    exact h.older
  · rw [hprot, hready, hadds, hpend, hkeys]
    exact ⟨fun j r a hj => h.joined.readying j r a (hget hj ⟨rfl, nofun⟩),
      fun j r hj => h.joined.returned j r (hget hj ⟨rfl, nofun⟩)⟩
  · rw [hprot, hready, hadds, hobs, hqueue, hrem]
    exact h.observes

/-- The callers of a new one are the old ones. -/
theorem Acquiring.newCaller (h : Acquiring d.waiters d.pcOf) (pc : CallerPc) :
    Acquiring d.waiters (Function.update d.pcOf d.callers.length (some pc)) := by
  refine ⟨h.nodup, fun k hk => ?_⟩
  have hwaiting := h.waiting k hk
  rw [Function.update_of_ne]
  · exact hwaiting
  · rintro rfl
    rw [pcOf, List.getElem?_eq_none (Nat.le_refl _)] at hwaiting
    cases hwaiting

theorem InterestInv.register (h : InterestInv owner earlier none d) (key : RequestKey) :
    ∃ owner', InterestInv owner' earlier none (d.register key) := by
  unfold RequestDispatcher.register
  dsimp only
  split
  · have hnew := h.newCaller (d.free - 1) d.waiters { kind := .register key, pc := .granted }
      (Or.inl rfl) (Acquiring.newCaller h.acquiring .granted)
    refine hnew.registered ?_ key
    change ((d.callers ++ [_])[d.callers.length]?).map DispatcherCaller.pc = _
    rw [List.getElem?_concat_length]
    rfl
  · refine ⟨owner, h.newCaller d.free (d.waiters ++ [d.callers.length]) { kind := .register key, pc := .acquiring }
      (Or.inr rfl) ?_⟩
    have hold := Acquiring.newCaller h.acquiring .acquiring
    have hnew : d.callers.length ∉ d.waiters := fun hin => by
      have hwaiting := h.acquiring.waiting _ hin
      rw [pcOf, List.getElem?_eq_none (Nat.le_refl _)] at hwaiting
      cases hwaiting
    refine ⟨List.nodup_append.2 ⟨h.acquiring.nodup, List.nodup_singleton _, fun x hx y hy => ?_⟩,
      fun k hk => ?_⟩
    · rw [List.mem_singleton.1 hy]
      rintro rfl
      exact hnew hx
    · rcases List.mem_append.1 hk with hk | hk
      · exact hold.waiting k hk
      · rw [List.mem_singleton.1 hk]
        exact Function.update_self ..

/-- A request changes other than in its key. -/
theorem InterestInv.changeRequests (h : InterestInv owner earlier ex d)
    {requests : List PendingRequest} (claims : List ClaimedResponse) (log : List DispatchEntry)
    (hkeys : requests.map PendingRequest.key = d.requestKeys) :
    InterestInv owner earlier ex { d with requests, claims, log } := by
  have hkeys' : ({ d with requests, claims, log } : RequestDispatcher).requestKeys = d.requestKeys :=
    hkeys
  refine ⟨⟨h.acquiring, h.bound, ?_, h.owners, h.torn, h.restores, h.older, ?_⟩, h.observes⟩
  · rw [hkeys']
    exact h.counts
  · rw [hkeys']
    exact h.joined

theorem InterestInv.close (h : InterestInv owner earlier none d) (r : Nat) :
    InterestInv owner earlier none (d.close r) := by
  unfold RequestDispatcher.close
  split
  · exact h
  · split
    · exact h
    · have hkeys : (d.modifyRequest r fun request => { request with closed := true }).requestKeys =
          d.requestKeys := requestKeys_modifyRequest d r fun _ => rfl
      have hnew := h.newCaller d.free d.waiters { kind := .close r, pc := .ended } (Or.inl rfl)
        (Acquiring.newCaller h.acquiring .ended)
      have hpc : ({ d with callers := d.callers ++ [{ kind := .close r, pc := .ended }] } :
          RequestDispatcher).pcOf d.callers.length = some .ended := by
        change ((d.callers ++ [_])[d.callers.length]?).map DispatcherCaller.pc = _
        rw [List.getElem?_concat_length]
        rfl
      exact (hnew.changeRequests d.claims d.log hkeys).unregister hpc nofun rfl nofun r

end RequestDispatcher

end Zmqtt
