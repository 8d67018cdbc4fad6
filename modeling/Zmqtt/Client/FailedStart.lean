/-
  Starts of a `Subscription` that fail (`__aenter__` of `client.py`). The subscription is
  appended to `_subscriptions` before the call that can fail, and nothing takes it out again:
  the list is as before only when the client had no connection to call.
-/
import Zmqtt.Client.Subscriptions

namespace Zmqtt

namespace SubscriptionClient

/-- No start and no stop of subscription `n`. -/
def apart (n : Nat) (_ : SubscriptionClient) (e : ClientEvent) : Prop :=
  e ≠ .enter n ∧ ∀ beingCancelled, e ≠ .exit n beingCancelled

/-- A start of subscription `n` in `s` that has raised in `s'`: at once, without a connection, or
    when its caller goes on after the call of `subscribe` has raised. Subscription `n` is neither
    started nor stopped in between; anything else may happen. -/
inductive FailedStart (n : Nat) (s : SubscriptionClient) : SubscriptionClient → Prop where
  | notConnected (h : s.protocol = none) : FailedStart n s (s.step (.enter n))
  | raised (c : Nat) (conn conn' : ClientConnection) (call : ClientCall) (task : InterestTask)
      (s' : SubscriptionClient) (ok : Bool) (hprotocol : s.protocol = some c)
      (hconn : s.connections[c]? = some conn)
      (hrun : Reach step (apart n) (s.step (.enter n)) s') (hconn' : s'.connections[c]? = some conn')
      (hcall : conn'.calls[conn.calls.length]? = some call)
      (htask : conn'.interests.tasks[conn.calls.length]? = some task)
      (hended : task.pc = .ended) (hleft : call.left = false)
      (hraised : ok = false ∨ call.result = none) :
      FailedStart n s (s'.step (.leave c conn.calls.length ok))

variable {s : SubscriptionClient} {n : Nat}

theorem subscriptions_goOn (s : SubscriptionClient) (call : ClientCall) (ok : Bool) :
    (s.goOn call ok).subscriptions = s.subscriptions := by
  unfold goOn
  split <;> rfl

theorem subscriptions_leave (s : SubscriptionClient) (c k : Nat) (ok : Bool) :
    (s.leave c k ok).subscriptions = s.subscriptions := by
  unfold leave
  split
  · rfl
  · split
    · split
      · exact subscriptions_goOn _ _ ok
      · rfl
    · rfl

theorem subscriptions_enter (s : SubscriptionClient) (n : Nat) : (s.enter n).subscriptions =
    if s.protocol.isSome ∧ n < s.subs.length then s.subscriptions ++ [n] else s.subscriptions := by
  unfold enter
  split
  · next c sub hprotocol hsub =>
    rw [if_pos ⟨by rw [hprotocol]; rfl, (List.getElem?_eq_some_iff.1 hsub).1⟩]
    rfl
  · next hnone =>
    split
    · next h =>
      obtain ⟨c, hc⟩ := Option.isSome_iff_exists.1 h.1
      exact absurd (List.getElem?_eq_getElem h.2) (hnone c _ hc)
    · rfl

theorem subscriptions_exit (s : SubscriptionClient) (n : Nat) (beingCancelled : Bool) :
    (s.exit n beingCancelled).subscriptions = s.subscriptions.erase n := by
  unfold exit
  split
  · dsimp only
    split <;> rfl
  · next hnot => exact (List.erase_of_not_mem hnot).symm

/-- Only the starts and stops of a subscription change how often it is in the list. -/
theorem count_step_of_apart {e : ClientEvent} (he : apart n s e) :
    (s.step e).subscriptions.count n = s.subscriptions.count n := by
  cases e with
  | enter m =>
    have hm : m ≠ n := fun h => he.1 (congrArg ClientEvent.enter h)
    rw [step, subscriptions_enter]
    split
    · rw [List.count_append, List.count_singleton, if_neg (by simpa using hm), Nat.add_zero]
    · rfl
  | exit m beingCancelled =>
    have hm : n ≠ m := fun h => he.2 beingCancelled (congrArg (ClientEvent.exit · beingCancelled) h.symm)
    rw [step, subscriptions_exit, List.count_erase_of_ne hm]
  | connect version maxPublishQos strippedPrefixes =>
    rw [step, connect]
    split <;> rfl
  | lose =>
    rw [step, lose]
    split <;> rfl
  | endLoop =>
    rw [step, endLoop]
    split <;> rfl
  | disconnect =>
    rw [step, disconnect]
    split <;> rfl
  | create sub => rfl
  | observe add topic =>
    rw [step, observe]
    split <;> rfl
  | restoreNext =>
    rw [step, restoreNext]
    split
    · split
      · split <;> rfl
      · rfl
    · rfl
  | call c e => rfl
  | leave c k ok => rw [step, subscriptions_leave]
  | route filter =>
    rw [step, route]
    split
    · rfl
    · split
      · split <;> rfl
      · rfl
  | put j =>
    rw [step, put]
    split <;> rfl
  | drop j => rfl

theorem count_of_apart {s' : SubscriptionClient} (h : Reach step (apart n) s s') :
    s'.subscriptions.count n = s.subscriptions.count n := by
  refine Reach.invariant (I := fun t : SubscriptionClient =>
    t.subscriptions.count n = s.subscriptions.count n) h rfl ?_
  exact fun t e ht he => (count_step_of_apart he).trans ht

/-- A start that fails leaves the subscription in the list once more, unless there was no
    connection. -/
theorem FailedStart.count {s' : SubscriptionClient} (hn : n < s.subs.length)
    (h : FailedStart n s s') : s'.subscriptions.count n =
      s.subscriptions.count n + if s.protocol = none then 0 else 1 := by
  cases h with
  | notConnected hnone => rw [step, subscriptions_enter, hnone]; rfl
  | raised c conn conn' call task t ok hprotocol hconn hrun hconn' hcall htask hended hleft hraised =>
    rw [step, subscriptions_leave, count_of_apart hrun, step, subscriptions_enter, hprotocol,
      if_pos ⟨rfl, hn⟩, if_neg nofun, List.count_append, List.count_singleton_self]

/-- **Failed starts.** In every state of a client, a start that fails has left the subscription in
    `_subscriptions` as often as before exactly when the client had no connection. -/
theorem failed_start_undone (s s' : SubscriptionClient) (n : Nat) (hn : n < s.subs.length)
    (h : FailedStart n s s') :
    s'.subscriptions.count n = s.subscriptions.count n ↔ s.protocol = none := by
  rw [h.count hn]
  split
  · next hnone => exact ⟨fun _ => hnone, fun _ => rfl⟩
  · next hsome => exact ⟨fun he => by omega, fun hnone => absurd hnone hsome⟩

theorem failed_start_undone_notConnected :
    let s := start.step (.create { filters := [{ topicFilter := "a", qos := .atMostOnce }] })
    (s.step (.enter 0)).subscriptions.count 0 = s.subscriptions.count 0 := by
  intro s
  exact (failed_start_undone s _ 0 (by decide) (.notConnected rfl)).2 rfl

/-- A subscription is started, and the broker rejects its filter. -/
def rejectedStart : List ClientEvent :=
  [.connect .v311 .exactlyOnce [], .create { filters := [{ topicFilter := "a", qos := .atMostOnce }] },
    .enter 0, .call 0 (.resume 0 true),
    .call 0 (.background (.receive (.suback { packetId := 1, returnCodes := [0x80] }))),
    .call 0 (.resume 0 true), .leave 0 0 true]

/-- It is started again, and rejected again; then the connection is lost. -/
def rejectedTwice : List ClientEvent :=
  rejectedStart ++ [.enter 0, .call 0 (.resume 1 true),
    .call 0 (.background (.receive (.suback { packetId := 1, returnCodes := [0x80] }))),
    .call 0 (.resume 1 true), .leave 0 1 true, .call 0 (.background .runExit), .lose]

/-- The subscription that never started is in the list twice, and will be restored twice. -/
theorem failed_start_not_undone :
    let s := (rejectedStart.take 2).foldl step start
    FailedStart 0 s (rejectedStart.foldl step start) ∧ s.subscriptions = [] ∧
      (rejectedStart.foldl step start).subscriptions = [0] ∧
      (rejectedTwice.foldl step start).subscriptions = [0, 0] ∧
      (rejectedTwice.foldl step start).toRestore = [0, 0] := by
  intro s
  refine ⟨?_, by decide +kernel⟩
  have hrun : Meets step (apart 0) (s.step (.enter 0)) ((rejectedStart.drop 3).take 3) :=
    ⟨⟨nofun, nofun⟩, ⟨nofun, nofun⟩, ⟨nofun, nofun⟩, trivial⟩
  exact .raised 0 _ _ { role := .enter 0 } _ _ true rfl rfl (Reach.foldl hrun) rfl rfl rfl rfl rfl
    (Or.inr rfl)

end SubscriptionClient

end Zmqtt
