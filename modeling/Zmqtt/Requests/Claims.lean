/-
  Claims and deliveries of the request dispatcher. A claim is made when a PUBLISH arrives and
  completed when the message is delivered, for QoS 2 at PUBREL; in between requests end, keys
  are used again and connections change.

  Most steps leave the claims alone: they only remove waiters, add new ones and finish futures
  (`Calm`).
-/
import Zmqtt.Requests.Capacity
import Zmqtt.Inbound.Recipients

namespace Zmqtt

/-- What requests go through without a claim, a delivery or a new connection. -/
structure Evolves (requests requests' : List PendingRequest) : Prop where
  kept : ∀ (r : Nat) (request : PendingRequest), requests[r]? = some request →
    ∃ request' : PendingRequest, requests'[r]? = some request' ∧ request'.key = request.key ∧
    (request.claimed = true → request'.claimed = true) ∧
    (request.future ≠ .pending → request'.future = request.future)
  noResult : ∀ (r : Nat) (request' : PendingRequest) (m : Received),
    requests'[r]? = some request' → request'.future = .result m →
    ∃ request : PendingRequest, requests[r]? = some request ∧ request.future = .result m

theorem evolves_refl (requests : List PendingRequest) : Evolves requests requests :=
  ⟨fun _ request h => ⟨request, h, rfl, id, fun _ => rfl⟩, fun _ request' _ h hf => ⟨request', h, hf⟩⟩

theorem Evolves.trans {a b c : List PendingRequest} (h : Evolves a b) (h' : Evolves b c) :
    Evolves a c := by
  refine ⟨fun r request hr => ?_, fun r request m hr hf => ?_⟩
  · obtain ⟨request₁, hr₁, hkey₁, hclaimed₁, hfuture₁⟩ := h.kept r request hr
    obtain ⟨request₂, hr₂, hkey₂, hclaimed₂, hfuture₂⟩ := h'.kept r request₁ hr₁
    refine ⟨request₂, hr₂, hkey₂.trans hkey₁, fun hc => hclaimed₂ (hclaimed₁ hc), fun hf => ?_⟩
    have heq := hfuture₁ hf
    rw [← heq]
    exact hfuture₂ (by rw [heq]; exact hf)
  · obtain ⟨request₁, hr₁, hf₁⟩ := h'.noResult r request m hr hf
    exact h.noResult r request₁ m hr₁ hf₁

/-- One request changes. -/
theorem evolves_modify {requests : List PendingRequest} {r : Nat}
    {change : PendingRequest → PendingRequest} (hkey : ∀ q, (change q).key = q.key)
    (hclaimed : ∀ q, q.claimed = true → (change q).claimed = true)
    (hfuture : ∀ q : PendingRequest, q.future ≠ .pending → (change q).future = q.future)
    (hnew : ∀ q m, (change q).future = .result m → q.future = .result m) :
    Evolves requests (requests.modify r change) := by
  refine ⟨fun j request hj => ?_, fun j request' m hj hf => ?_⟩
  · rw [List.getElem?_modify, hj]
    by_cases hrj : r = j
    · exact ⟨change request, by simp [hrj], hkey request, hclaimed request, hfuture request⟩
    · exact ⟨request, by simp [hrj], rfl, id, fun _ => rfl⟩
  · rw [List.getElem?_modify] at hj
    obtain ⟨request, hrequest, rfl⟩ := Option.map_eq_some_iff.1 hj
    refine ⟨request, hrequest, ?_⟩
    split at hf
    · exact hnew request m hf
    · exact hf

theorem evolves_append (requests : List PendingRequest) {request : PendingRequest}
    (hpending : request.future = .pending) : Evolves requests (requests ++ [request]) := by
  refine ⟨fun r other hr => ⟨other, ?_, rfl, id, fun _ => rfl⟩, fun r other m hr hf => ?_⟩
  · exact List.getElem?_append_left (List.getElem?_eq_some_iff.1 hr).1 ▸ hr
  · rcases Nat.lt_or_ge r requests.length with hlt | hge
    · exact ⟨other, List.getElem?_append_left hlt ▸ hr, hf⟩
    · rw [List.getElem?_append_right hge] at hr
      have hother : other = request := List.mem_singleton.1 (List.mem_of_getElem? hr)
      rw [hother, hpending] at hf
      cases hf

/-- The waiters in `_pending` are under their own keys. -/
def PendingKeyed (pending : Dict RequestKey Nat) (requests : List PendingRequest) : Prop :=
  ∀ (key : RequestKey) (r : Nat), pending.get? key = some r →
    ∃ request : PendingRequest, requests[r]? = some request ∧ request.key = key

theorem PendingKeyed.evolves {pending : Dict RequestKey Nat} {a b : List PendingRequest}
    (h : PendingKeyed pending a) (hev : Evolves a b) : PendingKeyed pending b := by
  intro key r hr
  obtain ⟨request, hrequest, hkey⟩ := h key r hr
  obtain ⟨request', hrequest', hkey', -⟩ := hev.kept r request hrequest
  exact ⟨request', hrequest', hkey'.trans hkey⟩

theorem PendingKeyed.pop {pending : Dict RequestKey Nat} {requests : List PendingRequest}
    (h : PendingKeyed pending requests) (key : RequestKey) :
    PendingKeyed (pending.pop key) requests := by
  intro key' r hr
  rw [Dict.get?_pop] at hr
  split at hr
  · cases hr
  · exact h key' r hr

namespace RequestDispatcher

/-- A step that makes no claim and no delivery, on the same connection. -/
structure Calm (d d' : RequestDispatcher) : Prop where
  claims : d'.claims = d.claims
  generation : d'.generation = d.generation
  log : d'.log = d.log
  requests : Evolves d.requests d'.requests
  pending : PendingKeyed d.pending d.requests → PendingKeyed d'.pending d'.requests

variable {d d' : RequestDispatcher}

theorem calm_of_eq (hclaims : d'.claims = d.claims) (hgen : d'.generation = d.generation)
    (hlog : d'.log = d.log) (hreq : d'.requests = d.requests) (hpend : d'.pending = d.pending) :
    Calm d d' := by
  refine ⟨hclaims, hgen, hlog, ?_, ?_⟩
  · rw [hreq]
    exact evolves_refl _
  · rw [hreq, hpend]
    exact id

theorem calm_refl (d : RequestDispatcher) : Calm d d := calm_of_eq rfl rfl rfl rfl rfl

theorem Calm.trans {d₁ d₂ d₃ : RequestDispatcher} (h : Calm d₁ d₂) (h' : Calm d₂ d₃) :
    Calm d₁ d₃ :=
  ⟨h'.claims.trans h.claims, h'.generation.trans h.generation, h'.log.trans h.log,
    h.requests.trans h'.requests, fun hp => h'.pending (h.pending hp)⟩

theorem calm_setPc (d : RequestDispatcher) (k : Nat) (pc : CallerPc) : Calm d (d.setPc k pc) :=
  calm_of_eq rfl rfl rfl rfl rfl

theorem calm_release (d : RequestDispatcher) : Calm d d.release := by
  unfold release
  split <;> exact calm_of_eq rfl rfl rfl rfl rfl

theorem calm_finishFuture (d : RequestDispatcher) (r : Nat) {future : RequestFuture}
    (hfuture : ∀ m, future ≠ .result m) : Calm d (d.finishFuture r future) := by
  have hev : Evolves d.requests (d.finishFuture r future).requests := by
    refine evolves_modify (fun q => ?_) (fun q hq => ?_) (fun q hq => ?_) fun q m hm => ?_
    · split <;> rfl
    · split <;> exact hq
    · rw [if_neg hq]
    · split at hm
      · exact absurd hm (hfuture m)
      · exact hm
  exact ⟨rfl, rfl, rfl, hev, fun hp => hp.evolves hev⟩

theorem calm_pop (d : RequestDispatcher) (key : RequestKey) :
    Calm d { d with pending := d.pending.pop key } :=
  ⟨rfl, rfl, rfl, evolves_refl _, fun hp => hp.pop key⟩

theorem calm_finishUnregister (d : RequestDispatcher) (k : Nat) : Calm d (d.finishUnregister k) :=
  (calm_setPc d k .ended).trans (calm_release _)

theorem calm_teardown (d : RequestDispatcher) (k : Nat) (topic : String) (i : Nat)
    (observerActive : Bool) : Calm d (d.teardown k topic i observerActive) := by
  unfold teardown
  split
  · dsimp only
    have hpop : Calm d { d with topics := d.topics.pop topic } := calm_of_eq rfl rfl rfl rfl rfl
    split
    · exact calm_of_eq rfl rfl rfl rfl rfl
    · exact hpop.trans (calm_finishUnregister _ k)
  · exact calm_finishUnregister d k

theorem calm_awaitTeardown (d : RequestDispatcher) (k : Nat) (topic : String) (i : Nat) :
    Calm d (d.awaitTeardown k topic i) := by
  unfold awaitTeardown
  split
  · exact calm_teardown d k topic i false
  · split
    · exact calm_teardown d k topic i true
    · exact calm_teardown d k topic i false
    all_goals exact calm_setPc d k _

/-- The waiter is popped and its future is cancelled. -/
theorem calm_popFinish (d : RequestDispatcher) (r : Nat) (key : RequestKey) :
    Calm d ({ d with pending := d.pending.pop key }.finishFuture r .cancelled) := by
  generalize hpop : ({ d with pending := d.pending.pop key } : RequestDispatcher) = popped
  have hcalm : Calm d popped := hpop ▸ calm_pop d key
  have hcancelled : ∀ m, RequestFuture.cancelled ≠ .result m := fun m hm => by cases hm
  exact hcalm.trans (calm_finishFuture popped r hcancelled)

theorem calm_removeWaiter (d : RequestDispatcher) (r : Nat) (key : RequestKey) (i : Nat) :
    Calm d (d.removeWaiter r key i) := by
  unfold removeWaiter
  have hfinished := calm_popFinish d r key
  generalize ({ d with pending := d.pending.pop key } : RequestDispatcher).finishFuture r
    .cancelled = finished at hfinished ⊢
  exact hfinished.trans (calm_of_eq rfl rfl rfl rfl rfl)

theorem calm_unregister (d : RequestDispatcher) (k r : Nat) : Calm d (d.unregister k r) := by
  unfold unregister
  split
  · exact calm_setPc d k .ended
  · next request _ =>
    split
    · split
      · have hfinished := calm_popFinish d r request.key
        exact hfinished.trans (calm_finishUnregister _ k)
      · next i _ =>
        have hwaiter := calm_removeWaiter d r request.key i
        generalize d.removeWaiter r request.key i = removed at hwaiter ⊢
        dsimp only
        split
        · exact hwaiter.trans (calm_finishUnregister removed k)
        · exact hwaiter.trans (calm_awaitTeardown removed k request.key.1 i)
    · exact calm_setPc d k .ended

theorem calm_awaitReady (d : RequestDispatcher) (k r a : Nat) : Calm d (d.awaitReady k r a) := by
  unfold awaitReady
  split
  · exact calm_setPc d k _
  · exact calm_unregister d k r
  all_goals exact calm_setPc d k _

theorem calm_addWaiter (d : RequestDispatcher) (key : RequestKey) (i : Nat) :
    Calm d (d.addWaiter key i) := by
  have hev : Evolves d.requests (d.addWaiter key i).requests := evolves_append d.requests rfl
  refine ⟨rfl, rfl, rfl, hev, fun hp key' r hr => ?_⟩
  have hget : (d.addWaiter key i).pending.get? key' =
      if key = key' then some d.requests.length else d.pending.get? key' := Dict.get?_set _ _ _ _
  rw [hget] at hr
  split at hr
  · next he =>
    cases hr
    exact ⟨{ key }, List.getElem?_concat_length .., he⟩
  · exact hp.evolves hev key' r hr

theorem calm_registered (d : RequestDispatcher) (k : Nat) (key : RequestKey) :
    Calm d (d.registered k key) := by
  unfold registered
  split
  · next connection _ _ =>
    obtain ⟨topics, interests, htopic⟩ := topicInterest_frame d key.1
    dsimp only
    rw [htopic]
    generalize (d.topicInterest key.1).2 = i
    obtain ⟨adds, interests', hready⟩ := ensureTopicReady_frame
      (addWaiter { d with topics, interests } key i) connection key.1 i
    rw [hready]
    have hinterest : Calm d { d with topics, interests } := calm_of_eq rfl rfl rfl rfl rfl
    have hwaiter := hinterest.trans (calm_addWaiter _ key i)
    generalize hd' : ({ addWaiter { d with topics, interests } key i with
      adds, interests := interests' } : RequestDispatcher) = d'
    have hcalm : Calm d d' := by
      rw [← hd']
      exact hwaiter.trans (calm_of_eq rfl rfl rfl rfl rfl)
    exact hcalm.trans (calm_awaitReady d' k _ _)
  · exact (calm_setPc d k .ended).trans (calm_release _)

theorem calm_register (d : RequestDispatcher) (key : RequestKey) : Calm d (d.register key) := by
  unfold register
  dsimp only
  split
  · have hnew : Calm d { d with
        free := d.free - 1
        callers := d.callers ++ [{ kind := .register key, pc := .granted }] } :=
      calm_of_eq rfl rfl rfl rfl rfl
    exact hnew.trans (calm_registered _ d.callers.length key)
  · exact calm_of_eq rfl rfl rfl rfl rfl

theorem calm_close (d : RequestDispatcher) (r : Nat) : Calm d (d.close r) := by
  unfold close
  split
  · exact calm_refl d
  · split
    · exact calm_refl d
    · have hev : Evolves d.requests
          (d.requests.modify r fun request => { request with closed := true }) :=
        evolves_modify (fun _ => rfl) (fun _ h => h) (fun _ _ => rfl) fun _ _ h => h
      have hclosed : Calm d { d.modifyRequest r fun request => { request with closed := true } with
          callers := d.callers ++ [{ kind := .close r, pc := .ended }] } :=
        ⟨rfl, rfl, rfl, hev, fun hp => hp.evolves hev⟩
      exact hclosed.trans (calm_unregister _ d.callers.length r)

theorem calm_restoreFrom (d : RequestDispatcher) (items : List (String × Nat)) :
    Calm d (d.restoreFrom items) := by
  obtain ⟨adds, interests, restoring, awaits, hrest⟩ := restoreFrom_frame d items
  rw [hrest]
  exact calm_of_eq rfl rfl rfl rfl rfl

theorem calm_resume (d : RequestDispatcher) (k : Nat) : Calm d (d.resume k) := by
  unfold resume
  split
  · exact calm_refl d
  · split
    · exact calm_registered d k _
    · split
      · exact calm_awaitReady d k _ _
      · exact calm_refl d
    · split
      · exact calm_teardown d k _ _ true
      · exact calm_teardown d k _ _ false
      all_goals exact calm_refl d
    · exact calm_refl d

theorem calm_cancel (d : RequestDispatcher) (k : Nat) : Calm d (d.cancel k) := by
  unfold cancel
  split
  · exact calm_refl d
  · split
    · exact calm_of_eq rfl rfl rfl rfl rfl
    · exact (calm_setPc d k .ended).trans (calm_release _)
    · exact calm_unregister d k _
    · exact calm_teardown d k _ _ false
    · have hqueue : Calm d
          { d with guardQueue := d.guardQueue.filter (· ≠ GuardWaiter.remove k) } :=
        calm_of_eq rfl rfl rfl rfl rfl
      exact hqueue.trans (calm_finishUnregister _ k)
    · exact calm_finishUnregister d k
    all_goals exact calm_refl d

theorem calm_enterGuard (d : RequestDispatcher) (n : Nat) : Calm d (d.enterGuard n) := by
  unfold enterGuard
  split
  · exact calm_refl d
  · split
    · exact calm_refl d
    · split
      · exact calm_refl d
      · have hqueue : Calm d { d with guardQueue := d.guardQueue.eraseIdx n } :=
          calm_of_eq rfl rfl rfl rfl rfl
        dsimp only
        split
        · split <;> exact calm_of_eq rfl rfl rfl rfl rfl
        · split
          · exact calm_of_eq rfl rfl rfl rfl rfl
          · exact hqueue.trans (calm_finishUnregister _ _)

theorem calm_endAdd (d : RequestDispatcher) (a : Nat) (ok : Bool) : Calm d (d.endAdd a ok) := by
  unfold endAdd
  split
  · exact calm_refl d
  · split
    · exact calm_refl d
    · exact calm_refl d
    all_goals split <;> exact calm_of_eq rfl rfl rfl rfl rfl

theorem calm_restore (d : RequestDispatcher) : Calm d d.restore := by
  unfold restore
  split
  · exact calm_restoreFrom d d.topics
  · exact calm_refl d

theorem calm_resumeRestore (d : RequestDispatcher) : Calm d d.resumeRestore := by
  unfold resumeRestore
  split
  · split
    · exact calm_restoreFrom d _
    · exact calm_of_eq rfl rfl rfl rfl rfl
    all_goals exact calm_refl d
  · exact calm_refl d

theorem calm_startAdd (d : RequestDispatcher) (a : Nat) : Calm d (d.startAdd a) := by
  unfold startAdd
  split
  · exact calm_of_eq rfl rfl rfl rfl rfl
  · exact calm_refl d

theorem calm_endRemove (d : RequestDispatcher) (k : Nat) : Calm d (d.endRemove k) := by
  unfold endRemove
  split
  · exact calm_finishUnregister d k
  · exact calm_refl d

/-- All steps that are not calm. -/
theorem step_cases (d : RequestDispatcher) (event : DispatcherEvent) :
    Calm d (d.step event) ∨ d.step event = d.bind ∨ d.step event = d.cancelPending ∨
      (∃ m, event = .claim m) ∨ ∃ c, event = .complete c := by
  have hcancelled : ∀ m, RequestFuture.cancelled ≠ .result m := fun m hm => by cases hm
  cases event with
  | bind =>
    by_cases hrestoring : d.restoring = none
    · exact Or.inr (Or.inl (if_pos hrestoring))
    · left
      rw [step, if_neg hrestoring]
      exact calm_refl d
  | restore => exact Or.inl (calm_restore d)
  | resumeRestore => exact Or.inl (calm_resumeRestore d)
  | cancelRestore => exact Or.inl (calm_of_eq rfl rfl rfl rfl rfl)
  | register key => exact Or.inl (calm_register d key)
  | close r => exact Or.inl (calm_close d r)
  | cancelFuture r => exact Or.inl (calm_finishFuture d r hcancelled)
  | resume k => exact Or.inl (calm_resume d k)
  | cancel k => exact Or.inl (calm_cancel d k)
  | startAdd a => exact Or.inl (calm_startAdd d a)
  | enterGuard n => exact Or.inl (calm_enterGuard d n)
  | endAdd a ok => exact Or.inl (calm_endAdd d a ok)
  | endRemove k => exact Or.inl (calm_endRemove d k)
  | cancelPending => exact Or.inr (Or.inr (Or.inl rfl))
  | claim m => exact Or.inr (Or.inr (Or.inr (Or.inl ⟨m, rfl⟩)))
  | complete c => exact Or.inr (Or.inr (Or.inr (Or.inr ⟨c, rfl⟩)))

/-! ## The invariant -/

/-- The entry delivers to a request. -/
def deliversTo (claims : List ClaimedResponse) (r : Nat) : DispatchEntry → Bool
  | .delivered i => (claims[i]?).any fun response => response.pending = r
  | .reset | .claimed _ => false

/-- Claims belong to their requests, and deliveries to claims of their connection. -/
structure ClaimsOk (d : RequestDispatcher) : Prop where
  pending : PendingKeyed d.pending d.requests
  claims : ∀ response ∈ d.claims, messageKey response.message = some response.key ∧
    ∃ request, d.requests[response.pending]? = some request ∧ request.key = response.key ∧
      (response.generation = d.generation → request.claimed = true)
  distinct : ∀ (i j : Nat) (a b : ClaimedResponse), d.claims[i]? = some a →
    d.claims[j]? = some b → a.pending = b.pending → a.generation = b.generation → i = j
  resets : d.log.count .reset = d.generation
  logged : ∀ (i : Nat) (response : ClaimedResponse), d.claims[i]? = some response →
    ∃ newer older, d.log = newer ++ .claimed i :: older ∧ older.count .reset = response.generation
  delivered : ∀ i, .delivered i ∈ d.log → ∃ response request, d.claims[i]? = some response ∧
    d.requests[response.pending]? = some request ∧ request.future = .result response.message
  results : ∀ (r : Nat) (request : PendingRequest) (m : Received), d.requests[r]? = some request →
    request.future = .result m → ∃ i response, .delivered i ∈ d.log ∧
      d.claims[i]? = some response ∧ response.pending = r ∧ response.message = m
  once : ∀ r, d.log.countP (deliversTo d.claims r) ≤ 1
  current : ∀ i newer older, d.log = newer ++ .delivered i :: older →
    ∃ between before, older = between ++ .claimed i :: before ∧ .reset ∉ between

theorem ClaimsOk.calm (h : ClaimsOk d) (hcalm : Calm d d') : ClaimsOk d' := by
  have hreq := hcalm.requests
  refine ⟨hcalm.pending h.pending, ?_, ?_, ?_, ?_, ?_, ?_, ?_, ?_⟩
  · rw [hcalm.claims, hcalm.generation]
    intro response hmem
    obtain ⟨hkey, request, hrequest, hrkey, hclaimed⟩ := h.claims response hmem
    obtain ⟨request', hrequest', hkey', hclaimed', -⟩ := hreq.kept _ request hrequest
    exact ⟨hkey, request', hrequest', hkey'.trans hrkey, fun hg => hclaimed' (hclaimed hg)⟩
  · rw [hcalm.claims]
    exact h.distinct
  · rw [hcalm.log, hcalm.generation]
    exact h.resets
  · rw [hcalm.claims, hcalm.log]
    exact h.logged
  · rw [hcalm.claims, hcalm.log]
    intro i hi
    obtain ⟨response, request, hresponse, hrequest, hresult⟩ := h.delivered i hi
    obtain ⟨request', hrequest', -, -, hfuture⟩ := hreq.kept _ request hrequest
    refine ⟨response, request', hresponse, hrequest', ?_⟩
    rw [hfuture (by rw [hresult]; nofun), hresult]
  · rw [hcalm.claims, hcalm.log]
    intro r request' m hrequest' hresult
    obtain ⟨request, hrequest, hresult⟩ := hreq.noResult r request' m hrequest' hresult
    exact h.results r request m hrequest hresult
  · rw [hcalm.claims, hcalm.log]
    exact h.once
  · rw [hcalm.log]
    exact h.current

/-- An entry that delivers nothing is on top of the log. -/
theorem current_cons {log : List DispatchEntry} {entry : DispatchEntry}
    (hcurrent : ∀ i newer older, log = newer ++ .delivered i :: older →
      ∃ between before, older = between ++ .claimed i :: before ∧ .reset ∉ between)
    (hentry : ∀ i, entry ≠ .delivered i) (i : Nat) (newer older : List DispatchEntry)
    (hlog : entry :: log = newer ++ .delivered i :: older) :
    ∃ between before, older = between ++ .claimed i :: before ∧ .reset ∉ between := by
  cases newer with
  | nil => exact absurd (List.cons.inj hlog).1 (hentry i)
  | cons head newer => exact hcurrent i newer older (List.cons.inj hlog).2

/-- A new generation: the requests keep their keys and futures. -/
theorem ClaimsOk.reset (h : ClaimsOk d) (hclaims : d'.claims = d.claims)
    (hgen : d'.generation = d.generation + 1) (hlog : d'.log = .reset :: d.log)
    (hreq : ∀ (r : Nat) (request : PendingRequest), d.requests[r]? = some request →
      ∃ request', d'.requests[r]? = some request' ∧ request'.key = request.key ∧
        request'.future = request.future)
    (hback : ∀ (r : Nat) (request' : PendingRequest), d'.requests[r]? = some request' →
      ∃ request, d.requests[r]? = some request ∧ request.future = request'.future)
    (hpending : PendingKeyed d'.pending d'.requests)
    (hold : ∀ response ∈ d.claims, response.generation ≤ d.generation) : ClaimsOk d' := by
  refine ⟨hpending, ?_, ?_, ?_, ?_, ?_, ?_, ?_, ?_⟩
  · rw [hclaims, hgen]
    intro response hmem
    obtain ⟨hkey, request, hrequest, hrkey, -⟩ := h.claims response hmem
    obtain ⟨request', hrequest', hkey', -⟩ := hreq _ request hrequest
    refine ⟨hkey, request', hrequest', hkey'.trans hrkey, fun hg => ?_⟩
    have hle := hold response hmem
    omega
  · rw [hclaims]
    exact h.distinct
  · rw [hlog, hgen, List.count_cons_self, h.resets]
  · rw [hclaims, hlog]
    intro i response hi
    obtain ⟨newer, older, hl, hcount⟩ := h.logged i response hi
    exact ⟨.reset :: newer, older, by rw [hl]; rfl, hcount⟩
  · rw [hclaims, hlog]
    intro i hi
    have hi : .delivered i ∈ d.log := (List.mem_cons.1 hi).resolve_left nofun
    obtain ⟨response, request, hresponse, hrequest, hresult⟩ := h.delivered i hi
    obtain ⟨request', hrequest', -, hfuture⟩ := hreq _ request hrequest
    exact ⟨response, request', hresponse, hrequest', hfuture.trans hresult⟩
  · rw [hclaims, hlog]
    intro r request' m hrequest' hresult
    obtain ⟨request, hrequest, hfuture⟩ := hback r request' hrequest'
    obtain ⟨i, response, hi, hrest⟩ := h.results r request m hrequest (hfuture.trans hresult)
    exact ⟨i, response, List.mem_cons_of_mem _ hi, hrest⟩
  · rw [hclaims, hlog]
    intro r
    rw [List.countP_cons]
    exact h.once r
  · rw [hlog]
    exact current_cons h.current nofun

/-- The log counts the resets before a claim. -/
theorem ClaimsOk.generation_le (h : ClaimsOk d) {response : ClaimedResponse}
    (hmem : response ∈ d.claims) : response.generation ≤ d.generation := by
  obtain ⟨i, hi⟩ := List.getElem?_of_mem hmem
  obtain ⟨newer, older, hl, hcount⟩ := h.logged i response hi
  rw [← hcount, ← h.resets, hl, List.count_append, List.count_cons]
  omega

theorem ClaimsOk.bind (h : ClaimsOk d) : ClaimsOk d.bind := by
  have hget (r : Nat) : d.bind.requests[r]? = (d.requests[r]?).map fun request =>
      if r ∈ d.pending.map Prod.snd then { request with claimed := false } else request :=
    List.getElem?_mapIdx
  refine h.reset rfl rfl rfl (fun r request hr => ?_) (fun r request' hr => ?_)
    (fun key r hr => ?_) fun response hmem => h.generation_le hmem
  · rw [hget, hr]
    refine ⟨_, rfl, ?_, ?_⟩ <;> split <;> rfl
  · rw [hget] at hr
    obtain ⟨request, hrequest, rfl⟩ := Option.map_eq_some_iff.1 hr
    refine ⟨request, hrequest, ?_⟩
    split <;> rfl
  · obtain ⟨request, hrequest, hkey⟩ := h.pending key r hr
    rw [hget, hrequest]
    refine ⟨_, rfl, ?_⟩
    rw [← hkey]
    split <;> rfl

/-- The futures of a list of waiters get `MQTTDisconnectedError`. -/
theorem calm_foldl_disconnect (d : RequestDispatcher) (rs : List Nat) :
    Calm d (rs.foldl (fun d r => (d.finishFuture r .disconnected).release) d) := by
  have hdisconnected : ∀ m, RequestFuture.disconnected ≠ .result m := fun m hm => by cases hm
  induction rs generalizing d with
  | nil => exact calm_refl d
  | cons r rs ih =>
    have hone := (calm_finishFuture d r hdisconnected).trans (calm_release _)
    exact hone.trans (ih _)

theorem ClaimsOk.cancelPending (h : ClaimsOk d) : ClaimsOk d.cancelPending := by
  unfold RequestDispatcher.cancelPending
  dsimp only
  refine ClaimsOk.calm ?_ (calm_foldl_disconnect _ _)
  refine h.reset rfl rfl rfl (fun r request hr => ⟨request, hr, rfl, rfl⟩)
    (fun r request hr => ⟨request, hr, rfl⟩) ?_ fun response hmem => h.generation_le hmem
  intro key r hr
  cases hr

/-! ## `claim` -/

/-- What `claim` has looked at. -/
theorem claimable_eq_some {m : Received} {key : RequestKey} {r : Nat}
    (hc : d.claimable m = some (key, r)) :
    messageKey m = some key ∧ d.pending.get? key = some r ∧ ∃ request,
      d.requests[r]? = some request ∧ request.claimed = false ∧ request.future = .pending := by
  unfold claimable at hc
  split at hc
  · cases hc
  · next key' hkey =>
    split at hc
    · cases hc
    · next r' hr =>
      split at hc
      · next hany =>
        cases hc
        obtain ⟨request, hrequest, hp⟩ := (Option.any_eq_true ..).1 hany
        simp only [Bool.and_eq_true, Bool.not_eq_eq_eq_not, Bool.not_true, decide_eq_true_eq] at hp
        exact ⟨hkey, hr, request, hrequest, hp.1, hp.2⟩
      · cases hc

/-- Later claims do not change what the entries of the log deliver. -/
theorem ClaimsOk.countP_append (h : ClaimsOk d) (response : ClaimedResponse) (r : Nat) :
    d.log.countP (deliversTo (d.claims ++ [response]) r) = d.log.countP (deliversTo d.claims r) := by
  refine List.countP_congr fun entry hentry => ?_
  cases entry with
  | reset => rfl
  | claimed => rfl
  | delivered i =>
    obtain ⟨old, _, hold, -⟩ := h.delivered i hentry
    have hlt : i < d.claims.length := (List.getElem?_eq_some_iff.1 hold).1
    rw [deliversTo, deliversTo, List.getElem?_append_left hlt]

theorem ClaimsOk.claim (h : ClaimsOk d) (m : Received) : ClaimsOk (d.claim m) := by
  unfold RequestDispatcher.claim
  split
  · exact h
  · next key r hc =>
    obtain ⟨hkey, hr, request, hrequest, hunclaimed, hpending⟩ := claimable_eq_some hc
    obtain ⟨request', hrequest', hrkey⟩ := h.pending key r hr
    obtain rfl : request = request' := Option.some.inj (hrequest.symm.trans hrequest')
    have hev : Evolves d.requests
        (d.requests.modify r fun request => { request with claimed := true }) :=
      evolves_modify (fun _ => rfl) (fun _ _ => rfl) (fun _ _ => rfl) fun _ _ h => h
    have hnew : (d.requests.modify r fun request => { request with claimed := true })[r]? =
        some { request with claimed := true } := by
      rw [List.getElem?_modify_eq, hrequest]
      rfl
    have hleft {i : Nat} {old response : ClaimedResponse} (hi : d.claims[i]? = some old) :
        (d.claims ++ [response])[i]? = some old :=
      List.getElem?_append_left (List.getElem?_eq_some_iff.1 hi).1 ▸ hi
    -- no claim of this generation is for a request that is not claimed
    have hfree : ∀ old ∈ d.claims, old.pending = r → old.generation ≠ d.generation := by
      intro old hold hp hg
      obtain ⟨-, other, hother, -, hclaimed⟩ := h.claims old hold
      rw [hp, hrequest] at hother
      obtain rfl := Option.some.inj hother
      rw [hclaimed hg] at hunclaimed
      cases hunclaimed
    refine ⟨h.pending.evolves hev, ?_, ?_, ?_, ?_, ?_, ?_, ?_, ?_⟩
    · intro response hmem
      rcases List.mem_append.1 hmem with hmem | hmem
      · obtain ⟨hk, other, hother, hok, hclaimed⟩ := h.claims response hmem
        obtain ⟨other', hother', hkey', hclaimed', -⟩ := hev.kept _ other hother
        exact ⟨hk, other', hother', hkey'.trans hok, fun hg => hclaimed' (hclaimed hg)⟩
      · rw [List.mem_singleton.1 hmem]
        exact ⟨hkey, _, hnew, hrkey, fun _ => rfl⟩
    · intro i j a b hi hj hp hg
      rw [List.getElem?_append] at hi hj
      split at hi <;> split at hj
      · exact h.distinct i j a b hi hj hp hg
      · rw [List.mem_singleton.1 (List.mem_of_getElem? hj)] at hp hg
        exact absurd hg (hfree a (List.mem_of_getElem? hi) hp)
      · rw [List.mem_singleton.1 (List.mem_of_getElem? hi)] at hp hg
        exact absurd hg.symm (hfree b (List.mem_of_getElem? hj) hp.symm)
      · have hi := (List.getElem?_eq_some_iff.1 hi).1
        have hj := (List.getElem?_eq_some_iff.1 hj).1
        rw [List.length_singleton] at hi hj
        omega
    · exact h.resets
    · intro i response hi
      rw [List.getElem?_append] at hi
      split at hi
      · obtain ⟨newer, older, hl, hcount⟩ := h.logged i response hi
        exact ⟨.claimed d.claims.length :: newer, older, by rw [hl]; rfl, hcount⟩
      · have hlt := (List.getElem?_eq_some_iff.1 hi).1
        rw [List.length_singleton] at hlt
        obtain rfl : i = d.claims.length := by omega
        rw [List.mem_singleton.1 (List.mem_of_getElem? hi)]
        exact ⟨[], d.log, rfl, h.resets⟩
    · intro i hi
      have hi : .delivered i ∈ d.log := (List.mem_cons.1 hi).resolve_left nofun
      obtain ⟨response, other, hresponse, hother, hresult⟩ := h.delivered i hi
      obtain ⟨other', hother', -, -, hfuture⟩ := hev.kept _ other hother
      refine ⟨response, other', hleft hresponse, hother', ?_⟩
      rw [hfuture (by rw [hresult]; nofun), hresult]
    · intro j other' m' hother' hresult
      obtain ⟨other, hother, hresult⟩ := hev.noResult j other' m' hother' hresult
      obtain ⟨i, response, hi, hresponse, hrest⟩ := h.results j other m' hother hresult
      exact ⟨i, response, List.mem_cons_of_mem _ hi, hleft hresponse, hrest⟩
    · intro j
      dsimp only
      rw [List.countP_cons, h.countP_append]
      exact h.once j
    · exact current_cons h.current nofun

/-! ## `complete` -/

theorem completes_eq_true {response : ClaimedResponse} (hc : d.completes response = true) :
    d.generation = response.generation ∧ d.pending.get? response.key = some response.pending ∧
      ∃ request, d.requests[response.pending]? = some request ∧ request.future = .pending := by
  unfold completes at hc
  simp only [Bool.and_eq_true, decide_eq_true_eq] at hc
  obtain ⟨⟨hg, hp⟩, hany⟩ := hc
  obtain ⟨request, hrequest, hf⟩ := (Option.any_eq_true ..).1 hany
  exact ⟨hg, hp, request, hrequest, of_decide_eq_true hf⟩

/-- The request of a completed claim has its message; the others are as before. -/
theorem getElem?_finishFuture {r : Nat} {request : PendingRequest} (future : RequestFuture)
    (hrequest : d.requests[r]? = some request) (hpending : request.future = .pending) (j : Nat) :
    (d.finishFuture r future).requests[j]? =
      if j = r then some { request with future } else d.requests[j]? := by
  change (d.requests.modify _ _)[j]? = _
  rw [List.getElem?_modify]
  by_cases hj : r = j
  · subst hj
    simp [hrequest, hpending]
  · simp [hj, Ne.symm hj]

/-- Nothing was delivered to a request whose future is pending. -/
theorem ClaimsOk.undelivered (h : ClaimsOk d) {r : Nat} {request : PendingRequest}
    (hrequest : d.requests[r]? = some request) (hpending : request.future = .pending) :
    d.log.countP (deliversTo d.claims r) = 0 := by
  rw [List.countP_eq_zero]
  intro entry hentry hto
  cases entry with
  | reset => cases hto
  | claimed => cases hto
  | delivered i =>
    obtain ⟨old, other, hold, hother, hresult⟩ := h.delivered i hentry
    rw [deliversTo, hold] at hto
    rw [of_decide_eq_true hto, hrequest] at hother
    obtain rfl := Option.some.inj hother
    rw [hpending] at hresult
    cases hresult

/-- The claim of a current generation was made after all resets. -/
theorem ClaimsOk.claimed_since (h : ClaimsOk d) {c : Nat} {response : ClaimedResponse}
    (hresponse : d.claims[c]? = some response) (hgen : d.generation = response.generation) :
    ∃ between before, d.log = between ++ .claimed c :: before ∧ .reset ∉ between := by
  obtain ⟨between, before, hlog, hcount⟩ := h.logged c response hresponse
  refine ⟨between, before, hlog, ?_⟩
  have hresets := h.resets
  rw [hlog, List.count_append, List.count_cons, if_neg (by simp)] at hresets
  rw [← List.count_eq_zero]
  omega

theorem ClaimsOk.complete (h : ClaimsOk d) (c : Nat) : ClaimsOk (d.complete c) := by
  unfold RequestDispatcher.complete
  split
  · exact h
  · next response hresponse =>
    split
    · next hc =>
      obtain ⟨hgen, hpend, request, hrequest, hfuture⟩ := completes_eq_true hc
      have hget := getElem?_finishFuture (.result response.message) hrequest hfuture
      have hkept (r : Nat) (other : PendingRequest) (hother : d.requests[r]? = some other) :
          ∃ other' : PendingRequest,
          (d.finishFuture response.pending (.result response.message)).requests[r]? = some other' ∧
            other'.key = other.key ∧ other'.claimed = other.claimed ∧
            (other.future ≠ .pending → other'.future = other.future) := by
        rw [hget]
        split
        · next he =>
          rw [he, hrequest] at hother
          obtain rfl := Option.some.inj hother
          exact ⟨_, rfl, rfl, rfl, fun hf => absurd hfuture hf⟩
        · exact ⟨other, hother, rfl, rfl, fun _ => rfl⟩
      refine ⟨fun key r hr => ?_, ?_, h.distinct, h.resets, ?_, ?_, ?_, ?_, ?_⟩
      · obtain ⟨other, hother, hkey⟩ := h.pending key r hr
        obtain ⟨other', hother', hkey', -⟩ := hkept r other hother
        exact ⟨other', hother', hkey'.trans hkey⟩
      · intro old hold
        obtain ⟨hkey, other, hother, hokey, hclaimed⟩ := h.claims old hold
        obtain ⟨other', hother', hkey', hclaimed', -⟩ := hkept _ other hother
        exact ⟨hkey, other', hother', hkey'.trans hokey, fun hg => hclaimed'.trans (hclaimed hg)⟩
      · intro i old hi
        obtain ⟨newer, older, hl, hcount⟩ := h.logged i old hi
        exact ⟨.delivered c :: newer, older, congrArg (.delivered c :: ·) hl, hcount⟩
      · intro i hi
        rcases List.mem_cons.1 hi with hi | hi
        · cases hi
          exact ⟨response, _, hresponse, by rw [hget, if_pos rfl], rfl⟩
        · obtain ⟨old, other, hold, hother, hresult⟩ := h.delivered i hi
          obtain ⟨other', hother', -, -, hf⟩ := hkept _ other hother
          refine ⟨old, other', hold, hother', ?_⟩
          rw [hf (by rw [hresult]; nofun), hresult]
      · intro r other' m hother' hresult
        rw [hget] at hother'
        split at hother'
        · next he =>
          obtain rfl := Option.some.inj hother'
          exact ⟨c, response, List.mem_cons_self, hresponse, he.symm, RequestFuture.result.inj hresult⟩
        · obtain ⟨i, old, hi, hrest⟩ := h.results r other' m hother' hresult
          exact ⟨i, old, List.mem_cons_of_mem _ hi, hrest⟩
      · intro r
        change (DispatchEntry.delivered c :: d.log).countP (deliversTo d.claims r) ≤ 1
        rw [List.countP_cons]
        split
        · next hto =>
          rw [deliversTo, hresponse] at hto
          rw [← of_decide_eq_true hto, h.undelivered hrequest hfuture]
        · exact h.once r
      · intro i newer older hl
        cases newer with
        | nil =>
          obtain ⟨hentry, rfl⟩ := List.cons.inj hl
          cases hentry
          exact h.claimed_since hresponse hgen
        | cons head newer => exact h.current i newer older (List.cons.inj hl).2
    · exact h

/-! ## Runs -/

theorem claimsOk_start (max : Nat) : ClaimsOk (start max) := by
  refine ⟨?_, ?_, ?_, rfl, ?_, ?_, ?_, fun r => Nat.zero_le 1, ?_⟩
  · intro key r hr
    cases hr
  · intro response hmem
    cases hmem
  · intro i j a b hi
    cases hi
  · intro i response hi
    cases hi
  · intro i hi
    cases hi
  · intro r request m hr
    cases hr
  · intro i newer older hl
    cases newer <;> cases hl

theorem ClaimsOk.step (h : ClaimsOk d) (event : DispatcherEvent) : ClaimsOk (d.step event) := by
  rcases d.step_cases event with hcalm | heq | heq | ⟨m, rfl⟩ | ⟨c, rfl⟩
  · exact h.calm hcalm
  · rw [heq]
    exact h.bind
  · rw [heq]
    exact h.cancelPending
  · exact h.claim m
  · exact h.complete c

/-- What the futures of requests have received. A claim is delivered once at most to its
    request, with a message for the key of the request; since the claim no connection was
    bound and no request was dropped by `cancel_pending`; and in one generation no request has
    two claims. -/
structure ExclusiveReplies (d : RequestDispatcher) : Prop where
  once : ∀ r, d.log.countP (deliversTo d.claims r) ≤ 1
  results : ∀ (r : Nat) (request : PendingRequest) (m : Received), d.requests[r]? = some request →
    request.future = .result m → messageKey m = some request.key ∧ ∃ i response,
      .delivered i ∈ d.log ∧ d.claims[i]? = some response ∧ response.pending = r ∧
      response.message = m
  current : ∀ i newer older, d.log = newer ++ .delivered i :: older →
    ∃ between before, older = between ++ .claimed i :: before ∧ .reset ∉ between
  distinct : ∀ (i j : Nat) (a b : ClaimedResponse), d.claims[i]? = some a →
    d.claims[j]? = some b → a.pending = b.pending → a.generation = b.generation → i = j

theorem ClaimsOk.exclusiveReplies (h : ClaimsOk d) : d.ExclusiveReplies := by
  refine ⟨h.once, fun r request m hrequest hresult => ?_, h.current, h.distinct⟩
  obtain ⟨i, response, hi, hresponse, hr, hm⟩ := h.results r request m hrequest hresult
  obtain ⟨hkey, other, hother, hokey, -⟩ := h.claims response (List.mem_of_getElem? hresponse)
  rw [hr, hrequest] at hother
  obtain rfl := Option.some.inj hother
  rw [hm, ← hokey] at hkey
  exact ⟨hkey, i, response, hi, hresponse, hr, hm⟩

/-- **Exclusive replies.** In every run of the dispatcher the futures of requests receive at
    most one message each, with their key, by a claim of the same connection. In every run of
    the flow of a connection in which no delivery is interrupted, no message is delivered to
    a request and put into a queue. -/
theorem replies_exclusive (maxPendingRequests bufferSize : Nat) (maxsize : Nat → Nat)
    (sessionPresent : Bool) :
    (∀ d, Reach step anyStep (start maxPendingRequests) d → d.ExclusiveReplies) ∧
    ∀ f, Reach InboundPublishFlow.step InboundPublishFlow.undisturbed
      (InboundPublishFlow.fresh bufferSize maxsize sessionPresent) f → f.OneRecipient := by
  refine ⟨fun d hd => ?_, fun f hf => InboundPublishFlow.oneRecipient_of_reach hf⟩
  have hinv : ClaimsOk d := Reach.invariant hd (claimsOk_start _) fun d e h _ => h.step e
  exact hinv.exclusiveReplies

/-- A QoS 2 reply on topic "a". -/
def replyA (num : Nat) : Received :=
  { num, epoch := 0
    packet := { InboundPublishFlow.publishA .exactlyOnce (some 1) with
      properties := some { correlationData := some [1] } } }

/-- A reply is claimed before a reconnect and again after it; the first claim is stale. -/
def reclaimedRun : List DispatcherEvent :=
  [.bind, .register ("a", [1]), .startAdd 0, .enterGuard 0, .endAdd 0 true, .resume 0,
    .claim (replyA 0), .claim (replyA 1), .bind, .restore, .claim (replyA 2), .complete 0,
    .complete 1, .complete 1]

/-- The same reply twice: one goes to the request, one to the subscription. -/
def claimedReplyRun : List InboundEvent :=
  [.subscriptions (InboundPublishFlow.indexA true),
    .publish (replyA 0).packet { claim := fun _ => some 0 }, .pubrel 1 {},
    .publish (replyA 1).packet {}, .pubrel 1 {}]

theorem replies_exclusive_reclaimedRun :
    (reclaimedRun.foldl step (start 1)).requests.map PendingRequest.future =
      [.result (replyA 2)] ∧
    (reclaimedRun.foldl step (start 1)).ExclusiveReplies ∧
    (claimedReplyRun.foldl InboundPublishFlow.step
      (InboundPublishFlow.fresh 10 (fun _ => 0) false)).queues 0 = [0] ∧
    (claimedReplyRun.foldl InboundPublishFlow.step
      (InboundPublishFlow.fresh 10 (fun _ => 0) false)).OneRecipient := by
  have hboth := replies_exclusive 1 10 (fun _ => 0) false
  refine ⟨by decide +kernel, hboth.1 _ (Reach.foldl (meets_anyStep reclaimedRun)),
    by decide +kernel, hboth.2 _ (Reach.foldl ?_)⟩
  refine ⟨?_, ?_, ?_, ?_, ?_, trivial⟩ <;>
    exact ⟨fun i b d _ _ => ⟨by simp, fun env he => by cases he⟩, fun he => by cases he⟩

end RequestDispatcher

end Zmqtt
