/-
  The request dispatcher behind the inbound flow of one connection without a resumed session.
  `select_recipient` asks the dispatcher for a claim when a PUBLISH arrives; `_deliver` of a
  claimed message calls `complete`, for QoS 2 only after PUBREL. In between the other tasks of
  the dispatcher run, and the request may end.
-/
import Zmqtt.Inbound.Handled
import Zmqtt.Requests.Claims

namespace Zmqtt

/-- The flow of a connection, the dispatcher, and the states of the flow in the run. -/
structure ReplySystem where
  flow : InboundPublishFlow
  dispatcher : RequestDispatcher
  past : List InboundPublishFlow

/-- A step of the connection, or of the tasks of the dispatcher. -/
inductive ReplyEvent where
  | inbound (e : InboundEvent)
  | dispatcher (e : DispatcherEvent)

/-- A delivery to a request. -/
def TraceEntry.requested? : TraceEntry → Option (Nat × Received)
  | requested c m => some (c, m)
  | _ => none

namespace ReplySystem

/-- `handle_publish` reaches `select_recipient`. -/
def selects (f : InboundPublishFlow) (packet : Publish) : Bool :=
  match packet.qos, packet.packetId with
  | .atMostOnce, _ => true
  | .atLeastOnce, none | .exactlyOnce, none => false
  | .atLeastOnce, some pid => decide (¬ f.replayContains pid)
  | .exactlyOnce, some pid =>
      (f.inflightQos2In.get? pid).isNone && decide (pid ∉ f.pendingAckQos2In ∧ ¬ f.replayContains pid)

/-- The flow has made a step; its new deliveries to requests are completed. -/
def after (s : ReplySystem) (flow : InboundPublishFlow) (d : RequestDispatcher) : ReplySystem :=
  let new := flow.trace.take (flow.trace.length - s.flow.trace.length)
  { flow
    dispatcher := (new.filterMap TraceEntry.requested?).foldr (fun item d => d.complete item.1) d
    past := flow :: s.past }

/-- The number of the claim on a message, if `claim` makes one. -/
def claimNumber (d : RequestDispatcher) (m : Received) : Option Nat :=
  (d.claimable m).map fun _ => d.claims.length

/-- A PUBLISH is read. -/
def publish (s : ReplySystem) (packet : Publish) (env : Environment) : ReplySystem :=
  let m := s.flow.nextReceived packet
  if s.flow.reader = .reading ∧ selects s.flow packet then
    s.after (s.flow.step (.publish packet { env with claim := fun _ => claimNumber s.dispatcher m }))
      (s.dispatcher.claim m)
  else s.after (s.flow.step (.publish packet { env with claim := fun _ => none })) s.dispatcher

/-- Claims and completions are made by the flow only. -/
def step (s : ReplySystem) : ReplyEvent → ReplySystem
  | .inbound (.publish packet env) => s.publish packet env
  | .inbound e => s.after (s.flow.step e) s.dispatcher
  | .dispatcher (.claim _) | .dispatcher (.complete _) => s
  | .dispatcher e => { s with dispatcher := s.dispatcher.step e }

/-- A new connection with `session_present` false. -/
def connect (d : RequestDispatcher) (bufferSize : Nat) (maxsize : Nat → Nat) : ReplySystem :=
  { flow := InboundPublishFlow.fresh bufferSize maxsize false
    dispatcher := d
    past := [InboundPublishFlow.fresh bufferSize maxsize false] }

/-- The future of a request has the message. -/
def Answered (d : RequestDispatcher) (m : Received) : Prop :=
  ∃ request ∈ d.requests, request.future = .result m

/-- A message with correlation data that was handled to the end, that opened its exchange and
    that no request has received is in the queue of the subscription that ordinary routing has
    selected for it throughout. -/
def LateRepliesRouted (s : ReplySystem) : Prop :=
  ∀ m, .publish m ∈ s.flow.trace → RequestDispatcher.messageKey m ≠ none →
    InboundPublishFlow.Completed s.past m → ¬ s.flow.Repeats m → ¬ Answered s.dispatcher m →
    ∀ route, InboundPublishFlow.RoutesTo s.past m route → .enqueued route.2.queue m ∈ s.flow.trace

/-- The request of a claim still waits for its message. -/
def CanComplete (d : RequestDispatcher) (c : Nat) : Prop :=
  ∃ response, d.claims[c]? = some response ∧ d.completes response = true

/-- The step delivers no claimed message to a request that has ended. -/
def timely (s : ReplySystem) : ReplyEvent → Prop
  | .inbound (.pubrel pid env) =>
      ∀ flight c, s.flow.reader = .reading → s.flow.inflightQos2In.get? pid = some flight →
        flight.delivered = false → env.stalls flight.recipient.message.num = false →
        flight.recipient.request = some c → CanComplete s.dispatcher c
  | .inbound (.resumeReader _) =>
      ∀ r callback c, .deliver r callback ∈ s.flow.reader.acts → r.request = some c →
        CanComplete s.dispatcher c
  | _ => True

/-! ## The dispatcher -/

variable {d d' : RequestDispatcher} {m : Received} {c : Nat}

theorem answered_of_kept (h : Answered d m)
    (hkept : ∀ (r : Nat) (request : PendingRequest), d.requests[r]? = some request →
      request.future ≠ .pending → ∃ request', d'.requests[r]? = some request' ∧
        request'.future = request.future) : Answered d' m := by
  obtain ⟨request, hmem, hresult⟩ := h
  obtain ⟨r, hr⟩ := List.getElem?_of_mem hmem
  obtain ⟨request', hr', hfuture⟩ := hkept r request hr (by rw [hresult]; nofun)
  exact ⟨request', List.mem_of_getElem? hr', hfuture.trans hresult⟩

theorem answered_calm (h : Answered d m) (hcalm : d.Calm d') : Answered d' m :=
  answered_of_kept h fun r request hr hne => by
    obtain ⟨request', hr', -, -, hfuture⟩ := hcalm.requests.kept r request hr
    exact ⟨request', hr', hfuture hne⟩

theorem answered_modify (h : Answered d m) {r : Nat} {change : PendingRequest → PendingRequest}
    (hchange : ∀ q : PendingRequest, q.future ≠ .pending → (change q).future = q.future) :
    Answered (d.modifyRequest r change) m := by
  refine answered_of_kept h fun j request hj hne => ?_
  change ∃ request', (d.requests.modify r change)[j]? = some request' ∧ _
  rw [List.getElem?_modify, hj]
  by_cases hrj : r = j
  · exact ⟨change request, by simp [hrj], hchange request hne⟩
  · exact ⟨request, by simp [hrj], rfl⟩

theorem answered_claim (h : Answered d m) (m' : Received) : Answered (d.claim m') m := by
  unfold RequestDispatcher.claim
  split
  · exact h
  · exact answered_modify h fun _ _ => rfl

theorem answered_complete (h : Answered d m) (c : Nat) : Answered (d.complete c) m := by
  unfold RequestDispatcher.complete
  split
  · exact h
  · split
    · exact answered_modify h fun _ hne => by rw [if_neg hne]
    · exact h

/-- Results of futures stay. -/
theorem answered_step (h : Answered d m) (e : DispatcherEvent) : Answered (d.step e) m := by
  rcases d.step_cases e with hcalm | heq | heq | ⟨m', rfl⟩ | ⟨c, rfl⟩
  · exact answered_calm h hcalm
  · rw [heq]
    refine answered_of_kept h fun r request hr hne => ?_
    have hget : d.bind.requests[r]? = (d.requests[r]?).map fun request =>
        if r ∈ d.pending.map Prod.snd then { request with claimed := false } else request :=
      List.getElem?_mapIdx
    rw [hget, hr]
    refine ⟨_, rfl, ?_⟩
    split <;> rfl
  · rw [heq]
    exact answered_calm (d := { d with
      pending := [], topics := [], protocol := none, generation := d.generation + 1
      adds := _, log := .reset :: d.log }) h (RequestDispatcher.calm_foldl_disconnect _ _)
  · exact answered_claim h m'
  · exact answered_complete h c

/-- Claims stay. -/
theorem claims_step {response : ClaimedResponse} (h : d.claims[c]? = some response)
    (e : DispatcherEvent) : (d.step e).claims[c]? = some response := by
  have hlt := (List.getElem?_eq_some_iff.1 h).1
  rcases d.step_cases e with hcalm | heq | heq | ⟨m, rfl⟩ | ⟨c', rfl⟩
  · rw [hcalm.claims]
    exact h
  · rw [heq]
    exact h
  · rw [heq]
    have hclaims : d.cancelPending.claims = d.claims :=
      (RequestDispatcher.calm_foldl_disconnect _ _).claims
    rw [hclaims]
    exact h
  · change (d.claim m).claims[c]? = _
    unfold RequestDispatcher.claim
    split
    · exact h
    · exact (List.getElem?_append_left hlt).trans h
  · change (d.complete c').claims[c]? = _
    unfold RequestDispatcher.complete
    split
    · exact h
    · split <;> exact h

/-- A new claim is for its message, and can be completed. -/
theorem canComplete_claim (h : claimNumber d m = some c) :
    CanComplete (d.claim m) c ∧
      ∃ response, (d.claim m).claims[c]? = some response ∧ response.message = m := by
  unfold claimNumber at h
  obtain ⟨⟨key, r⟩, hclaimable, rfl⟩ := Option.map_eq_some_iff.1 h
  obtain ⟨-, hpending, request, hrequest, -, hfuture⟩ :=
    RequestDispatcher.claimable_eq_some hclaimable
  unfold RequestDispatcher.claim
  rw [hclaimable]
  refine ⟨⟨_, List.getElem?_concat_length .., ?_⟩, _, List.getElem?_concat_length .., rfl⟩
  have hget : (d.requests.modify r fun request => { request with claimed := true })[r]? =
      some { request with claimed := true } := by
    rw [List.getElem?_modify_eq, hrequest]
    rfl
  have hany : ((d.requests.modify r fun request => { request with claimed := true })[r]?).any
      (fun request => request.future = .pending) = true := by
    rw [hget]
    exact decide_eq_true hfuture
  unfold RequestDispatcher.completes
  rw [Bool.and_eq_true, Bool.and_eq_true]
  exact ⟨⟨decide_eq_true rfl, decide_eq_true hpending⟩, hany⟩

/-- The request of a completed claim has its message. -/
theorem answered_of_canComplete {response : ClaimedResponse} (h : CanComplete d c)
    (hresponse : d.claims[c]? = some response) : Answered (d.complete c) response.message := by
  obtain ⟨response', hresponse', hcompletes⟩ := h
  obtain rfl : response = response' := Option.some.inj (hresponse.symm.trans hresponse')
  obtain ⟨-, -, request, hrequest, hfuture⟩ := RequestDispatcher.completes_eq_true hcompletes
  unfold RequestDispatcher.complete
  rw [hresponse]
  dsimp only
  rw [if_pos hcompletes]
  have hget := RequestDispatcher.getElem?_finishFuture (.result response.message) hrequest hfuture
    response.pending
  rw [if_pos rfl] at hget
  exact ⟨_, List.mem_of_getElem? hget, rfl⟩

/-! ## Deliveries of the flow -/

/-- The await is a delivery. -/
def isDelivery : Act → Bool
  | .deliver _ _ => true
  | .send _ _ _ => false

/-- The entries that a step has added to the trace, and the deliveries to requests among
    them. -/
def Adds (f f' : InboundPublishFlow) (requests : List (Nat × Received)) : Prop :=
  ∃ new, f'.trace = new ++ f.trace ∧ new.filterMap TraceEntry.requested? = requests

theorem adds_refl (f : InboundPublishFlow) : Adds f f [] := ⟨[], rfl, rfl⟩

variable {f f' : InboundPublishFlow} {acts : List Act}

theorem Adds.trans {f₁ f₂ f₃ : InboundPublishFlow} {older newer : List (Nat × Received)}
    (h : Adds f₁ f₂ older) (h' : Adds f₂ f₃ newer) : Adds f₁ f₃ (newer ++ older) := by
  obtain ⟨new, hnew, hrequests⟩ := h
  obtain ⟨new', hnew', hrequests'⟩ := h'
  refine ⟨new' ++ new, ?_, ?_⟩
  · rw [hnew', hnew, List.append_assoc]
  · rw [List.filterMap_append, hrequests, hrequests']

/-- One entry that delivers nothing to a request. -/
theorem adds_entry {entry : TraceEntry} (htrace : f'.trace = entry :: f.trace)
    (hentry : entry.requested? = none) : Adds f f' [] :=
  ⟨[entry], htrace, List.filterMap_cons_none hentry⟩

theorem adds_of_eq (htrace : f'.trace = f.trace) : Adds f f' [] := ⟨[], htrace, rfl⟩

/-- What a handler delivers to requests: nothing, or the message of its one delivery. -/
def Delivers (env : Environment) (acts : List Act) (requests : List (Nat × Received)) : Prop :=
  requests = [] ∨ ∃ r callback c, .deliver r callback ∈ acts ∧ r.request = some c ∧
    requests = [(c, r.message)] ∧
    ∀ kind pid r' rest, acts = .send kind pid r' :: rest → env.stalls r'.message.num = false

theorem adds_handOver {r : InboundRecipient} (callback : Option AckCallback) :
    Adds f (f.handOver r callback) [] ∨ ∃ c, r.request = some c ∧
      Adds f (f.handOver r callback) [(c, r.message)] := by
  rcases f.handOver_cases r callback with ⟨-, heq⟩ | ⟨c, hc, heq⟩ | ⟨filter, entry, -, -, heq⟩
  · rw [heq]
    exact Or.inl (adds_refl f)
  · rw [heq]
    exact Or.inr ⟨c, hc, [.requested c r.message], rfl, rfl⟩
  · rw [heq]
    exact Or.inl ⟨[.enqueued entry.queue r.message], rfl, rfl⟩

/-- Without a delivery nothing is delivered. -/
theorem adds_runActs_none (env : Environment) (hnone : acts.countP isDelivery = 0)
    (f : InboundPublishFlow) : Adds f (InboundPublishFlow.runActs env acts f).1 [] := by
  induction acts generalizing f with
  | nil => exact adds_refl f
  | cons act acts ih =>
    cases act with
    | send kind pid r =>
      have hrest : acts.countP isDelivery = 0 := by simpa [isDelivery] using hnone
      rw [InboundPublishFlow.runActs]
      have hsent : Adds f (f.log (.sent kind pid r)) [] := adds_entry rfl rfl
      split
      · exact hsent
      · exact hsent.trans (ih hrest _)
    | deliver r callback => simp [isDelivery] at hnone

theorem adds_runActs (env : Environment) (hone : acts.countP isDelivery ≤ 1)
    (f : InboundPublishFlow) : ∃ requests, Adds f (InboundPublishFlow.runActs env acts f).1 requests ∧
      Delivers env acts requests := by
  induction acts generalizing f with
  | nil => exact ⟨[], adds_refl f, Or.inl rfl⟩
  | cons act acts ih =>
    cases act with
    | send kind pid r =>
      have hrest : acts.countP isDelivery ≤ 1 := by simpa [isDelivery] using hone
      have hsent : Adds f (f.log (.sent kind pid r)) [] := adds_entry rfl rfl
      rw [InboundPublishFlow.runActs]
      split
      · exact ⟨[], hsent, Or.inl rfl⟩
      · next hgo =>
        obtain ⟨requests, hadds, hdelivers⟩ := ih hrest (f.log (.sent kind pid r))
        refine ⟨requests, by simpa using hsent.trans hadds, ?_⟩
        rcases hdelivers with hnone | ⟨r', callback, c, hact, hc, hreq, -⟩
        · exact Or.inl hnone
        · refine Or.inr ⟨r', callback, c, List.mem_cons_of_mem _ hact, hc, hreq, ?_⟩
          intro kind' pid' r'' rest he
          cases he
          exact Bool.not_eq_true _ ▸ hgo
    | deliver r callback =>
      have hrest : acts.countP isDelivery = 0 := by
        rw [List.countP_cons_of_pos rfl] at hone
        omega
      rw [InboundPublishFlow.runActs]
      split
      · exact ⟨[], adds_refl f, Or.inl rfl⟩
      · rcases adds_handOver (f := f) callback with hnone | ⟨c, hc, hadds⟩
        · exact ⟨[], hnone.trans (adds_runActs_none env hrest _), Or.inl rfl⟩
        · refine ⟨[(c, r.message)], hadds.trans (adds_runActs_none env hrest _), Or.inr ?_⟩
          exact ⟨r, callback, c, List.mem_cons_self, hc, rfl, fun _ _ _ _ he => by cases he⟩

theorem adds_runReader (env : Environment) (hone : acts.countP isDelivery ≤ 1)
    (f : InboundPublishFlow) : ∃ requests, Adds f (f.runReader env acts) requests ∧
      Delivers env acts requests := by
  obtain ⟨requests, ⟨new, hnew, hreq⟩, hdelivers⟩ := adds_runActs env hone f
  refine ⟨requests, ⟨new, ?_, hreq⟩, hdelivers⟩
  unfold InboundPublishFlow.runReader
  split
  · next f' heq =>
    rw [heq] at hnew
    exact hnew
  · next f' acts' heq =>
    rw [heq] at hnew
    exact hnew

/-- What is left of a handler. -/
theorem acts_runReader (env : Environment) (f : InboundPublishFlow) (acts : List Act) :
    (f.runReader env acts).reader.acts <:+ acts := by
  refine @InboundPublishFlow.runReader_induct (fun f' => f'.reader.acts <:+ acts)
    (fun _ acts' => acts' <:+ acts) ?_ ?_ ?_ ?_ env acts f (List.suffix_refl acts)
  · exact fun _ _ _ _ acts' h => (List.suffix_cons _ acts').trans h
  · exact fun _ _ _ acts' h _ => (List.suffix_cons _ acts').trans h
  · exact fun _ _ => List.nil_suffix
  · exact fun _ _ h => h

/-! ## Claims on the way -/

/-- The claim is for the message. -/
def ClaimOf (d : RequestDispatcher) (c : Nat) (m : Received) : Prop :=
  ∃ response, d.claims[c]? = some response ∧ response.message = m

/-- The messages that will be delivered to requests are claimed for them; a handler delivers
    one message. -/
structure Claimed (d : RequestDispatcher) (f : InboundPublishFlow) (acts : List Act) : Prop where
  flights : ∀ (pid : Int) (flight : InboundQoS2Flight) (c : Nat),
    f.inflightQos2In.get? pid = some flight → flight.delivered = false →
    flight.recipient.request = some c → ClaimOf d c flight.recipient.message
  deliveries : ∀ r callback c, .deliver r callback ∈ acts → r.request = some c →
    ClaimOf d c r.message
  single : acts.countP isDelivery ≤ 1

theorem Claimed.mono (h : Claimed d f acts)
    (hclaims : ∀ (c : Nat) (response : ClaimedResponse), d.claims[c]? = some response →
      d'.claims[c]? = some response) (hflights : f'.inflightQos2In = f.inflightQos2In) {acts' : List Act} (hacts : acts' <:+ acts) :
    Claimed d' f' acts' := by
  have hof {c : Nat} {m : Received} (h : ClaimOf d c m) : ClaimOf d' c m := by
    obtain ⟨response, hresponse, hm⟩ := h
    exact ⟨response, hclaims c response hresponse, hm⟩
  refine ⟨fun pid flight c hget howes hc => ?_, fun r callback c hact hc => ?_, ?_⟩
  · exact hof (h.flights pid flight c (hflights ▸ hget) howes hc)
  · exact hof (h.deliveries r callback c (hacts.subset hact) hc)
  · exact (hacts.sublist.countP_le).trans h.single

theorem Claimed.runReader (env : Environment) (h : Claimed d f acts) :
    Claimed d (f.runReader env acts) (f.runReader env acts).reader.acts :=
  h.mono (fun _ _ hc => hc) (f.sameTables_runReader env acts).inflight (acts_runReader env f acts)

/-- A handled PUBLISH; `hclaim` is about the claim made for it. -/
theorem Claimed.handles {env : Environment} (h : Claimed d f [])
    (hhandles : InboundPublishFlow.Handles f env m f' acts)
    (hclaim : ∀ c, (f.selectRecipient env m).request = some c → ClaimOf d c m) :
    Claimed d f' acts := by
  have hselected {c : Nat} (hc : (f.selectRecipient env m).request = some c) :
      ClaimOf d c (f.selectRecipient env m).message := by
    rw [InboundPublishFlow.message_selectRecipient]
    exact hclaim c hc
  cases hhandles with
  | ignored => exact h
  | takesIn htakes _ =>
    have hflights : f'.inflightQos2In = f.inflightQos2In := by cases htakes <;> rfl
    exact h.mono (fun _ _ hc => hc) hflights (List.suffix_refl [])
  | qos0 _ =>
    refine ⟨h.flights, fun r callback c hact hc => ?_, by simp [isDelivery]⟩
    cases List.mem_singleton.1 hact
    exact hselected hc
  | qos1Auto pid _ =>
    refine ⟨h.flights, fun r callback c hact hc => ?_, Nat.le_refl 1⟩
    simp only [List.mem_cons, Act.deliver.injEq, reduceCtorEq, List.not_mem_nil, or_false] at hact
    rw [hact.1] at hc ⊢
    exact hselected hc
  | qos1Manual pid _ _ =>
    refine ⟨h.flights, fun r callback c hact hc => ?_, by simp [isDelivery]⟩
    cases List.mem_singleton.1 hact
    exact hselected hc
  | qos2Again pid flight _ _ _ =>
    refine ⟨h.flights, fun r callback c hact _ => ?_, by simp [isDelivery]⟩
    cases List.mem_singleton.1 hact
  | qos2Auto pid _ _ _ _ =>
    refine ⟨fun pid' flight c hget howes hc => ?_, fun r callback c hact _ => ?_,
      by simp [isDelivery]⟩
    · have hget : (f.inflightQos2In.set pid { recipient := f.selectRecipient env m }).get? pid' =
        some flight := hget
      rw [Dict.get?_set] at hget
      split at hget
      · cases hget
        exact hselected hc
      · exact h.flights pid' flight c hget howes hc
    · cases List.mem_singleton.1 hact
  | qos2Manual pid _ _ _ _ =>
    refine ⟨h.flights, fun r callback c hact hc => ?_, by simp [isDelivery]⟩
    cases List.mem_singleton.1 hact
    exact hselected hc

theorem Claimed.pubrel (h : Claimed d f []) {pid : Int} {flight : InboundQoS2Flight}
    (hflight : f.inflightQos2In.get? pid = some flight) :
    Claimed d ((f.log (.pubrel pid)).popFlight pid) (.send .pubcomp pid flight.recipient ::
      if flight.delivered then [] else [.deliver flight.recipient none]) := by
  refine ⟨fun pid' flight' c hget howes hc => ?_, fun r callback c hact hc => ?_, ?_⟩
  · have hget : (f.inflightQos2In.pop pid).get? pid' = some flight' := hget
    rw [Dict.get?_pop] at hget
    split at hget
    · cases hget
    · exact h.flights pid' flight' c hget howes hc
  · cases hd : flight.delivered with
    | true => simp [hd] at hact
    | false =>
      simp only [hd, Bool.false_eq_true, ↓reduceIte, List.mem_cons, Act.deliver.injEq, reduceCtorEq,
        List.not_mem_nil, or_false, false_or] at hact
      rw [hact.1] at hc ⊢
      exact h.flights pid flight c hflight hd hc
  · cases flight.delivered <;> simp [isDelivery]

theorem Claimed.ack (h : Claimed d f acts) (k : Nat) : Claimed d (f.ack k) acts := by
  have hsame (heq : (f.ack k).inflightQos2In = f.inflightQos2In) : Claimed d (f.ack k) acts :=
    h.mono (fun _ _ hc => hc) heq (List.suffix_refl acts)
  rcases f.ack_cases k with heq | ⟨message, -, -, ⟨heq, -⟩ | ⟨pid, r, -, heq⟩ | ⟨pid, r, -, heq⟩⟩
  · exact hsame (by rw [heq])
  · exact hsame (by rw [heq]; rfl)
  · exact hsame (by rw [heq]; rfl)
  · refine ⟨fun pid' flight c hget howes hc => ?_, h.deliveries, h.single⟩
    have hget : (f.inflightQos2In.set pid { recipient := r, delivered := true }).get? pid' =
        some flight := by
      rw [heq] at hget
      exact hget
    rw [Dict.get?_set] at hget
    split at hget
    · cases hget
      cases howes
    · exact h.flights pid' flight c hget howes hc

/-! ## Runs -/

/-- What holds in every state of a run that is timely. -/
structure ReplyInv (bufferSize : Nat) (maxsize : Nat → Nat) (s : ReplySystem) : Prop where
  reach : Reach InboundPublishFlow.step InboundPublishFlow.undisturbed
    (InboundPublishFlow.fresh bufferSize maxsize false) s.flow
  watched : s.flow.Watched s.past
  claimed : Claimed s.dispatcher s.flow s.flow.reader.acts
  answered : ∀ c m, .requested c m ∈ s.flow.trace → Answered s.dispatcher m

variable {s : ReplySystem} {bufferSize : Nat} {maxsize : Nat → Nat}

/-- The dispatcher after a step of the flow. -/
theorem dispatcher_after {flow : InboundPublishFlow} {requests : List (Nat × Received)}
    (h : Adds s.flow flow requests) (d : RequestDispatcher) :
    (s.after flow d).dispatcher = requests.foldr (fun item d => d.complete item.1) d := by
  obtain ⟨new, hnew, rfl⟩ := h
  have htake : flow.trace.take (flow.trace.length - s.flow.trace.length) = new := by
    rw [hnew, List.length_append, Nat.add_sub_cancel, List.take_left]
  rw [after, htake]

/-- A step of the flow delivers nothing to a request, or a message whose claim can be
    completed. -/
theorem ReplyInv.after (h : ReplyInv bufferSize maxsize s) (e : InboundEvent)
    {requests : List (Nat × Received)} (hadds : Adds s.flow (s.flow.step e) requests)
    (hrequests : requests = [] ∨ ∃ c m, requests = [(c, m)] ∧ CanComplete d c ∧ ClaimOf d c m)
    (hclaimed : Claimed d (s.flow.step e) (s.flow.step e).reader.acts)
    (hanswered : ∀ m, Answered s.dispatcher m → Answered d m) :
    ReplyInv bufferSize maxsize (s.after (s.flow.step e) d) := by
  have hdispatcher := dispatcher_after hadds d
  obtain ⟨new, hnew, hfilter⟩ := hadds
  have hold {c : Nat} {m : Received} (hmem : .requested c m ∈ (s.flow.step e).trace) :
      Answered d m ∨ (c, m) ∈ requests := by
    rw [hnew] at hmem
    rcases List.mem_append.1 hmem with hmem | hmem
    · right
      rw [← hfilter]
      exact List.mem_filterMap.2 ⟨_, hmem, rfl⟩
    · exact Or.inl (hanswered m (h.answered c m hmem))
  refine ⟨?_, ?_, ?_, ?_⟩
  · rcases h.watched.unresumed.undisturbed_or e with hok | heq
    · exact h.reach.tail ⟨e, hok, rfl⟩
    · change Reach _ _ _ (s.flow.step e)
      rw [heq]
      exact h.reach
  · have hex := (InboundPublishFlow.exchanging_of_reach h.reach).2.2.exclusive
    exact h.watched.step hex e
  · rw [hdispatcher]
    rcases hrequests with rfl | ⟨c, m, rfl, -, -⟩
    · exact hclaimed
    · refine hclaimed.mono (fun c' response hc' => ?_) rfl (List.suffix_refl _)
      exact claims_step hc' (.complete c)
  · rw [hdispatcher]
    intro c m hmem
    rcases hrequests with rfl | ⟨c', m', rfl, hcan, response, hresponse, hm'⟩
    · exact (hold hmem).resolve_right List.not_mem_nil
    · rcases hold hmem with hm | hm
      · exact answered_complete hm c'
      · cases List.mem_singleton.1 hm
        exact hm' ▸ answered_of_canComplete hcan hresponse

/-- The claim of a selected recipient is the one that was made for it. -/
theorem request_selectRecipient (f : InboundPublishFlow) (env : Environment) (m : Received) :
    (f.selectRecipient env m).request = env.claim m.num := by
  unfold InboundPublishFlow.selectRecipient
  split
  · next hc => exact hc.symm
  · next hc => exact hc.symm

/-- A handler of a PUBLISH delivers to the selected recipient. -/
theorem deliver_of_handles {env : Environment} {r : InboundRecipient}
    {callback : Option AckCallback} (h : InboundPublishFlow.Handles f env m f' acts)
    (hact : .deliver r callback ∈ acts) : r = f.selectRecipient env m := by
  cases h <;>
    simp only [List.mem_cons, Act.deliver.injEq, reduceCtorEq, List.not_mem_nil, or_false] at hact <;>
    exact hact.1

/-- Before its first await the handler delivers nothing. -/
theorem adds_handles {env : Environment} (h : InboundPublishFlow.Handles f env m f' acts) :
    Adds f f' [] := by
  cases h with
  | takesIn htakes _ => cases htakes <;> exact adds_entry rfl rfl
  | qos2Auto pid _ _ _ _ => exact adds_entry rfl rfl
  | qos2Manual pid _ _ _ _ => exact adds_entry rfl rfl
  | _ => exact adds_refl f

/-- What a step of the flow delivers to requests can be completed, with the claims of `d`. -/
def Sound (d : RequestDispatcher) (f f' : InboundPublishFlow) : Prop :=
  (∃ requests, Adds f f' requests ∧
    (requests = [] ∨ ∃ c m, requests = [(c, m)] ∧ CanComplete d c ∧ ClaimOf d c m)) ∧
  Claimed d f' f'.reader.acts

theorem sound_stop (h : Claimed d f acts) {entry : TraceEntry} (htrace : f'.trace = entry :: f.trace)
    (hentry : entry.requested? = none) (hflights : f'.inflightQos2In = f.inflightQos2In)
    (hreader : f'.reader.acts = []) : Sound d f f' := by
  refine ⟨⟨[], adds_entry htrace hentry, Or.inl rfl⟩, ?_⟩
  rw [hreader]
  exact h.mono (fun _ _ hc => hc) hflights List.nil_suffix

/-- The read loop runs a handler whose deliveries can be completed. -/
theorem sound_runReader {f₀ : InboundPublishFlow} (env : Environment) (hstart : Adds f₀ f [])
    (h : Claimed d f acts)
    (hcan : ∀ r callback c, .deliver r callback ∈ acts → r.request = some c →
      (∀ kind pid r' rest, acts = .send kind pid r' :: rest → env.stalls r'.message.num = false) →
      CanComplete d c) : Sound d f₀ (f.runReader env acts) := by
  obtain ⟨requests, hadds, hdelivers⟩ := adds_runReader env h.single f
  refine ⟨⟨requests, by simpa using hstart.trans hadds, ?_⟩, h.runReader env⟩
  rcases hdelivers with hnone | ⟨r, callback, c, hact, hc, hreq, hgo⟩
  · exact Or.inl hnone
  · exact Or.inr ⟨c, r.message, hreq, hcan r callback c hact hc hgo,
      h.deliveries r callback c hact hc⟩

theorem sound_publish {env : Environment} {packet : Publish} (h : Claimed d f f.reader.acts)
    (hclaim : ∀ c, env.claim (f.nextReceived packet).num = some c →
      CanComplete d c ∧ ClaimOf d c (f.nextReceived packet)) :
    Sound d f (f.step (.publish packet env)) := by
  rw [InboundPublishFlow.step, InboundPublishFlow.receivePublish]
  split
  · next hread =>
    rw [hread] at h
    have hreceived : Claimed d (f.receive packet) [] := by
      refine h.mono (fun _ _ hc => hc) ?_ List.nil_suffix
      rfl
    unfold InboundPublishFlow.dispatch
    split
    · exact sound_stop h rfl rfl rfl rfl
    · next f' acts hhandle =>
      have hhandles := InboundPublishFlow.handlePublish_cases hhandle
      have hselected : ∀ c, ((f.receive packet).selectRecipient env (f.nextReceived packet)).request =
          some c → CanComplete d c ∧ ClaimOf d c (f.nextReceived packet) := fun c hc => by
        rw [request_selectRecipient] at hc
        exact hclaim c hc
      have hstart : Adds f f' [] :=
        (adds_entry rfl rfl : Adds f (f.receive packet) []).trans (adds_handles hhandles)
      refine sound_runReader env hstart
        (hreceived.handles hhandles fun c hc => (hselected c hc).2) fun r callback c hact hc _ => ?_
      rw [deliver_of_handles hhandles hact] at hc
      exact (hselected c hc).1
  all_goals exact ⟨⟨[], adds_refl f, Or.inl rfl⟩, h⟩

theorem sound_pubrel {env : Environment} {pid : Int} (h : Claimed d f f.reader.acts)
    (hcan : ∀ flight c, f.reader = .reading → f.inflightQos2In.get? pid = some flight →
      flight.delivered = false → env.stalls flight.recipient.message.num = false →
      flight.recipient.request = some c → CanComplete d c) :
    Sound d f (f.step (.pubrel pid env)) := by
  rw [InboundPublishFlow.step, InboundPublishFlow.receivePubrel]
  split
  · next hread =>
    rw [hread] at h
    unfold InboundPublishFlow.dispatch InboundPublishFlow.handlePubrel
    split
    · exact sound_stop h rfl rfl rfl rfl
    · next f' acts hhandle =>
      split at hhandle
      · cases hhandle
      · next flight hflight =>
        cases hhandle
        have hstart : Adds f ((f.log (.pubrel pid)).popFlight pid) [] := adds_entry rfl rfl
        refine sound_runReader env hstart (Claimed.pubrel h hflight) fun r callback c hact hc hgo => ?_
        have hstalls := hgo .pubcomp pid flight.recipient _ rfl
        cases hd : flight.delivered with
        | true => simp [hd] at hact
        | false =>
          simp only [hd, Bool.false_eq_true, ↓reduceIte, List.mem_cons, Act.deliver.injEq,
            reduceCtorEq, List.not_mem_nil, or_false, false_or] at hact
          rw [hact.1] at hc
          exact hcan flight c hread hflight hd hstalls hc
  all_goals exact ⟨⟨[], adds_refl f, Or.inl rfl⟩, h⟩

theorem sound_resumeReader {env : Environment} (h : Claimed d f f.reader.acts)
    (hcan : ∀ r callback c, .deliver r callback ∈ f.reader.acts → r.request = some c →
      CanComplete d c) : Sound d f (f.step (.resumeReader env)) := by
  rw [InboundPublishFlow.step, InboundPublishFlow.resumeReader]
  split
  · next acts hread =>
    rw [hread] at h hcan
    exact sound_runReader env (adds_refl f) h fun r callback c hact hc _ => hcan r callback c hact hc
  all_goals exact ⟨⟨[], adds_refl f, Or.inl rfl⟩, h⟩

/-- Steps of the other tasks. -/
theorem sound_other (hun : f.Unresumed) (h : Claimed d f f.reader.acts) {e : InboundEvent}
    (hpublish : ∀ packet env, e ≠ .publish packet env) (hpubrel : ∀ pid env, e ≠ .pubrel pid env)
    (hresume : ∀ env, e ≠ .resumeReader env) : Sound d f (f.step e) := by
  have hcalm {f' : InboundPublishFlow} (htrace : f'.trace = f.trace)
      (hflights : f'.inflightQos2In = f.inflightQos2In) (hreader : f'.reader.acts <:+ f.reader.acts) :
      Sound d f f' :=
    ⟨⟨[], adds_of_eq htrace, Or.inl rfl⟩, h.mono (fun _ _ hc => hc) hflights hreader⟩
  have hreplay (heq : f.step e = f) : Sound d f (f.step e) := by
    rw [heq]
    exact hcalm rfl rfl (List.suffix_refl _)
  cases e with
  | publish packet env => exact absurd rfl (hpublish packet env)
  | pubrel pid env => exact absurd rfl (hpubrel pid env)
  | resumeReader env => exact absurd rfl (hresume env)
  | interruptReader =>
    rw [InboundPublishFlow.step, InboundPublishFlow.interruptReader]
    split
    · exact hcalm rfl rfl (List.suffix_refl _)
    all_goals exact hcalm rfl rfl List.nil_suffix
  | ack k =>
    have hreader : (f.ack k).reader = f.reader ∧ Adds f (f.ack k) [] := by
      rcases f.ack_cases k with heq | ⟨message, -, -, ⟨heq, -⟩ | ⟨pid, r, -, heq⟩ | ⟨pid, r, -, heq⟩⟩
      · rw [heq]
        exact ⟨rfl, adds_refl f⟩
      · rw [heq]
        exact ⟨rfl, adds_entry rfl rfl⟩
      · rw [heq]
        exact ⟨rfl, [.sent .puback pid r, .acked message.received], rfl, rfl⟩
      · rw [heq]
        exact ⟨rfl, [.sent .pubrec pid r, .acked message.received], rfl, rfl⟩
    refine ⟨⟨[], hreader.2, Or.inl rfl⟩, ?_⟩
    change Claimed d (f.ack k) (f.ack k).reader.acts
    rw [hreader.1]
    exact h.ack k
  | get queue => exact hcalm rfl rfl (List.suffix_refl _)
  | subscriptions index => exact hcalm rfl rfl (List.suffix_refl _)
  | drain => exact hreplay (hun.step_eq (by simp))
  | expire i => exact hreplay (hun.step_eq (by simp))
  | cancelWaiter i k => exact hreplay (hun.step_eq (by simp))
  | acquireLock i env => exact hreplay (hun.step_eq (by simp))
  | resumeDelivery i env => exact hreplay (hun.step_eq (by simp))
  | interruptDelivery i => exact hreplay (hun.step_eq (by simp))
  | clear => exact hreplay (hun.step_eq (by simp))

theorem ReplyInv.step (h : ReplyInv bufferSize maxsize s) {e : ReplyEvent} (hok : s.timely e) :
    ReplyInv bufferSize maxsize (s.step e) := by
  have hflow {d : RequestDispatcher} {e : InboundEvent} (hsound : Sound d s.flow (s.flow.step e))
      (hanswered : ∀ m, Answered s.dispatcher m → Answered d m) :
      ReplyInv bufferSize maxsize (s.after (s.flow.step e) d) := by
    obtain ⟨⟨requests, hadds, hrequests⟩, hclaimed⟩ := hsound
    exact h.after e hadds hrequests hclaimed hanswered
  have hdispatcher (e : DispatcherEvent) :
      ReplyInv bufferSize maxsize { s with dispatcher := s.dispatcher.step e } := by
    refine ⟨h.reach, h.watched, ?_, fun c m hmem => answered_step (h.answered c m hmem) e⟩
    exact h.claimed.mono (fun c response hc => claims_step hc e) rfl (List.suffix_refl _)
  cases e with
  | inbound e =>
    cases e with
    | publish packet env =>
      change ReplyInv bufferSize maxsize (s.publish packet env)
      unfold publish
      dsimp only
      split
      · refine hflow (sound_publish ?_ fun c hc => ?_) fun m hm => answered_claim hm _
        · refine h.claimed.mono (fun c response hc => ?_) rfl (List.suffix_refl _)
          exact claims_step hc (.claim (s.flow.nextReceived packet))
        · exact canComplete_claim hc
      · refine hflow (sound_publish h.claimed fun c hc => ?_) fun _ hm => hm
        cases hc
    | pubrel pid env => exact hflow (sound_pubrel h.claimed hok) fun _ hm => hm
    | resumeReader env => exact hflow (sound_resumeReader h.claimed hok) fun _ hm => hm
    | _ =>
      exact hflow (sound_other h.watched.unresumed h.claimed (by simp) (by simp) (by simp))
        fun _ hm => hm
  | dispatcher e =>
    cases e with
    | claim m => exact h
    | complete c => exact h
    | _ => exact hdispatcher _

theorem replyInv_connect (d : RequestDispatcher) (bufferSize : Nat) (maxsize : Nat → Nat) :
    ReplyInv bufferSize maxsize (connect d bufferSize maxsize) := by
  refine ⟨Relation.ReflTransGen.refl, InboundPublishFlow.watched_fresh bufferSize maxsize,
    ⟨fun pid flight c hget => ?_, fun r callback c hact => ?_, Nat.zero_le 1⟩, fun c m hmem => ?_⟩
  · cases hget
  · cases hact
  · cases hmem

/-- **Late replies.** In every run of a connection without a resumed session, in which no
    claimed message is delivered after its request has ended, the messages that no request has
    received are delivered by ordinary routing. -/
theorem late_replies_routed (d : RequestDispatcher) (bufferSize : Nat) (maxsize : Nat → Nat)
    (s : ReplySystem) (h : Reach step timely (connect d bufferSize maxsize) s) :
    s.LateRepliesRouted := by
  have hinv : ReplyInv bufferSize maxsize s :=
    Reach.invariant h (replyInv_connect d bufferSize maxsize) fun s e hs hok => hs.step hok
  intro m hm _ hcompleted hopens hunanswered route hroute
  rcases hinv.watched.handled m hm with hdone | hrep | hn
  · rcases hdone with ⟨c, hreq⟩ | henq
    · exact absurd (hinv.answered c m hreq) hunanswered
    · exact henq route hroute
  · exact absurd hrep hopens
  · exact absurd hcompleted hn

open RequestDispatcher in
/-- A request on topic "a" that has been registered. -/
def registeredA : RequestDispatcher :=
  [.bind, .register ("a", [1]), .startAdd 0, .enterGuard 0, .endAdd 0 true, .resume 0].foldl
    RequestDispatcher.step (start 1)

/-- A reply, then another one that comes too late; both with QoS 2. -/
def secondReplyRun : List ReplyEvent :=
  [.inbound (.subscriptions (InboundPublishFlow.indexA true)),
    .inbound (.publish (RequestDispatcher.replyA 0).packet {}), .inbound (.pubrel 1 {}),
    .dispatcher (.close 0), .inbound (.publish (RequestDispatcher.replyA 0).packet {}),
    .inbound (.pubrel 1 {})]

/-- The flight of an id has this claim, or none. -/
theorem timely_pubrel {pid : Int} {env : Environment} {claim : Option Nat}
    (hclaim : (s.flow.inflightQos2In.get? pid).bind (fun flight => flight.recipient.request) = claim)
    (hcan : ∀ c, claim = some c → CanComplete s.dispatcher c) :
    s.timely (.inbound (.pubrel pid env)) := by
  intro flight c _ hget _ _ hc
  rw [hget] at hclaim
  exact hcan c (hclaim.symm.trans hc)

theorem late_replies_routed_secondReplyRun :
    (secondReplyRun.foldl step (connect registeredA 10 fun _ => 0)).flow.queues 0 = [0] ∧
    (secondReplyRun.foldl step (connect registeredA 10 fun _ => 0)).LateRepliesRouted := by
  refine ⟨by decide +kernel, late_replies_routed registeredA 10 (fun _ => 0) _ (Reach.foldl ?_)⟩
  refine ⟨trivial, trivial, @timely_pubrel _ 1 {} (some 0) ?_ fun c hc => ?_, trivial, trivial,
    @timely_pubrel _ 1 {} none ?_ nofun, trivial⟩
  · decide +kernel
  · cases hc
    refine (Option.any_eq_true ..).1 ?_
    decide +kernel
  · decide +kernel

/-- The request ends between PUBLISH and PUBREL of its reply. -/
def timeoutRun : List ReplyEvent :=
  [.inbound (.subscriptions (InboundPublishFlow.indexA true)),
    .inbound (.publish (RequestDispatcher.replyA 0).packet {}), .dispatcher (.close 0),
    .inbound (.pubrel 1 {})]

/-- The reply is neither received by the request nor put into the queue of the subscription. -/
theorem late_reply_swallowed :
    ¬ (∀ s, Reach step anyStep (connect registeredA 10 fun _ => 0) s → s.LateRepliesRouted) ∧
    (timeoutRun.foldl step (connect registeredA 10 fun _ => 0)).flow.queues 0 = [] ∧
    (timeoutRun.foldl step (connect registeredA 10 fun _ => 0)).dispatcher.requests.map
      PendingRequest.future = [.cancelled] := by
  have hfuture : (timeoutRun.foldl step (connect registeredA 10 fun _ => 0)).dispatcher.requests.map
      PendingRequest.future = [.cancelled] := by decide +kernel
  refine ⟨fun h => ?_, by decide +kernel, hfuture⟩
  have hseen : ((timeoutRun.foldl step (connect registeredA 10 fun _ => 0)).past.all fun g =>
      g.received = 0 || (g.selectSubscription (RequestDispatcher.replyA 0).packet).recipient =
        some ("a", { queue := 0, autoAck := true, actualFilter := "a" })) = true := by decide +kernel
  have henq := h _ (Reach.foldl (meets_anyStep timeoutRun)) (RequestDispatcher.replyA 0) ?_ ?_ ?_ ?_
    ?_ ("a", { queue := 0, autoAck := true, actualFilter := "a" }) ?_
  · revert henq
    decide +kernel
  · decide +kernel
  · decide
  · -- the PUBREL was the last packet
    refine ⟨_, List.mem_cons_self, by decide +kernel, by decide +kernel, fun pid hask => ?_⟩
    obtain rfl : 1 = pid := Option.some.inj (asksFor_iff.1 hask).2
    decide +kernel
  · rintro ⟨m', pid, -, hlt, -⟩
    exact Nat.not_lt_zero _ hlt
  · rintro ⟨request, hmem, hresult⟩
    have hin := List.mem_map_of_mem (f := PendingRequest.future) hmem
    rw [hfuture, hresult, List.mem_singleton] at hin
    cases hin
  · intro g hg hlt
    have hsel := List.all_eq_true.1 hseen g hg
    rw [Bool.or_eq_true, decide_eq_true_iff, decide_eq_true_iff] at hsel
    exact hsel.resolve_left (Nat.pos_iff_ne_zero.1 (Nat.lt_of_le_of_lt (Nat.zero_le _) hlt))

end ReplySystem

end Zmqtt
