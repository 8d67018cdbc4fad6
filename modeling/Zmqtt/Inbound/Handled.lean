/-
  A connection without a resumed session (`session_present` is false). No message is held
  for a later subscription: every PUBLISH is a repetition inside an open QoS 2 exchange, or it
  is delivered to the recipient that was selected when it arrived, at the latest when the
  handler of its PUBLISH, or of the PUBREL of its exchange, has returned.

  `past` are the states of the flow in a run, the newest first. What ordinary routing selects
  for a message throughout, and whether the handlers have returned, is read there.
-/
import Zmqtt.Inbound.AtMostOnce

namespace Zmqtt

namespace InboundPublishFlow

/-- Nothing is held for a later subscription. -/
def Unresumed (f : InboundPublishFlow) : Prop := f.replay = .noSession ∧ f.buffers = []

/-- Ordinary routing has selected this subscription since the message arrived. -/
def RoutesTo (past : List InboundPublishFlow) (m : Received) (route : Item) : Prop :=
  ∀ g ∈ past, m.num < g.received → (g.selectSubscription m.packet).recipient = some route

/-- The handler of the PUBLISH has returned and, for QoS 2, that of a PUBREL after it. -/
def Completed (past : List InboundPublishFlow) (m : Received) : Prop :=
  ∃ g ∈ past, g.reader = .reading ∧ .publish m ∈ g.trace ∧
    ∀ pid, asksFor pid m = true → m.epoch < g.released pid

/-- An earlier PUBLISH has opened the exchange. -/
def Repeats (f : InboundPublishFlow) (m : Received) : Prop :=
  ∃ m' pid, .publish m' ∈ f.trace ∧ m'.num < m.num ∧ asksFor pid m = true ∧
    asksFor pid m' = true ∧ m'.epoch = m.epoch

/-! ## Messages on their way -/

section Handling

variable (R : Received → Item → Prop) (N : Received → Prop)

/-- The message was delivered to a request, or to the subscription that routing selects. -/
def Done (f : InboundPublishFlow) (m : Received) : Prop :=
  (∃ request, .requested request m ∈ f.trace) ∨
    ∀ route, R m route → .enqueued route.2.queue m ∈ f.trace

/-- The recipient is a request, or the subscription that routing selects. -/
def Proper (r : InboundRecipient) : Prop :=
  r.request = none → ∀ route, R r.message route → r.subscription = some route

/-- The message will be delivered by an await of the read loop, or after PUBREL. -/
inductive Waits (f : InboundPublishFlow) (acts : List Act) (m : Received) : Prop
  | act (r : InboundRecipient) (callback : Option AckCallback)
      (hact : .deliver r callback ∈ acts) (hm : r.message = m) (hproper : Proper R r)
  | flight (pid : Int) (flight : InboundQoS2Flight)
      (hget : f.inflightQos2In.get? pid = some flight) (howes : flight.delivered = false)
      (hm : flight.recipient.message = m) (hproper : Proper R flight.recipient)
      (hask : asksFor pid m = true) (hepoch : m.epoch = f.released pid)

/-- Every message was delivered, is a repetition, or is on its way; an exchange that is open
    was opened by a PUBLISH. `acts` are the awaits to come. -/
structure Handling (f : InboundPublishFlow) (acts : List Act) : Prop where
  tracked : ∀ m, .publish m ∈ f.trace → Done R f m ∨ f.Repeats m ∨ (N m ∧ Waits R f acts m)
  opened : ∀ pid, f.inflightQos2In.get? pid ≠ none ∨ pid ∈ f.pendingAckQos2In →
    ∃ m, .publish m ∈ f.trace ∧ asksFor pid m = true ∧ m.epoch = f.released pid

end Handling

variable {R R' : Received → Item → Prop} {N : Received → Prop} {f f' : InboundPublishFlow}
  {acts acts' : List Act} {past : List InboundPublishFlow} {m : Received}

theorem Done.mono (h : Done R f m) (hR : ∀ m route, R' m route → R m route)
    (htrace : f.trace ⊆ f'.trace) : Done R' f' m := by
  rcases h with ⟨request, hreq⟩ | henq
  · exact Or.inl ⟨request, htrace hreq⟩
  · exact Or.inr fun route hroute => htrace (henq route (hR m route hroute))

theorem Repeats.mono (h : f.Repeats m) (htrace : f.trace ⊆ f'.trace) : f'.Repeats m := by
  obtain ⟨m', pid, hmem, hrest⟩ := h
  exact ⟨m', pid, htrace hmem, hrest⟩

theorem Proper.mono {r : InboundRecipient} (h : Proper R r)
    (hR : ∀ m route, R' m route → R m route) : Proper R' r :=
  fun hreq route hroute => h hreq route (hR _ route hroute)

theorem Waits.mono (h : Waits R f acts m) (hR : ∀ m route, R' m route → R m route)
    (hflights : f'.inflightQos2In = f.inflightQos2In)
    (hreleased : ∀ pid, f'.released pid = f.released pid)
    (hacts : ∀ r callback, .deliver r callback ∈ acts → .deliver r callback ∈ acts') :
    Waits R' f' acts' m := by
  cases h with
  | act r callback hact hm hproper => exact .act r callback (hacts r callback hact) hm (hproper.mono hR)
  | flight pid flight hget howes hm hproper hask hepoch =>
    exact .flight pid flight (hflights ▸ hget) howes hm (hproper.mono hR) hask
      (hepoch.trans (hreleased pid).symm)

/-- The tables are the same, and entries are added that neither receive nor release. -/
theorem Handling.mono (h : Handling R N f acts) (hR : ∀ m route, R' m route → R m route)
    (htrace : f.trace ⊆ f'.trace)
    (hpublish : ∀ m, .publish m ∈ f'.trace → .publish m ∈ f.trace)
    (hreleased : ∀ pid, f'.released pid = f.released pid)
    (hflights : f'.inflightQos2In = f.inflightQos2In)
    (hpending : f'.pendingAckQos2In = f.pendingAckQos2In)
    (hacts : ∀ r callback, .deliver r callback ∈ acts → .deliver r callback ∈ acts') :
    Handling R' N f' acts' := by
  refine ⟨fun m hm => ?_, fun pid hopen => ?_⟩
  · rcases h.tracked m (hpublish m hm) with hdone | hrep | ⟨hn, hwait⟩
    · exact Or.inl (hdone.mono hR htrace)
    · exact Or.inr (Or.inl (hrep.mono htrace))
    · exact Or.inr (Or.inr ⟨hn, hwait.mono hR hflights hreleased hacts⟩)
  · rw [hflights, hpending] at hopen
    obtain ⟨m, hm, hask, hepoch⟩ := h.opened pid hopen
    exact ⟨m, htrace hm, hask, hepoch.trans (hreleased pid).symm⟩

/-! ## Awaits -/

/-- One entry that neither receives nor releases is added. -/
theorem Handling.quiet (h : Handling R N f acts) {entry : TraceEntry} (hentry : Quiet entry)
    (hno : ∀ m, entry ≠ .publish m) (htrace : f'.trace = entry :: f.trace)
    (hflights : f'.inflightQos2In = f.inflightQos2In)
    (hpending : f'.pendingAckQos2In = f.pendingAckQos2In)
    (hacts : ∀ r callback, .deliver r callback ∈ acts → .deliver r callback ∈ acts') :
    Handling R N f' acts' := by
  refine h.mono (fun _ _ hr => hr) ?_ (fun m hm => ?_) (fun pid => hentry.released htrace pid)
    hflights hpending hacts
  · rw [htrace]
    exact List.subset_cons_self _ _
  · rw [htrace] at hm
    exact (List.mem_cons.1 hm).resolve_left fun he => hno m he.symm

theorem Handling.send {kind : AckKind} {pid : Int} {r : InboundRecipient}
    (h : Handling R N f (.send kind pid r :: acts)) :
    Handling R N (f.log (.sent kind pid r)) acts := by
  have hno : ∀ m, TraceEntry.sent kind pid r ≠ .publish m := by simp
  refine h.quiet (quiet_sent kind pid r) hno rfl rfl rfl fun r' callback hact => ?_
  simpa using hact

/-- The delivered message is done. -/
theorem done_handOver {r : InboundRecipient} (callback : Option AckCallback) (h : Proper R r) :
    Done R (f.handOver r callback) r.message := by
  rcases f.handOver_cases r callback with ⟨hnobody, -⟩ | ⟨request, -, heq⟩ |
    ⟨filter, entry, hreq, hsub, heq⟩
  · rw [InboundRecipient.isNobody, Bool.and_eq_true, Option.isNone_iff_eq_none,
      Option.isNone_iff_eq_none] at hnobody
    refine Or.inr fun route hroute => ?_
    have hsome := h hnobody.1 route hroute
    rw [hnobody.2] at hsome
    cases hsome
  · rw [heq]
    exact Or.inl ⟨request, List.mem_cons_self⟩
  · rw [heq]
    refine Or.inr fun route hroute => ?_
    have hsome := h hreq route hroute
    rw [hsub] at hsome
    obtain rfl := Option.some.inj hsome
    exact List.mem_cons_self

/-- A delivery adds at most one entry, that neither receives nor releases. -/
theorem handOver_trace (f : InboundPublishFlow) (r : InboundRecipient)
    (callback : Option AckCallback) :
    (∀ m, .publish m ∈ (f.handOver r callback).trace → .publish m ∈ f.trace) ∧
      ∀ pid, (f.handOver r callback).released pid = f.released pid := by
  rcases f.handOver_cases r callback with ⟨-, heq⟩ | ⟨request, -, heq⟩ | ⟨filter, entry, -, -, heq⟩
  · rw [heq]
    exact ⟨fun _ hm => hm, fun _ => rfl⟩
  all_goals
    rw [heq]
    refine ⟨fun m hm => ?_, fun pid => List.count_cons_of_ne (by simp)⟩
    rcases List.mem_cons.1 hm with he | hm
    · cases he
    · exact hm

theorem Handling.handOver {r : InboundRecipient} {callback : Option AckCallback}
    (h : Handling R N f (.deliver r callback :: acts)) :
    Handling R N (f.handOver r callback) acts := by
  obtain ⟨hpublish, hreleased⟩ := f.handOver_trace r callback
  have hsame := f.sameTables_handOver r callback
  have htrace := f.trace_subset_handOver r callback
  refine ⟨fun m hm => ?_, fun pid hopen => ?_⟩
  · rcases h.tracked m (hpublish m hm) with hdone | hrep | ⟨hn, hwait⟩
    · exact Or.inl (hdone.mono (fun _ _ hr => hr) htrace)
    · exact Or.inr (Or.inl (hrep.mono htrace))
    · cases hwait with
      | act r' callback' hact hm' hproper =>
        rcases List.mem_cons.1 hact with he | hact
        · cases he
          exact Or.inl (hm' ▸ done_handOver callback hproper)
        · exact Or.inr (Or.inr ⟨hn, .act r' callback' hact hm' hproper⟩)
      | flight pid flight hget howes hm' hproper hask hepoch =>
        refine Or.inr (Or.inr ⟨hn, .flight pid flight ?_ howes hm' hproper hask ?_⟩)
        · rw [hsame.inflight]
          exact hget
        · rw [hreleased]
          exact hepoch
  · rw [hsame.inflight, hsame.pendingAck] at hopen
    obtain ⟨m, hm, hask, hepoch⟩ := h.opened pid hopen
    exact ⟨m, htrace hm, hask, hepoch.trans (hreleased pid).symm⟩

/-- The read loop goes on to its next suspension. -/
theorem Handling.runReader (env : Environment) (h : Handling R N f acts) :
    Handling R N (f.runReader env acts) (f.runReader env acts).reader.acts := by
  refine @runReader_induct (fun f => Handling R N f f.reader.acts) (Handling R N) ?_ ?_ ?_ ?_ env
    acts f h
  · exact fun f kind pid r acts hP => hP.send
  · exact fun f r callback acts hP _ => hP.handOver
  · exact fun f hP => hP.mono (fun _ _ hr => hr) (List.Subset.refl _) (fun _ hm => hm) (fun _ => rfl)
      rfl rfl fun _ _ hact => hact
  · exact fun f acts hP => hP.mono (fun _ _ hr => hr) (List.Subset.refl _) (fun _ hm => hm)
      (fun _ => rfl) rfl rfl fun _ _ hact => hact

/-! ## Packets -/

/-- Without a resumed session a PUBLISH without effect repeats one that waits for `ack()`. -/
theorem Unresumed.pending_of_ignored (h : f.Unresumed) {env : Environment}
    (hhandle : f.handlePublish env m = .ok (f', [])) :
    ∃ pid, asksFor pid m = true ∧ pid ∈ f.pendingAckQos2In := by
  have hselect : f.selectRecipientOrBuffer env m = (f, .recipient (f.selectRecipient env m)) := by
    unfold selectRecipientOrBuffer
    rw [h.1]
  have hnone : ∀ pid, ¬ f.replayContains pid := fun pid => by
    unfold replayContains
    rw [h.1]
    exact id
  unfold handlePublish at hhandle
  split at hhandle
  · rw [hselect] at hhandle
    cases hhandle
  · unfold handleQos1Publish at hhandle
    split at hhandle
    · cases hhandle
    · next pid hpid =>
      rw [if_neg (hnone pid), hselect] at hhandle
      dsimp only at hhandle
      unfold deliverQos1Publish at hhandle
      rw [hpid] at hhandle
      dsimp only at hhandle
      split at hhandle <;> cases hhandle
  · next hqos =>
    unfold handleQos2Publish at hhandle
    split at hhandle
    · cases hhandle
    · next pid hpid =>
      split at hhandle
      · cases hhandle
      · split at hhandle
        · next hbusy => exact ⟨pid, asksFor_iff.2 ⟨hqos, hpid⟩, hbusy.resolve_right (hnone pid)⟩
        · rw [hselect] at hhandle
          dsimp only at hhandle
          unfold acceptQos2Publish at hhandle
          rw [hpid] at hhandle
          dsimp only at hhandle
          split at hhandle <;> cases hhandle

/-- A recipient that was selected now. -/
theorem proper_selectRecipient (env : Environment)
    (hR : ∀ route, R m route → (f.selectSubscription m.packet).recipient = some route) :
    Proper R (f.selectRecipient env m) := by
  intro hreq route hroute
  rw [message_selectRecipient] at hroute
  unfold selectRecipient at hreq ⊢
  split at hreq
  · cases hreq
  · exact hR route hroute

/-- The new PUBLISH `m` is the newest entry of `f`, which tracks all others. -/
structure Newest (R : Received → Item → Prop) (N : Received → Prop) (f : InboundPublishFlow)
    (m : Received) : Prop where
  published : .publish m ∈ f.trace
  others : ∀ m', .publish m' ∈ f.trace → m' = m ∨ m'.num < m.num ∧
    (Done R f m' ∨ f.Repeats m' ∨ (N m' ∧ Waits R f [] m'))
  opened : ∀ pid, f.inflightQos2In.get? pid ≠ none ∨ pid ∈ f.pendingAckQos2In →
    ∃ m', .publish m' ∈ f.trace ∧ m'.num < m.num ∧ asksFor pid m' = true ∧
      m'.epoch = f.released pid
  fresh : N m
  epoch : ∀ pid, asksFor pid m = true → m.epoch = f.released pid
  routed : ∀ route, R m route → (f.selectSubscription m.packet).recipient = some route

/-- The message repeats the PUBLISH that has opened its exchange. -/
theorem Newest.repeats (h : Newest R N f m) {pid : Int} (hask : asksFor pid m = true)
    (hopen : f.inflightQos2In.get? pid ≠ none ∨ pid ∈ f.pendingAckQos2In) : f.Repeats m := by
  obtain ⟨m', hm', hlt, hask', hepoch⟩ := h.opened pid hopen
  exact ⟨m', pid, hm', hlt, hask, hask', hepoch.trans (h.epoch pid hask).symm⟩

/-- The tables are as before; the message is a repetition or will be delivered. -/
theorem Newest.handling (h : Newest R N f m) (env : Environment)
    (hm : f.Repeats m ∨ (∃ callback, .deliver (f.selectRecipient env m) callback ∈ acts)) :
    Handling R N f acts := by
  refine ⟨fun m' hm' => ?_, fun pid hopen => ?_⟩
  · rcases h.others m' hm' with rfl | ⟨-, hdone | hrep | ⟨hn, hwait⟩⟩
    · rcases hm with hrep | ⟨callback, hact⟩
      · exact Or.inr (Or.inl hrep)
      · exact Or.inr (Or.inr ⟨h.fresh, .act _ callback hact (f.message_selectRecipient env _)
          (proper_selectRecipient env h.routed)⟩)
    · exact Or.inl hdone
    · exact Or.inr (Or.inl hrep)
    · exact Or.inr (Or.inr ⟨hn, hwait.mono (fun _ _ hr => hr) rfl (fun _ => rfl)
        fun _ _ hact => absurd hact List.not_mem_nil⟩)
  · obtain ⟨m', hm', -, hask, hepoch⟩ := h.opened pid hopen
    exact ⟨m', hm', hask, hepoch⟩

/-- An exchange is started for the message. -/
theorem Newest.started (h : Newest R N f m) {pid : Int} (hask : asksFor pid m = true)
    {entry : TraceEntry} (hentry : Quiet entry) (htrace : f'.trace = entry :: f.trace)
    (hpublish : ∀ m, entry ≠ .publish m)
    (hflights : ∀ pid', pid ≠ pid' → f'.inflightQos2In.get? pid' = f.inflightQos2In.get? pid')
    (hpending : ∀ pid', pid ≠ pid' → pid' ∈ f'.pendingAckQos2In → pid' ∈ f.pendingAckQos2In)
    (hfree : f.inflightQos2In.get? pid = none) (hm : Waits R f' acts m) :
    Handling R N f' acts := by
  have hreleased := fun pid => hentry.released htrace pid
  have hsub : f.trace ⊆ f'.trace := by
    rw [htrace]
    exact List.subset_cons_self _ _
  refine ⟨fun m' hm' => ?_, fun pid' hopen => ?_⟩
  · rw [htrace] at hm'
    have hm' := (List.mem_cons.1 hm').resolve_left fun he => hpublish m' he.symm
    rcases h.others m' hm' with rfl | ⟨-, hdone | hrep | ⟨hn, hwait⟩⟩
    · exact Or.inr (Or.inr ⟨h.fresh, hm⟩)
    · exact Or.inl (hdone.mono (fun _ _ hr => hr) hsub)
    · exact Or.inr (Or.inl (hrep.mono hsub))
    · cases hwait with
      | act r callback hact _ _ => exact absurd hact List.not_mem_nil
      | flight pid' flight hget howes hm'' hproper hask' hepoch =>
        have hne : pid ≠ pid' := fun he => by rw [← he, hfree] at hget; cases hget
        refine Or.inr (Or.inr ⟨hn, .flight pid' flight ?_ howes hm'' hproper hask' ?_⟩)
        · rw [hflights pid' hne]
          exact hget
        · rw [hreleased]
          exact hepoch
  · by_cases hpid : pid = pid'
    · subst hpid
      exact ⟨m, hsub h.published, hask, (h.epoch pid hask).trans (hreleased pid).symm⟩
    · rw [hflights pid' hpid] at hopen
      obtain ⟨m', hm', -, hask', hepoch⟩ := h.opened pid' (hopen.imp_right (hpending pid' hpid))
      exact ⟨m', hsub hm', hask', hepoch.trans (hreleased pid').symm⟩

theorem Newest.handles {env : Environment} (h : Newest R N f m) (hun : f.Unresumed)
    (hhandle : f.handlePublish env m = .ok (f', acts)) : Handling R N f' acts := by
  have hproper : Proper R (f.selectRecipient env m) := proper_selectRecipient env h.routed
  have hquiet (r : InboundRecipient) : ∀ m, TraceEntry.started r ≠ .publish m := by simp
  have hhandles := handlePublish_cases hhandle
  cases hhandles with
  | ignored =>
    obtain ⟨pid, hask, hpend⟩ := hun.pending_of_ignored hhandle
    exact h.handling env (Or.inl (h.repeats hask (Or.inr hpend)))
  | takesIn htakes _ =>
    cases htakes with
    | new hreplay => rw [hun.1] at hreplay; cases hreplay
    | old _ _ hreplay _ _ _ => rw [hun.1] at hreplay; cases hreplay
  | qos0 _ => exact h.handling env (Or.inr ⟨none, List.mem_cons_self⟩)
  | qos1Auto pid _ => exact h.handling env (Or.inr ⟨none, List.mem_cons_self⟩)
  | qos1Manual pid _ _ => exact h.handling env (Or.inr ⟨_, List.mem_cons_self⟩)
  | qos2Again pid flight hqos hpid hflight =>
    have hopen : f.inflightQos2In.get? pid ≠ none := by rw [hflight]; simp
    exact h.handling env (Or.inl (h.repeats (asksFor_iff.2 ⟨hqos, hpid⟩) (Or.inl hopen)))
  | qos2Auto pid hqos hpid hfree _ =>
    have hask := asksFor_iff.2 ⟨hqos, hpid⟩
    have hentry := quiet_started (f.selectRecipient env m)
    refine h.started hask hentry rfl (hquiet _) (fun pid' hne => ?_) (fun _ _ hp => hp) hfree.1 ?_
    · exact (Dict.get?_set _ _ _ _).trans (if_neg hne)
    · refine .flight pid _ ((Dict.get?_set _ _ _ _).trans (if_pos rfl)) rfl
        (f.message_selectRecipient env m) hproper hask ?_
      exact (h.epoch pid hask).trans (hentry.released rfl pid).symm
  | qos2Manual pid hqos hpid hfree _ =>
    have hask := asksFor_iff.2 ⟨hqos, hpid⟩
    refine h.started hask (quiet_started (f.selectRecipient env m)) rfl (hquiet _) (fun _ _ => rfl)
      (fun pid' hne hp => ?_) hfree.1 ?_
    · exact Finset.mem_of_mem_insert_of_ne hp (Ne.symm hne)
    · exact .act _ _ List.mem_cons_self (f.message_selectRecipient env m) hproper

/-- PUBREL: the flight leaves the table and its message is delivered after PUBCOMP. -/
theorem Handling.pubrel (h : Handling R N f []) (hex : Exclusive f [] []) {pid : Int}
    {flight : InboundQoS2Flight} (hflight : f.inflightQos2In.get? pid = some flight) :
    Handling R N ((f.log (.pubrel pid)).popFlight pid) (.send .pubcomp pid flight.recipient ::
      if flight.delivered then [] else [.deliver flight.recipient none]) := by
  have hsub : f.trace ⊆ ((f.log (.pubrel pid)).popFlight pid).trace := List.subset_cons_self _ _
  have hreleased : ∀ pid', pid ≠ pid' →
      ((f.log (.pubrel pid)).popFlight pid).released pid' = f.released pid' := fun pid' hne =>
    List.count_cons_of_ne (by simpa using hne)
  have hget : ∀ pid', ((f.log (.pubrel pid)).popFlight pid).inflightQos2In.get? pid' =
      if pid = pid' then none else f.inflightQos2In.get? pid' := fun pid' => Dict.get?_pop _ _ _
  refine ⟨fun m hm => ?_, fun pid' hopen => ?_⟩
  · have hm : .publish m ∈ f.trace := by
      rcases List.mem_cons.1 hm with he | hm
      · cases he
      · exact hm
    rcases h.tracked m hm with hdone | hrep | ⟨hn, hwait⟩
    · exact Or.inl (hdone.mono (fun _ _ hr => hr) hsub)
    · exact Or.inr (Or.inl (hrep.mono hsub))
    · cases hwait with
      | act r callback hact _ _ => exact absurd hact List.not_mem_nil
      | flight pid' flight' hget' howes hm' hproper hask hepoch =>
        refine Or.inr (Or.inr ⟨hn, ?_⟩)
        by_cases hpid : pid = pid'
        · subst hpid
          obtain rfl : flight = flight' := Option.some.inj (hflight.symm.trans hget')
          refine .act flight.recipient none ?_ hm' hproper
          rw [howes]
          simp
        · refine .flight pid' flight' ?_ howes hm' hproper hask ?_
          · rw [hget, if_neg hpid]
            exact hget'
          · rw [hreleased pid' hpid]
            exact hepoch
  · have hne : pid ≠ pid' := by
      rintro rfl
      rcases hopen with hopen | hopen
      · rw [hget, if_pos rfl] at hopen
        exact hopen rfl
      · have hnone := hex.pendingFree pid hopen
        rw [hflight] at hnone
        cases hnone
    rw [hget, if_neg hne] at hopen
    obtain ⟨m, hm, hask, hepoch⟩ := h.opened pid' hopen
    exact ⟨m, hsub hm, hask, hepoch.trans (hreleased pid' hne).symm⟩

/-- `ack()`: the id of a message that waits for it goes into flight, with nothing to deliver. -/
theorem Handling.ack (h : Handling R N f acts) (hex : Exclusive f acts []) (k : Nat) :
    Handling R N (f.ack k) acts := by
  have hno : ∀ m m' : Received, TraceEntry.acked m ≠ .publish m' := by simp
  have hacked (m : Received) : Quiet (.acked m) := fun _ => ⟨by simp, fun _ => rfl⟩
  rcases f.ack_cases k with heq | ⟨message, hmsg, hres, ⟨heq, -⟩ | ⟨pid, r, hc, heq⟩ | ⟨pid, r, hc, heq⟩⟩
  · rw [heq]
    exact h
  · rw [heq]
    exact h.quiet (hacked message.received) (hno _) rfl rfl rfl fun _ _ hact => hact
  · have hresolved : Handling R N (f.resolve k message) acts :=
      h.quiet (hacked message.received) (hno _) rfl rfl rfl fun _ _ hact => hact
    rw [heq]
    exact hresolved.quiet (quiet_sent .puback pid r) (by simp) rfl rfl rfl fun _ _ hact => hact
  · have hpos : 0 < f.messages.countP (unresolved pid) := by
      refine List.countP_pos_iff.2 ⟨message, List.mem_of_getElem? hmsg, ?_⟩
      rw [unresolved, hres, hc]
      exact decide_eq_true rfl
    have hpend : pid ∈ f.pendingAckQos2In := hex.callbackPending pid (by omega)
    have hfree := hex.pendingFree pid hpend
    have hsub : f.trace ⊆ ((f.resolve k message).runCallback (some (.pubrec pid r))).trace :=
      fun _ hin => List.mem_cons_of_mem _ (List.mem_cons_of_mem _ hin)
    have hreleased : ∀ pid', ((f.resolve k message).runCallback (some (.pubrec pid r))).released
        pid' = f.released pid' := fun pid' =>
      (List.count_cons_of_ne (by simp)).trans (List.count_cons_of_ne (by simp))
    have hget : ∀ pid', pid ≠ pid' → ((f.resolve k message).runCallback
        (some (.pubrec pid r))).inflightQos2In.get? pid' = f.inflightQos2In.get? pid' :=
      fun pid' hne => (Dict.get?_set _ _ _ _).trans (if_neg hne)
    rw [heq]
    refine ⟨fun m hm => ?_, fun pid' hopen => ?_⟩
    · have hm : .publish m ∈ f.trace := by
        rcases List.mem_cons.1 hm with he | hm
        · cases he
        · rcases List.mem_cons.1 hm with he | hm
          · cases he
          · exact hm
      rcases h.tracked m hm with hdone | hrep | ⟨hn, hwait⟩
      · exact Or.inl (hdone.mono (fun _ _ hr => hr) hsub)
      · exact Or.inr (Or.inl (hrep.mono hsub))
      · refine Or.inr (Or.inr ⟨hn, ?_⟩)
        cases hwait with
        | act r' callback hact hm' hproper => exact .act r' callback hact hm' hproper
        | flight pid' flight hflight howes hm' hproper hask hepoch =>
          have hne : pid ≠ pid' := fun he => by rw [← he, hfree] at hflight; cases hflight
          exact .flight pid' flight ((hget pid' hne).trans hflight) howes hm' hproper hask
            (hepoch.trans (hreleased pid').symm)
    · have hopen' : f.inflightQos2In.get? pid' ≠ none ∨ pid' ∈ f.pendingAckQos2In := by
        by_cases hpid : pid = pid'
        · exact Or.inr (hpid ▸ hpend)
        · rw [hget pid' hpid] at hopen
          exact hopen.imp_right Finset.mem_of_mem_erase
      obtain ⟨m, hm, hask, hepoch⟩ := h.opened pid' hopen'
      exact ⟨m, hsub hm, hask, hepoch.trans (hreleased pid').symm⟩

/-! ## Runs -/

/-- What is known of the messages of a run: while the read loop runs, where they are; and
    always, that those whose handlers have returned were delivered or are repetitions. -/
structure Watched (f : InboundPublishFlow) (past : List InboundPublishFlow) : Prop where
  unresumed : f.Unresumed
  known : ∀ m, .publish m ∈ f.trace → m.num < f.received
  earlier : ∀ g ∈ past, ∀ m, .publish m ∈ g.trace → .publish m ∈ f.trace
  running : f.reader.isStopped = false →
    Handling (RoutesTo past) (fun m => ¬ Completed past m) f f.reader.acts
  handled : ∀ m, .publish m ∈ f.trace → Done (RoutesTo past) f m ∨ f.Repeats m ∨ ¬ Completed past m

/-- What was handled stays so when entries are added. -/
theorem Watched.handled_mono (h : Watched f past) (htrace : f.trace ⊆ f'.trace)
    (hm : .publish m ∈ f.trace) :
    Done (RoutesTo past) f' m ∨ f'.Repeats m ∨ ¬ Completed past m := by
  rcases h.handled m hm with hdone | hrep | hn
  · exact Or.inl (hdone.mono (fun _ _ hr => hr) htrace)
  · exact Or.inr (Or.inl (hrep.mono htrace))
  · exact Or.inr (Or.inr hn)

theorem routesTo_tail {g : InboundPublishFlow} {route : Item} (h : RoutesTo (g :: past) m route) :
    RoutesTo past m route :=
  fun g' hg' => h g' (List.mem_cons_of_mem g hg')

/-- A state of a suspended or ended read loop completes nothing. -/
theorem completed_cons_iff {g : InboundPublishFlow} (h : g.reader ≠ .reading) :
    Completed (g :: past) m ↔ Completed past m := by
  constructor
  · rintro ⟨g', hg', hread, hrest⟩
    rcases List.mem_cons.1 hg' with rfl | hg'
    · exact absurd hread h
    · exact ⟨g', hg', hread, hrest⟩
  · rintro ⟨g', hg', hrest⟩
    exact ⟨g', List.mem_cons_of_mem _ hg', hrest⟩

/-- A message that is still on its way is not completed. -/
theorem Waits.not_completed (h : Waits R f f.reader.acts m) (hold : ¬ Completed past m) :
    ¬ Completed (f :: past) m := by
  by_cases hread : f.reader = .reading
  · rintro ⟨g, hg, hrest⟩
    rcases List.mem_cons.1 hg with rfl | hg
    · rw [hread] at h
      cases h with
      | act r callback hact _ _ => exact absurd hact List.not_mem_nil
      | flight pid flight _ _ _ _ hask hepoch =>
        have hlt := hrest.2.2 pid hask
        omega
    · exact hold ⟨g, hg, hrest⟩
  · rwa [completed_cons_iff hread]

/-- A step of a running read loop. -/
theorem Handling.watched (h : Handling (RoutesTo (f :: past)) (fun m => ¬ Completed past m) f
    f.reader.acts) (hun : f.Unresumed) (hknown : ∀ m, .publish m ∈ f.trace → m.num < f.received)
    (hearlier : ∀ g ∈ past, ∀ m, .publish m ∈ g.trace → .publish m ∈ f.trace) :
    Watched f (f :: past) := by
  have hhandling : Handling (RoutesTo (f :: past)) (fun m => ¬ Completed (f :: past) m) f
      f.reader.acts := by
    refine ⟨fun m hm => ?_, h.opened⟩
    rcases h.tracked m hm with hdone | hrep | ⟨hn, hwait⟩
    · exact Or.inl hdone
    · exact Or.inr (Or.inl hrep)
    · exact Or.inr (Or.inr ⟨hwait.not_completed hn, hwait⟩)
  refine ⟨hun, hknown, fun g hg => ?_, fun _ => hhandling, fun m hm => ?_⟩
  · rcases List.mem_cons.1 hg with rfl | hg
    · exact fun m hm => hm
    · exact hearlier g hg
  · rcases hhandling.tracked m hm with hdone | hrep | ⟨hn, -⟩
    · exact Or.inl hdone
    · exact Or.inr (Or.inl hrep)
    · exact Or.inr (Or.inr hn)

/-- The read loop ends or has ended. -/
theorem watched_of_stopped (hstop : f.reader.isStopped = true) (hun : f.Unresumed)
    (hknown : ∀ m, .publish m ∈ f.trace → m.num < f.received)
    (hearlier : ∀ g ∈ past, ∀ m, .publish m ∈ g.trace → .publish m ∈ f.trace)
    (hhandled : ∀ m, .publish m ∈ f.trace →
      Done (RoutesTo past) f m ∨ f.Repeats m ∨ ¬ Completed past m) : Watched f (f :: past) := by
  have hread : f.reader ≠ .reading := by
    intro he
    rw [he] at hstop
    cases hstop
  refine ⟨hun, hknown, fun g hg => ?_, fun hrun => ?_, fun m hm => ?_⟩
  · rcases List.mem_cons.1 hg with rfl | hg
    · exact fun m hm => hm
    · exact hearlier g hg
  · rw [hstop] at hrun
    cases hrun
  · rw [completed_cons_iff hread]
    rcases hhandled m hm with hdone | hrest
    · exact Or.inl (hdone.mono (fun _ _ hr => routesTo_tail hr) (List.Subset.refl _))
    · exact Or.inr hrest

/-- Nothing is received, and neither the index nor the replay state changes. -/
structure Keeps (f f' : InboundPublishFlow) : Prop where
  trace : f.trace ⊆ f'.trace
  publish : ∀ m, .publish m ∈ f'.trace → .publish m ∈ f.trace
  subscriptions : f'.subscriptions = f.subscriptions
  received : f'.received = f.received
  replay : f'.replay = f.replay
  buffers : f'.buffers = f.buffers

theorem keeps_refl (f : InboundPublishFlow) : Keeps f f :=
  ⟨List.Subset.refl _, fun _ hm => hm, rfl, rfl, rfl, rfl⟩

theorem Keeps.trans {f₁ f₂ f₃ : InboundPublishFlow} (h : Keeps f₁ f₂) (h' : Keeps f₂ f₃) :
    Keeps f₁ f₃ :=
  ⟨fun _ hin => h'.trace (h.trace hin), fun m hm => h.publish m (h'.publish m hm),
    h'.subscriptions.trans h.subscriptions, h'.received.trans h.received, h'.replay.trans h.replay,
    h'.buffers.trans h.buffers⟩

theorem keeps_cons {entry : TraceEntry} (hentry : ∀ m, entry ≠ .publish m)
    (htrace : f'.trace = entry :: f.trace) (hsub : f'.subscriptions = f.subscriptions)
    (hreceived : f'.received = f.received) (hreplay : f'.replay = f.replay)
    (hbuffers : f'.buffers = f.buffers) : Keeps f f' := by
  refine ⟨?_, fun m hm => ?_, hsub, hreceived, hreplay, hbuffers⟩
  · rw [htrace]
    exact List.subset_cons_self _ _
  · rw [htrace] at hm
    exact (List.mem_cons.1 hm).resolve_left fun he => hentry m he.symm

theorem keeps_handOver (f : InboundPublishFlow) (r : InboundRecipient)
    (callback : Option AckCallback) : Keeps f (f.handOver r callback) := by
  rcases f.handOver_cases r callback with ⟨-, heq⟩ | ⟨request, -, heq⟩ | ⟨filter, entry, -, -, heq⟩
  · rw [heq]
    exact keeps_refl f
  all_goals
    rw [heq]
    exact keeps_cons (by simp) rfl rfl rfl rfl rfl

theorem keeps_runReader (f : InboundPublishFlow) (env : Environment) (acts : List Act) :
    Keeps f (f.runReader env acts) := by
  refine @runReader_induct (fun f' => Keeps f f') (fun f' _ => Keeps f f') ?_ ?_ ?_ ?_ env acts f
    (keeps_refl f)
  · exact fun f' kind pid r acts hP => hP.trans (keeps_cons (by simp) rfl rfl rfl rfl rfl)
  · exact fun f' r callback acts hP _ => hP.trans (keeps_handOver f' r callback)
  · exact fun f' hP => ⟨hP.trace, hP.publish, hP.subscriptions, hP.received, hP.replay, hP.buffers⟩
  · exact fun f' _ hP =>
      ⟨hP.trace, hP.publish, hP.subscriptions, hP.received, hP.replay, hP.buffers⟩

theorem Unresumed.keeps_handles {env : Environment} (hun : f.Unresumed)
    (h : Handles f env m f' acts) : Keeps f f' := by
  cases h with
  | takesIn htakes _ =>
    cases htakes with
    | new hreplay => rw [hun.1] at hreplay; cases hreplay
    | old _ _ hreplay _ _ _ => rw [hun.1] at hreplay; cases hreplay
  | qos2Auto => exact keeps_cons (by simp) rfl rfl rfl rfl rfl
  | qos2Manual => exact keeps_cons (by simp) rfl rfl rfl rfl rfl
  | _ => exact keeps_refl f

theorem Keeps.unresumed (h : Keeps f f') (hun : f.Unresumed) : f'.Unresumed :=
  ⟨h.replay.trans hun.1, h.buffers.trans hun.2⟩

/-- Steps that leave the read loop alone. -/
theorem Watched.calm (h : Watched f past) (hreader : f'.reader = f.reader) (hun : f'.Unresumed)
    (hreceived : f'.received = f.received) (htrace : f.trace ⊆ f'.trace)
    (hpublish : ∀ m, .publish m ∈ f'.trace → .publish m ∈ f.trace)
    (hkeep : ∀ R N, Handling R N f f.reader.acts → Handling R N f' f.reader.acts) :
    Watched f' (f' :: past) := by
  have hknown : ∀ m, .publish m ∈ f'.trace → m.num < f'.received := fun m hm => by
    rw [hreceived]
    exact h.known m (hpublish m hm)
  have hearlier : ∀ g ∈ past, ∀ m, .publish m ∈ g.trace → .publish m ∈ f'.trace :=
    fun g hg m hm => htrace (h.earlier g hg m hm)
  cases hstop : f.reader.isStopped with
  | false =>
    have hnow : Handling (RoutesTo (f' :: past)) (fun m => ¬ Completed past m) f' f'.reader.acts := by
      rw [hreader]
      refine hkeep _ _ ((h.running hstop).mono (fun _ _ hr => routesTo_tail hr) ?_ ?_ ?_ rfl rfl ?_)
      · exact List.Subset.refl _
      · exact fun _ hm => hm
      · exact fun _ => rfl
      · exact fun _ _ hact => hact
    exact hnow.watched hun hknown hearlier
  | true =>
    exact watched_of_stopped (hreader ▸ hstop) hun hknown hearlier fun m hm =>
      h.handled_mono htrace (hpublish m hm)

/-- The read loop ends: what was handled stays so. -/
theorem Watched.stop (h : Watched f past) (e : Option InboundError) :
    Watched { f with reader := .stopped e } ({ f with reader := .stopped e } :: past) :=
  watched_of_stopped rfl h.unresumed h.known h.earlier fun _ hm =>
    h.handled_mono (List.Subset.refl _) hm

theorem Watched.newest (h : Watched f past) (hread : f.reader = .reading) (packet : Publish)
    (hkeeps : Keeps (f.receive packet) f') :
    Newest (RoutesTo (f' :: past)) (fun m => ¬ Completed past m) (f.receive packet)
      (f.nextReceived packet) := by
  have hquiet : Quiet (.publish (f.nextReceived packet)) := fun _ => ⟨by simp, fun _ => rfl⟩
  have hrun := h.running (by rw [hread]; rfl)
  rw [hread] at hrun
  have hsub : f.trace ⊆ (f.receive packet).trace := List.subset_cons_self _ _
  refine ⟨List.mem_cons_self, fun m' hm' => ?_, fun pid hopen => ?_, ?_, fun pid hask => ?_, ?_⟩
  · rcases List.mem_cons.1 hm' with he | hm'
    · exact Or.inl (TraceEntry.publish.inj he)
    · refine Or.inr ⟨h.known m' hm', ?_⟩
      rcases hrun.tracked m' hm' with hdone | hrep | ⟨hn, hwait⟩
      · exact Or.inl (hdone.mono (fun _ _ hr => routesTo_tail hr) hsub)
      · exact Or.inr (Or.inl (hrep.mono hsub))
      · exact Or.inr (Or.inr ⟨hn, hwait.mono (fun _ _ hr => routesTo_tail hr) rfl
          (fun pid => hquiet.released rfl pid) fun _ _ hact => hact⟩)
  · obtain ⟨m', hm', hask, hepoch⟩ := hrun.opened pid hopen
    exact ⟨m', hsub hm', h.known m' hm', hask, hepoch.trans (hquiet.released rfl pid).symm⟩
  · rintro ⟨g, hg, -, hm, -⟩
    exact Nat.lt_irrefl _ (h.known _ (h.earlier g hg _ hm))
  · have hpid : packet.packetId = some pid := (asksFor_iff.1 hask).2
    rw [hquiet.released rfl pid]
    simp only [nextReceived, epoch, hpid]
    rfl
  · intro route hroute
    have hlater : (f.nextReceived packet).num < f'.received := by
      rw [hkeeps.received]
      exact Nat.lt_succ_self _
    have hselect := hroute f' List.mem_cons_self hlater
    unfold selectSubscription at hselect ⊢
    rwa [hkeeps.subscriptions] at hselect

theorem Watched.receivePublish (h : Watched f past) (env : Environment) (packet : Publish) :
    Watched (f.receivePublish env packet) (f.receivePublish env packet :: past) := by
  have hcalm : Watched f (f :: past) :=
    h.calm rfl h.unresumed rfl (List.Subset.refl _) (fun _ hm => hm) fun _ _ hh => hh
  unfold InboundPublishFlow.receivePublish
  split
  · next hread =>
    have hun : (f.receive packet).Unresumed := h.unresumed
    have hknown : ∀ m, .publish m ∈ (f.receive packet).trace → m.num < (f.receive packet).received :=
      fun m hm => by
        rcases List.mem_cons.1 hm with he | hm
        · rw [TraceEntry.publish.inj he]
          exact Nat.lt_succ_self _
        · exact Nat.lt_succ_of_lt (h.known m hm)
    have hearlier : ∀ g ∈ past, ∀ m, .publish m ∈ g.trace → .publish m ∈ (f.receive packet).trace :=
      fun g hg m hm => List.mem_cons_of_mem _ (h.earlier g hg m hm)
    unfold dispatch
    split
    · -- the handler has raised
      refine watched_of_stopped rfl hun hknown hearlier fun m hm => ?_
      rcases List.mem_cons.1 hm with he | hm
      · refine Or.inr (Or.inr ?_)
        rintro ⟨g, hg, -, hm, -⟩
        rw [TraceEntry.publish.inj he] at hm
        exact Nat.lt_irrefl _ (h.known _ (h.earlier g hg _ hm))
      · exact h.handled_mono (List.subset_cons_self _ _) hm
    · next f' acts hhandle =>
      have hkeeps := (hun.keeps_handles (handlePublish_cases hhandle)).trans
        (keeps_runReader f' env acts)
      have hnow := ((h.newest hread packet hkeeps).handles hun hhandle).runReader env
      refine hnow.watched (hkeeps.unresumed hun) (fun m hm => ?_) fun g hg m hm => ?_
      · rw [hkeeps.received]
        exact hknown m (hkeeps.publish m hm)
      · exact hkeeps.trace (hearlier g hg m hm)
  all_goals exact hcalm

theorem Watched.receivePubrel (h : Watched f past) (hex : Exclusive f f.reader.acts [])
    (env : Environment) (pid : Int) :
    Watched (f.receivePubrel env pid) (f.receivePubrel env pid :: past) := by
  have hcalm : Watched f (f :: past) :=
    h.calm rfl h.unresumed rfl (List.Subset.refl _) (fun _ hm => hm) fun _ _ hh => hh
  unfold InboundPublishFlow.receivePubrel
  split
  · next hread =>
    have hkeeps : Keeps f (f.log (.pubrel pid)) := keeps_cons (by simp) rfl rfl rfl rfl rfl
    rw [hread] at hex
    unfold dispatch handlePubrel
    split
    · next e hhandle =>
      exact watched_of_stopped rfl h.unresumed (fun m hm => h.known m (hkeeps.publish m hm))
        (fun g hg m hm => hkeeps.trace (h.earlier g hg m hm)) fun m hm =>
          h.handled_mono hkeeps.trace (hkeeps.publish m hm)
    · next f' acts hhandle =>
      split at hhandle
      · cases hhandle
      · next flight hflight =>
        cases hhandle
        have hrun := h.running (by rw [hread]; rfl)
        rw [hread] at hrun
        have hpop : Keeps f ((f.log (.pubrel pid)).popFlight pid) :=
          keeps_cons (by simp) rfl rfl rfl rfl rfl
        have hall := hpop.trans (keeps_runReader _ env (.send .pubcomp pid flight.recipient ::
          if flight.delivered then [] else [.deliver flight.recipient none]))
        have hnow := (Handling.pubrel hrun hex hflight).runReader env
        refine Handling.watched ?_ (hall.unresumed h.unresumed) (fun m hm => ?_) fun g hg m hm => ?_
        · exact hnow.mono (fun _ _ hr => routesTo_tail hr) (List.Subset.refl _) (fun _ hm => hm)
            (fun _ => rfl) rfl rfl fun _ _ hact => hact
        · rw [hall.received]
          exact h.known m (hall.publish m hm)
        · exact hall.trace (h.earlier g hg m hm)
  all_goals exact hcalm

/-- The steps of the replay state do nothing. -/
theorem Unresumed.step_eq (h : f.Unresumed) {e : InboundEvent}
    (he : e = .drain ∨ (∃ i, e = .expire i) ∨ (∃ i k, e = .cancelWaiter i k) ∨
      (∃ i env, e = .acquireLock i env) ∨ (∃ i env, e = .resumeDelivery i env) ∨
      (∃ i, e = .interruptDelivery i) ∨ e = .clear) : f.step e = f := by
  obtain ⟨hreplay, hbuffers⟩ := h
  rcases he with rfl | ⟨i, rfl⟩ | ⟨i, k, rfl⟩ | ⟨i, env, rfl⟩ | ⟨i, env, rfl⟩ | ⟨i, rfl⟩ | rfl
  · simp [InboundPublishFlow.step, drain, hreplay]
  · simp [InboundPublishFlow.step, expireReplay, hbuffers]
  · simp [InboundPublishFlow.step, cancelWaiter, hbuffers]
  · simp [InboundPublishFlow.step, acquireLock, hbuffers]
  · simp [InboundPublishFlow.step, resumeDelivery, hbuffers]
  · simp [InboundPublishFlow.step, interruptDelivery, hbuffers]
  · simp [InboundPublishFlow.step, clear, hreplay]

theorem Watched.step (h : Watched f past) (hex : Exclusive f f.reader.acts []) (e : InboundEvent) :
    Watched (f.step e) (f.step e :: past) := by
  have hcalm : Watched f (f :: past) :=
    h.calm rfl h.unresumed rfl (List.Subset.refl _) (fun _ hm => hm) fun _ _ hh => hh
  have hsame {R : Received → Item → Prop} {N : Received → Prop} {f' : InboundPublishFlow}
      (hh : Handling R N f f.reader.acts) (htrace : f'.trace = f.trace)
      (hflights : f'.inflightQos2In = f.inflightQos2In)
      (hpending : f'.pendingAckQos2In = f.pendingAckQos2In) : Handling R N f' f.reader.acts :=
    hh.mono (fun _ _ hr => hr) (htrace ▸ List.Subset.refl _) (fun _ hm => htrace ▸ hm)
      (fun pid => by rw [released, htrace]; rfl) hflights hpending fun _ _ hact => hact
  have hreplay {e : InboundEvent} (heq : f.step e = f) :
      Watched (f.step e) (f.step e :: past) := by
    rw [heq]
    exact hcalm
  cases e with
  | publish packet env => exact h.receivePublish env packet
  | pubrel pid env => exact h.receivePubrel hex env pid
  | resumeReader env =>
    rw [InboundPublishFlow.step, resumeReader]
    split
    · next acts hread =>
      have hrun := h.running (by rw [hread]; rfl)
      rw [hread] at hrun
      have hkeeps := keeps_runReader f env acts
      have hnow := Handling.runReader env hrun
      refine Handling.watched ?_ (hkeeps.unresumed h.unresumed) (fun m hm => ?_) fun g hg m hm => ?_
      · exact hnow.mono (fun _ _ hr => routesTo_tail hr) (List.Subset.refl _) (fun _ hm => hm)
          (fun _ => rfl) rfl rfl fun _ _ hact => hact
      · rw [hkeeps.received]
        exact h.known m (hkeeps.publish m hm)
      · exact hkeeps.trace (h.earlier g hg m hm)
    all_goals exact hcalm
  | interruptReader =>
    rw [InboundPublishFlow.step, interruptReader]
    split
    · exact hcalm
    all_goals exact h.stop none
  | ack k =>
    have hkeeps : Keeps f (f.ack k) ∧ (f.ack k).reader = f.reader := by
      have hresolve (message : Message) : Keeps f (f.resolve k message) :=
        keeps_cons (by simp) rfl rfl rfl rfl rfl
      rcases f.ack_cases k with heq | ⟨message, -, -, ⟨heq, -⟩ | ⟨pid, r, -, heq⟩ | ⟨pid, r, -, heq⟩⟩
      · rw [heq]
        exact ⟨keeps_refl f, rfl⟩
      · rw [heq]
        exact ⟨hresolve message, rfl⟩
      all_goals
        rw [heq]
        exact ⟨(hresolve message).trans (keeps_cons (by simp) rfl rfl rfl rfl rfl), rfl⟩
    exact h.calm hkeeps.2 (hkeeps.1.unresumed h.unresumed) hkeeps.1.received hkeeps.1.trace
      hkeeps.1.publish fun _ _ hh => hh.ack hex k
  | get queue =>
    exact h.calm rfl h.unresumed rfl (List.Subset.refl _) (fun _ hm => hm)
      fun _ _ hh => hsame hh rfl rfl rfl
  | subscriptions index =>
    exact h.calm rfl h.unresumed rfl (List.Subset.refl _) (fun _ hm => hm)
      fun _ _ hh => hsame hh rfl rfl rfl
  | drain => exact hreplay (h.unresumed.step_eq (by simp))
  | expire i => exact hreplay (h.unresumed.step_eq (by simp))
  | cancelWaiter i k => exact hreplay (h.unresumed.step_eq (by simp))
  | acquireLock i env => exact hreplay (h.unresumed.step_eq (by simp))
  | resumeDelivery i env => exact hreplay (h.unresumed.step_eq (by simp))
  | interruptDelivery i => exact hreplay (h.unresumed.step_eq (by simp))
  | clear => exact hreplay (h.unresumed.step_eq (by simp))

theorem watched_fresh (bufferSize : Nat) (maxsize : Nat → Nat) :
    Watched (fresh bufferSize maxsize false) [fresh bufferSize maxsize false] := by
  have hempty (m : Received) : .publish m ∉ (fresh bufferSize maxsize false).trace := nofun
  refine ⟨⟨rfl, rfl⟩, fun m hm => absurd hm (hempty m), fun g hg m hm => ?_, fun _ => ⟨?_, ?_⟩,
    fun m hm => absurd hm (hempty m)⟩
  · rw [List.mem_singleton.1 hg] at hm
    exact hm
  · exact fun m hm => absurd hm (hempty m)
  · rintro pid (hopen | hopen)
    · exact absurd rfl hopen
    · exact absurd hopen (Finset.notMem_empty pid)

/-- Every step of an unresumed connection is undisturbed, or does nothing. -/
theorem Unresumed.undisturbed_or (h : f.Unresumed) (e : InboundEvent) :
    f.undisturbed e ∨ f.step e = f := by
  by_cases he : e = .clear
  · exact Or.inr (h.step_eq (by simp [he]))
  · refine Or.inl ⟨fun i b d hb => ?_, fun hclear => absurd hclear he⟩
    rw [h.2] at hb
    cases hb

end InboundPublishFlow

end Zmqtt
