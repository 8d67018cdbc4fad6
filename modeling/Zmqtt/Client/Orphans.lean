/-
  Entries without a subscription. Every entry of the current connection has the queue of a
  subscription that is in `_subscriptions`, or of one whose `__aexit__` is about to take the
  entry out, as long as no subscription leaves `_subscriptions` while the run loop or a call of
  its own is still to subscribe it, and every exit unsubscribes what the subscription has.

  `subs_to_restore` is a copy: a subscription that exits during a reconnect is subscribed again.
-/
import Zmqtt.Session.Entries
import Zmqtt.Client.Subscriptions

namespace Zmqtt

/-- The call is one that a caller in this role makes. -/
def CallRole.fits : CallRole → InterestCall → Prop
  | .enter n, .subscribe _ _ queue _ | .restore n, .subscribe _ _ queue _ => queue = n
  | .exit _, .unsubscribe _ => True
  | .observer, .addResponseObserver _ | .observer, .removeResponseObserver _ => True
  | _, _ => False

/-- A caller in this role subscribes `n`. -/
def CallRole.subscribes (role : CallRole) (n : Nat) : Bool :=
  role = .enter n || role = .restore n

namespace ClientConnection

def roles (conn : ClientConnection) : List CallRole := conn.calls.map ClientCall.role

def lefts (conn : ClientConnection) : List Bool := conn.calls.map ClientCall.left

/-- The calls fit their callers, and a caller that has gone on had waited for its call. -/
structure Called (conn : ClientConnection) : Prop where
  length : conn.roles.length = conn.interests.tasks.length
  fits : ∀ (k : Nat) (role : CallRole) (task : InterestTask), conn.roles[k]? = some role →
    conn.interests.tasks[k]? = some task → role.fits task.call
  left : ∀ (k : Nat) (task : InterestTask), conn.lefts[k]? = some true →
    conn.interests.tasks[k]? = some task → task.pc = .ended

/-- What is subscribed is in `_subscriptions`; so is what has entries, unless an exit is about
    to take the entry out. -/
structure Owned (subscriptions : List Nat) (conn : ClientConnection) : Prop where
  subscribing : ∀ (k n : Nat) (role : CallRole) (task : InterestTask), conn.roles[k]? = some role →
    conn.interests.tasks[k]? = some task → task.pc ≠ .ended → role.subscribes n = true →
    n ∈ subscriptions
  entries : ∀ (f : String) (entry : SubscriptionEntry),
    conn.interests.index.entries.get? f = some entry → entry.queue ∈ subscriptions ∨
      ∃ (k : Nat) (filters : List String), conn.roles[k]? = some (.exit entry.queue) ∧
        conn.interests.tasks[k]? = some { call := .unsubscribe filters } ∧ f ∈ filters

variable {conn : ClientConnection} {subscriptions : List Nat}

theorem Owned.mono (h : Owned subscriptions conn) {subscriptions' : List Nat}
    (hsub : subscriptions ⊆ subscriptions') : Owned subscriptions' conn :=
  ⟨fun k n role task hr ht hpc hn => hsub (h.subscribing k n role task hr ht hpc hn),
    fun f entry hf => (h.entries f entry hf).imp_left fun hin => hsub hin⟩

/-! ## New calls -/

theorem roles_start (conn : ClientConnection) (role : CallRole) (call : InterestCall) :
    (conn.start role call).roles = conn.roles ++ [role] := by
  rw [roles, start, List.map_append]
  rfl

theorem lefts_start (conn : ClientConnection) (role : CallRole) (call : InterestCall) :
    (conn.start role call).lefts = conn.lefts ++ [false] := by
  rw [lefts, start, List.map_append]
  rfl

theorem length_lefts (conn : ClientConnection) : conn.lefts.length = conn.roles.length := by
  rw [lefts, roles, List.length_map, List.length_map]

/-- The tasks after a new call: the old ones, and the new one at some point of it. -/
theorem tasks_start (conn : ClientConnection) (role : CallRole) (call : InterestCall) :
    (conn.start role call).interests.tasks.length = conn.interests.tasks.length + 1 ∧
    (∀ k, k < conn.interests.tasks.length →
      (conn.start role call).interests.tasks[k]? = conn.interests.tasks[k]?) ∧
    ∃ pc, (conn.start role call).interests.tasks[conn.interests.tasks.length]? =
      some { call, pc } := by
  obtain ⟨hacts, -⟩ := Interests.start_acts conn.interests call
  refine ⟨?_, fun k hk => ?_, ?_⟩
  · refine hacts.length.trans ?_
    rw [List.length_append, List.length_singleton]
  · refine (hacts.others k (Nat.ne_of_lt hk)).trans ?_
    exact List.getElem?_append_left hk
  · obtain ⟨pc, hpc, -⟩ := hacts.own
    exact ⟨pc, hpc⟩

/-- A task after a new call is an old one, or the new one. -/
theorem Called.start_cases (h : Called conn) {role role' : CallRole} {call : InterestCall} {k : Nat}
    {task : InterestTask} (hr : (conn.start role call).roles[k]? = some role')
    (ht : (conn.start role call).interests.tasks[k]? = some task) :
    conn.roles[k]? = some role' ∧ conn.interests.tasks[k]? = some task ∨
      role' = role ∧ task.call = call ∧ k = conn.interests.tasks.length := by
  obtain ⟨hlen, hold, pc, hnew⟩ := tasks_start conn role call
  have hk := (List.getElem?_eq_some_iff.1 ht).1
  rw [roles_start] at hr
  rcases Nat.lt_or_ge k conn.interests.tasks.length with hlt | hge
  · rw [hold k hlt] at ht
    rw [List.getElem?_append_left (by rw [h.length]; exact hlt)] at hr
    exact Or.inl ⟨hr, ht⟩
  · obtain rfl : k = conn.interests.tasks.length := by omega
    rw [hnew] at ht
    rw [← h.length, List.getElem?_concat_length] at hr
    exact Or.inr ⟨(Option.some.inj hr).symm, by rw [← Option.some.inj ht], rfl⟩

theorem Called.start (h : Called conn) {role : CallRole} {call : InterestCall}
    (hfits : role.fits call) : Called (conn.start role call) := by
  obtain ⟨hlen, hold, pc, hnew⟩ := tasks_start conn role call
  refine ⟨?_, fun k role' task hr ht => ?_, fun k task hl ht => ?_⟩
  · rw [roles_start, List.length_append, hlen, h.length]
    rfl
  · rcases h.start_cases hr ht with ⟨hr, ht⟩ | ⟨rfl, hcall, -⟩
    · exact h.fits k role' task hr ht
    · rw [hcall]
      exact hfits
  · rw [lefts_start] at hl
    have hk := (List.getElem?_eq_some_iff.1 ht).1
    rcases Nat.lt_or_ge k conn.interests.tasks.length with hlt | hge
    · rw [hold k hlt] at ht
      rw [List.getElem?_append_left (by rw [length_lefts, h.length]; exact hlt)] at hl
      exact h.left k task hl ht
    · obtain rfl : k = conn.interests.tasks.length := by omega
      rw [← h.length, ← length_lefts, List.getElem?_concat_length] at hl
      cases hl

/-- An exit that waits keeps its place. -/
theorem Called.waiting (h : Called conn) (role : CallRole) (call : InterestCall) {k n : Nat}
    {filters : List String} (hr : conn.roles[k]? = some (.exit n))
    (ht : conn.interests.tasks[k]? = some { call := .unsubscribe filters }) :
    (conn.start role call).roles[k]? = some (.exit n) ∧
      (conn.start role call).interests.tasks[k]? = some { call := .unsubscribe filters } := by
  obtain ⟨-, hold, -⟩ := tasks_start conn role call
  have hlt := (List.getElem?_eq_some_iff.1 ht).1
  refine ⟨?_, ?_⟩
  · rw [roles_start, List.getElem?_append_left (by rw [h.length]; exact hlt)]
    exact hr
  · rw [hold k hlt]
    exact ht

/-- A new call of a caller that subscribes what is in `_subscriptions`, or nothing. -/
theorem Owned.start (h : Owned subscriptions conn) (hcalled : Called conn) {role : CallRole}
    {call : InterestCall} (hsubscribes : ∀ n, role.subscribes n = true → n ∈ subscriptions)
    (hqueue : ∀ filters a queue i, call = .subscribe filters a queue i → queue ∈ subscriptions) :
    Owned subscriptions (conn.start role call) := by
  refine ⟨fun k n role' task hr ht hpc hn => ?_, fun f entry hf => ?_⟩
  · rcases hcalled.start_cases hr ht with ⟨hr, ht⟩ | ⟨rfl, -, -⟩
    · exact h.subscribing k n role' task hr ht hpc hn
    · exact hsubscribes n hn
  · obtain ⟨hacts, -⟩ := Interests.start_acts conn.interests call
    rcases hacts.entries f entry hf with hf | ⟨-, filters, a, i, hcall⟩
    · rcases h.entries f entry hf with hin | ⟨k, filters, hr, ht, hmem⟩
      · exact Or.inl hin
      · obtain ⟨hr, ht⟩ := hcalled.waiting role call hr ht
        exact Or.inr ⟨k, filters, hr, ht, hmem⟩
    · exact Or.inl (hqueue filters a entry.queue i hcall)

/-! ## Exits -/

/-- The filters of the entries of subscription `n`. -/
def ownFilters (conn : ClientConnection) (n : Nat) : List String :=
  (conn.interests.index.entries.filter fun item => item.2.queue = n).map Prod.fst

/-- A call is still to subscribe `n`, or waits for its SUBACK. -/
def subscribing (conn : ClientConnection) (n : Nat) : Bool :=
  (conn.roles.zip conn.interests.tasks).any fun item =>
    item.1.subscribes n && item.2.pc ≠ .ended

theorem mem_ownFilters {f : String} {entry : SubscriptionEntry}
    (hf : conn.interests.index.entries.get? f = some entry) : f ∈ conn.ownFilters entry.queue :=
  List.mem_map.2 ⟨(f, entry), List.mem_filter.2 ⟨Dict.mem_of_get? hf, decide_eq_true rfl⟩, rfl⟩

theorem subscribing_of_get {k n : Nat} {role : CallRole} {task : InterestTask}
    (hr : conn.roles[k]? = some role) (ht : conn.interests.tasks[k]? = some task)
    (hpc : task.pc ≠ .ended) (hn : role.subscribes n = true) : conn.subscribing n = true := by
  refine List.any_eq_true.2 ⟨(role, task), List.mem_of_getElem? (i := k) ?_, ?_⟩
  · exact List.getElem?_zip_eq_some.2 ⟨hr, ht⟩
  · rw [hn]
    exact decide_eq_true hpc

/-- A subscription without entries and calls leaves. -/
theorem Owned.erase (h : Owned subscriptions conn) {n : Nat} (hidle : conn.subscribing n = false)
    (hnone : conn.ownFilters n = []) : Owned (subscriptions.erase n) conn := by
  refine ⟨fun k m role task hr ht hpc hm => ?_, fun f entry hf => ?_⟩
  · refine (List.mem_erase_of_ne ?_).2 (h.subscribing k m role task hr ht hpc hm)
    rintro rfl
    rw [subscribing_of_get hr ht hpc hm] at hidle
    cases hidle
  · refine (h.entries f entry hf).imp_left fun hin => (List.mem_erase_of_ne ?_).2 hin
    intro he
    have hmem := mem_ownFilters hf
    rw [he, hnone] at hmem
    cases hmem

/-- A subscription leaves and unsubscribes all of its entries. -/
theorem Owned.exit (h : Owned subscriptions conn) (hcalled : Called conn) {n : Nat}
    {filters : List String} (hidle : conn.subscribing n = false)
    (hall : ∀ f ∈ conn.ownFilters n, f ∈ filters)
    (halive : conn.dead = false ∨ conn.ownFilters n = []) :
    Owned (subscriptions.erase n) (conn.start (.exit n) (.unsubscribe filters)) := by
  obtain ⟨hacts, hunsub⟩ := Interests.start_acts conn.interests (.unsubscribe filters)
  refine ⟨fun k m role task hr ht hpc hm => ?_, fun f entry hf => ?_⟩
  · rcases hcalled.start_cases hr ht with ⟨hr', ht'⟩ | ⟨rfl, -, -⟩
    · refine (List.mem_erase_of_ne ?_).2 (h.subscribing k m role task hr' ht' hpc hm)
      rintro rfl
      rw [subscribing_of_get hr' ht' hpc hm] at hidle
      cases hidle
    · cases hm
  · have hold : conn.interests.index.entries.get? f = some entry :=
      (hacts.entries f entry hf).resolve_right nofun
    by_cases hn : entry.queue = n
    · -- the new call takes the entry out, or waits for its guards
      have hmem : f ∈ conn.ownFilters n := hn ▸ mem_ownFilters hold
      have hlive : conn.interests.protocol.dead = false := by
        refine halive.resolve_right fun hnone => ?_
        rw [hnone] at hmem
        cases hmem
      rcases hunsub filters rfl hlive with hwaits | hreleased
      · refine Or.inr ⟨conn.interests.tasks.length, filters, ?_, hwaits, hall f hmem⟩
        rw [roles_start, ← hcalled.length, List.getElem?_concat_length, hn]
      · have hgone : (conn.start (.exit n) (.unsubscribe filters)).interests.index.entries.get? f =
            none := hreleased f (hall f hmem)
        rw [hgone] at hf
        cases hf
    · rcases h.entries f entry hold with hin | ⟨k, filters', hr, ht, hmem⟩
      · exact Or.inl ((List.mem_erase_of_ne hn).2 hin)
      · obtain ⟨hr, ht⟩ := hcalled.waiting (.exit n) (.unsubscribe filters) hr ht
        exact Or.inr ⟨k, filters', hr, ht, hmem⟩

/-! ## Calls that go on -/

theorem roles_results (conn : ClientConnection) (e : InterestEvent) :
    (conn.results e).map ClientCall.role = conn.roles ∧
      (conn.results e).map ClientCall.left = conn.lefts := by
  have hmodify : ∀ (k : Nat) (newFilters : List String),
      ((conn.calls.modify k fun call => { call with result := some newFilters }).map
        ClientCall.role = conn.roles) ∧
      ((conn.calls.modify k fun call => { call with result := some newFilters }).map
        ClientCall.left = conn.lefts) := by
    intro k newFilters
    refine ⟨List.ext_getElem? fun j => ?_, List.ext_getElem? fun j => ?_⟩
    all_goals
      first | rw [roles] | rw [lefts]
      rw [List.getElem?_map, List.getElem?_map, List.getElem?_modify]
      cases conn.calls[j]? with
      | none => rfl
      | some call =>
        dsimp
        split <;> rfl
  unfold results
  split
  · split
    · split
      · exact hmodify _ _
      · exact ⟨rfl, rfl⟩
    · exact ⟨rfl, rfl⟩
  · exact ⟨rfl, rfl⟩

/-- The exit that waits at `k` would leave entries behind. -/
def abandons (conn : ClientConnection) (subscriptions : List Nat) (k : Nat) : Bool :=
  match conn.roles[k]?, (conn.interests.tasks[k]?).map InterestTask.pc with
  | some (.exit n), some .entering => !subscriptions.contains n && conn.ownFilters n ≠ []
  | _, _ => false

/-- No exit gives up its UNSUBSCRIBE while it waits for its guards. -/
def orderly (conn : ClientConnection) (subscriptions : List Nat) : InterestEvent → Bool
  | .cancel k => !conn.abandons subscriptions k
  | .locked k => !conn.dead || !conn.abandons subscriptions k
  | _ => true

theorem advance_eq (conn : ClientConnection) (e : InterestEvent) :
    (∃ call, e = .start call) ∧ conn.advance e = conn ∨
    (∀ call, e ≠ .start call) ∧
      conn.advance e = { interests := conn.interests.step e, calls := conn.results e } := by
  cases e with
  | start call => exact Or.inl ⟨⟨call, rfl⟩, rfl⟩
  | locked k => exact Or.inr ⟨nofun, rfl⟩
  | resume k written => exact Or.inr ⟨nofun, rfl⟩
  | cancel k => exact Or.inr ⟨nofun, rfl⟩
  | background e => exact Or.inr ⟨nofun, rfl⟩

theorem roles_advance (conn : ClientConnection) (e : InterestEvent) :
    (conn.advance e).roles = conn.roles ∧ (conn.advance e).lefts = conn.lefts := by
  rcases advance_eq conn e with ⟨-, he⟩ | ⟨-, he⟩
  · rw [he]
    exact ⟨rfl, rfl⟩
  · rw [he]
    exact roles_results conn e

/-- A connection that has ended stays so. -/
theorem dead_advance (h : conn.dead = true) (e : InterestEvent) : (conn.advance e).dead = true := by
  rcases advance_eq conn e with ⟨-, he⟩ | ⟨hno, he⟩
  · rw [he]
    exact h
  · rw [he]
    rcases Interests.step_cases conn.interests e hno with ⟨-, -, hdead⟩ | ⟨k, task, -, -, hacts, -⟩
    · exact hdead h
    · exact hacts.dead.trans h

theorem Called.advance (h : Called conn) (e : InterestEvent) : Called (conn.advance e) := by
  obtain ⟨hroles, hlefts⟩ := roles_advance conn e
  rcases advance_eq conn e with ⟨-, he⟩ | ⟨hno, he⟩
  · rw [he]
    exact h
  · have hint : (conn.advance e).interests = conn.interests.step e := by rw [he]
    rcases Interests.step_cases conn.interests e hno with ⟨htasks, -⟩ | ⟨k, task, hk, hne, hacts, -⟩
    · refine ⟨?_, ?_, ?_⟩
      · rw [hroles, hint, htasks]
        exact h.length
      · rw [hroles, hint, htasks]
        exact h.fits
      · rw [hlefts, hint, htasks]
        exact h.left
    · obtain ⟨pc, hown, -⟩ := hacts.own
      refine ⟨?_, fun j role task' hr ht => ?_, fun j task' hl ht => ?_⟩
      · rw [hroles, hint, hacts.length]
        exact h.length
      · rw [hroles] at hr
        rw [hint] at ht
        by_cases hj : j = k
        · subst hj
          rw [hown] at ht
          rw [← Option.some.inj ht]
          exact h.fits j role task hr hk
        · rw [hacts.others j hj] at ht
          exact h.fits j role task' hr ht
      · rw [hlefts] at hl
        rw [hint] at ht
        by_cases hj : j = k
        · subst hj
          exact absurd (h.left j task hl hk) hne
        · rw [hacts.others j hj] at ht
          exact h.left j task' hl ht

/-- An entry that an exit was to take out is kept only if the subscription is back. -/
theorem not_abandons {k : Nat} {f : String} {entry : SubscriptionEntry} {filters : List String}
    (hno : conn.abandons subscriptions k = false)
    (hr : conn.roles[k]? = some (.exit entry.queue))
    (ht : conn.interests.tasks[k]? = some { call := .unsubscribe filters })
    (hf : conn.interests.index.entries.get? f = some entry) : entry.queue ∈ subscriptions := by
  rw [abandons, hr, ht] at hno
  dsimp only [Option.map_some] at hno
  by_contra hnot
  have hmem := mem_ownFilters hf
  have hne : conn.ownFilters entry.queue ≠ [] := List.ne_nil_of_mem hmem
  simp [hnot, hne] at hno

theorem Owned.advance (h : Owned subscriptions conn) (hcalled : Called conn) (e : InterestEvent)
    (hok : conn.orderly subscriptions e = true) : Owned subscriptions (conn.advance e) := by
  obtain ⟨hroles, -⟩ := roles_advance conn e
  rcases advance_eq conn e with ⟨-, he⟩ | ⟨hno, he⟩
  · rw [he]
    exact h
  · have hint : (conn.advance e).interests = conn.interests.step e := by rw [he]
    rcases Interests.step_cases conn.interests e hno with
      ⟨htasks, hindex, -⟩ | ⟨k, task, hk, hne, hacts, hunsub⟩
    · refine ⟨?_, ?_⟩
      · rw [hroles, hint, htasks]
        exact h.subscribing
      · rw [hroles, hint, htasks, hindex]
        exact h.entries
    · obtain ⟨pc, hown, -⟩ := hacts.own
      refine ⟨fun j n role task' hr ht hpc hn => ?_, fun f entry hf => ?_⟩
      · rw [hroles] at hr
        rw [hint] at ht
        by_cases hj : j = k
        · subst hj
          exact h.subscribing j n role task hr hk hne hn
        · rw [hacts.others j hj] at ht
          exact h.subscribing j n role task' hr ht hpc hn
      · rw [hint] at hf ⊢
        rw [hroles]
        rcases hacts.entries f entry hf with hold | ⟨-, filters, a, i, hcall⟩
        · rcases h.entries f entry hold with hin | ⟨j, filters, hr, ht, hmem⟩
          · exact Or.inl hin
          · by_cases hj : j = k
            · subst hj
              obtain rfl : task = { call := .unsubscribe filters } :=
                Option.some.inj (hk.symm.trans ht)
              rcases hunsub filters rfl rfl with hwaits | hreleased | hcancel | ⟨hdead, hlocked⟩
              · exact Or.inr ⟨j, filters, hr, hwaits, hmem⟩
              · rw [hreleased f hmem] at hf
                cases hf
              · rw [hcancel, orderly, Bool.not_eq_true'] at hok
                exact Or.inl (not_abandons hok hr ht hold)
              · have hd : conn.dead = true := hdead
                rw [hlocked, orderly, hd, Bool.not_true, Bool.false_or, Bool.not_eq_true'] at hok
                exact Or.inl (not_abandons hok hr ht hold)
            · refine Or.inr ⟨j, filters, hr, ?_, hmem⟩
              rw [hacts.others j hj]
              exact ht
        · -- a new entry of a call that subscribes
          left
          have hlt : k < conn.roles.length := by
            rw [hcalled.length]
            exact (List.getElem?_eq_some_iff.1 hk).1
          have hr : conn.roles[k]? = some conn.roles[k] := List.getElem?_eq_getElem hlt
          have hfits := hcalled.fits k _ task hr hk
          rw [hcall] at hfits
          refine h.subscribing k entry.queue _ task hr hk hne ?_
          generalize conn.roles[k] = role at hfits
          cases role with
          | enter n =>
            rw [CallRole.fits] at hfits
            simp [CallRole.subscribes, hfits]
          | restore n =>
            rw [CallRole.fits] at hfits
            simp [CallRole.subscribes, hfits]
          | exit n => exact hfits.elim
          | observer => exact hfits.elim

/-! ## Callers that go on -/

theorem roles_leave (conn : ClientConnection) (k : Nat) : (conn.leave k).roles = conn.roles := by
  refine List.ext_getElem? fun j => ?_
  change ((conn.calls.modify k fun call => { call with left := true }).map ClientCall.role)[j]? = _
  rw [roles, List.getElem?_map, List.getElem?_map, List.getElem?_modify]
  cases conn.calls[j]? with
  | none => rfl
  | some call =>
    dsimp
    split <;> rfl

theorem Called.leave (h : Called conn) {k : Nat} {task : InterestTask}
    (hk : conn.interests.tasks[k]? = some task) (hpc : task.pc = .ended) :
    Called (conn.leave k) := by
  refine ⟨?_, ?_, fun j task' hl ht => ?_⟩
  · rw [roles_leave]
    exact h.length
  · rw [roles_leave]
    exact h.fits
  · by_cases hj : j = k
    · subst hj
      rw [← Option.some.inj (hk.symm.trans ht)]
      exact hpc
    · refine h.left j task' ?_ ht
      change ((conn.calls.modify k fun call => { call with left := true }).map ClientCall.left)[j]? = _ at hl
      rw [List.getElem?_map, List.getElem?_modify_ne _ _ (Ne.symm hj)] at hl
      rw [lefts, List.getElem?_map]
      exact hl

theorem Owned.leave (h : Owned subscriptions conn) (k : Nat) : Owned subscriptions (conn.leave k) := by
  refine ⟨?_, ?_⟩
  · rw [roles_leave]
    exact h.subscribing
  · rw [roles_leave]
    exact h.entries

/-- A caller stays inside while its call goes on. -/
theorem inside_of_roles {conn' : ClientConnection} {n : Nat} {call : ClientCall}
    (hroles : conn'.roles = conn.roles) (hlefts : conn'.lefts = conn.lefts) (hin : call ∈ conn.calls)
    (hinside : call.inside n = true) : ∃ call' ∈ conn'.calls, call'.inside n = true := by
  obtain ⟨j, hj⟩ := List.mem_iff_getElem?.1 hin
  have hrole : conn'.roles[j]? = some call.role := by
    rw [hroles, roles, List.getElem?_map, hj]
    rfl
  have hleft : conn'.lefts[j]? = some call.left := by
    rw [hlefts, lefts, List.getElem?_map, hj]
    rfl
  rw [roles, List.getElem?_map] at hrole
  obtain ⟨call', hcall', hrole⟩ := Option.map_eq_some_iff.1 hrole
  rw [lefts, List.getElem?_map, hcall'] at hleft
  refine ⟨call', List.mem_of_getElem? hcall', ?_⟩
  rw [ClientCall.inside, hrole, show call'.left = call.left from Option.some.inj hleft]
  exact hinside

/-- The connection is alive, or ended ones count too. -/
def watched (conn : ClientConnection) (strict : Bool) : Bool := strict || !conn.dead

theorem watched_of_advance {strict : Bool} {e : InterestEvent}
    (h : (conn.advance e).watched strict = true) : conn.watched strict = true := by
  cases hd : conn.dead with
  | false => simp [watched, hd]
  | true =>
    rw [watched, dead_advance hd] at h
    rw [watched, hd]
    exact h

end ClientConnection

namespace SubscriptionClient

open ClientConnection (Called Owned)

variable {s : SubscriptionClient} {c n : Nat} {change : ClientConnection → ClientConnection}

/-! ## Connections -/

theorem mem_modify {conn : ClientConnection} (h : conn ∈ s.connections.modify c change) :
    conn ∈ s.connections ∨ ∃ conn', s.connections[c]? = some conn' ∧ conn = change conn' := by
  obtain ⟨j, hj⟩ := List.mem_iff_getElem?.1 h
  rw [List.getElem?_modify] at hj
  obtain ⟨conn', hconn', rfl⟩ := Option.map_eq_some_iff.1 hj
  split
  · next he => exact Or.inr ⟨conn', he ▸ hconn', rfl⟩
  · exact Or.inl (List.mem_of_getElem? hconn')

theorem current_modify (s : SubscriptionClient) (c : Nat)
    (change : ClientConnection → ClientConnection) :
    (s.modifyConnection c change).current =
      if s.protocol = some c then s.current.map change else s.current := by
  change (s.protocol.bind fun c' => (s.connections.modify c change)[c']?) = _
  rw [current]
  cases s.protocol with
  | none => rfl
  | some c' =>
    rw [Option.bind_some, Option.bind_some, List.getElem?_modify]
    by_cases hc : c = c'
    · subst hc
      simp
    · simp [hc, Ne.symm hc]

theorem active_iff {s : SubscriptionClient} {n : Nat} :
    s.active n = true ↔ n ∈ s.subscriptions ∨
      ∃ conn ∈ s.connections, ∃ call ∈ conn.calls, call.inside n = true := by
  simp [active]

theorem active_modify (h : s.active n = true) (hchange : ∀ conn call, s.connections[c]? = some conn →
      call ∈ conn.calls → call.inside n = true → ∃ call' ∈ (change conn).calls, call'.inside n = true) :
    (s.modifyConnection c change).active n = true := by
  rw [active_iff] at h ⊢
  refine h.imp_right ?_
  rintro ⟨conn, hconn, call, hcall, hinside⟩
  obtain ⟨j, hj⟩ := List.mem_iff_getElem?.1 hconn
  have hget : (s.connections.modify c change)[j]? = some (if c = j then change conn else conn) := by
    rw [List.getElem?_modify, hj]
    by_cases he : c = j <;> simp [he]
  by_cases he : c = j
  · obtain ⟨call', hcall', hinside'⟩ := hchange conn call (he ▸ hj) hcall hinside
    rw [if_pos he] at hget
    exact ⟨change conn, List.mem_of_getElem? hget, call', hcall', hinside'⟩
  · rw [if_neg he] at hget
    exact ⟨conn, List.mem_of_getElem? hget, call, hcall, hinside⟩

/-! ## The invariant -/

/-- The invariant; `strict` counts a current connection that has ended. -/
structure Tidy (strict : Bool) (s : SubscriptionClient) : Prop where
  made : ∀ c, s.protocol = some c → c < s.connections.length
  called : ∀ conn ∈ s.connections, Called conn
  owned : ∀ conn, s.current = some conn → conn.watched strict = true → Owned s.subscriptions conn
  restores : ∀ n ∈ s.toRestore, n ∈ s.subscriptions
  routed : ∀ n ∈ s.routed, s.active n = true
  late : s.late = []

variable {strict : Bool}

theorem mem_of_current {conn : ClientConnection} (h : s.current = some conn) : conn ∈ s.connections := by
  obtain ⟨c, -, hc⟩ := Option.bind_eq_some_iff.1 h
  exact List.mem_of_getElem? hc

/-- One connection changes. -/
theorem Tidy.modify (h : Tidy strict s) (c : Nat) {change : ClientConnection → ClientConnection}
    (hcalled : ∀ conn, s.connections[c]? = some conn → Called conn → Called (change conn))
    (howned : ∀ conn, s.protocol = some c → s.connections[c]? = some conn →
      (change conn).watched strict = true → Owned s.subscriptions (change conn))
    (hinside : ∀ conn call n, n ∈ s.routed → s.connections[c]? = some conn → call ∈ conn.calls →
      call.inside n = true → n ∈ s.subscriptions ∨
        ∃ call' ∈ (change conn).calls, call'.inside n = true) :
    Tidy strict (s.modifyConnection c change) := by
  refine ⟨fun c' hc' => ?_, fun conn hconn => ?_, fun conn hconn hw => ?_, h.restores, fun n hn => ?_,
    h.late⟩
  · have hlt := h.made c' hc'
    rw [modifyConnection, List.length_modify]
    exact hlt
  · rcases mem_modify hconn with hconn | ⟨conn', hc, rfl⟩
    · exact h.called conn hconn
    · exact hcalled conn' hc (h.called conn' (List.mem_of_getElem? hc))
  · rw [current_modify] at hconn
    split at hconn
    · next hp =>
      obtain ⟨conn', hcur, rfl⟩ := Option.map_eq_some_iff.1 hconn
      rw [current, hp] at hcur
      exact howned conn' hp hcur hw
    · exact h.owned conn hconn hw
  · by_cases hsub : n ∈ s.subscriptions
    · exact active_iff.2 (Or.inl hsub)
    · refine active_modify (h.routed n hn) fun conn call hc hcall hi => ?_
      exact (hinside conn call n hn hc hcall hi).resolve_left hsub

theorem owned_of_get (h : Tidy strict s) {conn : ClientConnection} (hp : s.protocol = some c)
    (hc : s.connections[c]? = some conn) (hw : conn.watched strict = true) :
    Owned s.subscriptions conn := by
  refine h.owned conn ?_ hw
  rw [current, hp]
  exact hc

theorem watched_start (conn : ClientConnection) (role : CallRole) (call : InterestCall)
    (strict : Bool) : (conn.start role call).watched strict = conn.watched strict := by
  obtain ⟨hacts, -⟩ := Interests.start_acts conn.interests call
  have hdead : (conn.start role call).dead = conn.dead := hacts.dead
  rw [ClientConnection.watched, ClientConnection.watched, hdead]

theorem mem_start {conn : ClientConnection} {call : ClientCall} (role : CallRole)
    (new : InterestCall) (hcall : call ∈ conn.calls) : call ∈ (conn.start role new).calls :=
  List.mem_append_left _ hcall

/-- A new call that subscribes what is in `_subscriptions`, or nothing. -/
theorem Tidy.start (h : Tidy strict s) (c : Nat) {role : CallRole} {call : InterestCall}
    (hfits : role.fits call) (hsubscribes : ∀ n, role.subscribes n = true → n ∈ s.subscriptions)
    (hqueue : ∀ filters a queue i, call = .subscribe filters a queue i → queue ∈ s.subscriptions) :
    Tidy strict (s.modifyConnection c fun conn => conn.start role call) := by
  refine h.modify c (fun conn _ hcalled => hcalled.start hfits) (fun conn hp hc hw => ?_)
    fun conn call' n _ _ hcall hi => Or.inr ⟨call', mem_start role call hcall, hi⟩
  rw [watched_start] at hw
  exact (owned_of_get h hp hc hw).start (h.called conn (List.mem_of_getElem? hc)) hsubscribes hqueue

theorem Tidy.enter (h : Tidy strict s) (n : Nat) : Tidy strict (s.enter n) := by
  unfold SubscriptionClient.enter
  split
  · next c sub hp hsub =>
    have hgrow : Tidy strict { s with subscriptions := s.subscriptions ++ [n] } := by
      refine ⟨h.made, h.called, fun conn hconn hw => ?_, fun m hm => ?_, fun m hm => ?_, h.late⟩
      · exact (h.owned conn hconn hw).mono (List.subset_append_left _ _)
      · exact List.mem_append_left _ (h.restores m hm)
      · exact active_iff.2 ((active_iff.1 (h.routed m hm)).imp_left (List.mem_append_left _))
    have hnew : n ∈ s.subscriptions ++ [n] := List.mem_append_right _ (List.mem_singleton_self n)
    refine hgrow.start c rfl (fun m hm => ?_) fun filters a queue i hcall => ?_
    · have he : n = m := by simpa [CallRole.subscribes] using hm
      exact he ▸ hnew
    · cases hcall
      exact hnew
  · exact h

/-! ## Exits -/

/-- A subscription leaves that neither the run loop nor a call of its own is still to
    subscribe, that unsubscribes all of its entries, and to which no message is on its way
    if it is gone at once; no exit gives up its UNSUBSCRIBE, and none ends before the messages
    routed to its subscription are put. -/
def orderly (strict : Bool) (s : SubscriptionClient) : ClientEvent → Bool
  | .exit n beingCancelled =>
      !s.subscriptions.contains n || (s.subscriptions.erase n).contains n ||
        !s.toRestore.contains n &&
          match s.unsubscribes n beingCancelled with
          | some (_, filters) => s.current.all fun conn => !conn.watched strict ||
              !conn.subscribing n && (conn.ownFilters n).all filters.contains &&
                (!conn.dead || conn.ownFilters n = [])
          | none => !s.routed.contains n && s.current.all fun conn => !conn.watched strict ||
              !conn.subscribing n && conn.ownFilters n = []
  | .call c e => s.protocol ≠ some c || s.current.all fun conn =>
      !conn.watched strict || conn.orderly s.subscriptions e
  | .leave c k _ =>
      match (s.connections[c]?).bind fun conn => conn.roles[k]? with
      | some (.enter n) | some (.exit n) => s.subscriptions.contains n || !s.routed.contains n
      | _ => true
  | _ => true

/-- `_subscriptions` after an exit of a subscription that was entered twice. -/
theorem subset_erase (h : n ∈ s.subscriptions.erase n) : s.subscriptions ⊆ s.subscriptions.erase n := by
  intro m hm
  by_cases hmn : m = n
  · rw [hmn]
    exact h
  · exact (List.mem_erase_of_ne hmn).2 hm

/-- A subscription leaves without an UNSUBSCRIBE. -/
theorem Tidy.erase (h : Tidy strict s) (hrestore : n ∉ s.toRestore) (hrouted : n ∉ s.routed)
    (hgone : ∀ conn, s.current = some conn → conn.watched strict = true →
      Owned (s.subscriptions.erase n) conn) :
    Tidy strict { s with subscriptions := s.subscriptions.erase n } := by
  refine ⟨h.made, h.called, hgone, fun m hm => ?_, fun m hm => ?_, h.late⟩
  · refine (List.mem_erase_of_ne ?_).2 (h.restores m hm)
    rintro rfl
    exact hrestore hm
  · refine active_iff.2 ((active_iff.1 (h.routed m hm)).imp_left fun hin => ?_)
    refine (List.mem_erase_of_ne ?_).2 hin
    rintro rfl
    exact hrouted hm

/-- A subscription leaves, and its UNSUBSCRIBE is under way. -/
theorem Tidy.unsubscribe (h : Tidy strict s) {conn : ClientConnection} {filters : List String}
    (hp : s.protocol = some c) (hc : s.connections[c]? = some conn) (hrestore : n ∉ s.toRestore)
    (hgone : conn.watched strict = true →
      Owned (s.subscriptions.erase n) (conn.start (.exit n) (.unsubscribe filters))) :
    Tidy strict ({ s with subscriptions := s.subscriptions.erase n }.modifyConnection c fun conn =>
      conn.start (.exit n) (.unsubscribe filters)) := by
  have hactive : ∀ m, s.active m = true →
      (SubscriptionClient.modifyConnection { s with subscriptions := s.subscriptions.erase n } c fun conn =>
        conn.start (.exit n) (.unsubscribe filters)).active m = true := by
    intro m hm
    by_cases hmn : m = n
    · -- the new call is inside
      refine active_iff.2 (Or.inr ⟨conn.start (.exit n) (.unsubscribe filters), ?_,
        { role := .exit n }, List.mem_append_right _ (List.mem_singleton_self _), ?_⟩)
      · refine List.mem_iff_getElem?.2 ⟨c, ?_⟩
        change (s.connections.modify c _)[c]? = _
        rw [List.getElem?_modify_eq, hc]
        rfl
      · simp [ClientCall.inside, hmn]
    · refine active_modify (active_iff.2 ?_) fun conn call _ hcall hi =>
        ⟨call, mem_start _ _ hcall, hi⟩
      exact (active_iff.1 hm).imp_left fun hin => (List.mem_erase_of_ne hmn).2 hin
  refine ⟨fun c' hc' => ?_, fun conn' hconn => ?_, fun conn' hconn hw => ?_, fun m hm => ?_,
    fun m hm => hactive m (h.routed m hm), h.late⟩
  · have hlt := h.made c' hc'
    rw [modifyConnection, List.length_modify]
    exact hlt
  · have hconn : conn' ∈ s.connections.modify c fun conn => conn.start (.exit n) (.unsubscribe filters) :=
      hconn
    rcases mem_modify hconn with hconn | ⟨conn'', hc', rfl⟩
    · exact h.called conn' hconn
    · exact (h.called conn'' (List.mem_of_getElem? hc')).start trivial
  · rw [current_modify, if_pos hp] at hconn
    obtain ⟨conn'', hcur, rfl⟩ := Option.map_eq_some_iff.1 hconn
    have hcur : s.protocol.bind (fun c => s.connections[c]?) = some conn'' := hcur
    rw [hp, Option.bind_some, hc] at hcur
    obtain rfl := Option.some.inj hcur
    rw [watched_start] at hw
    exact hgone hw
  · refine (List.mem_erase_of_ne ?_).2 (h.restores m hm)
    rintro rfl
    exact hrestore hm

theorem Tidy.exit (h : Tidy strict s) (n : Nat) (beingCancelled : Bool)
    (hok : s.orderly strict (.exit n beingCancelled) = true) :
    Tidy strict (s.exit n beingCancelled) := by
  unfold SubscriptionClient.exit
  split
  · next hin =>
    have hsame : SubscriptionClient.unsubscribes { s with subscriptions := s.subscriptions.erase n }
        n beingCancelled = s.unsubscribes n beingCancelled := rfl
    dsimp only
    rw [hsame]
    by_cases hagain : n ∈ s.subscriptions.erase n
    · -- the subscription was entered twice
      have hkept : Tidy strict { s with subscriptions := s.subscriptions.erase n } := by
        refine ⟨h.made, h.called, fun conn hconn hw => ?_, fun m hm => ?_, fun m hm => ?_, h.late⟩
        · exact (h.owned conn hconn hw).mono (subset_erase hagain)
        · exact subset_erase hagain (h.restores m hm)
        · exact active_iff.2 ((active_iff.1 (h.routed m hm)).imp_left fun hm' =>
            subset_erase hagain hm')
      split
      · exact hkept.start _ trivial nofun nofun
      · exact hkept
    · have hone : (!s.subscriptions.contains n || (s.subscriptions.erase n).contains n) = false := by
        simp [hin, hagain]
      rw [orderly, hone, Bool.false_or, Bool.and_eq_true] at hok
      obtain ⟨hrestore, hok⟩ := hok
      have hrestore : n ∉ s.toRestore := by simpa using hrestore
      split
      · next c filters hun =>
        rw [hun] at hok
        have hp : s.protocol = some c := by
          unfold unsubscribes at hun
          split at hun
          · next hp hsub =>
            split at hun
            · cases hun
              exact hp
            · cases hun
          · cases hun
        obtain ⟨conn, hc⟩ : ∃ conn, s.connections[c]? = some conn :=
          ⟨_, List.getElem?_eq_getElem (h.made c hp)⟩
        refine h.unsubscribe hp hc hrestore fun hw => ?_
        have hcur : s.current = some conn := by
          rw [current, hp]
          exact hc
        have hcond := (Option.all_eq_true ..).1 hok conn hcur
        rw [hw, Bool.not_true, Bool.false_or, Bool.and_eq_true, Bool.and_eq_true] at hcond
        obtain ⟨⟨hidle, hall⟩, halive⟩ := hcond
        refine (owned_of_get h hp hc hw).exit (h.called conn (List.mem_of_getElem? hc)) ?_ ?_ ?_
        · simpa using hidle
        · intro f hf
          exact List.contains_iff_mem.1 (List.all_eq_true.1 hall f hf)
        · simpa using halive
      · next hun =>
        rw [hun] at hok
        rw [Bool.and_eq_true] at hok
        obtain ⟨hrouted, hok⟩ := hok
        refine h.erase hrestore (by simpa using hrouted) fun conn hcur hw => ?_
        have hcond := (Option.all_eq_true ..).1 hok conn hcur
        rw [hw, Bool.not_true, Bool.false_or, Bool.and_eq_true] at hcond
        exact (h.owned conn hcur hw).erase (by simpa using hcond.1) (by simpa using hcond.2)
  · exact h

/-! ## The other events -/

theorem Tidy.call (h : Tidy strict s) (c : Nat) (e : InterestEvent)
    (hok : s.orderly strict (.call c e) = true) :
    Tidy strict (s.modifyConnection c fun conn => conn.advance e) := by
  refine h.modify c (fun conn _ hcalled => hcalled.advance e) (fun conn hp hc hw => ?_)
    fun conn call n _ _ hcall hi => ?_
  · have hw' := ClientConnection.watched_of_advance hw
    have hcur : s.current = some conn := by
      rw [current, hp]
      exact hc
    rw [orderly, Bool.or_eq_true] at hok
    have hcond := (Option.all_eq_true ..).1 (hok.resolve_left (by simp [hp])) conn hcur
    rw [hw', Bool.not_true, Bool.false_or] at hcond
    exact (owned_of_get h hp hc hw').advance (h.called conn (List.mem_of_getElem? hc)) e hcond
  · obtain ⟨hroles, hlefts⟩ := ClientConnection.roles_advance conn e
    exact Or.inr (ClientConnection.inside_of_roles hroles hlefts hcall hi)

theorem Tidy.goOn (h : Tidy strict s) (call : ClientCall) (ok : Bool) : Tidy strict (s.goOn call ok) := by
  unfold SubscriptionClient.goOn
  split
  · exact ⟨h.made, h.called, h.owned, h.restores, h.routed, h.late⟩
  · exact ⟨h.made, h.called, h.owned, h.restores, h.routed, h.late⟩
  · exact ⟨h.made, h.called, h.owned, nofun, h.routed, h.late⟩
  all_goals exact h

theorem Tidy.leave (h : Tidy strict s) (c k : Nat) (ok : Bool)
    (hok : s.orderly strict (.leave c k ok) = true) : Tidy strict (s.leave c k ok) := by
  unfold SubscriptionClient.leave
  split
  · exact h
  · next conn hc =>
    split
    · next call task hcall htask =>
      split
      · next hdone =>
        refine Tidy.goOn ?_ call ok
        refine h.modify c (fun conn' hc' hcalled => ?_) (fun conn' hp hc' hw => ?_)
          fun conn' call' n hn hc' hcall' hi => ?_
        · obtain rfl : conn = conn' := Option.some.inj (hc.symm.trans hc')
          exact hcalled.leave htask hdone.1
        · exact (owned_of_get h hp hc' hw).leave k
        · -- the caller that goes on is done with its subscription
          obtain rfl : conn = conn' := Option.some.inj (hc.symm.trans hc')
          obtain ⟨j, hj⟩ := List.mem_iff_getElem?.1 hcall'
          by_cases hjk : j = k
          · subst hjk
            obtain rfl : call = call' := Option.some.inj (hcall.symm.trans hj)
            have hrole : conn.roles[j]? = some call.role := by
              rw [ClientConnection.roles, List.getElem?_map, hcall]
              rfl
            rw [orderly, hc, Option.bind_some, hrole] at hok
            rw [ClientCall.inside, Bool.and_eq_true, Bool.or_eq_true] at hi
            have hsub : (s.subscriptions.contains n || !s.routed.contains n) = true := by
              rcases hi.2 with he | he
              · rw [of_decide_eq_true he] at hok
                exact hok
              · rw [of_decide_eq_true he] at hok
                exact hok
            left
            simpa [hn] using hsub
          · right
            refine ⟨call', List.mem_of_getElem? (i := j) ?_, hi⟩
            change (conn.calls.modify k _)[j]? = _
            rw [List.getElem?_modify_ne _ _ (Ne.symm hjk)]
            exact hj
      · exact h
    · exact h

theorem Tidy.connect (h : Tidy strict s) (version : Version) (maxPublishQos : QoS)
    (strippedPrefixes : List String) :
    Tidy strict (s.connect version maxPublishQos strippedPrefixes) := by
  unfold SubscriptionClient.connect
  split
  · refine ⟨fun c hc => ?_, fun conn hconn => ?_, fun conn hconn _ => ?_, fun n hn => ?_, fun n hn => ?_,
      h.late⟩
    · cases hc
      rw [List.length_append]
      exact Nat.lt_succ_self _
    · rcases List.mem_append.1 hconn with hconn | hconn
      · exact h.called conn hconn
      · rw [List.mem_singleton.1 hconn]
        exact ⟨rfl, nofun, nofun⟩
    · -- the new index is empty
      have hget : (s.connections ++ [{
            interests := Interests.fresh version maxPublishQos strippedPrefixes }])[
          s.connections.length]? = some conn := hconn
      rw [List.getElem?_concat_length] at hget
      rw [← Option.some.inj hget]
      exact ⟨nofun, nofun⟩
    · refine h.restores n ?_
      dsimp only at hn
      split at hn
      · exact hn
      · cases hn
    · refine active_iff.2 ((active_iff.1 (h.routed n hn)).imp_right ?_)
      rintro ⟨conn, hconn, hcall⟩
      exact ⟨conn, List.mem_append_left _ hconn, hcall⟩
  · exact h

theorem Tidy.restoreNext (h : Tidy strict s) : Tidy strict s.restoreNext := by
  unfold SubscriptionClient.restoreNext
  split
  · next n toRestore c hn hp _ =>
    split
    · next conn sub hc hsub =>
      split
      · exact h
      · have hin : n ∈ s.subscriptions := h.restores n (by rw [hn]; exact List.mem_cons_self)
        have hrest : Tidy strict { s with toRestore, restoreCall := some conn.calls.length } := by
          refine ⟨h.made, h.called, h.owned, fun m hm => h.restores m ?_, h.routed, h.late⟩
          rw [hn]
          exact List.mem_cons_of_mem n hm
        refine hrest.start c rfl (fun m hm => ?_) fun filters a queue i hcall => ?_
        · have he : n = m := by simpa [CallRole.subscribes] using hm
          exact he ▸ hin
        · cases hcall
          exact hin
    · exact h
  · exact h

theorem Tidy.observe (h : Tidy strict s) (add : Bool) (topic : String) :
    Tidy strict (s.observe add topic) := by
  unfold SubscriptionClient.observe
  split
  · cases add with
    | true => exact h.start _ trivial nofun nofun
    | false => exact h.start _ trivial nofun nofun
  · exact h

/-- A subscription with an entry is in `_subscriptions`, or its exit waits. -/
theorem Tidy.active (h : Tidy strict s) {conn : ClientConnection} {f : String}
    {entry : SubscriptionEntry} (hconn : s.current = some conn) (hw : conn.watched strict = true)
    (hf : conn.interests.index.entries.get? f = some entry) : s.active entry.queue = true := by
  refine active_iff.2 (((h.owned conn hconn hw).entries f entry hf).imp_right ?_)
  rintro ⟨k, filters, hr, ht, -⟩
  have hcalled := h.called conn (mem_of_current hconn)
  obtain ⟨call, hcall, hrole⟩ : ∃ call, conn.calls[k]? = some call ∧
      call.role = .exit entry.queue := by
    rw [ClientConnection.roles, List.getElem?_map] at hr
    exact Option.map_eq_some_iff.1 hr
  refine ⟨conn, mem_of_current hconn, call, List.mem_of_getElem? hcall, ?_⟩
  have hleft : call.left = false := by
    by_contra hl
    have hlefts : conn.lefts[k]? = some true := by
      rw [ClientConnection.lefts, List.getElem?_map, hcall]
      exact congrArg some (Bool.eq_true_of_not_eq_false hl)
    cases hcalled.left k _ hlefts ht
  simp [ClientCall.inside, hleft, hrole]

/-- A message goes to a subscription that has an entry. -/
theorem Tidy.route (h : Tidy strict s) (filter : String) : Tidy strict (s.route filter) := by
  unfold SubscriptionClient.route
  split
  · exact h
  · next conn hconn =>
    split
    · next entry hf =>
      split
      · exact h
      · next halive =>
        refine ⟨h.made, h.called, h.owned, h.restores, fun n hn => ?_, h.late⟩
        rcases List.mem_append.1 hn with hn | hn
        · exact h.routed n hn
        · rw [List.mem_singleton.1 hn]
          exact h.active hconn (by simp [ClientConnection.watched, halive]) hf
    · exact h

theorem Tidy.put (h : Tidy strict s) (j : Nat) : Tidy strict (s.put j) := by
  unfold SubscriptionClient.put
  split
  · exact h
  · next n hn =>
    refine ⟨h.made, h.called, h.owned, h.restores,
      fun m hm => h.routed m ((List.eraseIdx_sublist _ _).subset hm), ?_⟩
    dsimp only
    rw [if_pos (h.routed n (List.mem_of_getElem? hn))]
    exact h.late

theorem Tidy.step (h : Tidy strict s) (e : ClientEvent) (hok : s.orderly strict e = true) :
    Tidy strict (s.step e) := by
  cases e with
  | connect version maxPublishQos strippedPrefixes =>
    exact h.connect version maxPublishQos strippedPrefixes
  | lose =>
    rw [SubscriptionClient.step, lose]
    split
    · exact ⟨h.made, h.called, h.owned, fun _ hn => hn, h.routed, h.late⟩
    · exact h
  | endLoop =>
    rw [SubscriptionClient.step, endLoop]
    split
    · exact ⟨h.made, h.called, h.owned, nofun, h.routed, h.late⟩
    · exact h
  | disconnect =>
    rw [SubscriptionClient.step, disconnect]
    split
    · exact ⟨nofun, h.called, nofun, nofun, h.routed, h.late⟩
    · exact h
  | create sub => exact ⟨h.made, h.called, h.owned, h.restores, h.routed, h.late⟩
  | enter n => exact h.enter n
  | exit n beingCancelled => exact h.exit n beingCancelled hok
  | observe add topic => exact h.observe add topic
  | restoreNext => exact h.restoreNext
  | call c e => exact h.call c e hok
  | leave c k ok => exact h.leave c k ok hok
  | route filter => exact h.route filter
  | put j => exact h.put j
  | drop j =>
    exact ⟨h.made, h.called, h.owned, h.restores,
      fun m hm => h.routed m ((List.eraseIdx_sublist _ _).subset hm), h.late⟩

/-- Every entry of the current connection has the queue of a subscription that is in
    `_subscriptions` or inside its own `__aenter__` or `__aexit__`, and no message was put into
    the queue of any other; `strict` counts a current connection that has ended. -/
structure NoOrphans (strict : Bool) (s : SubscriptionClient) : Prop where
  entries : ∀ conn f entry, s.current = some conn → conn.watched strict = true →
    conn.interests.index.entries.get? f = some entry → s.active entry.queue = true
  late : s.late = []

/-- **No orphans.** In every run whose steps are all orderly, over any number of
    subscriptions, calls, connections and restorations. -/
theorem no_orphans (strict : Bool)
    (h : Reach step (fun s e => s.orderly strict e = true) start s) : NoOrphans strict s := by
  have htidy : Tidy strict s := by
    refine h.invariant ⟨nofun, nofun, nofun, nofun, nofun, rfl⟩ fun s e hs hok => hs.step e hok
  exact ⟨fun conn f entry hconn hw hf => htidy.active hconn hw hf, htidy.late⟩

/-- Subscription `n` of one filter is subscribed by call `k` of connection `c`. -/
def subscribedBy (c k : Nat) (pid : Int) : List ClientEvent :=
  [.call c (.resume k true),
    .call c (.background (.receive (.suback { packetId := pid, returnCodes := [0] }))),
    .call c (.resume k true), .leave c k true]

/-- A subscription is entered, and its connection is lost. -/
def lostRun : List ClientEvent :=
  [.connect .v5 .exactlyOnce [], .create { filters := [{ topicFilter := "a", qos := .atMostOnce }] },
    .enter 0] ++ subscribedBy 0 0 1 ++ [.call 0 (.background .runExit), .lose]

/-- The subscription is restored and gets a message; then it exits. -/
def restoredRun : List ClientEvent :=
  lostRun ++ [.connect .v5 .exactlyOnce [], .restoreNext] ++ subscribedBy 1 0 1 ++
    [.route "a", .put 0, .exit 0 false, .call 1 (.resume 1 true)]

theorem no_orphans_restoredRun :
    (restoredRun.foldl step start).subscriptions = [] ∧
    NoOrphans true (restoredRun.foldl step start) := by
  refine ⟨by decide +kernel, no_orphans true (Reach.foldl ?_)⟩
  refine ⟨?_, ?_, ?_, ?_, ?_, ?_, ?_, ?_, ?_, ?_, ?_, ?_, ?_, ?_, ?_, ?_, ?_, ?_, ?_, trivial⟩ <;>
    decide +kernel

/-- The subscription exits during the reconnect; it is subscribed again, and a message is put
    into its queue. -/
def stoppedRun : List ClientEvent :=
  lostRun ++ [.exit 0 false, .leave 0 1 true, .connect .v5 .exactlyOnce [], .restoreNext] ++
    subscribedBy 1 0 1 ++ [.route "a", .put 0]

theorem stopped_subscription_restored :
    (¬ ∀ s, Reach step anyStep start s → NoOrphans false s) ∧
    (stoppedRun.foldl step start).subscriptions = [] ∧
    (stoppedRun.foldl step start).late = [0] := by
  have hlate : (stoppedRun.foldl step start).late = [0] := by decide +kernel
  refine ⟨fun h => ?_, by decide +kernel, hlate⟩
  have hnone := (h _ (Reach.foldl (meets_anyStep stoppedRun))).late
  rw [hlate] at hnone
  cases hnone

end SubscriptionClient

end Zmqtt
