/-
  What the application sees of the connection: `connection_info` and the failure signal.

  A snapshot is made by each successful handshake and shown while the run task has not left the
  `try` block around that connection (`Shows`); `_notify_subscription_failure` passes on how the run
  task ended.
-/
import Zmqtt.Client.Disconnects

namespace Zmqtt

/-- A CONNACK that ends the handshake carries return code 0. -/
theorem returnCode_of_acceptConnack {version : Version} {pkt : Packet} {connack : ConnAck} {qos : QoS}
    (h : acceptConnack version pkt = .ok (connack, qos)) : connack.returnCode = 0 := by
  obtain rfl := acceptConnack_eq_ok h
  unfold acceptConnack at h
  dsimp only at h
  split at h
  · cases h
  · next hcode => exact not_not.1 hcode

theorem returnCode_of_connackRead {version : Version} {buf data rest : Bytes} {connack : ConnAck}
    (h : Retry.connackRead version buf data = .ok (some connack, rest)) : connack.returnCode = 0 := by
  unfold Retry.connackRead at h
  split at h
  · cases h
  · cases h
  · split at h
    · cases h
    · next c qos hc =>
      cases h
      exact returnCode_of_acceptConnack hc

/-- A reconnect that succeeds was accepted. -/
theorem Retry.connected_of_step {config : ClientConfig} {reconnect : ReconnectConfig}
    {transports : List StreamTransport} {r : Retry} {e : RetryEvent} {t : Nat} {connack : ConnAck}
    (h : (r.step config reconnect transports e).1 = .connected t connack) : connack.returnCode = 0 := by
  have hfails : ∀ e, r.attemptFails reconnect e ≠ .connected t connack := by
    intro e hc
    unfold attemptFails at hc
    cases e with
    | osError | timeout =>
      dsimp only at hc
      split at hc
      · cases hc
      · cases hc
    | _ => cases hc
  unfold Retry.step at h
  split at h
  · cases h
  · dsimp only at h
    split at h
    · cases h
    · cases h
  · exact absurd h (hfails _)
  · cases h
  · cases h
  · split at h
    · cases h
    · cases h
    · next hread =>
      cases h
      exact returnCode_of_connackRead hread
  · cases h
  · cases h
  · cases h
  · exact absurd h (hfails _)
  · cases h
  · cases h

namespace Client

/-- The connection of the newest snapshot is in use, and no `__aexit__` has stopped it. -/
def Shows (s : Client) : Prop :=
  s.runTask = some .starting ∧ s.main = .resting ∨
    s.runTask = some .serving ∧ (s.main = .resting ∨ s.main = .cancellingPending)

/-- The snapshots so far. -/
structure Snapshots (config : ClientConfig) (s : Client) : Prop where
  configured : s.config = config
  count : s.connectionId = s.infos.length
  numbered : ∀ k info, s.infos[k]? = some info → info.connectionId + k = s.infos.length
  negotiated : ∀ info ∈ s.infos, ∃ connack : ConnAck, connack.returnCode = 0 ∧
    info = .fromConnack config.connectPacket connack config.version info.connectionId
  current : ∀ info, s.connectionInfo = some info → s.infos.head? = some info ∧ s.Shows

/-- No snapshot was made. -/
structure SameInfos (s s' : Client) : Prop where
  config : s'.config = s.config
  connectionId : s'.connectionId = s.connectionId
  infos : s'.infos = s.infos

variable {config : ClientConfig} {s s' : Client}

theorem Snapshots.keeps (h : Snapshots config s) (hsame : SameInfos s s')
    (hinfo : ∀ info, s'.connectionInfo = some info → s.connectionInfo = some info ∧ s'.Shows) :
    Snapshots config s' := by
  refine ⟨hsame.config.trans h.configured, ?_, ?_, ?_, fun info hi => ?_⟩
  · rw [hsame.connectionId, hsame.infos]
    exact h.count
  · rw [hsame.infos]
    exact h.numbered
  · rw [hsame.infos]
    exact h.negotiated
  · obtain ⟨hold, hshows⟩ := hinfo info hi
    rw [hsame.infos]
    exact ⟨(h.current info hold).1, hshows⟩

/-- Nothing is shown. -/
theorem Snapshots.hides (h : Snapshots config s) (hsame : SameInfos s s')
    (hnone : s'.connectionInfo = none) : Snapshots config s' :=
  h.keeps hsame fun info hi => (by rw [hnone] at hi; cases hi)

theorem Snapshots.hidden (h : Snapshots config s) (hnot : ¬ s.Shows) : s.connectionInfo = none := by
  cases hi : s.connectionInfo with
  | none => rfl
  | some info => exact absurd (h.current info hi).2 hnot

/-- A handshake makes the next snapshot. -/
theorem Snapshots.establish (h : Snapshots config s) {t : Nat} {connack : ConnAck}
    (hcode : connack.returnCode = 0) (hsame : SameInfos (s.establish t connack) s')
    (hinfo : s'.connectionInfo = (s.establish t connack).connectionInfo) (hshows : s'.Shows) :
    Snapshots config s' := by
  have hinfos := hsame.infos
  unfold Client.establish at hinfos
  dsimp only at hinfos
  have hid : ∀ connect version n,
      (ConnectionInfo.fromConnack connect connack version n).connectionId = n := by
    intro connect version n
    unfold ConnectionInfo.fromConnack
    dsimp only
    split
    · rfl
    · rfl
  refine ⟨hsame.config.trans h.configured, ?_, fun k info hk => ?_, fun info hi => ?_, fun info hi => ?_⟩
  · rw [hsame.connectionId, hinfos]
    show ConnectionInfo.connectionId _ = _
    rw [hid, h.count]
    rfl
  · rw [hinfos] at hk ⊢
    rw [List.length_cons]
    cases k with
    | zero =>
      obtain rfl := Option.some.inj hk
      rw [hid, h.count]
    | succ k =>
      have hold := h.numbered k info hk
      omega
  · rw [hinfos] at hi
    rcases List.mem_cons.1 hi with rfl | hi
    · refine ⟨connack, hcode, ?_⟩
      rw [hid, h.configured]
    · exact h.negotiated info hi
  · rw [hinfo] at hi
    obtain rfl := Option.some.inj hi
    rw [hinfos]
    exact ⟨rfl, hshows⟩

theorem not_shows_of_run {phase : RunPhase} (hrun : s.runTask = some phase)
    (hstarting : phase ≠ .starting) (hserving : phase ≠ .serving) : ¬ s.Shows := by
  rintro (⟨h, -⟩ | ⟨h, -⟩)
  · exact hstarting (Option.some.inj (hrun.symm.trans h))
  · exact hserving (Option.some.inj (hrun.symm.trans h))

theorem not_shows_of_idle (hrun : s.runTask = none) : ¬ s.Shows := by
  rintro (⟨h, -⟩ | ⟨h, -⟩)
  · rw [hrun] at h
    cases h
  · rw [hrun] at h
    cases h

theorem not_shows_of_main (hresting : s.main ≠ .resting) (hpending : s.main ≠ .cancellingPending) :
    ¬ s.Shows := by
  rintro (⟨-, h⟩ | ⟨-, h | h⟩)
  · exact hresting h
  · exact hresting h
  · exact hpending h

theorem Stopping.not_shows (h : s.Stopping) : ¬ s.Shows := by
  obtain ⟨phase, hrun, hstop⟩ := h
  refine not_shows_of_run hrun (fun h => ?_) fun h => ?_
  · rw [h] at hstop
    cases hstop
  · rw [h] at hstop
    cases hstop

/-! ## Steps -/

theorem sameInfos_closeProtocol (s : Client) : SameInfos s s.closeProtocol ∧
    s.closeProtocol.connectionInfo = s.connectionInfo := by
  unfold closeProtocol
  split
  · exact ⟨⟨rfl, rfl, rfl⟩, rfl⟩
  · exact ⟨⟨rfl, rfl, rfl⟩, rfl⟩

theorem sameInfos_notify (s : Client) (awaiting afterwards : RunPhase) :
    SameInfos s (s.notifyConnectionRecoveryFailed awaiting afterwards) ∧
      (s.notifyConnectionRecoveryFailed awaiting afterwards).connectionInfo = s.connectionInfo := by
  unfold notifyConnectionRecoveryFailed
  split
  · exact ⟨⟨rfl, rfl, rfl⟩, rfl⟩
  · exact ⟨⟨rfl, rfl, rfl⟩, rfl⟩

/-- `__aenter__` shows nothing until it has returned. -/
theorem Snapshots.entered (h : Snapshots config s) {r : Retry} (hmain : s.main = .entering r)
    {after : RetryResult × List StreamTransport}
    (hcode : ∀ t connack, after.1 = .connected t connack → connack.returnCode = 0) :
    Snapshots config (s.entered after) := by
  have hhidden : s.connectionInfo = none := by
    refine h.hidden (not_shows_of_main ?_ ?_)
    · rw [hmain]
      exact fun h => by cases h
    · rw [hmain]
      exact fun h => by cases h
  obtain ⟨result, transports⟩ := after
  cases result with
  | continues r' => exact h.hides ⟨rfl, rfl, rfl⟩ hhidden
  | connected t connack =>
    exact h.establish (t := t) (hcode t connack rfl) ⟨rfl, rfl, rfl⟩ rfl (Or.inl ⟨rfl, rfl⟩)
  | raised e => exact h.hides ⟨rfl, rfl, rfl⟩ hhidden

/-- A reconnect shows nothing until it has succeeded. -/
theorem Snapshots.reconnected (h : Snapshots config s) {r : Retry}
    (hrun : s.runTask = some (.reconnecting r)) {after : RetryResult × List StreamTransport}
    (hcode : ∀ t connack, after.1 = .connected t connack → connack.returnCode = 0 ∧
      (s.main = .resting ∨ s.main = .cancellingPending)) :
    Snapshots config (s.reconnected after) := by
  have hhidden : s.connectionInfo = none :=
    h.hidden (not_shows_of_run hrun (fun h => by cases h) fun h => by cases h)
  obtain ⟨result, transports⟩ := after
  cases result with
  | continues r' => exact h.hides ⟨rfl, rfl, rfl⟩ hhidden
  | connected t connack =>
    obtain ⟨hcode, hmain⟩ := hcode t connack rfl
    exact h.establish (t := t) hcode ⟨rfl, rfl, rfl⟩ rfl (Or.inr ⟨rfl, hmain⟩)
  | raised e =>
    have hnotify : ∀ awaiting afterwards, Snapshots config
        ({ s with transports }.notifyConnectionRecoveryFailed awaiting afterwards) := by
      intro awaiting afterwards
      obtain ⟨hsame, hinfo⟩ :=
        sameInfos_notify { s with transports := transports } awaiting afterwards
      exact h.hides ⟨hsame.config, hsame.connectionId, hsame.infos⟩ (hinfo.trans hhidden)
    have hfails : ∀ result, Snapshots config ({ s with transports }.runEnds result) :=
      fun result => h.hides ⟨rfl, rfl, rfl⟩ hhidden
    rcases e with _ | e
    · exact hfails _
    · cases e with
      | osError => exact hnotify _ _
      | timeout => exact hnotify _ _
      | connectError code => exact hnotify _ _
      | disconnected => exact hfails _
      | protocolError => exact hfails _
      | other => exact hfails _

/-- What ends the `try` block clears `connection_info`. -/
theorem Snapshots.servingEnds (h : Snapshots config s) (raises : Option ClientError) :
    Snapshots config (s.servingEnds raises) := by
  have hlost : ∀ awaiting afterwards, Snapshots config (if s.reconnect.enabled then
      { s.closeProtocol with connectionInfo := none, runTask := some .closing }
      else { s with connectionInfo := none }.notifyConnectionRecoveryFailed awaiting afterwards) := by
    intro awaiting afterwards
    split
    · obtain ⟨hsame, -⟩ := sameInfos_closeProtocol s
      exact h.hides ⟨hsame.config, hsame.connectionId, hsame.infos⟩ rfl
    · obtain ⟨hsame, hinfo⟩ := sameInfos_notify { s with connectionInfo := none } awaiting afterwards
      exact h.hides ⟨hsame.config, hsame.connectionId, hsame.infos⟩ hinfo
  rcases raises with _ | e
  · exact h.hides ⟨rfl, rfl, rfl⟩ rfl
  · cases e with
    | disconnected => exact hlost _ _
    | timeout => exact hlost _ _
    | osError => exact h.hides ⟨rfl, rfl, rfl⟩ rfl
    | connectError code => exact h.hides ⟨rfl, rfl, rfl⟩ rfl
    | protocolError => exact h.hides ⟨rfl, rfl, rfl⟩ rfl
    | other => exact h.hides ⟨rfl, rfl, rfl⟩ rfl

/-- Only `__aexit__` cancels the run task, and it clears `connection_info` first. -/
theorem Snapshots.cancelRun (h : Snapshots config s) (hmain : s.main ≠ .resting) :
    Snapshots config s.cancelRun := by
  have hstarting : s.runTask = some .starting → s.connectionInfo = none := by
    intro hrun
    refine h.hidden ?_
    rintro (⟨-, hm⟩ | ⟨hs, -⟩)
    · exact hmain hm
    · rw [hrun] at hs
      cases hs
  unfold Client.cancelRun
  split
  · exact h
  · exact h
  · next hrun => exact h.hides ⟨rfl, rfl, rfl⟩ (hstarting hrun)
  · next hrun =>
    exact h.hides ⟨rfl, rfl, rfl⟩
      (h.hidden (not_shows_of_run hrun (fun h => by cases h) fun h => by cases h))
  · exact h.hides ⟨rfl, rfl, rfl⟩ rfl
  · exact h.hides ⟨rfl, rfl, rfl⟩ rfl
  · exact h.hides ⟨rfl, rfl, rfl⟩ rfl
  · exact h.hides ⟨rfl, rfl, rfl⟩ rfl
  · next r hrun =>
    refine h.reconnected hrun fun t connack hc => ?_
    rcases retryCancel_cases s.transports r with hr | ⟨u, hr⟩
    · rw [hr] at hc
      cases hc
    · rw [hr] at hc
      cases hc

theorem Snapshots.stepRun (h : Snapshots config s) (hs : Sound s) {phase : RunPhase}
    (hrun : s.runTask = some phase) (e : LifeEvent) : Snapshots config (s.stepRun phase e) := by
  have hhidden : phase ≠ .starting → phase ≠ .serving → s.connectionInfo = none :=
    fun hstarting hserving => h.hidden (not_shows_of_run hrun hstarting hserving)
  have hserving : ∀ s' : Client, SameInfos s s' → s'.connectionInfo = s.connectionInfo →
      s'.runTask = s.runTask → s'.main = s.main → Snapshots config s' := by
    intro s' hsame hinfo hrun' hmain'
    refine h.keeps hsame fun info hi => ⟨hinfo.symm.trans hi, ?_⟩
    unfold Shows
    rw [hrun', hmain']
    exact (h.current info (hinfo.symm.trans hi)).2
  unfold Client.stepRun
  split
  · split
    · next hnone => exact absurd (Option.isNone_iff_eq_none.1 hnone) (hs.protocol_ne hrun)
    · refine h.keeps ⟨rfl, rfl, rfl⟩ fun info hi => ⟨hi, ?_⟩
      rcases (h.current info hi).2 with ⟨-, hm⟩ | ⟨hr, -⟩
      · exact Or.inr ⟨rfl, Or.inl hm⟩
      · rw [hrun] at hr
        cases hr
  · exact h.servingEnds _
  · split
    · exact h
    · exact hserving _ ⟨rfl, rfl, rfl⟩ rfl rfl rfl
  · obtain ⟨hsame, hinfo⟩ := sameInfos_closeProtocol s
    obtain ⟨hm, -, hr⟩ := closeProtocol_frame s
    exact hserving _ hsame hinfo hr hm
  · exact h.hides ⟨rfl, rfl, rfl⟩ (hhidden (fun h => by cases h) fun h => by cases h)
  · exact h.hides ⟨rfl, rfl, rfl⟩ (hhidden (fun h => by cases h) fun h => by cases h)
  · exact h.hides ⟨rfl, rfl, rfl⟩ (hhidden (fun h => by cases h) fun h => by cases h)
  · exact h.hides ⟨rfl, rfl, rfl⟩ (hhidden (fun h => by cases h) fun h => by cases h)
  · exact h.hides ⟨rfl, rfl, rfl⟩ (hhidden (fun h => by cases h) fun h => by cases h)
  · exact h.hides ⟨rfl, rfl, rfl⟩ rfl
  · exact h

theorem Snapshots.disconnect (h : Snapshots config s) (hnone : s.connectionInfo = none) :
    Snapshots config s.disconnect := by
  unfold Client.disconnect
  split
  · exact h.hides ⟨rfl, rfl, rfl⟩ hnone
  · exact h.hides ⟨rfl, rfl, rfl⟩ hnone

/-- `__aexit__` cancels the run task and waits for it. -/
theorem Snapshots.cancelAndJoin (h : Snapshots config s) (hmain : s.main ≠ .resting)
    (hrun : s.runTask ≠ none) (interrupted : Bool) :
    Snapshots config { s.cancelRun with main := .joining interrupted } := by
  have hcancel := h.cancelRun hmain
  exact hcancel.hides ⟨rfl, rfl, rfl⟩ (hcancel.hidden (cancelRun_stopping hrun).not_shows)

theorem Snapshots.interrupt (h : Snapshots config s) (hj : s.Joins) :
    Snapshots config s.interrupt := by
  have hhidden : s.main ≠ .resting → s.main ≠ .cancellingPending → s.connectionInfo = none :=
    fun hresting hpending => h.hidden (not_shows_of_main hresting hpending)
  unfold Client.interrupt
  split
  · exact h
  · next r hm =>
    refine h.entered hm fun t connack hc => ?_
    rcases retryCancel_cases s.transports r with hr | ⟨u, hr⟩
    · rw [hr] at hc
      cases hc
    · rw [hr] at hc
      cases hc
  · next b hm =>
    obtain ⟨phase, hrun, -⟩ := hj b hm
    exact h.cancelAndJoin (hm ▸ fun h => by cases h) (hrun ▸ Option.some_ne_none phase) true
  · next hm =>
    refine h.keeps ⟨rfl, rfl, rfl⟩ fun info hi => ⟨hi, ?_⟩
    rcases (h.current info hi).2 with ⟨-, hr⟩ | ⟨hr, -⟩
    · rw [hm] at hr
      cases hr
    · exact Or.inr ⟨hr, Or.inl rfl⟩
  · next hm =>
    exact h.hides ⟨rfl, rfl, rfl⟩ (hhidden (hm ▸ fun h => by cases h) (hm ▸ fun h => by cases h))
  · next hm =>
    exact h.hides ⟨rfl, rfl, rfl⟩ (hhidden (hm ▸ fun h => by cases h) (hm ▸ fun h => by cases h))

theorem Snapshots.stepRetry (h : Snapshots config s) (hs : Sound s) (hj : s.Joins) (e : RetryEvent) :
    Snapshots config (s.stepRetry e) := by
  unfold Client.stepRetry
  split
  · next hm => exact h.entered hm fun t connack hc => Retry.connected_of_step hc
  · next r hrun _ =>
    refine h.reconnected hrun fun t connack hc => ⟨Retry.connected_of_step hc, ?_⟩
    cases hm : s.main with
    | resting => exact Or.inl rfl
    | cancellingPending => exact Or.inr rfl
    | joining interrupted =>
      -- a reconnect that was cancelled does not succeed any more
      obtain ⟨phase, hphase, hstop⟩ := hj interrupted hm
      obtain rfl : RunPhase.reconnecting r = phase := Option.some.inj (hrun.symm.trans hphase)
      rcases retryStep_of_stopping s.config s.reconnect s.transports hstop e with hstep | hstep
      · rw [hstep] at hc
        cases hc
      · rw [hstep] at hc
        cases hc
    | entering r => exact absurd (hs.letsRun hrun) (by rw [hm]; exact Bool.false_ne_true)
    | disconnecting t => exact absurd (hs.letsRun hrun) (by rw [hm]; exact Bool.false_ne_true)
    | closing t => exact absurd (hs.letsRun hrun) (by rw [hm]; exact Bool.false_ne_true)
  · exact h

theorem Snapshots.step (h : Snapshots config s) (hs : Sound s) (hj : s.Joins) (e : LifeEvent) :
    Snapshots config (s.step e) := by
  have hhidden : s.main ≠ .resting → s.main ≠ .cancellingPending → s.connectionInfo = none :=
    fun hresting hpending => h.hidden (not_shows_of_main hresting hpending)
  unfold Client.step
  split
  · split
    · next hnone =>
      exact h.hides ⟨rfl, rfl, rfl⟩ (h.hidden (not_shows_of_idle (Option.isNone_iff_eq_none.1 hnone.2)))
    · exact h
  · exact h.hides ⟨rfl, rfl, rfl⟩ rfl
  · next hm =>
    unfold stopRunTask
    split
    · next hrun => exact h.disconnect (h.hidden (not_shows_of_idle hrun))
    · next hrun =>
      exact h.cancelAndJoin (hm ▸ fun h => by cases h) (hrun ▸ Option.some_ne_none _) false
  · next b hm =>
    have hnone := hhidden (hm ▸ fun h => by cases h) (hm ▸ fun h => by cases h)
    split
    · split
      · exact h.hides ⟨rfl, rfl, rfl⟩ hnone
      · refine Snapshots.disconnect ?_ hnone
        exact h.hides ⟨rfl, rfl, rfl⟩ hnone
    · exact h
  · next hm =>
    exact h.hides ⟨rfl, rfl, rfl⟩ (hhidden (hm ▸ fun h => by cases h) (hm ▸ fun h => by cases h))
  · next hm =>
    exact h.hides ⟨rfl, rfl, rfl⟩ (hhidden (hm ▸ fun h => by cases h) (hm ▸ fun h => by cases h))
  · exact h.interrupt hj
  · exact h.stepRetry hs hj _
  · split
    · exact h
    · next phase hrun => exact h.stepRun hs hrun _

theorem snapshots_new (config : ClientConfig) (reconnect : ReconnectConfig) (callback : Bool) :
    Snapshots config (new config reconnect callback) :=
  ⟨rfl, rfl, fun k info hk => (by cases hk), fun info hi => (by cases hi), fun info hi => (by cases hi)⟩

/-- **`connection_info` is that of the connection in use.** In every run the handshakes are numbered
    from 1 without gaps, each snapshot is made from the CONNECT of the configuration and a CONNACK that
    accepts it, and `connection_info` shows a snapshot only while the run task is about to serve or
    serves a connection, and then the newest: never before the first connection, during a reconnect
    or after the run task has ended. -/
theorem connection_info_current (config : ClientConfig) (reconnect : ReconnectConfig)
    (callback : Bool) (s : Client) (h : Reach step anyStep (new config reconnect callback) s) :
    s.infos.map ConnectionInfo.connectionId = (List.range' 1 s.connectionId).reverse ∧
    (∀ info ∈ s.infos, ∃ connack : ConnAck, connack.returnCode = 0 ∧
      info = .fromConnack config.connectPacket connack config.version info.connectionId) ∧
    ∀ info, s.connectionInfo = some info → s.infos.head? = some info ∧
      (s.runTask = some .starting ∨ s.runTask = some .serving) := by
  have hinv : Snapshots config s ∧ Sound s ∧ s.Joins := by
    refine Reach.invariant (I := fun s => Snapshots config s ∧ Sound s ∧ s.Joins) h
      ⟨snapshots_new config reconnect callback, sound_new config reconnect callback,
        joins_of_main fun b hm => by cases hm⟩ fun s e hs _ => ?_
    exact ⟨hs.1.step hs.2.1 hs.2.2 e, hs.2.1.step e, hs.2.2.step e⟩
  obtain ⟨hs, -, -⟩ := hinv
  refine ⟨?_, hs.negotiated, fun info hi => ⟨(hs.current info hi).1, ?_⟩⟩
  · refine List.ext_getElem? fun k => ?_
    rw [List.getElem?_map, hs.count]
    rcases Nat.lt_or_ge k s.infos.length with hk | hk
    · have hnum := hs.numbered k _ (List.getElem?_eq_getElem hk)
      rw [List.getElem?_eq_getElem hk, List.getElem?_reverse (by simpa using hk), List.length_range',
        List.getElem?_range' (by omega)]
      refine congrArg some ?_
      show (s.infos[k]).connectionId = _
      omega
    · rw [List.getElem?_eq_none hk, List.getElem?_eq_none (by simpa using hk)]
      rfl
  · rcases (hs.current info hi).2 with ⟨hr, -⟩ | ⟨hr, -⟩
    · exact Or.inl hr
    · exact Or.inr hr

theorem connection_info_current_lossRun :
    ((lossRun.take 21).foldl step (new {} {} true)).infos.map ConnectionInfo.connectionId = [2, 1] := by
  have hid : ((lossRun.take 21).foldl step (new {} {} true)).connectionId = 2 := by decide +kernel
  refine (connection_info_current {} {} true _ (Reach.foldl (meets_anyStep (lossRun.take 21)))).1.trans ?_
  rw [hid]
  rfl

/-! ## The failure signal -/

/-- The run task has called `_notify_subscription_failure`. -/
def callbackCalled : RunPhase → Bool
  | .ended _ notified => notified
  | _ => false

/-- The signal is set when the run task has failed and its done callback was called, to what it
    failed with. -/
def Signalled (s : Client) : Prop :=
  ∀ phase, s.runTask = some phase → ∃ signal, s.subscriptionFailure = some signal ∧
    ∀ e, signal = some e ↔ phase = .ended (.failed e) true

/-- The run task goes on, or ends; its done callback is not called. -/
def Unsignalled (s s' : Client) : Prop :=
  s'.subscriptionFailure = s.subscriptionFailure ∧
    ∃ phase, s'.runTask = some phase ∧ callbackCalled phase = false

theorem Signalled.pending (h : s.Signalled) {phase : RunPhase} (hrun : s.runTask = some phase)
    (hcalled : callbackCalled phase = false) : s.subscriptionFailure = some none := by
  obtain ⟨signal, hsignal, hiff⟩ := h phase hrun
  rcases signal with _ | e
  · exact hsignal
  · rw [(hiff e).1 rfl] at hcalled
    cases hcalled

theorem signalled_of_pending {phase : RunPhase} (hrun : s.runTask = some phase)
    (hcalled : callbackCalled phase = false) (hsignal : s.subscriptionFailure = some none) :
    s.Signalled := by
  intro phase' hrun'
  obtain rfl : phase = phase' := Option.some.inj (hrun.symm.trans hrun')
  refine ⟨none, hsignal, fun e => ⟨fun h => (by cases h), fun h => ?_⟩⟩
  rw [h] at hcalled
  cases hcalled

theorem signalled_of_idle (hrun : s.runTask = none) : s.Signalled := by
  intro phase h
  rw [hrun] at h
  cases h

theorem Signalled.moves (h : s.Signalled) {phase : RunPhase} (hrun : s.runTask = some phase)
    (hcalled : callbackCalled phase = false) (hmoves : s.Unsignalled s') : s'.Signalled := by
  obtain ⟨hsame, phase', hrun', hcalled'⟩ := hmoves
  exact signalled_of_pending hrun' hcalled' (hsame.trans (h.pending hrun hcalled))

theorem unsignalled_notify (s : Client) (awaiting afterwards : RunPhase)
    (hawaiting : callbackCalled awaiting = false) (hafterwards : callbackCalled afterwards = false) :
    s.Unsignalled (s.notifyConnectionRecoveryFailed awaiting afterwards) := by
  unfold notifyConnectionRecoveryFailed
  split
  · exact ⟨rfl, awaiting, rfl, hawaiting⟩
  · exact ⟨rfl, afterwards, rfl, hafterwards⟩

theorem unsignalled_reconnected (s : Client) (after : RetryResult × List StreamTransport) :
    s.Unsignalled (s.reconnected after) := by
  obtain ⟨result, transports⟩ := after
  cases result with
  | continues r => exact ⟨rfl, _, rfl, rfl⟩
  | connected t connack => exact ⟨rfl, _, rfl, rfl⟩
  | raised e =>
    rcases e with _ | e
    · exact ⟨rfl, _, rfl, rfl⟩
    · cases e with
      | osError => exact unsignalled_notify { s with transports } _ _ rfl rfl
      | timeout => exact unsignalled_notify { s with transports } _ _ rfl rfl
      | connectError code => exact unsignalled_notify { s with transports } _ _ rfl rfl
      | disconnected => exact ⟨rfl, _, rfl, rfl⟩
      | protocolError => exact ⟨rfl, _, rfl, rfl⟩
      | other => exact ⟨rfl, _, rfl, rfl⟩

theorem unsignalled_servingEnds (s : Client) (raises : Option ClientError) :
    s.Unsignalled (s.servingEnds raises) := by
  have hlost : ∀ e, s.Unsignalled (if s.reconnect.enabled then
      { s.closeProtocol with connectionInfo := none, runTask := some .closing }
      else { s with connectionInfo := none }.notifyConnectionRecoveryFailed (.notifyingLost e)
        (.reaping (.ends (.failed e)))) := by
    intro e
    split
    · refine ⟨?_, _, rfl, rfl⟩
      unfold closeProtocol
      split
      · rfl
      · rfl
    · exact unsignalled_notify { s with connectionInfo := none } _ _ rfl rfl
  rcases raises with _ | e
  · exact ⟨rfl, _, rfl, rfl⟩
  · cases e with
    | disconnected => exact hlost _
    | timeout => exact hlost _
    | osError => exact ⟨rfl, _, rfl, rfl⟩
    | connectError code => exact ⟨rfl, _, rfl, rfl⟩
    | protocolError => exact ⟨rfl, _, rfl, rfl⟩
    | other => exact ⟨rfl, _, rfl, rfl⟩

theorem Signalled.cancelRun (h : s.Signalled) : s.cancelRun.Signalled := by
  unfold Client.cancelRun
  split
  · exact h
  · exact h
  · next hrun => exact h.moves hrun rfl ⟨rfl, _, rfl, rfl⟩
  · next hrun => exact h.moves hrun rfl ⟨rfl, _, rfl, rfl⟩
  · next hrun => exact h.moves hrun rfl ⟨rfl, _, rfl, rfl⟩
  · next hrun => exact h.moves hrun rfl ⟨rfl, _, rfl, rfl⟩
  · next hrun => exact h.moves hrun rfl ⟨rfl, _, rfl, rfl⟩
  · next hrun => exact h.moves hrun rfl ⟨rfl, _, rfl, rfl⟩
  · next hrun => exact h.moves hrun rfl (unsignalled_reconnected s _)

theorem Signalled.stepRun (h : s.Signalled) {phase : RunPhase} (hrun : s.runTask = some phase)
    (e : LifeEvent) : (s.stepRun phase e).Signalled := by
  unfold Client.stepRun
  split
  · split
    · exact h.moves hrun rfl ⟨rfl, _, rfl, rfl⟩
    · exact h.moves hrun rfl ⟨rfl, _, rfl, rfl⟩
  · exact h.moves hrun rfl (unsignalled_servingEnds s _)
  · split
    · exact h
    · exact h.moves hrun rfl ⟨rfl, _, hrun, rfl⟩
  · refine h.moves hrun rfl ⟨?_, _, (closeProtocol_frame s).2.2.trans hrun, rfl⟩
    unfold closeProtocol
    split
    · rfl
    · rfl
  · exact h.moves hrun rfl ⟨rfl, _, rfl, rfl⟩
  · exact h.moves hrun rfl ⟨rfl, _, rfl, rfl⟩
  · exact h.moves hrun rfl ⟨rfl, _, rfl, rfl⟩
  · exact h.moves hrun rfl ⟨rfl, _, rfl, rfl⟩
  · exact h.moves hrun rfl ⟨rfl, _, rfl, rfl⟩
  · next result =>
    intro phase hphase
    obtain rfl := Option.some.inj hphase
    unfold notifySubscriptionFailure
    rw [h.pending hrun rfl]
    cases result with
    | returned => exact ⟨none, rfl, fun e => ⟨fun h => (by cases h), fun h => (by cases h)⟩⟩
    | cancelled => exact ⟨none, rfl, fun e => ⟨fun h => (by cases h), fun h => (by cases h)⟩⟩
    | failed e =>
      refine ⟨some e, rfl, fun e' => ⟨fun h => ?_, fun h => ?_⟩⟩
      · cases h
        rfl
      · cases h
        rfl
  · exact h

theorem Signalled.entered (hrun : s.runTask = none) (after : RetryResult × List StreamTransport) :
    (s.entered after).Signalled := by
  obtain ⟨result, transports⟩ := after
  cases result with
  | continues r => exact signalled_of_idle hrun
  | connected t connack => exact signalled_of_pending rfl rfl rfl
  | raised e => exact signalled_of_idle hrun

/-- The main task moves on. -/
theorem Signalled.mainMoves (h : s.Signalled) (hrun : s'.runTask = s.runTask)
    (hsignal : s'.subscriptionFailure = s.subscriptionFailure) : s'.Signalled := by
  intro phase hphase
  rw [hsignal]
  exact h phase (hrun.symm.trans hphase)

theorem signalled_disconnect (h : s.Signalled) : s.disconnect.Signalled := by
  unfold disconnect
  split
  · exact h.mainMoves rfl rfl
  · exact h.mainMoves rfl rfl

theorem Signalled.step (h : s.Signalled) (hs : Sound s) (e : LifeEvent) : (s.step e).Signalled := by
  unfold Client.step
  split
  · split
    · exact h.mainMoves rfl rfl
    · exact h
  · exact h.mainMoves rfl rfl
  · unfold stopRunTask
    split
    · exact signalled_disconnect h
    · exact h.cancelRun.mainMoves rfl rfl
  · split
    · split
      · exact h.mainMoves rfl rfl
      · exact signalled_disconnect (signalled_of_idle rfl)
    · exact h
  · exact h.mainMoves rfl rfl
  · exact h.mainMoves rfl rfl
  · unfold interrupt
    split
    · exact h
    · next r hm => exact Signalled.entered (hs.task (hs.entering r hm)) _
    · exact h.cancelRun.mainMoves rfl rfl
    · exact h.mainMoves rfl rfl
    · exact h.mainMoves rfl rfl
    · exact h.mainMoves rfl rfl
  · unfold stepRetry
    split
    · next r hm => exact Signalled.entered (hs.task (hs.entering r hm)) _
    · next r hrun _ => exact h.moves hrun rfl (unsignalled_reconnected s _)
    · exact h
  · split
    · exact h
    · next phase hrun => exact h.stepRun hrun _

/-- **Consumers learn how the run task failed.** In every run, while a run task exists, the future that
    `get_message` waits for is set exactly when the run task has failed and its done callback was
    called, and to the failure of the run task; a cancelled run task leaves it pending. -/
theorem failure_signalled (config : ClientConfig) (reconnect : ReconnectConfig) (callback : Bool)
    (s : Client) (h : Reach step anyStep (new config reconnect callback) s) (phase : RunPhase)
    (hrun : s.runTask = some phase) :
    ∃ signal, s.subscriptionFailure = some signal ∧
      ∀ e, signal = some e ↔ phase = .ended (.failed e) true := by
  have hinv : s.Signalled ∧ Sound s := by
    refine Reach.invariant (I := fun s => s.Signalled ∧ Sound s) h
      ⟨signalled_of_idle rfl, sound_new config reconnect callback⟩ fun s e hs _ => ?_
    exact ⟨hs.1.step hs.2 e, hs.2.step e⟩
  exact hinv.1 phase hrun

/-- The broker refuses the reconnect. -/
def rejectedRun : List LifeEvent :=
  [.enter, .retry .opened, .retry .sent, .retry (.received [32, 2, 0, 0]), .runStarts,
    .served (some .disconnected), .lostClosed, .reaped, .retry .wakes, .retry .opened, .retry .sent,
    .retry (.received [32, 2, 0, 5]), .retry .closed, .callbackEnds true, .runNotified]

theorem failure_signalled_rejectedRun :
    (rejectedRun.foldl step (new {} {} true)).runTask = some (.ended (.failed (.connectError 5)) true) ∧
    ∃ signal, (rejectedRun.foldl step (new {} {} true)).subscriptionFailure = some signal ∧
      ∀ e, signal = some e ↔
        RunPhase.ended (.failed (.connectError 5)) true = .ended (.failed e) true :=
  ⟨by decide +kernel, failure_signalled {} {} true _ (Reach.foldl (meets_anyStep rejectedRun)) _
    (by decide +kernel)⟩

end Client

end Zmqtt
