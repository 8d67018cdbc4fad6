/-
  The counters of the replay buffer. While the read loop runs, the counter, the topic table
  and the id set of an object describe the messages that it and the task inside its lock
  own (`AccountOk`), and only the current replay state owns any (`Accounts`). Hence `_discard`
  finds its topic, and an id that is held is known to the current state
  (`Accounts.replayContains`).
-/
import Zmqtt.Inbound.Conservation

namespace Zmqtt

/-- The message is on the topic. -/
def onTopic (topic : String) (m : Received) : Bool := m.packet.topic = topic

/-- The message has the packet id. -/
def hasId (pid : Int) (m : Received) : Bool := m.packet.packetId = some pid

/-- The messages that an object owns: queued, being iterated, set aside, or being
    delivered. -/
def Buffered.owned (b : Buffered) : List Received :=
  b.publishes ++
    match b.holder with
    | none => []
    | some h => h.unmatched ++ h.pending ++ [h.current]

/-- The counters of an object describe the messages `owned`. -/
structure AccountOk (b : Buffered) (owned : List Received) : Prop where
  count : b.messageCount = owned.length
  topics : ∀ topic, b.topics.get? topic =
    if owned.countP (onTopic topic) = 0 then none else some (owned.countP (onTopic topic) : Int)
  ids : ∀ pid, pid ∈ b.packetIds ↔ 0 < owned.countP (hasId pid)
  idOnce : ∀ pid, owned.countP (hasId pid) ≤ 1

theorem AccountOk.perm {b : Buffered} {owned owned' : List Received} (h : AccountOk b owned)
    (hperm : owned.Perm owned') : AccountOk b owned' := by
  refine ⟨?_, ?_, ?_, ?_⟩
  · rw [h.count, hperm.length_eq]
  · intro topic
    rw [h.topics, hperm.countP_eq]
  · intro pid
    rw [h.ids, hperm.countP_eq]
  · intro pid
    rw [← hperm.countP_eq]
    exact h.idOnce pid

/-- Only the counters matter. -/
theorem AccountOk.congr {b b' : Buffered} {owned : List Received} (h : AccountOk b owned)
    (hcount : b'.messageCount = b.messageCount) (htopics : b'.topics = b.topics)
    (hids : b'.packetIds = b.packetIds) : AccountOk b' owned :=
  ⟨hcount.trans h.count, by rw [htopics]; exact h.topics, by rw [hids]; exact h.ids, h.idOnce⟩

theorem accountOk_empty (b : Buffered) : AccountOk b.empty [] :=
  ⟨rfl, fun _ => rfl, fun pid => by simp [Buffered.empty], fun pid => Nat.zero_le _⟩

theorem countP_hasId_eq {pid : Int} {m : Received} {ms : List Received} :
    (m :: ms).countP (hasId pid) =
      ms.countP (hasId pid) + if m.packet.packetId = some pid then 1 else 0 := by
  rw [List.countP_cons]
  simp only [hasId, decide_eq_true_eq]

theorem countP_onTopic_eq {topic : String} {m : Received} {ms : List Received} :
    (m :: ms).countP (onTopic topic) =
      ms.countP (onTopic topic) + if m.packet.topic = topic then 1 else 0 := by
  rw [List.countP_cons]
  simp only [onTopic, decide_eq_true_eq]

/-- The message is taken in. -/
theorem AccountOk.append {b : Buffered} {owned : List Received} (h : AccountOk b owned)
    {m : Received} (hnew : ∀ pid, m.packet.packetId = some pid → pid ∉ b.packetIds) :
    AccountOk (b.append m) (m :: owned) := by
  refine ⟨?_, ?_, ?_, ?_⟩
  · have hc := h.count
    simp only [Buffered.append, List.length_cons]
    omega
  · intro topic
    rw [countP_onTopic_eq]
    simp only [Buffered.append]
    rw [Dict.get?_set]
    by_cases ht : m.packet.topic = topic
    · subst ht
      rw [if_pos rfl, h.topics, if_pos rfl]
      by_cases hz : owned.countP (onTopic m.packet.topic) = 0
      · simp [hz]
      · simp [hz]
    · rw [if_neg ht, if_neg ht, Nat.add_zero]
      exact h.topics topic
  · intro pid
    rw [countP_hasId_eq]
    simp only [Buffered.append]
    cases hm : m.packet.packetId with
    | none =>
      simp only [reduceCtorEq, if_false, Nat.add_zero]
      exact h.ids pid
    | some pid' =>
      simp only [Finset.mem_insert, Option.some.injEq]
      by_cases he : pid' = pid
      · simp [he]
      · rw [if_neg he, Nat.add_zero, ← h.ids pid]
        exact or_iff_right fun h' => he h'.symm
  · intro pid
    have hids := h.ids pid
    have honce := h.idOnce pid
    rw [countP_hasId_eq]
    split
    · next hm =>
      have hno := hnew pid hm
      rw [hids] at hno
      omega
    · exact honce

/-- The message leaves: `_discard` finds its topic and corrects the counters. -/
theorem AccountOk.discard {b : Buffered} {owned : List Received} {m : Received}
    (h : AccountOk b (m :: owned)) :
    (b.discard m).2 = true ∧ AccountOk (b.discard m).1 owned := by
  have htop := h.topics m.packet.topic
  rw [countP_onTopic_eq, if_pos rfl, if_neg (Nat.succ_ne_zero _)] at htop
  have hcount := h.count
  rw [List.length_cons] at hcount
  unfold Buffered.discard
  rw [htop]
  refine ⟨rfl, ?_, ?_, ?_, ?_⟩
  · dsimp only
    omega
  · intro topic
    have ht := h.topics topic
    rw [countP_onTopic_eq] at ht
    dsimp only
    by_cases he : m.packet.topic = topic
    · subst he
      by_cases hz : owned.countP (onTopic m.packet.topic) = 0
      · simp [hz, Dict.get?_pop]
      · have hne : ((owned.countP (onTopic m.packet.topic) + 1 : Nat) : Int) - 1 ≠ 0 := by omega
        rw [if_neg hne, Dict.get?_set, if_pos rfl, if_neg hz]
        congr 1
        omega
    · rw [if_neg he, Nat.add_zero] at ht
      rw [← ht]
      split
      · rw [Dict.get?_pop, if_neg he]
      · rw [Dict.get?_set, if_neg he]
  · intro pid
    have hid := h.ids pid
    have honce := h.idOnce pid
    rw [countP_hasId_eq] at hid honce
    dsimp only
    cases hm : m.packet.packetId with
    | none =>
      rw [hm, if_neg (by simp), Nat.add_zero] at hid
      exact hid
    | some pid' =>
      rw [hm] at hid honce
      dsimp only
      rw [Finset.mem_erase, hid]
      by_cases he : pid' = pid
      · subst he
        rw [if_pos rfl] at honce
        constructor
        · rintro ⟨hne, -⟩
          exact absurd rfl hne
        · intro hpos
          omega
      · rw [if_neg (by simp [he]), Nat.add_zero]
        exact and_iff_right fun h' => he h'.symm
  · intro pid
    have honce := h.idOnce pid
    rw [countP_hasId_eq] at honce
    omega

namespace InboundPublishFlow

/-! ## The objects -/

/-- The messages of the task that works on object `i`. -/
def only (i : Nat) (air : List Received) (j : Nat) : List Received := if j = i then air else []

/-- The counters of every object are right, and only the current one owns messages. -/
def Accounts (f : InboundPublishFlow) (extra : Nat → List Received) : Prop :=
  ∀ j b, f.buffers[j]? = some b → AccountOk b (b.owned ++ extra j) ∧
    (b.owned ++ extra j ≠ [] → f.replay = .buffered j)

/-- The accounts are right while the read loop runs. -/
def Live (f : InboundPublishFlow) (extra : Nat → List Received) : Prop :=
  f.reader.isStopped = false → f.Accounts extra

theorem only_nil (i : Nat) : only i [] = fun _ => [] := by
  funext j
  rw [only, ite_self]

theorem only_self (i : Nat) (air : List Received) : only i air i = air := if_pos rfl

theorem owned_of_holder_none {b : Buffered} (h : b.holder = none) : b.owned = b.publishes := by
  rw [Buffered.owned, h, List.append_nil]

theorem SameContents.owned {b b' : Buffered} (h : SameContents b b') : b'.owned = b.owned := by
  unfold Buffered.owned
  rw [h.publishes]
  cases hb : b'.holder with
  | none => rw [h.noHolder hb]
  | some h' =>
    obtain ⟨d, hd, hu, hp, hc, -⟩ := h.holder h' hb
    rw [hd]
    dsimp only
    rw [hu, hp, hc]

theorem SameContents.accountOk {b b' : Buffered} (h : SameContents b b') {owned : List Received}
    (hb : AccountOk b owned) : AccountOk b' owned :=
  hb.congr h.messageCount h.topics h.packetIds

/-- Object `i` and the messages of its task change. -/
theorem Accounts.setBuffer {f : InboundPublishFlow} {i : Nat} {air air' : List Received}
    (h : f.Accounts (only i air)) {b b' : Buffered} (hb : f.buffers[i]? = some b)
    (hok : AccountOk b (b.owned ++ air) → AccountOk b' (b'.owned ++ air'))
    (hsome : b'.owned ++ air' ≠ [] → b.owned ++ air ≠ []) :
    (f.setBuffer i b').Accounts (only i air') := by
  have hi := h i b hb
  rw [only_self] at hi
  intro j c hc
  by_cases hj : j = i
  · subst hj
    rw [getElem?_setBuffer hb] at hc
    obtain rfl := Option.some.inj hc
    rw [only_self]
    exact ⟨hok hi.1, fun hne => hi.2 (hsome hne)⟩
  · have hother := h j c (by rw [← List.getElem?_set_ne (Ne.symm hj)]; exact hc)
    rw [only, if_neg hj] at hother ⊢
    exact hother

theorem Accounts.congr {f f' : InboundPublishFlow} {extra : Nat → List Received}
    (h : f.Accounts extra) (hbuffers : f'.buffers = f.buffers) (hreplay : f'.replay = f.replay) :
    f'.Accounts extra := by
  rw [Accounts, hbuffers, hreplay]
  exact h

/-- The current object, once it owns nothing, is left. -/
theorem Accounts.leaveBuffer {f : InboundPublishFlow} (h : f.Accounts fun _ => []) {i : Nat}
    {b : Buffered} (hb : f.buffers[i]? = some b) (hempty : b.owned = []) (next : ReplayState) :
    (f.leaveBuffer i next).Accounts fun _ => [] := by
  unfold InboundPublishFlow.leaveBuffer
  split
  · next hcur =>
    intro j c hc
    refine ⟨(h j c hc).1, fun hne => ?_⟩
    have hj := (h j c hc).2 hne
    rw [hcur] at hj
    cases hj
    rw [Option.some.inj (hc.symm.trans hb), hempty] at hne
    exact absurd rfl hne
  · exact h

/-- The messages of object `i` and its task are the same, in another order. -/
theorem Accounts.rearrange {f : InboundPublishFlow} {i : Nat} {air air' : List Received}
    (h : f.Accounts (only i air)) {b b' : Buffered} (hb : f.buffers[i]? = some b)
    (hperm : (b.owned ++ air).Perm (b'.owned ++ air'))
    (hcount : b'.messageCount = b.messageCount) (htopics : b'.topics = b.topics)
    (hids : b'.packetIds = b.packetIds) : (f.setBuffer i b').Accounts (only i air') := by
  refine h.setBuffer hb (fun hok => (hok.perm hperm).congr hcount htopics hids) fun hne he => ?_
  rw [he] at hperm
  exact hne hperm.nil_eq.symm

theorem Accounts.discard {f : InboundPublishFlow} {i : Nat} {air : List Received} {m : Received}
    (h : f.Accounts (only i (m :: air))) {b : Buffered} (hb : f.Unlocked i b) :
    (f.setBuffer i (b.discard m).1).Accounts (only i air) := by
  have howned : (b.discard m).1.owned = b.owned := by
    unfold Buffered.discard
    split <;> rfl
  refine h.setBuffer hb.1 (fun hok => ?_) fun _ => by simp
  rw [howned]
  exact (hok.perm List.perm_middle).discard.2

/-- A suspended delivery hands its messages to the running task. -/
theorem Accounts.wake {f : InboundPublishFlow} {i : Nat} (h : f.Accounts fun _ => [])
    {b : Buffered} {d : Delivery} (hb : f.buffers[i]? = some b) (hd : b.holder = some d) :
    (f.setBuffer i { b with holder := none }).Accounts
      (only i (d.current :: (d.unmatched ++ d.pending))) := by
  rw [← only_nil i] at h
  refine h.rearrange hb ?_ rfl rfl rfl
  rw [Buffered.owned, hd, owned_of_holder_none rfl, List.append_nil]
  exact (List.perm_append_singleton d.current _).append_left b.publishes

theorem Accounts.perm {f : InboundPublishFlow} {i : Nat} {air air' : List Received}
    (h : f.Accounts (only i air)) (hperm : air.Perm air') : f.Accounts (only i air') := by
  intro j c hc
  have hj := h j c hc
  unfold only at hj ⊢
  split
  · next he =>
    rw [if_pos he] at hj
    refine ⟨hj.1.perm (hperm.append_left _), fun hne => hj.2 fun he' => hne ?_⟩
    rw [List.append_eq_nil_iff] at he' ⊢
    exact ⟨he'.1, by rw [he'.2] at hperm; exact hperm.nil_eq.symm⟩
  · next he =>
    rw [if_neg he] at hj
    exact hj

theorem accounts_drainRule (i : Nat) :
    DrainRule (fun f => f.Accounts fun _ => []) (fun f air => f.Accounts (only i air))
      (fun f air => f.Accounts (only i air)) (fun f air m => f.Accounts (only i (m :: air))) i where
  start f b waiters h hb _ := by
    rw [← only_nil i] at h
    exact h.rearrange hb (List.Perm.refl _) rfl rfl rfl
  wake f b d h hb hd _ := h.wake hb hd
  perm f a b hab h := h.perm hab
  refill f b air h hb := by
    refine h.rearrange hb.1 ?_ rfl rfl rfl
    rw [owned_of_holder_none hb.2, owned_of_holder_none (by exact hb.2)]
    exact List.perm_append_comm
  handsOn f f' r air h _ hands := h.congr hands.buffers hands.replay
  discarded f b air m h hb _ := h.discard hb
  keyError f b air m h hb _ := h.discard hb
  valueError f air h := h
  suspend f b caller unmatched pending m h hb := by
    rw [← only_nil i]
    refine h.rearrange hb.1 ?_ rfl rfl rfl
    rw [owned_of_holder_none hb.2, Buffered.owned, List.append_nil]
    exact (List.perm_append_singleton m _).symm.append_left b.publishes
  fail f b caller unmatched pending h hb := by
    rw [← only_nil i]
    have hsame := sameContents_endExpiration (b.putBack (unmatched ++ pending)) caller
    refine h.rearrange hb.1 ?_ hsame.messageCount hsame.topics hsame.packetIds
    rw [hsame.owned, owned_of_holder_none hb.2, owned_of_holder_none rfl, List.append_nil]
    exact List.perm_append_comm
  drained f b unmatched h hb := by
    rw [← only_nil i] at *
    have hperm : (b.owned ++ unmatched).Perm ((b.putBack unmatched).owned ++ []) := by
      rw [owned_of_holder_none hb.2, owned_of_holder_none rfl, List.append_nil]
      exact List.perm_append_comm
    unfold finishDrain
    split
    · next hzero =>
      have hsame := sameContents_cancelExpiration (b.putBack unmatched)
      have hset := h.rearrange hb.1 (hsame.owned.symm ▸ hperm) hsame.messageCount hsame.topics
        hsame.packetIds
      rw [only_nil] at hset ⊢
      refine hset.leaveBuffer (getElem?_setBuffer hb.1 _) ?_ .idle
      have hlen := (hset i _ (getElem?_setBuffer hb.1 _)).1.count
      rw [hsame.messageCount, hzero, List.append_nil] at hlen
      exact List.length_eq_zero_iff.1 (by omega)
    · exact h.rearrange hb.1 hperm rfl rfl rfl
  expired f b unmatched h hb := by
    unfold finishExpire
    have hsame := sameContents_endExpiration (b.putBack unmatched).empty .expire
    have hnil : ((b.putBack unmatched).empty.endExpiration .expire).owned = [] := by
      rw [hsame.owned]
      rfl
    have hset : ((f.logDropped (b.putBack unmatched).publishes).setBuffer i
        ((b.putBack unmatched).empty.endExpiration .expire)).Accounts fun _ => [] := by
      rw [← only_nil i]
      have hdrop : (f.logDropped (b.putBack unmatched).publishes).Accounts (only i unmatched) :=
        h.congr rfl rfl
      refine hdrop.setBuffer hb.1 (fun _ => ?_) fun hne => ?_
      · rw [hnil, List.append_nil]
        exact hsame.accountOk (accountOk_empty _)
      · rw [hnil] at hne
        exact absurd rfl hne
    exact hset.leaveBuffer (getElem?_setBuffer hb.1 _) hnil _

theorem Accounts.interruptDelivery {f : InboundPublishFlow} (h : f.Accounts fun _ => [])
    (i : Nat) : (f.interruptDelivery i).Accounts fun _ => [] := by
  refine (accounts_drainRule i).interruptDelivery h fun b d hb hd => ?_
  refine (h.wake hb hd).perm ?_
  rw [List.append_assoc, List.singleton_append]
  exact List.perm_middle.symm

/-! ## The read loop -/

theorem owned_append (b : Buffered) (m : Received) :
    (m :: b.owned).Perm (b.append m).owned := by
  simp only [Buffered.owned, Buffered.append, List.append_assoc, List.singleton_append]
  exact List.perm_middle.symm

theorem Accounts.takesIn {f f' : InboundPublishFlow} {m : Received}
    (h : f.Accounts fun _ => []) (htakes : TakesIn f m f') : f'.Accounts fun _ => [] := by
  cases htakes with
  | new hreplay =>
    intro j c hc
    rw [List.getElem?_append] at hc
    split at hc
    · -- while the state was idle, no object owned a message
      refine ⟨(h j c hc).1, fun hne => ?_⟩
      have hj := (h j c hc).2 hne
      rw [hreplay] at hj
      cases hj
    · next hlt =>
      rw [List.getElem?_singleton] at hc
      split at hc
      · next hj =>
        obtain rfl := Option.some.inj hc
        obtain rfl : j = f.buffers.length := by omega
        refine ⟨?_, fun _ => rfl⟩
        have hok := (accountOk_empty {}).append (m := m) fun pid _ hin => by cases hin
        rw [List.append_nil]
        exact hok.perm (owned_append {} m)
      · cases hc
  | old i b hreplay hb hpid _ =>
    rw [← only_nil i] at h ⊢
    have hset : (f.setBuffer i (b.append m)).Accounts (only i []) := by
      intro j c hc
      by_cases hj : j = i
      · subst hj
        have hi := h j b hb
        rw [getElem?_setBuffer hb] at hc
        obtain rfl := Option.some.inj hc
        rw [only_self, List.append_nil] at hi ⊢
        exact ⟨(hi.1.append hpid).perm (owned_append b m), fun _ => hreplay⟩
      · exact h j c (by rw [← List.getElem?_set_ne (Ne.symm hj)]; exact hc)
    exact hset.congr rfl rfl

theorem Accounts.handles {f f' : InboundPublishFlow} {env : Environment} {m : Received}
    {acts : List Act} (h : f.Accounts fun _ => []) (hands : Handles f env m f' acts) :
    f'.Accounts fun _ => [] := by
  cases hands with
  | takesIn htakes _ => exact h.takesIn htakes
  | _ => exact h.congr rfl rfl

/-- An id that some object holds is known to the current state. -/
theorem Accounts.replayContains {f : InboundPublishFlow} (h : f.Accounts fun _ => [])
    {b : Buffered} {m : Received} {pid : Int} (hb : b ∈ f.buffers) (hm : m ∈ b.held)
    (hpid : m.packet.packetId = some pid) : f.replayContains pid := by
  obtain ⟨j, hj⟩ := List.mem_iff_getElem?.1 hb
  have hown : m ∈ b.owned := by
    unfold Buffered.held at hm
    unfold Buffered.owned
    cases hd : b.holder with
    | none => rw [hd] at hm; exact hm
    | some d =>
      rw [hd] at hm
      rw [← List.append_assoc]
      exact List.mem_append_left _ hm
  obtain ⟨hok, hcur⟩ := h j b hj
  rw [List.append_nil] at hok hcur
  unfold InboundPublishFlow.replayContains
  rw [hcur (List.ne_nil_of_mem hown)]
  refine ⟨b, hj, (hok.ids pid).2 ?_⟩
  exact List.countP_pos_iff.2 ⟨m, hown, decide_eq_true hpid⟩

theorem Accounts.runReader {f : InboundPublishFlow} (h : f.Accounts fun _ => [])
    (env : Environment) (acts : List Act) : (f.runReader env acts).Accounts fun _ => [] :=
  h.congr (sameTables_runReader env acts f).buffers (sameTables_runReader env acts f).replay

theorem Accounts.dispatch {f : InboundPublishFlow} {env : Environment}
    {handled : Except InboundError (InboundPublishFlow × List Act)} (h : f.Accounts fun _ => [])
    (hok : ∀ f' acts, handled = .ok (f', acts) → f'.Accounts fun _ => []) :
    (f.dispatch env handled).Accounts fun _ => [] := by
  unfold InboundPublishFlow.dispatch
  split
  · exact h.congr rfl rfl
  · next f' acts => exact (hok f' acts rfl).runReader env acts

/-! ## Steps -/

theorem Accounts.waiting {f : InboundPublishFlow} (h : f.Accounts fun _ => []) {e : InboundEvent}
    (he : e = .drain ∨ (∃ i, e = .expire i) ∨ ∃ i k, e = .cancelWaiter i k) :
    (f.step e).Accounts fun _ => [] := by
  rcases f.waiting_cases he with heq | ⟨i, b, b', hb, hsame, heq⟩ <;> rw [heq]
  · exact h
  · rw [← only_nil i] at h ⊢
    refine h.rearrange hb ?_ hsame.messageCount hsame.topics hsame.packetIds
    rw [hsame.owned]

/-- `clear` is not called while a task is suspended inside the lock of the current object. -/
def clearsUnlocked (f : InboundPublishFlow) (e : InboundEvent) : Prop :=
  e = .clear → ∀ i b, f.replay = .buffered i → f.buffers[i]? = some b → b.holder = none

theorem Accounts.clear {f : InboundPublishFlow} (h : f.Accounts fun _ => [])
    (hfree : f.clearsUnlocked .clear) : f.clear.Accounts fun _ => [] := by
  unfold InboundPublishFlow.clear
  -- an object that is not the current one owns nothing
  have hleft : ∀ {f' : InboundPublishFlow}, f'.buffers = f.buffers →
      (∀ (j : Nat) (b : Buffered), f.buffers[j]? = some b → b.owned = []) → f'.Accounts fun _ => [] := by
    intro f' hbuffers hnone j b hb
    rw [hbuffers] at hb
    refine ⟨(h j b hb).1, fun hne => absurd ?_ hne⟩
    rw [hnone j b hb, List.append_nil]
  split
  · exact h
  · next hreplay =>
    refine hleft rfl fun j b hb => ?_
    by_contra hne
    have hj := (h j b hb).2 (by rw [List.append_nil]; exact hne)
    rw [hreplay] at hj
    cases hj
  · next i hreplay =>
    split
    · next hnone =>
      refine hleft rfl fun j b hb => ?_
      by_contra hne
      have hj := (h j b hb).2 (by rw [List.append_nil]; exact hne)
      rw [hreplay] at hj
      cases hj
      rw [hnone] at hb
      cases hb
    · next b hb =>
      have hd := hfree rfl i b hreplay hb
      have hsame := sameContents_cancelExpiration b
      have hholder : b.cancelExpiration.holder = none := by
        cases hc : b.cancelExpiration.holder with
        | none => rfl
        | some d =>
          obtain ⟨d', hd', -⟩ := hsame.holder d hc
          rw [hd] at hd'
          cases hd'
      have hnil : b.cancelExpiration.empty.owned = [] :=
        owned_of_holder_none (b := b.cancelExpiration.empty) hholder
      intro j c hc
      by_cases hj : j = i
      · subst hj
        have hc' : some b.cancelExpiration.empty = some c := by
          rw [← hc]
          exact (getElem?_setBuffer hb _).symm
        obtain rfl := Option.some.inj hc'
        rw [hnil]
        exact ⟨accountOk_empty _, fun hne => absurd rfl hne⟩
      · have hc' : f.buffers[j]? = some c := by
          rw [← hc]
          exact (List.getElem?_set_ne (Ne.symm hj)).symm
        refine ⟨(h j c hc').1, fun hne => ?_⟩
        have hcur := (h j c hc').2 hne
        rw [hreplay] at hcur
        cases hcur
        exact absurd rfl hj

theorem Accounts.step {f : InboundPublishFlow} {e : InboundEvent} (hidle : f.IdleRest)
    (h : f.Accounts fun _ => []) (hok : f.clearsUnlocked e) : (f.step e).Accounts fun _ => [] := by
  cases e with
  | publish packet env =>
    rw [InboundPublishFlow.step, receivePublish]
    split
    · have hrec : (f.receive packet).Accounts fun _ => [] := h.congr rfl rfl
      exact hrec.dispatch fun f' acts hhandle => hrec.handles (handlePublish_cases hhandle)
    all_goals exact h
  | pubrel pid env =>
    rw [InboundPublishFlow.step, receivePubrel]
    split
    · have hlog : (f.log (.pubrel pid)).Accounts fun _ => [] := h.congr rfl rfl
      refine hlog.dispatch fun f' acts hhandle => ?_
      unfold handlePubrel at hhandle
      split at hhandle
      · cases hhandle
      · cases hhandle
        exact hlog.congr rfl rfl
    all_goals exact h
  | resumeReader env =>
    rw [InboundPublishFlow.step, resumeReader]
    split
    · next acts _ => exact h.runReader env acts
    all_goals exact h
  | interruptReader =>
    rw [InboundPublishFlow.step, interruptReader]
    split
    · exact h
    all_goals exact h.congr rfl rfl
  | ack k =>
    rw [InboundPublishFlow.step, ack]
    split
    · exact h
    · split
      · exact h
      · unfold runCallback
        split
        · exact h.congr rfl rfl
        · split <;> exact h.congr rfl rfl
        · exact h.congr rfl rfl
  | get queue => exact h.congr rfl rfl
  | subscriptions index => exact h.congr rfl rfl
  | drain => exact h.waiting (Or.inl rfl)
  | expire i => exact h.waiting (Or.inr (Or.inl ⟨i, rfl⟩))
  | cancelWaiter i k => exact h.waiting (Or.inr (Or.inr ⟨i, k, rfl⟩))
  | acquireLock i env => exact (accounts_drainRule i).acquireLock env h
  | resumeDelivery i env =>
    by_cases hkeep : ∀ b d, f.buffers[i]? = some b → b.holder = some d → d.cancelled = false
    · exact (accounts_drainRule i).resumeDelivery env hidle h hkeep
    · rw [InboundPublishFlow.step, resumeDelivery_of_cancelled hkeep]
      exact h.interruptDelivery i
  | interruptDelivery i => exact h.interruptDelivery i
  | clear => exact h.clear hok

/-- No delivery is interrupted in the write of its acknowledgement, and `clear` is called
    when the read loop has ended, as `run` does. -/
def undisturbed (f : InboundPublishFlow) (e : InboundEvent) : Prop :=
  f.deliveriesFinish e ∧ (e = .clear → f.reader.isStopped = true)

/-- The read loop stays ended. -/
theorem isStopped_step {f : InboundPublishFlow} (hidle : f.IdleRest)
    (h : f.reader.isStopped = true) (e : InboundEvent) : (f.step e).reader.isStopped = true := by
  have hrule := frame_drainRule fun reader _ => reader.isStopped = true
  have hwaiting : (e = .drain ∨ (∃ i, e = .expire i) ∨ ∃ i k, e = .cancelWaiter i k) →
      (f.step e).reader.isStopped = true := fun he => by
    rcases f.waiting_cases he with heq | ⟨i, b, b', -, -, heq⟩ <;> rw [heq] <;> exact h
  cases e with
  | publish packet env =>
    rw [InboundPublishFlow.step, receivePublish]
    split
    · next hr => rw [hr] at h; cases h
    all_goals exact h
  | pubrel pid env =>
    rw [InboundPublishFlow.step, receivePubrel]
    split
    · next hr => rw [hr] at h; cases h
    all_goals exact h
  | resumeReader env =>
    rw [InboundPublishFlow.step, resumeReader]
    split
    · next hr => rw [hr] at h; cases h
    all_goals exact h
  | interruptReader =>
    rw [InboundPublishFlow.step, interruptReader]
    split
    · exact h
    all_goals rfl
  | ack k =>
    rw [InboundPublishFlow.step, ack]
    split
    · exact h
    · split
      · exact h
      · unfold runCallback
        split
        · exact h
        · split <;> exact h
        · exact h
  | get queue => exact h
  | subscriptions index => exact h
  | drain => exact hwaiting (Or.inl rfl)
  | expire i => exact hwaiting (Or.inr (Or.inl ⟨i, rfl⟩))
  | cancelWaiter i k => exact hwaiting (Or.inr (Or.inr ⟨i, k, rfl⟩))
  | acquireLock i env => exact (hrule i).acquireLock env h
  | resumeDelivery i env =>
    by_cases hkeep : ∀ b d, f.buffers[i]? = some b → b.holder = some d → d.cancelled = false
    · exact (hrule i).resumeDelivery env hidle h hkeep
    · rw [InboundPublishFlow.step, resumeDelivery_of_cancelled hkeep]
      exact (hrule i).interruptDelivery h fun _ _ _ _ => h
  | interruptDelivery i => exact (hrule i).interruptDelivery h fun _ _ _ _ => h
  | clear =>
    rw [InboundPublishFlow.step, InboundPublishFlow.clear]
    split
    · exact h
    · exact h
    · split <;> exact h

theorem Live.step {f : InboundPublishFlow} {e : InboundEvent} (hidle : f.IdleRest)
    (h : f.Live fun _ => []) (hok : e = .clear → f.reader.isStopped = true) :
    (f.step e).Live fun _ => [] := by
  intro hrun
  have hbefore : f.reader.isStopped = false := by
    by_contra hstop
    rw [isStopped_step hidle (Bool.eq_true_of_not_eq_false hstop) e] at hrun
    cases hrun
  refine (h hbefore).step hidle fun he => ?_
  rw [hok he] at hbefore
  cases hbefore

/-! ## The limit of the buffer -/

/-- No object counts more messages than the limit allows. -/
def Bounded (f : InboundPublishFlow) : Prop :=
  f.bufferSize ≠ 0 → ∀ b ∈ f.buffers, b.messageCount ≤ f.bufferSize

theorem Bounded.setBuffer {f : InboundPublishFlow} (h : f.Bounded) {i : Nat} {b b' : Buffered}
    (hb : f.buffers[i]? = some b) (hle : b'.messageCount ≤ b.messageCount) :
    (f.setBuffer i b').Bounded := by
  intro hsize c hc
  rcases List.mem_or_eq_of_mem_set hc with hc | rfl
  · exact h hsize c hc
  · exact hle.trans (h hsize b (List.mem_of_getElem? hb))

theorem Bounded.congr {f f' : InboundPublishFlow} (h : f.Bounded)
    (hbuffers : f'.buffers = f.buffers) (hsize : f'.bufferSize = f.bufferSize) : f'.Bounded := by
  rw [Bounded, hbuffers, hsize]
  exact h

theorem messageCount_discard (b : Buffered) (m : Received) :
    (b.discard m).1.messageCount = b.messageCount - 1 := by
  unfold Buffered.discard
  split <;> rfl

/-- An object that is emptied counts no more than the limit. -/
theorem Bounded.setEmpty {f : InboundPublishFlow} (h : f.Bounded) {i : Nat} {b' : Buffered}
    (hzero : b'.messageCount = 0) : (f.setBuffer i b').Bounded := by
  intro hsize c hc
  rcases List.mem_or_eq_of_mem_set hc with hc | rfl
  · exact h hsize c hc
  · rw [hzero]
    exact Int.natCast_nonneg _

theorem bounded_drainRule (i : Nat) :
    DrainRule Bounded (fun f _ => f.Bounded) (fun f _ => f.Bounded) (fun f _ _ => f.Bounded) i where
  start f b waiters h hb _ := h.setBuffer hb (Int.le_refl _)
  wake f b d h hb _ _ := h.setBuffer hb (Int.le_refl _)
  perm f a b _ h := h
  refill f b air h hb := h.setBuffer hb.1 (Int.le_refl _)
  handsOn f f' r air h _ hands := h.congr hands.buffers hands.bufferSize
  discarded f b air m h hb _ := h.setBuffer hb.1 (by rw [messageCount_discard]; omega)
  keyError f b air m h hb _ := h.setBuffer hb.1 (by rw [messageCount_discard]; omega)
  valueError f air h := h
  suspend f b caller unmatched pending m h hb := h.setBuffer hb.1 (Int.le_refl _)
  fail f b caller unmatched pending h hb := h.setBuffer hb.1
    (by rw [(sameContents_endExpiration _ _).messageCount]; exact Int.le_refl _)
  drained f b unmatched h hb := by
    unfold finishDrain
    split
    · obtain ⟨replay, he⟩ := leaveBuffer_eq (f.setBuffer i _) i .idle
      rw [he]
      have hset : (f.setBuffer i (b.putBack unmatched).cancelExpiration).Bounded := by
        refine h.setBuffer hb.1 ?_
        rw [(sameContents_cancelExpiration _).messageCount]
        exact Int.le_refl _
      exact hset.congr rfl rfl
    · exact h.setBuffer hb.1 (Int.le_refl _)
  expired f b unmatched h hb := by
    unfold finishExpire
    obtain ⟨replay, he⟩ := leaveBuffer_eq ((f.logDropped _).setBuffer i _) i _
    rw [he]
    have hdrop : (f.logDropped (b.putBack unmatched).publishes).Bounded := h.congr rfl rfl
    have hset := hdrop.setEmpty (i := i)
      (sameContents_endExpiration (b.putBack unmatched).empty .expire).messageCount
    exact hset.congr rfl rfl

theorem Bounded.takesIn {f f' : InboundPublishFlow} {m : Received} (h : f.Bounded)
    (htakes : TakesIn f m f') : f'.Bounded := by
  cases htakes with
  | new _ =>
    intro hsize b hb
    rcases List.mem_append.1 hb with hb | hb
    · exact h hsize b hb
    · rw [List.mem_singleton.1 hb]
      have hone : (Buffered.append {} m).messageCount = 1 := rfl
      have hpos : (f.bufferSize : Int) ≠ 0 := Int.natCast_ne_zero.2 hsize
      dsimp only
      omega
  | old i b _ hb _ hroom =>
    intro hsize c hc
    rcases List.mem_or_eq_of_mem_set hc with hc | rfl
    · exact h hsize c hc
    · have hlt := hroom hsize
      have hone : (b.append m).messageCount = b.messageCount + 1 := rfl
      have hlimit : ((f.setBuffer i (b.append m)).log (.buffered m)).bufferSize = f.bufferSize := rfl
      rw [hlimit, hone]
      omega

theorem bufferSize_runActs (env : Environment) (acts : List Act) (f : InboundPublishFlow) :
    (runActs env acts f).1.bufferSize = f.bufferSize := by
  refine runActs_induct (P := fun f' _ => f'.bufferSize = f.bufferSize) ?_ ?_ env rfl
  · exact fun f' kind pid r _ h => h
  · exact fun f' r callback _ h _ => (f'.bufferSize_handOver r callback).trans h

theorem Bounded.runReader {f : InboundPublishFlow} (h : f.Bounded) (env : Environment)
    (acts : List Act) : (f.runReader env acts).Bounded := by
  refine h.congr (sameTables_runReader env acts f).buffers ?_
  have hsize := bufferSize_runActs env acts f
  unfold InboundPublishFlow.runReader
  split
  · next f' heq => rw [heq] at hsize; exact hsize
  · next f' acts' heq => rw [heq] at hsize; exact hsize

theorem Bounded.dispatch {f : InboundPublishFlow} {env : Environment}
    {handled : Except InboundError (InboundPublishFlow × List Act)} (h : f.Bounded)
    (hok : ∀ f' acts, handled = .ok (f', acts) → f'.Bounded) :
    (f.dispatch env handled).Bounded := by
  unfold InboundPublishFlow.dispatch
  split
  · exact h.congr rfl rfl
  · next f' acts => exact (hok f' acts rfl).runReader env acts

theorem Bounded.step {f : InboundPublishFlow} (hidle : f.IdleRest) (h : f.Bounded)
    (e : InboundEvent) : (f.step e).Bounded := by
  have hwaiting : (e = .drain ∨ (∃ i, e = .expire i) ∨ ∃ i k, e = .cancelWaiter i k) →
      (f.step e).Bounded := fun he => by
    rcases f.waiting_cases he with heq | ⟨i, b, b', hb, hsame, heq⟩ <;> rw [heq]
    · exact h
    · exact h.setBuffer hb hsame.messageCount.le
  cases e with
  | publish packet env =>
    rw [InboundPublishFlow.step, receivePublish]
    split
    · have hrec : (f.receive packet).Bounded := h.congr rfl rfl
      refine hrec.dispatch fun f' acts hhandle => ?_
      cases handlePublish_cases hhandle with
      | takesIn htakes _ => exact hrec.takesIn htakes
      | _ => exact hrec.congr rfl rfl
    all_goals exact h
  | pubrel pid env =>
    rw [InboundPublishFlow.step, receivePubrel]
    split
    · have hlog : (f.log (.pubrel pid)).Bounded := h.congr rfl rfl
      refine hlog.dispatch fun f' acts hhandle => ?_
      unfold handlePubrel at hhandle
      split at hhandle
      · cases hhandle
      · cases hhandle
        exact hlog.congr rfl rfl
    all_goals exact h
  | resumeReader env =>
    rw [InboundPublishFlow.step, resumeReader]
    split
    · next acts _ => exact h.runReader env acts
    all_goals exact h
  | interruptReader =>
    rw [InboundPublishFlow.step, interruptReader]
    split
    · exact h
    all_goals exact h.congr rfl rfl
  | ack k =>
    rw [InboundPublishFlow.step, ack]
    split
    · exact h
    · split
      · exact h
      · unfold runCallback
        split
        · exact h.congr rfl rfl
        · split <;> exact h.congr rfl rfl
        · exact h.congr rfl rfl
  | get queue => exact h.congr rfl rfl
  | subscriptions index => exact h.congr rfl rfl
  | drain => exact hwaiting (Or.inl rfl)
  | expire i => exact hwaiting (Or.inr (Or.inl ⟨i, rfl⟩))
  | cancelWaiter i k => exact hwaiting (Or.inr (Or.inr ⟨i, k, rfl⟩))
  | acquireLock i env => exact (bounded_drainRule i).acquireLock env h
  | resumeDelivery i env =>
    by_cases hkeep : ∀ b d, f.buffers[i]? = some b → b.holder = some d → d.cancelled = false
    · exact (bounded_drainRule i).resumeDelivery env hidle h hkeep
    · rw [InboundPublishFlow.step, resumeDelivery_of_cancelled hkeep]
      exact (bounded_drainRule i).interruptDelivery h fun b d hb _ => h.setBuffer hb (Int.le_refl _)
  | interruptDelivery i =>
    exact (bounded_drainRule i).interruptDelivery h fun b d hb _ => h.setBuffer hb (Int.le_refl _)
  | clear =>
    rw [InboundPublishFlow.step, InboundPublishFlow.clear]
    split
    · exact h
    · exact h.congr rfl rfl
    · next i _ =>
      split
      · exact h.congr rfl rfl
      · next b hb =>
        have hdrop : (f.logDropped b.publishes).Bounded := h.congr rfl rfl
        have hset : ((f.logDropped b.publishes).setBuffer i b.cancelExpiration.empty).Bounded :=
          hdrop.setEmpty rfl
        exact hset.congr rfl rfl

/-! ## Runs -/

/-- `_discard` of the messages, one after the other, fails for none of them. -/
def discards : Buffered → List Received → Bool
  | _, [] => true
  | b, m :: ms => (b.discard m).2 && discards (b.discard m).1 ms

theorem discards_of_accountOk {b : Buffered} {owned ms : List Received} (h : AccountOk b owned)
    (hsub : ms.Subperm owned) : discards b ms = true := by
  induction ms generalizing b owned with
  | nil => rfl
  | cons m ms ih =>
    have hm : m ∈ owned := hsub.subset List.mem_cons_self
    have hperm : owned.Perm (m :: owned.erase m) := List.perm_cons_erase hm
    obtain ⟨hok, hnext⟩ := (h.perm hperm).discard
    have hsub' : ms.Subperm (owned.erase m) := by
      rw [← List.subperm_cons m]
      exact hsub.trans hperm.subperm
    rw [discards, hok, ih hnext hsub']
    rfl

/-- The counters of an object agree with the messages it owns. -/
structure Accounted (f : InboundPublishFlow) (b : Buffered) : Prop where
  count : b.messageCount = b.owned.length
  topics : ∀ topic, b.topics.get? topic =
    if b.owned.countP (onTopic topic) = 0 then none else some (b.owned.countP (onTopic topic) : Int)
  ids : ∀ pid, pid ∈ b.packetIds ↔ ∃ m ∈ b.owned, m.packet.packetId = some pid
  limit : 0 ≤ b.messageCount ∧ (f.bufferSize ≠ 0 → b.messageCount ≤ f.bufferSize)
  /-- No topic is missing when messages are discarded, in whatever order. -/
  discards : ∀ ms : List Received, ms.Subperm b.owned → discards b ms = true

/-- **Replay accounting.** As long as `clear` finds no task suspended inside the lock, the
    counters of every object agree with its messages. -/
theorem replay_accounted (bufferSize : Nat) (maxsize : Nat → Nat) (sessionPresent : Bool)
    (f : InboundPublishFlow)
    (h : Reach step clearsUnlocked (fresh bufferSize maxsize sessionPresent) f) :
    ∀ b ∈ f.buffers, f.Accounted b := by
  have hinv : f.IdleRest ∧ (f.Accounts fun _ => []) ∧ f.Bounded := by
    refine Reach.invariant (I := fun f => f.IdleRest ∧ (f.Accounts fun _ => []) ∧ f.Bounded) h
      ⟨idleRest_fresh _ _ _, ⟨fun j b hb => (by cases hb), fun _ b hb => (by cases hb)⟩⟩
      fun f e hf hok => ?_
    exact ⟨hf.1.step e, hf.2.1.step hf.1 hok, hf.2.2.step hf.1 e⟩
  obtain ⟨-, hacc, hbound⟩ := hinv
  intro b hb
  obtain ⟨j, hj⟩ := List.mem_iff_getElem?.1 hb
  have hok : AccountOk b b.owned := by
    have hok := (hacc j b hj).1
    rw [List.append_nil] at hok
    exact hok
  refine ⟨hok.count, hok.topics, fun pid => ?_, ⟨?_, fun hsize => hbound hsize b hb⟩,
    fun ms hsub => discards_of_accountOk hok hsub⟩
  · rw [hok.ids, List.countP_pos_iff]
    exact exists_congr fun m => and_congr_right fun _ => decide_eq_true_iff
  · rw [hok.count]
    exact Int.natCast_nonneg _

/-- Two messages are held, `a` is subscribed, and a drain is suspended in the PUBACK of the
    first when it is interrupted. -/
def interruptedDrainRun : List InboundEvent :=
  [.publish (publishA .atLeastOnce (some 1)) {}, .publish (publishA .atLeastOnce (some 2)) {},
    .subscriptions (indexA true), .drain, .acquireLock 0 slowWrites, .interruptDelivery 0, .clear]

theorem replay_accounted_interruptedDrainRun :
    (((interruptedDrainRun.take 6).foldl step (fresh 2 (fun _ => 0) true)).buffers.map fun b =>
      (b.messageCount, b.owned.length)) = [(2, 2)] ∧
    ∀ b ∈ (interruptedDrainRun.foldl step (fresh 2 (fun _ => 0) true)).buffers,
      (interruptedDrainRun.foldl step (fresh 2 (fun _ => 0) true)).Accounted b := by
  refine ⟨by decide +kernel, replay_accounted 2 (fun _ => 0) true _ (Reach.foldl ?_)⟩
  have hfree : ∀ b ∈ ((interruptedDrainRun.take 6).foldl step
      (fresh 2 (fun _ => 0) true)).buffers, b.holder = none := by decide +kernel
  refine ⟨?_, ?_, ?_, ?_, ?_, ?_, fun _ i b _ hb => hfree b (List.mem_of_getElem? hb), trivial⟩ <;>
    exact fun he => by cases he

/-- The connection ends while a drain is suspended in the PUBACK of the first of two held
    messages; its write then completes. -/
def clearedDrainRun : List InboundEvent :=
  [.publish (publishA .atLeastOnce (some 1)) {}, .publish (publishA .atLeastOnce (some 2)) {},
    .subscriptions (indexA true), .drain, .acquireLock 0 slowWrites, .interruptReader, .clear,
    .resumeDelivery 0 {}]

/-- The drain finds no topic to discard, and the count goes below zero. -/
theorem replay_not_accounted :
    ¬ (∀ f, Reach step anyStep (fresh 2 (fun _ => 0) true) f →
      ∀ b ∈ f.buffers, f.Accounted b) ∧
    ((clearedDrainRun.take 7).foldl step (fresh 2 (fun _ => 0) true)).buffers.map (fun b =>
      (b.messageCount, b.owned.length, b.holder.map fun d => (b.discard d.current).2)) =
        [(0, 2, some false)] ∧
    (clearedDrainRun.foldl step (fresh 2 (fun _ => 0) true)).buffers.map (fun b =>
      (b.messageCount, b.owned.length)) = [(-1, 1)] := by
  refine ⟨fun h => ?_, by decide +kernel, by decide +kernel⟩
  have hall := h _ (Reach.foldl (meets_anyStep clearedDrainRun))
  have hneg : ∃ b ∈ (clearedDrainRun.foldl step (fresh 2 (fun _ => 0) true)).buffers,
      b.messageCount = -1 := by decide +kernel
  obtain ⟨b, hb, hcount⟩ := hneg
  have hpos := (hall b hb).limit.1
  omega

end InboundPublishFlow

end Zmqtt
