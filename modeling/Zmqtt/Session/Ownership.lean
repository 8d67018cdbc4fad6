/-
  Ownership of packet ids: over any run of one connection the ids in use are exactly
  the keys of the four tables, each in one table (`IdsOwned`).

  An id enters a table in the step that acquires it and leaves it in the step that
  releases it, so each operation on the tables is a permutation of the owned ids with
  one id added or removed. Only the `finally` block of a subscribe or unsubscribe call
  releases without having looked its id up; it finds its own entry because a call that
  has not finished still owns it (`CallsOwn`).
-/
import Zmqtt.Session.Protocol

namespace Zmqtt

namespace SessionState

/-- The keys of the four tables. -/
def ownedIds (st : SessionState) : List Int :=
  st.inflightQos1.keys ++ (st.inflightQos2Out.keys ++ (st.pendingSubs.keys ++
    st.pendingUnsubs.keys))

/-- The ids in use are the disjoint union of the keys of the four tables. -/
structure IdsOwned (st : SessionState) : Prop where
  nodup : st.ownedIds.Nodup
  inUse : ∀ id, id ∈ st.packetIds.inUse ↔ id ∈ st.ownedIds
  range : ∀ id ∈ st.packetIds.inUse, PacketIdPool.InRange id
  next : PacketIdPool.InRange st.packetIds.next

/-- `pid` is a key of the table of `kind`. -/
def Owns (st : SessionState) (kind : CallKind) (pid : Int) : Prop :=
  match kind with
  | .publishQos1 => pid ∈ st.inflightQos1.keys
  | .publishQos2 => pid ∈ st.inflightQos2Out.keys
  | .subscribe => pid ∈ st.pendingSubs.keys
  | .unsubscribe => pid ∈ st.pendingUnsubs.keys

/-! ## Adding and removing one id -/

theorem Owns.mem {st : SessionState} {kind : CallKind} {pid : Int} (h : st.Owns kind pid) :
    pid ∈ st.ownedIds := by
  cases kind <;> simp only [Owns] at h <;> simp [ownedIds, h]

/-- The owned ids after a registration: the new id and those before. -/
theorem ownedIds_register {st : SessionState} {pid : Int} (kind : CallKind) (call : Nat)
    (h : pid ∉ st.ownedIds) : (st.register kind pid call).ownedIds.Perm (pid :: st.ownedIds) := by
  simp only [ownedIds, List.mem_append, not_or] at h
  obtain ⟨h1, h2, h3, h4⟩ := h
  have hend : ∀ (a b : List Int), (a ++ ([pid] ++ b)).Perm (pid :: (a ++ b)) :=
    fun a b => List.perm_middle
  cases kind with
  | publishQos1 =>
    simp only [register, ownedIds, Dict.keys_set_of_not_mem _ h1, List.append_assoc]
    exact hend _ _
  | publishQos2 =>
    simp only [register, ownedIds, Dict.keys_set_of_not_mem _ h2, List.append_assoc]
    rw [← List.append_assoc, ← List.append_assoc st.inflightQos1.keys]
    exact hend _ _
  | subscribe =>
    simp only [register, ownedIds, Dict.keys_set_of_not_mem _ h3, List.append_assoc]
    rw [← List.append_assoc, ← List.append_assoc, ← List.append_assoc st.inflightQos1.keys,
      ← List.append_assoc (st.inflightQos1.keys ++ st.inflightQos2Out.keys)]
    exact hend _ _
  | unsubscribe =>
    simp only [register, ownedIds, Dict.keys_set_of_not_mem _ h4]
    have := hend (st.inflightQos1.keys ++ (st.inflightQos2Out.keys ++ (st.pendingSubs.keys ++
      st.pendingUnsubs.keys))) []
    simpa using this

/-- The owned ids before a removal: the removed id and those left. -/
theorem ownedIds_popRelease {st : SessionState} {kind : CallKind} {pid : Int}
    (hn : st.ownedIds.Nodup) (h : st.Owns kind pid) :
    st.ownedIds.Perm (pid :: (st.popRelease kind pid).ownedIds) := by
  have happ : ∀ {a a' b c : List Int}, a.Perm (pid :: a') →
      (b ++ (a ++ c)).Perm (pid :: (b ++ (a' ++ c))) := by
    intro a a' b c ha
    have h1 : (a ++ c).Perm (pid :: (a' ++ c)) := ha.append_right c
    exact (h1.append_left b).trans List.perm_middle
  simp only [ownedIds, List.nodup_append] at hn
  obtain ⟨n1, ⟨n2, ⟨n3, n4, -⟩, -⟩, -⟩ := hn
  cases kind with
  | publishQos1 =>
    have hp := Dict.keys_perm_pop n1 h
    simpa [popRelease, ownedIds] using happ (b := []) hp
  | publishQos2 =>
    have hp := Dict.keys_perm_pop n2 h
    simpa [popRelease, ownedIds] using happ hp
  | subscribe =>
    have hp := happ (b := st.inflightQos2Out.keys) (c := st.pendingUnsubs.keys)
      (Dict.keys_perm_pop n3 h)
    simpa [popRelease, ownedIds] using happ (c := []) (by simpa using hp)
  | unsubscribe =>
    have hp := happ (b := st.inflightQos1.keys ++ (st.inflightQos2Out.keys ++ st.pendingSubs.keys))
      (c := []) (Dict.keys_perm_pop n4 h)
    simpa [popRelease, ownedIds] using hp

/-- Acquiring a free id and registering it keeps the invariant. -/
theorem IdsOwned.register {st : SessionState} {pid : Int} {pool : PacketIdPool} (h : st.IdsOwned)
    (hacq : st.packetIds.acquire = some (pid, pool)) (kind : CallKind) (call : Nat) :
    (({ st with packetIds := pool } : SessionState).register kind pid call).IdsOwned := by
  obtain ⟨hfree, hrange, huse, hnext⟩ := PacketIdPool.acquire_eq_some h.next hacq
  have hnot : pid ∉ st.ownedIds := fun hm => hfree ((h.inUse pid).2 hm)
  have hperm : (({ st with packetIds := pool } : SessionState).register kind pid
      call).ownedIds.Perm (pid :: st.ownedIds) := ownedIds_register kind call hnot
  have hpool : (({ st with packetIds := pool } : SessionState).register kind pid
      call).packetIds = pool := by cases kind <;> rfl
  refine ⟨?_, ?_, ?_, ?_⟩
  · rw [hperm.nodup_iff, List.nodup_cons]
    exact ⟨hnot, h.nodup⟩
  · intro id
    rw [hperm.mem_iff, hpool, huse, Finset.mem_insert, List.mem_cons, h.inUse]
  · intro id hid
    rw [hpool, huse, Finset.mem_insert] at hid
    rcases hid with rfl | hid
    · exact hrange
    · exact h.range id hid
  · rw [hpool]
    exact hnext

/-- Removing an owned id from its table and releasing it keeps the invariant. -/
theorem IdsOwned.popRelease {st : SessionState} {kind : CallKind} {pid : Int} (h : st.IdsOwned)
    (ho : st.Owns kind pid) : (st.popRelease kind pid).IdsOwned := by
  have hperm := ownedIds_popRelease h.nodup ho
  have hnd := h.nodup
  rw [hperm.nodup_iff, List.nodup_cons] at hnd
  have hin : PacketIdPool.InRange pid := h.range pid ((h.inUse pid).2 ho.mem)
  have hpool : (st.popRelease kind pid).packetIds = st.packetIds.release pid := by
    cases kind <;> rfl
  refine ⟨hnd.2, ?_, ?_, ?_⟩
  · intro id
    rw [hpool, PacketIdPool.release, Finset.mem_erase, h.inUse, hperm.mem_iff, List.mem_cons]
    constructor
    · rintro ⟨hne, hid | hid⟩
      · exact absurd hid hne
      · exact hid
    · intro hid
      refine ⟨?_, Or.inr hid⟩
      rintro rfl
      exact hnd.1 hid
  · intro id hid
    rw [hpool, PacketIdPool.release, Finset.mem_erase] at hid
    exact h.range id hid.2
  · rw [hpool, PacketIdPool.release]
    have hn := h.next
    exact ⟨le_min hn.1 hin.1, (min_le_left _ _).trans hn.2⟩

/-- The call registered for `pid` in the table of `kind`. -/
def lookup (st : SessionState) (kind : CallKind) (pid : Int) : Option Nat :=
  match kind with
  | .publishQos1 => st.inflightQos1.get? pid
  | .publishQos2 => (st.inflightQos2Out.get? pid).map OutboundQoS2Flight.call
  | .subscribe => st.pendingSubs.get? pid
  | .unsubscribe => st.pendingUnsubs.get? pid

theorem owns_of_lookup {st : SessionState} {kind : CallKind} {pid : Int} {i : Nat}
    (h : st.lookup kind pid = some i) : st.Owns kind pid := by
  cases kind with
  | publishQos1 => exact Dict.mem_keys_of_get? h
  | publishQos2 =>
    obtain ⟨flight, hf, -⟩ := Option.map_eq_some_iff.1 h
    exact Dict.mem_keys_of_get? hf
  | subscribe => exact Dict.mem_keys_of_get? h
  | unsubscribe => exact Dict.mem_keys_of_get? h

/-- Registering a call changes its own entry only. -/
theorem lookup_register (st : SessionState) (kind kind' : CallKind) (pid pid' : Int) (i : Nat) :
    (st.register kind pid i).lookup kind' pid' =
      if kind = kind' ∧ pid = pid' then some i else st.lookup kind' pid' := by
  by_cases hp : pid = pid'
  · subst hp
    cases kind <;> cases kind' <;> simp [register, lookup, Dict.get?_set]
  · cases kind <;> cases kind' <;> simp [register, lookup, Dict.get?_set, hp]

/-- Removing an id changes its own entry only. -/
theorem lookup_popRelease (st : SessionState) (kind kind' : CallKind) (pid pid' : Int) :
    (st.popRelease kind pid).lookup kind' pid' =
      if kind = kind' ∧ pid = pid' then none else st.lookup kind' pid' := by
  by_cases hp : pid = pid'
  · subst hp
    cases kind <;> cases kind' <;> simp [popRelease, lookup, Dict.get?_pop]
  · cases kind <;> cases kind' <;> simp [popRelease, lookup, Dict.get?_pop, hp]

theorem lookup_of_popRelease {st : SessionState} {kind kind' : CallKind} {pid pid' : Int} {i : Nat}
    (h : (st.popRelease kind pid).lookup kind' pid' = some i) :
    st.lookup kind' pid' = some i := by
  rw [lookup_popRelease] at h
  split at h
  · cases h
  · exact h

@[simp] theorem lookup_packetIds (st : SessionState) (pool : PacketIdPool) (kind : CallKind)
    (pid : Int) : ({ st with packetIds := pool } : SessionState).lookup kind pid =
      st.lookup kind pid := by
  cases kind <;> rfl

end SessionState

/-! ## Calls own their ids -/

/-- The kinds of call with a `finally` block. -/
def CallKind.hasFinally : CallKind → Bool
  | .publishQos1 | .publishQos2 => false
  | .subscribe | .unsubscribe => true

theorem SessionState.cleanup_eq (st : SessionState) (kind : CallKind) (pid : Int) :
    st.cleanup kind pid = if kind.hasFinally then st.popRelease kind pid else st := by
  cases kind <;> rfl

def Pc.isFinished : Pc → Bool
  | .finished _ => true
  | .sending | .waiting => false

namespace Protocol

/-- A subscribe or unsubscribe call that has not finished is registered under its id. -/
def CallsOwn (s : Protocol) : Prop :=
  ∀ i c, s.calls[i]? = some c → c.pc.isFinished = false → c.kind.hasFinally = true →
    s.state.lookup c.kind c.pid = some i

/-- An entry of a table belongs to a call of this kind with this id. -/
def EntriesOwn (s : Protocol) : Prop :=
  ∀ kind pid i, s.state.lookup kind pid = some i →
    ∃ c, s.calls[i]? = some c ∧ c.kind = kind ∧ c.pid = pid

structure OwnershipInv (s : Protocol) : Prop where
  ids : s.state.IdsOwned
  calls : s.CallsOwn
  entries : s.EntriesOwn

/-- Changing a call, but not its kind and id, keeps the owners of the entries. -/
theorem EntriesOwn.set {s : Protocol} (h : s.EntriesOwn) {i : Nat} {c c' : Call}
    (hi : s.calls[i]? = some c) (hk : c'.kind = c.kind) (hp : c'.pid = c.pid)
    {st : SessionState} (hst : ∀ kind pid j, st.lookup kind pid = some j →
      s.state.lookup kind pid = some j) :
    ({ s with state := st, calls := s.calls.set i c' } : Protocol).EntriesOwn := by
  intro kind pid j hl
  obtain ⟨d, hd, hdk, hdp⟩ := h kind pid j (hst kind pid j hl)
  dsimp only
  rw [List.getElem?_set]
  split
  · next hij =>
    subst hij
    rw [hi] at hd
    obtain rfl := Option.some.inj hd
    rw [if_pos (List.getElem?_eq_some_iff.1 hi).1]
    exact ⟨c', rfl, hk.trans hdk, hp.trans hdp⟩
  · exact ⟨d, hd, hdk, hdp⟩

/-- Changing a call, but not its id nor whether it has finished. -/
theorem OwnershipInv.set {s : Protocol} (h : s.OwnershipInv) {i : Nat} {c c' : Call}
    (hi : s.calls[i]? = some c) (hk : c'.kind = c.kind) (hp : c'.pid = c.pid)
    (hpc : c'.pc.isFinished = c.pc.isFinished) :
    ({ s with calls := s.calls.set i c' } : Protocol).OwnershipInv := by
  refine ⟨h.ids, ?_, h.entries.set hi hk hp fun _ _ _ hl => hl⟩
  intro j d hd hfin hkind
  dsimp only at hd
  rw [List.getElem?_set] at hd
  split at hd
  · next hij =>
    subst hij
    split at hd
    · obtain rfl := Option.some.inj hd
      rw [hk, hp]
      exact h.calls i c hi (hpc ▸ hfin) (hk ▸ hkind)
    · cases hd
  · exact h.calls j d hd hfin hkind

theorem OwnershipInv.setFuture {s : Protocol} (h : s.OwnershipInv) (i : Nat)
    (future : FutureState) : (s.setFuture i future).OwnershipInv := by
  unfold Protocol.setFuture
  split
  · exact h
  · next c hi =>
    split
    · exact h.set hi rfl rfl rfl
    · exact h

theorem OwnershipInv.setResult {s s' : Protocol} (h : s.OwnershipInv) {i : Nat} {packet : Packet}
    (hs : s.setResult i packet = .ok s') : s'.OwnershipInv := by
  unfold Protocol.setResult at hs
  split at hs
  · cases hs
  · next c hi =>
    split at hs
    · cases hs
      exact h.set hi rfl rfl rfl
    · cases hs

/-- A reply that ends an exchange: its id leaves the table and the pool. -/
theorem OwnershipInv.popRelease {s : Protocol} (h : s.OwnershipInv) {kind : CallKind} {pid : Int}
    {i : Nat} (hl : s.state.lookup kind pid = some i) (hk : kind.hasFinally = false) :
    ({ s with state := s.state.popRelease kind pid } : Protocol).OwnershipInv := by
  refine ⟨h.ids.popRelease (SessionState.owns_of_lookup hl), ?_, ?_⟩
  · intro j c hc hfin hkind
    dsimp only at hc ⊢
    rw [SessionState.lookup_popRelease, if_neg]
    · exact h.calls j c hc hfin hkind
    · rintro ⟨rfl, -⟩
      rw [hk] at hkind
      cases hkind
  · intro kind' pid' j hj
    exact h.entries kind' pid' j (SessionState.lookup_of_popRelease hj)

/-- The end of a call, with its `finally` block. -/
theorem OwnershipInv.finish {s : Protocol} (h : s.OwnershipInv) {i : Nat} {c : Call}
    (hi : s.calls[i]? = some c) (hfin : c.pc.isFinished = false) (outcome : Outcome) :
    (s.finish i c outcome).OwnershipInv := by
  have hset : ∀ {st : SessionState}, st.IdsOwned →
      (∀ j d, j ≠ i → s.calls[j]? = some d → d.pc.isFinished = false →
        d.kind.hasFinally = true → st.lookup d.kind d.pid = some j) →
      (∀ kind pid j, st.lookup kind pid = some j → s.state.lookup kind pid = some j) →
      ({ s with state := st, calls := s.calls.set i { c with pc := .finished outcome } } :
        Protocol).OwnershipInv := by
    intro st hids hcalls hst
    refine ⟨hids, ?_, h.entries.set hi (by rfl) (by rfl) hst⟩
    intro j d hd hdf hdk
    dsimp only at hd
    rw [List.getElem?_set] at hd
    split at hd
    · split at hd
      · obtain rfl := Option.some.inj hd
        cases hdf
      · cases hd
    · next hij => exact hcalls j d (Ne.symm hij) hd hdf hdk
  rw [Protocol.finish, SessionState.cleanup_eq]
  split
  · next hk =>
    have hl := h.calls i c hi hfin hk
    refine hset (h.ids.popRelease (SessionState.owns_of_lookup hl)) ?_
      fun _ _ _ => SessionState.lookup_of_popRelease
    intro j d hj hd hdf hdk
    rw [SessionState.lookup_popRelease, if_neg]
    · exact h.calls j d hd hdf hdk
    · -- two calls do not share an id of one table
      rintro ⟨hkind, hpid⟩
      have hd' := h.calls j d hd hdf hdk
      rw [← hkind, ← hpid, hl] at hd'
      exact hj (Option.some.inj hd').symm
  · exact hset h.ids (fun j d _ hd hdf hdk => h.calls j d hd hdf hdk) fun _ _ _ hl => hl

theorem OwnershipInv.startCall {s : Protocol} (h : s.OwnershipInv) (kind : CallKind)
    (filters : List String) (packetOf : Int → Packet) :
    (s.startCall kind filters packetOf).OwnershipInv := by
  unfold Protocol.startCall
  split
  · exact h
  · split
    · exact h
    · next pid pool hacq =>
      have hreg := h.ids.register hacq kind s.calls.length
      have hfree := (PacketIdPool.acquire_eq_some h.ids.next hacq).1
      -- the calls before this one own other ids
      have hne : ∀ (j : Nat) (d : Call), s.calls[j]? = some d → d.pc.isFinished = false →
          d.kind.hasFinally = true → pid ≠ d.pid := by
        intro j d hd hdf hdk he
        have hl := h.calls j d hd hdf hdk
        exact hfree ((h.ids.inUse pid).2 (he ▸ (SessionState.owns_of_lookup hl).mem))
      have hold : ∀ (j : Nat) (d : Call), s.calls[j]? = some d → d.pc.isFinished = false →
          d.kind.hasFinally = true → (({ s.state with packetIds := pool } :
            SessionState).register kind pid s.calls.length).lookup d.kind d.pid = some j := by
        intro j d hd hdf hdk
        rw [SessionState.lookup_register, if_neg (fun hc => hne j d hd hdf hdk hc.2),
          SessionState.lookup_packetIds]
        exact h.calls j d hd hdf hdk
      have hself : (({ s.state with packetIds := pool } :
          SessionState).register kind pid s.calls.length).lookup kind pid =
          some s.calls.length := by
        rw [SessionState.lookup_register, if_pos ⟨rfl, rfl⟩]
      have hentries : ∀ (d : Call), d.kind = kind → d.pid = pid → ∀ kind' pid' j,
          (({ s.state with packetIds := pool } : SessionState).register kind pid
            s.calls.length).lookup kind' pid' = some j →
          ∃ c, (s.calls ++ [d])[j]? = some c ∧ c.kind = kind' ∧ c.pid = pid' := by
        intro d hdk hdp kind' pid' j hl
        rw [SessionState.lookup_register] at hl
        split at hl
        · next he =>
          obtain rfl := Option.some.inj hl
          refine ⟨d, by simp, hdk.trans he.1, hdp.trans he.2⟩
        · rw [SessionState.lookup_packetIds] at hl
          obtain ⟨c, hc, hck, hcp⟩ := h.entries kind' pid' j hl
          exact ⟨c, by rw [List.getElem?_append_left (List.getElem?_eq_some_iff.1 hc).1, hc], hck,
            hcp⟩
      dsimp only
      split
      · rw [SessionState.cleanup_eq]
        refine ⟨?_, ?_, ?_⟩
        · dsimp only
          split
          · exact hreg.popRelease (SessionState.owns_of_lookup hself)
          · exact hreg
        · intro j d hd hdf hdk
          dsimp only at hd ⊢
          rw [List.getElem?_append] at hd
          split at hd
          · have hl := hold j d hd hdf hdk
            split
            · rw [SessionState.lookup_popRelease, if_neg (fun hc => hne j d hd hdf hdk hc.2)]
              exact hl
            · exact hl
          · have hmem := List.mem_of_getElem? hd
            rw [List.mem_singleton] at hmem
            subst hmem
            cases hdf
        · intro kind' pid' j hl
          refine hentries _ ?_ ?_ kind' pid' j ?_
          · rfl
          · rfl
          · dsimp only at hl
            split at hl
            · exact SessionState.lookup_of_popRelease hl
            · exact hl
      · refine ⟨hreg, ?_, fun kind' pid' j hl => hentries _ rfl rfl kind' pid' j hl⟩
        intro j d hd hdf hdk
        dsimp only at hd ⊢
        by_cases hj : j < s.calls.length
        · rw [List.getElem?_append_left hj] at hd
          exact hold j d hd hdf hdk
        · have hj' : j = s.calls.length := by
            have hlt := (List.getElem?_eq_some_iff.1 hd).1
            rw [List.length_append, List.length_singleton] at hlt
            omega
          subst hj'
          rw [List.getElem?_append_right (le_refl _), Nat.sub_self] at hd
          obtain rfl := Option.some.inj hd
          exact hself

theorem OwnershipInv.publish {s : Protocol} (h : s.OwnershipInv) (packet : Publish) :
    (s.publish packet).OwnershipInv := by
  unfold Protocol.publish
  split
  · exact h
  · split
    · split
      · exact h
      · exact ⟨h.ids, h.calls, h.entries⟩
    · exact h.startCall _ _ _
    · exact h.startCall _ _ _

theorem OwnershipInv.resume {s : Protocol} (h : s.OwnershipInv) (i : Nat) (written : Bool) :
    (s.resume i written).OwnershipInv := by
  unfold Protocol.resume
  split
  · exact h
  · next c hi =>
    split
    · exact h
    · next hpc =>
      have hfin : c.pc.isFinished = false := by rw [hpc]; rfl
      split
      · exact h.finish hi hfin _
      · split
        · split
          · exact h.set hi rfl rfl (by rw [hpc]; rfl)
          · exact h.finish hi hfin _
        · exact h.finish hi hfin _
    · next hpc =>
      have hfin : c.pc.isFinished = false := by rw [hpc]; rfl
      split
      · exact h
      · split
        · exact h.finish hi hfin _
        · exact h.finish hi hfin _

theorem OwnershipInv.cancel {s : Protocol} (h : s.OwnershipInv) (i : Nat) :
    (s.cancel i).OwnershipInv := by
  unfold Protocol.cancel
  split
  · exact h
  · next c hi =>
    split
    · exact h
    · exact h.set hi rfl rfl rfl
    · split
      · exact h.set hi rfl rfl rfl
      · exact h.set hi rfl rfl rfl

/-- The state of a flight changes, its id stays. -/
theorem OwnershipInv.pubrec {s : Protocol} (h : s.OwnershipInv) {pid : Int}
    {flight flight' : OutboundQoS2Flight} (hf : s.state.inflightQos2Out.get? pid = some flight)
    (hcall : flight'.call = flight.call) (readLoop : ReadLoop) (written : List (Packet × Option Nat)) :
    ({ s with
        state := { s.state with inflightQos2Out := s.state.inflightQos2Out.set pid flight' }
        readLoop
        written } : Protocol).OwnershipInv := by
  have hkeys : (s.state.inflightQos2Out.set pid flight').keys = s.state.inflightQos2Out.keys :=
    Dict.keys_set_of_mem flight' (Dict.mem_keys_of_get? hf)
  have howned : ({ s.state with inflightQos2Out := s.state.inflightQos2Out.set pid flight' } :
      SessionState).ownedIds = s.state.ownedIds := by
    simp only [SessionState.ownedIds, hkeys]
  have hlookup : ∀ kind pid', ({ s.state with
      inflightQos2Out := s.state.inflightQos2Out.set pid flight' } : SessionState).lookup kind pid' =
      s.state.lookup kind pid' := by
    intro kind pid'
    cases kind with
    | publishQos2 =>
      simp only [SessionState.lookup, Dict.get?_set]
      split
      · next he => rw [← he, hf, Option.map_some, Option.map_some, hcall]
      · rfl
    | publishQos1 => rfl
    | subscribe => rfl
    | unsubscribe => rfl
  refine ⟨⟨?_, ?_, h.ids.range, h.ids.next⟩, ?_, ?_⟩
  · dsimp only
    rw [howned]
    exact h.ids.nodup
  · dsimp only
    rw [howned]
    exact h.ids.inUse
  · intro j c hc hfin hkind
    exact (hlookup _ _).trans (h.calls j c hc hfin hkind)
  · intro kind pid' j hl
    exact h.entries kind pid' j ((hlookup kind pid').symm.trans hl)

theorem OwnershipInv.dispatch {s s' : Protocol} (h : s.OwnershipInv) {packet : Packet}
    (hd : s.dispatch packet = .ok s') : s'.OwnershipInv := by
  cases packet with
  | publish p => cases hd; exact h
  | pubrel p => cases hd; exact h
  | pingresp => cases hd; exact h
  | puback p =>
    rw [Protocol.dispatch, handlePuback] at hd
    split at hd
    · cases hd
    · next i hl =>
      have hl' : s.state.lookup .publishQos1 p.packetId = some i := hl
      cases hd
      exact (h.popRelease hl' rfl).setFuture _ _
  | pubrec p =>
    rw [Protocol.dispatch, handlePubrec] at hd
    split at hd
    · cases hd
    · next flight hf =>
      have hl : s.state.lookup .publishQos2 p.packetId = some flight.call := by
        rw [SessionState.lookup, hf]; rfl
      split at hd
      · cases hd
      · split at hd
        · cases hd
          exact (h.popRelease hl rfl).setFuture _ _
        · cases hd
          exact h.pubrec hf (by rfl) _ _
  | pubcomp p =>
    rw [Protocol.dispatch, handlePubcomp] at hd
    split at hd
    · cases hd
    · next flight hf =>
      have hl : s.state.lookup .publishQos2 p.packetId = some flight.call := by
        rw [SessionState.lookup, hf]; rfl
      cases hd
      exact (h.popRelease hl rfl).setFuture _ _
  | suback p =>
    rw [Protocol.dispatch, handleSuback] at hd
    split at hd
    · cases hd
    · exact h.setResult hd
  | unsuback p =>
    rw [Protocol.dispatch, handleUnsuback] at hd
    split at hd
    · cases hd
    · exact h.setResult hd
  | auth p =>
    rw [Protocol.dispatch] at hd
    split at hd
    · cases hd
    · cases hd; exact h
  | disconnect p => cases hd
  | connect p => cases hd
  | connack p => cases hd
  | subscribe p => cases hd
  | unsubscribe p => cases hd
  | pingreq => cases hd

theorem OwnershipInv.receive {s : Protocol} (h : s.OwnershipInv) (packet : Packet) :
    (s.receive packet).OwnershipInv := by
  unfold Protocol.receive
  split
  · split
    · next hd => exact h.dispatch hd
    · exact ⟨h.ids, h.calls, h.entries⟩
  · exact h
  · exact h

theorem OwnershipInv.runExit {s : Protocol} (h : s.OwnershipInv) : s.runExit.OwnershipInv := by
  have hfold : ∀ (is : List Nat) (s : Protocol), s.OwnershipInv →
      (is.foldl (fun s i => s.setFuture i (.exception .disconnected)) s).OwnershipInv := by
    intro is
    induction is with
    | nil => intro s hs; exact hs
    | cons i is ih => intro s hs; exact ih _ (hs.setFuture i _)
  exact hfold _ _ ⟨h.ids, h.calls, h.entries⟩

/-- Every step of any task keeps the ownership of ids. -/
theorem OwnershipInv.step {s : Protocol} (h : s.OwnershipInv) (e : ProtocolEvent) :
    (s.step e).OwnershipInv := by
  cases e with
  | publish packet => exact h.publish packet
  | sendSubscribe filters identifier => exact h.startCall _ _ _
  | sendUnsubscribe filters => exact h.startCall _ _ _
  | resume i written => exact h.resume i written
  | cancel i => exact h.cancel i
  | receive packet => exact h.receive packet
  | resumeReadLoop written =>
    rw [Protocol.step, Protocol.resumeReadLoop]
    split
    · exact ⟨h.ids, h.calls, h.entries⟩
    · exact h
    · exact h
  | runExit => exact h.runExit

theorem ownershipInv_fresh (version : Version) (maxPublishQos : QoS) :
    (fresh version maxPublishQos).OwnershipInv := by
  refine ⟨⟨List.nodup_nil, ?_, ?_, ?_⟩, ?_, ?_⟩
  · intro id
    simp [fresh, SessionState.ownedIds]
  · intro id hid
    simp [fresh] at hid
  · constructor <;> simp [fresh]
  · intro i c hc
    simp [fresh] at hc
  · intro kind pid i hl
    cases kind <;> cases hl

theorem ownershipInv_of_reach {version : Version} {maxPublishQos : QoS} {s : Protocol}
    (h : Reach step anyStep (fresh version maxPublishQos) s) : s.OwnershipInv :=
  h.invariant (ownershipInv_fresh version maxPublishQos) fun _ e hs _ => hs.step e

/-- **Packet-id ownership.** In every state reached on a connection, by calls, their
    failures and cancellations, and any packets from the broker, the ids in use are the
    disjoint union of the keys of the four tables, all ids lie in 1..65535, and an id that
    `acquire` returns is in none of the tables. -/
theorem packet_ids_owned (version : Version) (maxPublishQos : QoS) (s : Protocol)
    (h : Reach step anyStep (fresh version maxPublishQos) s) :
    s.state.packetIds.inUse = s.state.ownedIds.toFinset ∧ s.state.ownedIds.Nodup ∧
    (∀ id ∈ s.state.packetIds.inUse, 1 ≤ id ∧ id ≤ 65535) ∧
    (∀ pid pool, s.state.packetIds.acquire = some (pid, pool) →
      pid ∉ s.state.inflightQos1.keys ∧ pid ∉ s.state.inflightQos2Out.keys ∧
      pid ∉ s.state.pendingSubs.keys ∧ pid ∉ s.state.pendingUnsubs.keys ∧
      1 ≤ pid ∧ pid ≤ 65535) := by
  have hinv := ownershipInv_of_reach h
  refine ⟨?_, hinv.ids.nodup, hinv.ids.range, ?_⟩
  · ext id
    rw [List.mem_toFinset, hinv.ids.inUse]
  · intro pid pool hacq
    obtain ⟨hfree, hrange, -, -⟩ := PacketIdPool.acquire_eq_some hinv.ids.next hacq
    rw [hinv.ids.inUse] at hfree
    simp only [SessionState.ownedIds, List.mem_append, not_or] at hfree
    exact ⟨hfree.1, hfree.2.1, hfree.2.2.1, hfree.2.2.2, hrange⟩

/-- A QoS 1 publish that was cancelled in its write, a subscribe, and a stray PUBCOMP. -/
def sampleEvents : List ProtocolEvent :=
  [.publish ⟨"a", [], .atLeastOnce, false, false, none, none⟩, .cancel 0, .resume 0 true,
    .sendSubscribe [{ topicFilter := "b", qos := .atMostOnce }] none,
    .receive (.pubcomp { packetId := 9 })]

theorem packet_ids_owned_sampleEvents :
    (sampleEvents.foldl step (fresh .v311 .exactlyOnce)).state.packetIds.inUse = {1, 2} ∧
    (sampleEvents.foldl step (fresh .v311 .exactlyOnce)).state.packetIds.inUse =
      (sampleEvents.foldl step (fresh .v311 .exactlyOnce)).state.ownedIds.toFinset :=
  ⟨by decide +kernel,
    (packet_ids_owned .v311 .exactlyOnce _ (Reach.foldl (meets_anyStep sampleEvents))).1⟩

end Protocol

end Zmqtt
