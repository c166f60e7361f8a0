import CxlLock.Faa.SeveralLocks

/-!
# Timeouts of the ticket lock

A request that times out is withdrawn by `release_lock`, which clears the owner whoever it is:
the ticket lock has no test for ownership.  On one lock this takes the name of the holder out
of `owner_node` (`cancel_clears_owner`) but not the lock from the holder.  Its ticket is the
smallest one published, so the next scan grants the lock to the holder again, and exclusion
holds in every run (`Tickets.exclusive`).
-/

namespace CxlLock.Faa

open Transition

/-- The condition on a run on one lock: only `l` is requested, and fewer than `2 ^ 32 - 1`
tickets are drawn. -/
def OneLock (l : LockId) (s : CallState FaaShm) : CallEvent → Prop
  | .acquire _ j => j = l ∧ (s.shm.entry l).nextTicket.toNat + 1 < 2 ^ 32 - 1
  | _ => True

instance (l : LockId) (s : CallState FaaShm) : ∀ e, Decidable (OneLock l s e)
  | .acquire _ _ => inferInstanceAs (Decidable (_ ∧ _))
  | .poll _ | .cancel _ | .release _ _ | .scan _ => .isTrue trivial

/-- Another node than `n` is inside, and is the owner. -/
def OwnedByOther (l : LockId) (s : CallState FaaShm) (n : NodeId) : Prop :=
  (s.shm.entry l).ownerNode ≠ n ∧ s.holds (s.shm.entry l).ownerNode l = true

/-- From `s` to `s'` the owner has not changed, if it is another node than `n` and inside. -/
def OwnerKept (l : LockId) (s s' : CallState FaaShm) (n : NodeId) : Prop :=
  OwnedByOther l s n → (s'.shm.entry l).ownerNode = (s.shm.entry l).ownerNode

/-- The published tickets are those of the requests and holds, have been drawn and are
different; at most one of them is served, that of the node inside if there is one. -/
structure Tickets (size : SystemSize) (l : LockId) (s : CallState FaaShm) : Prop where
  only : ∀ n j, s.Engaged n j → j = l
  counter : (s.shm.entry l).nowServing.toNat < (s.shm.entry l).nextTicket.toNat ∨
    (s.shm.entry l).nowServing.toNat = 0
  active : ∀ n, n < size.nodeCount → ((s.shm.ticket n).active ≠ 0 ↔ s.Engaged n l)
  drawn : ∀ n, s.Engaged n l →
    (s.shm.ticket n).ticket.toNat < (s.shm.entry l).nextTicket.toNat
  inj : ∀ n m, s.Engaged n l → s.Engaged m l →
    (s.shm.ticket n).ticket.toNat = (s.shm.ticket m).ticket.toNat → n = m
  one : ∀ n m, s.Engaged n l → s.Engaged m l →
    (s.shm.ticket n).ticket.toNat ≤ (s.shm.entry l).nowServing.toNat →
    (s.shm.ticket m).ticket.toNat ≤ (s.shm.entry l).nowServing.toNat → n = m
  served : ∀ n, s.holds n l = true →
    (s.shm.ticket n).ticket.toNat ≤ (s.shm.entry l).nowServing.toNat

namespace Tickets

variable {size : SystemSize} {l : LockId} {s s' : CallState FaaShm}

lemma exclusive (h : Tickets size l s) : s.Exclusive := by
  intro j n m hn hm
  obtain rfl := h.only n j (.inr hn)
  exact h.one n m (.inr hn) (.inr hm) (h.served n hn) (h.served m hm)

lemma init (hl : l < size.maxLocks) (hs : (callSystem algorithm size).init s) :
    Tickets size l s := by
  obtain ⟨⟨shm, hshm⟩, hwaiting, hholds⟩ := hs
  have hnone : ∀ n j, ¬ s.Engaged n j := by simp [CallState.Engaged, hwaiting, hholds]
  constructor
  · exact fun n j hn => absurd hn (hnone n j)
  · rw [hshm]
    simp [algorithm, initializeShm, size.nodeCount_valid, size.lock_lt hl]
  · intro n hn
    rw [hshm]
    simp [algorithm, initializeShm, size.nodeCount_valid, hn, hnone]
  · exact fun n hn => absurd hn (hnone n l)
  · exact fun n _ hn => absurd hn (hnone n l)
  · exact fun n _ hn => absurd hn (hnone n l)
  · simp [hholds]

lemma acquire (h : Tickets size l s) {n : NodeId} (hn : n < size.nodeCount)
    (hw : s.waitingFor n = none) (hh : ¬ s.holds n l = true)
    (hwrap : (s.shm.entry l).nextTicket.toNat + 1 < 2 ^ 32 - 1) :
    Tickets size l (s.await (acquireLock n l s.shm).2 n (some l)) := by
  obtain ⟨-, hnext, hnow, hticket, hactive⟩ :=
    acquireLock_spec l s.shm (size.node_ne_invalid hn)
  have hnext' : ((acquireLock n l s.shm).2.entry l).nextTicket.toNat =
      (s.shm.entry l).nextTicket.toNat + 1 := by
    rw [hnext, if_pos rfl, UInt32.toNat_add, UInt32.toNat_one, Nat.mod_eq_of_lt (by omega)]
  have hengaged := CallState.await_some_engaged (l := l) hw (acquireLock n l s.shm).2
  have hnew : ((acquireLock n l s.shm).2.ticket n).ticket = (s.shm.entry l).nextTicket := by
    rw [hticket, if_pos rfl]
  have hold : ∀ k, k ≠ n →
      ((acquireLock n l s.shm).2.ticket k).ticket = (s.shm.ticket k).ticket := fun k hk => by
    rw [hticket, if_neg hk]
  have hcases : ∀ k, (s.await (acquireLock n l s.shm).2 n (some l)).Engaged k l →
      k = n ∨ k ≠ n ∧ s.Engaged k l := by
    intro k hk
    by_cases hkn : k = n
    · exact .inl hkn
    · exact .inr ⟨hkn, ((hengaged k l).1 hk).resolve_left fun hkl => hkn hkl.1⟩
  -- a new ticket is served at once only if it is the first one, and then it is the only one
  have hfirst : ∀ k, s.Engaged k l →
      ¬ (s.shm.entry l).nextTicket.toNat ≤ (s.shm.entry l).nowServing.toNat := by
    intro k hk
    have hdrawn := h.drawn k hk
    have hcounter := h.counter
    omega
  constructor
  · intro k j hk
    rcases (hengaged k j).1 hk with hkj | hkj
    · exact hkj.2
    · exact h.only k j hkj
  · rw [CallState.await_shm, hnow, hnext']
    have hcounter := h.counter
    omega
  · intro k hk
    rw [hengaged, CallState.await_shm, hactive]
    split_ifs with hkn
    · simp [hkn]
    · simpa [hkn] using h.active k hk
  · intro k hk
    rw [CallState.await_shm, hnext']
    rcases hcases k hk with rfl | ⟨hkn, hk⟩
    · rw [hnew]
      omega
    · rw [hold k hkn]
      have hdrawn := h.drawn k hk
      omega
  · intro k m hk hm
    rw [CallState.await_shm]
    rcases hcases k hk with rfl | ⟨hkn, hk'⟩ <;> rcases hcases m hm with rfl | ⟨hmn, hm'⟩
    · exact fun _ => rfl
    · rw [hnew, hold m hmn]
      have hdrawn := h.drawn m hm'
      omega
    · rw [hnew, hold k hkn]
      have hdrawn := h.drawn k hk'
      omega
    · rw [hold k hkn, hold m hmn]
      exact h.inj k m hk' hm'
  · intro k m hk hm
    rw [CallState.await_shm, hnow]
    rcases hcases k hk with rfl | ⟨hkn, hk'⟩ <;> rcases hcases m hm with rfl | ⟨hmn, hm'⟩
    · exact fun _ _ => rfl
    · rw [hnew]
      exact fun hserved => absurd hserved (hfirst m hm')
    · rw [hnew]
      exact fun _ hserved => absurd hserved (hfirst k hk')
    · rw [hold k hkn, hold m hmn]
      exact h.one k m hk' hm'
  · intro k hk
    have hkn : k ≠ n := fun hkn => hh (hkn ▸ hk)
    rw [CallState.await_shm, hnow, hold k hkn]
    exact h.served k hk

lemma enter (h : Tickets size l s) {n : NodeId} (hw : s.waitingFor n = some l)
    (hg : pollGranted n l s.shm = true) : Tickets size l (s.enter n l) := by
  have hengaged := CallState.enter_engaged hw
  simp only [pollGranted, Bool.and_eq_true, decide_eq_true_eq] at hg
  constructor
  · exact fun k j hk => h.only k j ((hengaged k j).1 hk)
  · exact h.counter
  · exact fun k hk => (h.active k hk).trans (hengaged k l).symm
  · exact fun k hk => h.drawn k ((hengaged k l).1 hk)
  · exact fun k m hk hm => h.inj k m ((hengaged k l).1 hk) ((hengaged m l).1 hm)
  · exact fun k m hk hm => h.one k m ((hengaged k l).1 hk) ((hengaged m l).1 hm)
  · intro k hk
    rcases (CallState.enter_holds s n k l l).1 hk with ⟨rfl, -⟩ | hk
    · exact UInt32.le_iff_toNat_le.1 hg.1
    · exact h.served k hk

/-- `release_lock` by a node with a request or hold, which it has not any more afterwards. -/
lemma after_release (h : Tickets size l s) {n : NodeId} (hn : n < size.nodeCount)
    (hshm : s'.shm = (releaseLock n l s.shm).2)
    (hengaged : ∀ k j, s'.Engaged k j ↔ ¬ (k = n ∧ j = l) ∧ s.Engaged k j)
    (hholds : ∀ k, s'.holds k l = true → k ≠ n ∧ s.holds k l = true) : Tickets size l s' := by
  obtain ⟨hnext, hnow, hticket, hactive⟩ := releaseLock_spec l s.shm (size.node_ne_invalid hn)
  simp only [← hshm] at hnext hnow hticket hactive
  have hold : ∀ k, s'.Engaged k l → k ≠ n ∧ s.Engaged k l := fun k hk =>
    ⟨fun hkn => ((hengaged k l).1 hk).1 ⟨hkn, rfl⟩, ((hengaged k l).1 hk).2⟩
  constructor
  · exact fun k j hk => h.only k j ((hengaged k j).1 hk).2
  · rw [hnow, hnext]
    exact h.counter
  · intro k hk
    rw [hactive, hengaged]
    split_ifs with hkn
    · simp [hkn]
    · simpa [hkn] using h.active k hk
  · intro k hk
    obtain ⟨hkn, hk⟩ := hold k hk
    rw [hticket, if_neg hkn, hnext]
    exact h.drawn k hk
  · intro k m hk hm
    obtain ⟨hkn, hk⟩ := hold k hk
    obtain ⟨hmn, hm⟩ := hold m hm
    rw [hticket, if_neg hkn, hticket, if_neg hmn]
    exact h.inj k m hk hm
  · intro k m hk hm
    obtain ⟨hkn, hk⟩ := hold k hk
    obtain ⟨hmn, hm⟩ := hold m hm
    rw [hticket, if_neg hkn, hticket, if_neg hmn, hnow]
    exact h.one k m hk hm
  · intro k hk
    obtain ⟨hkn, hk⟩ := hholds k hk
    rw [hticket, if_neg hkn, hnow]
    exact h.served k hk

/-- The manager serves the smallest ticket published, so nobody with a larger one is let in,
and a node inside stays served. -/
lemma grant (h : Tickets size l s) (hv : s.Valid size) {m : NodeId}
    (hm : checkGrant size.nodeCount l s.shm = m) (hmi : m ≠ invalidNodeId) :
    Tickets size l { s with
      shm := (s.shm.storeOwner l m).storeServing l (s.shm.ticket m).ticket } := by
  obtain ⟨-, hmlt, hcand, hfirst⟩ := (checkGrant_eq_iff hmi).1 hm
  have hme : s.Engaged m l := (h.active m hmlt).1 hcand.1
  have hle : ∀ k, s.Engaged k l →
      (s.shm.ticket m).ticket.toNat ≤ (s.shm.ticket k).ticket.toNat := by
    intro k hk
    have hklt := (hv.engaged_lt hk).1
    have hdrawn := h.drawn k hk
    have hbound := (s.shm.entry l).nextTicket.toNat_lt
    have hkc : Candidate s.shm k := by
      refine ⟨(h.active k hklt).2 hk, UInt32.lt_iff_toNat_lt.2 ?_⟩
      rw [show maxTicket.toNat = 2 ^ 32 - 1 from rfl]
      omega
    by_cases hkm : k = m
    · exact Nat.le_of_eq (by rw [hkm])
    · rcases hfirst k hklt hkc hkm with hlt | ⟨heq, -⟩
      · exact Nat.le_of_lt (UInt32.lt_iff_toNat_lt.1 hlt)
      · exact Nat.le_of_eq (congrArg UInt32.toNat heq)
  -- only the selected node has a ticket up to its own
  have honly : ∀ k, s.Engaged k l →
      (s.shm.ticket k).ticket.toNat ≤ (s.shm.ticket m).ticket.toNat → k = m := fun k hk hkm =>
    h.inj k m hk hme (Nat.le_antisymm hkm (hle k hk))
  constructor
  · exact h.only
  · simpa using .inl (h.drawn m hme)
  · exact h.active
  · intro k hk
    simpa using h.drawn k hk
  · exact h.inj
  · intro k i hk hi hkt hit
    have hkt' : (s.shm.ticket k).ticket.toNat ≤ (s.shm.ticket m).ticket.toNat := by
      simpa using hkt
    have hit' : (s.shm.ticket i).ticket.toNat ≤ (s.shm.ticket m).ticket.toNat := by
      simpa using hit
    rw [honly k hk hkt', honly i hi hit']
  · intro k hk
    have hserved := h.served k hk
    have hkm : k = m :=
      h.one k m (.inr hk) hme hserved (Nat.le_trans (hle k (.inr hk)) hserved)
    simp [hkm]

/-- A grant of another lock does not concern this one. -/
lemma grant_other (h : Tickets size l s) {j : LockId} (hj : j ≠ l) (m : NodeId) (t : UInt32) :
    Tickets size l { s with shm := (s.shm.storeOwner j m).storeServing j t } := by
  constructor
  · exact h.only
  · simpa [hj.symm] using h.counter
  · exact h.active
  · intro k hk
    simpa using h.drawn k hk
  · exact h.inj
  · intro k i hk hi
    simpa [hj.symm] using h.one k i hk hi
  · intro k hk
    simpa [hj.symm] using h.served k hk

lemma step (h : Tickets size l s) (hv : s.Valid size) {e : CallEvent} (hok : OneLock l s e)
    (hs : CallStep algorithm size s e s') : Tickets size l s' := by
  cases hs with
  | @acquire n j shm hn hj hw hh hr =>
      obtain ⟨rfl, hwrap⟩ := hok
      obtain rfl : (acquireLock n j s.shm).2 = shm := congrArg Prod.snd hr
      exact h.acquire hn hw (by simp [hh]) hwrap
  | @refused n j rc shm hn hj hr hrc =>
      simp only [algorithm, acquireLock, size.node_ne_invalid hn, if_false, Prod.mk.injEq] at hr
      exact absurd hr.1.symm hrc
  | @granted n j hw hg =>
      obtain rfl := h.only n j (.inl hw)
      exact h.enter hw hg
  | notGranted => exact h
  | @cancel n j rc shm hw hr =>
      obtain rfl := h.only n j (.inl hw)
      have hh := hv.waiting_not_holds n j hw
      exact h.after_release (hv.waiting_lt n j hw).1 (congrArg Prod.snd (Option.some.inj hr)).symm
        (CallState.await_none_engaged hw hh shm) fun k hk => ⟨fun hkn => hh (hkn ▸ hk), hk⟩
  | @release n j rc shm hh hr =>
      obtain rfl := h.only n j (.inr hh)
      have hw : ¬ s.waitingFor n = some j := fun hw => hv.waiting_not_holds n j hw hh
      refine h.after_release (hv.holds_lt n j hh).1 (congrArg Prod.snd (Option.some.inj hr)).symm
        (CallState.leave_engaged hw shm) fun k hk => ?_
      obtain ⟨hkn, hk⟩ := (CallState.leave_holds s shm n k j j).1 hk
      exact ⟨fun h => hkn ⟨h, rfl⟩, hk⟩
  | @scan j hj =>
      rcases scanLock_cases size j s.shm with hsame | ⟨m, hm, hmi, -, hgrant⟩
      · rw [hsame]
        exact h
      · rw [hgrant]
        by_cases hjl : j = l
        · subst hjl
          exact h.grant hv hm hmi
        · exact h.grant_other hjl m _

end Tickets

/-- The distinct tickets as the exclusion argument over whole calls with timeouts. -/
def ticketsInvariant (size : SystemSize) (l : LockId) (hl : l < size.maxLocks) :
    CallInvariant algorithm size where
  ok := OneLock l
  inv := Tickets size l
  inv_init _ := Tickets.init hl
  inv_step _ _ _ hv h hok hs := h.step hv hok hs
  exclusive _ _ := Tickets.exclusive

/-- **Timeouts keep exclusion but not the owner.**  In every run on one lock at most one node
is inside, and a cancelled request leaves the owner as it is exactly when the owner is not
another node inside. -/
theorem faa_cancel_keeps_owner_iff (size : SystemSize) (l : LockId) (hl : l < size.maxLocks)
    (s : CallState FaaShm) (hs : (callSystem algorithm size).ReachableWhen (OneLock l) s) :
    s.Exclusive ∧ ∀ n s', callNext algorithm size s (.cancel n) = some s' →
      (OwnerKept l s s' n ↔ ¬ OwnedByOther l s n) := by
  obtain ⟨hv, h⟩ := (ticketsInvariant size l hl).reachable hs
  refine ⟨Tickets.exclusive h, fun n s' hnext => ⟨fun hkept hother => ?_,
    fun hno hother => absurd hother hno⟩⟩
  cases CallStep.of_next hnext with
  | @cancel _ j rc shm hw hr =>
      obtain rfl := Tickets.only h n j (.inl hw)
      have hn := (hv.waiting_lt n j hw).1
      have howner : (shm.entry j).ownerNode = invalidNodeId := by
        obtain rfl : (releaseLock n j s.shm).2 = shm := congrArg Prod.snd (Option.some.inj hr)
        simp [releaseLock, size.node_ne_invalid hn]
      have hlt := (hv.holds_lt _ j hother.2).1
      exact size.node_ne_invalid hlt ((hkept hother).symm.trans howner)

/-- The state of `size` right after `initialize` of a zeroed region. -/
def startCalls (size : SystemSize) : CallState FaaShm where
  shm := (initializeShm size.nodeCount ⟨fun _ => ⟨0, 0, 0⟩, fun _ => ⟨0, 0⟩⟩).2
  waitingFor _ := none
  holds _ _ := false

lemma startCalls_init (size : SystemSize) :
    (callSystem algorithm size).init (startCalls size) :=
  ⟨⟨_, rfl⟩, fun _ => rfl, fun _ _ => rfl⟩

/-- Node 1 gives up behind node 0; the next scan grants the lock to node 0 again, and node 2
does not get in. -/
theorem faa_exclusive_after_cancel : ∃ s : CallState FaaShm,
    s.Exclusive ∧ s.holds 0 0 = true ∧ (s.shm.entry 0).ownerNode = 0 := by
  obtain ⟨s, hs, hp⟩ := LabelledSystem.exists_of_exec (OneLock 0)
    ([.acquire 0 0, .poll 0, .scan 0, .acquire 1 0, .acquire 2 0, .cancel 1, .scan 0, .poll 2])
    (fun s => s.holds 0 0 && (s.shm.entry 0).ownerNode == 0)
    (startCalls_init (.of 3 1)) (by decide +kernel)
  rw [Bool.and_eq_true, beq_iff_eq] at hp
  exact ⟨s, (faa_cancel_keeps_owner_iff (.of 3 1) 0 (by decide) s hs).1, hp⟩

/-- Node 1 gives up while node 0 is inside and is the owner: nobody is the owner then. -/
theorem cancel_clears_owner : ¬ ∀ (size : SystemSize) (l : LockId) (s s' : CallState FaaShm)
    (n : NodeId), (callSystem algorithm size).ReachableWhen (OneLock l) s →
      callNext algorithm size s (.cancel n) = some s' → OwnerKept l s s' n := by
  intro h
  obtain ⟨s, hs, hp⟩ := LabelledSystem.exists_of_exec (OneLock 0)
    ([.acquire 0 0, .poll 0, .scan 0, .acquire 1 0])
    (fun s => (callNext algorithm (.of 2 1) s (.cancel 1)).any fun s' =>
      s.holds 0 0 && (s.shm.entry 0).ownerNode == 0 && (s'.shm.entry 0).ownerNode != 0)
    (startCalls_init (.of 2 1)) (by decide +kernel)
  obtain ⟨s', hnext, hp⟩ := (Option.any_eq_true _ _).1 hp
  simp only [Bool.and_eq_true, beq_iff_eq, bne_iff_ne] at hp
  obtain ⟨⟨hholds, howner⟩, hcleared⟩ := hp
  have hkept := h (.of 2 1) 0 s s' 1 hs hnext
  rw [OwnerKept, OwnedByOther, howner] at hkept
  exact hcleared (hkept ⟨by decide, hholds⟩)

end CxlLock.Faa
