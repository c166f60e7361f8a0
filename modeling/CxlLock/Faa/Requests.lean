import CxlLock.Faa.GlobalLock
import CxlLock.Lib.Transition

/-!
# Which requests the ticket lock grants

`check_grant` looks for the smallest ticket over all nodes, but a `FaaNodeTicket` does not
say for which lock its ticket was drawn.  A node that waits for one lock is therefore granted
any other lock that is free, `unrequested_grant` being the shortest such run.

`RequestOutranks` is the exact condition under which `check_grant` returns only a node that
asked for the lock.  The runs here are runs of whole `acquire_lock` and `release_lock` calls
and of whole scans over all locks, in any order and by any node.
-/

namespace CxlLock.Faa

open Transition

/-- The shared records, the statistics of the manager, and which `acquire_lock` calls have not
been followed by a `release_lock` yet. -/
structure RequestState where
  shm : FaaShm
  stats : ManagerStats
  requested : NodeId → LockId → Bool

/-- One whole operation. -/
inductive RequestEvent
  | acquire (n : NodeId) (l : LockId)
  | release (n : NodeId) (l : LockId)
  /-- `run_single_scan`. -/
  | scan
  deriving DecidableEq

/-- Set whether `n` has an unreleased request on `l`, with the given records. -/
def RequestState.mark (s : RequestState) (shm : FaaShm) (n : NodeId) (l : LockId) (v : Bool) :
    RequestState :=
  { s with
    shm := shm
    requested := Function.update s.requested n (Function.update (s.requested n) l v) }

@[simp] lemma RequestState.mark_requested (s : RequestState) (shm : FaaShm) (n k : NodeId)
    (l j : LockId) (v : Bool) :
    (s.mark shm n l v).requested k j = if k = n ∧ j = l then v else s.requested k j := by
  by_cases hk : k = n
  · by_cases hj : j = l <;> simp [mark, hk, hj]
  · simp [mark, hk]

/-- The state after one whole operation. -/
def requestNext (size : SystemSize) (s : RequestState) : RequestEvent → Option RequestState
  | .acquire n l =>
      if n < size.nodeCount ∧ l < size.maxLocks then
        some (s.mark (acquireLock n l s.shm).2 n l true)
      else none
  | .release n l =>
      if n < size.nodeCount ∧ l < size.maxLocks then
        some (s.mark (releaseLock n l s.shm).2 n l false)
      else none
  | .scan =>
      let r := algorithm.runSingleScan size s.stats s.shm
      some { s with stats := r.1, shm := r.2 }

/-- The system of whole operations, started right after `initialize`. -/
def requestSystem (size : SystemSize) : LabelledSystem RequestState RequestEvent where
  init s := (∃ shm, s.shm = (initializeShm size.nodeCount shm).2) ∧
    ∀ n l, s.requested n l = false
  next := requestNext size

/-- What `check_grant` is meant to promise: the node it returns has an unreleased request on
this lock. -/
def GrantsRequested (size : SystemSize) (l : LockId) (s : RequestState) : Prop :=
  ∀ n, checkGrant size.nodeCount l s.shm = n → n ≠ invalidNodeId → s.requested n l = true

/-- The lock has an owner, or every candidate without a request on it comes after a candidate
that has one. -/
def RequestOutranks (size : SystemSize) (l : LockId) (s : RequestState) : Prop :=
  (s.shm.entry l).ownerNode = invalidNodeId →
    ∀ m, m < size.nodeCount → Candidate s.shm m → s.requested m l = false →
      ∃ n, n < size.nodeCount ∧ Candidate s.shm n ∧ s.requested n l = true ∧
        Before s.shm n m

/-- The condition on a step: a scan meets `RequestOutranks` for every lock. -/
def ScansMeet (size : SystemSize) (s : RequestState) : RequestEvent → Prop
  | .scan => ∀ l, l < size.maxLocks → RequestOutranks size l s
  | _ => True

instance (size : SystemSize) (l : LockId) (s : RequestState) :
    Decidable (RequestOutranks size l s) :=
  inferInstanceAs (Decidable (_ → ∀ m, m < size.nodeCount → _))

instance (size : SystemSize) (s : RequestState) : ∀ e, Decidable (ScansMeet size s e)
  | .scan => inferInstanceAs (Decidable (∀ l, l < size.maxLocks → _))
  | .acquire _ _ | .release _ _ => .isTrue trivial

/-! ## One call of `check_grant` -/

section Check

variable {size : SystemSize} {s : RequestState} {l : LockId}

/-- A free lock with a candidate is granted to some candidate. -/
lemma exists_checkGrant (size : SystemSize) {shm : FaaShm}
    (howner : (shm.entry l).ownerNode = invalidNodeId)
    {m : NodeId} (hm : m < size.nodeCount) (hcand : Candidate shm m) :
    ∃ n, n < size.nodeCount ∧ checkGrant size.nodeCount l shm = n := by
  simp only [checkGrant, size.nodeCount_ne_zero, howner, if_false, not_true_eq_false, ne_eq]
  rcases foldl_minTicketStep shm (idsBelow size.nodeCount)
      (pairwise_idsBelow size.nodeCount) with ⟨-, hnone⟩ | ⟨n, hn, -, -, hacc⟩
  · exact absurd hcand (hnone m (mem_idsBelow.2 hm))
  · exact ⟨n, mem_idsBelow.1 hn, by rw [hacc]⟩

/-- `check_grant` returns only a requesting node exactly when `RequestOutranks` holds. -/
lemma grantsRequested_iff : GrantsRequested size l s ↔ RequestOutranks size l s := by
  constructor
  · intro h howner m hm hcand hreq
    obtain ⟨n, hn, hcheck⟩ := exists_checkGrant size howner hm hcand
    have hne := size.node_ne_invalid hn
    have hreqn := h n hcheck hne
    obtain ⟨-, -, hncand, hfirst⟩ := (checkGrant_eq_iff hne).1 hcheck
    have hmn : m ≠ n := by
      rintro rfl
      exact absurd hreqn (by simp [hreq])
    exact ⟨n, hn, hncand, hreqn, hfirst m hm hcand hmn⟩
  · intro h n hcheck hne
    obtain ⟨howner, hn, hcand, hfirst⟩ := (checkGrant_eq_iff hne).1 hcheck
    by_contra hreq
    obtain ⟨k, hk, hkcand, hkreq, hbefore⟩ :=
      h howner n hn hcand (Bool.eq_false_iff.2 hreq)
    have hkn : k ≠ n := by
      rintro rfl
      exact hreq hkreq
    exact (hfirst k hk hkcand hkn).asymm hbefore

/-- `check_grant` depends on the owner of the lock and on the tickets only. -/
lemma checkGrant_congr (nodeCount : UInt32) {shm shm' : FaaShm}
    (howner : (shm'.entry l).ownerNode = (shm.entry l).ownerNode)
    (hticket : shm'.ticket = shm.ticket) :
    checkGrant nodeCount l shm' = checkGrant nodeCount l shm := by
  have hstep : minTicketStep shm' = minTicketStep shm := by
    funext acc nid
    simp [minTicketStep, hticket]
  simp [checkGrant, howner, hstep]

end Check

/-! ## One scan -/

section Scan

/-- The owner of `l` after its turn in a scan that starts with the given records. -/
def grantedOwner (nodeCount : UInt32) (l : LockId) (shm : FaaShm) : NodeId :=
  if checkGrant nodeCount l shm = invalidNodeId then (shm.entry l).ownerNode
  else checkGrant nodeCount l shm

lemma scanLock_spec (nodeCount : UInt32) (shm : FaaShm) (lid : LockId) :
    (algorithm.scanLock nodeCount lid shm).2.ticket = shm.ticket ∧
      ∀ l, ((algorithm.scanLock nodeCount lid shm).2.entry l).ownerNode =
        if l = lid then grantedOwner nodeCount lid shm else (shm.entry l).ownerNode := by
  by_cases hnone : checkGrant nodeCount lid shm = invalidNodeId
  · simp [GlobalLockAlgorithm.scanLock, algorithm, hnone, grantedOwner]
  · simp [GlobalLockAlgorithm.scanLock, algorithm, hnone, grantedOwner, grantLock]

/-- A scan changes no ticket, and gives each lock of the list the owner that `check_grant`
finds in the records before the scan: the turns of the other locks do not matter. -/
lemma foldl_scanLock (nodeCount : UInt32) (shm : FaaShm) (lids : List LockId)
    (hnodup : lids.Nodup) :
    (lids.foldl (fun shm lid => (algorithm.scanLock nodeCount lid shm).2) shm).ticket =
        shm.ticket ∧
      ∀ l, ((lids.foldl (fun shm lid => (algorithm.scanLock nodeCount lid shm).2)
        shm).entry l).ownerNode =
          if l ∈ lids then grantedOwner nodeCount l shm else (shm.entry l).ownerNode := by
  induction lids generalizing shm with
  | nil => simp
  | cons lid lids ih =>
      obtain ⟨hlid, hnodup⟩ := List.nodup_cons.1 hnodup
      obtain ⟨hticket, howner⟩ := scanLock_spec nodeCount shm lid
      obtain ⟨ihticket, ihowner⟩ :=
        ih (algorithm.scanLock nodeCount lid shm).2 hnodup
      rw [List.foldl_cons]
      refine ⟨ihticket.trans hticket, fun l => ?_⟩
      rw [ihowner, howner]
      by_cases hl : l = lid
      · subst hl
        simp [hlid]
      · -- the turn of `lid` has changed neither the owner of `l` nor a ticket
        have hcheck := checkGrant_congr nodeCount
          ((howner l).trans (if_neg hl)) hticket
        simp [hl, grantedOwner, hcheck, howner]

end Scan

/-! ## Runs -/

section Runs

variable {size : SystemSize} {s : RequestState}

/-- Every owner has an unreleased request on the lock. -/
def OwnerRequested (size : SystemSize) (s : RequestState) : Prop :=
  ∀ l n, l < size.maxLocks → (s.shm.entry l).ownerNode = n → n ≠ invalidNodeId →
    s.requested n l = true

lemma OwnerRequested.init (h : (requestSystem size).init s) : OwnerRequested size s := by
  intro l n hl howner hn
  obtain ⟨⟨shm, hshm⟩, -⟩ := h
  refine absurd howner.symm ?_
  rw [hshm]
  simp [initializeShm, size.lock_lt hl, size.nodeCount_ne_zero,
    UInt32.not_lt.2 size.nodeCount_le, hn]

lemma OwnerRequested.step {s' : RequestState} {e : RequestEvent} (h : OwnerRequested size s)
    (hok : ScansMeet size s e) (hs : requestNext size s e = some s') :
    OwnerRequested size s' := by
  intro l n hl howner hn
  cases e with
  | acquire m j =>
      simp only [requestNext, Option.ite_none_right_eq_some, Option.some.injEq] at hs
      obtain ⟨⟨hm, -⟩, rfl⟩ := hs
      have howner' : (s.shm.entry l).ownerNode = n := by
        simpa [RequestState.mark, acquireLock, size.node_ne_invalid hm] using howner
      rw [RequestState.mark_requested]
      split_ifs
      · rfl
      · exact h l n hl howner' hn
  | release m j =>
      simp only [requestNext, Option.ite_none_right_eq_some, Option.some.injEq] at hs
      obtain ⟨⟨hm, -⟩, rfl⟩ := hs
      -- whoever calls it, `release_lock` leaves the lock without an owner
      have howner' : l ≠ j ∧ (s.shm.entry l).ownerNode = n := by
        simp only [RequestState.mark, releaseLock, size.node_ne_invalid hm, if_false,
          FaaShm.storeOwner_ownerNode] at howner
        split_ifs at howner with hlj
        · exact absurd howner.symm hn
        · exact ⟨hlj, by simpa using howner⟩
      rw [RequestState.mark_requested, if_neg fun hnl => howner'.1 hnl.2]
      exact h l n hl howner'.2 hn
  | scan =>
      simp only [requestNext, Option.some.injEq] at hs
      subst hs
      obtain ⟨-, hscan⟩ := foldl_scanLock size.nodeCount s.shm
        (idsBelow size.maxLocks) ((pairwise_idsBelow _).imp UInt32.ne_of_lt)
      have howner' : grantedOwner size.nodeCount l s.shm = n := by
        simpa [algorithm.runSingleScan_shm, hscan, mem_idsBelow, hl] using howner
      unfold grantedOwner at howner'
      split_ifs at howner'
      · exact h l n hl howner' hn
      · exact grantsRequested_iff.2 (hok l hl) n howner' hn

/-- **Which grants were asked for.**  In every reachable state, `check_grant` on a lock
returns only a node with an unreleased request on it exactly when `RequestOutranks` holds;
and in every run whose scans meet it, every owner has an unreleased request on its lock. -/
theorem faa_grants_requested_iff (size : SystemSize) :
    (∀ s, (requestSystem size).Reachable s → ∀ l, l < size.maxLocks →
      (GrantsRequested size l s ↔ RequestOutranks size l s)) ∧
    ∀ s, (requestSystem size).ReachableWhen (ScansMeet size) s → OwnerRequested size s :=
  ⟨fun _ _ _ _ => grantsRequested_iff,
    fun _ hs => hs.invariant (fun _ => OwnerRequested.init) fun _ _ _ h => h.step⟩

/-- The state of `size` right after `initialize` of a zeroed region. -/
def idleState (size : SystemSize) : RequestState where
  shm := (initializeShm size.nodeCount ⟨fun _ => ⟨0, 0, 0⟩, fun _ => ⟨0, 0⟩⟩).2
  stats := {}
  requested _ _ := false

lemma idleState_init (size : SystemSize) : (requestSystem size).init (idleState size) :=
  ⟨⟨_, rfl⟩, fun _ _ => rfl⟩

/-- With one lock the lock goes from node 0 to node 1, which has asked for it. -/
theorem faa_scan_grants_requested : ∃ s : RequestState,
    (GrantsRequested (.of 2 1) 0 s ↔ RequestOutranks (.of 2 1) 0 s) ∧
      (s.shm.entry 0).ownerNode = 1 ∧ s.requested 1 0 = true := by
  obtain ⟨s, hs, hp⟩ := LabelledSystem.exists_of_exec (ScansMeet (.of 2 1))
    ([.acquire 0 0, .acquire 1 0, .scan, .release 0 0, .scan])
    (fun s => (s.shm.entry 0).ownerNode == 1) (idleState_init (.of 2 1)) (by decide +kernel)
  rw [beq_iff_eq] at hp
  obtain ⟨hiff, howner⟩ := faa_grants_requested_iff (.of 2 1)
  exact ⟨s, hiff s hs.reachable 0 (by decide), hp,
    howner s hs 0 1 (by decide) hp (by decide)⟩

/-- With two locks `check_grant` returns a node for a lock it never asked for: node 0 has
requested lock 1 only, and is the answer for lock 0. -/
theorem unrequested_grant : ¬ ∀ (size : SystemSize) (s : RequestState),
    (requestSystem size).Reachable s → ∀ l, l < size.maxLocks → GrantsRequested size l s := by
  intro h
  obtain ⟨s, hs, hp⟩ := LabelledSystem.exists_of_exec (fun _ _ => True)
    ([.acquire 0 1])
    (fun s => checkGrant 2 0 s.shm == 0 && s.requested 0 0 == false)
    (idleState_init (.of 2 2)) (by decide +kernel)
  simp only [Bool.and_eq_true, beq_iff_eq] at hp
  have := h (.of 2 2) s hs 0 (by decide) 0 hp.1 (by decide)
  rw [hp.2] at this
  cases this

end Runs

end CxlLock.Faa
