import CxlLock.LockInterface
import Mathlib.Data.List.Induction

/-!
# The ticket lock (`faa_global_lock.cpp`), whole calls

Each lock hands out tickets from `next_ticket` by fetch-and-add; each node publishes the one
ticket it waits on in its `FaaNodeTicket`, a record without a lock id.  The lock manager
looks for the smallest published ticket and grants it by storing it into `now_serving`.

No operation tests whether the lock is in the table: `TwoTierLock` and the scan of the
manager keep lock ids below `max_locks`, and for such ids the typed records are those at the
offsets of `get_entry` and `get_ticket`.
-/

namespace CxlLock

/-- Per-lock entry. -/
structure FaaGlobalLockEntry where
  /-- Next available ticket number. -/
  nextTicket : UInt32
  /-- Ticket being served. -/
  nowServing : UInt32
  ownerNode : NodeId
  deriving DecidableEq, Repr

/-- Per-node ticket; `active` is non-zero while the node waits or holds. -/
structure FaaNodeTicket where
  ticket : UInt32
  active : UInt32
  deriving DecidableEq, Repr

/-- The shared records of the ticket lock. -/
structure FaaShm where
  entry : LockId → FaaGlobalLockEntry
  ticket : NodeId → FaaNodeTicket

namespace FaaShm

/-! ## Stores to single fields -/

def storeNextTicket (s : FaaShm) (l : LockId) (v : UInt32) : FaaShm :=
  { s with entry := Function.update s.entry l { s.entry l with nextTicket := v } }

def storeServing (s : FaaShm) (l : LockId) (v : UInt32) : FaaShm :=
  { s with entry := Function.update s.entry l { s.entry l with nowServing := v } }

def storeOwner (s : FaaShm) (l : LockId) (v : NodeId) : FaaShm :=
  { s with entry := Function.update s.entry l { s.entry l with ownerNode := v } }

def storeTicket (s : FaaShm) (n : NodeId) (v : UInt32) : FaaShm :=
  { s with ticket := Function.update s.ticket n { s.ticket n with ticket := v } }

def storeActive (s : FaaShm) (n : NodeId) (v : UInt32) : FaaShm :=
  { s with ticket := Function.update s.ticket n { s.ticket n with active := v } }

section Fields

variable (s : FaaShm) (l j : LockId) (n k : NodeId) (v : UInt32)

@[simp] lemma storeNextTicket_ticket : (s.storeNextTicket l v).ticket = s.ticket := rfl
@[simp] lemma storeServing_ticket : (s.storeServing l v).ticket = s.ticket := rfl
@[simp] lemma storeOwner_ticket : (s.storeOwner l n).ticket = s.ticket := rfl
@[simp] lemma storeTicket_entry : (s.storeTicket n v).entry = s.entry := rfl
@[simp] lemma storeActive_entry : (s.storeActive n v).entry = s.entry := rfl

@[simp] lemma storeNextTicket_nextTicket : ((s.storeNextTicket l v).entry j).nextTicket =
    if j = l then v else (s.entry j).nextTicket := by
  by_cases h : j = l <;> simp [storeNextTicket, h]

@[simp] lemma storeNextTicket_nowServing :
    ((s.storeNextTicket l v).entry j).nowServing = (s.entry j).nowServing := by
  by_cases h : j = l <;> simp [storeNextTicket, h]

@[simp] lemma storeNextTicket_ownerNode :
    ((s.storeNextTicket l v).entry j).ownerNode = (s.entry j).ownerNode := by
  by_cases h : j = l <;> simp [storeNextTicket, h]

@[simp] lemma storeServing_nextTicket :
    ((s.storeServing l v).entry j).nextTicket = (s.entry j).nextTicket := by
  by_cases h : j = l <;> simp [storeServing, h]

@[simp] lemma storeServing_nowServing : ((s.storeServing l v).entry j).nowServing =
    if j = l then v else (s.entry j).nowServing := by
  by_cases h : j = l <;> simp [storeServing, h]

@[simp] lemma storeServing_ownerNode :
    ((s.storeServing l v).entry j).ownerNode = (s.entry j).ownerNode := by
  by_cases h : j = l <;> simp [storeServing, h]

@[simp] lemma storeOwner_nextTicket :
    ((s.storeOwner l n).entry j).nextTicket = (s.entry j).nextTicket := by
  by_cases h : j = l <;> simp [storeOwner, h]

@[simp] lemma storeOwner_nowServing :
    ((s.storeOwner l n).entry j).nowServing = (s.entry j).nowServing := by
  by_cases h : j = l <;> simp [storeOwner, h]

@[simp] lemma storeOwner_ownerNode :
    ((s.storeOwner l n).entry j).ownerNode = if j = l then n else (s.entry j).ownerNode := by
  by_cases h : j = l <;> simp [storeOwner, h]

@[simp] lemma storeTicket_ticket :
    ((s.storeTicket n v).ticket k).ticket = if k = n then v else (s.ticket k).ticket := by
  by_cases h : k = n <;> simp [storeTicket, h]

@[simp] lemma storeTicket_active :
    ((s.storeTicket n v).ticket k).active = (s.ticket k).active := by
  by_cases h : k = n <;> simp [storeTicket, h]

@[simp] lemma storeActive_ticket :
    ((s.storeActive n v).ticket k).ticket = (s.ticket k).ticket := by
  by_cases h : k = n <;> simp [storeActive, h]

@[simp] lemma storeActive_active :
    ((s.storeActive n v).ticket k).active = if k = n then v else (s.ticket k).active := by
  by_cases h : k = n <;> simp [storeActive, h]

end Fields

end FaaShm

namespace Faa

/-! ## The operations -/

/-- `FaaGlobalLockAlgorithm::initialize`. -/
def initializeShm (nodeCount : UInt32) (shm : FaaShm) : LockResult × FaaShm :=
  if nodeCount = 0 ∨ maxNodeCount < nodeCount then (.errorInvalidParam, shm)
  else
    (.success,
      { entry := fun lid =>
          if lid < maxLockCount then ⟨0, 0, invalidNodeId⟩ else shm.entry lid
        ticket := fun nid => if nid < nodeCount then ⟨0, 0⟩ else shm.ticket nid })

/-- `FaaGlobalLockAlgorithm::acquire_lock`. -/
def acquireLock (nodeId : NodeId) (lockId : LockId) (shm : FaaShm) : LockResult × FaaShm :=
  if nodeId = invalidNodeId then (.errorInvalidParam, shm)
  else
    let myTicket := (shm.entry lockId).nextTicket
    let shm := shm.storeNextTicket lockId (myTicket + 1)
    (.success, (shm.storeTicket nodeId myTicket).storeActive nodeId 1)

/-- `FaaGlobalLockAlgorithm::release_lock`. -/
def releaseLock (nodeId : NodeId) (lockId : LockId) (shm : FaaShm) : LockResult × FaaShm :=
  if nodeId = invalidNodeId then (.errorInvalidParam, shm)
  else
    (.success,
      ((shm.storeTicket nodeId 0).storeActive nodeId 0).storeOwner lockId invalidNodeId)

/-- `std::numeric_limits<uint32_t>::max()`, where the search for the minimum starts. -/
def maxTicket : UInt32 := 0xFFFFFFFF

/-- One turn of the search of `check_grant` on `min_ticket` and `min_node`. -/
def minTicketStep (shm : FaaShm) (acc : UInt32 × NodeId) (nid : NodeId) : UInt32 × NodeId :=
  if (shm.ticket nid).active ≠ 0 then
    if (shm.ticket nid).ticket < acc.1 then ((shm.ticket nid).ticket, nid) else acc
  else acc

/-- `FaaGlobalLockAlgorithm::check_grant`. -/
def checkGrant (nodeCount : UInt32) (lockId : LockId) (shm : FaaShm) : NodeId :=
  if nodeCount = 0 then invalidNodeId
  else if (shm.entry lockId).ownerNode ≠ invalidNodeId then invalidNodeId
  else ((idsBelow nodeCount).foldl (minTicketStep shm) (maxTicket, invalidNodeId)).2

/-- `FaaGlobalLockAlgorithm::grant_lock`. -/
def grantLock (nodeId : NodeId) (lockId : LockId) (shm : FaaShm) : LockResult × FaaShm :=
  if nodeId = invalidNodeId then (.errorInvalidParam, shm)
  else
    let grantTicket := (shm.ticket nodeId).ticket
    (.success, (shm.storeOwner lockId nodeId).storeServing lockId grantTicket)

/-- The ticket path of `poll_for_grant`. -/
def pollGranted (nodeId : NodeId) (lockId : LockId) (shm : FaaShm) : Bool :=
  decide ((shm.ticket nodeId).ticket ≤ (shm.entry lockId).nowServing) &&
    (shm.ticket nodeId).active != 0

/-- `FaaGlobalLockAlgorithm` as an instance of the plugin interface. -/
def algorithm : GlobalLockAlgorithm FaaShm where
  initializeShm := initializeShm
  acquireLock _ := acquireLock
  releaseLock _ nodeId lockId shm := some (releaseLock nodeId lockId shm)
  checkGrant nodeCount lockId shm := (checkGrant nodeCount lockId shm, shm)
  grantLock _ := grantLock
  pollGranted _ := pollGranted

/-! ## What `check_grant` returns -/

section Specs

/-- A request draws the next ticket of the lock and publishes it in the caller's record. -/
lemma acquireLock_spec {n : NodeId} (l : LockId) (shm : FaaShm) (hn : n ≠ invalidNodeId) :
    (acquireLock n l shm).1 = .success ∧
      (∀ j, ((acquireLock n l shm).2.entry j).nextTicket =
        if j = l then (shm.entry l).nextTicket + 1 else (shm.entry j).nextTicket) ∧
      (∀ j, ((acquireLock n l shm).2.entry j).nowServing = (shm.entry j).nowServing) ∧
      (∀ k, ((acquireLock n l shm).2.ticket k).ticket =
        if k = n then (shm.entry l).nextTicket else (shm.ticket k).ticket) ∧
      (∀ k, ((acquireLock n l shm).2.ticket k).active =
        if k = n then 1 else (shm.ticket k).active) := by
  simp [acquireLock, hn]

/-- A release clears the caller's record and touches no ticket counter. -/
lemma releaseLock_spec {n : NodeId} (l : LockId) (shm : FaaShm) (hn : n ≠ invalidNodeId) :
    (∀ j, ((releaseLock n l shm).2.entry j).nextTicket = (shm.entry j).nextTicket) ∧
      (∀ j, ((releaseLock n l shm).2.entry j).nowServing = (shm.entry j).nowServing) ∧
      (∀ k, ((releaseLock n l shm).2.ticket k).ticket =
        if k = n then 0 else (shm.ticket k).ticket) ∧
      (∀ k, ((releaseLock n l shm).2.ticket k).active =
        if k = n then 0 else (shm.ticket k).active) := by
  simp [releaseLock, hn]

/-- The node is published as active with a ticket the search can pick. -/
def Candidate (shm : FaaShm) (n : NodeId) : Prop :=
  (shm.ticket n).active ≠ 0 ∧ (shm.ticket n).ticket < maxTicket

/-- The order in which the search of `check_grant` prefers nodes: by ticket, then by id. -/
def Before (shm : FaaShm) (n m : NodeId) : Prop :=
  (shm.ticket n).ticket < (shm.ticket m).ticket ∨
    (shm.ticket n).ticket = (shm.ticket m).ticket ∧ n < m

instance (shm : FaaShm) (n : NodeId) : Decidable (Candidate shm n) :=
  inferInstanceAs (Decidable (_ ∧ _))

instance (shm : FaaShm) (n m : NodeId) : Decidable (Before shm n m) :=
  inferInstanceAs (Decidable (_ ∨ _ ∧ _))

variable {shm : FaaShm}

lemma Before.asymm {n m : NodeId} (h : Before shm n m) : ¬ Before shm m n := by
  simp only [Before, UInt32.lt_iff_toNat_lt, ← UInt32.toNat_inj] at h ⊢
  omega

lemma minTicketStep_better {acc : UInt32 × NodeId} {x : NodeId}
    (hactive : (shm.ticket x).active ≠ 0) (hlt : (shm.ticket x).ticket < acc.1) :
    minTicketStep shm acc x = ((shm.ticket x).ticket, x) := by
  rw [minTicketStep, if_pos hactive, if_pos hlt]

lemma minTicketStep_keep {acc : UInt32 × NodeId} {x : NodeId}
    (h : ¬ ((shm.ticket x).active ≠ 0 ∧ (shm.ticket x).ticket < acc.1)) :
    minTicketStep shm acc x = acc := by
  unfold minTicketStep
  split_ifs with hactive hlt
  · exact absurd ⟨hactive, hlt⟩ h
  · rfl
  · rfl

lemma Before.ticket_le {n m : NodeId} (h : Before shm n m) :
    (shm.ticket n).ticket ≤ (shm.ticket m).ticket :=
  h.elim UInt32.le_of_lt fun h => UInt32.le_of_eq h.1

variable (shm) in
/-- The search over a list of ids: it finds nobody and there is no candidate, or it finds the
candidate that comes before all others. -/
lemma foldl_minTicketStep (nids : List NodeId) (hsorted : nids.Pairwise (· < ·)) :
    (nids.foldl (minTicketStep shm) (maxTicket, invalidNodeId) = (maxTicket, invalidNodeId) ∧
      ∀ m ∈ nids, ¬ Candidate shm m) ∨
    ∃ n ∈ nids, Candidate shm n ∧ (∀ m ∈ nids, Candidate shm m → m ≠ n → Before shm n m) ∧
      nids.foldl (minTicketStep shm) (maxTicket, invalidNodeId) =
        ((shm.ticket n).ticket, n) := by
  induction nids using List.reverseRecOn with
  | nil => exact .inl ⟨rfl, by simp⟩
  | append_singleton nids x ih =>
      obtain ⟨hsorted, -, hlast⟩ := List.pairwise_append.1 hsorted
      replace hlast : ∀ m ∈ nids, m < x := fun m hm => hlast m hm x (by simp)
      rw [List.foldl_append, List.foldl_cons, List.foldl_nil]
      rcases ih hsorted with ⟨hacc, hnone⟩ | ⟨n, hn, hcand, hfirst, hacc⟩ <;> rw [hacc]
      · by_cases hx : Candidate shm x
        · -- the first candidate
          refine .inr ⟨x, by simp, hx, fun m hm hmc hmx => ?_, minTicketStep_better hx.1 hx.2⟩
          rcases List.mem_append.1 hm with hm | hm
          · exact absurd hmc (hnone m hm)
          · exact absurd (List.mem_singleton.1 hm) hmx
        · refine .inl ⟨minTicketStep_keep hx, fun m hm => ?_⟩
          rcases List.mem_append.1 hm with hm | hm
          · exact hnone m hm
          · exact List.mem_singleton.1 hm ▸ hx
      · by_cases hx : (shm.ticket x).active ≠ 0 ∧
            (shm.ticket x).ticket < (shm.ticket n).ticket
        · -- a smaller ticket than the best so far
          refine .inr ⟨x, by simp, ⟨hx.1, UInt32.lt_trans hx.2 hcand.2⟩,
            fun m hm hmc hmx => .inl ?_, minTicketStep_better hx.1 hx.2⟩
          rcases List.mem_append.1 hm with hm | hm
          · by_cases hmn : m = n
            · rw [hmn]
              exact hx.2
            · exact UInt32.lt_of_lt_of_le hx.2 (hfirst m hm hmc hmn).ticket_le
          · exact absurd (List.mem_singleton.1 hm) hmx
        · refine .inr ⟨n, by simp [hn], hcand, fun m hm hmc hmx => ?_, minTicketStep_keep hx⟩
          rcases List.mem_append.1 hm with hm | hm
          · exact hfirst m hm hmc hmx
          · obtain rfl := List.mem_singleton.1 hm
            have hle : (shm.ticket n).ticket ≤ (shm.ticket m).ticket :=
              UInt32.not_lt.1 fun hlt => hx ⟨hmc.1, hlt⟩
            rcases UInt32.lt_or_eq_of_le hle with hlt | heq
            · exact .inl hlt
            · exact .inr ⟨heq, hlast n hn⟩

variable {nodeCount : UInt32} {l : LockId}

/-- `check_grant` returns a node exactly when the lock has no owner and the node is the
candidate that comes before all others. -/
theorem checkGrant_eq_iff {n : NodeId} (hn : n ≠ invalidNodeId) :
    checkGrant nodeCount l shm = n ↔
      (shm.entry l).ownerNode = invalidNodeId ∧ n < nodeCount ∧ Candidate shm n ∧
        ∀ m, m < nodeCount → Candidate shm m → m ≠ n → Before shm n m := by
  by_cases hcount0 : nodeCount = 0
  · simp [checkGrant, hcount0, hn.symm]
  by_cases howner : (shm.entry l).ownerNode = invalidNodeId
  · simp only [checkGrant, hcount0, howner, if_false, not_true_eq_false, ne_eq, true_and]
    rcases foldl_minTicketStep shm (idsBelow nodeCount)
        (pairwise_idsBelow nodeCount) with ⟨hacc, hnone⟩ | ⟨k, hk, hcand, hfirst, hacc⟩ <;>
      rw [hacc]
    · exact ⟨fun h => absurd h.symm hn, fun h => absurd h.2.1 (hnone n (mem_idsBelow.2 h.1))⟩
    · simp only [mem_idsBelow] at hk hfirst
      constructor
      · rintro rfl
        exact ⟨hk, hcand, hfirst⟩
      · rintro ⟨hlt, hnc, hbefore⟩
        by_contra hkn
        exact (hfirst n hlt hnc fun h => hkn h.symm).asymm (hbefore k hk hcand hkn)
  · simp [checkGrant, hcount0, howner, hn.symm]

end Specs

end Faa

end CxlLock
