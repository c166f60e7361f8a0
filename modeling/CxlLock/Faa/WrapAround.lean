import CxlLock.Faa.GlobalLock
import Mathlib.Data.Finset.Max

/-!
# The ticket lock when `next_ticket` wraps around

Tickets are drawn from a 32-bit counter that is never reset.  The search of `check_grant` for
the smallest ticket, which starts from the largest value with a strict comparison, and the test
of `poll_for_grant` compare tickets as plain unsigned numbers.  The order of the requests is
their distance behind `next_ticket`, modulo `2 ^ 32`.

`servesOldest_iff`: the oldest request is served, and no other, exactly when its ticket is the
smallest as a number and is not the largest value of all.
-/

namespace CxlLock.Faa

/-- The node waits or holds. -/
def Active (shm : FaaShm) (n : NodeId) : Prop := (shm.ticket n).active ≠ 0

/-- How far the node's ticket is behind `next_ticket`, modulo `2 ^ 32`. -/
def age (l : LockId) (shm : FaaShm) (n : NodeId) : UInt32 :=
  (shm.entry l).nextTicket - (shm.ticket n).ticket

/-- The active node whose ticket is farthest behind `next_ticket`. -/
def Oldest (nodeCount : UInt32) (l : LockId) (shm : FaaShm) (n : NodeId) : Prop :=
  n < nodeCount ∧ Active shm n ∧ ∀ m, m < nodeCount → Active shm m → age l shm m ≤ age l shm n

/-- A free lock for which all active nodes wait, with different tickets among the 64 values
before `next_ticket`; the ticket before the oldest one has been served. -/
structure Waiting (nodeCount : UInt32) (l : LockId) (shm : FaaShm) : Prop where
  nodeCount_pos : 0 < nodeCount
  nodeCount_le : nodeCount ≤ maxNodeCount
  free : (shm.entry l).ownerNode = invalidNodeId
  recent : ∀ n, n < nodeCount → Active shm n → 1 ≤ age l shm n ∧ age l shm n ≤ 64
  distinct : ∀ n, n < nodeCount → ∀ m, m < nodeCount → Active shm n → Active shm m →
    (shm.ticket n).ticket = (shm.ticket m).ticket → n = m
  served : ∀ n, Oldest nodeCount l shm n →
    (shm.entry l).nowServing + 1 = (shm.ticket n).ticket

/-- The next grant goes to the oldest request and is seen by that node alone. -/
structure ServesOldest (nodeCount : UInt32) (l : LockId) (shm : FaaShm) : Prop where
  chosen : ∀ n, Oldest nodeCount l shm n → checkGrant nodeCount l shm = n
  invalid : checkGrant nodeCount l shm = invalidNodeId → ∀ n, n < nodeCount → ¬ Active shm n
  granted : ∀ n, Oldest nodeCount l shm n → pollGranted n l (grantLock n l shm).2 = true
  others : ∀ n, Oldest nodeCount l shm n → ∀ m, m < nodeCount → Active shm m → m ≠ n →
    pollGranted m l (grantLock n l shm).2 = false

/-- The wrap of the counter does not fall between the tickets of the active nodes: that of the
oldest is the smallest as a number, and is not the value the search starts from. -/
def NoWrap (nodeCount : UInt32) (l : LockId) (shm : FaaShm) : Prop :=
  ∀ n, Oldest nodeCount l shm n → (shm.ticket n).ticket ≠ maxTicket ∧
    ∀ m, m < nodeCount → Active shm m → (shm.ticket n).ticket ≤ (shm.ticket m).ticket

instance (shm : FaaShm) : DecidablePred (Active shm) := fun _ => inferInstanceAs (Decidable (_ ≠ _))

instance (nodeCount : UInt32) (l : LockId) (shm : FaaShm) :
    DecidablePred (Oldest nodeCount l shm) := fun _ => inferInstanceAs (Decidable (_ ∧ _ ∧ _))

section

variable {nodeCount : UInt32} {l : LockId} {shm : FaaShm} {n m : NodeId}

/-- Among active nodes there is an oldest. -/
lemma exists_oldest (hm : m < nodeCount) (hactive : Active shm m) :
    ∃ n, Oldest nodeCount l shm n := by
  have hne : ((idsBelow nodeCount).toFinset.filter (Active shm)).Nonempty :=
    ⟨m, by simp only [Finset.mem_filter, List.mem_toFinset, mem_idsBelow, hm, hactive, and_self]⟩
  obtain ⟨n, hn, hmax⟩ := Finset.exists_max_image _ (fun k => (age l shm k).toNat) hne
  simp only [Finset.mem_filter, List.mem_toFinset, mem_idsBelow] at hn hmax
  exact ⟨n, hn.1, hn.2, fun k hk hka => UInt32.le_iff_toNat_le.2 (hmax k ⟨hk, hka⟩)⟩

/-- The grant test compares with the ticket of the node that has been granted last. -/
lemma pollGranted_grantLock (hn : n ≠ invalidNodeId) (hm : Active shm m) :
    pollGranted m l (grantLock n l shm).2 = true ↔
      (shm.ticket m).ticket ≤ (shm.ticket n).ticket := by
  have hactive : (shm.ticket m).active ≠ 0 := hm
  simp [pollGranted, grantLock, hn, hactive]

lemma Waiting.ne_invalid (h : Waiting nodeCount l shm) (hn : n < nodeCount) :
    n ≠ invalidNodeId :=
  ne_invalidNodeId h.nodeCount_le hn

/-- Without a wrap the oldest request has a smaller number than every other. -/
lemma NoWrap.lt (h : NoWrap nodeCount l shm) (hw : Waiting nodeCount l shm)
    (hn : Oldest nodeCount l shm n) (hm : m < nodeCount) (hactive : Active shm m)
    (hne : m ≠ n) : (shm.ticket n).ticket < (shm.ticket m).ticket := by
  rcases UInt32.lt_or_eq_of_le ((h n hn).2 m hm hactive) with hlt | heq
  · exact hlt
  · exact absurd (hw.distinct n hn.1 m hm hn.2.1 hactive heq).symm hne

lemma checkGrant_of_noWrap (h : NoWrap nodeCount l shm) (hw : Waiting nodeCount l shm)
    (hn : Oldest nodeCount l shm n) : checkGrant nodeCount l shm = n := by
  have hmax : (shm.ticket n).ticket < maxTicket := by
    have hle : (shm.ticket n).ticket.toNat ≤ maxTicket.toNat :=
      Nat.le_of_lt_succ (shm.ticket n).ticket.toNat_lt
    exact UInt32.lt_of_le_of_ne (UInt32.le_iff_toNat_le.2 hle) (h n hn).1
  exact (checkGrant_eq_iff (hw.ne_invalid hn.1)).2 ⟨hw.free, hn.1, ⟨hn.2.1, hmax⟩,
    fun m hm hcand hne => Or.inl (h.lt hw hn hm hcand.1 hne)⟩

lemma servesOldest_of_noWrap (h : NoWrap nodeCount l shm) (hw : Waiting nodeCount l shm) :
    ServesOldest nodeCount l shm where
  chosen _ hn := checkGrant_of_noWrap h hw hn
  invalid hnone m hm hactive := by
    obtain ⟨n, hn⟩ := exists_oldest (l := l) hm hactive
    rw [checkGrant_of_noWrap h hw hn] at hnone
    exact hw.ne_invalid hn.1 hnone
  granted n hn := (pollGranted_grantLock (hw.ne_invalid hn.1) hn.2.1).2 (UInt32.le_refl _)
  others n hn m hm hactive hne := by
    rw [Bool.eq_false_iff, Ne, pollGranted_grantLock (hw.ne_invalid hn.1) hactive]
    exact UInt32.not_le.2 (h.lt hw hn hm hactive hne)

lemma noWrap_of_servesOldest (h : ServesOldest nodeCount l shm)
    (hw : Waiting nodeCount l shm) : NoWrap nodeCount l shm := by
  intro n hn
  obtain ⟨-, -, hcand, -⟩ := (checkGrant_eq_iff (hw.ne_invalid hn.1)).1 (h.chosen n hn)
  refine ⟨UInt32.ne_of_lt hcand.2, fun m hm hactive => ?_⟩
  by_cases hmn : m = n
  · rw [hmn]
    exact UInt32.le_refl _
  · -- another node whose ticket is not above would see the grant as its own
    have hother := h.others n hn m hm hactive hmn
    rw [Bool.eq_false_iff, Ne, pollGranted_grantLock (hw.ne_invalid hn.1) hactive] at hother
    exact UInt32.le_of_lt (UInt32.not_le.1 hother)

/-- **FAA order** survives a wrap of the ticket counter exactly as long as the wrap does not
fall between the tickets of the waiting nodes. -/
theorem servesOldest_iff (nodeCount : UInt32) (l : LockId) (shm : FaaShm)
    (hw : Waiting nodeCount l shm) :
    ServesOldest nodeCount l shm ↔ NoWrap nodeCount l shm :=
  ⟨fun h => noWrap_of_servesOldest h hw, fun h => servesOldest_of_noWrap h hw⟩

end

/-- One lock with the given counters and tickets of the first nodes, all others inactive. -/
def waitingShm (nextTicket nowServing : UInt32) (tickets : List UInt32) : FaaShm where
  entry _ := ⟨nextTicket, nowServing, invalidNodeId⟩
  ticket n := match tickets[n.toNat]? with
    | some t => ⟨t, 1⟩
    | none => ⟨0, 0⟩

lemma waiting_waitingShm : Waiting 2 0 (waitingShm 9 6 [8, 7]) where
  nodeCount_pos := by decide
  nodeCount_le := by decide
  free := rfl
  recent := by decide +kernel
  distinct := by decide +kernel
  served n hn := by
    have hall : ∀ n : NodeId, n < 2 → Oldest 2 0 (waitingShm 9 6 [8, 7]) n → n = 1 := by
      decide +kernel
    rw [hall n hn.1 hn]
    rfl

theorem servesOldest_two_nodes : ServesOldest 2 0 (waitingShm 9 6 [8, 7]) ↔
    NoWrap 2 0 (waitingShm 9 6 [8, 7]) :=
  servesOldest_iff 2 0 (waitingShm 9 6 [8, 7]) waiting_waitingShm

/-- A single node that waits with the last ticket before the wrap is never chosen. -/
theorem last_ticket_not_served : ¬ ∀ (nodeCount : UInt32) (l : LockId) (shm : FaaShm),
    Waiting nodeCount l shm → ServesOldest nodeCount l shm := by
  intro h
  have hw : Waiting 1 0 (waitingShm 0 0xFFFFFFFE [0xFFFFFFFF]) := by
    refine ⟨by decide, by decide, rfl, by decide +kernel, by decide +kernel, fun n hn => ?_⟩
    have hall : ∀ n : NodeId, n < 1 → n = 0 := by decide +kernel
    rw [hall n hn.1]
    rfl
  exact (h 1 0 _ hw).invalid (by decide +kernel) 0 (by decide) (by decide +kernel)

end CxlLock.Faa
