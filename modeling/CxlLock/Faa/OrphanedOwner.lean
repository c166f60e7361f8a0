import CxlLock.Faa.GlobalLock
import CxlLock.Lib.Transition

/-!
# Owners that have left

`grant_lock` of the ticket lock stores the owner without testing that the node is still
active.  The manager calls it with what `check_grant` has returned before, and the node with
ticket 0 can be inside without ever having been granted the lock.  When it releases between
the two calls of the manager, the grant leaves the lock with an owner that has no request
(`orphaned_owner`), and `check_grant` returns nobody from then on.

One lock, with whole calls as steps; the manager's two calls are two steps.
-/

namespace CxlLock.Faa

open Transition

/-- What a node does with the lock. -/
inductive Stage
  | idle
  /-- Between `acquire_lock` and a successful poll. -/
  | waiting
  /-- Between a successful poll and `release_lock`. -/
  | inside
  deriving DecidableEq

/-- The records, the nodes, and what `check_grant` has returned while the manager has yet to
call `grant_lock`. -/
structure GrantState where
  shm : FaaShm
  stage : NodeId → Stage
  pending : Option NodeId

/-- The node has a request or hold that it has not released. -/
def GrantState.Engaged (s : GrantState) (n : NodeId) : Prop :=
  s.stage n ≠ .idle

instance (s : GrantState) (n : NodeId) : Decidable (s.Engaged n) :=
  inferInstanceAs (Decidable (_ ≠ _))

/-- One call by a node or by the manager. -/
inductive GrantEvent
  | acquire (n : NodeId)
  | poll (n : NodeId)
  | release (n : NodeId)
  | check
  | grant
  deriving DecidableEq

/-- The node goes on to a stage, with the given records. -/
def GrantState.move (s : GrantState) (shm : FaaShm) (n : NodeId) (stage : Stage) : GrantState :=
  { s with shm := shm, stage := Function.update s.stage n stage }

@[simp] lemma GrantState.move_stage (s : GrantState) (shm : FaaShm) (n k : NodeId)
    (stage : Stage) : (s.move shm n stage).stage k = if k = n then stage else s.stage k := by
  simp [move, Function.update_apply]

/-- The state after one call. -/
def grantNext (size : SystemSize) (l : LockId) (s : GrantState) : GrantEvent → Option GrantState
  | .acquire n =>
      if n < size.nodeCount ∧ s.stage n = .idle then
        some (s.move (acquireLock n l s.shm).2 n .waiting)
      else none
  | .poll n =>
      if s.stage n = .waiting then
        some (if pollGranted n l s.shm then s.move s.shm n .inside else s)
      else none
  | .release n =>
      if s.stage n = .inside then some (s.move (releaseLock n l s.shm).2 n .idle) else none
  | .check =>
      if s.pending = none then
        let grantee := checkGrant size.nodeCount l s.shm
        some { s with pending := if grantee = invalidNodeId then none else some grantee }
      else none
  | .grant =>
      s.pending.map fun n => { s with shm := (grantLock n l s.shm).2, pending := none }

/-- The system of single calls on lock `l`, started right after `initialize`. -/
def grantSystem (size : SystemSize) (l : LockId) : LabelledSystem GrantState GrantEvent where
  init s := (∃ shm, s.shm = (initializeShm size.nodeCount shm).2) ∧
    (∀ n, s.stage n = .idle) ∧ s.pending = none
  next := grantNext size l

/-- The owner has a request or hold that it has not released. -/
def OwnerEngaged (l : LockId) (s : GrantState) : Prop :=
  ∀ n, (s.shm.entry l).ownerNode = n → n ≠ invalidNodeId → s.Engaged n

/-- The condition on a step: when the manager calls `grant_lock`, the node it has selected has
not released since, or has requested again. -/
def GranteeEngaged (s : GrantState) : GrantEvent → Prop
  | .grant => ∀ n, s.pending = some n → s.Engaged n
  | _ => True

instance (s : GrantState) : ∀ e, Decidable (GranteeEngaged s e)
  | .grant => inferInstanceAs (Decidable (∀ n, s.pending = some n → s.Engaged n))
  | .acquire _ | .poll _ | .release _ | .check => .isTrue trivial

section
variable {size : SystemSize} {l : LockId} {s s' : GrantState}

/-- The manager grants the lock only to a node that `check_grant` has returned. -/
def PendingValid (s : GrantState) : Prop :=
  ∀ n, s.pending = some n → n ≠ invalidNodeId

lemma PendingValid.step (h : PendingValid s) {e : GrantEvent}
    (hs : grantNext size l s e = some s') : PendingValid s' := by
  cases e with
  | acquire n =>
      obtain ⟨-, hs⟩ := Option.ite_none_right_eq_some.1 hs
      exact Option.some.inj hs ▸ h
  | poll n =>
      obtain ⟨-, hs⟩ := Option.ite_none_right_eq_some.1 hs
      rw [← Option.some.inj hs]
      split_ifs <;> exact h
  | release n =>
      obtain ⟨-, hs⟩ := Option.ite_none_right_eq_some.1 hs
      exact Option.some.inj hs ▸ h
  | check =>
      obtain ⟨-, hs⟩ := Option.ite_none_right_eq_some.1 hs
      rw [← Option.some.inj hs]
      intro n hn
      obtain ⟨hgrant, hn⟩ := Option.ite_none_left_eq_some.1 hn
      exact Option.some.inj hn ▸ hgrant
  | grant =>
      obtain ⟨n, -, rfl⟩ := Option.map_eq_some_iff.1 hs
      intro k hk
      cases hk

lemma pendingValid_of_reachable (hs : (grantSystem size l).Reachable s) : PendingValid s := by
  refine LabelledSystem.Reachable.invariant (fun s hi n hn => ?_) (fun _ _ _ h => h.step) hs
  rw [hi.2.2] at hn
  cases hn

/-- After a grant the owner is engaged exactly when the node selected before still is. -/
lemma ownerEngaged_grant_iff (h : PendingValid s) (hs : grantNext size l s .grant = some s') :
    OwnerEngaged l s' ↔ GranteeEngaged s .grant := by
  obtain ⟨n, hn, rfl⟩ := Option.map_eq_some_iff.1 hs
  have hne := h n hn
  have howner : ((grantLock n l s.shm).2.entry l).ownerNode = n := by
    simp [grantLock, hne]
  constructor
  · intro howned k hk
    obtain rfl := Option.some.inj (hn.symm.trans hk)
    exact howned n howner hne
  · intro hok k hk _
    obtain rfl := howner.symm.trans hk
    exact hok n hn

lemma OwnerEngaged.init (hl : l < size.maxLocks) (h : (grantSystem size l).init s) :
    OwnerEngaged l s := by
  obtain ⟨⟨shm, hshm⟩, -, -⟩ := h
  intro n howner hn
  refine absurd howner.symm ?_
  rw [hshm]
  simp [initializeShm, size.lock_lt hl, size.nodeCount_ne_zero,
    UInt32.not_lt.2 size.nodeCount_le, hn]

/-- Only the owner itself can end its engagement, and its `release_lock` clears the owner. -/
lemma OwnerEngaged.step (h : OwnerEngaged l s) (hp : PendingValid s)
    (hin : ∀ n, s.Engaged n → n < size.nodeCount) {e : GrantEvent} (hok : GranteeEngaged s e)
    (hs : grantNext size l s e = some s') : OwnerEngaged l s' := by
  cases e with
  | acquire n =>
      obtain ⟨⟨hn, -⟩, hs⟩ := Option.ite_none_right_eq_some.1 hs
      obtain rfl := Option.some.inj hs
      intro k howner hk
      have howner' : (s.shm.entry l).ownerNode = k := by
        simpa [GrantState.move, acquireLock, size.node_ne_invalid hn] using howner
      rw [GrantState.Engaged, GrantState.move_stage]
      split_ifs
      · decide
      · exact h k howner' hk
  | poll n =>
      obtain ⟨-, hs⟩ := Option.ite_none_right_eq_some.1 hs
      obtain rfl := Option.some.inj hs
      split_ifs with hgranted
      · intro k howner hk
        rw [GrantState.Engaged, GrantState.move_stage]
        split_ifs
        · decide
        · exact h k howner hk
      · exact h
  | release n =>
      obtain ⟨hinside, hs⟩ := Option.ite_none_right_eq_some.1 hs
      obtain rfl := Option.some.inj hs
      have hn : n < size.nodeCount := hin n (by simp [GrantState.Engaged, hinside])
      intro k howner hk
      refine absurd howner.symm ?_
      simpa [GrantState.move, releaseLock, size.node_ne_invalid hn] using hk
  | check =>
      obtain ⟨-, hs⟩ := Option.ite_none_right_eq_some.1 hs
      obtain rfl := Option.some.inj hs
      exact h
  | grant => exact (ownerEngaged_grant_iff hp hs).2 hok

/-- Only participants call. -/
lemma engaged_lt_step (hin : ∀ n, s.Engaged n → n < size.nodeCount) {e : GrantEvent}
    (hs : grantNext size l s e = some s') : ∀ n, s'.Engaged n → n < size.nodeCount := by
  intro k hk
  cases e with
  | acquire n =>
      obtain ⟨⟨hn, -⟩, hs⟩ := Option.ite_none_right_eq_some.1 hs
      obtain rfl := Option.some.inj hs
      rw [GrantState.Engaged, GrantState.move_stage] at hk
      split_ifs at hk with hkn
      · exact hkn ▸ hn
      · exact hin k hk
  | poll n =>
      obtain ⟨hwaiting, hs⟩ := Option.ite_none_right_eq_some.1 hs
      obtain rfl := Option.some.inj hs
      split_ifs at hk with hgranted
      · rw [GrantState.Engaged, GrantState.move_stage] at hk
        split_ifs at hk with hkn
        · exact hin k (by simp [GrantState.Engaged, hkn, hwaiting])
        · exact hin k hk
      · exact hin k hk
  | release n =>
      obtain ⟨-, hs⟩ := Option.ite_none_right_eq_some.1 hs
      obtain rfl := Option.some.inj hs
      rw [GrantState.Engaged, GrantState.move_stage] at hk
      split_ifs at hk with hkn
      · exact absurd rfl hk
      · exact hin k hk
  | check =>
      obtain ⟨-, hs⟩ := Option.ite_none_right_eq_some.1 hs
      obtain rfl := Option.some.inj hs
      exact hin k hk
  | grant =>
      obtain ⟨n, -, rfl⟩ := Option.map_eq_some_iff.1 hs
      exact hin k hk

/-- **Whose grant leaves no orphan.**  In every run whose grants meet the condition, the owner
has a request or hold in every state reached; and from any reachable state, a grant has this
outcome exactly when it meets the condition. -/
theorem faa_owner_engaged (size : SystemSize) (l : LockId) (hl : l < size.maxLocks) :
    (∀ s, (grantSystem size l).ReachableWhen GranteeEngaged s → OwnerEngaged l s) ∧
    ∀ s s', (grantSystem size l).Reachable s → grantNext size l s .grant = some s' →
      (OwnerEngaged l s' ↔ GranteeEngaged s .grant) := by
  refine ⟨fun s hs => ?_, fun s s' hs hnext =>
    ownerEngaged_grant_iff (pendingValid_of_reachable hs) hnext⟩
  have h : OwnerEngaged l s ∧ PendingValid s ∧ ∀ n, s.Engaged n → n < size.nodeCount := by
    refine LabelledSystem.ReachableWhen.invariant
      (I := fun s => OwnerEngaged l s ∧ PendingValid s ∧ ∀ n, s.Engaged n → n < size.nodeCount)
      (fun s hi => ⟨.init hl hi, ?_, ?_⟩) ?_ hs
    · intro n hn
      rw [hi.2.2] at hn
      cases hn
    · intro n hn
      exact absurd (hi.2.1 n) hn
    · rintro s e s' ⟨h, hp, hin⟩ hok hnext
      exact ⟨h.step hp hin hok hnext, hp.step hnext, engaged_lt_step hin hnext⟩
  exact h.1

end

/-- The state right after `initialize`, over zeroed memory. -/
def grantStart (size : SystemSize) : GrantState where
  shm := (initializeShm size.nodeCount ⟨fun _ => ⟨0, 0, 0⟩, fun _ => ⟨0, 0⟩⟩).2
  stage := fun _ => .idle
  pending := none

lemma grantStart_init (size : SystemSize) (l : LockId) :
    (grantSystem size l).init (grantStart size) :=
  ⟨⟨_, rfl⟩, fun _ => rfl, rfl⟩

/-- Node 0 enters with ticket 0 and releases, and node 1 is granted the lock after it. -/
theorem faa_owner_engaged_run : ∃ s : GrantState,
    OwnerEngaged 0 s ∧ (s.shm.entry 0).ownerNode = 1 ∧ s.pending = none := by
  obtain ⟨s, hs, hp⟩ := LabelledSystem.exists_of_exec GranteeEngaged
    ([.acquire 0, .poll 0, .acquire 1, .release 0, .check, .grant, .poll 1])
    (fun s => (s.shm.entry 0).ownerNode == 1 && s.pending.isNone)
    (grantStart_init (.of 2 1) 0) (by decide +kernel)
  rw [Bool.and_eq_true, beq_iff_eq, Option.isNone_iff_eq_none] at hp
  exact ⟨s, (faa_owner_engaged (.of 2 1) 0 (by decide)).1 s hs, hp⟩

/-- Node 0 is inside with ticket 0 when `check_grant` returns it, and releases before
`grant_lock` is called: the lock then has an owner without request or hold, and the manager is
between scans. -/
theorem orphaned_owner : ¬ ∀ (size : SystemSize) (l : LockId) (s : GrantState),
    l < size.maxLocks → (grantSystem size l).Reachable s → s.pending = none →
      OwnerEngaged l s := by
  intro h
  obtain ⟨s, hs, hp⟩ := LabelledSystem.exists_of_exec (fun _ _ => True)
    ([.acquire 0, .poll 0, .check, .release 0, .grant])
    (fun s => (s.shm.entry 0).ownerNode == 0 && s.pending.isNone && s.stage 0 == .idle)
    (grantStart_init (.of 2 1) 0) (by decide +kernel)
  simp only [Bool.and_eq_true, beq_iff_eq, Option.isNone_iff_eq_none] at hp
  obtain ⟨⟨howner, hpending⟩, hidle⟩ := hp
  exact h (.of 2 1) 0 s (by decide) hs hpending 0 howner (by decide) hidle

end CxlLock.Faa
