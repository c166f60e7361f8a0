import CxlLock.Mcs.Exclusion

/-!
# Does a node that has entered the MCS lock find itself as the owner?

The flag that a waiting node polls, `locked`, and the field that `release_lock` checks,
`owner_node`, are stored one after the other, and not always in the same order: a releasing
predecessor stores the owner first, `grant_lock` stores it last.  A node that enters between
the two stores of `grant_lock` and releases at once is refused with `ERROR_NOT_OWNER`:
`early_release_refused`.

That is the only way.  `Granted` says that whoever has the lock is the owner, except while it
wakes its successor, whose name the owner already is, and while the manager still has to store
the owner.
-/

namespace CxlLock.Mcs

open Transition

/-- What `release_lock` of node `n` returns at the node's next access, if it returns there. -/
def releaseResult (l : LockId) (n : NodeId) (m : Memory) : NodePc → Option LockResult
  | .critical => if (m.shm.entry l).ownerNode ≠ n then some .errorNotOwner else none
  | .resetWaiting => some .success
  | _ => none

/-- A `release_lock` that node `n` is about to call finds the node as the owner, and one that
is about to return returns `SUCCESS`. -/
def ReleaseOwned (l : LockId) (s : State) (n : NodeId) : Prop :=
  (s.pc n = .critical → (s.mem.shm.entry l).ownerNode = n) ∧
    ∀ rc, releaseResult l n s.mem (s.pc n) = some rc → rc = .success

/-- The condition on an access of node `n`: it does not begin `release_lock` while the manager
is between its two stores for this node. -/
def OwnerStored (s : State) (n : NodeId) : Prop :=
  s.pc n = .critical → s.mgr ≠ .grantOwner n

/-! ## Who the owner is -/

/-- The owner in terms of who has the lock. -/
structure Granted (l : LockId) (s : State) : Prop where
  owner : ∀ n, HasLock s n → (∀ succ, s.pc n ≠ .wake succ) →
    (s.mem.shm.entry l).ownerNode = n ∨ s.mgr = .grantOwner n
  waking : ∀ n succ, s.pc n = .wake succ → (s.mem.shm.entry l).ownerNode = succ

section Steps

variable {size : SystemSize} {l : LockId} {s : State} {n : NodeId}

/-- An access that leaves the owner alone and gives nobody the lock. -/
lemma Granted.keep {r : Memory × NodePc} (h : Granted l s)
    (howner : (r.1.shm.entry l).ownerNode = (s.mem.shm.entry l).ownerNode)
    (htoken : ∀ k, HasLock (s.move n r) k → HasLock s k)
    (hbefore : ∀ succ, s.pc n ≠ .wake succ) (hafter : ∀ succ, r.2 ≠ .wake succ) :
    Granted l (s.move n r) := by
  constructor
  · intro k hk hwake
    rw [Config.move_mem, howner, Config.move_mgr]
    apply h.owner k (htoken k hk)
    intro succ
    by_cases hkn : k = n
    · exact hkn ▸ hbefore succ
    · have := hwake succ
      rwa [Config.move_pc, if_neg hkn] at this
  · intro k succ hk
    rw [Config.move_pc] at hk
    rw [Config.move_mem, howner]
    split_ifs at hk with hkn
    · exact absurd hk (hafter succ)
    · exact h.waking k succ hk

/-- Passing the owner on: only the releasing node has the lock, and it is going to wake the new
owner. -/
lemma Granted.passOwner (hinv : Inv size l s) {succ : NodeId} (hpc : s.pc n = .passOwner succ) :
    Granted l (s.move n (nodeStep l n s.mem (s.pc n))) := by
  have hn : HasLock s n := .inl (by simp [hpc])
  rw [hpc]
  -- whoever has the lock afterwards is the node itself
  have honly : ∀ k, HasLock (s.move n (nodeStep l n s.mem (.passOwner succ))) k → k = n :=
    fun k hk => hinv.unique k n (Inv.hasLock_passOwner hpc hk) hn
  constructor
  · intro k hk hwake
    obtain rfl := honly k hk
    exact absurd (by simp [nodeStep]) (hwake succ)
  · intro k next hk
    obtain rfl := honly k (.inl (by rw [hk]; rfl))
    obtain rfl : succ = next := by simpa [nodeStep] using hk
    simp [nodeStep]

/-- Waking the successor hands the lock to the owner. -/
lemma Granted.wake (hinv : Inv size l s) (h : Granted l s) {succ : NodeId}
    (hpc : s.pc n = .wake succ) : Granted l (s.move n (nodeStep l n s.mem (s.pc n))) := by
  have hn : HasLock s n := .inl (by simp [hpc])
  have howner := h.waking n succ hpc
  rw [hpc]
  constructor
  · intro k hk _
    obtain rfl := hinv.hasLock_wake hpc hk
    exact .inl (by simpa [nodeStep] using howner)
  · intro k next hk
    obtain ⟨hkn, hk⟩ := Config.of_move_pc (fun pc : NodePc => pc = .wake next)
      (by simp [nodeStep]) hk
    exact absurd (hinv.unique k n (.inl (by simp [hk])) hn) hkn

/-- Clearing the owner: nobody has the lock. -/
lemma Granted.clearOwner (hinv : Inv size l s) (hpc : s.pc n = .clearOwner) :
    Granted l (s.move n (nodeStep l n s.mem (s.pc n))) := by
  have hfree := hinv.not_hasLock_clearOwner hpc
  rw [hpc]
  constructor
  · exact fun k hk => absurd hk (hfree k)
  · exact fun k next hk => absurd (.inl (by rw [hk]; rfl)) (hfree k)

lemma Granted.node (hinv : Inv size l s) (h : Granted l s) :
    Granted l (s.move n (nodeStep l n s.mem (s.pc n))) := by
  by_cases hclear : s.pc n = .clearOwner
  · exact Granted.clearOwner hinv hclear
  by_cases hpass : ∃ succ, s.pc n = .passOwner succ
  · obtain ⟨succ, hpc⟩ := hpass
    exact Granted.passOwner hinv hpc
  by_cases hwake : ∃ succ, s.pc n = .wake succ
  · obtain ⟨succ, hpc⟩ := hwake
    exact h.wake hinv hpc
  -- all other accesses are quiet
  rcases nodeStep_effect hinv with hquiet | hpc | ⟨succ, hpc | hpc⟩
  · refine h.keep hquiet.owner (fun k hk => hquiet.hasLock hk)
      (fun succ hpc => hwake ⟨succ, hpc⟩) (fun succ => ?_)
    simpa using hquiet.waking succ
  · exact absurd hpc hclear
  · exact absurd ⟨succ, hpc⟩ hpass
  · exact absurd ⟨succ, hpc⟩ hwake

lemma Granted.manager (hinv : Inv size l s) (h : Granted l s) :
    Granted l (s.manage (managerStep size.nodeCount l s.mem s.mgr)) := by
  cases hmgr : s.mgr with
  | loadOwner | loadHead | loadWaiting =>
      simp only [managerStep]
      have howner : ∀ k, HasLock s k → (∀ succ, s.pc k ≠ .wake succ) →
          (s.mem.shm.entry l).ownerNode = k := fun k hk hwake => by
        simpa [hmgr] using h.owner k hk hwake
      split_ifs <;> exact ⟨fun k hk hwake => .inl (howner k hk hwake), h.waking⟩
  | loadLocked head =>
      refine ⟨fun k hk hwake => .inl ?_, h.waking⟩
      simpa [hmgr, managerStep] using h.owner k hk hwake
  | grantLocked head =>
      -- nobody had the lock; now the head has it, and its name is stored next
      obtain ⟨-, hfree⟩ := hinv.deciding (by simp [hmgr])
      refine ⟨fun k hk _ => .inr ?_, fun k succ hk => absurd (.inl ?_) (hfree k)⟩
      · rcases hasLock_manage (hmgr ▸ hk) with hk | hk
        · exact absurd hk (hfree k)
        · obtain rfl : head = k := by simpa [hmgr] using hk
          simp [managerStep]
      · have hpc : s.pc k = .wake succ := hk
        simp [hpc]
  | grantOwner head =>
      have hinvalid := hinv.committing head hmgr
      refine ⟨fun k hk hwake => .inl ?_, fun k succ hk => ?_⟩
      · have hkpart : k < size.nodeCount := by
          apply hinv.participates
          rintro hidle
          simp [HasLock, hidle] at hk
        have hne := size.node_ne_invalid hkpart
        rcases h.owner k hk hwake with hk' | hk'
        · exact absurd (hk'.symm.trans hinvalid) hne
        · obtain rfl : head = k := by simpa [hmgr] using hk'
          simp [managerStep]
      · have hpc : s.pc k = .wake succ := hk
        exact absurd hinvalid (hinv.waking k succ hpc)

lemma Granted.init (h : (machine size l).system.init s) : Granted l s := by
  obtain ⟨-, hpc, -⟩ := h
  replace hpc : ∀ n, s.pc n = .idle := hpc
  constructor <;> simp [HasLock, hpc]

/-- In every reachable state whoever has the lock is the owner, with the two exceptions. -/
lemma granted_of_reachable (hs : (machine size l).system.Reachable s) : Granted l s := by
  have h : Inv size l s ∧ Granted l s := by
    refine (machine_neverBlocks size l).invariant (I := fun s => Inv size l s ∧ Granted l s)
      (fun _ hi => ⟨Inv.init hi, Granted.init hi⟩) (fun s n c h _ hn => ?_) (fun s h _ => ?_) hs
    · exact ⟨h.1.node hn, h.2.node h.1⟩
    · exact ⟨h.1.manager, h.2.manager h.1⟩
  exact h.2

end Steps

/-! ## The release of a node that has entered -/

/-- **Who entered can release, except right after a grant.**  In every reachable state the
`release_lock` of a node finds the node as the owner and succeeds exactly when it does not
begin between the two stores of `grant_lock` for this node. -/
theorem mcs_releaseOwned_iff (size : SystemSize) (l : LockId) (s : State)
    (hs : (machine size l).system.Reachable s) (n : NodeId) :
    ReleaseOwned l s n ↔ OwnerStored s n := by
  have hinv := inv_of_reachable hs
  have hgranted := granted_of_reachable hs
  by_cases hpc : s.pc n = .critical
  · have hn := hinv.participates n (by simp [hpc])
    have hlock : HasLock s n := .inl (by simp [hpc])
    constructor
    · rintro ⟨howner, -⟩ - hmgr
      have hinvalid := hinv.committing n hmgr
      exact size.node_ne_invalid hn ((howner hpc).symm.trans hinvalid)
    · intro hstored
      have howner : (s.mem.shm.entry l).ownerNode = n := by
        rcases hgranted.owner n hlock (by simp [hpc]) with howner | hmgr
        · exact howner
        · exact absurd hmgr (hstored hpc)
      refine ⟨fun _ => howner, fun rc hrc => ?_⟩
      simp [releaseResult, hpc, howner] at hrc
  · refine ⟨fun _ h => absurd h hpc, fun _ => ⟨fun h => absurd h hpc, fun rc hrc => ?_⟩⟩
    cases hcase : s.pc n with
    | critical => exact absurd hcase hpc
    | resetWaiting => simpa [releaseResult, hcase, eq_comm] using hrc
    | _ => simp [releaseResult, hcase] at hrc

/-- Node 0 is granted the lock, the manager completes the grant, and node 0 can release. -/
theorem mcs_releaseOwned_run : ∃ s : State,
    (ReleaseOwned 0 s 0 ↔ OwnerStored s 0) ∧ s.pc 0 = .critical ∧ s.mgr = .loadOwner := by
  obtain ⟨s, hs, hp⟩ := LabelledSystem.exists_of_exec (fun _ _ => True)
    (turns 0 5 ++ managerTurns 6 ++ turns 0 2)
    (fun s => s.pc 0 == .critical && s.mgr == .loadOwner)
    (zeroedStart_init (.of 1 1) (l := 0) (by decide)) (by decide +kernel)
  rw [Bool.and_eq_true, beq_iff_eq, beq_iff_eq] at hp
  exact ⟨s, mcs_releaseOwned_iff (.of 1 1) 0 s hs 0, hp⟩

/-- Node 0 polls `locked = 2` and calls `release_lock` before the manager has stored the
owner. -/
theorem early_release_refused : ¬ ∀ (size : SystemSize) (l : LockId) (s : State) (n : NodeId),
    (machine size l).system.Reachable s → ReleaseOwned l s n := by
  intro h
  obtain ⟨s, hs, hp⟩ := LabelledSystem.exists_of_exec (fun _ _ => True)
    (turns 0 5 ++ managerTurns 5 ++ turns 0 2)
    (fun s => s.pc 0 == .critical && (s.mem.shm.entry 0).ownerNode == invalidNodeId)
    (zeroedStart_init (.of 1 1) (l := 0) (by decide)) (by decide +kernel)
  rw [Bool.and_eq_true, beq_iff_eq, beq_iff_eq] at hp
  have howner := (h (.of 1 1) 0 s 0 hs).1 hp.1
  exact absurd (hp.2.symm.trans howner) (by decide)

end CxlLock.Mcs
