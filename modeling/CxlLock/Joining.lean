import CxlLock.DistributedLock

/-!
# Nodes that join a running system

Runs that mix `DistributedLockSystem::initialize` of any nodes with whole calls of the nodes
that have been initialized and of their lock managers, for each of the four algorithms.  All
nodes have the same configuration and open the same store.  An `initialize` is a sequence of
steps, the `memset` of the pool and the two calls of `initialize` of the algorithm, and anything
can happen between two of them.  A node waits for at most one lock at a time; any number of them
may run a lock manager.

A node that joins writes the initial records over whatever the other nodes have stored.  The
first lock that is held then is forgotten and given to the next node that asks for it:
`join_breaks_exclusion`.  Two things save a run: from its first write to its return nothing else
happens, so that it does not matter that the stores of a step are not taken apart, and when it
writes first what it is going to write is there already (`Undisturbed`).  Then the whole call is
no step at all for the lock algorithm, whose own invariant carries exclusion through the run.
-/

namespace CxlLock

open Transition

namespace LockAlgorithm

/-- The exclusion argument of each algorithm over whole calls, with its condition. -/
def callInvariant (k : LockAlgorithm) (size : SystemSize) :
    CallInvariant k.records.algorithm size :=
  match k with
  | .cas => Cas.callInvariant size 0
  | .faa => Faa.callInvariant size
  | .mcs => Mcs.callInvariant size
  | .qspinlock => Qspinlock.callInvariant size

/-- The invariants speak of the lock records only. -/
lemma callInvariant_same {k : LockAlgorithm} {size : SystemSize} {s : CallState k.Shm}
    (hv : s.Valid size) (h : (k.callInvariant size).inv s) {shm : k.Shm}
    (hsame : k.records.Same size.nodeCount shm s.shm) :
    (k.callInvariant size).inv { s with shm := shm } := by
  cases k with
  | cas =>
      obtain ⟨hlocked, hone⟩ := h
      refine ⟨fun n l hn => ?_, fun l hl n hn m hm hnl hml => hone l hl n hn m hm ?_ ?_⟩
      · have hlt := hv.holds_lt n l hn
        exact (hsame l (size.lock_lt hlt.2) n hlt.1).trans (hlocked n l hn)
      · exact (hsame l (size.lock_lt hl) n hn).symm.trans hnl
      · exact (hsame l (size.lock_lt hl) m hm).symm.trans hml
  | faa =>
      obtain rfl : shm = s.shm := hsame
      exact h
  | mcs =>
      obtain rfl : shm = s.shm := hsame
      exact h
  | qspinlock =>
      obtain rfl : shm = s.shm := hsame
      exact h

end LockAlgorithm

/-- A configuration with which nodes can be initialized: the algorithm has a known name, the
sizes are within the limits, the nodes open one and the same store, and in each of them as many
bytes behind the region are mapped that `initialize` returns. -/
structure RunningConfig (k : LockAlgorithm) where
  config : SystemConfig
  store : BackingStore
  behind : Nat
  size : SystemSize
  algorithm_eq : LockAlgorithm.ofName config.lockAlgorithm = some k
  nodeCount_eq : config.nodeCount = size.nodeCount
  maxLocks_eq : config.maxLocks = size.maxLocks
  returns : k.Returns config.region behind 0 config.nodeCount

/-- A node in its `initialize`: what it does next, and what the call has been given. -/
structure JoiningNode where
  node : NodeId
  pc : InitPc
  asLockManager : Bool
  env : InitOutcome
  deriving DecidableEq

/-- The calls so far, the nodes whose `initialize` has succeeded, whether one of them runs a
lock manager, and the nodes that are in their `initialize`. -/
structure JoinState (Shm : Type) where
  call : CallState Shm
  joined : List NodeId
  managing : Bool
  joining : List JoiningNode

/-- One step. -/
inductive JoinEvent
  /-- The node calls `DistributedLockSystem::initialize`, which opens the store. -/
  | begins (n : NodeId) (asLockManager : Bool) (env : InitOutcome)
  /-- The node goes on with `initialize`. -/
  | goesOn (n : NodeId)
  /-- One whole call of the lock operations. -/
  | call (e : CallEvent)
  deriving DecidableEq

namespace JoinState

variable {Shm : Type}

/-- The records have been written. -/
def write (s : JoinState Shm) (shm : Shm) : JoinState Shm :=
  { s with call := { s.call with shm := shm } }

/-- The node has left its `initialize`. -/
def leave (s : JoinState Shm) (n : NodeId) : JoinState Shm :=
  { s with joining := s.joining.filter fun j => j.node ≠ n }

/-- The node is in its `initialize`. -/
def goOn (s : JoinState Shm) (j : JoiningNode) : JoinState Shm :=
  { s with joining := j :: s.joining }

/-- The node can call the lock operations. -/
def join (s : JoinState Shm) (n : NodeId) (asLockManager : Bool) : JoinState Shm :=
  { s with joined := n :: s.joined, managing := s.managing || asLockManager }

/-- `initialize` of the node has returned the code. -/
def returned (s : JoinState Shm) (n : NodeId) (asLockManager : Bool) (code : LockResult) :
    JoinState Shm :=
  if code = .success then s.join n asLockManager else s

end JoinState

section System

variable {k : LockAlgorithm} (rc : RunningConfig k)

/-- The rest of the `initialize` of a node, when nothing interrupts it. -/
def JoiningNode.finish (j : JoiningNode) (shm : k.Shm) : Option (LockResult × k.Shm) :=
  j.pc.finish k rc.config j.env j.node j.asLockManager shm

/-- `initialize` of node `n` in the state `s`, when nothing interrupts it. -/
def joinCall (s : JoinState k.Shm) (n : NodeId) (asLockManager : Bool) (env : InitOutcome) :
    Option (LockResult × k.Shm) :=
  initializeSystem k rc.config env (decide (n ∈ s.joined)) n asLockManager s.call.shm

/-- The store that `initialize` opens, if it opens one, is the store of the system, mapped as in
the other nodes. -/
def opensStore (env : InitOutcome) : Bool :=
  decide (rc.behind ≤ env.behind) &&
    match openPool rc.config env with
    | .ok store => store == rc.store
    | .error _ => true

/-- The calls of nodes that have been initialized, and the turns of a lock manager when there
is one. -/
def canCall (s : JoinState k.Shm) : CallEvent → Bool
  | .acquire n _ | .poll n | .cancel n | .release n _ => decide (n ∈ s.joined)
  | .scan _ => s.managing

/-- The state after one step. -/
def joinNext (s : JoinState k.Shm) : JoinEvent → Option (JoinState k.Shm)
  | .begins n asLockManager env =>
      if opensStore rc env ∧ ∀ j ∈ s.joining, j.node ≠ n then
        match initBegin rc.config env (decide (n ∈ s.joined)) with
        | .inl _ => some s
        | .inr pc => some (s.goOn ⟨n, pc, asLockManager, env⟩)
      else none
  | .goesOn n =>
      (s.joining.find? fun j => j.node = n).bind fun j =>
        (j.pc.step k rc.config j.env n j.asLockManager s.call.shm).map fun r =>
          let s := (s.write r.2).leave n
          r.1.elim (s.returned n j.asLockManager) fun pc => s.goOn { j with pc := pc }
  | .call e =>
      if canCall s e then
        (callNext k.records.algorithm rc.size s.call e).map fun call => { s with call := call }
      else none

/-- The system of whole calls with nodes joining, from any contents of the region. -/
def joinSystem : LabelledSystem (JoinState k.Shm) JoinEvent where
  init s := s.joined = [] ∧ s.managing = false ∧ s.joining = [] ∧
    (∀ n, s.call.waitingFor n = none) ∧ ∀ n l, s.call.holds n l = false
  next := joinNext rc

/-- The condition on a step by itself: an `initialize` after the first node's leaves the records
as they are when it writes first, and a call meets the condition of the algorithm. -/
def StepOk (s : JoinState k.Shm) : JoinEvent → Prop
  | .begins _ _ _ => True
  | .goesOn n => s.joined ≠ [] → ∀ j ∈ s.joining, j.node = n → j.pc.midway = false →
      Undisturbed k.records rc.config false n j.env s.call.shm
  | .call e => (k.callInvariant rc.size).ok s.call e

/-- The condition on a step: besides, nothing else happens between the first write of an
`initialize` and its return. -/
def JoinOk (s : JoinState k.Shm) (e : JoinEvent) : Prop :=
  (∀ j ∈ s.joining, j.pc.midway = true → e = .goesOn j.node) ∧ StepOk rc s e

/-- The exclusion argument of the algorithm, with the given records. -/
def Sound (s : JoinState k.Shm) (shm : k.Shm) : Prop :=
  ({ s.call with shm := shm } : CallState k.Shm).Valid rc.size ∧
    (k.callInvariant rc.size).inv { s.call with shm := shm }

/-- The exclusion argument of the algorithm holds from the first node on; while a node is
writing, it holds of the records that the node restores. -/
structure JoinInv (s : JoinState k.Shm) : Prop where
  unused : s.joined = [] → s.managing = false ∧ (∀ n, s.call.waitingFor n = none) ∧
    ∀ n l, s.call.holds n l = false
  opened : ∀ j ∈ s.joining, j.pc.midway = false →
    initBegin rc.config j.env false = .inr j.pc
  distinct : ∀ j ∈ s.joining, ∀ j' ∈ s.joining, j.node = j'.node → j = j'
  settled : s.joined ≠ [] → (∀ j ∈ s.joining, j.pc.midway = false) → Sound rc s s.call.shm
  midway : s.joined ≠ [] → ∀ j ∈ s.joining, j.pc.midway = true → ∃ shm, Sound rc s shm ∧
    ∀ r, j.finish rc s.call.shm = some r → k.records.Same rc.size.nodeCount r.2 shm

variable {rc} {s s' : JoinState k.Shm}

/-- A node that nobody else gets ahead of goes on. -/
lemma joinNext_goOn {j : JoiningNode} (hnew : ∀ i ∈ s.joining, i.node ≠ j.node)
    {a : LockResult ⊕ InitPc} {shm : k.Shm}
    (hstep : j.pc.step k rc.config j.env j.node j.asLockManager s.call.shm = some (a, shm)) :
    joinNext rc (s.goOn j) (.goesOn j.node) =
      some (a.elim ((s.write shm).returned j.node j.asLockManager) fun pc =>
        (s.write shm).goOn { j with pc := pc }) := by
  have hleave : ((s.goOn j).write shm).leave j.node = s.write shm := by
    have hothers : s.joining.filter (fun i => decide (i.node ≠ j.node)) = s.joining :=
      List.filter_eq_self.2 fun i hi => decide_eq_true (hnew i hi)
    simp only [JoinState.leave, JoinState.goOn, JoinState.write, List.filter_cons, ne_eq,
      not_true_eq_false, decide_false, Bool.false_eq_true, if_false] at hothers ⊢
    rw [hothers]
  have hfind : (s.goOn j).joining.find? (fun i => i.node = j.node) = some j := by
    simp [JoinState.goOn]
  rw [joinNext, hfind, Option.bind_some]
  change Option.map _ (j.pc.step k rc.config j.env j.node j.asLockManager s.call.shm) = _
  rw [hstep, Option.map_some]
  simp only [hleave]

/-- The rest of an `initialize` that nothing interrupts is a run. -/
lemma exec_finish {j : JoiningNode} (hnew : ∀ i ∈ s.joining, i.node ≠ j.node)
    {r : LockResult × k.Shm} (hr : j.finish rc s.call.shm = some r) :
    ∃ i, (joinSystem rc).exec (fun _ _ => True) (s.goOn j) (.replicate i (.goesOn j.node)) =
      some ((s.write r.2).returned j.node j.asLockManager r.1) := by
  induction hleft : j.pc.left using Nat.strongRecOn generalizing s j with
  | _ left ih =>
      obtain ⟨⟨a, shm⟩, hstep⟩ := InitPc.step_of_finish hr
      have hnext := joinNext_goOn hnew hstep
      rw [JoiningNode.finish, InitPc.finish_of_step hstep] at hr
      cases a with
      | inl code =>
          obtain rfl := Option.some.inj hr
          refine ⟨1, ?_⟩
          simp only [List.replicate_succ, LabelledSystem.exec, if_true]
          exact congrArg (Option.bind · _) hnext
      | inr pc =>
          have hless := (InitPc.inr_of_step hstep).2
          obtain ⟨i, hi⟩ := ih pc.left (hleft ▸ hless) (s := s.write shm)
            (j := { j with pc := pc }) hnew hr rfl
          refine ⟨i + 1, ?_⟩
          simp only [List.replicate_succ, LabelledSystem.exec, if_true]
          refine (congrArg (Option.bind · _) hnext).trans ?_
          exact hi

/-- **An `initialize` that nothing interrupts** is a run of the system. -/
theorem joinCall_exec {n : NodeId} {asLockManager : Bool} {env : InitOutcome}
    (hopens : opensStore rc env = true) (hnew : ∀ j ∈ s.joining, j.node ≠ n)
    {r : LockResult × k.Shm} (hr : joinCall rc s n asLockManager env = some r) :
    ∃ i, (joinSystem rc).exec (fun _ _ => True) s
      (.begins n asLockManager env :: .replicate i (.goesOn n)) =
        some ((s.write r.2).returned n asLockManager r.1) := by
  unfold joinCall initializeSystem at hr
  simp only [LabelledSystem.exec, joinSystem, joinNext, if_true, hopens]
  rw [if_pos ⟨trivial, hnew⟩]
  cases hbegin : initBegin rc.config env (decide (n ∈ s.joined)) with
  | inl code =>
      simp only [hbegin] at hr ⊢
      obtain rfl := Option.some.inj hr
      exact ⟨0, by rw [JoinState.returned, if_neg (initBegin_inl hbegin)]; rfl⟩
  | inr pc =>
      simp only [hbegin] at hr ⊢
      exact exec_finish (j := ⟨n, pc, asLockManager, env⟩) hnew hr

/-- What is said of the records carries over to the same records. -/
lemma Sound.same {shm shm' : k.Shm} (h : Sound rc s shm)
    (hsame : k.records.Same rc.size.nodeCount shm' shm) : Sound rc s shm' :=
  ⟨⟨h.1.holds_lt, h.1.waiting_lt, h.1.waiting_not_holds⟩,
    LockAlgorithm.callInvariant_same h.1 h.2 hsame⟩

namespace JoinInv

/-- While nobody is writing the records have to be sound themselves. -/
lemma of_quiet (hunused : s.joined = [] → s.managing = false ∧
      (∀ n, s.call.waitingFor n = none) ∧ ∀ n l, s.call.holds n l = false)
    (hopened : ∀ j ∈ s.joining, initBegin rc.config j.env false = .inr j.pc)
    (hdistinct : ∀ j ∈ s.joining, ∀ j' ∈ s.joining, j.node = j'.node → j = j')
    (hquiet : ∀ j ∈ s.joining, j.pc.midway = false)
    (hsettled : s.joined ≠ [] → Sound rc s s.call.shm) : JoinInv rc s where
  unused := hunused
  opened j hj _ := hopened j hj
  distinct := hdistinct
  settled hlater _ := hsettled hlater
  midway _ j hj hwrites := absurd hwrites (Bool.eq_false_iff.1 (hquiet j hj))

lemma init (h : (joinSystem rc).init s) : JoinInv rc s := by
  obtain ⟨hjoined, hmanaging, hjoining, hidle⟩ := h
  have hnone : ∀ j, j ∉ s.joining := fun j hj => by simp [hjoining] at hj
  exact .of_quiet (fun _ => ⟨hmanaging, hidle⟩) (fun j hj => absurd hj (hnone j))
    (fun j hj => absurd hj (hnone j)) (fun j hj => absurd hj (hnone j))
    fun hne => absurd hjoined hne

/-- The records that the rest of an `initialize` restores: while nobody is writing, those that
are there. -/
lemma restored (h : JoinInv rc s) {j : JoiningNode} (hj : j ∈ s.joining)
    (hok : JoinOk rc s (.goesOn j.node)) (hlater : s.joined ≠ []) :
    ∃ shm, Sound rc s shm ∧
      ∀ r, j.finish rc s.call.shm = some r → k.records.Same rc.size.nodeCount r.2 shm := by
  cases hmidway : j.pc.midway with
  | true => exact h.midway hlater j hj hmidway
  | false =>
      have hquiet : ∀ j' ∈ s.joining, j'.pc.midway = false := by
        intro j' hj'
        by_contra hwrites
        have hnode := JoinEvent.goesOn.inj (hok.1 j' hj' (Bool.not_eq_false _ ▸ hwrites))
        rw [h.distinct j hj j' hj' hnode] at hmidway
        exact hwrites hmidway
      refine ⟨s.call.shm, h.settled hlater hquiet, fun r hr => ?_⟩
      have hcall : initializeSystem k rc.config j.env false j.node j.asLockManager s.call.shm =
          some r := by
        rw [initializeSystem, h.opened j hj hmidway]
        exact hr
      rw [← rc.nodeCount_eq, initializeSystem_same_iff hcall]
      exact hok.2 hlater j hj rfl hmidway

/-- What `initialize` begins with is not a write. -/
lemma midway_of_begin {config : SystemConfig} {env : InitOutcome} {initialized : Bool}
    {pc : InitPc} (h : initBegin config env initialized = .inr pc) :
    initialized = false ∧ pc.midway = false := by
  unfold initBegin at h
  split_ifs at h with hinit
  refine ⟨Bool.eq_false_iff.2 hinit, ?_⟩
  split at h <;> cases h <;> rfl

/-- The others while a node goes on: they have not written. -/
lemma quiet_of_leave {n : NodeId} (hok : JoinOk rc s (.goesOn n)) {j : JoiningNode}
    (hj : j ∈ (s.leave n).joining) : j ∈ s.joining ∧ j.node ≠ n ∧ j.pc.midway = false := by
  obtain ⟨hj, hnode⟩ := List.mem_filter.1 hj
  have hne := of_decide_eq_true hnode
  refine ⟨hj, hne, Bool.eq_false_iff.2 fun hwrites => hne ?_⟩
  exact (JoinEvent.goesOn.inj (hok.1 j hj hwrites)).symm

lemma quiet_of_ne {e : JoinEvent} (hok : JoinOk rc s e) (he : ∀ n, e ≠ .goesOn n)
    {j : JoiningNode} (hj : j ∈ s.joining) : j.pc.midway = false :=
  Bool.eq_false_iff.2 fun hwrites => he _ (hok.1 j hj hwrites)

/-- A node calls `initialize`. -/
lemma begins (h : JoinInv rc s) {n : NodeId} {asLockManager : Bool} {env : InitOutcome}
    (hok : JoinOk rc s (.begins n asLockManager env))
    (hnext : joinNext rc s (.begins n asLockManager env) = some s') : JoinInv rc s' := by
  have hquiet : ∀ j ∈ s.joining, j.pc.midway = false := fun j hj =>
    quiet_of_ne hok (by rintro _ ⟨⟩) hj
  simp only [joinNext, Option.ite_none_right_eq_some] at hnext
  obtain ⟨⟨-, hnew⟩, hnext⟩ := hnext
  cases hbegin : initBegin rc.config env (decide (n ∈ s.joined)) with
  | inl code =>
      simp only [hbegin, Option.some.injEq] at hnext
      exact hnext ▸ h
  | inr pc =>
      simp only [hbegin, Option.some.injEq] at hnext
      subst hnext
      obtain ⟨hinit, hpc⟩ := midway_of_begin hbegin
      refine .of_quiet h.unused ?_ ?_ (List.forall_mem_cons.2 ⟨hpc, hquiet⟩)
        fun hlater => h.settled hlater hquiet
      · exact List.forall_mem_cons.2 ⟨hinit ▸ hbegin, fun j hj => h.opened j hj (hquiet j hj)⟩
      · refine List.forall_mem_cons.2 ⟨List.forall_mem_cons.2 ⟨fun _ => rfl, ?_⟩, fun j hj => ?_⟩
        · exact fun j hj hnode => absurd hnode.symm (hnew j hj)
        · exact List.forall_mem_cons.2 ⟨fun hnode => absurd hnode (hnew j hj), h.distinct j hj⟩

/-- A node goes on with `initialize`, and does not return. -/
lemma goesOn (h : JoinInv rc s) {j : JoiningNode} (hj : j ∈ s.joining)
    (hok : JoinOk rc s (.goesOn j.node)) {pc : InitPc} {shm : k.Shm}
    (hstep : j.pc.step k rc.config j.env j.node j.asLockManager s.call.shm =
      some (.inr pc, shm)) :
    JoinInv rc (((s.write shm).leave j.node).goOn { j with pc := pc }) := by
  have hwrites := (InitPc.inr_of_step hstep).1
  have hquiet : ∀ i ∈ (s.leave j.node).joining,
      i ∈ s.joining ∧ i.node ≠ j.node ∧ i.pc.midway = false := fun i hi => quiet_of_leave hok hi
  refine ⟨h.unused, ?_, ?_, fun _ hnone => ?_, fun hlater => ?_⟩
  · refine List.forall_mem_cons.2 ⟨fun hno => ?_, fun i hi => h.opened i (hquiet i hi).1⟩
    exact absurd (hwrites.symm.trans hno) (by decide)
  · refine List.forall_mem_cons.2 ⟨List.forall_mem_cons.2 ⟨fun _ => rfl, ?_⟩, fun i hi => ?_⟩
    · exact fun i hi hnode => absurd hnode.symm (hquiet i hi).2.1
    · refine List.forall_mem_cons.2 ⟨fun hnode => absurd hnode (hquiet i hi).2.1, ?_⟩
      exact fun i' hi' => h.distinct i (hquiet i hi).1 i' (hquiet i' hi').1
  · exact absurd ((hnone _ (List.mem_cons_self ..)).symm.trans hwrites) (by decide)
  · refine List.forall_mem_cons.2 ⟨fun _ => ?_, fun i hi hi' => ?_⟩
    · obtain ⟨shm₀, hsound, hrest⟩ := h.restored hj hok hlater
      refine ⟨shm₀, hsound, fun r hr => hrest r ?_⟩
      rw [JoiningNode.finish, InitPc.finish_of_step hstep]
      exact hr
    · exact absurd ((hquiet i hi).2.2.symm.trans hi') (by decide)

/-- A node that has gone on has left its `initialize`, and the others have not written. -/
lemma leave (h : JoinInv rc s) {n : NodeId} (hok : JoinOk rc s (.goesOn n))
    (hunused : s'.joined = [] → s'.managing = false ∧
      (∀ n, s'.call.waitingFor n = none) ∧ ∀ n l, s'.call.holds n l = false)
    (hjoining : s'.joining = (s.leave n).joining)
    (hsettled : s'.joined ≠ [] → Sound rc s' s'.call.shm) : JoinInv rc s' := by
  have hquiet : ∀ i ∈ s'.joining, i ∈ s.joining ∧ i.node ≠ n ∧ i.pc.midway = false :=
    fun i hi => quiet_of_leave hok (hjoining ▸ hi)
  refine .of_quiet hunused (fun i hi => ?_) (fun i hi i' hi' => ?_)
    (fun i hi => (hquiet i hi).2.2) hsettled
  · exact h.opened i (hquiet i hi).1 (hquiet i hi).2.2
  · exact h.distinct i (hquiet i hi).1 i' (hquiet i' hi').1

/-- A node returns from `initialize`. -/
lemma returns (h : JoinInv rc s) {j : JoiningNode} (hj : j ∈ s.joining)
    (hok : JoinOk rc s (.goesOn j.node)) {code : LockResult} {shm : k.Shm}
    (hstep : j.pc.step k rc.config j.env j.node j.asLockManager s.call.shm =
      some (.inl code, shm)) :
    JoinInv rc (((s.write shm).leave j.node).returned j.node j.asLockManager code) := by
  have hfinish : j.finish rc s.call.shm = some (code, shm) := by
    rw [JoiningNode.finish, InitPc.finish_of_step hstep]
    rfl
  have hlater : s.joined ≠ [] → Sound rc s shm := by
    intro hlater
    obtain ⟨shm₀, hsound, hrest⟩ := h.restored hj hok hlater
    exact hsound.same (hrest _ hfinish)
  have hfirst : s.joined = [] → code = .success → Sound rc s shm := by
    intro hfirst hsuccess
    obtain ⟨-, hwaiting, hholds⟩ := h.unused hfirst
    obtain ⟨shm₁, hshm⟩ := InitPc.finish_success hfinish hsuccess
    refine ⟨.of_idle hwaiting hholds, (k.callInvariant rc.size).inv_init _ ⟨⟨shm₁, ?_⟩,
      hwaiting, hholds⟩⟩
    rw [← rc.nodeCount_eq]
    exact hshm
  unfold JoinState.returned
  split_ifs with hcode
  · refine h.leave hok (fun hnil => absurd hnil (List.cons_ne_nil _ _)) rfl fun _ => ?_
    by_cases hnil : s.joined = []
    · exact hfirst hnil hcode
    · exact hlater hnil
  · exact h.leave hok h.unused rfl hlater

/-- A call of a node or of a lock manager. -/
lemma call (h : JoinInv rc s) {e : CallEvent} (hok : JoinOk rc s (.call e))
    (hnext : joinNext rc s (.call e) = some s') : JoinInv rc s' := by
  have hquiet : ∀ j ∈ s.joining, j.pc.midway = false := fun j hj =>
    quiet_of_ne hok (by rintro _ ⟨⟩) hj
  simp only [joinNext, Option.ite_none_right_eq_some, Option.map_eq_some_iff] at hnext
  obtain ⟨hcan, call, hcall, rfl⟩ := hnext
  have hlater : s.joined ≠ [] := by
    intro hnil
    have hmanaging := (h.unused hnil).1
    cases e with
    | scan l => exact Bool.false_ne_true (hmanaging.symm.trans hcan)
    | acquire | poll | cancel | release => simp [canCall, hnil] at hcan
  obtain ⟨hvalid, hinv⟩ := h.settled hlater hquiet
  have hstep := CallStep.of_next hcall
  refine .of_quiet (fun hnil => absurd hnil hlater) (fun j hj => h.opened j hj (hquiet j hj))
    h.distinct hquiet fun _ => ⟨hvalid.step hstep, ?_⟩
  exact (k.callInvariant rc.size).inv_step _ _ _ hvalid hinv hok.2 hstep

lemma step (h : JoinInv rc s) {e : JoinEvent} (hok : JoinOk rc s e)
    (hnext : joinNext rc s e = some s') : JoinInv rc s' := by
  cases e with
  | begins n asLockManager env => exact h.begins hok hnext
  | call e => exact h.call hok hnext
  | goesOn n =>
      simp only [joinNext, Option.bind_eq_some_iff, Option.map_eq_some_iff] at hnext
      obtain ⟨j, hfind, ⟨a, shm⟩, hstep, rfl⟩ := hnext
      obtain rfl : j.node = n := by simpa using List.find?_some hfind
      have hj := List.mem_of_find?_eq_some hfind
      cases a with
      | inr pc => exact h.goesOn hj hok hstep
      | inl code => exact h.returns hj hok hstep

lemma exclusive (h : JoinInv rc s) : s.call.Exclusive := by
  by_cases hfirst : s.joined = []
  · obtain ⟨-, -, hholds⟩ := h.unused hfirst
    intro l n m hn
    simp [hholds n l] at hn
  · have hsound : ∃ shm, Sound rc s shm := by
      by_cases hquiet : ∀ j ∈ s.joining, j.pc.midway = false
      · exact ⟨_, h.settled hfirst hquiet⟩
      · push Not at hquiet
        obtain ⟨j, hj, hwrites⟩ := hquiet
        obtain ⟨shm, hsound, -⟩ := h.midway hfirst j hj ((Bool.not_eq_false _).mp hwrites)
        exact ⟨shm, hsound⟩
    obtain ⟨shm, hvalid, hinv⟩ := hsound
    have hexclusive := (k.callInvariant rc.size).exclusive { s.call with shm := shm } hvalid hinv
    exact hexclusive

end JoinInv

end System

/-! ## Joining and exclusion -/

/-- The records of any number of nodes fit into the default size of the region. -/
lemma fits_default (k : LockAlgorithm) (size : SystemSize) :
    Fits k ⟨true, 0x100000⟩ 0 size.nodeCount := by
  have hcount : size.nodeCount.toNat ≤ 64 := UInt32.le_iff_toNat_le.1 size.nodeCount_le
  cases k <;>
    simp only [Fits, LockAlgorithm.stateSize, SharedMemoryRegion.getSize, UInt64.reduceToNat,
      if_true] <;>
    omega

/-- A file-backed system of the given size. -/
def RunningConfig.fileBacked {k : LockAlgorithm} (name : String)
    (h : LockAlgorithm.ofName name = some k) (size : SystemSize) : RunningConfig k where
  config := ⟨true, 0x100000, size.nodeCount, size.maxLocks, name⟩
  store := .file
  behind := 0
  size := size
  algorithm_eq := h
  nodeCount_eq := if_pos size.nodeCount_pos
  maxLocks_eq := rfl
  returns := by
    rw [SystemConfig.nodeCount, if_pos size.nodeCount_pos]
    exact returns_of_fits (UInt32.pos_iff_ne_zero.1 size.nodeCount_pos) (fits_default k size)

/-- The region before any node has been initialized. -/
def emptySystem : JoinState ShmWords :=
  ⟨⟨fun _ => 0, fun _ => none, fun _ _ => false⟩, [], false, []⟩

lemma emptySystem_init (rc : RunningConfig .cas) : (joinSystem rc).init emptySystem :=
  ⟨rfl, rfl, rfl, fun _ => rfl, fun _ _ => rfl⟩

/-- Two nodes and one lock with the slot table. -/
def casPair : RunningConfig .cas := .fileBacked "cas" (by decide) (.of 2 1)

/-- Opening and setting up succeed. -/
def initDone : InitOutcome := ⟨.success, .success, .done, 0⟩

instance (rc : RunningConfig .cas) (s : JoinState ShmWords) : ∀ e, Decidable (StepOk rc s e)
  | .begins _ _ _ => .isTrue trivial
  | .goesOn n => inferInstanceAs (Decidable (_ → ∀ j ∈ s.joining, _ → _ →
      Undisturbed _ _ false n j.env _))
  | .call _ => .isTrue trivial

instance (rc : RunningConfig .cas) (s : JoinState ShmWords) (e : JoinEvent) :
    Decidable (JoinOk rc s e) :=
  inferInstanceAs (Decidable ((∀ j ∈ s.joining, _ → _ = _) ∧ StepOk rc s e))

/-- Node 0 is initialized as lock manager, from the `memset` to its own `initialize`. -/
def manager0Joins : List JoinEvent := [.begins 0 true initDone, .goesOn 0, .goesOn 0, .goesOn 0]

/-- Node 1 is initialized. -/
def node1Joins : List JoinEvent := [.begins 1 false initDone, .goesOn 1, .goesOn 1]

end CxlLock
