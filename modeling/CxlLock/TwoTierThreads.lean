import CxlLock.Cas.Interleaving
import CxlLock.Faa.Interleaving
import CxlLock.Mcs.Interleaving
import CxlLock.Qspinlock.Interleaving
import Mathlib.Data.Fintype.Basic

/-!
# Threads of one node and the node's single record

FAA, MCS and qspinlock give a node one record in shared memory, whatever lock it requests;
`mcs_global_lock.h` says that a node can wait for at most one lock at a time.  The local mutexes
do not see to that: there is one for each lock, so two threads of a node can be in
`acquire_lock` for two locks at once, and both write the record (`two_requests_of_one_node`).

Here any number of threads call `TwoTierLock::acquire`, `try_acquire` and `release`, one access
to shared memory or one call on a local mutex at a time, over any of the three algorithms.
`CallsAlone` is what the callers have to see to themselves: a thread begins `acquire_lock` or
`release_lock` only while no other thread of its node waits for another lock, and
`acquire_lock` not in the middle of a `release_lock` of another lock.
-/

namespace CxlLock

open Transition

/-! ## The algorithms access by access -/

/-- A global lock algorithm as it is run by a node and by the lock manager, on any lock. -/
structure GlobalProgram where
  Mem : Type
  /-- The next access of a node in a call on a lock. -/
  Pc : Type
  /-- The next access of the lock manager in its turn on a lock. -/
  ManagerPc : Type
  /-- The record of one node. -/
  Record : Type
  decPc : DecidableEq Pc
  decManagerPc : DecidableEq ManagerPc
  initial : SystemSize → Mem → Prop
  /-- `acquire_lock` begins here, and `release_lock` ends. -/
  idle : Pc
  /-- The poll has succeeded; `release_lock` begins here. -/
  entered : Pc
  node : LockId → NodeId → Mem → Pc → Mem × Pc
  /-- The access is the last one of a turn of `poll_for_grant`. -/
  turnEnds : Pc → Bool
  /-- What `release_lock` returns when it ends with this access. -/
  releaseCode : Pc → LockResult
  managerIdle : ManagerPc
  manager : SystemSize → LockId → Mem → ManagerPc → Mem × ManagerPc
  record : Mem → NodeId → Record

attribute [instance] GlobalProgram.decPc GlobalProgram.decManagerPc

/-- One access of a node, with any number of tickets. -/
def Faa.nodeAccess (l : LockId) (n : NodeId) (shm : FaaShm) : Faa.NodePc → FaaShm × Faa.NodePc
  | .idle =>
      (shm.storeNextTicket l ((shm.entry l).nextTicket + 1),
        .storeTicket (shm.entry l).nextTicket)
  | pc => (Faa.nodeStep l n shm pc).getD (shm, pc)

def Faa.program : GlobalProgram where
  Mem := FaaShm
  Pc := Faa.NodePc
  ManagerPc := Faa.ManagerPc
  Record := FaaNodeTicket
  decPc := inferInstance
  decManagerPc := inferInstance
  initial size shm := ∃ shm₀, shm = (Faa.initializeShm size.nodeCount shm₀).2
  idle := .idle
  entered := .critical
  node := Faa.nodeAccess
  turnEnds
    | .pollActive _ _ => true
    | _ => false
  releaseCode _ := .success
  managerIdle := .loadOwner
  manager size := Faa.managerStep size.nodeCount
  record shm := shm.ticket

def Mcs.program : GlobalProgram where
  Mem := Mcs.Memory
  Pc := Mcs.NodePc
  ManagerPc := Mcs.ManagerPc
  Record := McsNode
  decPc := inferInstance
  decManagerPc := inferInstance
  initial size m := ∃ shm, m.shm = (Mcs.initializeShm size.nodeCount shm).2
  idle := .idle
  entered := .critical
  node := Mcs.nodeStep
  turnEnds
    | .pollWaiting _ => true
    | _ => false
  releaseCode
    | .critical => .errorNotOwner
    | _ => .success
  managerIdle := .loadOwner
  manager size := Mcs.managerStep size.nodeCount
  record m := m.shm.node

def Qspinlock.program : GlobalProgram where
  Mem := QspinShm
  Pc := Qspinlock.NodePc
  ManagerPc := Qspinlock.ManagerPc
  Record := QspinNode
  decPc := inferInstance
  decManagerPc := inferInstance
  initial size shm := ∃ shm₀, shm = (Qspinlock.initializeShm size.nodeCount shm₀).2
  idle := .idle
  entered := .critical
  node := Qspinlock.nodeStep
  turnEnds
    | .pollWaiting _ => true
    | _ => false
  releaseCode
    | .critical => .errorNotOwner
    | _ => .success
  managerIdle := .loadWord
  manager size := Qspinlock.managerStep size.nodeCount
  record shm := shm.node

/-- The algorithms with one record for each node. -/
inductive RecordAlgorithm
  | faa
  | mcs
  | qspinlock
  deriving DecidableEq

def RecordAlgorithm.program : RecordAlgorithm → GlobalProgram
  | .faa => Faa.program
  | .mcs => Mcs.program
  | .qspinlock => Qspinlock.program

namespace TwoTier

/-! ## The threads -/

/-- The next access of a thread, with the position in the call of the algorithm. -/
inductive ThreadPc (P : Type)
  | idle
  /-- Step 1: the local mutex. -/
  | lockLocal (l : LockId) (call : Cas.Call)
  /-- Steps 2 and 3: `acquire_lock` and `poll_for_grant`. -/
  | request (l : LockId) (call : Cas.Call) (spinCount : UInt32) (p : P)
  /-- The poll has failed: `release_lock` withdraws the request. -/
  | cancel (l : LockId) (rc : LockResult) (p : P)
  /-- The local mutex is given back and the call fails. -/
  | abandon (l : LockId) (rc : LockResult)
  /-- The two steps of `release`. -/
  | releaseGlobal (l : LockId) (p : P)
  | releaseLocal (l : LockId)
  deriving DecidableEq

/-- A thread. -/
structure Thread (P : Type) where
  pc : ThreadPc P
  /-- The locks of the calls that have succeeded and that `release` has not been called for. -/
  inside : LockId → Bool
  /-- What the last call has returned. -/
  result : Option LockResult

namespace Thread

variable {P : Type}

/-- The call goes on at `pc`. -/
def goto (th : Thread P) (pc : ThreadPc P) : Thread P := { th with pc := pc }

/-- The call returns `rc`. -/
def finish (th : Thread P) (rc : LockResult) : Thread P :=
  { th with pc := .idle, result := some rc }

/-- The thread is inside the critical section of `l`, or not, from now on. -/
def setInside (th : Thread P) (l : LockId) (b : Bool) : Thread P :=
  { th with inside := Function.update th.inside l b }

@[simp] lemma goto_pc (th : Thread P) (pc : ThreadPc P) : (th.goto pc).pc = pc := rfl
@[simp] lemma goto_inside (th : Thread P) (pc : ThreadPc P) : (th.goto pc).inside = th.inside := rfl
@[simp] lemma finish_pc (th : Thread P) (rc : LockResult) : (th.finish rc).pc = .idle := rfl
@[simp] lemma finish_inside (th : Thread P) (rc : LockResult) :
    (th.finish rc).inside = th.inside := rfl
@[simp] lemma setInside_pc (th : Thread P) (l : LockId) (b : Bool) :
    (th.setInside l b).pc = th.pc := rfl
@[simp] lemma setInside_inside (th : Thread P) (l j : LockId) (b : Bool) :
    (th.setInside l b).inside j = if j = l then b else th.inside j := by
  simp [setInside, Function.update_apply]

end Thread

/-- The shared memory and the local mutexes of all nodes. -/
structure Memory (G : GlobalProgram) (T : Type) where
  shm : G.Mem
  localLocks : NodeId → LocalLockArray T

/-- The local mutexes of node `n` have changed to `a`. -/
def Memory.setLocal {G : GlobalProgram} {T : Type} (m : Memory G T) (n : NodeId)
    (a : LocalLockArray T) : Memory G T :=
  { m with localLocks := Function.update m.localLocks n a }

section Programs

variable (G : GlobalProgram) {T : Type} [DecidableEq T] (size : SystemSize)

/-- The begin of a call, with its check of the lock id.  `release` is called only for a lock
that the thread has acquired. -/
def beginCall (m : Memory G T) (th : Thread G.Pc) :
    Cas.Choice → Option (Memory G T × Thread G.Pc)
  | .acquire l timeoutMs =>
      if l ≥ size.maxLocks then some (m, th.finish .errorInvalidParam)
      else some (m, th.goto (.lockLocal l (.acquire timeoutMs)))
  | .tryAcquire l =>
      if l ≥ size.maxLocks then some (m, th.finish .errorInvalidParam)
      else some (m, th.goto (.lockLocal l .tryAcquire))
  | .release l =>
      if th.inside l then some (m, (th.setInside l false).goto (.releaseGlobal l G.entered))
      else none
  | .clock _ => none

/-- Where `poll_for_grant` goes after a turn without a grant; `p` is the next turn. -/
def pollAgain (l : LockId) (call : Cas.Call) (spinCount : UInt32) (elapsedMs : UInt64)
    (p : G.Pc) : ThreadPc G.Pc :=
  if call.timeoutMs > 0 then
    if elapsedMs ≥ call.timeoutMs then .cancel l (call.failure .errorTimeout) G.entered
    else .request l call (spinCount + 1) p
  else if spinCount > 1000 then .cancel l (call.failure .errorBusy) G.entered
  else .request l call (spinCount + 1) p

/-- One access of thread `t` of node `n`. -/
def threadStep (n : NodeId) (t : T) (c : Cas.Choice) (m : Memory G T) (th : Thread G.Pc) :
    Option (Memory G T × Thread G.Pc) :=
  match th.pc with
  | .idle => beginCall G size m th c
  | .lockLocal l call =>
      (Cas.takeLocal (m.localLocks n) t l call).map fun r =>
        (m.setLocal n r.2,
          if r.1 = .success then th.goto (.request l call 0 G.idle) else th.finish r.1)
  | .request l call spinCount p =>
      let r := G.node l n m.shm p
      if r.2 = G.entered then
        some ({ m with shm := r.1 }, (th.setInside l true).finish .success)
      else if G.turnEnds p then
        match c with
        | .clock elapsedMs =>
            some ({ m with shm := r.1 }, th.goto (pollAgain G l call spinCount elapsedMs r.2))
        | _ => none
      else some ({ m with shm := r.1 }, th.goto (.request l call spinCount r.2))
  | .cancel l rc p =>
      let r := G.node l n m.shm p
      some ({ m with shm := r.1 },
        th.goto (if r.2 = G.idle then .abandon l rc else .cancel l rc r.2))
  | .abandon l rc =>
      some (m.setLocal n ((m.localLocks n).release t l).2, th.finish rc)
  | .releaseGlobal l p =>
      let r := G.node l n m.shm p
      some ({ m with shm := r.1 },
        th.goto (if r.2 ≠ G.idle then .releaseGlobal l r.2
          else if G.releaseCode p = .success then .releaseLocal l
          else .abandon l (G.releaseCode p)))
  | .releaseLocal l =>
      let r := (m.localLocks n).release t l
      some (m.setLocal n r.2, th.finish r.1)

/-- The lock manager's turn goes on with the next lock when it is done with this one. -/
def nextTurn (lid : LockId) (q : G.ManagerPc) : LockId × G.ManagerPc :=
  if q = G.managerIdle then (if lid + 1 < size.maxLocks then lid + 1 else 0, q) else (lid, q)

/-- The threads of the nodes below `node_count` and the lock manager, after `initialize` of
the records and of the local mutexes. -/
def machine : Machine (NodeId × T) Cas.Choice (Memory G T) (Thread G.Pc)
    (LockId × G.ManagerPc) where
  start m := G.initial size m.shm ∧
    ∀ n, m.localLocks n = (LocalLockArray.unused.initializeArray size.maxLocks .done).2
  idle := ⟨.idle, fun _ => false, none⟩
  managerIdle := (0, G.managerIdle)
  party i c m th := if i.1 < size.nodeCount then threadStep G size i.1 i.2 c m th else none
  manager m q :=
    let r := G.manager size q.1 m.shm q.2
    some ({ m with shm := r.1 }, nextTurn G size q.1 r.2)

end Programs

/-- A state of the threads over an algorithm. -/
abbrev State (G : GlobalProgram) (T : Type) :=
  Config (NodeId × T) (Memory G T) (Thread G.Pc) (LockId × G.ManagerPc)

/-! ## Requests and releases in progress -/

section Waiting

variable (G : GlobalProgram) {T : Type}

/-- The lock that the thread waits for: `acquire_lock` has begun, and neither has the poll
succeeded nor has the request been withdrawn. -/
def waitsFor : ThreadPc G.Pc → Option LockId
  | .request l _ _ p => if p = G.idle then none else some l
  | .cancel l _ _ => some l
  | .idle | .lockLocal _ _ | .abandon _ _ | .releaseGlobal _ _ | .releaseLocal _ => none

/-- The lock of the `release_lock` that the thread is in the middle of. -/
def releases : ThreadPc G.Pc → Option LockId
  | .releaseGlobal l p => if p = G.entered then none else some l
  | .idle | .lockLocal _ _ | .request _ _ _ _ | .cancel _ _ _ | .abandon _ _
  | .releaseLocal _ => none

/-- No thread of node `n` waits for another lock than `l`. -/
def NoneWaits (s : State G T) (n : NodeId) (l : LockId) : Prop :=
  ∀ t j, waitsFor G (s.pc (n, t)).pc = some j → j = l

/-- No thread of node `n` is in the middle of a `release_lock` of another lock than `l`. -/
def NoneReleases (s : State G T) (n : NodeId) (l : LockId) : Prop :=
  ∀ t j, releases G (s.pc (n, t)).pc = some j → j = l

/-- The condition on a step: `acquire_lock` begins only when no thread of the node waits for or
releases another lock, and `release_lock` only when none waits for another lock. -/
def CallsAlone (s : State G T) : Turn (NodeId × T) Cas.Choice → Prop
  | .party i _ =>
      match (s.pc i).pc with
      | .request l _ _ p => p = G.idle → NoneWaits G s i.1 l ∧ NoneReleases G s i.1 l
      | .releaseGlobal l p => p = G.entered → NoneWaits G s i.1 l
      | .idle | .lockLocal _ _ | .cancel _ _ _ | .abandon _ _ | .releaseLocal _ => True
  | .manager => True

/-- At most one thread of each node waits for a lock. -/
def OneRequest (s : State G T) : Prop :=
  ∀ n t u l j, waitsFor G (s.pc (n, t)).pc = some l → waitsFor G (s.pc (n, u)).pc = some j →
    t = u

/-- While a thread waits, no other thread of its node changes the record by a step that meets
the condition. -/
def RecordKept [DecidableEq T] (size : SystemSize) (s : State G T) : Prop :=
  ∀ n t u l c s', waitsFor G (s.pc (n, t)).pc = some l → u ≠ t →
    CallsAlone G s (.party (n, u) c) →
      (machine G size).system.next s (.party (n, u) c) = some s' →
        G.record s'.mem.shm n = G.record s.mem.shm n

instance [Fintype T] (s : State G T) (n : NodeId) (l : LockId) : Decidable (NoneWaits G s n l) :=
  inferInstanceAs (Decidable (∀ _ j, _ = some j → _))

instance [Fintype T] (s : State G T) (n : NodeId) (l : LockId) :
    Decidable (NoneReleases G s n l) :=
  inferInstanceAs (Decidable (∀ _ j, _ = some j → _))

instance [Fintype T] (s : State G T) : ∀ e, Decidable (CallsAlone G s e)
  | .party i _ =>
      match h : (s.pc i).pc with
      | .request l _ _ p =>
          decidable_of_iff (p = G.idle → NoneWaits G s i.1 l ∧ NoneReleases G s i.1 l)
            (by simp [CallsAlone, h])
      | .releaseGlobal l p =>
          decidable_of_iff (p = G.entered → NoneWaits G s i.1 l) (by simp [CallsAlone, h])
      | .idle | .lockLocal _ _ | .cancel _ _ _ | .abandon _ _ | .releaseLocal _ =>
          .isTrue (by simp [CallsAlone, h])
  | .manager => .isTrue trivial

end Waiting

/-! ## What a step of a thread can do -/

section Steps

variable {G : GlobalProgram} {T : Type} [DecidableEq T] {size : SystemSize}

/-- The lock whose local mutex the call has taken. -/
@[simp] def ThreadPc.mutex {P : Type} : ThreadPc P → Option LockId
  | .request l _ _ _ | .cancel l _ _ | .abandon l _ | .releaseGlobal l _ | .releaseLocal l =>
      some l
  | .idle | .lockLocal _ _ => none

/-- The thread has the local mutex for the lock. -/
def Thread.Has (th : Thread G.Pc) (l : LockId) : Prop :=
  th.pc.mutex = some l ∨ th.inside l = true

omit [DecidableEq T] in
lemma mutex_of_waitsFor {pc : ThreadPc G.Pc} {l : LockId} (h : waitsFor G pc = some l) :
    pc.mutex = some l := by
  cases pc with
  | request j call k p =>
      simp only [waitsFor, Option.ite_none_left_eq_some] at h
      exact h.2
  | cancel j rc p => exact h
  | idle | lockLocal | abandon | releaseGlobal | releaseLocal => cases h

lemma mutex_of_releases {pc : ThreadPc G.Pc} {l : LockId} (h : releases G pc = some l) :
    pc.mutex = some l := by
  cases pc with
  | releaseGlobal j p =>
      simp only [releases, Option.ite_none_left_eq_some] at h
      exact h.2
  | idle | lockLocal | request | cancel | abandon | releaseLocal => cases h

/-- The call goes on from `pc` to `pc'` by an access of the algorithm: a request or release is
in progress afterwards only if it was before or begins here. -/
structure GoesOn (G : GlobalProgram) (pc pc' : ThreadPc G.Pc) : Prop where
  waiting : ∀ l, waitsFor G pc' = some l →
    waitsFor G pc = some l ∨ ∃ call k, pc = .request l call k G.idle
  releasing : ∀ l, releases G pc' = some l →
    releases G pc = some l ∨ pc = .releaseGlobal l G.entered

omit [DecidableEq T] in
/-- Neither a request nor a release is in progress afterwards. -/
lemma GoesOn.of_none {pc pc' : ThreadPc G.Pc} (hw : waitsFor G pc' = none)
    (hr : releases G pc' = none) : GoesOn G pc pc' := by
  constructor
  · intro l hl
    cases hw.symm.trans hl
  · intro l hl
    cases hr.symm.trans hl

/-- What a step of thread `i` does to the local mutexes and to the thread. -/
inductive ThreadEffect (size : SystemSize) (i : NodeId × T) (m : Memory G T)
    (th : Thread G.Pc) : Memory G T × Thread G.Pc → Prop
  /-- A call begins or fails. -/
  | stay {th' : Thread G.Pc} : th'.pc.mutex = none → th'.inside = th.inside →
      (∀ l call, th'.pc = .lockLocal l call → l < size.maxLocks) →
      ThreadEffect size i m th (m, th')
  | leave {l : LockId} : th.pc = .idle → th.inside l = true →
      ThreadEffect size i m th (m, (th.setInside l false).goto (.releaseGlobal l G.entered))
  | lockLocal {l : LockId} {call : Cas.Call} : th.pc = .lockLocal l call →
      (m.localLocks i.1).owner l = none →
      ThreadEffect size i m th (m.setLocal i.1 ((m.localLocks i.1).setOwner l (some i.2)),
        th.goto (.request l call 0 G.idle))
  | access {l : LockId} {shm : G.Mem} {pc : ThreadPc G.Pc} : th.pc.mutex = some l →
      pc.mutex = some l → GoesOn G th.pc pc →
      ThreadEffect size i m th ({ m with shm := shm }, th.goto pc)
  | enter {l : LockId} {shm : G.Mem} {rc : LockResult} : th.pc.mutex = some l →
      ThreadEffect size i m th ({ m with shm := shm }, (th.setInside l true).finish rc)
  | unlock {l : LockId} {rc : LockResult} : th.pc.mutex = some l →
      ThreadEffect size i m th
        (m.setLocal i.1 ((m.localLocks i.1).release i.2 l).2, th.finish rc)

variable {i : NodeId × T} {c : Cas.Choice} {m : Memory G T} {th : Thread G.Pc}
  {r : Memory G T × Thread G.Pc}

lemma beginCall_effect (hpc : th.pc = .idle) (hr : beginCall G size m th c = some r) :
    ThreadEffect size i m th r := by
  have hacquire : ∀ l call, (if l ≥ size.maxLocks then some (m, th.finish .errorInvalidParam)
      else some (m, th.goto (.lockLocal l call))) = some r → ThreadEffect size i m th r := by
    intro l call hr
    split_ifs at hr with hl <;> cases hr
    · exact .stay rfl rfl fun j call hj => by cases hj
    · refine .stay rfl rfl fun j call hj => ?_
      cases hj
      exact UInt32.not_le.1 hl
  cases c with
  | acquire l timeoutMs => exact hacquire l _ hr
  | tryAcquire l => exact hacquire l _ hr
  | release l =>
      obtain ⟨hin, hr⟩ := Option.ite_none_right_eq_some.1 hr
      cases hr
      exact .leave hpc hin
  | clock elapsedMs => cases hr

lemma lockLocal_effect {l : LockId} {call : Cas.Call} (hpc : th.pc = .lockLocal l call)
    (hready : (m.localLocks i.1).Ready size.maxLocks) (hl : l < size.maxLocks)
    (hr : threadStep G size i.1 i.2 c m th = some r) : ThreadEffect size i m th r := by
  rw [threadStep, hpc] at hr
  obtain ⟨⟨rc, a⟩, htake, rfl⟩ := Option.map_eq_some_iff.1 hr
  have hfail : rc ≠ .success → a = m.localLocks i.1 → ThreadEffect size i m th
      (m.setLocal i.1 a, if rc = .success then th.goto (.request l call 0 G.idle)
        else th.finish rc) := by
    rintro hrc rfl
    have hm : m.setLocal i.1 (m.localLocks i.1) = m := by simp [Memory.setLocal]
    rw [hm, if_neg hrc]
    exact .stay rfl rfl fun j call hj => by cases hj
  cases call with
  | acquire timeoutMs =>
      rcases LocalLockArray.acquire_cases hready hl htake with
        ⟨hfree, rfl, rfl⟩ | ⟨-, rfl, rfl⟩
      · exact .lockLocal hpc hfree
      · exact hfail (by decide) rfl
  | tryAcquire =>
      have htake' := Option.some.inj htake
      rcases LocalLockArray.tryAcquire_cases (t := i.2) hready hl with
        ⟨hfree, heq⟩ | ⟨-, heq⟩ <;>
        obtain ⟨rfl, rfl⟩ := Prod.mk.inj (heq.symm.trans htake')
      · exact .lockLocal hpc hfree
      · exact hfail (by decide) rfl

/-- A turn of the poll without a grant goes on waiting or gives up. -/
lemma goesOn_pollAgain (l : LockId) (call : Cas.Call) (k : UInt32) (p p' : G.Pc)
    (elapsedMs : UInt64) :
    (pollAgain G l call k elapsedMs p').mutex = some l ∧
      GoesOn G (.request l call k p) (pollAgain G l call k elapsedMs p') := by
  have hwaits : ∀ j, l = j → waitsFor G (.request l call k p) = some j ∨
      ∃ call' k', (ThreadPc.request l call k p : ThreadPc G.Pc) = .request j call' k' G.idle := by
    rintro j rfl
    by_cases hp : p = G.idle
    · exact .inr ⟨call, k, by rw [hp]⟩
    · exact .inl (if_neg hp)
  have hcases : (∃ rc, pollAgain G l call k elapsedMs p' = .cancel l rc G.entered) ∨
      pollAgain G l call k elapsedMs p' = .request l call (k + 1) p' := by
    unfold pollAgain
    split_ifs
    · exact .inl ⟨_, rfl⟩
    · exact .inr rfl
    · exact .inl ⟨_, rfl⟩
    · exact .inr rfl
  rcases hcases with ⟨rc, heq⟩ | heq <;> rw [heq]
  · exact ⟨rfl, fun j hj => hwaits j (Option.some.inj hj), fun j hj => by cases hj⟩
  · refine ⟨rfl, fun j hj => hwaits j ?_, fun j hj => by cases hj⟩
    exact Option.some.inj (mutex_of_waitsFor hj)

lemma threadStep_effect (hready : (m.localLocks i.1).Ready size.maxLocks)
    (hlt : ∀ l call, th.pc = .lockLocal l call → l < size.maxLocks)
    (hr : threadStep G size i.1 i.2 c m th = some r) : ThreadEffect size i m th r := by
  cases hpc : th.pc with
  | idle =>
      rw [threadStep, hpc] at hr
      exact beginCall_effect hpc hr
  | lockLocal l call => exact lockLocal_effect hpc hready (hlt l call hpc) hr
  | request l call k p =>
      have hmutex : th.pc.mutex = some l := by rw [hpc]; rfl
      simp only [threadStep, hpc] at hr
      split_ifs at hr with hentered hturn
      · cases hr
        exact .enter hmutex
      · cases c with
        | clock elapsedMs =>
            cases hr
            obtain ⟨hagain, hgoes⟩ :=
              goesOn_pollAgain l call k p (G.node l i.1 m.shm p).2 elapsedMs
            exact .access hmutex hagain (hpc ▸ hgoes)
        | acquire | tryAcquire | release => cases hr
      · cases hr
        refine .access hmutex rfl ⟨fun j hj => ?_, fun j hj => by cases hj⟩
        obtain rfl := Option.some.inj (mutex_of_waitsFor hj)
        by_cases hp : p = G.idle
        · exact .inr ⟨call, k, by rw [hpc, hp]⟩
        · exact .inl (by rw [hpc]; exact if_neg hp)
  | cancel l rc p =>
      have hmutex : th.pc.mutex = some l := by rw [hpc]; rfl
      simp only [threadStep, hpc] at hr
      cases hr
      have hwaits : waitsFor G th.pc = some l := by rw [hpc]; rfl
      split_ifs
      · exact .access hmutex rfl (.of_none rfl rfl)
      · refine .access hmutex rfl ⟨fun j hj => .inl ?_, fun j hj => by cases hj⟩
        rw [hwaits, ← Option.some.inj hj]
  | abandon l rc =>
      simp only [threadStep, hpc] at hr
      cases hr
      exact .unlock (by rw [hpc]; rfl)
  | releaseGlobal l p =>
      have hmutex : th.pc.mutex = some l := by rw [hpc]; rfl
      simp only [threadStep, hpc] at hr
      cases hr
      split_ifs with hidle hcode
      · refine .access hmutex rfl ⟨fun j hj => ?_, fun j hj => ?_⟩
        · cases hj
        obtain rfl := Option.some.inj (mutex_of_releases hj)
        by_cases hp : p = G.entered
        · exact .inr (by rw [hpc, hp])
        · exact .inl (by rw [hpc]; exact if_neg hp)
      · exact .access hmutex rfl (.of_none rfl rfl)
      · exact .access hmutex rfl (.of_none rfl rfl)
  | releaseLocal l =>
      simp only [threadStep, hpc] at hr
      cases hr
      exact .unlock (by rw [hpc]; rfl)

/-! ## The local mutexes -/

variable {s : State G T}

/-- A thread with a call past its local mutex, or inside, has the local mutex. -/
structure Mutexes (size : SystemSize) (s : State G T) : Prop where
  ready : ∀ n, (s.mem.localLocks n).Ready size.maxLocks
  lock_lt : ∀ i l call, (s.pc i).pc = .lockLocal l call → l < size.maxLocks
  has_lt : ∀ i l, (s.pc i).Has l → l < size.maxLocks
  owner : ∀ i l, (s.pc i).Has l → (s.mem.localLocks i.1).owner l = some i.2
  apart : ∀ i l, (s.pc i).pc.mutex = some l → (s.pc i).inside l = false

namespace Mutexes

omit [DecidableEq T] in
/-- Two threads of a node do not have the same local mutex. -/
lemma unique (h : Mutexes size s) {n : NodeId} {t u : T} {l : LockId} (ht : (s.pc (n, t)).Has l)
    (hu : (s.pc (n, u)).Has l) : t = u :=
  Option.some.inj ((h.owner (n, t) l ht).symm.trans (h.owner (n, u) l hu))

lemma init (h : (machine G size).system.init s) : Mutexes size s := by
  obtain ⟨⟨-, hlocks⟩, hpc, -⟩ := h
  replace hpc : ∀ i, s.pc i = ⟨.idle, fun _ => false, none⟩ := hpc
  have hnone : ∀ i l, ¬ (s.pc i).Has l := fun i l => by simp [Thread.Has, hpc]
  constructor
  · intro n
    rw [hlocks]
    exact LocalLockArray.initializeArray_ready size
  · intro i l call hi
    simp [hpc] at hi
  · exact fun i l hi => absurd hi (hnone i l)
  · exact fun i l hi => absurd hi (hnone i l)
  · intro i l hi
    simp [hpc] at hi

/-- A step that changes no local mutex, after which the thread has no more of them. -/
lemma mono (h : Mutexes size s) (hlocks : r.1.localLocks = s.mem.localLocks)
    (hlt : ∀ l call, r.2.pc = .lockLocal l call → l < size.maxLocks)
    (hhas : ∀ l, r.2.Has l → (s.pc i).Has l)
    (hapart : ∀ l, r.2.pc.mutex = some l → r.2.inside l = false) :
    Mutexes size (s.move i r) := by
  constructor
  · intro n
    rw [Config.move_mem, hlocks]
    exact h.ready n
  · intro k l call hk
    rw [Config.move_pc] at hk
    split_ifs at hk
    · exact hlt l call hk
    · exact h.lock_lt k l call hk
  · intro k l hk
    rw [Config.move_pc] at hk
    split_ifs at hk with hki
    · exact h.has_lt i l (hhas l hk)
    · exact h.has_lt k l hk
  · intro k l hk
    rw [Config.move_pc] at hk
    rw [Config.move_mem, hlocks]
    split_ifs at hk with hki
    · exact hki ▸ h.owner i l (hhas l hk)
    · exact h.owner k l hk
  · intro k l hk
    rw [Config.move_pc] at hk ⊢
    split_ifs at hk ⊢
    · exact hapart l hk
    · exact h.apart k l hk

/-- The local mutex for `l` goes to the thread or from it. -/
lemma change (h : Mutexes size s) {l : LockId} {o : Option T} {th' : Thread G.Pc}
    (hpc : th'.pc.mutex = none ∧ o = none ∧ (s.pc i).Has l ∨
      th'.pc.mutex = some l ∧ o = some i.2 ∧ (s.mem.localLocks i.1).owner l = none)
    (hlt : l < size.maxLocks) (hcall : ∀ j call, th'.pc ≠ .lockLocal j call)
    (hinside : th'.inside = (s.pc i).inside) (hout : (s.pc i).inside l = false) :
    Mutexes size (s.move i (s.mem.setLocal i.1 ((s.mem.localLocks i.1).setOwner l o), th')) := by
  -- another thread of the node does not have this mutex
  have hother : ∀ k j, k ≠ i → k.1 = i.1 → (s.pc k).Has j → j ≠ l := by
    rintro ⟨n, u⟩ j hki rfl hk rfl
    rcases hpc with ⟨-, -, hi⟩ | ⟨-, -, hfree⟩
    · exact hki (Prod.ext rfl (h.unique hk hi))
    · exact Option.some_ne_none _ ((h.owner _ j hk).symm.trans hfree)
  have hlocks : ∀ n j,
      ((s.mem.setLocal i.1 ((s.mem.localLocks i.1).setOwner l o)).localLocks n).owner j =
        if n = i.1 ∧ j = l then o else (s.mem.localLocks n).owner j := by
    intro n j
    by_cases hn : n = i.1
    · subst hn
      simp [Memory.setLocal]
    · simp [Memory.setLocal, hn]
  constructor
  · intro n
    have hready := h.ready n
    by_cases hn : n = i.1
    · subst hn
      simpa [Memory.setLocal] using hready.setOwner o
    · simpa [Memory.setLocal, hn] using hready
  · intro k j call hk
    rw [Config.move_pc] at hk
    split_ifs at hk
    · exact absurd hk (hcall j call)
    · exact h.lock_lt k j call hk
  · intro k j hk
    rw [Config.move_pc] at hk
    split_ifs at hk
    · rcases hk with hk | hk
      · rcases hpc with ⟨hnone, -⟩ | ⟨hsome, -⟩
        · cases hnone.symm.trans hk
        · exact Option.some.inj (hsome.symm.trans hk) ▸ hlt
      · exact h.has_lt i j (.inr (hinside ▸ hk))
    · exact h.has_lt k j hk
  · intro k j hk
    rw [Config.move_pc] at hk
    rw [Config.move_mem, hlocks]
    split_ifs at hk with hki
    · subst hki
      rcases hk with hk | hk
      · rcases hpc with ⟨hnone, -⟩ | ⟨hsome, ho, -⟩
        · cases hnone.symm.trans hk
        · obtain rfl := Option.some.inj (hsome.symm.trans hk)
          simp [ho]
      · rw [hinside] at hk
        have hjl : j ≠ l := by
          rintro rfl
          rw [hout] at hk
          cases hk
        simpa [hjl] using h.owner k j (.inr hk)
    · have howner := h.owner k j hk
      split_ifs with hkj
      · exact absurd hkj.2 (hother k j hki hkj.1 hk)
      · exact howner
  · intro k j hk
    rw [Config.move_pc] at hk ⊢
    split_ifs at hk ⊢
    · rcases hpc with ⟨hnone, -⟩ | ⟨hsome, -⟩
      · cases hnone.symm.trans hk
      · rw [hinside, ← Option.some.inj (hsome.symm.trans hk)]
        exact hout
    · exact h.apart k j hk

lemma step (h : Mutexes size s) (he : ThreadEffect size i s.mem (s.pc i) r) :
    Mutexes size (s.move i r) := by
  cases he with
  | stay hmutex hinside hlt =>
      refine h.mono rfl hlt (fun l hl => .inr ?_) fun l hl => ?_
      · rcases hl with hl | hl
        · cases hmutex.symm.trans hl
        · exact hinside ▸ hl
      · cases hmutex.symm.trans hl
  | @leave l _ hin =>
      refine h.mono rfl (fun j call hj => by cases hj) (fun j hj => .inr ?_) fun j hj => ?_
      · rcases hj with hj | hj
        · exact Option.some.inj hj ▸ hin
        · rw [Thread.goto_inside, Thread.setInside_inside] at hj
          split_ifs at hj
          exact hj
      · rw [Thread.goto_inside, Thread.setInside_inside, if_pos (Option.some.inj hj).symm]
  | @lockLocal l call hpc hfree =>
      have hout : (s.pc i).inside l = false := by
        by_contra hin
        rw [Bool.not_eq_false] at hin
        exact Option.some_ne_none _ ((h.owner i l (.inr hin)).symm.trans hfree)
      exact h.change (.inr ⟨rfl, rfl, hfree⟩) (h.lock_lt i l call hpc)
        (fun j call hj => by cases hj) rfl hout
  | @access l shm pc hmutex hmutex' _ =>
      refine h.mono rfl (fun j call hj => ?_) (fun j hj => ?_) fun j hj => ?_
      · rw [Thread.goto_pc] at hj
        rw [hj] at hmutex'
        cases hmutex'
      · exact hj.imp (fun hj => hmutex.trans (hmutex'.symm.trans hj)) id
      · exact h.apart i j (hmutex.trans (hmutex'.symm.trans hj))
  | @enter l shm rc hmutex =>
      refine h.mono rfl (fun j call hj => by cases hj) (fun j hj => ?_) fun j hj => by cases hj
      rcases hj with hj | hj
      · cases hj
      · rw [Thread.finish_inside, Thread.setInside_inside] at hj
        split_ifs at hj with hjl
        · exact .inl (hjl ▸ hmutex)
        · exact .inr hj
  | @unlock l rc hmutex =>
      have hl := h.has_lt i l (.inl hmutex)
      rw [LocalLockArray.release_of_owner (h.ready i.1) hl (h.owner i l (.inl hmutex))]
      exact h.change (.inl ⟨rfl, rfl, .inl hmutex⟩) hl (fun j call hj => by cases hj) rfl
        (h.apart i l hmutex)

end Mutexes

/-! ## One request at a time -/

/-- While a thread waits, no other thread of its node waits or is in the middle of a
`release_lock`. -/
def Alone (s : State G T) : Prop :=
  ∀ n t u l j, waitsFor G (s.pc (n, t)).pc = some l →
    (waitsFor G (s.pc (n, u)).pc = some j ∨ releases G (s.pc (n, u)).pc = some j) → t = u

/-- What is in progress after a step of a thread was in progress before or begins with it. -/
lemma ThreadEffect.goesOn (he : ThreadEffect size i m th r) : GoesOn G th.pc r.2.pc := by
  cases he with
  | @stay th' hmutex =>
      refine .of_none ?_ ?_
      · by_contra h
        obtain ⟨l, hl⟩ := Option.ne_none_iff_exists'.1 h
        cases hmutex.symm.trans (mutex_of_waitsFor hl)
      · by_contra h
        obtain ⟨l, hl⟩ := Option.ne_none_iff_exists'.1 h
        cases hmutex.symm.trans (mutex_of_releases hl)
  | leave => exact .of_none rfl (if_pos rfl)
  | lockLocal => exact .of_none (if_pos rfl) rfl
  | access _ _ hgoes => exact hgoes
  | enter => exact .of_none rfl rfl
  | unlock => exact .of_none rfl rfl

omit [DecidableEq T] in
/-- A thread that begins `acquire_lock` or `release_lock` while another one waits would have
the local mutex of that one, if the step meets the condition. -/
lemma Mutexes.not_begins (h : Mutexes size s) {n : NodeId} {t u : T} {l j : LockId}
    (hwaits : waitsFor G (s.pc (n, t)).pc = some l) (hjl : l = j)
    (hbegins : (s.pc (n, u)).pc.mutex = some j) : t = u :=
  h.unique (l := j) (.inl (hjl ▸ mutex_of_waitsFor hwaits)) (.inl hbegins)

lemma Alone.step (h : Alone s) (hm : Mutexes size s) (hok : CallsAlone G s (.party i c))
    (he : ThreadEffect size i s.mem (s.pc i) r) : Alone (s.move i r) := by
  have hgoes := he.goesOn
  intro n t u l j ht hu
  by_contra htu
  rw [Config.move_pc] at ht hu
  split_ifs at ht hu with hti hui hui
  · -- both are the thread that has moved
    exact htu (Prod.mk.inj (hti.trans hui.symm)).2
  · -- the waiting thread has moved
    subst hti
    rcases hgoes.waiting l ht with ht | ⟨call, k, hpc⟩
    · exact htu (h n t u l j ht hu)
    · simp only [CallsAlone, hpc, forall_const] at hok
      obtain ⟨hnoneWaits, hnoneReleases⟩ := hok
      have hmutex : (s.pc (n, t)).pc.mutex = some l := by rw [hpc]; rfl
      rcases hu with hu | hu
      · exact htu (hm.not_begins hu (hnoneWaits u j hu) hmutex).symm
      · obtain rfl := hnoneReleases u j hu
        exact htu (hm.unique (.inl hmutex) (.inl (mutex_of_releases hu)))
  · -- the other one has moved
    subst hui
    rcases hu with hu | hu
    · rcases hgoes.waiting j hu with hu | ⟨call, k, hpc⟩
      · exact htu (h n t u l j ht (.inl hu))
      · simp only [CallsAlone, hpc, forall_const] at hok
        have hmutex : (s.pc (n, u)).pc.mutex = some j := by rw [hpc]; rfl
        exact htu (hm.not_begins ht (hok.1 t l ht) hmutex)
    · rcases hgoes.releasing j hu with hu | hpc
      · exact htu (h n t u l j ht (.inr hu))
      · simp only [CallsAlone, hpc, forall_const] at hok
        have hmutex : (s.pc (n, u)).pc.mutex = some j := by rw [hpc]; rfl
        exact htu (hm.not_begins ht (hok t l ht) hmutex)
  · exact htu (h n t u l j ht hu)

/-- A step between two accesses of the algorithm leaves the shared memory as it is. -/
lemma threadStep_shm (hr : threadStep G size i.1 i.2 c m th = some r) :
    r.1.shm = m.shm ∨ ∃ l, th.pc.mutex = some l ∧
      (waitsFor G th.pc = some l ∨ releases G th.pc = some l ∨
        (∃ call k, th.pc = .request l call k G.idle) ∨ th.pc = .releaseGlobal l G.entered) := by
  cases hpc : th.pc with
  | idle =>
      rw [threadStep, hpc] at hr
      left
      cases c with
      | acquire l timeoutMs | tryAcquire l =>
          simp only [beginCall] at hr
          split_ifs at hr <;> cases hr <;> rfl
      | release l =>
          obtain ⟨-, hr⟩ := Option.ite_none_right_eq_some.1 hr
          cases hr
          rfl
      | clock elapsedMs => cases hr
  | lockLocal l call =>
      rw [threadStep, hpc] at hr
      obtain ⟨_, -, rfl⟩ := Option.map_eq_some_iff.1 hr
      exact .inl rfl
  | request l call k p =>
      refine .inr ⟨l, rfl, ?_⟩
      by_cases hp : p = G.idle
      · exact .inr (.inr (.inl ⟨call, k, by rw [hp]⟩))
      · exact .inl (if_neg hp)
  | cancel l rc p => exact .inr ⟨l, rfl, .inl rfl⟩
  | abandon l rc =>
      simp only [threadStep, hpc] at hr
      cases hr
      exact .inl rfl
  | releaseGlobal l p =>
      refine .inr ⟨l, rfl, .inr ?_⟩
      by_cases hp : p = G.entered
      · exact .inr (.inr (by rw [hp]))
      · exact .inl (if_neg hp)
  | releaseLocal l =>
      simp only [threadStep, hpc] at hr
      cases hr
      exact .inl rfl

/-- No other thread of the node accesses the shared memory while a thread waits. -/
lemma Alone.recordKept (h : Alone s) (hm : Mutexes size s) : RecordKept G size s := by
  intro n t u l c s' ht hut hok hnext
  obtain ⟨r, hr, rfl⟩ := Option.map_eq_some_iff.1 hnext
  obtain ⟨-, hr⟩ := Option.ite_none_right_eq_some.1 hr
  rcases threadStep_shm (i := (n, u)) hr with hshm | ⟨j, hmutex, hbusy⟩
  · rw [Config.move_mem, hshm]
  · refine absurd ?_ hut
    rcases hbusy with hu | hu | ⟨call, k, hpc⟩ | hpc
    · exact (h n t u l j ht (.inl hu)).symm
    · exact (h n t u l j ht (.inr hu)).symm
    · simp only [CallsAlone, hpc, forall_const] at hok
      exact (hm.not_begins ht (hok.1 t l ht) hmutex).symm
    · simp only [CallsAlone, hpc, forall_const] at hok
      exact (hm.not_begins ht (hok t l ht) hmutex).symm

lemma alone_of_reachable (hs : (machine G size).system.ReachableWhen (CallsAlone G) s) :
    Mutexes size s ∧ Alone s := by
  refine Machine.invariant (I := fun s => Mutexes size s ∧ Alone s) (fun s hi => ⟨.init hi, ?_⟩)
    (fun s i c r h hok hr => ?_) (fun s q h _ hq => ?_) hs
  · have hpc : ∀ i, s.pc i = ⟨.idle, fun _ => false, none⟩ := hi.2.1
    intro n t u l j ht
    simp [hpc, waitsFor] at ht
  · obtain ⟨-, hr⟩ := Option.ite_none_right_eq_some.1 hr
    have he := threadStep_effect (h.1.ready i.1) (h.1.lock_lt i) hr
    exact ⟨h.1.step he, h.2.step h.1 hok he⟩
  · obtain rfl := Option.some.inj hq
    obtain ⟨⟨hready, hlock, hlt, howner, hapart⟩, halone⟩ := h
    exact ⟨⟨hready, hlock, hlt, howner, hapart⟩, halone⟩

end Steps

/-- **One request for each record.**  In every run in which `acquire_lock` and `release_lock`
begin only as `CallsAlone` says, at most one thread of each node waits for a lock, and no other
thread of the node changes the node's record meanwhile. -/
theorem one_request_of_callsAlone (a : RecordAlgorithm) (T : Type) [DecidableEq T]
    (size : SystemSize) (s : State a.program T)
    (hs : (machine a.program size).system.ReachableWhen (CallsAlone a.program) s) :
    OneRequest a.program s ∧ RecordKept a.program size s := by
  obtain ⟨hm, halone⟩ := alone_of_reachable hs
  exact ⟨fun n t u l j ht hu => halone n t u l j ht (.inl hu), halone.recordKept hm⟩

/-- The state of the MCS lock right after `initialize` of a zeroed region. -/
def mcsStart (T : Type) (size : SystemSize) : State Mcs.program T where
  mem :=
    { shm := ⟨(Mcs.initializeShm size.nodeCount ⟨fun _ => ⟨0, 0, 0⟩, fun _ => ⟨0, 0, 0⟩⟩).2, 0,
        fun _ => 0⟩
      localLocks := fun _ => (LocalLockArray.unused.initializeArray size.maxLocks .done).2 }
  pc _ := ⟨.idle, fun _ => false, none⟩
  mgr := (0, .loadOwner)

lemma mcsStart_init (T : Type) [DecidableEq T] (size : SystemSize) :
    (machine RecordAlgorithm.mcs.program size).system.init (mcsStart T size) :=
  ⟨⟨⟨_, rfl⟩, fun _ => rfl⟩, fun _ => rfl, rfl⟩

/-- Thread `false` of node 0 is inside lock 0 when thread `true` requests lock 1. -/
theorem one_request_run : ∃ s : State RecordAlgorithm.mcs.program Bool,
    OneRequest RecordAlgorithm.mcs.program s ∧
      waitsFor RecordAlgorithm.mcs.program (s.pc (0, true)).pc = some 1 := by
  obtain ⟨s, hs, hp⟩ := LabelledSystem.exists_of_exec (CallsAlone RecordAlgorithm.mcs.program)
    (List.replicate 7 (.party (0, false) (.acquire 0 0)) ++ managerTurns 6 ++
      List.replicate 2 (.party (0, false) (.clock 0)) ++
      List.replicate 4 (.party (0, true) (.acquire 1 0)))
    (fun s => waitsFor RecordAlgorithm.mcs.program (s.pc (0, true)).pc == some 1)
    (mcsStart_init Bool (.of 1 2)) (by decide +kernel)
  rw [beq_iff_eq] at hp
  exact ⟨s, (one_request_of_callsAlone .mcs Bool (.of 1 2) s hs).1, hp⟩

/-- Two threads of node 0 are in `acquire_lock` for locks 0 and 1 at once. -/
theorem two_requests_of_one_node : ¬ ∀ (a : RecordAlgorithm) (size : SystemSize)
    (s : State a.program Bool), (machine a.program size).system.Reachable s →
      OneRequest a.program s := by
  intro h
  obtain ⟨s, hs, hp⟩ := LabelledSystem.exists_of_exec (fun _ _ => True)
    (List.replicate 3 (.party (0, false) (.acquire 0 0)) ++
      List.replicate 3 (.party (0, true) (.acquire 1 0)))
    (fun s => waitsFor RecordAlgorithm.mcs.program (s.pc (0, false)).pc == some 0 &&
      waitsFor RecordAlgorithm.mcs.program (s.pc (0, true)).pc == some 1)
    (mcsStart_init Bool (.of 1 2)) (by decide +kernel)
  rw [Bool.and_eq_true, beq_iff_eq, beq_iff_eq] at hp
  exact absurd (h .mcs (.of 1 2) s hs 0 false true 0 1 hp.1 hp.2) (by decide)

end TwoTier

end CxlLock
