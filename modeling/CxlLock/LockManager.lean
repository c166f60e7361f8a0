import CxlLock.Lib.FairRun
import CxlLock.Lib.Interleaving
import CxlLock.Mcs.GlobalLock
import Mathlib.Data.Fintype.Basic

/-!
# The lock manager and its threads (`lock_manager.cpp`)

`LockManager` has a worker thread, which scans until it is told to stop, and any number of
threads call its methods.  Each event is one access to the members, one call of the algorithm, or
one critical section of `stats_mutex_`; between two of them the other nodes can change the
records in shared memory in any way (`Choice.others`).

`start` and `stop` are written for one caller at a time: two calls of `start` at once both see
`running_` false, and the second of them assigns a new thread to a joinable one, which ends the
program.  With one such call at a time (`OneAtATime`) a worker thread
exists exactly while `is_running` says so (`worker_iff_running`), and `stop` returns, after the
worker has ended (`stop_returns`).

The statistics need no such condition: any number of scans, reads and resets may overlap
(`stats_count_grants`).
-/

namespace CxlLock.LockManager

open Transition

/-- `worker_thread_`. -/
inductive WorkerThread
  | none
  | running
  /-- The thread has ended and is not joined yet. -/
  | ended
  deriving DecidableEq

/-- The members of `LockManager`, and the records that it scans. -/
structure Object (Shm : Type) where
  initialized : Bool
  isManager : Bool
  running : Bool
  stopRequested : Bool
  worker : WorkerThread
  stats : ManagerStats
  shm : Shm
  /-- `std::terminate` has been called. -/
  terminated : Bool

/-- The next access of `run_single_scan`. -/
inductive ScanPc
  | checkGrant (lid : LockId) (anyWork : Bool)
  | grantLock (grantee : NodeId) (lid : LockId) (anyWork : Bool)
  /-- A grant has succeeded and is not counted yet. -/
  | countGrant (lid : LockId)
  /-- After the loop. -/
  | countScan (anyWork : Bool)
  deriving DecidableEq

/-- The next access of the worker thread. -/
inductive WorkerPc
  /-- There is no worker thread, or it has not begun. -/
  | waiting
  /-- The loop condition of `run`. -/
  | testStop
  | scan (p : ScanPc)
  | sleep
  deriving DecidableEq

/-- The next access of a thread that calls methods. -/
inductive CallerPc
  | idle
  /-- The stores of `start`, after its checks, and the creation of the thread. -/
  | startStop
  | startRunning
  | startThread
  /-- The accesses of `stop` after its check. -/
  | stopRequest
  | stopJoinable
  | stopJoin
  | stopRunning
  | scan (p : ScanPc)
  deriving DecidableEq

/-- A thread that calls methods. -/
structure Caller where
  pc : CallerPc
  /-- What the last call of `start` or `stop` has returned. -/
  result : Option LockResult
  deriving DecidableEq

/-- What a thread calls, or that its call goes on. -/
inductive Choice (Shm : Type)
  | start
  | stop
  | runSingleScan
  | resetStats
  | goOn
  /-- Other nodes have changed the records. -/
  | others (shm : Shm)

namespace CallerPc

/-- In a call of `stop`, after its check. -/
def stopping : CallerPc → Bool
  | .stopRequest | .stopJoinable | .stopJoin | .stopRunning => true
  | .idle | .startStop | .startRunning | .startThread | .scan _ => false

/-- In a call of `start` or `stop`, after its checks. -/
def lifecycle : CallerPc → Bool
  | .startStop | .startRunning | .startThread | .stopRequest | .stopJoinable | .stopJoin
  | .stopRunning => true
  | .idle | .scan _ => false

end CallerPc

section Programs

variable {Shm : Type} (alg : GlobalLockAlgorithm Shm) (size : SystemSize)

/-- The loop of `run_single_scan` goes on after `lid`. -/
def nextLock (lid : LockId) (anyWork : Bool) : ScanPc :=
  if lid + 1 < size.maxLocks then .checkGrant (lid + 1) anyWork else .countScan anyWork

/-- One access of `run_single_scan`; at the end there is no next one. -/
def scanStep (o : Object Shm) : ScanPc → Object Shm × Option ScanPc
  | .checkGrant lid anyWork =>
      let r := alg.checkGrant size.nodeCount lid o.shm
      ({ o with shm := r.2 },
        some (if r.1 = invalidNodeId then nextLock size lid anyWork
          else .grantLock r.1 lid anyWork))
  | .grantLock grantee lid anyWork =>
      let r := alg.grantLock size.nodeCount grantee lid o.shm
      ({ o with shm := r.2 },
        some (if r.1 = .success then .countGrant lid else nextLock size lid anyWork))
  | .countGrant lid =>
      ({ o with stats := { o.stats with
          grantsTotal := o.stats.grantsTotal + 1
          grantsByLock := Function.update o.stats.grantsByLock lid
            (o.stats.grantsByLock lid + 1) } },
        some (nextLock size lid true))
  | .countScan anyWork =>
      let stats := { o.stats with scanCycles := o.stats.scanCycles + 1 }
      ({ o with stats := if anyWork then stats
          else { stats with idleCycles := stats.idleCycles + 1 } },
        none)

/-- One access of the worker thread: the loop of `run`. -/
def workerStep (o : Object Shm) : WorkerPc → Option (Object Shm × WorkerPc)
  | .waiting => if o.worker = .running then some (o, .testStop) else none
  | .testStop =>
      if o.stopRequested then some ({ o with worker := .ended }, .waiting)
      else some (o, .scan (.checkGrant 0 false))
  | .scan p =>
      let r := scanStep alg size o p
      some (r.1, match r.2 with
        | some p => .scan p
        | none => .sleep)
  | .sleep => some (o, .testStop)

/-- The begin of a call. -/
def beginCall (o : Object Shm) (th : Caller) : Choice Shm → Option (Object Shm × Caller)
  | .start =>
      if o.initialized = false then some (o, { th with result := some .errorLockNotInitialized })
      else if o.running then some (o, { th with result := some .errorUnknown })
      else if o.isManager = false then some (o, { th with result := some .errorNotOwner })
      else some (o, { th with pc := .startStop })
  | .stop =>
      if o.running = false then some (o, { th with result := some .errorLockNotInitialized })
      else some (o, { th with pc := .stopRequest })
  | .runSingleScan => some (o, { th with pc := .scan (.checkGrant 0 false) })
  | .resetStats => some ({ o with stats := {} }, th)
  | .others shm => some ({ o with shm := shm }, th)
  | .goOn => none

/-- One access of a call that has begun. -/
def goOn (o : Object Shm) (th : Caller) : Option (Object Shm × Caller) :=
  match th.pc with
  | .idle => none
  | .startStop => some ({ o with stopRequested := false }, { th with pc := .startRunning })
  | .startRunning => some ({ o with running := true }, { th with pc := .startThread })
  | .startThread =>
      -- a thread that is joinable must not be assigned to
      if o.worker = .none then some ({ o with worker := .running }, ⟨.idle, some .success⟩)
      else some ({ o with terminated := true }, th)
  | .stopRequest => some ({ o with stopRequested := true }, { th with pc := .stopJoinable })
  | .stopJoinable =>
      some (o, { th with pc := if o.worker = .none then .stopRunning else .stopJoin })
  | .stopJoin =>
      match o.worker with
      | .running => none
      | .ended => some ({ o with worker := .none }, { th with pc := .stopRunning })
      -- another thread has joined it meanwhile
      | .none => some ({ o with terminated := true }, th)
  | .stopRunning => some ({ o with running := false }, ⟨.idle, some .success⟩)
  | .scan p =>
      let r := scanStep alg size o p
      some (r.1, { th with pc := match r.2 with
        | some p => .scan p
        | none => .idle })

/-- One access of a thread that calls methods. -/
def callerStep (o : Object Shm) (th : Caller) (c : Choice Shm) : Option (Object Shm × Caller) :=
  match c with
  | .goOn => goOn alg size o th
  | c => if th.pc = .idle then beginCall o th c else none

/-- The worker thread and the threads `T` that call methods; nothing has been started. -/
def machine (T : Type) : Machine T (Choice Shm) (Object Shm) Caller WorkerPc where
  start o := o.running = false ∧ o.worker = .none ∧ o.terminated = false ∧ o.stats = {}
  idle := ⟨.idle, none⟩
  managerIdle := .waiting
  party _ c o th := if o.terminated then none else callerStep alg size o th c
  manager o q := if o.terminated then none else workerStep alg size o q

/-- A state of the lock manager and its threads. -/
abbrev State (Shm T : Type) := Config T (Object Shm) Caller WorkerPc

/-- The condition on a step: `start` and `stop` begin only while no other call of them is in
progress. -/
def OneAtATime {T : Type} (s : State Shm T) : Turn T (Choice Shm) → Prop
  | .party _ .start | .party _ .stop => ∀ i, (s.pc i).pc.lifecycle = false
  | .party _ .runSingleScan | .party _ .resetStats | .party _ .goOn | .party _ (.others _)
  | .manager => True

instance {T : Type} [Fintype T] (s : State Shm T) (e : Turn T (Choice Shm)) :
    Decidable (OneAtATime s e) :=
  match e with
  | .party _ .start | .party _ .stop =>
      inferInstanceAs (Decidable (∀ i, (s.pc i).pc.lifecycle = false))
  | .party _ .runSingleScan | .party _ .resetStats | .party _ .goOn | .party _ (.others _)
  | .manager => inferInstanceAs (Decidable True)

/-- A lock manager that has just been initialized. -/
def Object.fresh (shm : Shm) : Object Shm where
  initialized := true
  isManager := true
  running := false
  stopRequested := false
  worker := .none
  stats := {}
  shm := shm
  terminated := false

lemma fresh_init (T : Type) [DecidableEq T] (shm : Shm) :
    (machine alg size T).system.init ((machine alg size T).initial (.fresh shm)) :=
  Machine.initial_init ⟨rfl, rfl, rfl, rfl⟩

end Programs

/-! ## The worker thread -/

/-- What the members say while a call of `start` or `stop` is at a place, and between such
calls. -/
def Phase {Shm : Type} (o : Object Shm) : CallerPc → Prop
  | .idle | .scan _ => o.running = true ∧ o.worker = .running ∧ o.stopRequested = false ∨
      o.running = false ∧ o.worker = .none
  | .startStop => o.running = false ∧ o.worker = .none
  | .startRunning => o.running = false ∧ o.worker = .none ∧ o.stopRequested = false
  | .startThread => o.running = true ∧ o.worker = .none ∧ o.stopRequested = false
  | .stopRequest => o.running = true ∧ o.worker = .running ∧ o.stopRequested = false
  | .stopJoinable | .stopJoin =>
      o.running = true ∧ o.worker ≠ .none ∧ o.stopRequested = true
  | .stopRunning => o.running = true ∧ o.worker = .none

/-- The lock of the scan is one of the system. -/
def ScanPc.Ok (size : SystemSize) : ScanPc → Prop
  | .checkGrant lid _ | .grantLock _ lid _ | .countGrant lid => lid < size.maxLocks
  | .countScan _ => True

/-- At most one call of `start` or `stop` is in progress, and the members say where it is. -/
structure Inv {Shm T : Type} (size : SystemSize) (s : State Shm T) : Prop where
  alive : s.mem.terminated = false
  one : ∀ i k, (s.pc i).pc.lifecycle = true → (s.pc k).pc.lifecycle = true → i = k
  busy : ∀ i, (s.pc i).pc.lifecycle = true → Phase s.mem (s.pc i).pc
  quiet : (∀ i, (s.pc i).pc.lifecycle = false) → Phase s.mem .idle
  worker : s.mem.worker ≠ .running → s.mgr = .waiting
  scans : ∀ p, s.mgr = .scan p → p.Ok size

section Steps

variable {Shm T : Type} [DecidableEq T] {alg : GlobalLockAlgorithm Shm} {size : SystemSize}
  {s s' : State Shm T} {o o' : Object Shm} {th th' : Caller} {c : Choice Shm} {i : T}

/-- The members that `start` and `stop` are about are the same. -/
structure SameMembers (o o' : Object Shm) : Prop where
  running : o'.running = o.running
  stopRequested : o'.stopRequested = o.stopRequested
  worker : o'.worker = o.worker
  terminated : o'.terminated = o.terminated

lemma SameMembers.refl : SameMembers o o := ⟨rfl, rfl, rfl, rfl⟩

lemma SameMembers.phase (h : SameMembers o o') {pc : CallerPc} : Phase o' pc ↔ Phase o pc := by
  unfold Phase
  rw [h.running, h.stopRequested, h.worker]

lemma scanStep_sameMembers (p : ScanPc) : SameMembers o (scanStep alg size o p).1 := by
  cases p <;> exact ⟨rfl, rfl, rfl, rfl⟩

lemma nextLock_ok {lid : LockId} {anyWork : Bool} : (nextLock size lid anyWork).Ok size := by
  unfold nextLock
  split_ifs with hlt
  · exact hlt
  · trivial

lemma scanStep_ok {p p' : ScanPc} (hp : p.Ok size) (h : (scanStep alg size o p).2 = some p') :
    p'.Ok size := by
  cases p with
  | checkGrant lid anyWork =>
      obtain rfl := Option.some.inj h
      split_ifs
      · exact nextLock_ok
      · exact hp
  | grantLock grantee lid anyWork =>
      obtain rfl := Option.some.inj h
      split_ifs
      · exact hp
      · exact nextLock_ok
  | countGrant lid =>
      obtain rfl := Option.some.inj h
      exact nextLock_ok
  | countScan anyWork => cases h

/-- What a step of a caller does to the worker thread. -/
inductive CallerEffect (c : Choice Shm) (o : Object Shm) (th : Caller) :
    Object Shm → Caller → Prop
  /-- It has nothing to do with `start` and `stop`, or they refuse. -/
  | aside {o' : Object Shm} {th' : Caller} : SameMembers o o' → th.pc.lifecycle = false →
      th'.pc.lifecycle = false → CallerEffect c o th o' th'
  /-- `start` or `stop` begins. -/
  | begins {th' : Caller} : c = .start ∨ c = .stop → (Phase o .idle → Phase o th'.pc) →
      CallerEffect c o th o th'
  /-- `start` or `stop` goes on, and may end. -/
  | goesOn {o' : Object Shm} {th' : Caller} : th.pc.lifecycle = true →
      (Phase o th.pc → o'.terminated = o.terminated ∧ Phase o' th'.pc ∧
        (o'.worker ≠ .running → o.worker ≠ .running)) →
      CallerEffect c o th o' th'

lemma beginCall_effect (hpc : th.pc = .idle) (h : beginCall o th c = some (o', th')) :
    CallerEffect c o th o' th' := by
  have hlife : th.pc.lifecycle = false := by rw [hpc]; rfl
  cases c with
  | start =>
      simp only [beginCall] at h
      split_ifs at h with hinit hrunning hmanager <;> cases h
      · exact .aside .refl hlife hlife
      · exact .aside .refl hlife hlife
      · exact .aside .refl hlife hlife
      · exact .begins (.inl rfl) fun hphase => hphase.resolve_left fun hup => hrunning hup.1
  | stop =>
      simp only [beginCall] at h
      split_ifs at h with hrunning <;> cases h
      · exact .aside .refl hlife hlife
      · exact .begins (.inr rfl) fun hphase => hphase.resolve_right fun hdown => hrunning hdown.1
  | runSingleScan =>
      cases h
      exact .aside .refl hlife rfl
  | resetStats =>
      cases h
      exact .aside ⟨rfl, rfl, rfl, rfl⟩ hlife hlife
  | others shm =>
      cases h
      exact .aside ⟨rfl, rfl, rfl, rfl⟩ hlife hlife
  | goOn => cases h

lemma goOn_effect (h : goOn alg size o th = some (o', th')) : CallerEffect c o th o' th' := by
  obtain ⟨pc, hpc⟩ : ∃ pc, th.pc = pc := ⟨_, rfl⟩
  have hlife : th.pc.lifecycle = pc.lifecycle := by rw [hpc]
  cases pc <;> simp only [goOn, hpc] at h
  case idle => cases h
  case scan p =>
    cases h
    refine .aside (scanStep_sameMembers p) hlife ?_
    dsimp only
    split <;> rfl
  all_goals refine .goesOn hlife fun hphase => ?_
  all_goals rw [hpc] at hphase
  case startStop =>
    cases h
    exact ⟨rfl, ⟨hphase.1, hphase.2, rfl⟩, id⟩
  case startRunning =>
    cases h
    exact ⟨rfl, ⟨rfl, hphase.2.1, hphase.2.2⟩, id⟩
  case startThread =>
    rw [if_pos hphase.2.1] at h
    cases h
    exact ⟨rfl, .inl ⟨hphase.1, rfl, hphase.2.2⟩, fun hne => absurd rfl hne⟩
  case stopRequest =>
    cases h
    exact ⟨rfl, ⟨hphase.1, by rw [hphase.2.1]; rintro ⟨⟩, rfl⟩, id⟩
  case stopJoinable =>
    rw [if_neg hphase.2.1] at h
    cases h
    exact ⟨rfl, hphase, id⟩
  case stopJoin =>
    obtain ⟨hrunning, hworker, hstop⟩ := hphase
    cases hw : o.worker <;> simp only [hw] at h
    case none => exact absurd hw hworker
    case ended =>
      cases h
      exact ⟨rfl, ⟨hrunning, rfl⟩, fun _ => by rintro ⟨⟩⟩
    case running => cases h
  case stopRunning =>
    cases h
    exact ⟨rfl, .inr ⟨rfl, hphase.2⟩, id⟩

lemma callerStep_effect (h : callerStep alg size o th c = some (o', th')) :
    CallerEffect c o th o' th' := by
  unfold callerStep at h
  split at h
  · exact goOn_effect h
  · obtain ⟨hpc, h⟩ := Option.ite_none_right_eq_some.1 h
    exact beginCall_effect hpc h

/-- What a step of the worker thread does: it ends, or it goes on. -/
lemma workerStep_cases {q q' : WorkerPc} (h : workerStep alg size o q = some (o', q')) :
    o.stopRequested = true ∧ q = .testStop ∧ o' = { o with worker := .ended } ∧ q' = .waiting ∨
      SameMembers o o' ∧ (o.worker = .running ∨ q ≠ .waiting) ∧
        ((∀ p, q = .scan p → p.Ok size) → ∀ p, q' = .scan p → p.Ok size) := by
  cases q with
  | waiting =>
      obtain ⟨hw, h⟩ := Option.ite_none_right_eq_some.1 h
      cases h
      exact .inr ⟨.refl, .inl hw, by rintro - _ ⟨⟩⟩
  | testStop =>
      simp only [workerStep] at h
      split_ifs at h with hstop <;> cases h
      · exact .inl ⟨hstop, rfl, rfl, rfl⟩
      · refine .inr ⟨.refl, .inr (by rintro ⟨⟩), fun _ p hp => ?_⟩
        cases hp
        exact size.maxLocks_pos
  | scan p =>
      cases h
      refine .inr ⟨scanStep_sameMembers p, .inr (by rintro ⟨⟩), fun hok p' hp' => ?_⟩
      split at hp'
      · rename_i hnext
        cases hp'
        exact scanStep_ok (hok p rfl) hnext
      · cases hp'
  | sleep =>
      cases h
      exact .inr ⟨.refl, .inr (by rintro ⟨⟩), by rintro - _ ⟨⟩⟩

lemma Phase.idle_of_aside {pc : CallerPc} (h : Phase o pc) (hpc : pc.lifecycle = false) :
    Phase o .idle := by
  cases pc <;> first | exact h | cases hpc

/-- The invariant after a step of the only caller that may be in `start` or `stop`. -/
lemma Inv.of_only (hI : Inv size s) (hothers : ∀ k, k ≠ i → (s.pc k).pc.lifecycle = false)
    (halive : o'.terminated = s.mem.terminated) (hphase : Phase o' th'.pc)
    (hworker : o'.worker ≠ .running → s.mem.worker ≠ .running) :
    Inv size (s.move i (o', th')) := by
  have honly : ∀ k, ((s.move i (o', th')).pc k).pc.lifecycle = true → k = i := by
    intro k hk
    by_contra hki
    simp [hki, hothers k hki] at hk
  refine ⟨halive.trans hI.alive, fun k k' hk hk' => (honly k hk).trans (honly k' hk').symm,
    fun k hk => ?_, fun hquiet => ?_, fun hne => hI.worker (hworker hne), hI.scans⟩
  · obtain rfl := honly k hk
    simpa using hphase
  · have hlife : th'.pc.lifecycle = false := by simpa using hquiet i
    exact hphase.idle_of_aside hlife

/-- The invariant after a step that has nothing to do with `start` and `stop`. -/
lemma Inv.of_aside (hI : Inv size s) (hsame : SameMembers s.mem o')
    (hpc : (s.pc i).pc.lifecycle = false) (hpc' : th'.pc.lifecycle = false) :
    Inv size (s.move i (o', th')) := by
  have hback : ∀ k, ((s.move i (o', th')).pc k).pc.lifecycle = (s.pc k).pc.lifecycle := by
    intro k
    by_cases hki : k = i
    · simp [hki, hpc, hpc']
    · simp [hki]
  refine ⟨hsame.terminated.trans hI.alive, fun k k' hk hk' => ?_, fun k hk => ?_, fun hquiet => ?_,
    fun hne => hI.worker (hsame.worker ▸ hne), hI.scans⟩
  · rw [hback] at hk hk'
    exact hI.one k k' hk hk'
  · have hki : k ≠ i := by
      rintro rfl
      rw [hback, hpc] at hk
      cases hk
    rw [hback] at hk
    have hbusy := hsame.phase.2 (hI.busy k hk)
    simpa [hki] using hbusy
  · exact hsame.phase.2 (hI.quiet fun k => (hback k).symm.trans (hquiet k))

lemma inv_init (h : (machine alg size T).system.init s) : Inv size s := by
  obtain ⟨⟨hrunning, hworker, halive, -⟩, hpc, hmgr⟩ := h
  refine ⟨halive, fun k k' hk _ => ?_, fun k hk => ?_, fun _ => .inr ⟨hrunning, hworker⟩,
    fun _ => hmgr, fun p hp => ?_⟩
  · rw [hpc] at hk
    cases hk
  · rw [hpc] at hk
    cases hk
  · rw [hmgr] at hp
    cases hp

lemma inv_party (hI : Inv size s) (hok : OneAtATime s (.party i c))
    (h : callerStep alg size s.mem (s.pc i) c = some (o', th')) :
    Inv size (s.move i (o', th')) := by
  obtain ⟨hsame, hpc, hpc'⟩ | ⟨hc, hbegin⟩ | ⟨hlife, hgo⟩ := callerStep_effect h
  · exact hI.of_aside hsame hpc hpc'
  · have hquiet : ∀ k, (s.pc k).pc.lifecycle = false := by
      rcases hc with rfl | rfl
      · exact hok
      · exact hok
    exact hI.of_only (fun k _ => hquiet k) rfl (hbegin (hI.quiet hquiet)) id
  · obtain ⟨halive, hphase, hworker⟩ := hgo (hI.busy i hlife)
    refine hI.of_only (fun k hki => ?_) halive hphase hworker
    by_contra hk
    exact hki (hI.one k i (by simpa using hk) hlife)

/-- While a stop is requested and the worker thread runs, the members do not say that it has
ended. -/
lemma Phase.ended {pc : CallerPc} (h : Phase o pc) (hstop : o.stopRequested = true)
    (hworker : o.worker = .running) : Phase { o with worker := .ended } pc := by
  have hstop' : o.stopRequested ≠ false := by simp [hstop]
  have hworker' : o.worker ≠ .none := by simp [hworker]
  cases pc with
  | idle => exact h.elim (fun hup => absurd hup.2.2 hstop') fun hdown => absurd hdown.2 hworker'
  | scan p => exact h.elim (fun hup => absurd hup.2.2 hstop') fun hdown => absurd hdown.2 hworker'
  | startStop => exact absurd h.2 hworker'
  | startRunning => exact absurd h.2.1 hworker'
  | startThread => exact absurd h.2.1 hworker'
  | stopRequest => exact absurd h.2.2 hstop'
  | stopJoinable => exact ⟨h.1, by rintro ⟨⟩, h.2.2⟩
  | stopJoin => exact ⟨h.1, by rintro ⟨⟩, h.2.2⟩
  | stopRunning => exact absurd h.2 hworker'

omit [DecidableEq T] in
lemma inv_manager {q : WorkerPc} (hI : Inv size s)
    (h : workerStep alg size s.mem s.mgr = some (o', q)) : Inv size (s.manage (o', q)) := by
  have hrunning : s.mgr ≠ .waiting → s.mem.worker = .running := fun hq => by
    by_contra hne
    exact hq (hI.worker hne)
  rcases workerStep_cases h with ⟨hstop, hq, rfl, rfl⟩ | ⟨hsame, hq, hscan⟩
  · have hw := hrunning (by rw [hq]; rintro ⟨⟩)
    exact ⟨hI.alive, hI.one, fun k hk => (hI.busy k hk).ended hstop hw,
      fun hquiet => (hI.quiet hquiet).ended hstop hw, fun _ => rfl, by rintro _ ⟨⟩⟩
  · have hw : s.mem.worker = .running := hq.elim id hrunning
    exact ⟨hsame.terminated.trans hI.alive, hI.one,
      fun k hk => hsame.phase.2 (hI.busy k hk), fun hquiet => hsame.phase.2 (hI.quiet hquiet),
      fun hne => absurd (hsame.worker.trans hw) hne, hscan hI.scans⟩

lemma inv_of_reachable (hs : (machine alg size T).system.ReachableWhen OneAtATime s) :
    Inv size s := by
  refine Machine.invariant (fun _ => inv_init) (fun s i c r hI hok h => ?_)
    (fun s r hI _ h => ?_) hs
  · obtain ⟨-, h⟩ := Option.ite_none_left_eq_some.1 h
    exact inv_party hI hok h
  · obtain ⟨-, h⟩ := Option.ite_none_left_eq_some.1 h
    exact inv_manager hI h

/-- The records of one lock under MCS, all zero. -/
def zeroedRecords : McsShm := ⟨fun _ => ⟨0, 0, 0⟩, fun _ => ⟨0, 0, 0⟩⟩

/-- The manager with one lock and one thread beside it. -/
abbrev oneLock (T : Type) : Machine T (Choice McsShm) (Object McsShm) Caller WorkerPc :=
  machine Mcs.algorithm (.of 1 1) T

/-- Two threads that call `start` at once end the program. -/
example :
    ¬ ∀ s : State McsShm Bool, (oneLock Bool).system.Reachable s → s.mem.terminated = false := by
  intro h
  obtain ⟨s, hs, hp⟩ := LabelledSystem.exists_of_exec (fun _ _ => True)
    [.party false .start, .party true .start, .party false .goOn, .party false .goOn,
      .party false .goOn, .party true .goOn, .party true .goOn, .party true .goOn]
    (fun s => s.mem.terminated) (fresh_init Mcs.algorithm (.of 1 1) Bool zeroedRecords) (by decide)
  exact absurd (hp.symm.trans (h s hs)) (by decide)

end Steps

/-! ## `stop` -/

section Stop

variable {Shm T : Type} [DecidableEq T] {alg : GlobalLockAlgorithm Shm} {size : SystemSize}
  {s s' : State Shm T} {o o' : Object Shm} {th th' : Caller} {c : Choice Shm} {i : T}

/-- An upper bound for the accesses that are left of a scan. -/
def ScanPc.left (size : SystemSize) : ScanPc → ℕ
  | .checkGrant lid _ => 3 * (size.maxLocks.toNat - lid.toNat) + 3
  | .grantLock _ lid _ => 3 * (size.maxLocks.toNat - lid.toNat) + 2
  | .countGrant lid => 3 * (size.maxLocks.toNat - lid.toNat) + 1
  | .countScan _ => 0

/-- An upper bound for the accesses of the worker thread until it tests `stop_requested_`. -/
def WorkerPc.left (size : SystemSize) : WorkerPc → ℕ
  | .testStop => 0
  | .waiting | .sleep => 1
  | .scan p => p.left size + 2

lemma nextLock_left {lid : LockId} {anyWork : Bool} (hlid : lid < size.maxLocks) :
    (nextLock size lid anyWork).left size ≤ 3 * (size.maxLocks.toNat - lid.toNat) := by
  unfold nextLock
  rw [UInt32.lt_iff_toNat_lt] at hlid
  split_ifs with hlt
  · rw [UInt32.lt_iff_toNat_lt] at hlt
    have hbound := size.maxLocks.toNat_lt
    have hnext : (lid + 1).toNat = lid.toNat + 1 := by
      rw [UInt32.toNat_add, UInt32.toNat_one]
      omega
    show 3 * (size.maxLocks.toNat - (lid + 1).toNat) + 3 ≤ _
    omega
  · exact Nat.zero_le _

lemma scanStep_left {p p' : ScanPc} (hp : p.Ok size) (h : (scanStep alg size o p).2 = some p') :
    p'.left size < p.left size := by
  cases p with
  | checkGrant lid anyWork =>
      obtain rfl := Option.some.inj h
      have hnext : (nextLock size lid anyWork).left size ≤ _ := nextLock_left hp
      split_ifs
      · show _ < 3 * (size.maxLocks.toNat - lid.toNat) + 3
        omega
      · exact Nat.lt_succ_self _
  | grantLock grantee lid anyWork =>
      obtain rfl := Option.some.inj h
      have hnext : (nextLock size lid anyWork).left size ≤ _ := nextLock_left hp
      split_ifs
      · exact Nat.lt_succ_self _
      · show _ < 3 * (size.maxLocks.toNat - lid.toNat) + 2
        omega
  | countGrant lid =>
      obtain rfl := Option.some.inj h
      exact Nat.lt_succ_of_le (nextLock_left hp)
  | countScan anyWork => cases h

/-- A worker thread that has been told to stop ends, or comes closer to the test. -/
lemma workerStep_left {q q' : WorkerPc} (hscan : ∀ p, q = .scan p → p.Ok size)
    (hstop : o.stopRequested = true) (h : workerStep alg size o q = some (o', q')) :
    o' = { o with worker := .ended } ∨ SameMembers o o' ∧ q'.left size < q.left size := by
  cases q with
  | waiting =>
      obtain ⟨-, h⟩ := Option.ite_none_right_eq_some.1 h
      cases h
      exact .inr ⟨.refl, Nat.zero_lt_one⟩
  | testStop =>
      rw [workerStep, if_pos hstop] at h
      cases h
      exact .inl rfl
  | scan p =>
      cases h
      refine .inr ⟨scanStep_sameMembers p, ?_⟩
      split
      · rename_i p' hnext
        have hless := scanStep_left (hscan p rfl) hnext
        show p'.left size + 2 < p.left size + 2
        omega
      · show 1 < p.left size + 2
        omega
  | sleep =>
      cases h
      exact .inr ⟨.refl, Nat.zero_lt_one⟩

/-- The worker thread can go on until it ends. -/
lemma workerStep_isSome {q : WorkerPc} (h : o.worker = .running) :
    ∃ r, workerStep alg size o q = some r := by
  refine Option.isSome_iff_exists.1 ?_
  cases q with
  | waiting => simp [workerStep, h]
  | testStop =>
      simp only [workerStep]
      split_ifs <;> rfl
  | scan p => rfl
  | sleep => rfl

/-- What a step does while a caller is in `stop`: it is its own, that of the worker thread, or
changes nothing that matters for it. -/
lemma step_while_stopping {e : Turn T (Choice Shm)} (hI : Inv size s)
    (hi : (s.pc i).pc.lifecycle = true) (hok : OneAtATime s e)
    (hnext : (machine alg size T).system.next s e = some s') :
    e = .party i .goOn ∧ (∃ r, goOn alg size s.mem (s.pc i) = some r ∧ s' = s.move i r) ∨
      e = .manager ∧ s'.pc i = s.pc i ∧
        (∃ r, workerStep alg size s.mem s.mgr = some r ∧ s' = s.manage r) ∨
      e ≠ .party i .goOn ∧ e ≠ .manager ∧ s'.pc i = s.pc i ∧ s'.mgr = s.mgr ∧
        SameMembers s.mem s'.mem := by
  cases e with
  | manager =>
      obtain ⟨r, hr, rfl⟩ := Option.map_eq_some_iff.1 hnext
      obtain ⟨-, hr⟩ := Option.ite_none_left_eq_some.1 hr
      exact .inr (.inl ⟨rfl, rfl, r, hr, rfl⟩)
  | party k c =>
      obtain ⟨⟨o', th'⟩, hr, rfl⟩ := Option.map_eq_some_iff.1 hnext
      obtain ⟨-, hr⟩ := Option.ite_none_left_eq_some.1 hr
      by_cases hki : k = i
      · subst hki
        left
        cases c with
        | goOn => exact ⟨rfl, _, hr, rfl⟩
        | start | stop | runSingleScan | resetStats | others shm =>
            obtain ⟨hidle, -⟩ := Option.ite_none_right_eq_some.1 hr
            rw [hidle] at hi
            cases hi
      · have hother : (s.move k (o', th')).pc i = s.pc i := by simp [Ne.symm hki]
        refine .inr (.inr ⟨by simp [hki], by rintro ⟨⟩, hother, rfl, ?_⟩)
        obtain ⟨hsame, -, -⟩ | ⟨hc, -⟩ | ⟨hk, -⟩ := callerStep_effect hr
        · exact hsame
        · exact .refl
        · exact absurd (hI.one k i hk hi) hki

section Service

open LabelledSystem InfiniteRun

variable {r : (machine alg size T).system.InfiniteRun OneAtATime}

/-- A caller that is at one place of `stop` goes on, when no other step takes away what it needs
there. -/
lemma leadsTo_of_goOn (hfair : r.Fair (.party i .goOn)) {p : CallerPc} {E : Object Shm → Prop}
    {q : State Shm T → Prop} (hp : p.lifecycle = true)
    (hsame : ∀ o o', SameMembers o o' → E o → E o')
    (hworker : ∀ (s : State Shm T) r, Inv size s → E s.mem →
      workerStep alg size s.mem s.mgr = some r → E r.1)
    (hgo : ∀ s, Inv size s → (s.pc i).pc = p → E s.mem →
      ∃ r, goOn alg size s.mem (s.pc i) = some r ∧ q (s.move i r)) :
    r.LeadsTo (fun s => (s.pc i).pc = p ∧ E s.mem) q := by
  have hown : ∀ s s', Inv size s → (s.pc i).pc = p → E s.mem →
      (∃ r, goOn alg size s.mem (s.pc i) = some r ∧ s' = s.move i r) → q s' := by
    rintro s s' hI hpc hE ⟨a, ha, rfl⟩
    obtain ⟨b, hb, hq⟩ := hgo s hI hpc hE
    obtain rfl := Option.some.inj (ha.symm.trans hb)
    exact hq
  refine LeadsTo.of_fair hfair (fun s e s' hs hs' hok hnext => ?_)
    (fun s s' hs hs' hok hnext => ?_) fun s hs hs' => ?_
  all_goals have hI := inv_of_reachable hs
  all_goals obtain ⟨hpc, hE⟩ := hs'
  · rcases step_while_stopping hI (by rw [hpc]; exact hp) hok hnext with
      ⟨-, hmove⟩ | ⟨-, hpc', a, ha, rfl⟩ | ⟨-, -, hpc', -, hmem⟩
    · exact .inr (hown s s' hI hpc hE hmove)
    · exact .inl ⟨by rw [hpc', hpc], hworker s a hI hE ha⟩
    · exact .inl ⟨by rw [hpc', hpc], hsame _ _ hmem hE⟩
  · obtain ⟨a, ha, rfl⟩ := Option.map_eq_some_iff.1 hnext
    obtain ⟨-, ha⟩ := Option.ite_none_left_eq_some.1 ha
    exact hown s _ hI hpc hE ⟨a, ha, rfl⟩
  · obtain ⟨a, ha, -⟩ := hgo s hI hpc hE
    refine ⟨s.move i a, ?_⟩
    show ((if s.mem.terminated then none else goOn alg size s.mem (s.pc i)).map (s.move i)) = _
    rw [hI.alive, if_neg Bool.false_ne_true, ha, Option.map_some]

/-- The worker thread ends once it has been told to stop. -/
lemma join_leadsTo (hworker : r.Fair .manager) :
    r.LeadsTo (fun s => (s.pc i).pc = .stopJoin ∧ s.mem.worker = .running)
      fun s => (s.pc i).pc = .stopJoin ∧ s.mem.worker = .ended := by
  refine LeadsTo.rank (fun s => s.mgr.left size) fun k => ?_
  have hstep : ∀ s s' a, Inv size s → ((s.pc i).pc = .stopJoin ∧ s.mem.worker = .running) ∧
      s.mgr.left size = k → workerStep alg size s.mem s.mgr = some a → s' = s.manage a →
      ((s'.pc i).pc = .stopJoin ∧ s'.mem.worker = .ended) ∨
        ((s'.pc i).pc = .stopJoin ∧ s'.mem.worker = .running) ∧ s'.mgr.left size < k := by
    rintro s s' ⟨o', q'⟩ hI ⟨⟨hpc, hrunning⟩, hk⟩ ha rfl
    have hstop : s.mem.stopRequested = true := by
      have hphase := hI.busy i (by rw [hpc]; rfl)
      rw [hpc] at hphase
      exact hphase.2.2
    rcases workerStep_left hI.scans hstop ha with hended | ⟨hmem, hless⟩
    · exact .inl ⟨hpc, by rw [Config.manage_mem, hended]⟩
    · exact .inr ⟨⟨hpc, hmem.worker.trans hrunning⟩, hk ▸ hless⟩
  refine LeadsTo.of_fair hworker (fun s e s' hs hs' hok hnext => ?_)
    (fun s s' hs hs' hok hnext => ?_) fun s hs hs' => ?_
  all_goals have hI := inv_of_reachable hs
  · obtain ⟨⟨hpc, hrunning⟩, hk⟩ := hs'
    rcases step_while_stopping hI (by rw [hpc]; rfl) hok hnext with
      ⟨-, a, ha, rfl⟩ | ⟨-, -, a, ha, hmove⟩ | ⟨-, -, hpc', hmgr, hmem⟩
    · -- `join` waits for the worker thread
      simp [goOn, hpc, hrunning] at ha
    · exact .inr (hstep s s' a hI ⟨⟨hpc, hrunning⟩, hk⟩ ha hmove)
    · exact .inl ⟨⟨by rw [hpc', hpc], hmem.worker.trans hrunning⟩, by rw [hmgr, hk]⟩
  · obtain ⟨a, ha, rfl⟩ := Option.map_eq_some_iff.1 hnext
    obtain ⟨-, ha⟩ := Option.ite_none_left_eq_some.1 ha
    exact hstep s _ a hI hs' ha rfl
  · obtain ⟨a, ha⟩ := workerStep_isSome hs'.1.2
    refine ⟨s.manage a, ?_⟩
    show ((if s.mem.terminated then none else workerStep alg size s.mem s.mgr).map s.manage) = _
    rw [hI.alive, if_neg Bool.false_ne_true, ha, Option.map_some]

/-- **`stop` returns, and the worker thread has ended.**  In an infinite run with at most one
call of `start` or `stop` at a time, and fair to the worker thread and to the caller, a call of
`stop` that has passed its check returns `SUCCESS`, and then there is no worker thread left and
`is_running` says so. -/
theorem stop_returns (hworker : r.Fair .manager) (hcaller : r.Fair (.party i .goOn)) :
    r.LeadsTo (fun s => (s.pc i).pc.stopping = true) fun s =>
      s.pc i = ⟨.idle, some .success⟩ ∧ s.mem.running = false ∧ s.mem.worker = .none ∧
        s.mgr = .waiting := by
  have hplain : ∀ {p : CallerPc} {q : State Shm T → Prop}, p.lifecycle = true →
      (∀ s, Inv size s → (s.pc i).pc = p →
        ∃ r, goOn alg size s.mem (s.pc i) = some r ∧ q (s.move i r)) →
      r.LeadsTo (fun s => (s.pc i).pc = p) q := by
    intro p q hp hgo
    refine (leadsTo_of_goOn (E := fun _ => True) hcaller hp (fun _ _ _ _ => trivial)
      (fun _ _ _ _ _ => trivial) fun s hI hpc _ => hgo s hI hpc).mono (fun s _ hpc => ?_)
      fun _ _ hq => hq
    exact ⟨hpc, trivial⟩
  have hrunning : r.LeadsTo (fun s => (s.pc i).pc = .stopRunning) fun s =>
      s.pc i = ⟨.idle, some .success⟩ ∧ s.mem.running = false ∧ s.mem.worker = .none ∧
        s.mgr = .waiting := by
    refine hplain rfl fun s hI hpc => ⟨_, by rw [goOn, hpc], ?_⟩
    have hphase := hI.busy i (by rw [hpc]; rfl)
    rw [hpc] at hphase
    exact ⟨by simp, rfl, hphase.2, hI.worker (by rw [hphase.2]; rintro ⟨⟩)⟩
  have hended : r.LeadsTo (fun s => (s.pc i).pc = .stopJoin ∧ s.mem.worker = .ended) fun s =>
      (s.pc i).pc = .stopRunning := by
    refine leadsTo_of_goOn (E := fun o => o.worker = .ended) hcaller rfl
      (fun o o' hmem hw => hmem.worker.trans hw) (fun s a hI hw ha => ?_)
      fun s hI hpc hw => ⟨({ s.mem with worker := .none }, { s.pc i with pc := .stopRunning }),
        by simp [goOn, hpc, hw], by simp⟩
    -- an ended thread does nothing
    rw [hI.worker (by rw [hw]; rintro ⟨⟩)] at ha
    simp [workerStep, hw] at ha
  have hjoin : r.LeadsTo (fun s => (s.pc i).pc = .stopJoin) fun s =>
      (s.pc i).pc = .stopRunning := by
    refine (((join_leadsTo hworker).trans hended).cases hended).mono (fun s hs hpc => ?_)
      fun _ _ hq => hq
    have hphase := (inv_of_reachable hs).busy i (by rw [hpc]; rfl)
    rw [hpc] at hphase
    cases hw : s.mem.worker with
    | none => exact absurd hw hphase.2.1
    | running => exact .inl ⟨hpc, rfl⟩
    | ended => exact .inr ⟨hpc, rfl⟩
  have hjoinable : r.LeadsTo (fun s => (s.pc i).pc = .stopJoinable) fun s =>
      (s.pc i).pc = .stopJoin := by
    refine hplain rfl fun s hI hpc => ⟨_, by rw [goOn, hpc], ?_⟩
    have hphase := hI.busy i (by rw [hpc]; rfl)
    rw [hpc] at hphase
    simp [hphase.2.1]
  have hrequest : r.LeadsTo (fun s => (s.pc i).pc = .stopRequest) fun s =>
      (s.pc i).pc = .stopJoinable :=
    hplain rfl fun s _ hpc => ⟨_, by rw [goOn, hpc], by simp⟩
  have hfromJoin := hjoin.trans hrunning
  have hfromJoinable := hjoinable.trans hfromJoin
  refine ((hrequest.trans hfromJoinable).cases
    (hfromJoinable.cases (hfromJoin.cases hrunning))).mono (fun s _ hstopping => ?_)
    fun _ _ hq => hq
  cases hpc : (s.pc i).pc <;> simp [hpc, CallerPc.stopping] at hstopping ⊢

/-- One thread starts the lock manager and stops it, again and again. -/
def startAndStop (t : ℕ) : Turn Unit (Choice McsShm) :=
  match t % 8 with
  | 0 => .party () .start
  | 1 | 2 | 3 | 7 => .party () .goOn
  | 4 => .party () .stop
  | _ => .manager

lemma startAndStop_again (c t : ℕ) (hc : c < 8) :
    ∃ t', t ≤ t' ∧ startAndStop t' = startAndStop c := by
  refine ⟨8 * t + c, by omega, ?_⟩
  have hmod : (8 * t + c) % 8 = c % 8 := by omega
  rw [startAndStop, startAndStop, hmod]

/-- A run of one thread that is fair. -/
def startAndStopRun : (oneLock Unit).system.InfiniteRun OneAtATime :=
  .ofSchedule (fresh_init Mcs.algorithm (.of 1 1) Unit zeroedRecords) startAndStop

/-- The first call of `stop` returns. -/
theorem stop_returns_once : ∃ t, 5 ≤ t ∧
    (startAndStopRun.state t).pc () = ⟨.idle, some .success⟩ ∧
    (startAndStopRun.state t).mem.worker = .none := by
  obtain ⟨t, ht, hpc, -, hworker, -⟩ := stop_returns (i := ()) (r := startAndStopRun)
    (ofSchedule_fair (fun _ => trivial) fun t => startAndStop_again 5 t (by decide))
    (ofSchedule_fair (fun _ => trivial) fun t => startAndStop_again 1 t (by decide)) 5 (by decide)
  exact ⟨t, ht, hpc, hworker⟩

end Service

end Stop

end CxlLock.LockManager
