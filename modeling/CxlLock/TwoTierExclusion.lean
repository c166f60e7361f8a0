import CxlLock.Cas.Exclusion
import CxlLock.Lib.Simulation
import CxlLock.Mcs.Exclusion
import CxlLock.Qspinlock.Exclusion
import CxlLock.TwoTierThreads

/-!
# Threads on one lock (`two_tier_lock.cpp`)

`Mcs.Exclusion` and `Qspinlock.Exclusion` are about nodes, each of which makes one request at a
time.  In the running program the requests come from threads, any number of them on a node, and
the local mutexes see to it that one of them at a time acts for its node.

`NodeRelated` says at which place of the node's program the node is: where the thread is that
has the local mutex of the lock.  The threads simulate the nodes (`threads_simulate_nodes`), as
long as all calls are on one lock and no poll gives up.  The lock manager takes its turns on the
other locks too; they change nothing, since nobody has requested these locks
(`IdleElsewhere`).

So the exclusion of the nodes carries over to all threads of all nodes (`threads_exclusive`).
-/

namespace CxlLock.TwoTier

open Transition

/-! ## The program of a node on one lock -/

/-- The nodes, with one request at a time each, and the lock manager on lock `l`. -/
def nodeMachine (G : GlobalProgram) (size : SystemSize) (l : LockId) :
    Machine NodeId Unit G.Mem G.Pc G.ManagerPc where
  start m := l < size.maxLocks ∧ G.initial size m
  idle := G.idle
  managerIdle := G.managerIdle
  party n _ m p := if n < size.nodeCount then some (G.node l n m p) else none
  manager m q := some (G.manager size l m q)

/-- A poll goes on after a turn without a grant. -/
def PollsOn (call : Cas.Call) (spinCount : UInt32) (elapsedMs : UInt64) : Prop :=
  if call.timeoutMs > 0 then elapsedMs < call.timeoutMs else spinCount ≤ 1000

instance (call : Cas.Call) (k : UInt32) (ms : UInt64) : Decidable (PollsOn call k ms) :=
  inferInstanceAs (Decidable (if call.timeoutMs > 0 then ms < call.timeoutMs else k ≤ 1000))

/-- The condition on a step: calls are on lock `l`, or on a lock that does not exist, and no poll
gives up. -/
def OnOneLock (G : GlobalProgram) {T : Type} (size : SystemSize) (l : LockId) (s : State G T) :
    Turn (NodeId × T) Cas.Choice → Prop
  | .party _ (.acquire j _) | .party _ (.tryAcquire j) => j = l ∨ size.maxLocks ≤ j
  | .party i (.clock elapsedMs) =>
      match (s.pc i).pc with
      | .request _ call k _ => PollsOn call k elapsedMs
      | .idle | .lockLocal _ _ | .cancel _ _ _ | .abandon _ _ | .releaseGlobal _ _
      | .releaseLocal _ => True
  | .party _ (.release _) | .manager => True

/-- What keeps the manager's turns on the other locks from doing anything. -/
structure IdleElsewhere (G : GlobalProgram) (size : SystemSize) (l : LockId)
    (quiet : G.Mem → Prop) (scanning : G.ManagerPc → Prop) : Prop where
  init : ∀ m, G.initial size m → quiet m
  node : ∀ m n p, quiet m → quiet (G.node l n m p).1
  manager : ∀ m q, quiet m → quiet (G.manager size l m q).1
  begins : scanning G.managerIdle
  other : ∀ m q j, quiet m → scanning q → j ≠ l → j < size.maxLocks →
    (G.manager size j m q).1 = m ∧ scanning (G.manager size j m q).2

section Steps

variable {G : GlobalProgram} {T : Type}

/-- Where a thread with the local mutex of the lock is in the program of its node. -/
def Thread.place (th : Thread G.Pc) : G.Pc :=
  match th.pc with
  | .request _ _ _ p | .cancel _ _ p | .releaseGlobal _ p => p
  | .abandon _ _ | .releaseLocal _ => G.idle
  | .idle | .lockLocal _ _ => G.entered

/-- The thread has to do with no other lock than `l`, and withdraws no request. -/
structure Thread.Only (l : LockId) (th : Thread G.Pc) : Prop where
  has : ∀ j, th.Has j → j = l
  calls : ∀ j call, th.pc = .lockLocal j call → j = l
  goesOn : ∀ j rc p, th.pc ≠ .cancel j rc p

/-- What a step of a thread does, seen from the program of its node. -/
inductive NodeEffect (G : GlobalProgram) (l : LockId) (n : NodeId) (m : Memory G T)
    (th : Thread G.Pc) : Memory G T × Thread G.Pc → Prop
  /-- Nothing. -/
  | silent {r : Memory G T × Thread G.Pc} : r.1.shm = m.shm → (r.2.Has l ↔ th.Has l) →
      (th.Has l → r.2.place = th.place) → NodeEffect G l n m th r
  /-- The thread has taken the local mutex. -/
  | begins {r : Memory G T × Thread G.Pc} : r.1.shm = m.shm →
      (m.localLocks n).owner l = none → r.2.place = G.idle → NodeEffect G l n m th r
  /-- One access. -/
  | access {r : Memory G T × Thread G.Pc} : th.Has l → r.2.Has l →
      (r.1.shm, r.2.place) = G.node l n m.shm th.place → NodeEffect G l n m th r
  /-- The thread has given the local mutex back. -/
  | ends {r : Memory G T × Thread G.Pc} : th.Has l → ¬ r.2.Has l → th.place = G.idle →
      r.1.shm = m.shm → NodeEffect G l n m th r

variable {size : SystemSize} {l : LockId} {i : NodeId × T} {c : Cas.Choice} {m : Memory G T}
  {th : Thread G.Pc} {r : Memory G T × Thread G.Pc}

lemma pollAgain_of_pollsOn {j : LockId} {call : Cas.Call} {k : UInt32} {elapsedMs : UInt64}
    (h : PollsOn call k elapsedMs) (p : G.Pc) :
    pollAgain G j call k elapsedMs p = .request j call (k + 1) p := by
  unfold PollsOn at h
  unfold pollAgain
  split_ifs at h ⊢ with htimeout hover hspins
  · exact absurd h (UInt64.not_lt.2 hover)
  · rfl
  · exact absurd hspins (UInt32.not_lt.2 h)
  · rfl

namespace Thread.Only

/-- A thread that goes on with a call on `l`. -/
lemma goto (h : th.Only l) {pc : ThreadPc G.Pc} (hmutex : ∀ j, pc.mutex = some j → j = l)
    (hcalls : ∀ j call, pc = .lockLocal j call → j = l) (hcancel : ∀ j rc p, pc ≠ .cancel j rc p) :
    (th.goto pc).Only l where
  has j hj := hj.elim (hmutex j) fun hin => h.has j (.inr hin)
  calls := hcalls
  goesOn := hcancel

/-- A thread that goes on with the local mutex of `l`. -/
lemma holding (h : th.Only l) {pc : ThreadPc G.Pc} (hmutex : pc.mutex = some l)
    (hcancel : ∀ j rc p, pc ≠ .cancel j rc p) : (th.goto pc).Only l := by
  refine h.goto (fun j hj => Option.some.inj (hj.symm.trans hmutex)) (fun j call hj => ?_) hcancel
  rw [hj] at hmutex
  cases hmutex

lemma finish (h : th.Only l) (rc : LockResult) : (th.finish rc).Only l where
  has j hj := h.has j (.inr (hj.resolve_left (by rintro ⟨⟩)))
  calls := by rintro _ _ ⟨⟩
  goesOn := by rintro _ _ _ ⟨⟩

lemma setInside (h : th.Only l) (b : Bool) : (th.setInside l b).Only l where
  has j hj := by
    rcases hj with hj | hj
    · exact h.has j (.inl hj)
    · rw [Thread.setInside_inside] at hj
      split_ifs at hj with hjl
      · exact hjl
      · exact h.has j (.inr hj)
  calls := h.calls
  goesOn := h.goesOn

end Thread.Only

variable [DecidableEq T]

omit [DecidableEq T] in
/-- The begin of a call, and a call that is refused. -/
lemma beginCall_nodeEffect (hpc : th.pc = .idle) (honly : th.Only l)
    (hok : ∀ j ms, c = .acquire j ms ∨ c = .tryAcquire j → j = l ∨ size.maxLocks ≤ j)
    (hr : beginCall G size m th c = some r) : r.2.Only l ∧ NodeEffect G l i.1 m th r := by
  have hstays : ∀ th' : Thread G.Pc, th'.pc.mutex = none → th'.inside = th.inside →
      th'.place = G.entered → NodeEffect G l i.1 m th (m, th') := by
    intro th' hmutex hinside hplace
    refine .silent rfl ?_ fun _ => ?_
    · rw [Thread.Has, Thread.Has, hmutex, hinside, hpc]
      rfl
    · rw [hplace, Thread.place, hpc]
  have hacquire : ∀ j call, (j = l ∨ size.maxLocks ≤ j) →
      (if j ≥ size.maxLocks then some (m, th.finish .errorInvalidParam)
        else some (m, th.goto (.lockLocal j call))) = some r →
      r.2.Only l ∧ NodeEffect G l i.1 m th r := by
    intro j call hj hr
    split_ifs at hr with hlt <;> cases hr
    · exact ⟨honly.finish _, hstays _ rfl rfl rfl⟩
    · refine ⟨honly.goto (by rintro _ ⟨⟩) ?_ (by rintro _ _ _ ⟨⟩), hstays _ rfl rfl rfl⟩
      rintro _ _ ⟨⟩
      exact hj.resolve_right hlt
  cases c with
  | acquire j ms => exact hacquire j _ (hok j ms (.inl rfl)) hr
  | tryAcquire j => exact hacquire j _ (hok j 0 (.inr rfl)) hr
  | release j =>
      obtain ⟨hin, hr⟩ := Option.ite_none_right_eq_some.1 hr
      cases hr
      obtain rfl := honly.has j (.inr hin)
      refine ⟨(honly.setInside false).holding rfl (by rintro _ _ _ ⟨⟩),
        .silent rfl ⟨fun _ => .inr hin, fun _ => .inl rfl⟩ fun _ => ?_⟩
      show G.entered = th.place
      rw [Thread.place, hpc]
  | clock ms => cases hr

lemma threadStep_nodeEffect (hready : (m.localLocks i.1).Ready size.maxLocks)
    (hl : l < size.maxLocks) (honly : th.Only l)
    (hapart : th.pc.mutex = some l → th.inside l = false)
    (hok : ∀ j ms, c = .acquire j ms ∨ c = .tryAcquire j → j = l ∨ size.maxLocks ≤ j)
    (hpolls : ∀ j call k p ms, th.pc = .request j call k p → c = .clock ms → PollsOn call k ms)
    (hr : threadStep G size i.1 i.2 c m th = some r) :
    r.2.Only l ∧ NodeEffect G l i.1 m th r := by
  cases hpc : th.pc with
  | idle =>
      rw [threadStep, hpc] at hr
      exact beginCall_nodeEffect hpc honly hok hr
  | lockLocal j call =>
      obtain rfl := honly.calls j call hpc
      rw [threadStep, hpc] at hr
      obtain ⟨⟨rc, a⟩, htake, rfl⟩ := Option.map_eq_some_iff.1 hr
      rcases Cas.takeLocal_cases hready hl htake with ⟨hfree, rfl, rfl⟩ | ⟨-, hrc, rfl⟩
      · refine ⟨?_, .begins rfl hfree rfl⟩
        exact honly.holding rfl (by rintro _ _ _ ⟨⟩)
      · show (if rc = .success then _ else _ : Thread G.Pc).Only _ ∧ _
        rw [if_neg hrc]
        refine ⟨honly.finish rc, .silent rfl ?_ fun _ => ?_⟩
        · rw [Thread.Has, Thread.Has, hpc]
          rfl
        · show G.entered = th.place
          rw [Thread.place, hpc]
  | request j call k p =>
      have hhas : th.Has j := .inl (by rw [hpc]; rfl)
      obtain rfl := honly.has j hhas
      have hplace : th.place = p := by rw [Thread.place, hpc]
      simp only [threadStep, hpc] at hr
      split_ifs at hr with hentered hturn
      · cases hr
        refine ⟨(honly.setInside true).finish _, .access hhas (.inr (by simp)) ?_⟩
        rw [hplace]
        exact Prod.ext rfl hentered.symm
      · cases c with
        | clock ms =>
            cases hr
            rw [pollAgain_of_pollsOn (hpolls j call k p ms hpc rfl)]
            refine ⟨honly.holding rfl (by rintro _ _ _ ⟨⟩), .access hhas (.inl rfl) ?_⟩
            rw [hplace]
            rfl
        | acquire | tryAcquire | release => cases hr
      · cases hr
        refine ⟨honly.holding rfl (by rintro _ _ _ ⟨⟩), .access hhas (.inl rfl) ?_⟩
        rw [hplace]
        rfl
  | cancel j rc p => exact absurd hpc (honly.goesOn j rc p)
  | abandon j rc =>
      have hmutex : th.pc.mutex = some j := by rw [hpc]; rfl
      obtain rfl := honly.has j (.inl hmutex)
      simp only [threadStep, hpc] at hr
      cases hr
      refine ⟨honly.finish rc, .ends (.inl hmutex) ?_ (by rw [Thread.place, hpc]) rfl⟩
      rintro (hj | hj)
      · cases hj
      · exact Bool.false_ne_true ((hapart hmutex).symm.trans hj)
  | releaseGlobal j p =>
      have hmutex : th.pc.mutex = some j := by rw [hpc]; rfl
      obtain rfl := honly.has j (.inl hmutex)
      have hplace : th.place = p := by rw [Thread.place, hpc]
      simp only [threadStep, hpc] at hr
      cases hr
      have hgoto : ∀ pc : ThreadPc G.Pc, pc.mutex = some j →
          (th.goto pc).place = (G.node j i.1 m.shm p).2 → (∀ k rc q, pc ≠ .cancel k rc q) →
          (th.goto pc).Only j ∧
            NodeEffect G j i.1 m th ({ m with shm := (G.node j i.1 m.shm p).1 }, th.goto pc) := by
        intro pc hpcm hpcp hcancel
        refine ⟨honly.holding hpcm hcancel, .access (.inl hmutex) (.inl hpcm) ?_⟩
        rw [hplace]
        exact Prod.ext rfl hpcp
      split_ifs with hidle hcode
      · exact hgoto _ rfl rfl (by rintro _ _ _ ⟨⟩)
      · exact hgoto _ rfl (not_not.1 hidle).symm (by rintro _ _ _ ⟨⟩)
      · exact hgoto _ rfl (not_not.1 hidle).symm (by rintro _ _ _ ⟨⟩)
  | releaseLocal j =>
      have hmutex : th.pc.mutex = some j := by rw [hpc]; rfl
      obtain rfl := honly.has j (.inl hmutex)
      simp only [threadStep, hpc] at hr
      cases hr
      refine ⟨honly.finish _, .ends (.inl hmutex) ?_ (by rw [Thread.place, hpc]) rfl⟩
      rintro (hj | hj)
      · cases hj
      · exact Bool.false_ne_true ((hapart hmutex).symm.trans hj)

end Steps

/-! ## The threads simulate the nodes -/

section Simulation

variable {G : GlobalProgram} {T : Type} [DecidableEq T] {size : SystemSize} {l : LockId}
  {quiet : G.Mem → Prop} {scanning : G.ManagerPc → Prop} {s s' : State G T}

/-- The local mutexes are right in every run. -/
lemma mutexes_of_reachable (hs : (machine G size).system.Reachable s) : Mutexes size s := by
  refine Machine.invariant (fun s => Mutexes.init) (fun s i c r h _ hr => ?_)
    (fun s q h _ hq => ?_) hs
  · obtain ⟨-, hr⟩ := Option.ite_none_right_eq_some.1 hr
    exact h.step (threadStep_effect (h.ready i.1) (h.lock_lt i) hr)
  · obtain rfl := Option.some.inj hq
    obtain ⟨hready, hlock, hlt, howner, hapart⟩ := h
    exact ⟨hready, hlock, hlt, howner, hapart⟩

/-- Every node is where its thread with the local mutex is, and the lock manager where it is in
its turn on the lock. -/
structure NodeRelated (size : SystemSize) (l : LockId) (quiet : G.Mem → Prop)
    (scanning : G.ManagerPc → Prop) (s : State G T)
    (a : Config NodeId G.Mem G.Pc G.ManagerPc) : Prop where
  mem : a.mem = s.mem.shm
  placed : ∀ i, (s.pc i).Has l → a.pc i.1 = (s.pc i).place
  unplaced : ∀ n, (∀ t, ¬ (s.pc (n, t)).Has l) → a.pc n = G.idle
  mgr : a.mgr = if s.mgr.1 = l then s.mgr.2 else G.managerIdle
  turn : s.mgr.1 < size.maxLocks ∧ (s.mgr.1 ≠ l → scanning s.mgr.2)
  only : ∀ i, (s.pc i).Only l
  quiet : quiet s.mem.shm

namespace NodeRelated

variable {a : Config NodeId G.Mem G.Pc G.ManagerPc} {i : NodeId × T}
  {r : Memory G T × Thread G.Pc}

/-- The relation after a step of a thread, once the place of its node is right. -/
lemma move (h : NodeRelated size l quiet scanning s a)
    {a' : Config NodeId G.Mem G.Pc G.ManagerPc} (honly : r.2.Only l) (hquiet : quiet r.1.shm)
    (hmem : a'.mem = r.1.shm) (hmgr : a'.mgr = a.mgr) (hother : ∀ n, n ≠ i.1 → a'.pc n = a.pc n)
    (hplaced : r.2.Has l → a'.pc i.1 = r.2.place)
    (hunplaced : ¬ r.2.Has l → (∀ t, (i.1, t) ≠ i → ¬ (s.pc (i.1, t)).Has l) →
      a'.pc i.1 = G.idle)
    (hhas : ∀ t, (i.1, t) ≠ i → (s.pc (i.1, t)).Has l → a'.pc i.1 = (s.pc (i.1, t)).place) :
    NodeRelated size l quiet scanning (s.move i r) a' := by
  constructor
  · exact hmem
  · rintro ⟨n, t⟩ hk
    rw [Config.move_pc] at hk ⊢
    split_ifs at hk ⊢ with hki
    · subst hki
      exact hplaced hk
    · by_cases hn : n = i.1
      · subst hn
        exact hhas t hki hk
      · exact (hother n hn).trans (h.placed (n, t) hk)
  · intro n hn
    by_cases hni : n = i.1
    · subst hni
      refine hunplaced (by simpa using hn i.2) fun t ht => ?_
      simpa [ht] using hn t
    · refine (hother n hni).trans (h.unplaced n fun t => ?_)
      have hti : (n, t) ≠ i := fun hti => hni (congrArg Prod.fst hti)
      simpa [hti] using hn t
  · exact hmgr.trans h.mgr
  · exact h.turn
  · intro k
    rw [Config.move_pc]
    split_ifs
    · exact honly
    · exact h.only k
  · exact hquiet

/-- A step of a thread is an access of its node, or nothing. -/
lemma party (h : NodeRelated size l quiet scanning s a) (hm : Mutexes size s)
    (hidle : IdleElsewhere G size l quiet scanning) (hi : i.1 < size.nodeCount)
    (honly : r.2.Only l) (he : NodeEffect G l i.1 s.mem (s.pc i) r) :
    ∃ a', ((nodeMachine G size l).system.startingAt a).ReachableWhen (fun _ _ => True) a' ∧
      NodeRelated size l quiet scanning (s.move i r) a' := by
  -- no other thread of the node has the local mutex when this one does
  have halone : (s.pc i).Has l → ∀ t, (i.1, t) ≠ i → ¬ (s.pc (i.1, t)).Has l :=
    fun hhas t ht hk => ht (Prod.ext rfl (hm.unique hk hhas))
  cases he with
  | silent hshm hhas hplace =>
      refine ⟨a, LabelledSystem.reachableWhen_self _ _ a, h.move honly (hshm ▸ h.quiet)
        (h.mem.trans hshm.symm) rfl (fun _ _ => rfl) (fun hr => ?_) (fun hr hk => ?_)
        fun t _ hk => h.placed (i.1, t) hk⟩
      · rw [hplace (hhas.1 hr)]
        exact h.placed i (hhas.1 hr)
      · refine h.unplaced i.1 fun t ht => ?_
        by_cases hti : (i.1, t) = i
        · exact hr (hhas.2 (hti ▸ ht))
        · exact hk t hti ht
  | begins hshm hfree hplace =>
      have hnone : ∀ t, ¬ (s.pc (i.1, t)).Has l := fun t ht =>
        Option.some_ne_none _ ((hm.owner (i.1, t) l ht).symm.trans hfree)
      have hpc := h.unplaced i.1 hnone
      exact ⟨a, LabelledSystem.reachableWhen_self _ _ a, h.move honly (hshm ▸ h.quiet)
        (h.mem.trans hshm.symm) rfl (fun _ _ => rfl) (fun _ => hpc.trans hplace.symm)
        (fun _ _ => hpc) fun t _ hk => absurd hk (hnone t)⟩
  | access hhas hhas' hnode =>
      have hpc := h.placed i hhas
      obtain ⟨hmem, hplace⟩ := Prod.mk.inj hnode
      have hnext : (nodeMachine G size l).system.next a (.party i.1 .unit) =
          some (a.move i.1 (r.1.shm, r.2.place)) := by
        simp [Machine.system, nodeMachine, hi, h.mem, hpc, hnode]
      refine ⟨_, LabelledSystem.reachableWhen_one trivial hnext, h.move honly ?_ rfl rfl
        (fun n hn => ?_) (fun _ => ?_) (fun hr => absurd hhas' hr) fun t ht hk =>
          absurd hk (halone hhas t ht)⟩
      · rw [hmem]
        exact hidle.node _ _ _ h.quiet
      · rw [Config.move_pc, if_neg hn]
      · rw [Config.move_pc, if_pos rfl]
  | ends hhas hout hplace hshm =>
      have hpc := (h.placed i hhas).trans hplace
      exact ⟨a, LabelledSystem.reachableWhen_self _ _ a, h.move honly (hshm ▸ h.quiet)
        (h.mem.trans hshm.symm) rfl (fun _ _ => rfl) (fun hr => absurd hr hout) (fun _ _ => hpc)
        fun t ht hk => absurd hk (halone hhas t ht)⟩

/-- A step of the lock manager on the lock is one of its turn, and on another lock nothing. -/
lemma manager (h : NodeRelated size l quiet scanning s a)
    (hidle : IdleElsewhere G size l quiet scanning) {q : Memory G T × LockId × G.ManagerPc}
    (hq : (machine G size).manager s.mem s.mgr = some q) :
    ∃ a', ((nodeMachine G size l).system.startingAt a).ReachableWhen (fun _ _ => True) a' ∧
      NodeRelated size l quiet scanning (s.manage q) a' := by
  obtain rfl := Option.some.inj hq
  obtain ⟨hlt, hscanning⟩ := h.turn
  have hturn : ∀ p, (s.mgr.1 ≠ l → scanning p) →
      (nextTurn G size s.mgr.1 p).1 < size.maxLocks ∧
        ((nextTurn G size s.mgr.1 p).1 ≠ l → scanning (nextTurn G size s.mgr.1 p).2) ∧
        (if (nextTurn G size s.mgr.1 p).1 = l then (nextTurn G size s.mgr.1 p).2
          else G.managerIdle) = if s.mgr.1 = l then p else G.managerIdle := by
    intro p hp
    unfold nextTurn
    by_cases hend : p = G.managerIdle
    · subst hend
      rw [if_pos rfl, ite_self, ite_self]
      refine ⟨?_, fun _ => hidle.begins, rfl⟩
      dsimp only
      split_ifs with hmore
      · exact hmore
      · exact UInt32.lt_of_le_of_lt UInt32.zero_le hlt
    · rw [if_neg hend]
      exact ⟨hlt, hp, rfl⟩
  by_cases hl : s.mgr.1 = l
  · -- the manager's turn on the lock
    have hmgr : a.mgr = s.mgr.2 := h.mgr.trans (if_pos hl)
    have hnext : (nodeMachine G size l).system.next a .manager =
        some (a.manage (G.manager size l s.mem.shm s.mgr.2)) := by
      simp [Machine.system, nodeMachine, h.mem, hmgr]
    obtain ⟨hlt', hscanning', hmgr'⟩ :=
      hturn (G.manager size s.mgr.1 s.mem.shm s.mgr.2).2 fun hne => absurd hl hne
    refine ⟨_, LabelledSystem.reachableWhen_one trivial hnext, ?_, h.placed, h.unplaced, ?_,
      ⟨hlt', hscanning'⟩, h.only, ?_⟩
    · rw [← hl]
      rfl
    · refine Eq.trans ?_ hmgr'.symm
      rw [if_pos hl, Config.manage_mgr, hl]
    · rw [Config.manage_mem, hl]
      exact hidle.manager _ _ h.quiet
  · -- a turn on a lock that nobody has requested
    obtain ⟨hsame, hscan⟩ := hidle.other _ _ _ h.quiet (hscanning hl) hl hlt
    obtain ⟨hlt', hscanning', hmgr'⟩ :=
      hturn (G.manager size s.mgr.1 s.mem.shm s.mgr.2).2 fun _ => hscan
    refine ⟨a, LabelledSystem.reachableWhen_self _ _ a, h.mem.trans hsame.symm, h.placed,
      h.unplaced, ?_, ⟨hlt', hscanning'⟩, h.only, ?_⟩
    · refine h.mgr.trans (Eq.trans ?_ hmgr'.symm)
      rw [if_neg hl, if_neg hl]
    · rw [Config.manage_mem, hsame]
      exact h.quiet

end NodeRelated

/-- **Threads over nodes.**  The threads of the nodes with their local mutexes, on one lock and
without timeouts, simulate the nodes with one request at a time each. -/
theorem threads_simulate_nodes (hidle : IdleElsewhere G size l quiet scanning)
    (hl : l < size.maxLocks) :
    Simulation (machine (T := T) G size).system (OnOneLock G size l)
      (nodeMachine G size l).system (fun _ _ => True) (NodeRelated size l quiet scanning) where
  init s hs := by
    obtain ⟨⟨hmem, -⟩, hpc, hmgr⟩ := hs
    replace hpc : ∀ i, s.pc i = ⟨.idle, fun _ => false, none⟩ := hpc
    replace hmgr : s.mgr = (0, G.managerIdle) := hmgr
    have hnone : ∀ i j, ¬ (s.pc i).Has j := fun i j => by simp [Thread.Has, hpc]
    refine ⟨(nodeMachine G size l).initial s.mem.shm, Machine.initial_init ⟨hl, hmem⟩, rfl,
      fun i hi => absurd hi (hnone i l), fun n _ => rfl, ?_, ⟨?_, fun _ => ?_⟩, fun i => ?_,
      hidle.init _ hmem⟩
    · rw [hmgr, ite_self]
      rfl
    · rw [hmgr]
      exact UInt32.lt_of_le_of_lt UInt32.zero_le hl
    · rw [hmgr]
      exact hidle.begins
    · refine ⟨fun j hj => absurd hj (hnone i j), fun j call hj => ?_, fun j rc p hj => ?_⟩
      · simp [hpc] at hj
      · simp [hpc] at hj
  step s a e s' hs _ h hok hnext := by
    have hm := mutexes_of_reachable hs.reachable
    cases e with
    | party i c =>
        obtain ⟨r, hr, rfl⟩ := Option.map_eq_some_iff.1 hnext
        obtain ⟨hi, hr⟩ := Option.ite_none_right_eq_some.1 hr
        have hcalls : ∀ j ms, c = .acquire j ms ∨ c = .tryAcquire j →
            j = l ∨ size.maxLocks ≤ j := by
          rintro j ms (rfl | rfl)
          · exact hok
          · exact hok
        have hpolls : ∀ j call k p ms, (s.pc i).pc = .request j call k p → c = .clock ms →
            PollsOn call k ms := by
          rintro j call k p ms hpc rfl
          simpa only [OnOneLock, hpc] using hok
        obtain ⟨honly, he⟩ := threadStep_nodeEffect (hm.ready i.1) hl (h.only i)
          (hm.apart i l) hcalls hpolls hr
        exact h.party hm hidle hi honly he
    | manager =>
        replace hnext : ((machine G size).manager s.mem s.mgr).map s.manage = some s' := hnext
        obtain ⟨q, hq, rfl⟩ := Option.map_eq_some_iff.1 hnext
        exact h.manager hidle hq

end Simulation

/-! ## The two queue locks -/

section QueueLocks

variable {size : SystemSize} {l : LockId}

/-- No other lock has a first entry. -/
def McsQuiet (l : LockId) (m : Mcs.Memory) : Prop :=
  ∀ j < maxLockCount, j ≠ l → (m.shm.entry j).headNode = invalidNodeId

/-- The lock word of every other lock is zero. -/
def QspinQuiet (l : LockId) (shm : QspinShm) : Prop :=
  ∀ j < maxLockCount, j ≠ l → (shm.entry j).lockWord = 0

lemma initializes (size : SystemSize) :
    ¬ (size.nodeCount = 0 ∨ maxNodeCount < size.nodeCount) :=
  not_or.2 ⟨size.nodeCount_ne_zero, UInt32.not_lt.2 size.nodeCount_le⟩

lemma mcs_nodeStep_headNode {j : LockId} (hjl : j ≠ l) (n : NodeId) (m : Mcs.Memory)
    (p : Mcs.NodePc) :
    ((Mcs.nodeStep l n m p).1.shm.entry j).headNode = (m.shm.entry j).headNode := by
  unfold Mcs.nodeStep
  repeat' split
  all_goals simp [hjl]

lemma mcs_managerStep_headNode (j : LockId) (m : Mcs.Memory) (q : Mcs.ManagerPc) :
    ((Mcs.managerStep size.nodeCount l m q).1.shm.entry j).headNode =
      (m.shm.entry j).headNode := by
  unfold Mcs.managerStep
  dsimp only
  repeat' split
  all_goals simp

/-- A turn of the manager ends at the load of an invalid head. -/
lemma mcs_managerStep_quiet {j : LockId} {m : Mcs.Memory}
    (hhead : (m.shm.entry j).headNode = invalidNodeId) {q : Mcs.ManagerPc}
    (hq : q = .loadOwner ∨ q = .loadHead) :
    (Mcs.managerStep size.nodeCount j m q).1 = m ∧
      ((Mcs.managerStep size.nodeCount j m q).2 = .loadOwner ∨
        (Mcs.managerStep size.nodeCount j m q).2 = .loadHead) := by
  rcases hq with rfl | rfl
  · simp only [Mcs.managerStep]
    split_ifs
    · exact ⟨rfl, .inl rfl⟩
    · exact ⟨rfl, .inr rfl⟩
  · simp [Mcs.managerStep, hhead]

lemma mcs_idleElsewhere (size : SystemSize) (l : LockId) :
    IdleElsewhere Mcs.program size l (McsQuiet l) (fun q => q = .loadOwner ∨ q = .loadHead) where
  init m hm j hj _ := by
    obtain ⟨shm, hshm⟩ := hm
    rw [hshm, Mcs.initializeShm, if_neg (initializes size)]
    show (if j < maxLockCount then _ else _ : McsLockEntry).headNode = invalidNodeId
    rw [if_pos hj]
  node m n p hm j hj hjl := (mcs_nodeStep_headNode hjl n m p).trans (hm j hj hjl)
  manager m q hm j hj hjl := (mcs_managerStep_headNode j m q).trans (hm j hj hjl)
  begins := .inl rfl
  other m q j hm hq hjl hj := mcs_managerStep_quiet (hm j (size.lock_lt hj) hjl) hq

lemma qspin_nodeStep_lockWord {j : LockId} (hjl : j ≠ l) (n : NodeId) (shm : QspinShm)
    (p : Qspinlock.NodePc) :
    ((Qspinlock.nodeStep l n shm p).1.entry j).lockWord = (shm.entry j).lockWord := by
  unfold Qspinlock.nodeStep
  repeat' split
  all_goals simp [hjl]

lemma qspin_managerStep_lockWord {j : LockId} (hjl : j ≠ l) (shm : QspinShm)
    (q : Qspinlock.ManagerPc) :
    ((Qspinlock.managerStep size.nodeCount l shm q).1.entry j).lockWord =
      (shm.entry j).lockWord := by
  unfold Qspinlock.managerStep
  dsimp only
  repeat' split
  all_goals simp [hjl]

variable (size) in
/-- A turn of the manager ends at the load of a lock word without a tail. -/
lemma qspin_managerStep_quiet {j : LockId} {shm : QspinShm}
    (hword : (shm.entry j).lockWord = 0) :
    Qspinlock.managerStep size.nodeCount j shm .loadWord = (shm, .loadWord) := by
  have htail : Qspinlock.qspinTailIdx 0 = 0 := rfl
  simp only [Qspinlock.managerStep, hword, htail, or_true, if_true]

lemma qspin_idleElsewhere (size : SystemSize) (l : LockId) :
    IdleElsewhere Qspinlock.program size l (QspinQuiet l) (fun q => q = .loadWord) where
  init shm hm j hj _ := by
    obtain ⟨shm₀, hshm⟩ := hm
    rw [hshm, Qspinlock.initializeShm, if_neg (initializes size)]
    show (if j < maxLockCount then _ else _ : QspinlockEntry).lockWord = 0
    rw [if_pos hj]
  node shm n p hm j hj hjl := (qspin_nodeStep_lockWord hjl n shm p).trans (hm j hj hjl)
  manager shm q hm j hj hjl := (qspin_managerStep_lockWord hjl shm q).trans (hm j hj hjl)
  begins := rfl
  other shm q j hm hq hjl hj := by
    have hturn := qspin_managerStep_quiet size (hm j (size.lock_lt hj) hjl)
    subst hq
    exact ⟨congrArg Prod.fst hturn, congrArg Prod.snd hturn⟩

/-- The threads inside are at the end of the request of their node. -/
lemma exclusive_of_nodes {G : GlobalProgram} {T : Type} [DecidableEq T] {quiet : G.Mem → Prop}
    {scanning : G.ManagerPc → Prop} {s : State G T} (hidle : IdleElsewhere G size l quiet scanning)
    (hl : l < size.maxLocks)
    (hnodes : ∀ a, (nodeMachine G size l).system.Reachable a →
      ∀ n k, a.pc n = G.entered → a.pc k = G.entered → n = k)
    (hs : (machine G size).system.ReachableWhen (OnOneLock G size l) s) :
    ∀ i k j, (s.pc i).inside j = true → (s.pc k).inside j = true → i = k := by
  obtain ⟨a, ha, hrel⟩ := (threads_simulate_nodes hidle hl).exists_related hs
  have hm := mutexes_of_reachable hs.reachable
  have hentered : ∀ i j, (s.pc i).inside j = true → j = l ∧ a.pc i.1 = G.entered := by
    intro i j hi
    obtain rfl := (hrel.only i).has j (.inr hi)
    refine ⟨rfl, (hrel.placed i (.inr hi)).trans ?_⟩
    have hmutex : (s.pc i).pc.mutex = none := by
      by_contra hsome
      obtain ⟨j', hj'⟩ := Option.ne_none_iff_exists'.1 hsome
      obtain rfl := (hrel.only i).has j' (.inl hj')
      exact Bool.false_ne_true ((hm.apart i j' hj').symm.trans hi)
    unfold Thread.place
    cases hpc : (s.pc i).pc with
    | idle | lockLocal => rfl
    | request | cancel | abandon | releaseGlobal | releaseLocal =>
        rw [hpc] at hmutex
        cases hmutex
  rintro ⟨n, t⟩ ⟨k, u⟩ j hi hk
  obtain ⟨rfl, hn⟩ := hentered _ j hi
  obtain ⟨-, hk'⟩ := hentered _ j hk
  obtain rfl : n = k := hnodes a ha n k hn hk'
  rw [hm.unique (.inr hi) (.inr hk)]

end QueueLocks

instance (G : GlobalProgram) {T : Type} (size : SystemSize) (l : LockId) (s : State G T) :
    ∀ e, Decidable (OnOneLock G size l s e)
  | .party _ (.acquire j _) | .party _ (.tryAcquire j) =>
      inferInstanceAs (Decidable (j = l ∨ size.maxLocks ≤ j))
  | .party i (.clock elapsedMs) =>
      match h : (s.pc i).pc with
      | .request _ call k _ =>
          decidable_of_iff (PollsOn call k elapsedMs) (by simp [OnOneLock, h])
      | .idle | .lockLocal _ _ | .cancel _ _ _ | .abandon _ _ | .releaseGlobal _ _
      | .releaseLocal _ => .isTrue (by simp [OnOneLock, h])
  | .party _ (.release _) | .manager => .isTrue trivial

end CxlLock.TwoTier
