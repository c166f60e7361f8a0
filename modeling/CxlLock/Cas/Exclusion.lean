import CxlLock.Cas.Interleaving

/-!
# Exclusion of the two-tier lock over the slot table

Seen by one thread, a lock is a `Cell`: how far the thread has got with it, who has the local
mutex of the thread's node, and the slot of the node.  `CellStep` is the protocol of a cell,
and every access of a thread keeps to it on each lock and touches nothing else
(`threadStep_effect`).  Three facts about cells make the lock exclusive:

* from the local mutex on, the thread owns it, so the threads of a node take turns;
* only the lock manager stores `LOCKED`, and it does so after a pass over the slots that has
  found none `LOCKED`.  No thread can make that pass wrong afterwards;
* a thread inside has found its slot `LOCKED`, and it alone can change that.
-/

namespace CxlLock.Cas

open Transition LockSlotState

/-! ## The protocol of a cell -/

/-- How far a thread has got with a lock. -/
inductive Stage
  /-- Without the local mutex. -/
  | out
  /-- With the local mutex, and no request in the slot. -/
  | clear
  /-- With a request in the slot. -/
  | requested
  | inside
  deriving DecidableEq

/-- A lock as it is seen by one thread. -/
structure Cell (T : Type) where
  stage : Stage
  /-- The owner of the local mutex. -/
  owner : Option T
  slot : UInt32

/-- What thread `t` can do to its cell of a lock. -/
inductive CellStep {T : Type} (t : T) : Cell T → Cell T → Prop
  | stay (c : Cell T) : CellStep t c c
  | lockLocal (w : UInt32) : CellStep t ⟨.out, none, w⟩ ⟨.clear, some t, w⟩
  | request (o : Option T) (w : UInt32) :
      CellStep t ⟨.clear, o, w⟩ ⟨.requested, o, waiting.toWord⟩
  | enter (o : Option T) :
      CellStep t ⟨.requested, o, locked.toWord⟩ ⟨.inside, o, locked.toWord⟩
  | cancel (o : Option T) (w : UInt32) :
      CellStep t ⟨.requested, o, w⟩ ⟨.clear, o, idle.toWord⟩
  | leave (o : Option T) (w : UInt32) : CellStep t ⟨.inside, o, w⟩ ⟨.clear, o, idle.toWord⟩
  | unlockLocal (w : UInt32) : CellStep t ⟨.clear, some t, w⟩ ⟨.out, none, w⟩

/-- What a thread knows about the cell at each stage. -/
structure Cell.Ok {T : Type} (t : T) (c : Cell T) : Prop where
  owner : c.stage ≠ .out → c.owner = some t
  clear : c.stage = .clear → c.slot = idle.toWord
  inside : c.stage = .inside → c.slot = locked.toWord
  covered : c.slot ≠ idle.toWord → c.owner ≠ none

/-- The protocol keeps what the thread knows. -/
lemma CellStep.ok {T : Type} {t : T} {c c' : Cell T} (h : CellStep t c c') (hc : c.Ok t) :
    c'.Ok t := by
  obtain ⟨howner, hclear, hinside, hcovered⟩ := hc
  cases h with
  | stay => exact ⟨howner, hclear, hinside, hcovered⟩
  | lockLocal w =>
      have hidle : w = idle.toWord := by
        by_contra hw
        exact hcovered hw rfl
      exact ⟨by simp, by simp [hidle], by simp, by simp⟩
  | request o w =>
      have ho : o = some t := howner (by simp)
      exact ⟨by simp [ho], by simp, by simp, by simp [ho]⟩
  | enter o =>
      have ho : o = some t := howner (by simp)
      exact ⟨by simp [ho], by simp, by simp, by simp [ho]⟩
  | cancel o w =>
      have ho : o = some t := howner (by simp)
      exact ⟨by simp [ho], by simp, by simp, by simp [ho]⟩
  | leave o w =>
      have ho : o = some t := howner (by simp)
      exact ⟨by simp [ho], by simp, by simp, by simp [ho]⟩
  | unlockLocal w =>
      have hw : w = idle.toWord := hclear rfl
      exact ⟨by simp, by simp, by simp, by simp [hw]⟩

/-- A thread never makes a slot `LOCKED`. -/
lemma CellStep.locked_of_locked {T : Type} {t : T} {c c' : Cell T} (h : CellStep t c c')
    (hc : c'.slot = locked.toWord) : c.slot = locked.toWord := by
  cases h <;> simp_all

/-- What a thread that holds the local mutex sees is kept when another thread of its node
takes a step. -/
lemma CellStep.other {T : Type} {t u : T} {c c' : Cell T} (h : CellStep t c c') (hc : c.Ok t)
    (ho : c.owner = some u) (hne : u ≠ t) : c'.owner = some u ∧ c'.slot = c.slot := by
  have hout : c.stage = .out := by
    by_contra hstage
    exact hne (Option.some.inj (ho.symm.trans (hc.owner hstage)))
  cases h with
  | stay => exact ⟨ho, rfl⟩
  | lockLocal w => cases ho
  | _ => cases hout

/-! ## The threads keep to the protocol -/

namespace ThreadPc

/-- The stage of the call the thread is in. -/
@[simp] def stage (l : LockId) : ThreadPc → Stage
  | .request j _ | .abandon j _ | .releaseLocal j => if j = l then .clear else .out
  | .poll j _ _ | .cancel j _ => if j = l then .requested else .out
  | .idle | .lockLocal _ _ | .releaseGlobal _ => .out

/-- The lock the call is about. -/
@[simp] def lock : ThreadPc → Option LockId
  | .idle => none
  | .lockLocal l _ | .request l _ | .poll l _ _ | .cancel l _ | .abandon l _
  | .releaseGlobal l | .releaseLocal l => some l

end ThreadPc

namespace Thread

/-- How far the thread has got with a lock. -/
def stage (th : Thread) (l : LockId) : Stage :=
  if th.inside l then .inside else th.pc.stage l

@[simp] lemma goto_stage (th : Thread) (pc : ThreadPc) (l : LockId) :
    (th.goto pc).stage l = if th.inside l then .inside else pc.stage l := rfl

@[simp] lemma finish_stage (th : Thread) (rc : LockResult) (l : LockId) :
    (th.finish rc).stage l = if th.inside l then .inside else .out := rfl

@[simp] lemma setInside_inside (th : Thread) (l j : LockId) (b : Bool) :
    (th.setInside l b).inside j = if j = l then b else th.inside j := by
  simp [setInside, Function.update_apply]

@[simp] lemma goto_pc (th : Thread) (pc : ThreadPc) : (th.goto pc).pc = pc := rfl
@[simp] lemma goto_inside (th : Thread) (pc : ThreadPc) : (th.goto pc).inside = th.inside := rfl
@[simp] lemma finish_pc (th : Thread) (rc : LockResult) : (th.finish rc).pc = .idle := rfl
@[simp] lemma finish_inside (th : Thread) (rc : LockResult) :
    (th.finish rc).inside = th.inside := rfl
@[simp] lemma setInside_pc (th : Thread) (l : LockId) (b : Bool) :
    (th.setInside l b).pc = th.pc := rfl

/-- The locks of a thread are within the system, and a call that takes a lock is about a lock
the thread is not inside. -/
structure Ok (size : SystemSize) (th : Thread) : Prop where
  lock_lt : ∀ l, th.pc.lock = some l → l < size.maxLocks
  inside_lt : ∀ l, th.inside l = true → l < size.maxLocks
  apart : ∀ l, th.pc.stage l ≠ .out → th.inside l = false
  leaving : ∀ l, th.pc = .releaseGlobal l → th.inside l = true

lemma Ok.finish {size : SystemSize} {th : Thread} (h : th.Ok size) (rc : LockResult) :
    (th.finish rc).Ok size :=
  ⟨by simp, h.inside_lt, by simp, by simp⟩

/-- The call about `l` goes on. -/
lemma Ok.goto {size : SystemSize} {th : Thread} (h : th.Ok size) {l : LockId} {pc : ThreadPc}
    (hpc : pc.lock = some l) (hl : l < size.maxLocks)
    (hapart : pc.stage l ≠ .out → th.inside l = false)
    (hleaving : pc = .releaseGlobal l → th.inside l = true) : (th.goto pc).Ok size := by
  refine ⟨fun j hj => ?_, h.inside_lt, fun j hj => ?_, fun j hj => ?_⟩
  · obtain rfl : l = j := Option.some.inj (hpc.symm.trans hj)
    exact hl
  · have hstage : pc.stage j ≠ .out := hj
    obtain rfl : j = l := by
      cases pc <;> simp_all
    exact hapart hstage
  · have hpc' : pc = .releaseGlobal j := hj
    obtain rfl : j = l := by
      simpa [hpc'] using hpc
    exact hleaving hpc'

/-- A call returns and the thread is inside `l`. -/
lemma Ok.enter {size : SystemSize} {th : Thread} (h : th.Ok size) {l : LockId}
    (hl : l < size.maxLocks) (rc : LockResult) : ((th.setInside l true).finish rc).Ok size := by
  refine ⟨by simp, fun j hj => ?_, by simp, by simp⟩
  rw [finish_inside, setInside_inside] at hj
  split_ifs at hj with hjl
  · exact hjl ▸ hl
  · exact h.inside_lt j hj

/-- The thread has left `l` and goes on with the local mutex. -/
lemma Ok.leave {size : SystemSize} {th : Thread} (h : th.Ok size) {l : LockId}
    (hl : l < size.maxLocks) : ((th.setInside l false).goto (.releaseLocal l)).Ok size := by
  refine ⟨fun j hj => ?_, fun j hj => ?_, fun j hj => ?_, by simp⟩
  · obtain rfl : l = j := by simpa using hj
    exact hl
  · rw [goto_inside, setInside_inside] at hj
    split_ifs at hj
    exact h.inside_lt j hj
  · obtain rfl : l = j := by simpa using hj
    simp

end Thread

section Steps

variable {T : Type} {size : SystemSize} {stateOffset : ShmOffset} {s s' : State T}

/-- Lock `l` as it is seen by thread `i`. -/
def cell (size : SystemSize) (stateOffset : ShmOffset) (s : State T) (i : NodeId × T)
    (l : LockId) : Cell T :=
  ⟨(s.pc i).stage l, (s.mem.localLocks i.1).owner l, slot size stateOffset s l i.1⟩

/-- What an access of thread `i` does. -/
structure Effect (size : SystemSize) (stateOffset : ShmOffset) (s s' : State T)
    (i : NodeId × T) : Prop where
  cells : ∀ l, l < size.maxLocks →
    CellStep i.2 (cell size stateOffset s i l) (cell size stateOffset s' i l)
  slots : ∀ l, l < size.maxLocks → ∀ n, n < size.nodeCount → n ≠ i.1 →
    slot size stateOffset s' l n = slot size stateOffset s l n
  mutexes : ∀ n, n ≠ i.1 → s'.mem.localLocks n = s.mem.localLocks n
  ready : (s'.mem.localLocks i.1).Ready size.maxLocks
  thread : (s'.pc i).Ok size

variable {i : NodeId × T} {l : LockId} {m : Memory T} {th : Thread}

/-- An access that changes no lock for the thread. -/
lemma Effect.stay (hready : (s.mem.localLocks i.1).Ready size.maxLocks) (hth : th.Ok size)
    (hstage : ∀ j, th.stage j = (s.pc i).stage j) [DecidableEq T] :
    Effect size stateOffset s (s.move i (s.mem, th)) i where
  cells j _ := by
    have : cell size stateOffset (s.move i (s.mem, th)) i j = cell size stateOffset s i j := by
      simp [cell, slot, hstage j]
    exact this ▸ .stay _
  slots _ _ _ _ _ := rfl
  mutexes _ _ := rfl
  ready := hready
  thread := by simpa using hth

/-- An access to one lock: the slot of the thread's node becomes `w`, and the local mutex has
the owner `o` afterwards. -/
lemma Effect.change [DecidableEq T] {w : UInt32} {o : Option T}
    (hn : i.1 < size.nodeCount) (hth : th.Ok size)
    (hslot : ∀ j, j < size.maxLocks → ∀ k, k < size.nodeCount →
      readSlotState j k size.nodeCount stateOffset m.shm =
        if j = l ∧ k = i.1 then w else slot size stateOffset s j k)
    (howner : ∀ j, (m.localLocks i.1).owner j =
      if j = l then o else (s.mem.localLocks i.1).owner j)
    (hready : (m.localLocks i.1).Ready size.maxLocks)
    (hothers : ∀ n, n ≠ i.1 → m.localLocks n = s.mem.localLocks n)
    (hstage : ∀ j, j ≠ l → th.stage j = (s.pc i).stage j)
    (hstep : CellStep i.2 (cell size stateOffset s i l) ⟨th.stage l, o, w⟩) :
    Effect size stateOffset s (s.move i (m, th)) i where
  cells j hj := by
    have hcell : cell size stateOffset (s.move i (m, th)) i j =
        ⟨th.stage j, if j = l then o else (s.mem.localLocks i.1).owner j,
          if j = l then w else slot size stateOffset s j i.1⟩ := by
      have := hslot j hj i.1 hn
      simp_all [cell, slot]
    rw [hcell]
    by_cases hjl : j = l
    · subst hjl
      simpa using hstep
    · rw [hstage j hjl, if_neg hjl, if_neg hjl]
      exact .stay _
  slots j hj k hk hki := by
    have := hslot j hj k hk
    simp_all [slot]
  mutexes := hothers
  ready := hready
  thread := by simpa using hth

/-- A store to the own slot. -/
lemma slot_write (hn : i.1 < size.nodeCount) (hl : l < size.maxLocks)
    (state : LockSlotState) : ∀ j, j < size.maxLocks → ∀ k, k < size.nodeCount →
      readSlotState j k size.nodeCount stateOffset
          (writeSlotState l i.1 size.nodeCount stateOffset state s.mem.shm) =
        if j = l ∧ k = i.1 then state.toWord else slot size stateOffset s j k :=
  fun _ hj _ hk => readSlotState_write size.nodeCount_le (size.lock_lt hl) hn
    (size.lock_lt hj) hk stateOffset state s.mem.shm

/-- An access that stores `state` to the thread's slot for `l`. -/
lemma Effect.store [DecidableEq T] {state : LockSlotState} (hn : i.1 < size.nodeCount)
    (hl : l < size.maxLocks) (hready : (s.mem.localLocks i.1).Ready size.maxLocks)
    (hth : th.Ok size) (hstage : ∀ j, j ≠ l → th.stage j = (s.pc i).stage j)
    (hstep : CellStep i.2 (cell size stateOffset s i l)
      ⟨th.stage l, (s.mem.localLocks i.1).owner l, state.toWord⟩) :
    Effect size stateOffset s (s.move i ({ s.mem with
      shm := writeSlotState l i.1 size.nodeCount stateOffset state s.mem.shm }, th)) i := by
  refine .change (l := l) hn hth (slot_write hn hl state) (fun j => ?_) hready
    (fun _ _ => rfl) hstage hstep
  split_ifs with hj
  · rw [hj]
  · rfl

variable [DecidableEq T]

/-- An access that gives the local mutex for `l` back. -/
lemma Effect.unlock {rc : LockResult} (hn : i.1 < size.nodeCount)
    (hready : (s.mem.localLocks i.1).Ready size.maxLocks) (hth : (s.pc i).Ok size)
    (howner : (s.mem.localLocks i.1).owner l = some i.2)
    (hpc : ∀ j, (s.pc i).pc.stage j = if l = j then .clear else .out) :
    Effect size stateOffset s (s.move i
      (s.mem.setLocal i.1 ((s.mem.localLocks i.1).setOwner l none), (s.pc i).finish rc)) i := by
  have hin : (s.pc i).inside l = false := hth.apart l (by rw [hpc, if_pos rfl]; decide)
  refine .change (l := l) (w := slot size stateOffset s l i.1) (o := none) hn (hth.finish rc)
    (fun j _ k _ => ?_) (fun j => ?_) ?_ (fun n hni => ?_) (fun j hj => ?_) ?_
  · split_ifs with h
    · rw [h.1, h.2]
      rfl
    · rfl
  · simp [Memory.setLocal]
  · simpa [Memory.setLocal] using hready.setOwner none
  · simp [Memory.setLocal, hni]
  · rw [Thread.finish_stage, Thread.stage, hpc, if_neg (Ne.symm hj)]
  · simp only [cell, Thread.stage, hpc, hin, howner, Thread.finish_pc, Thread.finish_inside]
    simpa using CellStep.unlockLocal (slot size stateOffset s l i.1)

lemma beginCall_effect {c : Choice} {r : Memory T × Thread} (hpc : (s.pc i).pc = .idle)
    (hready : (s.mem.localLocks i.1).Ready size.maxLocks) (hth : (s.pc i).Ok size)
    (hr : beginCall size s.mem (s.pc i) c = some r) :
    Effect size stateOffset s (s.move i r) i := by
  have hstage : ∀ j, (s.pc i).stage j = if (s.pc i).inside j then .inside else .out :=
    fun j => by rw [Thread.stage, hpc, ThreadPc.stage]
  have hacquire : ∀ l call, (if l ≥ size.maxLocks then
      some (s.mem, (s.pc i).finish .errorInvalidParam)
      else some (s.mem, (s.pc i).goto (.lockLocal l call))) = some r →
      Effect size stateOffset s (s.move i r) i := by
    intro l call hr
    split_ifs at hr with hl <;> cases hr
    · exact .stay hready (hth.finish _) fun j => by simp [hstage]
    · exact .stay hready (hth.goto (l := l) rfl (UInt32.not_le.1 hl) (by simp) (by simp))
        fun j => by simp [hstage]
  cases c with
  | acquire l timeoutMs => exact hacquire l _ hr
  | tryAcquire l => exact hacquire l _ hr
  | release l =>
      simp only [beginCall, Option.ite_none_right_eq_some] at hr
      obtain ⟨hin, hr⟩ := hr
      cases hr
      exact .stay hready (hth.goto (l := l) rfl (hth.inside_lt l hin) (by simp) fun _ => hin)
        fun j => by simp [hstage]
  | clock elapsedMs => cases hr

/-- The local mutex is locked if nobody has it, and the call fails otherwise. -/
lemma takeLocal_cases {a a' : LocalLockArray T} {call : Call} {t : T} {rc : LockResult}
    (hready : a.Ready size.maxLocks) (hl : l < size.maxLocks)
    (h : takeLocal a t l call = some (rc, a')) :
    a.owner l = none ∧ rc = .success ∧ a' = a.setOwner l (some t) ∨
      a.owner l ≠ none ∧ rc ≠ .success ∧ a' = a := by
  cases call with
  | acquire timeoutMs =>
      rcases LocalLockArray.acquire_cases hready hl h with h | ⟨ho, rfl, rfl⟩
      · exact .inl h
      · exact .inr ⟨by simp [ho], by simp, rfl⟩
  | tryAcquire =>
      rw [takeLocal, Option.some.injEq] at h
      rcases LocalLockArray.tryAcquire_cases (t := t) hready hl with ⟨ho, htry⟩ | ⟨ho, htry⟩ <;>
        rw [htry] at h <;> cases h
      · exact .inl ⟨ho, rfl, rfl⟩
      · exact .inr ⟨ho, by simp, rfl⟩

lemma lockLocal_effect {call : Call} {a' : LocalLockArray T} {rc : LockResult}
    (hpc : (s.pc i).pc = .lockLocal l call) (hn : i.1 < size.nodeCount)
    (hready : (s.mem.localLocks i.1).Ready size.maxLocks) (hth : (s.pc i).Ok size)
    (howner : (s.pc i).stage l ≠ .out → (s.mem.localLocks i.1).owner l = some i.2)
    (hr : takeLocal (s.mem.localLocks i.1) i.2 l call = some (rc, a')) :
    Effect size stateOffset s (s.move i (s.mem.setLocal i.1 a',
      if rc = .success then (s.pc i).goto (.request l call) else (s.pc i).finish rc)) i := by
  have hl := hth.lock_lt l (by simp [hpc])
  have hstage : ∀ j, (s.pc i).stage j = if (s.pc i).inside j then .inside else .out :=
    fun j => by rw [Thread.stage, hpc, ThreadPc.stage]
  rcases takeLocal_cases hready hl hr with ⟨ho, rfl, rfl⟩ | ⟨-, hrc, rfl⟩
  · -- the mutex was free, so the thread is not inside
    have hin : (s.pc i).inside l = false := by
      by_contra hin
      have hsome := howner (by simp [hstage, hin])
      simp [ho] at hsome
    rw [if_pos rfl]
    refine .change (l := l) (w := slot size stateOffset s l i.1) (o := some i.2) hn
      (hth.goto (l := l) rfl hl (fun _ => hin) (by simp)) (fun j _ k _ => ?_) (fun j => ?_)
      ?_ (fun n hni => ?_) (fun j hj => ?_) ?_
    · split_ifs with h
      · rw [h.1, h.2]
        rfl
      · rfl
    · simp [Memory.setLocal]
    · simpa [Memory.setLocal] using hready.setOwner (some i.2)
    · simp [Memory.setLocal, hni]
    · simp [hstage, hj.symm]
    · simp only [cell, hstage, hin, ho, Thread.goto_stage]
      simpa using CellStep.lockLocal (slot size stateOffset s l i.1)
  · have hmem : s.mem.setLocal i.1 (s.mem.localLocks i.1) = s.mem := by
      simp [Memory.setLocal]
    rw [if_neg hrc, hmem]
    exact .stay hready (hth.finish rc) fun j => by simp [hstage]

/-- A poll that finds the slot `LOCKED` lets the thread in. -/
lemma poll_granted_effect {call : Call} {spinCount : UInt32}
    (hpc : (s.pc i).pc = .poll l call spinCount) (hn : i.1 < size.nodeCount)
    (hready : (s.mem.localLocks i.1).Ready size.maxLocks) (hth : (s.pc i).Ok size)
    (hslot : slot size stateOffset s l i.1 = locked.toWord) :
    Effect size stateOffset s
      (s.move i (s.mem, ((s.pc i).setInside l true).finish .success)) i := by
  have hl := hth.lock_lt l (by simp [hpc])
  have hin := hth.apart l (by simp [hpc])
  refine .change (l := l) (w := locked.toWord) (o := (s.mem.localLocks i.1).owner l) hn
    (hth.enter hl _) (fun j _ k _ => ?_) (fun j => ?_) hready (fun _ _ => rfl)
    (fun j hj => ?_) ?_
  · split_ifs with h
    · rw [h.1, h.2]
      exact hslot
    · rfl
  · split_ifs with h
    · rw [h]
    · rfl
  · simp [Thread.stage, hpc, hj, hj.symm]
  · simpa [cell, Thread.stage, hpc, hin, hslot] using .enter _

/-- After a poll that finds another state, the request stays in the slot, whatever the poll
does next. -/
lemma poll_again_effect {call : Call} {spinCount : UInt32} (elapsedMs : UInt64)
    (hpc : (s.pc i).pc = .poll l call spinCount)
    (hready : (s.mem.localLocks i.1).Ready size.maxLocks) (hth : (s.pc i).Ok size) :
    Effect size stateOffset s
      (s.move i (s.mem, (s.pc i).goto (pollAgain l call spinCount elapsedMs))) i := by
  have hl := hth.lock_lt l (by simp [hpc])
  have hin := hth.apart l (by simp [hpc])
  have hagain : ∀ j, (pollAgain l call spinCount elapsedMs).stage j =
      if l = j then .requested else .out := by
    intro j
    unfold pollAgain
    split_ifs <;> simp_all
  refine .stay hready (hth.goto (l := l) ?_ hl (fun _ => hin) ?_) fun j => ?_
  · unfold pollAgain
    split_ifs <;> rfl
  · unfold pollAgain
    split_ifs <;> simp
  · rw [Thread.goto_stage, hagain, Thread.stage, hpc, ThreadPc.stage]

/-- Every access of a thread keeps to the protocol of its cells. -/
theorem threadStep_effect {c : Choice} {r : Memory T × Thread} (hn : i.1 < size.nodeCount)
    (hready : (s.mem.localLocks i.1).Ready size.maxLocks) (hth : (s.pc i).Ok size)
    (howner : ∀ l, (s.pc i).stage l ≠ .out → (s.mem.localLocks i.1).owner l = some i.2)
    (hr : threadStep size stateOffset i.1 i.2 c s.mem (s.pc i) = some r) :
    Effect size stateOffset s (s.move i r) i := by
  have hni := size.node_ne_invalid hn
  unfold threadStep at hr
  cases hpc : (s.pc i).pc with
  | idle =>
      simp only [hpc] at hr
      exact beginCall_effect hpc hready hth hr
  | lockLocal l call =>
      simp only [hpc, Option.map_eq_some_iff] at hr
      obtain ⟨⟨rc, a'⟩, hr, rfl⟩ := hr
      exact lockLocal_effect hpc hn hready hth (howner l) hr
  | request l call =>
      have hl := hth.lock_lt l (by simp [hpc])
      have hin := hth.apart l (by simp [hpc])
      simp only [hpc, acquireLock, hni, if_false, if_true, Option.some.injEq] at hr
      subst hr
      refine .store hn hl hready (hth.goto (l := l) rfl hl (fun _ => hin) (by simp))
        (fun j hj => ?_) ?_
      · simp [Thread.stage, hpc, hj.symm]
      · simpa [cell, Thread.stage, hpc, hin] using .request _ _
  | poll l call spinCount =>
      simp only [hpc] at hr
      cases c with
      | clock elapsedMs =>
          simp only at hr
          split_ifs at hr with hgranted <;> cases hr
          · have hslot : slot size stateOffset s l i.1 = locked.toWord := by
              simpa [pollGranted, slot] using hgranted
            exact poll_granted_effect hpc hn hready hth hslot
          · exact poll_again_effect elapsedMs hpc hready hth
      | _ => cases hr
  | cancel l rc =>
      have hl := hth.lock_lt l (by simp [hpc])
      have hin := hth.apart l (by simp [hpc])
      simp only [hpc, releaseLock, hni, if_false, Option.some.injEq] at hr
      subst hr
      refine .store hn hl hready (hth.goto (l := l) rfl hl (fun _ => hin) (by simp))
        (fun j hj => ?_) ?_
      · simp [Thread.stage, hpc, hj.symm]
      · simpa [cell, Thread.stage, hpc, hin] using .cancel _ _
  | abandon l rc =>
      have hl := hth.lock_lt l (by simp [hpc])
      have hin := hth.apart l (by simp [hpc])
      have ho := howner l (by simp [Thread.stage, hpc, hin])
      simp only [hpc, LocalLockArray.release_of_owner hready hl ho, Option.some.injEq] at hr
      subst hr
      exact .unlock hn hready hth ho fun j => by simp [hpc]
  | releaseGlobal l =>
      have hl := hth.lock_lt l (by simp [hpc])
      have hin := hth.leaving l hpc
      simp only [hpc, releaseLock, hni, if_false, if_true, Option.some.injEq] at hr
      subst hr
      refine .store hn hl hready (hth.leave hl) (fun j hj => ?_) ?_
      · simp [Thread.stage, hpc, hj, hj.symm]
      · simpa [cell, Thread.stage, hpc, hin] using .leave _ _
  | releaseLocal l =>
      have hl := hth.lock_lt l (by simp [hpc])
      have hin := hth.apart l (by simp [hpc])
      have ho := howner l (by simp [Thread.stage, hpc, hin])
      simp only [hpc, LocalLockArray.release_of_owner hready hl ho, Option.some.injEq] at hr
      subst hr
      exact .unlock hn hready hth ho fun j => by simp [hpc]

end Steps

/-! ## The invariant -/

/-- What the position of the lock manager in its scan says about the slots. -/
def ManagerOk {T : Type} (size : SystemSize) (stateOffset : ShmOffset) (s : State T) :
    ManagerPc → Prop
  | .checkLocked lid nid => lid < size.maxLocks ∧ nid < size.nodeCount ∧
      ∀ m, m < nid → slot size stateOffset s lid m ≠ locked.toWord
  | .findWaiting lid nid | .grant lid nid => lid < size.maxLocks ∧ nid < size.nodeCount ∧
      ∀ m, m < size.nodeCount → slot size stateOffset s lid m ≠ locked.toWord

structure Inv {T : Type} (size : SystemSize) (stateOffset : ShmOffset) (s : State T) :
    Prop where
  ready : ∀ n, (s.mem.localLocks n).Ready size.maxLocks
  thread : ∀ i, (s.pc i).Ok size
  participates : ∀ i l, (s.pc i).stage l ≠ .out → i.1 < size.nodeCount
  cells : ∀ i, i.1 < size.nodeCount → ∀ l, l < size.maxLocks →
    (cell size stateOffset s i l).Ok i.2
  covered : SlotsCovered size stateOffset s
  oneLocked : OneLocked size stateOffset s
  manager : ManagerOk size stateOffset s s.mgr

section Runs

variable {T : Type} [DecidableEq T] {size : SystemSize} {stateOffset : ShmOffset}
  {s : State T} {i : NodeId × T}

omit [DecidableEq T] in
/-- The stage of a thread is only about locks of the system. -/
lemma Thread.Ok.stage_lt {th : Thread} (h : th.Ok size) {l : LockId} (hl : th.stage l ≠ .out) :
    l < size.maxLocks := by
  by_cases hin : th.inside l = true
  · exact h.inside_lt l hin
  · refine h.lock_lt l ?_
    simp only [Thread.stage, hin] at hl
    cases hpc : th.pc <;> simp_all

omit [DecidableEq T] in
/-- No access of a thread makes a slot `LOCKED`. -/
lemma Effect.locked {s' : State T} (h : Effect size stateOffset s s' i) {l : LockId}
    (hl : l < size.maxLocks) {n : NodeId} (hn : n < size.nodeCount)
    (hlocked : slot size stateOffset s' l n = locked.toWord) :
    slot size stateOffset s l n = locked.toWord := by
  by_cases hni : n = i.1
  · subst hni
    exact (h.cells l hl).locked_of_locked hlocked
  · rwa [← h.slots l hl n hn hni]

/-- The local mutex keeps the other threads of a node out, or protects their cells. -/
lemma Effect.sibling {n : NodeId} {t u : T} {r : Memory T × Thread} {l : LockId}
    (he : Effect size stateOffset s (s.move (n, t) r) (n, t)) (hne : u ≠ t)
    (hl : l < size.maxLocks) (ht : (cell size stateOffset s (n, t) l).Ok t)
    (hu : (cell size stateOffset s (n, u) l).Ok u) :
    (cell size stateOffset (s.move (n, t) r) (n, u) l).Ok u := by
  have hstep := he.cells l hl
  have hstage : (cell size stateOffset (s.move (n, t) r) (n, u) l).stage =
      (cell size stateOffset s (n, u) l).stage := by
    simp [cell, hne]
  by_cases hout : (cell size stateOffset s (n, u) l).stage = .out
  · rw [hout] at hstage
    exact ⟨fun h => absurd hstage h, by simp [hstage], by simp [hstage], (hstep.ok ht).covered⟩
  · obtain ⟨howner, hslot⟩ := hstep.other ht (hu.owner hout) hne
    refine ⟨fun _ => howner, fun h => ?_, fun h => ?_, (hstep.ok ht).covered⟩
    · exact hslot.trans (hu.clear (hstage ▸ h))
    · exact hslot.trans (hu.inside (hstage ▸ h))

lemma Inv.thread_step (h : Inv size stateOffset s) (hn : i.1 < size.nodeCount)
    {r : Memory T × Thread} (he : Effect size stateOffset s (s.move i r) i) :
    Inv size stateOffset (s.move i r) := by
  have hother : ∀ k, k ≠ i → (s.move i r).pc k = s.pc k := fun k hk => by simp [hk]
  have hcells : ∀ l, l < size.maxLocks → (cell size stateOffset (s.move i r) i l).Ok i.2 :=
    fun l hl => (he.cells l hl).ok (h.cells i hn l hl)
  refine ⟨fun n => ?_, fun k => ?_, fun k l hk => ?_, fun k hk l hl => ?_,
    fun l hl n hnc hslot => ?_, fun l hl n hnc m hmc hnl hml => ?_, ?_⟩
  · by_cases hni : n = i.1
    · exact hni ▸ he.ready
    · exact (he.mutexes n hni) ▸ h.ready n
  · by_cases hki : k = i
    · exact hki ▸ he.thread
    · exact hother k hki ▸ h.thread k
  · by_cases hki : k = i
    · exact hki ▸ hn
    · exact h.participates k l (hother k hki ▸ hk)
  · by_cases hki : k = i
    · exact hki ▸ hcells l hl
    by_cases hnode : k.1 = i.1
    · obtain ⟨n, t⟩ := i
      obtain ⟨m, u⟩ := k
      obtain rfl : m = n := hnode
      exact he.sibling (fun hut => hki (congrArg (Prod.mk m) hut)) hl (h.cells _ hn l hl)
        (h.cells _ hk l hl)
    · have hcell : cell size stateOffset (s.move i r) k l = cell size stateOffset s k l := by
        simp only [cell, hother k hki, he.mutexes k.1 hnode, he.slots l hl k.1 hk hnode]
      exact hcell ▸ h.cells k hk l hl
  · by_cases hni : n = i.1
    · subst hni
      exact Option.ne_none_iff_exists'.1 ((hcells l hl).covered hslot)
    · rw [he.slots l hl n hnc hni] at hslot
      rw [he.mutexes n hni]
      exact h.covered l hl n hnc hslot
  · exact h.oneLocked l hl n hnc m hmc (he.locked hl hnc hnl) (he.locked hl hmc hml)
  · have hmanager := h.manager
    cases hmgr : s.mgr with
    | checkLocked lid nid =>
        simp only [hmgr, ManagerOk, Config.move_mgr] at hmanager ⊢
        obtain ⟨hlid, hnid, hnone⟩ := hmanager
        refine ⟨hlid, hnid, fun m hm hlocked => hnone m hm (he.locked hlid ?_ hlocked)⟩
        exact UInt32.lt_trans hm hnid
    | findWaiting lid nid =>
        simp only [hmgr, ManagerOk, Config.move_mgr] at hmanager ⊢
        obtain ⟨hlid, hnid, hnone⟩ := hmanager
        exact ⟨hlid, hnid, fun m hm hlocked => hnone m hm (he.locked hlid hm hlocked)⟩
    | grant lid nid =>
        simp only [hmgr, ManagerOk, Config.move_mgr] at hmanager ⊢
        obtain ⟨hlid, hnid, hnone⟩ := hmanager
        exact ⟨hlid, hnid, fun m hm hlocked => hnone m hm (he.locked hlid hm hlocked)⟩

omit [DecidableEq T]

lemma nextLock_ok (lid : LockId) : ManagerOk size stateOffset s (nextLock size lid) := by
  have hnone : ∀ m : NodeId, ¬ m < 0 := fun m => UInt32.not_lt.2 UInt32.zero_le
  unfold nextLock
  split_ifs with hlid
  · exact ⟨hlid, size.nodeCount_pos, fun m hm => absurd hm (hnone m)⟩
  · exact ⟨size.maxLocks_pos, size.nodeCount_pos, fun m hm => absurd hm (hnone m)⟩

/-- The manager has made the slot of a waiting node `LOCKED`, when no slot of the lock was. -/
structure Granted (size : SystemSize) (stateOffset : ShmOffset) (s s' : State T) (l : LockId)
    (n : NodeId) : Prop where
  lock_lt : l < size.maxLocks
  node_lt : n < size.nodeCount
  waiting : slot size stateOffset s l n = waiting.toWord
  free : ∀ m, m < size.nodeCount → slot size stateOffset s l m ≠ locked.toWord
  slots : ∀ j, j < size.maxLocks → ∀ k, k < size.nodeCount →
    slot size stateOffset s' j k =
      if j = l ∧ k = n then locked.toWord else slot size stateOffset s j k

/-- What an access of the manager does. -/
structure ManagerEffect (size : SystemSize) (stateOffset : ShmOffset) (s s' : State T) :
    Prop where
  pc : s'.pc = s.pc
  mutexes : s'.mem.localLocks = s.mem.localLocks
  slots : (∀ j k, slot size stateOffset s' j k = slot size stateOffset s j k) ∨
    ∃ l n, Granted size stateOffset s s' l n
  manager : ManagerOk size stateOffset s' s'.mgr

lemma managerStep_effect (h : ManagerOk size stateOffset s s.mgr)
    {r : ShmWords × ManagerPc} (hr : managerStep size stateOffset s.mem.shm s.mgr = r) :
    ManagerEffect size stateOffset s (s.manage ({ s.mem with shm := r.1 }, r.2)) := by
  subst hr
  cases hmgr : s.mgr with
  | checkLocked lid nid =>
      rw [hmgr] at h
      obtain ⟨hlid, hnid, hnone⟩ := h
      simp only [managerStep]
      split_ifs with hlocked hnext
      · exact ⟨rfl, rfl, .inl fun _ _ => rfl, nextLock_ok lid⟩
      · refine ⟨rfl, rfl, .inl fun _ _ => rfl, hlid, hnext, fun m hm => ?_⟩
        rcases (lt_add_one_iff hnid).1 hm with hm | rfl
        · exact hnone m hm
        · exact hlocked
      · refine ⟨rfl, rfl, .inl fun _ _ => rfl, hlid, size.nodeCount_pos, fun m hm => ?_⟩
        rcases (lt_add_one_iff hnid).1 (UInt32.lt_of_lt_of_le hm (UInt32.not_lt.1 hnext))
          with hm | rfl
        · exact hnone m hm
        · exact hlocked
  | findWaiting lid nid =>
      rw [hmgr] at h
      obtain ⟨hlid, hnid, hnone⟩ := h
      simp only [managerStep]
      split_ifs with hwaiting hnext
      · exact ⟨rfl, rfl, .inl fun _ _ => rfl, hlid, hnid, hnone⟩
      · exact ⟨rfl, rfl, .inl fun _ _ => rfl, hlid, hnext, hnone⟩
      · exact ⟨rfl, rfl, .inl fun _ _ => rfl, nextLock_ok lid⟩
  | grant lid nid =>
      rw [hmgr] at h
      obtain ⟨hlid, hnid, hnone⟩ := h
      simp only [managerStep, grantLock, size.node_ne_invalid hnid, if_false]
      split_ifs with hwaiting
      · refine ⟨rfl, rfl, .inr ⟨lid, nid, hlid, hnid, hwaiting, hnone, fun j hj k hk => ?_⟩,
          nextLock_ok lid⟩
        exact readSlotState_write size.nodeCount_le (size.lock_lt hlid) hnid
          (size.lock_lt hj) hk stateOffset locked s.mem.shm
      · -- the node has cancelled its request in between
        exact ⟨rfl, rfl, .inl fun _ _ => rfl, nextLock_ok lid⟩

namespace Granted

variable {s' : State T} {l : LockId} {n : NodeId}

/-- A slot that a grant has changed was `WAITING`. -/
lemma slot_eq (hg : Granted size stateOffset s s' l n) {j : LockId} (hj : j < size.maxLocks)
    {k : NodeId} (hk : k < size.nodeCount) :
    slot size stateOffset s j k = LockSlotState.waiting.toWord ∧
        slot size stateOffset s' j k = locked.toWord ∨
      slot size stateOffset s' j k = slot size stateOffset s j k := by
  rw [hg.slots j hj k hk]
  split_ifs with hjk
  · obtain ⟨rfl, rfl⟩ := hjk
    exact .inl ⟨hg.waiting, rfl⟩
  · exact .inr rfl

lemma ne_idle (hg : Granted size stateOffset s s' l n) {j : LockId} (hj : j < size.maxLocks)
    {k : NodeId} (hk : k < size.nodeCount)
    (hslot : slot size stateOffset s' j k ≠ idle.toWord) :
    slot size stateOffset s j k ≠ idle.toWord := by
  rcases hg.slot_eq hj hk with ⟨hwaiting, -⟩ | hsame
  · rw [hwaiting]
    decide
  · rwa [← hsame]

/-- The granted slot was `WAITING`, so no thread is inside with it or without a request. -/
lemma cell_ok (hg : Granted size stateOffset s s' l n) {c : Cell T} {t : T} (hc : c.Ok t)
    {j : LockId} (hj : j < size.maxLocks) {k : NodeId} (hk : k < size.nodeCount)
    (hslot : c.slot = slot size stateOffset s j k) :
    Cell.Ok t { c with slot := slot size stateOffset s' j k } where
  owner := hc.owner
  clear hstage := by
    have hidle := hslot.symm.trans (hc.clear hstage)
    rcases hg.slot_eq hj hk with ⟨hwaiting, -⟩ | hsame
    · exact absurd (hidle.symm.trans hwaiting) (by decide)
    · exact hsame.trans hidle
  inside hstage := by
    rcases hg.slot_eq hj hk with ⟨-, hlocked⟩ | hsame
    · exact hlocked
    · exact hsame.trans (hslot.symm.trans (hc.inside hstage))
  covered hne := hc.covered (hslot ▸ hg.ne_idle hj hk hne)

/-- No slot of the lock was `LOCKED` before. -/
lemma eq_of_locked (hg : Granted size stateOffset s s' l n) {k : NodeId}
    (hk : k < size.nodeCount) (hslot : slot size stateOffset s' l k = locked.toWord) :
    k = n := by
  rw [hg.slots l hg.lock_lt k hk] at hslot
  split_ifs at hslot with hkn
  · exact hkn.2
  · exact absurd hslot (hg.free k hk)

lemma slot_of_ne (hg : Granted size stateOffset s s' l n) {j : LockId} (hj : j < size.maxLocks)
    (hjl : j ≠ l) {k : NodeId} (hk : k < size.nodeCount) :
    slot size stateOffset s' j k = slot size stateOffset s j k := by
  rw [hg.slots j hj k hk, if_neg fun h => hjl h.1]

end Granted

lemma Inv.manager_step {s' : State T} (h : Inv size stateOffset s)
    (he : ManagerEffect size stateOffset s s') : Inv size stateOffset s' := by
  obtain ⟨hpc, hmutex, hslots, hmanager⟩ := he
  refine ⟨fun n => hmutex ▸ h.ready n, fun i => hpc ▸ h.thread i,
    fun i l => hpc ▸ h.participates i l, fun i hi l hl => ?_, fun l hl n hn hslot => ?_,
    fun l hl n hn m hm hnl hml => ?_, hmanager⟩
  · have hcell := h.cells i hi l hl
    rcases hslots with hsame | ⟨j, k, hg⟩
    · simpa only [cell, hsame, hpc, hmutex] using hcell
    · simpa only [cell, hpc, hmutex] using hg.cell_ok hcell hl hi rfl
  · rw [hmutex]
    rcases hslots with hsame | ⟨j, k, hg⟩
    · exact h.covered l hl n hn (hsame l n ▸ hslot)
    · exact h.covered l hl n hn (hg.ne_idle hl hn hslot)
  · rcases hslots with hsame | ⟨j, k, hg⟩
    · exact h.oneLocked l hl n hn m hm (hsame l n ▸ hnl) (hsame l m ▸ hml)
    · by_cases hjl : l = j
      · subst hjl
        exact (hg.eq_of_locked hn hnl).trans (hg.eq_of_locked hm hml).symm
      · rw [hg.slot_of_ne hl hjl hn] at hnl
        rw [hg.slot_of_ne hl hjl hm] at hml
        exact h.oneLocked l hl n hn m hm hnl hml

lemma Inv.init [DecidableEq T] (h : (machine (T := T) size stateOffset).system.init s) :
    Inv size stateOffset s := by
  obtain ⟨⟨⟨shm, hshm⟩, hlocal⟩, hpc, hmgr⟩ := h
  replace hpc : ∀ i, s.pc i = ⟨.idle, fun _ => false, none⟩ := hpc
  have hslot : ∀ l, l < size.maxLocks → ∀ n, n < size.nodeCount →
      slot size stateOffset s l n = idle.toWord := fun l hl n hn => by
    rw [slot, hshm]
    exact readSlotState_initialize size.nodeCount_le (size.lock_lt hl) hn stateOffset shm
  have hstage : ∀ i l, (s.pc i).stage l = .out := fun i l => by
    simp [hpc, Thread.stage]
  refine ⟨fun n => ?_, fun i => ?_, fun i l hi => absurd (hstage i l) hi, fun i hi l hl => ?_,
    fun l hl n hn h => absurd (hslot l hl n hn) h, fun l hl n hn m hm hnl => ?_, ?_⟩
  · rw [hlocal]
    exact LocalLockArray.initializeArray_ready size
  · rw [hpc]
    exact ⟨by simp, by simp, by simp, by simp⟩
  · refine ⟨fun h => absurd (hstage i l) h, fun _ => hslot l hl i.1 hi, fun h => ?_,
      fun h => absurd (hslot l hl i.1 hi) h⟩
    exact absurd ((hstage i l).symm.trans h) (by decide)
  · exact absurd ((hslot l hl n hn).symm.trans hnl) (by decide)
  · rw [show s.mgr = .checkLocked 0 0 from hmgr]
    exact ⟨size.maxLocks_pos, size.nodeCount_pos,
      fun m hm => absurd hm (UInt32.not_lt.2 UInt32.zero_le)⟩

/-- The invariant holds in every reachable state. -/
lemma inv_of_reachable [DecidableEq T]
    (hs : (machine (T := T) size stateOffset).system.Reachable s) :
    Inv size stateOffset s := by
  refine Machine.invariant (fun _ => Inv.init) (fun s i c r h _ hr => ?_)
    (fun s q h _ hq => ?_) hs
  · simp only [machine, Option.ite_none_right_eq_some] at hr
    obtain ⟨hn, hr⟩ := hr
    refine h.thread_step hn (threadStep_effect hn (h.ready i.1) (h.thread i) (fun l hl => ?_) hr)
    exact (h.cells i hn l ((h.thread i).stage_lt hl)).owner hl
  · obtain rfl := Option.some.inj hq
    exact h.manager_step (managerStep_effect h.manager rfl)

/-- Two threads inside one lock have `LOCKED` slots and local mutexes of their own. -/
lemma Inv.exclusive (h : Inv size stateOffset s) : Exclusive s := by
  intro l i j hi hj
  have hstage : ∀ k, (s.pc k).inside l = true → (s.pc k).stage l = .inside := fun k hk => by
    simp [Thread.stage, hk]
  have hl := (h.thread i).inside_lt l hi
  have hpart : ∀ k, (s.pc k).inside l = true → k.1 < size.nodeCount := fun k hk =>
    h.participates k l (by simp [hstage k hk])
  have hci := h.cells i (hpart i hi) l hl
  have hcj := h.cells j (hpart j hj) l hl
  have hnode : i.1 = j.1 := h.oneLocked l hl i.1 (hpart i hi) j.1 (hpart j hj)
    (hci.inside (hstage i hi)) (hcj.inside (hstage j hj))
  have howner : (s.mem.localLocks i.1).owner l = some i.2 :=
    hci.owner (by simp [cell, hstage i hi])
  have howner' : (s.mem.localLocks j.1).owner l = some j.2 :=
    hcj.owner (by simp [cell, hstage j hj])
  rw [hnode, howner', Option.some.injEq] at howner
  exact Prod.ext hnode howner.symm

end Runs

/-! ## Exclusion -/

/-- **Mutual exclusion of the two-tier lock over the slot table.**  In every reachable state
at most one thread of the whole system is inside the critical section of a lock, at most one
slot of a lock is `LOCKED`, and behind every slot that is not `IDLE` there is a thread of its
node with the local mutex. -/
theorem cas_exclusive {T : Type} [DecidableEq T] (size : SystemSize) (stateOffset : ShmOffset)
    (s : State T) (hs : (machine size stateOffset).system.Reachable s) :
    Exclusive s ∧ OneLocked size stateOffset s ∧ SlotsCovered size stateOffset s :=
  have h := inv_of_reachable hs
  ⟨h.exclusive, h.oneLocked, h.covered⟩

/-- The same thread moves `k` times in a row, with the clock of its polls at `elapsedMs`. -/
def ticks {T : Type} (i : NodeId × T) (k : Nat) (elapsedMs : UInt64) :
    List (Turn (NodeId × T) Choice) :=
  List.replicate k (.party i (.clock elapsedMs))

/-- Thread 0 of node 0 is granted the lock, thread 7 of node 1 gives up in the meantime and
gets it in a second attempt. -/
theorem cas_exclusive_run : ∃ s : State Nat,
    (Exclusive s ∧ OneLocked (.of 2 1) 0 s ∧ SlotsCovered (.of 2 1) 0 s) ∧
      (s.pc (1, 7)).inside 0 = true := by
  obtain ⟨s, hs, hp⟩ := LabelledSystem.exists_of_exec (fun _ _ => True)
    ([.party (0, 0) (.acquire 0 5)] ++ ticks (0, 0) 2 0 ++ managerTurns 4 ++
      ticks (0, 0) 1 0 ++ [.party (1, 7) (.acquire 0 5)] ++ ticks (1, 7) 5 9 ++
      [.party (0, 0) (.release 0)] ++ ticks (0, 0) 2 0 ++ [.party (1, 7) (.acquire 0 5)] ++
      ticks (1, 7) 2 9 ++ managerTurns 5 ++ ticks (1, 7) 1 9)
    (fun s => (s.pc (1, 7)).inside 0)
    (zeroedStart_init Nat (.of 2 1) 0) (by decide +kernel)
  exact ⟨s, cas_exclusive (.of 2 1) 0 s hs, hp⟩

end CxlLock.Cas
