import CxlLock.Lib.Simulation
import CxlLock.LockManager
import Mathlib.Algebra.BigOperators.Group.Finset.Piecewise
import Mathlib.Data.Fintype.Option
import Mathlib.Data.Finset.Card
import Mathlib.Data.UInt

/-!
# What the statistics count (`lock_manager.cpp`)

`run_single_scan` is public, so several threads may scan at once, the worker thread among them,
and `reset_stats` may come at any time.  A grant and its count are two steps: between them other
threads may scan, count, and reset.  `stats_count_grants` says what the counters are worth all
the same.  For each lock the grants made so far are those that resets have thrown away, those
the counter shows, and one for each thread that stands between a grant and its count; the total
is the sum over the locks; and the idle scans are the finished scans that granted nothing.

The counters have 64 bits, so the counts are modulo `2 ^ 64`.

`runSingleScan_alone` connects the threads with the scan as one function: a call that no other
step comes between is `GlobalLockAlgorithm.runSingleScan`.
-/

namespace CxlLock.LockManager

open Transition

section Scans

variable {Shm T : Type}

/-- Where the worker thread is in `run_single_scan`. -/
def WorkerPc.scanPc : WorkerPc → Option ScanPc
  | .scan p => some p
  | .waiting | .testStop | .sleep => none

/-- Where a caller is in `run_single_scan`. -/
def CallerPc.scanPc : CallerPc → Option ScanPc
  | .scan p => some p
  | .idle | .startStop | .startRunning | .startThread | .stopRequest | .stopJoinable | .stopJoin
  | .stopRunning => none

/-- Where each thread is in `run_single_scan`; the thread `none` is the worker. -/
def scans (s : State Shm T) : Option T → Option ScanPc
  | none => s.mgr.scanPc
  | some i => (s.pc i).pc.scanPc

/-- The thread that makes a step. -/
def mover : Turn T (Choice Shm) → Option T
  | .party i _ => some i
  | .manager => none

variable [DecidableEq T] {alg : GlobalLockAlgorithm Shm} {size : SystemSize}
  {s s' : State Shm T} {o o' : Object Shm} {th th' : Caller} {c : Choice Shm}
  {e : Turn T (Choice Shm)} {i : T}

lemma scans_move : scans (s.move i (o', th')) =
    Function.update (scans s) (some i) th'.pc.scanPc := by
  funext x
  cases x with
  | none => rfl
  | some k =>
      by_cases hki : k = i
      · simp [scans, hki]
      · simp [scans, hki, Function.update_of_ne]

lemma scans_manage {q : WorkerPc} : scans (s.manage (o', q)) =
    Function.update (scans s) none q.scanPc := by
  funext x
  cases x with
  | none => simp [scans]
  | some k => simp [scans, Function.update_of_ne]

/-- What a step of one thread does to the statistics and to its scan: `p` is where its scan was,
`p'` where it is then. -/
inductive ScanEffect (alg : GlobalLockAlgorithm Shm) (size : SystemSize) (o : Object Shm)
    (resets : Prop) : Option ScanPc → Object Shm → Option ScanPc → Prop
  /-- The thread goes on with its scan. -/
  | scan (p : ScanPc) : ¬ resets → ScanEffect alg size o resets (some p)
      (scanStep alg size o p).1 (scanStep alg size o p).2
  | reset {o' : Object Shm} : resets → o'.stats = {} → ScanEffect alg size o resets none o' none
  /-- The thread does something else, or begins a scan. -/
  | aside {o' : Object Shm} {p' : Option ScanPc} : ¬ resets → o'.stats = o.stats →
      p' = none ∨ p' = some (.checkGrant 0 false) → ScanEffect alg size o resets none o' p'

lemma workerStep_scanEffect {q q' : WorkerPc} {resets : Prop} (hresets : ¬ resets)
    (h : workerStep alg size o q = some (o', q')) :
    ScanEffect alg size o resets q.scanPc o' q'.scanPc := by
  cases q with
  | waiting =>
      obtain ⟨-, h⟩ := Option.ite_none_right_eq_some.1 h
      cases h
      exact .aside hresets rfl (.inl rfl)
  | testStop =>
      simp only [workerStep] at h
      split_ifs at h with hstop <;> cases h
      · exact .aside hresets rfl (.inl rfl)
      · exact .aside hresets rfl (.inr rfl)
  | scan p =>
      cases h
      have heffect : ScanEffect alg size o resets (some p) _ _ := .scan p hresets
      cases hnext : (scanStep alg size o p).2 <;> rw [hnext] at heffect <;> exact heffect
  | sleep =>
      cases h
      exact .aside hresets rfl (.inl rfl)

lemma beginCall_scanEffect (hpc : th.pc = .idle) (h : beginCall o th c = some (o', th')) :
    ScanEffect alg size o (c = .resetStats) none o' th'.pc.scanPc := by
  have hidle : th.pc.scanPc = none := by rw [hpc]; rfl
  cases c with
  | start =>
      simp only [beginCall] at h
      split_ifs at h <;> cases h
      · exact .aside (by rintro ⟨⟩) rfl (.inl hidle)
      · exact .aside (by rintro ⟨⟩) rfl (.inl hidle)
      · exact .aside (by rintro ⟨⟩) rfl (.inl hidle)
      · exact .aside (by rintro ⟨⟩) rfl (.inl rfl)
  | stop =>
      simp only [beginCall] at h
      split_ifs at h <;> cases h
      · exact .aside (by rintro ⟨⟩) rfl (.inl hidle)
      · exact .aside (by rintro ⟨⟩) rfl (.inl rfl)
  | runSingleScan =>
      cases h
      exact .aside (by rintro ⟨⟩) rfl (.inr rfl)
  | resetStats =>
      cases h
      rw [hidle]
      exact .reset rfl rfl
  | others shm =>
      cases h
      exact .aside (by rintro ⟨⟩) rfl (.inl hidle)
  | goOn => cases h

lemma goOn_scanEffect (h : goOn alg size o th = some (o', th')) {resets : Prop}
    (hresets : ¬ resets) : ScanEffect alg size o resets th.pc.scanPc o' th'.pc.scanPc := by
  obtain ⟨pc, hpc⟩ : ∃ pc, th.pc = pc := ⟨_, rfl⟩
  cases pc <;> simp only [goOn, hpc] at h ⊢
  case idle => cases h
  case scan p =>
    cases h
    have heffect : ScanEffect alg size o resets (some p) _ _ := .scan p hresets
    cases hnext : (scanStep alg size o p).2 <;> rw [hnext] at heffect <;> exact heffect
  case startThread =>
    split_ifs at h <;> cases h
    · exact .aside hresets rfl (.inl rfl)
    · exact .aside hresets rfl (.inl (by rw [hpc]; rfl))
  case stopJoin =>
    split at h <;> cases h
    · exact .aside hresets rfl (.inl rfl)
    · exact .aside hresets rfl (.inl (by rw [hpc]; rfl))
  case stopJoinable =>
    cases h
    refine .aside hresets rfl (.inl ?_)
    dsimp only
    split_ifs <;> rfl
  all_goals
    cases h
    exact .aside hresets rfl (.inl rfl)

lemma callerStep_scanEffect (h : callerStep alg size o th c = some (o', th')) :
    ScanEffect alg size o (c = .resetStats) th.pc.scanPc o' th'.pc.scanPc := by
  unfold callerStep at h
  split at h
  · exact goOn_scanEffect h (by rintro ⟨⟩)
  · obtain ⟨hpc, h⟩ := Option.ite_none_right_eq_some.1 h
    have hidle : th.pc.scanPc = none := by rw [hpc]; rfl
    rw [hidle]
    exact beginCall_scanEffect hpc h

/-- What a step does to the statistics and to the scans. -/
lemma step_scanEffect (hnext : (machine alg size T).system.next s e = some s') :
    ∃ p', ScanEffect alg size s.mem (∃ i, e = .party i .resetStats) (scans s (mover e)) s'.mem p' ∧
      scans s' = Function.update (scans s) (mover e) p' := by
  cases e with
  | party i c =>
      obtain ⟨⟨o', th'⟩, h, rfl⟩ := Option.map_eq_some_iff.1 hnext
      obtain ⟨-, h⟩ := Option.ite_none_left_eq_some.1 h
      have hresets : (∃ k, Turn.party i c = .party k .resetStats) ↔ c = .resetStats := by simp
      refine ⟨th'.pc.scanPc, ?_, scans_move⟩
      rw [hresets]
      exact callerStep_scanEffect h
  | manager =>
      obtain ⟨⟨o', q'⟩, h, rfl⟩ := Option.map_eq_some_iff.1 hnext
      obtain ⟨-, h⟩ := Option.ite_none_left_eq_some.1 h
      exact ⟨q'.scanPc, workerStep_scanEffect (by simp) h, scans_manage⟩

/-! ## A scan that nobody disturbs -/

/-- The steps of one thread's call of `run_single_scan`. -/
def OwnScan (i : T) (e : Turn T (Choice Shm)) : Prop :=
  e = .party i .runSingleScan ∨ e = .party i .goOn

/-- `s'` is reached from `s` by steps of one scan alone. -/
abbrev ScansTo (alg : GlobalLockAlgorithm Shm) (size : SystemSize) (i : T)
    (s s' : State Shm T) : Prop :=
  ((machine alg size T).system.startingAt s).ReachableWhen (fun _ => OwnScan i) s'

lemma scansTo_of_goOn (halive : o.terminated = false)
    (hstep : goOn alg size o th = some (o', th')) :
    ScansTo alg size i (s.move i (o, th)) (s.move i (o', th')) := by
  refine LabelledSystem.reachableWhen_one (f := .party i .goOn) (.inr rfl) ?_
  show (machine alg size T).system.next (s.move i (o, th)) (.party i .goOn) = _
  simp [Machine.system, machine, callerStep, halive, hstep, Config.move]

lemma scansTo_goOn {res : Option LockResult} {p p' : ScanPc} (halive : o.terminated = false)
    (hstep : scanStep alg size o p = (o', some p')) :
    ScansTo alg size i (s.move i (o, ⟨.scan p, res⟩)) (s.move i (o', ⟨.scan p', res⟩)) :=
  scansTo_of_goOn halive (by simp [goOn, hstep])

variable (alg size s i) in
/-- The turns of the loop for one lock are one `scanStep`. -/
lemma scansTo_nextLock (res : Option LockResult) (lid : LockId) (anyWork : Bool)
    (halive : o.terminated = false) :
    ScansTo alg size i (s.move i (o, ⟨.scan (.checkGrant lid anyWork), res⟩))
      (s.move i
        ({ o with
            stats := (alg.scanStep size.nodeCount (anyWork, o.stats, o.shm) lid).2.1
            shm := (alg.scanStep size.nodeCount (anyWork, o.stats, o.shm) lid).2.2 },
          ⟨.scan (nextLock size lid
            (alg.scanStep size.nodeCount (anyWork, o.stats, o.shm) lid).1), res⟩)) := by
  obtain ⟨⟨grantee, shm⟩, hcheck⟩ : ∃ r, alg.checkGrant size.nodeCount lid o.shm = r := ⟨_, rfl⟩
  by_cases hgrantee : grantee = invalidNodeId
  · refine scansTo_goOn halive ?_
    simp [scanStep, GlobalLockAlgorithm.scanStep, GlobalLockAlgorithm.scanLock, hcheck, hgrantee]
  obtain ⟨⟨rc, shm'⟩, hgrant⟩ : ∃ r, alg.grantLock size.nodeCount grantee lid shm = r := ⟨_, rfl⟩
  have hfirst : ScansTo alg size i (s.move i (o, ⟨.scan (.checkGrant lid anyWork), res⟩))
      (s.move i ({ o with shm := shm }, ⟨.scan (.grantLock grantee lid anyWork), res⟩)) := by
    refine scansTo_goOn halive ?_
    simp [scanStep, hcheck, hgrantee]
  by_cases hrc : rc = .success
  · have hsecond : ScansTo alg size i
        (s.move i ({ o with shm := shm }, ⟨.scan (.grantLock grantee lid anyWork), res⟩))
        (s.move i ({ o with shm := shm' }, ⟨.scan (.countGrant lid), res⟩)) := by
      refine scansTo_goOn halive ?_
      simp [scanStep, hgrant, hrc]
    refine (hfirst.trans hsecond).trans (scansTo_goOn halive ?_)
    simp [scanStep, GlobalLockAlgorithm.scanStep, GlobalLockAlgorithm.scanLock, hcheck, hgrantee,
      hgrant, hrc]
  · refine hfirst.trans (scansTo_goOn halive ?_)
    simp [scanStep, GlobalLockAlgorithm.scanStep, GlobalLockAlgorithm.scanLock, hcheck, hgrantee,
      hgrant, hrc]

lemma drop_idsBelow {lid : LockId} (hlid : lid < size.maxLocks) :
    (idsBelow size.maxLocks).drop lid.toNat =
      lid :: (idsBelow size.maxLocks).drop (lid.toNat + 1) := by
  have hlength : lid.toNat < (idsBelow size.maxLocks).length := by
    simpa [idsBelow] using UInt32.lt_iff_toNat_lt.1 hlid
  rw [List.drop_eq_getElem_cons hlength]
  simp [idsBelow]

lemma succ_lt {lid : LockId} {k : ℕ} (hk : size.maxLocks.toNat - lid.toNat = k + 2) :
    lid + 1 < size.maxLocks ∧ (lid + 1).toNat = lid.toNat + 1 := by
  have hbound := size.maxLocks.toNat_lt
  have hnext : (lid + 1).toNat = lid.toNat + 1 := by
    rw [UInt32.toNat_add, UInt32.toNat_one]
    omega
  refine ⟨?_, hnext⟩
  rw [UInt32.lt_iff_toNat_lt, hnext]
  omega

variable (alg s i) in
/-- The loop from a lock on, and the counts after it. -/
lemma scansTo_rest (res : Option LockResult) (k : ℕ) {lid : LockId} {anyWork : Bool}
    (halive : o.terminated = false) (hlid : lid < size.maxLocks)
    (hk : size.maxLocks.toNat - lid.toNat = k + 1) {acc : Bool × ManagerStats × Shm}
    (hacc : ((idsBelow size.maxLocks).drop lid.toNat).foldl (alg.scanStep size.nodeCount)
      (anyWork, o.stats, o.shm) = acc) :
    ScansTo alg size i (s.move i (o, ⟨.scan (.checkGrant lid anyWork), res⟩))
      (s.move i ((scanStep alg size { o with stats := acc.2.1, shm := acc.2.2 }
        (.countScan acc.1)).1, ⟨.idle, res⟩)) := by
  induction k generalizing lid anyWork o with
  | zero =>
      have hturn := scansTo_nextLock alg size s i res lid anyWork halive
      have hlast : (idsBelow size.maxLocks).drop (lid.toNat + 1) = [] := by
        rw [List.drop_eq_nil_iff]
        simp only [idsBelow, List.length_map, List.length_range]
        omega
      have hstop : ¬ lid + 1 < size.maxLocks := by
        have hbound := size.maxLocks.toNat_lt
        rw [UInt32.lt_iff_toNat_lt, UInt32.toNat_add, UInt32.toNat_one]
        rw [UInt32.lt_iff_toNat_lt] at hlid
        have := size.maxLocks_le
        rw [UInt32.le_iff_toNat_le] at this
        simp only [maxLockCount, UInt32.reduceToNat] at this
        omega
      rw [drop_idsBelow hlid, hlast, List.foldl_cons, List.foldl_nil] at hacc
      rw [hacc, nextLock, if_neg hstop] at hturn
      exact hturn.trans (scansTo_of_goOn halive rfl)
  | succ k ih =>
      have hturn := scansTo_nextLock alg size s i res lid anyWork halive
      obtain ⟨hlt, hnext⟩ := succ_lt hk
      rw [nextLock, if_pos hlt] at hturn
      refine hturn.trans (ih (o := { o with stats := _, shm := _ }) halive hlt ?_ ?_)
      · rw [hnext]
        omega
      · rw [hnext]
        rw [drop_idsBelow hlid, List.foldl_cons] at hacc
        exact hacc

/-- **A scan that nobody disturbs is `run_single_scan`.**  When no other step comes between those
of a call, the members and the records are changed as by the whole function at once. -/
lemma runSingleScan_alone {res : Option LockResult} (halive : s.mem.terminated = false)
    (hpc : s.pc i = ⟨.idle, res⟩) :
    ScansTo alg size i s (s.move i
      ({ s.mem with
          stats := (alg.runSingleScan size s.mem.stats s.mem.shm).1
          shm := (alg.runSingleScan size s.mem.stats s.mem.shm).2 }, ⟨.idle, res⟩)) := by
  have hbegin : ScansTo alg size i s (s.move i (s.mem, ⟨.scan (.checkGrant 0 false), res⟩)) := by
    refine LabelledSystem.reachableWhen_one (f := .party i .runSingleScan) (.inl rfl) ?_
    simp [Machine.system, machine, callerStep, beginCall, halive, hpc]
  obtain ⟨k, hk⟩ : ∃ k, size.maxLocks.toNat - (0 : LockId).toNat = k + 1 :=
    Nat.exists_eq_succ_of_ne_zero (by
      have hpos := UInt32.lt_iff_toNat_lt.1 size.maxLocks_pos
      rw [UInt32.toNat_zero] at hpos ⊢
      omega)
  have hloop := hbegin.trans (scansTo_rest alg s i res k halive size.maxLocks_pos hk rfl)
  rw [UInt32.toNat_zero, List.drop_zero] at hloop
  have hend : ∀ acc : Bool × ManagerStats × Shm,
      (scanStep alg size { s.mem with stats := acc.2.1, shm := acc.2.2 } (.countScan acc.1)).1 =
        { s.mem with
          stats := if acc.1 then { acc.2.1 with scanCycles := acc.2.1.scanCycles + 1 }
            else { acc.2.1 with
              scanCycles := acc.2.1.scanCycles + 1
              idleCycles := acc.2.1.idleCycles + 1 }
          shm := acc.2.2 } := fun acc => by
    rfl
  rw [hend] at hloop
  exact hloop

end Scans

/-! ## The count -/

/-- What has happened so far. -/
structure Tally (T : Type) where
  /-- The calls of `grant_lock` that have succeeded. -/
  granted : LockId → ℕ
  /-- The counts that `reset_stats` has thrown away. -/
  discarded : LockId → UInt64
  /-- The grants of the scan that a thread is in. -/
  work : Option T → ℕ
  /-- The scans that have ended since the last reset. -/
  finished : ℕ
  /-- Those among them that have granted nothing. -/
  idle : ℕ

section Count

variable {Shm T : Type} [DecidableEq T] (alg : GlobalLockAlgorithm Shm) (size : SystemSize)

/-- Nothing has happened. -/
def Tally.none : Tally T := ⟨fun _ => 0, fun _ => 0, fun _ => 0, 0, 0⟩

/-- The record of a step: what its thread does, from where its scan is. -/
def record (s : State Shm T) (e : Turn T (Choice Shm)) (_ : State Shm T) (h : Tally T) : Tally T :=
  match scans s (mover e) with
  | some (.grantLock grantee lid _) =>
      if (alg.grantLock size.nodeCount grantee lid s.mem.shm).1 = .success then
        { h with
          granted := Function.update h.granted lid (h.granted lid + 1)
          work := Function.update h.work (mover e) (h.work (mover e) + 1) }
      else h
  | some (.countScan _) =>
      { h with
        finished := h.finished + 1
        idle := if h.work (mover e) = 0 then h.idle + 1 else h.idle
        work := Function.update h.work (mover e) 0 }
  | some (.checkGrant _ _) | some (.countGrant _) => h
  | .none => match e with
      | .party _ .resetStats =>
          { h with
            discarded := fun l => h.discarded l + s.mem.stats.grantsByLock l
            finished := 0
            idle := 0 }
      | _ => h

/-- The flag of a scan, with the grant that it is about to count. -/
def ScanPc.anyWork : ScanPc → Bool
  | .checkGrant _ anyWork | .grantLock _ _ anyWork | .countScan anyWork => anyWork
  | .countGrant _ => true

/-- A thread that scans one of the locks and has made `w` grants in this scan, or does not
scan. -/
def InScan (w : ℕ) : Option ScanPc → Prop
  | some p => p.Ok size ∧ (p.anyWork = true ↔ 0 < w)
  | .none => w = 0

variable [Fintype T]

/-- The threads that have granted the lock and not counted it yet. -/
def uncounted (f : Option T → Option ScanPc) (l : LockId) : ℕ :=
  (Finset.univ.filter fun x => f x = some (.countGrant l)).card

/-- The counters agree with what has happened. -/
structure Counted (o : Object Shm) (f : Option T → Option ScanPc) (h : Tally T) : Prop where
  threads : ∀ x, InScan size (h.work x) (f x)
  byLock : ∀ l, UInt64.ofNat (h.granted l) =
    h.discarded l + o.stats.grantsByLock l + UInt64.ofNat (uncounted f l)
  total : o.stats.grantsTotal = ((idsBelow size.maxLocks).map o.stats.grantsByLock).sum
  scanCycles : o.stats.scanCycles = .ofNat h.finished
  idleCycles : o.stats.idleCycles = .ofNat h.idle
  idle_le : h.idle ≤ h.finished

variable {alg size} {s s' : State Shm T} {o o' : Object Shm} {f : Option T → Option ScanPc}
  {h : Tally T} {x : Option T} {p : ScanPc} {p' : Option ScanPc} {lid l : LockId}
  {e : Turn T (Choice Shm)} {anyWork : Bool}

variable (f x p' l) in
lemma uncounted_update : uncounted (Function.update f x p') l +
      (if f x = some (.countGrant l) then 1 else 0) =
    uncounted f l + (if p' = some (.countGrant l) then 1 else 0) := by
  simp only [uncounted, Finset.card_filter]
  rw [← Finset.add_sum_erase _ _ (Finset.mem_univ x),
    ← Finset.add_sum_erase Finset.univ (fun y => if f y = some (.countGrant l) then 1 else 0)
      (Finset.mem_univ x)]
  have hothers : ∀ y ∈ Finset.univ.erase x,
      (if Function.update f x p' y = some (.countGrant l) then 1 else 0) =
        if f y = some (.countGrant l) then 1 else 0 := fun y hy => by
    rw [Function.update_of_ne (Finset.ne_of_mem_erase hy)]
  rw [Finset.sum_congr rfl hothers, Function.update_self]
  omega

/-- A step that neither makes nor counts a grant of the lock. -/
lemma uncounted_update_of_ne (hx : f x ≠ some (.countGrant l)) (hp : p' ≠ some (.countGrant l)) :
    uncounted (Function.update f x p') l = uncounted f l := by
  have hcount := uncounted_update f x p' l
  rwa [if_neg hx, if_neg hp] at hcount

lemma nextLock_anyWork : (nextLock size lid anyWork).anyWork = anyWork := by
  unfold nextLock
  split_ifs <;> rfl

lemma nextLock_ne_countGrant : nextLock size lid anyWork ≠ .countGrant l := by
  unfold nextLock
  split_ifs <;> rintro ⟨⟩

lemma sum_map_update {lids : List LockId} (hnodup : lids.Nodup) (hl : l ∈ lids)
    (g : LockId → UInt64) :
    (lids.map (Function.update g l (g l + 1))).sum = (lids.map g).sum + 1 := by
  induction lids with
  | nil => cases hl
  | cons a lids ih =>
      obtain ⟨ha, hnodup⟩ := List.nodup_cons.1 hnodup
      rw [List.map_cons, List.map_cons, List.sum_cons, List.sum_cons]
      by_cases hal : a = l
      · subst hal
        have hothers : lids.map (Function.update g a (g a + 1)) = lids.map g :=
          List.map_congr_left fun b hb => by
            have hba : b ≠ a := fun hba => ha (hba ▸ hb)
            rw [Function.update_of_ne hba]
        rw [Function.update_self, hothers]
        ac_rfl
      · have hrest := ih hnodup ((List.mem_cons.1 hl).resolve_left (Ne.symm hal))
        rw [Function.update_of_ne hal, hrest, UInt64.add_assoc]

omit [DecidableEq T] in
lemma Counted.start (hstats : o.stats = {}) (hf : ∀ x, f x = .none) :
    Counted size o f (.none : Tally T) := by
  have hnone : ∀ l, uncounted f l = 0 := fun l => by simp [uncounted, hf]
  refine ⟨fun x => ?_, fun l => ?_, ?_, ?_, ?_, Nat.le_refl _⟩
  · rw [hf]
    rfl
  · rw [hnone, hstats]
    rfl
  · rw [hstats]
    show (0 : UInt64) = ((idsBelow size.maxLocks).map fun _ => 0).sum
    induction idsBelow size.maxLocks with
    | nil => rfl
    | cons a lids ih => rw [List.map_cons, List.sum_cons, ← ih, UInt64.zero_add]
  · rw [hstats]
    rfl
  · rw [hstats]
    rfl

lemma Counted.threads_update (hc : Counted size o f h) {w : ℕ} (hp : InScan size w p')
    (y : Option T) :
    InScan size (Function.update h.work x w y) (Function.update f x p' y) := by
  by_cases hyx : y = x
  · rw [hyx, Function.update_self, Function.update_self]
    exact hp
  · rw [Function.update_of_ne hyx, Function.update_of_ne hyx]
    exact hc.threads y

/-- A step that changes no counter, of a thread that has granted nothing and counts nothing. -/
lemma Counted.of_quiet (hc : Counted size o f h) (hstats : o'.stats = o.stats)
    (hp : InScan size (h.work x) p') (hx : ∀ l, f x ≠ some (.countGrant l))
    (hp' : ∀ l, p' ≠ some (.countGrant l)) : Counted size o' (Function.update f x p') h := by
  refine ⟨fun y => ?_, fun l => ?_, by rw [hstats, hc.total], by rw [hstats, hc.scanCycles],
    by rw [hstats, hc.idleCycles], hc.idle_le⟩
  · have hy := hc.threads_update (x := x) hp y
    rwa [Function.update_eq_self] at hy
  · rw [hstats, uncounted_update_of_ne (hx l) (hp' l), hc.byLock]

/-- A grant that is not counted yet. -/
lemma Counted.of_grant (hc : Counted size o f h) (hstats : o'.stats = o.stats)
    {grantee : NodeId} (hx : f x = some (.grantLock grantee lid anyWork)) :
    Counted size o' (Function.update f x (some (.countGrant lid)))
      { h with
        granted := Function.update h.granted lid (h.granted lid + 1)
        work := Function.update h.work x (h.work x + 1) } := by
  have hthread := hc.threads x
  rw [hx] at hthread
  refine ⟨hc.threads_update ⟨hthread.1, ?_⟩, fun l => ?_, by rw [hstats, hc.total],
    by rw [hstats, hc.scanCycles], by rw [hstats, hc.idleCycles], hc.idle_le⟩
  · exact ⟨fun _ => Nat.succ_pos _, fun _ => rfl⟩
  · have hcount := uncounted_update f x (some (.countGrant lid)) l
    have hx' : f x ≠ some (.countGrant l) := by rw [hx]; rintro ⟨⟩
    rw [if_neg hx', Nat.add_zero] at hcount
    show UInt64.ofNat (Function.update h.granted lid _ l) = h.discarded l + _ + _
    rw [hstats, hcount]
    by_cases hl : l = lid
    · subst hl
      rw [Function.update_self, if_pos rfl, UInt64.ofNat_add, UInt64.ofNat_add, hc.byLock,
        UInt64.add_assoc]
    · rw [Function.update_of_ne hl, if_neg (by simpa using Ne.symm hl), Nat.add_zero, hc.byLock]

/-- A grant is counted. -/
lemma Counted.of_count (hc : Counted size o f h) (hx : f x = some (.countGrant lid)) :
    Counted size (scanStep alg size o (.countGrant lid)).1
      (Function.update f x (some (nextLock size lid true))) h := by
  have hthread := hc.threads x
  rw [hx] at hthread
  refine ⟨fun y => ?_, fun l => ?_, ?_, hc.scanCycles, hc.idleCycles, hc.idle_le⟩
  · have hnext : InScan size (h.work x) (some (nextLock size lid true)) :=
      ⟨nextLock_ok, by rw [nextLock_anyWork]; exact hthread.2⟩
    have hy := hc.threads_update (x := x) hnext y
    rwa [Function.update_eq_self] at hy
  · have hcount := uncounted_update f x (some (nextLock size lid true)) l
    rw [if_neg (fun h => nextLock_ne_countGrant (Option.some.inj h)), hx, Nat.add_zero] at hcount
    show _ = h.discarded l + Function.update o.stats.grantsByLock lid _ l + _
    rw [hc.byLock, ← hcount]
    by_cases hl : l = lid
    · subst hl
      rw [if_pos rfl, Function.update_self, UInt64.ofNat_add]
      show _ = h.discarded l + (o.stats.grantsByLock l + UInt64.ofNat 1) + _
      ac_rfl
    · rw [if_neg (by simpa using Ne.symm hl), Function.update_of_ne hl, Nat.add_zero]
  · show o.stats.grantsTotal + 1 = _
    rw [hc.total]
    exact (sum_map_update ((pairwise_idsBelow _).imp fun hlt => UInt32.ne_of_lt hlt)
      (mem_idsBelow.2 hthread.1) _).symm

/-- A scan ends. -/
lemma Counted.of_finish (hc : Counted size o f h) (hx : f x = some (.countScan anyWork)) :
    Counted size (scanStep alg size o (.countScan anyWork)).1 (Function.update f x .none)
      { h with
        finished := h.finished + 1
        idle := if h.work x = 0 then h.idle + 1 else h.idle
        work := Function.update h.work x 0 } := by
  have hthread := hc.threads x
  rw [hx] at hthread
  have hidle : anyWork = false ↔ h.work x = 0 := by
    rw [← Bool.not_eq_true, show (anyWork = true ↔ 0 < h.work x) from hthread.2]
    omega
  have hquiet : ∀ l, uncounted (Function.update f x .none) l = uncounted f l := fun l =>
    uncounted_update_of_ne (by rw [hx]; rintro ⟨⟩) (by rintro ⟨⟩)
  have hle := hc.idle_le
  cases anyWork with
  | true =>
      have hwork : h.work x ≠ 0 := by simpa using hidle.not.1 (by decide)
      refine ⟨hc.threads_update rfl, fun l => ?_, hc.total, ?_, ?_, ?_⟩
      · rw [hquiet]
        exact hc.byLock l
      · show o.stats.scanCycles + 1 = _
        rw [hc.scanCycles, UInt64.ofNat_add]
        rfl
      · rw [if_neg hwork]
        exact hc.idleCycles
      · rw [if_neg hwork]
        exact Nat.le_succ_of_le hle
  | false =>
      have hwork : h.work x = 0 := hidle.1 rfl
      refine ⟨hc.threads_update rfl, fun l => ?_, hc.total, ?_, ?_, ?_⟩
      · rw [hquiet]
        exact hc.byLock l
      · show o.stats.scanCycles + 1 = _
        rw [hc.scanCycles, UInt64.ofNat_add]
        rfl
      · show o.stats.idleCycles + 1 = _
        rw [if_pos hwork, hc.idleCycles, UInt64.ofNat_add]
        rfl
      · rw [if_pos hwork]
        exact Nat.succ_le_succ hle

omit [DecidableEq T] in
/-- A reset throws the counts away. -/
lemma Counted.of_reset (hc : Counted size o f h) (hstats : o'.stats = {}) :
    Counted size o' f
      { h with
        discarded := fun l => h.discarded l + o.stats.grantsByLock l
        finished := 0
        idle := 0 } := by
  have hstart : Counted size o' (fun _ => none) (.none : Tally T) :=
    Counted.start hstats fun _ => rfl
  have hzero := hstart.total
  refine ⟨hc.threads, fun l => ?_, hzero, ?_, ?_, Nat.le_refl _⟩
  · rw [hc.byLock, hstats]
    show _ = h.discarded l + o.stats.grantsByLock l + 0 + _
    rw [UInt64.add_zero]
  · rw [hstats]
    rfl
  · rw [hstats]
    rfl

/-- Every step keeps the counters in agreement with the record. -/
lemma Counted.step (hc : Counted size s.mem (scans s) h)
    (hnext : (machine alg size T).system.next s e = some s') :
    Counted size s'.mem (scans s') (record alg size s e s' h) := by
  obtain ⟨p', heffect, hscans⟩ := step_scanEffect hnext
  have hthread := hc.threads (mover e)
  obtain ⟨v, hv⟩ : ∃ v, scans s (mover e) = v := ⟨_, rfl⟩
  obtain ⟨o', ho⟩ : ∃ o', s'.mem = o' := ⟨_, rfl⟩
  rw [hscans]
  unfold record
  rw [hv, ho] at heffect
  rw [hv] at hthread
  rw [hv, ho]
  cases heffect with
  | scan p hresets =>
      cases p with
      | checkGrant lid anyWork =>
          refine hc.of_quiet rfl ?_ (by rw [hv]; rintro _ ⟨⟩) fun l hl => ?_
          · show InScan size _ (some (if _ then _ else _))
            split_ifs
            · exact ⟨nextLock_ok, by rw [nextLock_anyWork]; exact hthread.2⟩
            · exact hthread
          · replace hl := Option.some.inj hl
            split_ifs at hl
            exact nextLock_ne_countGrant hl
      | grantLock grantee lid anyWork =>
          show Counted size _ (Function.update (scans s) (mover e) (some (if _ then _ else _)))
            (if _ then _ else _)
          split_ifs
          · exact hc.of_grant rfl hv
          · refine hc.of_quiet rfl ⟨nextLock_ok, by rw [nextLock_anyWork]; exact hthread.2⟩
              (by rw [hv]; rintro _ ⟨⟩) fun l hl => ?_
            exact nextLock_ne_countGrant (Option.some.inj hl)
      | countGrant lid => exact hc.of_count hv
      | countScan anyWork => exact hc.of_finish hv
  | reset hresets hstats =>
      obtain ⟨i, rfl⟩ := hresets
      rw [Function.update_eq_self_iff.2 hv.symm]
      exact hc.of_reset hstats
  | aside hresets hstats hp' =>
      have hquiet : Counted size o' (Function.update (scans s) (mover e) p') h := by
        refine hc.of_quiet hstats ?_ (by rw [hv]; rintro _ ⟨⟩) fun l hl => ?_
        · rcases hp' with rfl | rfl
          · exact hthread
          · exact ⟨size.maxLocks_pos, by rw [show h.work (mover e) = 0 from hthread]; decide⟩
        · rcases hp' with rfl | rfl <;> cases hl
      dsimp only
      split
      · exact absurd ⟨_, rfl⟩ hresets
      · exact hquiet

/-- **The statistics miss no grant and count none twice.**  Whatever threads scan, count and
reset at the same time: for each lock the grants made so far are those that the resets have
thrown away, those that its counter shows, and one for each thread that has granted the lock and
not counted it yet; the total is the sum over the locks; and the cycles are the scans ended
since the last reset, the idle ones those that granted nothing. -/
theorem stats_count_grants {p : State Shm T × Tally T}
    (hp : ((machine alg size T).system.withHistory .none (record alg size)).Reachable p) :
    (∀ l, UInt64.ofNat (p.2.granted l) = p.2.discarded l + p.1.mem.stats.grantsByLock l +
      UInt64.ofNat (uncounted (scans p.1) l)) ∧
    p.1.mem.stats.grantsTotal =
      ((idsBelow size.maxLocks).map p.1.mem.stats.grantsByLock).sum ∧
    p.1.mem.stats.scanCycles = .ofNat p.2.finished ∧
    p.1.mem.stats.idleCycles = .ofNat p.2.idle ∧ p.2.idle ≤ p.2.finished := by
  have hc : Counted size p.1.mem (scans p.1) p.2 := by
    refine LabelledSystem.Reachable.invariant
      (I := fun p : State Shm T × Tally T => Counted size p.1.mem (scans p.1) p.2)
      (fun p hi => ?_) (fun p e p' hc hnext => ?_) hp
    · obtain ⟨⟨⟨-, -, -, hstats⟩, hpc, hmgr⟩, hnone⟩ := hi
      rw [hnone]
      refine .start hstats fun x => ?_
      cases x with
      | none =>
          show p.1.mgr.scanPc = .none
          rw [hmgr]
          rfl
      | some i =>
          show (p.1.pc i).pc.scanPc = .none
          rw [hpc]
          rfl
    · obtain ⟨s', hs', rfl⟩ := Option.map_eq_some_iff.1 hnext
      exact hc.step hs'
  exact ⟨hc.byLock, hc.total, hc.scanCycles, hc.idleCycles, hc.idle_le⟩

/-- Node 0 waits for lock 0 under MCS. -/
def oneWaiter : McsShm := (Mcs.acquireLock 1 0 0 (Mcs.initializeShm 1 zeroedRecords).2).2

/-- A reset comes between a grant and its count; the counter shows the grant nevertheless. -/
theorem stats_count_grants_after_reset : ∃ p : State McsShm Bool × Tally Bool,
    p.2.granted 0 = 1 ∧
    1 = p.2.discarded 0 + p.1.mem.stats.grantsByLock 0 + UInt64.ofNat (uncounted (scans p.1) 0) ∧
    p.1.mem.stats.grantsByLock 0 = 1 := by
  obtain ⟨p, hp, hcheck⟩ := LabelledSystem.exists_of_exec (fun _ _ => True)
    (S := (oneLock Bool).system.withHistory .none (record Mcs.algorithm (.of 1 1)))
    [.party false .runSingleScan, .party false .goOn, .party false .goOn, .party true .resetStats,
      .party false .goOn]
    (fun p => p.2.granted 0 == 1 && p.1.mem.stats.grantsByLock 0 == 1)
    (s := (_, Tally.none)) ⟨fresh_init Mcs.algorithm (.of 1 1) Bool oneWaiter, rfl⟩ (by decide)
  simp only [Bool.and_eq_true, beq_iff_eq] at hcheck
  have hcount := (stats_count_grants hp).1 0
  rw [hcheck.1] at hcount
  exact ⟨p, hcheck.1, hcount, hcheck.2⟩

end Count

end CxlLock.LockManager
