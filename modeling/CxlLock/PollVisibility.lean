import CxlLock.AccessModel

/-!
# What a polling node sees (`two_tier_lock.cpp`)

Runs of the system in `SOFTWARE_CONSISTENCY` mode, access by access: every node has private
copies of lines, which its threads share and which only its own flushes drop.  Each thread makes
calls of the algorithm and iterations of `poll_for_grant` one after another, and the accesses of
all threads come in any order.

`poll_for_grant` loads the words of its test and does not invalidate their lines before it does,
although the documents say so (`invalidate_cache` in `shared_memory.h`).  `poll_granted_iff` says
what an iteration returns then: the test on what the node has in view when the iteration begins,
which is its own copy of a line where it has one.  A grant that another node has written and
flushed is observed by a node that has no copy of the lines, and missed by one whose copies are
older than the grant (`cas_poll_misses_grant`).
-/

namespace CxlLock

open AccessProgram

/-- A thread of a node; the threads of a node share its cache. -/
structure Thread where
  node : NodeId
  id : Nat
  deriving DecidableEq

/-- The calls that the threads of a node make: requests and releases are for the node itself. -/
def Operation.By (n : NodeId) : Operation → Prop
  | .acquireLock nodeId _ | .releaseLock nodeId _ => nodeId = n
  | .initializeShm _ | .checkGrant _ _ | .grantLock _ _ => True

section Runs

variable (k : LockAlgorithm) (off : ShmOffset) (nodeCount : UInt32)

/-- The accesses of a thread of the node: one call or iteration after another. -/
inductive Session (n : NodeId) : List (Event k.accesses.Word UInt32) → Prop
  | done : Session n []
  | call {op : Operation} {fuel : Nat} {t rest : List (Event k.accesses.Word UInt32)}
      {r : Answer} (hby : op.By n) (hruns : (k.accesses.program off nodeCount fuel op).Runs t r)
      (hrest : Session n rest) : Session n (t ++ rest)
  | poll {l : LockId} {t rest : List (Event k.accesses.Word UInt32)} {granted : Bool}
      (hruns : (k.accesses.poll off nodeCount n l).Runs t granted)
      (hrest : Session n rest) : Session n (t ++ rest)

/-- The caches after some accesses, from a memory of which nobody has copies. -/
def cachesAfter (m : k.accesses.Word → UInt32)
    (es : List (Thread × Event k.accesses.Word UInt32)) :
    Option (Caches k.accesses.Word UInt32 Nat NodeId) :=
  (Caches.start m).replay (k.accesses.lines off) Thread.node es

/-- A run of the system: the caches allow the accesses, and what each thread has done up to now
is the begin of a session. -/
structure IsRun (m : k.accesses.Word → UInt32)
    (es : List (Thread × Event k.accesses.Word UInt32)) : Prop where
  replays : (cachesAfter k off m es).isSome
  sessions : ∀ a : Thread, ∃ rest, Session k off nodeCount a.node (Caches.byAgent a es ++ rest)

/-- An iteration of `poll_for_grant` in a run. -/
structure Iteration (es : List (Thread × Event k.accesses.Word UInt32)) where
  before : List (Thread × Event k.accesses.Word UInt32)
  during : List (Thread × Event k.accesses.Word UInt32)
  after : List (Thread × Event k.accesses.Word UInt32)
  split : es = before ++ (during ++ after)
  thread : Thread
  lockId : LockId
  granted : Bool
  runs : (k.accesses.poll off nodeCount thread.node lockId).Runs
    (Caches.byAgent thread during) granted

end Runs

namespace Iteration

variable {k : LockAlgorithm} {off : ShmOffset} {nodeCount : UInt32}
  {es : List (Thread × Event k.accesses.Word UInt32)} (i : Iteration k off nodeCount es)

/-- The words that the iteration reads. -/
def reads : List k.accesses.Word :=
  k.accesses.pollReads off nodeCount i.thread.node i.lockId

/-- Nobody changes the words that the iteration reads in memory while it runs, and the other
threads of the node leave their lines alone. -/
structure Undisturbed (s : Caches k.accesses.Word UInt32 Nat NodeId) : Prop where
  steady : s.Steady (k.accesses.lines off) Thread.node i.reads i.during
  alone : ∀ e ∈ i.during, e.1.node = i.thread.node → e.1 ≠ i.thread → ∀ x ∈ i.reads,
    ¬ e.2.Touches (k.accesses.lines off) ((k.accesses.lines off).line x) ∧
      ¬ e.2.Flushes (k.accesses.lines off) ((k.accesses.lines off).line x)

/-- A `grant_lock` of the lock to the node by a thread of another node has returned before the
iteration begins. -/
def GrantedByOther : Prop :=
  ∃ es₁ es₂ es₃ a fuel, i.before = es₁ ++ (es₂ ++ es₃) ∧ a.node ≠ i.thread.node ∧
    (k.accesses.program off nodeCount fuel (.grantLock i.thread.node i.lockId)).Runs
      (Caches.byAgent a es₂) (.inl .success)

end Iteration

variable {k : LockAlgorithm} {off : ShmOffset} {nodeCount : UInt32}
  {es : List (Thread × Event k.accesses.Word UInt32)} {i : Iteration k off nodeCount es}
  {s : Caches k.accesses.Word UInt32 Nat NodeId}

lemma Iteration.loads {e : Thread × Event k.accesses.Word UInt32} (he : e ∈ i.during)
    (hthread : e.1 = i.thread) : ∃ x ∈ i.reads, ∃ v, e.2 = .load x v :=
  (k.accesses.poll_loads off nodeCount _ _).of_runs i.runs e.2
    (List.mem_filterMap.2 ⟨e, he, by rw [if_pos hthread]⟩)

/-- The iteration itself only loads. -/
lemma Iteration.leavesAlone (h : i.Undisturbed s) :
    Caches.LeavesAlone (k.accesses.lines off) Thread.node i.thread.node i.reads i.during := by
  intro e he hnode x hx
  by_cases hthread : e.1 = i.thread
  · obtain ⟨y, -, v, hload⟩ := i.loads he hthread
    rw [hload]
    exact ⟨fun h => h, fun h => h⟩
  · exact h.alone e he hnode hthread x hx

/-- Nothing disturbs an iteration that runs on its own. -/
lemma Iteration.undisturbed_of_own (hown : ∀ e ∈ i.during, e.1 = i.thread) :
    i.Undisturbed s where
  steady := Caches.steady_of_noFlush fun e he ln => by
    obtain ⟨x, -, v, hload⟩ := i.loads he (hown e he)
    rw [hload]
    exact fun h => h
  alone := fun e he _ hne => absurd (hown e he) hne

/-- Each load of the iteration reads what the node has had in view at its begin. -/
lemma Iteration.loads_view {m : k.accesses.Word → UInt32} (hrun : IsRun k off nodeCount m es)
    (hs : cachesAfter k off m i.before = some s) (h : i.Undisturbed s) :
    ∀ e ∈ Caches.byAgent i.thread i.during, ∃ x ∈ i.reads,
      e = .load x (s.view (k.accesses.lines off) i.thread.node x) := by
  intro e he
  obtain ⟨x, hx, v, rfl⟩ := (k.accesses.poll_loads off nodeCount _ _).of_runs i.runs e he
  refine ⟨x, hx, ?_⟩
  obtain ⟨s', hduring⟩ : ∃ s', s.replay (k.accesses.lines off) Thread.node i.during = some s' := by
    have hall := hrun.replays
    rw [i.split, cachesAfter, Caches.replay_append, ← cachesAfter, hs, Option.bind_some,
      Caches.replay_append] at hall
    cases hreplay : s.replay (k.accesses.lines off) Thread.node i.during with
    | none => simp [hreplay] at hall
    | some s' => exact ⟨s', rfl⟩
  obtain ⟨a, hmem, heq⟩ := List.mem_filterMap.1 he
  obtain ⟨hthread, hload⟩ := Option.ite_none_right_eq_some.1 heq
  have hmem' : (i.thread, Event.load x v) ∈ i.during := by
    rw [← hthread, ← Option.some.inj hload]
    exact hmem
  rw [Caches.view_replay hduring h.steady (i.leavesAlone h) rfl hmem' hx]

/-- **What a polling node sees.** An undisturbed iteration of `poll_for_grant` returns the test
on what the node has in view when it begins: its copies of the lines where it has any.  In
particular it observes a grant that is in memory if the node has flushed each of the lines after
its last use of it. -/
theorem poll_granted_iff (k : LockAlgorithm) (off : ShmOffset) (nodeCount : UInt32)
    (m : k.accesses.Word → UInt32) (es : List (Thread × Event k.accesses.Word UInt32))
    (i : Iteration k off nodeCount es) (s : Caches k.accesses.Word UInt32 Nat NodeId)
    (hrun : IsRun k off nodeCount m es) (hs : cachesAfter k off m i.before = some s)
    (hundisturbed : i.Undisturbed s) :
    (i.granted = true ↔ k.accesses.granted off nodeCount i.thread.node i.lockId
        (s.view (k.accesses.lines off) i.thread.node) = true) ∧
      (k.accesses.granted off nodeCount i.thread.node i.lockId s.mem = true →
        (∀ x ∈ i.reads, Caches.Dropped (k.accesses.lines off) Thread.node i.thread.node
          ((k.accesses.lines off).line x) i.before) → i.granted = true) := by
  have hloads := i.loads_view hrun hs hundisturbed
  constructor
  · have hview := Prog.outcome_of_loads (m := s.view (k.accesses.lines off) i.thread.node)
      i.runs fun e he => (hloads e he).imp fun x hx => hx.2
    rw [k.accesses.poll_outcome] at hview
    rw [(Prod.mk.inj (Option.some.inj hview)).1]
  · intro hshown hdropped
    have hcopies : ∀ x ∈ i.reads,
        s.copy i.thread.node ((k.accesses.lines off).line x) = none := fun x hx =>
      Caches.copy_of_dropped hs (hdropped x hx) (.inl rfl)
    have hmem := Prog.outcome_of_loads (m := s.mem) i.runs fun e he => by
      obtain ⟨x, hx, rfl⟩ := hloads e he
      exact ⟨x, by rw [Caches.view_of_copy_none (hcopies x hx)]⟩
    rw [k.accesses.poll_outcome] at hmem
    rw [← (Prod.mk.inj (Option.some.inj hmem)).1]
    exact hshown

/-! ## A grant that is missed -/

section MissedGrant

open LockSlotState

/-- The slot of a node for lock 0 in a table of two nodes. -/
def slotOf (n : NodeId) : ShmOffset := Cas.getSlotOffset 0 n 2 0

/-- Node 0 requests lock 0 and polls once, and the manager on node 1 finds the request. -/
def requestAndPoll : List (Thread × Event LockAlgorithm.cas.accesses.Word UInt32) :=
  [(⟨0, 0⟩, .store (slotOf 0) waiting.toWord), (⟨0, 0⟩, .flush ⟨slotOf 0, 4⟩),
    (⟨0, 0⟩, .load (slotOf 0) waiting.toWord), (⟨1, 0⟩, .load (slotOf 0) waiting.toWord),
    (⟨1, 0⟩, .load (slotOf 1) idle.toWord), (⟨1, 0⟩, .load (slotOf 0) waiting.toWord)]

/-- The manager grants the lock to node 0. -/
def grantEvents : List (Thread × Event LockAlgorithm.cas.accesses.Word UInt32) :=
  [(⟨1, 0⟩, .exchange (slotOf 0) waiting.toWord locked.toWord),
    (⟨1, 0⟩, .flush ⟨slotOf 0, 4⟩)]

/-- Node 0 polls again and finds its copy of the slot. -/
def pollAgain : List (Thread × Event LockAlgorithm.cas.accesses.Word UInt32) :=
  [(⟨0, 0⟩, .load (slotOf 0) waiting.toWord)]

lemma slot_acquire_runs : (LockAlgorithm.cas.accesses.program 0 2 0 (.acquireLock 0 0)).Runs
    [.store (slotOf 0) waiting.toWord, .flush ⟨slotOf 0, 4⟩] (.inl .success) :=
  ⟨_, rfl, _, rfl, rfl, rfl⟩

lemma slot_poll_runs (v : UInt32) : (LockAlgorithm.cas.accesses.poll 0 2 0 0).Runs
    [.load (slotOf 0) v] (v == locked.toWord) :=
  ⟨_, _, rfl, rfl, rfl⟩

lemma slot_check_runs : (LockAlgorithm.cas.accesses.program 0 2 0 (.checkGrant 2 0)).Runs
    [.load (slotOf 0) waiting.toWord, .load (slotOf 1) idle.toWord,
      .load (slotOf 0) waiting.toWord] (.inr 0) :=
  ⟨_, _, rfl, _, _, rfl, _, _, rfl, rfl, rfl⟩

lemma slot_grant_runs : (LockAlgorithm.cas.accesses.program 0 2 0 (.grantLock 0 0)).Runs
    [.exchange (slotOf 0) waiting.toWord locked.toWord, .flush ⟨slotOf 0, 4⟩]
    (.inl .success) :=
  .inl ⟨_, rfl, _, rfl, rfl, rfl⟩

/-- The turn of the manager in both runs. -/
lemma manager_session : Session .cas 0 2 1
    [.load (slotOf 0) waiting.toWord, .load (slotOf 1) idle.toWord,
      .load (slotOf 0) waiting.toWord, .exchange (slotOf 0) waiting.toWord locked.toWord,
      .flush ⟨slotOf 0, 4⟩] := by
  have hcheck : (Operation.checkGrant 2 0).By 1 := trivial
  have hgrant : (Operation.grantLock 0 0).By 1 := trivial
  have hsession := Session.call hcheck slot_check_runs (.call hgrant slot_grant_runs .done)
  exact hsession

lemma pollAgain_isRun :
    IsRun .cas 0 2 (fun _ => 0) (requestAndPoll ++ (grantEvents ++ pollAgain)) where
  replays := by decide +kernel
  sessions := by
    intro a
    refine ⟨[], ?_⟩
    by_cases hnode : a = ⟨0, 0⟩
    · subst hnode
      have hby : (Operation.acquireLock 0 0).By 0 := rfl
      have hsession := Session.call hby slot_acquire_runs (.poll (slot_poll_runs waiting.toWord)
        (.poll (slot_poll_runs waiting.toWord) .done))
      exact hsession
    · by_cases hmanager : a = ⟨1, 0⟩
      · subst hmanager
        exact manager_session
      · have hnone : Caches.byAgent a (requestAndPoll ++ (grantEvents ++ pollAgain)) = [] := by
          simp [Caches.byAgent, requestAndPoll, grantEvents, pollAgain, Ne.symm hnode,
            Ne.symm hmanager]
        rw [hnone]
        exact .done

/-- The second iteration of node 0. -/
def secondPoll : Iteration .cas 0 2 (requestAndPoll ++ (grantEvents ++ pollAgain)) where
  before := requestAndPoll ++ grantEvents
  during := pollAgain
  after := []
  split := rfl
  thread := ⟨0, 0⟩
  lockId := 0
  granted := false
  runs := slot_poll_runs waiting.toWord

lemma secondPoll_undisturbed (s : Caches ShmOffset UInt32 Nat NodeId) :
    secondPoll.Undisturbed s :=
  secondPoll.undisturbed_of_own fun e he => by
    rw [List.mem_singleton.1 he]
    rfl

/-- The grant is in memory when the second iteration begins. -/
lemma secondPoll_begins : ∃ s, cachesAfter .cas 0 (fun _ => 0) secondPoll.before = some s ∧
    Cas.pollGranted 0 2 0 0 s.mem = true := by
  have hgranted : (cachesAfter .cas 0 (fun _ => 0) secondPoll.before).any
      (fun s => Cas.pollGranted 0 2 0 0 s.mem) := by decide +kernel
  obtain ⟨s, hs, hmem⟩ := (Option.any_eq_true _ _).1 hgranted
  exact ⟨s, hs, hmem⟩

/-- The same request, and the grant before node 0 has polled at all. -/
def requestAndGrant : List (Thread × Event LockAlgorithm.cas.accesses.Word UInt32) :=
  [(⟨0, 0⟩, .store (slotOf 0) waiting.toWord), (⟨0, 0⟩, .flush ⟨slotOf 0, 4⟩),
    (⟨1, 0⟩, .load (slotOf 0) waiting.toWord), (⟨1, 0⟩, .load (slotOf 1) idle.toWord),
    (⟨1, 0⟩, .load (slotOf 0) waiting.toWord)] ++ grantEvents

/-- Node 0 polls and finds the slot in memory. -/
def pollOnce : List (Thread × Event LockAlgorithm.cas.accesses.Word UInt32) :=
  [(⟨0, 0⟩, .load (slotOf 0) locked.toWord)]

lemma pollOnce_isRun : IsRun .cas 0 2 (fun _ => 0) (requestAndGrant ++ pollOnce) where
  replays := by decide +kernel
  sessions := by
    intro a
    refine ⟨[], ?_⟩
    by_cases hnode : a = ⟨0, 0⟩
    · subst hnode
      have hby : (Operation.acquireLock 0 0).By 0 := rfl
      have hsession := Session.call hby slot_acquire_runs
        (.poll (slot_poll_runs locked.toWord) .done)
      exact hsession
    · by_cases hmanager : a = ⟨1, 0⟩
      · subst hmanager
        exact manager_session
      · have hnone : Caches.byAgent a (requestAndGrant ++ pollOnce) = [] := by
          simp [Caches.byAgent, requestAndGrant, grantEvents, pollOnce, Ne.symm hnode,
            Ne.symm hmanager]
        rw [hnone]
        exact .done

/-- The iteration of node 0 after the grant. -/
def firstPoll : Iteration .cas 0 2 (requestAndGrant ++ pollOnce) where
  before := requestAndGrant
  during := pollOnce
  after := []
  split := rfl
  thread := ⟨0, 0⟩
  lockId := 0
  granted := locked.toWord == locked.toWord
  runs := slot_poll_runs locked.toWord

/-- Node 0 has flushed its slot after its request and not used it since. -/
lemma firstPoll_dropped : ∀ x ∈ firstPoll.reads,
    Caches.Dropped (LockAlgorithm.cas.accesses.lines 0) Thread.node 0
      ((LockAlgorithm.cas.accesses.lines 0).line x) firstPoll.before := by
  intro x hx
  obtain rfl : x = slotOf 0 := List.mem_singleton.1 hx
  have hflushed : (LockAlgorithm.cas.accesses.lines 0).flushed ⟨slotOf 0, 4⟩
      ((LockAlgorithm.cas.accesses.lines 0).line (slotOf 0)) = true := by decide
  refine Caches.dropped_cons.2 ⟨fun _ _ => ?_, Caches.dropped_cons.2
    ⟨fun _ huse => huse.elim, Caches.dropped_of_ne (by decide)⟩⟩
  exact ⟨(⟨0, 0⟩, .flush ⟨slotOf 0, 4⟩), List.mem_cons_self, rfl, hflushed⟩

/-- Node 0 does not have the grant in view when it has polled before, and observes it when it
has not. -/
theorem poll_granted_iff_stale :
    (∃ s, cachesAfter .cas 0 (fun _ => 0) secondPoll.before = some s ∧
      Cas.pollGranted 0 2 0 0 s.mem = true ∧
      Cas.pollGranted 0 2 0 0 (s.view Cas.lines 0) ≠ true) ∧
    ∃ s, cachesAfter .cas 0 (fun _ => 0) firstPoll.before = some s ∧
      Cas.pollGranted 0 2 0 0 s.mem = true ∧
      Cas.pollGranted 0 2 0 0 (s.view Cas.lines 0) = true ∧ firstPoll.granted = true := by
  obtain ⟨s, hs, hmem⟩ := secondPoll_begins
  have hiff := (poll_granted_iff .cas 0 2 (fun _ => 0) _ secondPoll s pollAgain_isRun hs
    (secondPoll_undisturbed s)).1
  refine ⟨⟨s, hs, hmem, fun hview => absurd (hiff.2 hview) (by decide)⟩, ?_⟩
  have hgranted : (cachesAfter .cas 0 (fun _ => 0) firstPoll.before).any
      (fun s => Cas.pollGranted 0 2 0 0 s.mem) := by decide +kernel
  obtain ⟨s', hs', hmem'⟩ := (Option.any_eq_true _ _).1 hgranted
  have hundisturbed : firstPoll.Undisturbed s' := firstPoll.undisturbed_of_own fun e he => by
    rw [List.mem_singleton.1 he]
    rfl
  obtain ⟨hiff', hobserved⟩ := poll_granted_iff .cas 0 2 (fun _ => 0) _ firstPoll s'
    pollOnce_isRun hs' hundisturbed
  have hsuccess := hobserved hmem' firstPoll_dropped
  exact ⟨s', hs', hmem', hiff'.1 hsuccess, hsuccess⟩

/-- Node 0 has its slot in its cache from the first iteration, and its second one does not see
the grant that node 1 has written and flushed. -/
theorem cas_poll_misses_grant : ¬ ∀ (k : LockAlgorithm) (off : ShmOffset) (nodeCount : UInt32)
    (m : k.accesses.Word → UInt32) (es : List (Thread × Event k.accesses.Word UInt32))
    (i : Iteration k off nodeCount es) (s : Caches k.accesses.Word UInt32 Nat NodeId),
    IsRun k off nodeCount m es → cachesAfter k off m i.before = some s → i.Undisturbed s →
    i.GrantedByOther →
    k.accesses.granted off nodeCount i.thread.node i.lockId s.mem = true →
    i.granted = true := by
  intro h
  obtain ⟨s, hs, hmem⟩ := secondPoll_begins
  have hother : secondPoll.GrantedByOther :=
    ⟨requestAndPoll, grantEvents, [], ⟨1, 0⟩, 0, rfl, by decide, slot_grant_runs⟩
  have hgranted := h .cas 0 2 (fun _ => 0) _ secondPoll s pollAgain_isRun hs
    (secondPoll_undisturbed s) hother hmem
  exact absurd hgranted (by decide)

end MissedGrant

end CxlLock
