import CxlLock.Lib.LinkedQueue
import CxlLock.Lib.Transition
import CxlLock.Mcs.GlobalLock

/-!
# MCS as a FIFO queue

On one lock, with whole calls as steps, the records of the lock and of the nodes are a linked
representation of a list: `IsQueue`.  A request appends to the list (`IsQueue.acquire`), a
release by the owner removes the first entry (`IsQueue.release`), and a grant marks the first
entry as the owner (`IsQueue.grant`).  The manager's `check_grant` and `grant_lock` are two
steps with any others in between; the node that was found stays the first entry of a queue
without an owner, since only the owner can be removed.

`calls` and `owners` record in which order the nodes have called `acquire_lock` and in which
order they have become the owner.  No program reads them.
-/

namespace CxlLock.Mcs

open Transition LinkedQueue

/-- The records of one lock, and what the nodes and the manager have done. -/
structure FifoState where
  shm : McsShm
  /-- What `check_grant` has returned, until `grant_lock` is called with it. -/
  pending : Option NodeId
  /-- The node has called `acquire_lock` and not released since. -/
  engaged : NodeId → Bool
  /-- The callers of `acquire_lock` in the order of their calls. -/
  calls : List NodeId
  /-- The nodes that have become the owner, in this order. -/
  owners : List NodeId

/-- One whole call. -/
inductive FifoEvent
  | acquire (n : NodeId)
  | release (n : NodeId)
  | check
  | grant
  deriving DecidableEq

/-- The owner that a call has stored, if it has stored one. -/
def newOwner (before after : NodeId) : List NodeId :=
  if after = invalidNodeId ∨ after = before then [] else [after]

/-- The lock goes on with other records. -/
def FifoState.store (s : FifoState) (l : LockId) (shm : McsShm) : FifoState :=
  { s with
    shm := shm
    owners := s.owners ++ newOwner (s.shm.entry l).ownerNode (shm.entry l).ownerNode }

/-- A node requests only when it has neither request nor hold, and releases only when it is the
owner; the manager grants the lock to the node that its last `check_grant` has returned. -/
def fifoNext (size : SystemSize) (l : LockId) (s : FifoState) : FifoEvent → Option FifoState
  | .acquire n =>
      if n < size.nodeCount ∧ s.engaged n = false then
        some { s.store l (acquireLock size.nodeCount n l s.shm).2 with
          engaged := Function.update s.engaged n true
          calls := s.calls ++ [n] }
      else none
  | .release n =>
      if n < size.nodeCount ∧ (s.shm.entry l).ownerNode = n then
        (releaseLock size.nodeCount n l s.shm).map fun r =>
          { s.store l r.2 with engaged := Function.update s.engaged n false }
      else none
  | .check =>
      let grantee := checkGrant size.nodeCount l s.shm
      some { s with pending := if grantee = invalidNodeId then none else some grantee }
  | .grant =>
      s.pending.map fun h =>
        { s.store l (grantLock size.nodeCount h l s.shm).2 with pending := none }

/-- The system of whole calls on lock `l`, started right after `initialize`. -/
def fifoSystem (size : SystemSize) (l : LockId) : LabelledSystem FifoState FifoEvent where
  init s := (∃ shm, s.shm = (initializeShm size.nodeCount shm).2) ∧ s.pending = none ∧
    (∀ n, s.engaged n = false) ∧ s.calls = [] ∧ s.owners = []
  next := fifoNext size l

/-- What a call does to the queue. -/
def queueAfter (q : List NodeId) : FifoEvent → List NodeId
  | .acquire n => q ++ [n]
  | .release _ => q.tail
  | .check | .grant => q

/-! ## The records as a queue -/

/-- The records of lock `l` and of the nodes represent the queue `q`. -/
structure IsQueue (size : SystemSize) (l : LockId) (shm : McsShm) (q : List NodeId) : Prop where
  nodup : q.Nodup
  lt : ∀ n ∈ q, n < size.nodeCount
  empty : q = [] ↔ (shm.entry l).tailNode = invalidNodeId ∧
    (shm.entry l).headNode = invalidNodeId ∧ (shm.entry l).ownerNode = invalidNodeId
  head : ∀ a, q.head? = some a → (shm.entry l).headNode = a
  tail : ∀ z, q.getLast? = some z → (shm.entry l).tailNode = z
  links : ∀ a, q.head? = some a → Path (fun n => (shm.node n).nextNode) a q invalidNodeId
  owner : (shm.entry l).ownerNode = invalidNodeId ∨ q.head? = some (shm.entry l).ownerNode
  waiting : ∀ n, n < size.nodeCount → ((shm.node n).waitingLock = l ↔ n ∈ q)
  locked : ∀ n ∈ q.tail, (shm.node n).locked = 1
  first : ∀ a, q.head? = some a →
    ((shm.node a).locked = 1 ↔ (shm.entry l).ownerNode = invalidNodeId)

namespace IsQueue

variable {size : SystemSize} {l : LockId} {shm : McsShm} {q : List NodeId} {n : NodeId}

lemma invalid_not_mem (h : IsQueue size l shm q) : invalidNodeId ∉ q := fun hmem =>
  size.node_ne_invalid (h.lt _ hmem) rfl

/-- The records determine the queue. -/
lemma unique {r : List NodeId} (hq : IsQueue size l shm q) (hr : IsQueue size l shm r) :
    q = r := by
  cases q with
  | nil => exact (hr.empty.2 (hq.empty.1 rfl)).symm
  | cons a q =>
      cases r with
      | nil => exact hq.empty.2 (hr.empty.1 rfl)
      | cons b r =>
          obtain rfl : a = b := (hq.head a rfl).symm.trans (hr.head b rfl)
          exact (hq.links a rfl).unique (hr.links a rfl) hq.invalid_not_mem hr.invalid_not_mem

/-- Right after `initialize` the queue is empty. -/
lemma init (size : SystemSize) (hl : l < size.maxLocks) (shm : McsShm) :
    IsQueue size l (initializeShm size.nodeCount shm).2 [] := by
  have hlt := size.lock_lt hl
  have hne := size.lock_ne_invalid hl
  constructor
  · exact List.nodup_nil
  · simp
  · simp [initializeShm, size.nodeCount_valid, hlt]
  · simp
  · simp
  · simp
  · simp [initializeShm, size.nodeCount_valid, hlt]
  · intro n hn
    simp [initializeShm, size.nodeCount_valid, hn, hne.symm]
  · simp
  · simp

/-- The last entry of a queue that is not empty is the tail, and nothing is linked behind it. -/
lemma exists_last (h : IsQueue size l shm q) (hq : q ≠ []) :
    ∃ r z, q = r ++ [z] ∧ (shm.entry l).tailNode = z ∧ z < size.nodeCount ∧
      (shm.node z).nextNode = invalidNodeId := by
  obtain ⟨r, z, rfl⟩ := List.eq_nil_or_concat q |>.resolve_left hq
  rw [List.concat_eq_append] at h ⊢
  have hz : (r ++ [z]).getLast? = some z := by simp
  obtain ⟨a, ha⟩ : ∃ a, (r ++ [z]).head? = some a := by
    cases r with
    | nil => exact ⟨z, rfl⟩
    | cons b r => exact ⟨b, rfl⟩
  have hlinks := h.links a ha
  rw [path_concat] at hlinks
  exact ⟨r, z, rfl, h.tail z hz, h.lt z (by simp), hlinks.2⟩

/-- The queue has a tail exactly when it is not empty. -/
lemma tail_eq_invalid (h : IsQueue size l shm q) :
    (shm.entry l).tailNode = invalidNodeId ↔ q = [] := by
  constructor
  · intro htail
    by_contra hq
    obtain ⟨r, z, -, hz, hlt, -⟩ := h.exists_last hq
    exact size.node_ne_invalid hlt (hz.symm.trans htail)
  · intro hq
    exact (h.empty.1 hq).1

/-- The tail is an entry of the queue. -/
lemma tail_mem (h : IsQueue size l shm q) (hn : n < size.nodeCount)
    (htail : (shm.entry l).tailNode = n) : n ∈ q := by
  by_cases hnil : q = []
  · exact absurd (htail.symm.trans (h.tail_eq_invalid.2 hnil)) (size.node_ne_invalid hn)
  · obtain ⟨r, z, rfl, hz, -, -⟩ := h.exists_last hnil
    simp [← htail, hz]

/-- A request links the caller behind the last entry. -/
lemma acquire_links (h : IsQueue size l shm q) (hl : l < size.maxLocks)
    (hn : n < size.nodeCount) (hq : n ∉ q) {a : NodeId} (ha : (q ++ [n]).head? = some a) :
    Path (fun k => ((acquireLock size.nodeCount n l shm).2.node k).nextNode) a (q ++ [n])
      invalidNodeId := by
  have htailne : (shm.entry l).tailNode ≠ n := fun htail => hq (h.tail_mem hn htail)
  obtain ⟨-, -, hnext⟩ := acquireLock_queue shm size.nodeCount_le hn (size.lock_lt hl) htailne
  by_cases hnil : q = []
  · subst hnil
    obtain rfl : n = a := by simpa using ha
    simp [hnext, h.tail_eq_invalid.2 rfl]
  obtain ⟨r, z, rfl, hz, hzlt, -⟩ := h.exists_last hnil
  have hzne := size.node_ne_invalid hzlt
  have hzr : z ∉ r := by
    have hnodup := h.nodup
    rw [List.nodup_append] at hnodup
    intro hmem
    exact hnodup.2.2 z hmem z (by simp) rfl
  have ha' : (r ++ [z]).head? = some a := by
    rwa [List.head?_append_of_ne_nil _ (by simp)] at ha
  have hnnext : ((acquireLock size.nodeCount n l shm).2.node n).nextNode = invalidNodeId := by
    rw [hnext, hz, if_neg (fun hnz => htailne (hz.trans hnz.1.symm)), if_pos rfl]
  have hnew := (h.links a ha').link
    (fun k => ((acquireLock size.nodeCount n l shm).2.node k).nextNode) (n := n)
    (fun c hc => ?_) ?_
  · rwa [hnnext] at hnew
  · have hcz : c ≠ z := fun hcz => hzr (hcz ▸ hc)
    have hcn : c ≠ n := fun hcn => hq (by simp [← hcn, hc])
    rw [hnext, hz, if_neg (fun hk => hcz hk.1), if_neg hcn]
  · rw [hnext, hz, if_pos ⟨rfl, hzne⟩]

/-- A request appends the caller. -/
lemma acquire (h : IsQueue size l shm q) (hl : l < size.maxLocks) (hn : n < size.nodeCount)
    (hq : n ∉ q) : IsQueue size l (acquireLock size.nodeCount n l shm).2 (q ++ [n]) := by
  have hlt := size.lock_lt hl
  have hninv := size.node_ne_invalid hn
  have htailne : (shm.entry l).tailNode ≠ n := fun htail => hq (h.tail_mem hn htail)
  obtain ⟨-, howner, hlocked, hwait⟩ := acquireLock_spec shm size.nodeCount_le hn hlt
  obtain ⟨htail, hhead, -⟩ := acquireLock_queue shm size.nodeCount_le hn hlt htailne
  constructor
  · rw [List.nodup_append]
    refine ⟨h.nodup, List.nodup_singleton n, fun a ha b hb hab => hq ?_⟩
    rw [List.mem_singleton] at hb
    rwa [← hb, ← hab]
  · intro k hk
    rcases List.mem_append.1 hk with hk | hk
    · exact h.lt k hk
    · exact List.mem_singleton.1 hk ▸ hn
  · simp [htail, hninv]
  · intro a ha
    by_cases hnil : q = []
    · subst hnil
      obtain rfl : n = a := by simpa using ha
      rw [hhead, if_pos ⟨rfl, h.tail_eq_invalid.2 rfl⟩]
    · rw [List.head?_append_of_ne_nil _ hnil] at ha
      rw [hhead, if_neg (fun hk => hnil (h.tail_eq_invalid.1 hk.2))]
      exact h.head a ha
  · intro z hz
    obtain rfl : n = z := by simpa using hz
    rw [htail, if_pos rfl]
  · exact fun a ha => h.acquire_links hl hn hq ha
  · rw [howner]
    rcases h.owner with hfree | hfirst
    · exact .inl hfree
    · right
      cases q with
      | nil => simp at hfirst
      | cons a q => simpa using hfirst
  · intro k hk
    rw [hwait, List.mem_append, List.mem_singleton]
    split_ifs with hkn
    · simp [hkn]
    · simp [hkn, h.waiting k hk]
  · intro k hk
    rw [hlocked]
    split_ifs with hkn
    · rfl
    · cases q with
      | nil => simp at hk
      | cons a q =>
          rw [List.cons_append, List.tail_cons, List.mem_append, List.mem_singleton] at hk
          exact h.locked k (hk.resolve_right hkn)
  · intro a ha
    rw [howner, hlocked]
    cases q with
    | nil =>
        obtain rfl : n = a := by simpa using ha
        simp [(h.empty.1 rfl).2.2]
    | cons b q =>
        have ha' : (b :: q).head? = some a := by simpa using ha
        have han : a ≠ n := fun han => hq (han ▸ List.mem_of_mem_head? ha')
        rw [if_neg han]
        exact h.first a ha'

/-- `grant_lock` with the first entry makes it the owner. -/
lemma grant (h : IsQueue size l shm q) (hl : l < size.maxLocks) (hhead : q.head? = some n) :
    IsQueue size l (grantLock size.nodeCount n l shm).2 q := by
  have hn := h.lt n (List.mem_of_mem_head? hhead)
  have hninv := size.node_ne_invalid hn
  have hne : q ≠ [] := by
    rintro rfl
    simp at hhead
  have hrest : ∀ k ∈ q.tail, k ≠ n := by
    cases q with
    | nil => simp
    | cons a q =>
        obtain rfl : a = n := by simpa using hhead
        rintro k hk rfl
        exact (List.nodup_cons.1 h.nodup).1 hk
  simp only [grantLock, paramError_eq_false size.nodeCount_le hn (size.lock_lt hl),
    Bool.false_eq_true, if_false]
  constructor
  · exact h.nodup
  · exact h.lt
  · have hhd := h.head n hhead
    simp [hne, hninv]
  · intro a ha
    simpa using h.head a ha
  · intro z hz
    simpa using h.tail z hz
  · intro a ha
    simpa using h.links a ha
  · simpa using .inr hhead
  · intro k hk
    simpa using h.waiting k hk
  · intro k hk
    simpa [hrest k hk] using h.locked k hk
  · intro a ha
    obtain rfl : n = a := Option.some.inj (hhead.symm.trans ha)
    simp [hninv]

/-- The last entry of a queue leaves it empty. -/
lemma emptyQueue (h : IsQueue size l shm [n]) (hl : l < size.maxLocks) :
    IsQueue size l (Mcs.emptyQueue shm n l) [] := by
  have hlne := size.lock_ne_invalid hl
  constructor
  · exact List.nodup_nil
  · simp
  · simp
  · simp
  · simp
  · simp
  · simp
  · intro k hk
    have hwait := h.waiting k hk
    by_cases hkn : k = n
    · simp [hkn, hlne.symm]
    · simpa [hkn] using hwait
  · simp
  · simp

/-- After a hand-over the queue starts with the next entry, which is the owner. -/
lemma passLock {b : NodeId} (h : IsQueue size l shm (n :: b :: q)) (hl : l < size.maxLocks) :
    IsQueue size l (Mcs.passLock shm n l b) (b :: q) := by
  have hlne := size.lock_ne_invalid hl
  have hbinv := size.node_ne_invalid (h.lt b (by simp))
  obtain ⟨hnq, hnodup⟩ := List.nodup_cons.1 h.nodup
  obtain ⟨-, hlinks⟩ := h.links n rfl
  have hnext : (shm.node n).nextNode = b := by simpa using hlinks.1
  have hbn : b ≠ n := fun hbn => hnq (by simp [hbn])
  constructor
  · exact hnodup
  · intro k hk
    exact h.lt k (List.mem_cons_of_mem n hk)
  · simp [hbinv]
  · simp
  · intro z hz
    have hz' : (n :: b :: q).getLast? = some z := by simpa using hz
    simpa using h.tail z hz'
  · intro a ha
    obtain rfl : b = a := by simpa using ha
    change Path _ (shm.node n).nextNode _ _ at hlinks
    rw [hnext] at hlinks
    refine hlinks.congr fun c hc => ?_
    have hcn : c ≠ n := fun hcn => hnq (hcn ▸ hc)
    simp [hcn]
  · simp
  · intro k hk
    have hwait := h.waiting k hk
    by_cases hkn : k = n
    · subst hkn
      simpa [hlne.symm] using hnq
    · simpa [hkn] using hwait
  · intro k hk
    have hkq : k ∈ q := by simpa using hk
    have hkb : k ≠ b := by
      rintro rfl
      exact (List.nodup_cons.1 hnodup).1 hkq
    have hkn : k ≠ n := by
      rintro rfl
      exact hnq (by simp [hkq])
    have hlocked := h.locked k (by simp [hkq])
    simpa [hkn, hkb] using hlocked
  · intro a ha
    obtain rfl : b = a := by simpa using ha
    simp [hbinv, hbn]

/-- A release by the owner returns and removes the first entry; the next one, if there is one,
is the owner then. -/
lemma release (h : IsQueue size l shm q) (hl : l < size.maxLocks) (hn : n < size.nodeCount)
    (howner : (shm.entry l).ownerNode = n) :
    ∃ shm', releaseLock size.nodeCount n l shm = some (.success, shm') ∧
      q = n :: q.tail ∧ IsQueue size l shm' q.tail ∧
      (shm'.entry l).ownerNode = q.tail.head?.getD invalidNodeId := by
  have hninv := size.node_ne_invalid hn
  have hhead : q.head? = some n := by
    rcases h.owner with hfree | hfirst
    · exact absurd (howner.symm.trans hfree) hninv
    · rwa [howner] at hfirst
  obtain ⟨q, rfl⟩ : ∃ r, q = n :: r := by
    cases q with
    | nil => simp at hhead
    | cons a q => exact ⟨q, by simpa using hhead⟩
  obtain ⟨-, hlinks⟩ := h.links n rfl
  simp only [releaseLock, paramError_eq_false size.nodeCount_le hn (size.lock_lt hl),
    Bool.false_eq_true, if_false, howner, ne_eq, not_true_eq_false, List.tail_cons, true_and]
  cases q with
  | nil =>
      have hnext : (shm.node n).nextNode = invalidNodeId := by simpa using hlinks
      have htail : (shm.entry l).tailNode = n := h.tail n rfl
      exact ⟨Mcs.emptyQueue shm n l, by simp [hnext, htail], h.emptyQueue hl, by simp⟩
  | cons b q =>
      have hnext : (shm.node n).nextNode = b := by simpa using hlinks.1
      have hbinv := size.node_ne_invalid (h.lt b (by simp))
      exact ⟨Mcs.passLock shm n l b, by simp [hnext, hbinv], h.passLock hl, by simp⟩

/-- `check_grant` returns the first entry of a queue without an owner. -/
lemma check (h : IsQueue size l shm q)
    (hgrant : checkGrant size.nodeCount l shm ≠ invalidNodeId) :
    (shm.entry l).ownerNode = invalidNodeId ∧
      q.head? = some (checkGrant size.nodeCount l shm) := by
  obtain ⟨hfree, hhead, hlt, -, -⟩ := checkGrant_spec hgrant
  refine ⟨hfree, ?_⟩
  cases q with
  | nil =>
      have hinv := (h.empty.1 rfl).2.1
      exact absurd (hhead.trans hinv) hgrant
  | cons a q =>
      rw [hhead, h.head a rfl]
      rfl

end IsQueue

/-! ## The queue along a run -/

section
variable {size : SystemSize} {l : LockId} {s s' : FifoState} {q : List NodeId}

/-- The records represent the queue `q` of the nodes with a request or hold; the nodes in it
that have not become the owner are the callers that `owners` still lacks. -/
structure FifoInv (size : SystemSize) (l : LockId) (s : FifoState) (q : List NodeId) : Prop where
  queue : IsQueue size l s.shm q
  engaged : ∀ n, s.engaged n = true ↔ n ∈ q
  pending : ∀ h, s.pending = some h →
    (s.shm.entry l).ownerNode = invalidNodeId ∧ q.head? = some h
  order : s.calls =
    s.owners ++ if (s.shm.entry l).ownerNode = invalidNodeId then q else q.tail

namespace FifoInv

lemma init (hl : l < size.maxLocks) (hs : (fifoSystem size l).init s) :
    FifoInv size l s [] := by
  obtain ⟨⟨shm, hshm⟩, hpending, hengaged, hcalls, howners⟩ := hs
  constructor
  · rw [hshm]
    exact IsQueue.init size hl shm
  · simp [hengaged]
  · simp [hpending]
  · simp [hcalls, howners]

lemma acquire (h : FifoInv size l s q) (hl : l < size.maxLocks) {n : NodeId}
    (hnext : fifoNext size l s (.acquire n) = some s') : FifoInv size l s' (q ++ [n]) := by
  obtain ⟨⟨hn, hidle⟩, hnext⟩ := Option.ite_none_right_eq_some.1 hnext
  obtain rfl := Option.some.inj hnext
  have hq : n ∉ q := fun hmem => by
    rw [(h.engaged n).2 hmem] at hidle
    exact absurd hidle (by decide)
  obtain ⟨-, howner, -, -⟩ := acquireLock_spec s.shm size.nodeCount_le hn (size.lock_lt hl)
  constructor
  · exact h.queue.acquire hl hn hq
  · intro k
    rw [List.mem_append, List.mem_singleton]
    by_cases hk : k = n
    · simp [hk]
    · simp [hk, h.engaged k]
  · intro g hg
    obtain ⟨hfree, hhead⟩ := h.pending g hg
    refine ⟨(howner l).trans hfree, ?_⟩
    rwa [List.head?_append_of_ne_nil]
    rintro rfl
    simp at hhead
  · simp only [FifoState.store, howner, h.order, newOwner, or_true, if_true, List.append_nil,
      List.append_assoc]
    split_ifs with hfree
    · rfl
    · have hne : q ≠ [] := fun hnil => hfree (h.queue.empty.1 hnil).2.2
      rw [List.tail_append_of_ne_nil hne]

lemma release (h : FifoInv size l s q) (hl : l < size.maxLocks) {n : NodeId}
    (hnext : fifoNext size l s (.release n) = some s') : FifoInv size l s' q.tail := by
  obtain ⟨⟨hn, howner⟩, hnext⟩ := Option.ite_none_right_eq_some.1 hnext
  obtain ⟨shm', hret, hq, hqueue, howner'⟩ := h.queue.release hl hn howner
  simp only [hret, Option.map_some, Option.some.injEq] at hnext
  subst hnext
  have hninv := size.node_ne_invalid hn
  have hnodup := h.queue.nodup
  rw [hq, List.nodup_cons] at hnodup
  constructor
  · exact hqueue
  · intro k
    by_cases hk : k = n
    · simp [hk, hnodup.1]
    · have hmem : k ∈ q ↔ k ∈ q.tail := by
        rw [hq, List.mem_cons, List.tail_cons]
        exact or_iff_right hk
      simp [hk, h.engaged k, hmem]
  · intro g hg
    -- the lock has an owner, so nothing was pending
    exact absurd (howner.symm.trans (h.pending g hg).1) hninv
  · have horder := h.order
    rw [howner, if_neg hninv] at horder
    simp only [FifoState.store, howner, howner', horder]
    rcases hrest : q.tail with _ | ⟨b, r⟩
    · simp [newOwner]
    · have hb : b < size.nodeCount := hqueue.lt b (by simp [hrest])
      have hbn : b ≠ n := by
        rintro rfl
        exact hnodup.1 (by simp [hrest])
      simp [newOwner, size.node_ne_invalid hb, hbn]

lemma check (h : FifoInv size l s q) (hnext : fifoNext size l s .check = some s') :
    FifoInv size l s' q := by
  obtain rfl := Option.some.inj hnext
  refine ⟨h.queue, h.engaged, fun g hg => ?_, h.order⟩
  obtain ⟨hgrant, hg⟩ := Option.ite_none_left_eq_some.1 hg
  obtain rfl := Option.some.inj hg
  exact h.queue.check hgrant

lemma grant (h : FifoInv size l s q) (hl : l < size.maxLocks)
    (hnext : fifoNext size l s .grant = some s') : FifoInv size l s' q := by
  obtain ⟨g, hg, rfl⟩ := Option.map_eq_some_iff.1 hnext
  obtain ⟨hfree, hhead⟩ := h.pending g hg
  have hglt := h.queue.lt g (List.mem_of_mem_head? hhead)
  have hginv := size.node_ne_invalid hglt
  have howner : ((grantLock size.nodeCount g l s.shm).2.entry l).ownerNode = g := by
    simp [grantLock, paramError_eq_false size.nodeCount_le hglt (size.lock_lt hl)]
  constructor
  · exact h.queue.grant hl hhead
  · exact h.engaged
  · simp
  · have hq : q = g :: q.tail := by
      cases q with
      | nil => simp at hhead
      | cons a q => simpa using hhead
    have horder := h.order
    rw [if_pos hfree] at horder
    simp only [FifoState.store, howner, hfree, newOwner, hginv, or_self, if_false, horder,
      List.append_assoc, List.singleton_append]
    rw [← hq]

/-- Every call does to the queue what `queueAfter` says. -/
lemma step (h : FifoInv size l s q) (hl : l < size.maxLocks) {e : FifoEvent}
    (hnext : fifoNext size l s e = some s') : FifoInv size l s' (queueAfter q e) := by
  cases e with
  | acquire n => exact h.acquire hl hnext
  | release n => exact h.release hl hnext
  | check => exact h.check hnext
  | grant => exact h.grant hl hnext

end FifoInv

lemma exists_fifoInv (hl : l < size.maxLocks) (hs : (fifoSystem size l).Reachable s) :
    ∃ q, FifoInv size l s q := by
  have hinit : ∀ s, (fifoSystem size l).init s → ∃ q, FifoInv size l s q := fun s hs =>
    ⟨[], FifoInv.init hl hs⟩
  refine LabelledSystem.Reachable.invariant hinit ?_ hs
  rintro s e s' ⟨q, h⟩ hnext
  exact ⟨_, h.step hl hnext⟩

/-- In every reached state the records represent one list of nodes, those with a request or
hold; a request appends to it, a release by the owner returns and removes the first entry, and
the manager's calls keep it.  The nodes become the owner in the order of their calls: the
callers that have not become it yet are the ones waiting in the list. -/
theorem mcs_refines_fifo (hl : l < size.maxLocks) (hs : (fifoSystem size l).Reachable s) :
    ∃ q, IsQueue size l s.shm q ∧ (∀ n, s.engaged n = true ↔ n ∈ q) ∧
      s.calls = s.owners ++
        (if (s.shm.entry l).ownerNode = invalidNodeId then q else q.tail) ∧
      (∀ e s', fifoNext size l s e = some s' → IsQueue size l s'.shm (queueAfter q e)) ∧
      ∀ n, n < size.nodeCount → (s.shm.entry l).ownerNode = n →
        q.head? = some n ∧ ∃ s', fifoNext size l s (.release n) = some s' := by
  obtain ⟨q, h⟩ := exists_fifoInv hl hs
  refine ⟨q, h.queue, h.engaged, h.order, fun e s' hnext => (h.step hl hnext).queue, ?_⟩
  intro n hn howner
  obtain ⟨shm', hret, hq, -, -⟩ := h.queue.release hl hn howner
  refine ⟨by rw [hq]; rfl, ?_⟩
  simp [fifoNext, hn, howner, hret]

end

/-- The state right after `initialize`, over zeroed memory. -/
def fifoStart (size : SystemSize) : FifoState where
  shm := (initializeShm size.nodeCount ⟨fun _ => ⟨0, 0, 0⟩, fun _ => ⟨0, 0, 0⟩⟩).2
  pending := none
  engaged := fun _ => false
  calls := []
  owners := []

lemma fifoStart_init (size : SystemSize) (l : LockId) : (fifoSystem size l).init (fifoStart size) :=
  ⟨⟨_, rfl⟩, rfl, fun _ => rfl, rfl, rfl⟩

/-- Node 2 is granted the lock while node 0 queues up behind it; node 1 comes before the
release, which hands the lock to node 0. -/
theorem mcs_fifo_run : ∃ (s : FifoState) (q : List NodeId), IsQueue (.of 3 1) 0 s.shm q ∧
    s.calls = [2, 0, 1] ∧ s.owners = [2, 0] := by
  obtain ⟨s, hs, hp⟩ := LabelledSystem.exists_of_exec (fun _ _ => True)
    ([.acquire 2, .check, .acquire 0, .grant, .acquire 1, .release 2])
    (fun s => s.calls == [2, 0, 1] && s.owners == [2, 0])
    (fifoStart_init (.of 3 1) 0) (by decide +kernel)
  rw [Bool.and_eq_true, beq_iff_eq, beq_iff_eq] at hp
  obtain ⟨q, hq, -⟩ := mcs_refines_fifo (l := 0) (by decide) hs
  exact ⟨s, q, hq, hp⟩

end CxlLock.Mcs
