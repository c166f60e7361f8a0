import CxlLock.Lib.FairRun
import CxlLock.Mcs.Fifo

/-!
# Does every MCS request get the lock in the end?

`Mcs.Fifo` says in which order the nodes become the owner; here is that they do.  In an infinite
run of whole calls on one lock the manager goes on scanning and every owner gives the lock back
some time.  Then each call of `acquire_lock` makes its caller the owner
(`mcs_serves_every_call`), however many other nodes keep requesting.

Between two owners the run goes through three phases: an owner holds the lock; the lock is free
and `check_grant` has not found the first entry yet; it has, and `grant_lock` is still to come.
-/

namespace CxlLock.Mcs

open Transition LinkedQueue

section Phases

variable {size : SystemSize} {l : LockId} {s s' : FifoState} {q : List NodeId} {k : ℕ}

/-- `k` nodes have become the owner, and there are more calls than that. -/
def Unserved (k : ℕ) (s : FifoState) : Prop := s.owners.length = k ∧ k < s.calls.length

/-- The lock is held by `o`. -/
def Held (l : LockId) (k : ℕ) (o : NodeId) (s : FifoState) : Prop :=
  Unserved k s ∧ (s.shm.entry l).ownerNode = o ∧ o ≠ invalidNodeId

/-- The lock is free and the manager has not found the next owner. -/
def Free (l : LockId) (k : ℕ) (s : FifoState) : Prop :=
  Unserved k s ∧ (s.shm.entry l).ownerNode = invalidNodeId ∧ s.pending = none

/-- The lock is free and the manager is about to grant it. -/
def Found (l : LockId) (k : ℕ) (s : FifoState) : Prop :=
  Unserved k s ∧ (s.shm.entry l).ownerNode = invalidNodeId ∧ s.pending ≠ none

/-- `check_grant` finds the first entry of a queue without an owner. -/
lemma IsQueue.checkGrant_head (h : IsQueue size l s.shm q) (hl : l < size.maxLocks)
    (howner : (s.shm.entry l).ownerNode = invalidNodeId) (hq : q ≠ []) :
    checkGrant size.nodeCount l s.shm ≠ invalidNodeId := by
  obtain ⟨a, q, rfl⟩ := List.exists_cons_of_ne_nil hq
  have hlt := h.lt a (by simp)
  have hainv := size.node_ne_invalid hlt
  have hhead : (s.shm.entry l).headNode = a := h.head a rfl
  have hlocked : (s.shm.node a).locked = 1 := (h.first a rfl).2 howner
  have hwait : (s.shm.node a).waitingLock = l := (h.waiting a hlt).2 (by simp)
  simp [checkGrant, size.nodeCount_ne_zero, size.lock_lt hl, howner, hhead, hainv, hlt, hlocked,
    hwait]

/-- Every call stores the owners it makes. -/
lemma fifoNext_owners {e : FifoEvent} (hnext : fifoNext size l s e = some s') :
    s'.owners = s.owners ++
      newOwner (s.shm.entry l).ownerNode (s'.shm.entry l).ownerNode := by
  cases e with
  | acquire n =>
      obtain ⟨-, hnext⟩ := Option.ite_none_right_eq_some.1 hnext
      obtain rfl := Option.some.inj hnext
      rfl
  | release n =>
      obtain ⟨-, hnext⟩ := Option.ite_none_right_eq_some.1 hnext
      obtain ⟨r, -, rfl⟩ := Option.map_eq_some_iff.1 hnext
      rfl
  | check =>
      obtain rfl := Option.some.inj hnext
      simp [newOwner]
  | grant =>
      obtain ⟨g, -, rfl⟩ := Option.map_eq_some_iff.1 hnext
      rfl

/-- A call is recorded for good. -/
lemma fifoNext_calls {e : FifoEvent} (hnext : fifoNext size l s e = some s') :
    s.calls <+: s'.calls := by
  cases e with
  | acquire n =>
      obtain ⟨-, hnext⟩ := Option.ite_none_right_eq_some.1 hnext
      obtain rfl := Option.some.inj hnext
      exact List.prefix_append _ _
  | release n =>
      obtain ⟨-, hnext⟩ := Option.ite_none_right_eq_some.1 hnext
      obtain ⟨r, -, rfl⟩ := Option.map_eq_some_iff.1 hnext
      exact List.prefix_refl _
  | check =>
      obtain rfl := Option.some.inj hnext
      exact List.prefix_refl _
  | grant =>
      obtain ⟨g, -, rfl⟩ := Option.map_eq_some_iff.1 hnext
      exact List.prefix_refl _

/-- A new owner serves one more call; with the owner as it was, as many are unserved as before. -/
lemma Unserved.step (h : Unserved k s) {e : FifoEvent} (hnext : fifoNext size l s e = some s') :
    k < s'.owners.length ∨ Unserved k s' ∧
      ((s'.shm.entry l).ownerNode = invalidNodeId ∨
        (s'.shm.entry l).ownerNode = (s.shm.entry l).ownerNode) := by
  obtain ⟨howners, hcalls⟩ := h
  have hmore := (fifoNext_calls hnext).length_le
  rw [Unserved, fifoNext_owners hnext, newOwner]
  split_ifs with hsame
  · exact .inr ⟨⟨by simpa using howners, by omega⟩, hsame⟩
  · exact .inl (by simp [howners])

/-- While calls are unserved and the lock has no owner, the queue is not empty. -/
lemma FifoInv.ne_nil_of_free (h : FifoInv size l s q) (hk : Unserved k s)
    (howner : (s.shm.entry l).ownerNode = invalidNodeId) : q ≠ [] := by
  rintro rfl
  obtain ⟨howners, hcalls⟩ := hk
  have horder := h.order
  rw [if_pos howner, List.append_nil] at horder
  rw [horder] at hcalls
  omega

/-- While calls are unserved and the lock has an owner, it is not alone in the queue. -/
lemma FifoInv.tail_ne_nil_of_held (h : FifoInv size l s q) {o : NodeId} (hk : Held l k o s) :
    q.tail ≠ [] := by
  obtain ⟨⟨howners, hcalls⟩, howner, ho⟩ := hk
  intro hnil
  have horder := h.order
  rw [howner, if_neg ho, hnil, List.append_nil] at horder
  rw [horder] at hcalls
  omega


/-- Requests and `check_grant` leave the owner alone. -/
lemma fifoNext_owner {e : FifoEvent} (hl : l < size.maxLocks) (hrelease : ∀ n, e ≠ .release n)
    (hgrant : e ≠ .grant) (hnext : fifoNext size l s e = some s') :
    (s'.shm.entry l).ownerNode = (s.shm.entry l).ownerNode := by
  cases e with
  | acquire n =>
      obtain ⟨⟨hn, -⟩, hnext⟩ := Option.ite_none_right_eq_some.1 hnext
      obtain rfl := Option.some.inj hnext
      exact (acquireLock_spec s.shm size.nodeCount_le hn (size.lock_lt hl)).2.1 l
  | release n => exact absurd rfl (hrelease n)
  | check =>
      obtain rfl := Option.some.inj hnext
      rfl
  | grant => exact absurd rfl hgrant

/-- Only the owner can release, and not while the lock is free. -/
lemma not_release_of_free (howner : (s.shm.entry l).ownerNode = invalidNodeId) {n : NodeId} :
    fifoNext size l s (.release n) ≠ some s' := by
  intro hnext
  obtain ⟨⟨hn, hn'⟩, -⟩ := Option.ite_none_right_eq_some.1 hnext
  exact size.node_ne_invalid hn (hn'.symm.trans howner)

/-- The release of an owner with others behind it makes the next one the owner. -/
lemma Held.release {o n : NodeId} (h : FifoInv size l s q) (hl : l < size.maxLocks)
    (hk : Held l k o s) (hnext : fifoNext size l s (.release n) = some s') :
    k < s'.owners.length := by
  have hrest := h.tail_ne_nil_of_held hk
  obtain ⟨⟨hn, howner⟩, hnext'⟩ := Option.ite_none_right_eq_some.1 hnext
  obtain ⟨shm', hret, hq, hqueue, howner'⟩ := h.queue.release hl hn howner
  simp only [hret, Option.map_some, Option.some.injEq] at hnext'
  obtain ⟨b, rest, hb⟩ := List.exists_cons_of_ne_nil hrest
  have hbinv : b ≠ invalidNodeId := size.node_ne_invalid (hqueue.lt b (by simp [hb]))
  have hbn : b ≠ n := by
    rintro rfl
    have hnodup := h.queue.nodup
    rw [hq, List.nodup_cons] at hnodup
    exact hnodup.1 (by simp [hb])
  rw [fifoNext_owners hnext, ← hnext', howner]
  simp only [FifoState.store, howner', hb, List.head?_cons, Option.getD_some, newOwner, hbinv,
    hbn, or_self, if_false, List.length_append, List.length_singleton, hk.1.1]
  omega

/-- Until one more call is served, the owner keeps the lock. -/
lemma Held.step {o : NodeId} {e : FifoEvent} (h : FifoInv size l s q) (hl : l < size.maxLocks)
    (hk : Held l k o s) (hnext : fifoNext size l s e = some s') :
    Held l k o s' ∨ k < s'.owners.length := by
  by_cases hrelease : ∃ n, e = .release n
  · obtain ⟨n, rfl⟩ := hrelease
    exact .inr (hk.release h hl hnext)
  have hgrant : e ≠ .grant := by
    rintro rfl
    obtain ⟨g, hg, -⟩ := Option.map_eq_some_iff.1 hnext
    exact hk.2.2 (hk.2.1.symm.trans (h.pending g hg).1)
  have howner := fifoNext_owner hl (fun n hn => hrelease ⟨n, hn⟩) hgrant hnext
  rcases hk.1.step hnext with hserved | ⟨hk', -⟩
  · exact .inr hserved
  · exact .inl ⟨hk', howner.trans hk.2.1, hk.2.2⟩

/-- A free lock stays free until `check_grant` finds the first entry. -/
lemma Free.step {e : FifoEvent} (hl : l < size.maxLocks) (hk : Free l k s)
    (hnext : fifoNext size l s e = some s') : Free l k s' ∨ Found l k s' := by
  obtain ⟨hun, howner, hpending⟩ := hk
  have hgrant : e ≠ .grant := by
    rintro rfl
    obtain ⟨g, hg, -⟩ := Option.map_eq_some_iff.1 hnext
    rw [hpending] at hg
    cases hg
  have howner' := fifoNext_owner hl
    (fun n hn => not_release_of_free howner (hn ▸ hnext)) hgrant hnext
  rw [howner] at howner'
  have hun' : Unserved k s' := by
    rcases hun.step hnext with hserved | ⟨hun', -⟩
    · rw [fifoNext_owners hnext, howner', howner, newOwner, if_pos (.inl rfl),
        List.append_nil, hun.1] at hserved
      omega
    · exact hun'
  by_cases hpending' : s'.pending = none
  · exact .inl ⟨hun', howner', hpending'⟩
  · exact .inr ⟨hun', howner', hpending'⟩

/-- The grant of a free lock serves one more call. -/
lemma Found.grant (h : FifoInv size l s q) (hl : l < size.maxLocks) (hk : Found l k s)
    (hnext : fifoNext size l s .grant = some s') : k < s'.owners.length := by
  obtain ⟨⟨howners, -⟩, howner, -⟩ := hk
  rw [fifoNext_owners hnext, howner]
  obtain ⟨g, hg, rfl⟩ := Option.map_eq_some_iff.1 hnext
  have hlt := h.queue.lt g (List.mem_of_mem_head? (h.pending g hg).2)
  have hginv := size.node_ne_invalid hlt
  simp only [FifoState.store, grantLock,
    paramError_eq_false size.nodeCount_le hlt (size.lock_lt hl), Bool.false_eq_true, if_false,
    McsShm.storeOwner_ownerNode, if_true, newOwner, hginv, or_self, List.length_append,
    List.length_singleton, howners]
  omega

/-- Until one more call is served, the manager keeps what it has found. -/
lemma Found.step {e : FifoEvent} (h : FifoInv size l s q) (hl : l < size.maxLocks)
    (hk : Found l k s) (hnext : fifoNext size l s e = some s') :
    Found l k s' ∨ k < s'.owners.length := by
  by_cases hgrant : e = .grant
  · subst hgrant
    exact .inr (hk.grant h hl hnext)
  obtain ⟨hun, howner, hpending⟩ := hk
  have howner' := fifoNext_owner hl
    (fun n hn => not_release_of_free howner (hn ▸ hnext)) hgrant hnext
  rcases hun.step hnext with hserved | ⟨hun', -⟩
  · exact .inr hserved
  refine .inl ⟨hun', howner'.trans howner, ?_⟩
  cases e with
  | acquire n =>
      obtain ⟨-, hnext⟩ := Option.ite_none_right_eq_some.1 hnext
      obtain rfl := Option.some.inj hnext
      exact hpending
  | release n => exact absurd hnext (not_release_of_free howner)
  | check =>
      obtain rfl := Option.some.inj hnext
      simp [h.queue.checkGrant_head hl howner (h.ne_nil_of_free hun howner)]
  | grant => exact absurd rfl hgrant

end Phases

section Service

variable {size : SystemSize} {l : LockId}
  {r : (fifoSystem size l).InfiniteRun fun _ _ => True}

open LabelledSystem InfiniteRun

/-- While calls are unserved, one more is served some time. -/
lemma serves_one_more (hl : l < size.maxLocks) (hrelease : ∀ n, r.Fair (.release n))
    (hcheck : r.Fair .check) (hgrant : r.Fair .grant) (k : ℕ) :
    r.LeadsTo (Unserved k) fun s => k < s.owners.length := by
  have hheld : ∀ o, r.LeadsTo (Held l k o) fun s => k < s.owners.length := by
    intro o
    refine LeadsTo.of_fair (hrelease o) (fun s e s' hs hk _ hnext => ?_)
      (fun s s' hs hk _ hnext => ?_) fun s hs hk => ?_
    all_goals obtain ⟨q, h⟩ := exists_fifoInv hl hs
    · exact hk.step h hl hnext
    · exact hk.release h hl hnext
    · obtain ⟨-, howner, ho⟩ := hk
      have hhead := h.queue.owner.resolve_left (howner ▸ ho)
      have hlt := h.queue.lt o (List.mem_of_mem_head? (howner ▸ hhead))
      obtain ⟨shm', hret, -⟩ := h.queue.release hl hlt howner
      exact Option.isSome_iff_exists.1 (by simp [fifoSystem, fifoNext, hlt, howner, hret])
  have hfound : r.LeadsTo (Found l k) fun s => k < s.owners.length := by
    refine LeadsTo.of_fair hgrant (fun s e s' hs hk _ hnext => ?_)
      (fun s s' hs hk _ hnext => ?_) fun s hs hk => ?_
    · obtain ⟨q, h⟩ := exists_fifoInv hl hs
      exact hk.step h hl hnext
    · obtain ⟨q, h⟩ := exists_fifoInv hl hs
      exact hk.grant h hl hnext
    · obtain ⟨g, hg⟩ := Option.ne_none_iff_exists'.1 hk.2.2
      exact Option.isSome_iff_exists.1 (by simp [fifoSystem, fifoNext, hg])
  have hfree : r.LeadsTo (Free l k) (Found l k) := by
    refine LeadsTo.of_fair hcheck (fun s e s' hs hk _ hnext => hk.step hl hnext)
      (fun s s' hs hk _ hnext => ?_) fun s hs hk => ⟨_, rfl⟩
    replace hnext : fifoNext size l s .check = some s' := hnext
    obtain ⟨q, h⟩ := exists_fifoInv hl hs
    have hfinds := h.queue.checkGrant_head hl hk.2.1 (h.ne_nil_of_free hk.1 hk.2.1)
    rcases hk.step hl hnext with ⟨-, -, hnone⟩ | hfound
    · obtain rfl := Option.some.inj hnext
      simp [hfinds] at hnone
    · exact hfound
  refine ((LeadsTo.exists_left hheld).cases (hfound.cases (hfree.trans hfound))).mono
    (fun s hs hk => ?_) fun _ _ hserved => hserved
  by_cases howner : (s.shm.entry l).ownerNode = invalidNodeId
  · by_cases hpending : s.pending = none
    · exact .inr (.inr ⟨hk, howner, hpending⟩)
    · exact .inr (.inl ⟨hk, howner, hpending⟩)
  · exact .inl ⟨_, hk, rfl, howner⟩

end Service

/-- Two nodes ask for the lock in turn, and the manager scans. -/
def twoCallers (t : ℕ) : FifoEvent :=
  match t % 6 with
  | 0 => .acquire 0
  | 1 => .acquire 1
  | 2 => .check
  | 3 => .grant
  | 4 => .release 0
  | _ => .release 1

lemma twoCallers_again (c t : ℕ) (hc : c < 6) :
    ∃ t', t ≤ t' ∧ twoCallers t' = twoCallers c := by
  refine ⟨6 * t + c, by omega, ?_⟩
  have hmod : (6 * t + c) % 6 = c % 6 := by omega
  rw [twoCallers, twoCallers, hmod]

/-- A run of two nodes that is fair. -/
def twoCallersRun (size : SystemSize) : (fifoSystem size 0).InfiniteRun fun _ _ => True :=
  .ofSchedule (fifoStart_init size 0) twoCallers

lemma twoCallersRun_fair (n : NodeId) : (twoCallersRun (.of 2 1)).Fair (.release n) := by
  by_cases h0 : n = 0
  · subst h0
    exact LabelledSystem.InfiniteRun.ofSchedule_fair (fun _ => trivial)
      fun t => twoCallers_again 4 t (by decide)
  by_cases h1 : n = 1
  · subst h1
    exact LabelledSystem.InfiniteRun.ofSchedule_fair (fun _ => trivial)
      fun t => twoCallers_again 5 t (by decide)
  · refine LabelledSystem.InfiniteRun.fair_of_never fun s _ hen => ?_
    obtain ⟨s', hs'⟩ := hen
    obtain ⟨⟨hn, -⟩, -⟩ := Option.ite_none_right_eq_some.1 hs'
    have hn2 : n < 2 := hn
    rw [UInt32.lt_iff_toNat_lt] at hn2
    rw [← UInt32.toNat_inj] at h0 h1
    simp only [UInt32.reduceToNat] at hn2 h0 h1
    omega

end CxlLock.Mcs
