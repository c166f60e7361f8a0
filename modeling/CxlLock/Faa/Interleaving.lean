import CxlLock.Faa.GlobalLock
import CxlLock.Lib.Interleaving

/-!
# The ticket lock, access by access

All nodes use one lock `l`; the lock manager runs `check_grant` and `grant_lock` on it.  Each
event is one access to shared memory.  A node calls `acquire_lock`, polls, is inside the
critical section once the poll has succeeded, and calls `release_lock`.

The poll tests `now_serving >= my_ticket`.  A node that has drawn a ticket but not yet
published it is invisible to `check_grant`, so the manager can serve a later ticket first, and
then both nodes pass the poll: `late_ticket_enters`.  The comment in `grant_lock` says that
the node polls `my_ticket == now_serving`.

`ServesOne` is what a grant has to meet: when it stores `now_serving`, at most one outstanding
ticket is served by it.  From there on the ticket of an admitted node stays below all other
outstanding tickets, whatever the manager does next.
-/

namespace CxlLock.Faa

open Transition

/-- The next access of a node, with the local variables of the code it is in. -/
inductive NodePc
  /-- Not in any call; the first access of `acquire_lock` draws a ticket. -/
  | idle
  | storeTicket (myTicket : UInt32)
  | storeActive
  /-- The three loads of one turn of `poll_for_grant`. -/
  | pollServing
  | pollTicket (nowServing : UInt32)
  | pollActive (nowServing myTicket : UInt32)
  /-- Between the successful poll and the first access of `release_lock`. -/
  | critical
  | clearActive
  | clearOwner
  deriving DecidableEq

/-- The next access of the lock manager. -/
inductive ManagerPc
  | loadOwner
  /-- The search of `check_grant` at node `nid`. -/
  | scanActive (nid : NodeId) (minTicket : UInt32) (minNode : NodeId)
  | scanTicket (nid : NodeId) (minTicket : UInt32) (minNode : NodeId)
  /-- The accesses of `grant_lock`. -/
  | loadGrant (nodeId : NodeId)
  | storeOwner (nodeId : NodeId) (grantTicket : UInt32)
  | storeServing (grantTicket : UInt32)
  deriving DecidableEq

/-- One access of a node.  Fewer than `2 ^ 32 - 1` tickets are drawn. -/
def nodeStep (l : LockId) (n : NodeId) (shm : FaaShm) : NodePc → Option (FaaShm × NodePc)
  | .idle =>
      let myTicket := (shm.entry l).nextTicket
      if myTicket.toNat + 1 < 2 ^ 32 - 1 then
        some (shm.storeNextTicket l (myTicket + 1), .storeTicket myTicket)
      else none
  | .storeTicket myTicket => some (shm.storeTicket n myTicket, .storeActive)
  | .storeActive => some (shm.storeActive n 1, .pollServing)
  | .pollServing => some (shm, .pollTicket (shm.entry l).nowServing)
  | .pollTicket nowServing => some (shm, .pollActive nowServing (shm.ticket n).ticket)
  | .pollActive nowServing myTicket =>
      if myTicket ≤ nowServing ∧ (shm.ticket n).active ≠ 0 then some (shm, .critical)
      else some (shm, .pollServing)
  | .critical => some (shm.storeTicket n 0, .clearActive)
  | .clearActive => some (shm.storeActive n 0, .clearOwner)
  | .clearOwner => some (shm.storeOwner l invalidNodeId, .idle)

/-- Where the search goes after node `nid`: to the next node, or on with its result. -/
def afterNode (nodeCount : UInt32) (nid : NodeId) (minTicket : UInt32) (minNode : NodeId) :
    ManagerPc :=
  if nid + 1 < nodeCount then .scanActive (nid + 1) minTicket minNode
  else if minNode = invalidNodeId then .loadOwner
  else .loadGrant minNode

/-- One access of the lock manager. -/
def managerStep (nodeCount : UInt32) (l : LockId) (shm : FaaShm) :
    ManagerPc → FaaShm × ManagerPc
  | .loadOwner =>
      if (shm.entry l).ownerNode ≠ invalidNodeId then (shm, .loadOwner)
      else (shm, .scanActive 0 maxTicket invalidNodeId)
  | .scanActive nid minTicket minNode =>
      if (shm.ticket nid).active ≠ 0 then (shm, .scanTicket nid minTicket minNode)
      else (shm, afterNode nodeCount nid minTicket minNode)
  | .scanTicket nid minTicket minNode =>
      if (shm.ticket nid).ticket < minTicket then
        (shm, afterNode nodeCount nid (shm.ticket nid).ticket nid)
      else (shm, afterNode nodeCount nid minTicket minNode)
  | .loadGrant nodeId => (shm, .storeOwner nodeId (shm.ticket nodeId).ticket)
  | .storeOwner nodeId grantTicket => (shm.storeOwner l nodeId, .storeServing grantTicket)
  | .storeServing grantTicket => (shm.storeServing l grantTicket, .loadOwner)

/-- The nodes below `node_count` and the lock manager on lock `l`. -/
def machine (size : SystemSize) (l : LockId) :
    Machine NodeId Unit FaaShm NodePc ManagerPc where
  start shm := l < size.maxLocks ∧ ∃ shm₀, shm = (initializeShm size.nodeCount shm₀).2
  idle := .idle
  managerIdle := .loadOwner
  party n _ shm pc := if n < size.nodeCount then nodeStep l n shm pc else none
  manager shm pc := some (managerStep size.nodeCount l shm pc)

/-- A state of the interleaved ticket lock. -/
abbrev State := Config NodeId FaaShm NodePc ManagerPc

/-- The ticket of a node that has drawn one and not begun to release it. -/
def outstanding (s : State) (n : NodeId) : Option UInt32 :=
  match s.pc n with
  | .idle | .clearActive | .clearOwner => none
  | .storeTicket myTicket => some myTicket
  | .storeActive | .pollServing | .pollTicket _ | .pollActive _ _ | .critical =>
      some (s.mem.ticket n).ticket

/-- At most one outstanding ticket is at most `t`. -/
def OneServed (size : SystemSize) (s : State) (t : UInt32) : Prop :=
  ∀ n, n < size.nodeCount → ∀ m, m < size.nodeCount → ∀ u ∈ outstanding s n,
    ∀ v ∈ outstanding s m, u ≤ t → v ≤ t → n = m

/-- The condition on a step: a grant serves at most one outstanding ticket. -/
def ServesOne (size : SystemSize) (s : State) : Turn NodeId Unit → Prop
  | .party _ _ => True
  | .manager =>
      match s.mgr with
      | .storeServing grantTicket => OneServed size s grantTicket
      | _ => True

instance (size : SystemSize) (s : State) (t : UInt32) : Decidable (OneServed size s t) :=
  inferInstanceAs (Decidable (∀ n, n < size.nodeCount → ∀ m, m < size.nodeCount → _))

instance (size : SystemSize) (s : State) : ∀ e, Decidable (ServesOne size s e)
  | .party _ _ => .isTrue trivial
  | .manager =>
      match h : s.mgr with
      | .storeServing t => decidable_of_iff (OneServed size s t) (by simp [ServesOne, h])
      | .loadOwner | .scanActive _ _ _ | .scanTicket _ _ _ | .loadGrant _
      | .storeOwner _ _ => .isTrue (by simp [ServesOne, h])

/-- No two nodes are between their successful poll and their `release_lock`. -/
def Exclusive (s : State) : Prop :=
  ∀ n m, s.pc n = .critical → s.pc m = .critical → n = m

/-! ## The invariant -/

/-- The node is inside, or the loads of its current poll turn so far let it in. -/
def Admitted (s : State) (n : NodeId) : Prop :=
  match s.pc n with
  | .critical => True
  | .pollTicket nowServing => (s.mem.ticket n).ticket ≤ nowServing
  | .pollActive nowServing myTicket => myTicket ≤ nowServing
  | _ => False

/-- A ticket that has been drawn, or the 0 of an empty ticket record. -/
def Drawn (l : LockId) (shm : FaaShm) (t : UInt32) : Prop :=
  t < (shm.entry l).nextTicket ∨ t = 0

/-- What the manager's local variables are in the course of a scan. -/
def ManagerOk (size : SystemSize) (l : LockId) (shm : FaaShm) : ManagerPc → Prop
  | .loadOwner => True
  | .scanActive nid _ minNode | .scanTicket nid _ minNode =>
      nid < size.nodeCount ∧ (minNode ≠ invalidNodeId → minNode < size.nodeCount)
  | .loadGrant nodeId => nodeId < size.nodeCount
  | .storeOwner _ grantTicket | .storeServing grantTicket => Drawn l shm grantTicket

structure Inv (size : SystemSize) (l : LockId) (s : State) : Prop where
  drawn_lt : ∀ n, ∀ t ∈ outstanding s n, t < (s.mem.entry l).nextTicket
  distinct : ∀ n m, ∀ t ∈ outstanding s n, t ∈ outstanding s m → n = m
  participates : ∀ n, ∀ t ∈ outstanding s n, n < size.nodeCount
  record_drawn : ∀ n, n < size.nodeCount → Drawn l s.mem (s.mem.ticket n).ticket
  manager_ok : ManagerOk size l s.mem s.mgr
  serving_drawn : Drawn l s.mem (s.mem.entry l).nowServing
  one_served : OneServed size s (s.mem.entry l).nowServing
  /-- The ticket of an admitted node is the smallest outstanding one. -/
  admitted : ∀ n, Admitted s n → ∃ t ∈ outstanding s n, ∀ m, m ≠ n →
    ∀ u ∈ outstanding s m, t < u

section Steps

variable {size : SystemSize} {l : LockId} {s : State} {n : NodeId}

/-- What an access of a node does to the outstanding tickets and the ticket counter. -/
inductive TicketEffect (l : LockId) (s s' : State) (n : NodeId) : Prop
  /-- The node has drawn the next ticket. -/
  | drawn : (s.mem.entry l).nextTicket.toNat + 1 < 2 ^ 32 - 1 →
      (s'.mem.entry l).nextTicket = (s.mem.entry l).nextTicket + 1 →
      outstanding s n = none → outstanding s' n = some (s.mem.entry l).nextTicket →
      TicketEffect l s s' n
  /-- No outstanding ticket has changed. -/
  | kept : (s'.mem.entry l).nextTicket = (s.mem.entry l).nextTicket →
      outstanding s' n = outstanding s n → TicketEffect l s s' n
  /-- The node has begun to release. -/
  | released : (s'.mem.entry l).nextTicket = (s.mem.entry l).nextTicket →
      outstanding s' n = none → ¬ Admitted s' n → TicketEffect l s s' n

/-- What an access of node `n` does to its own request. -/
structure NodeEffect (l : LockId) (s s' : State) (n : NodeId) : Prop where
  tickets : TicketEffect l s s' n
  record : (s'.mem.ticket n).ticket = (s.mem.ticket n).ticket ∨
    (s'.mem.ticket n).ticket = 0 ∨ (s'.mem.ticket n).ticket ∈ outstanding s n
  /-- A node is admitted by its load of `now_serving`. -/
  admitted : Admitted s' n → Admitted s n ∨
    ∃ t ∈ outstanding s n, t ≤ (s.mem.entry l).nowServing

variable {r : FaaShm × NodePc}

/-- A node stores neither to `now_serving` nor to the records of other nodes. -/
lemma nodeStep_frame (h : nodeStep l n s.mem (s.pc n) = some r) :
    (r.1.entry l).nowServing = (s.mem.entry l).nowServing ∧
      ∀ k, k ≠ n → (r.1.ticket k).ticket = (s.mem.ticket k).ticket := by
  cases hpc : s.pc n <;> simp only [hpc, nodeStep] at h <;> (try split_ifs at h) <;>
    obtain rfl := Option.some.inj h <;> simp +contextual

lemma nodeStep_effect (h : nodeStep l n s.mem (s.pc n) = some r) :
    NodeEffect l s (s.move n r) n := by
  cases hpc : s.pc n <;> simp only [hpc, nodeStep] at h
  case idle =>
      split_ifs at h with hfew
      cases h
      exact ⟨.drawn hfew (by simp) (by simp [outstanding, hpc]) (by simp [outstanding]),
        .inl (by simp), fun h => by simp [Admitted] at h⟩
  case storeTicket myTicket =>
      cases h
      exact ⟨.kept (by simp) (by simp [outstanding, hpc]),
        .inr (.inr (by simp [outstanding, hpc])), fun h => by simp [Admitted] at h⟩
  case storeActive =>
      cases h
      exact ⟨.kept (by simp) (by simp [outstanding, hpc]), .inl (by simp),
        fun h => by simp [Admitted] at h⟩
  case pollServing =>
      cases h
      refine ⟨.kept (by simp) (by simp [outstanding, hpc]), .inl (by simp), fun h => .inr ?_⟩
      exact ⟨(s.mem.ticket n).ticket, by simp [outstanding, hpc], by simpa [Admitted] using h⟩
  case pollTicket nowServing =>
      cases h
      exact ⟨.kept (by simp) (by simp [outstanding, hpc]), .inl (by simp),
        fun h => .inl (by simpa [Admitted, hpc] using h)⟩
  case pollActive nowServing myTicket =>
      split_ifs at h with hgranted <;> cases h
      · exact ⟨.kept (by simp) (by simp [outstanding, hpc]), .inl (by simp),
          fun _ => .inl (by simpa [Admitted, hpc] using hgranted.1)⟩
      · exact ⟨.kept (by simp) (by simp [outstanding, hpc]), .inl (by simp),
          fun h => by simp [Admitted] at h⟩
  case critical =>
      cases h
      exact ⟨.released (by simp) (by simp [outstanding]) (by simp [Admitted]),
        .inr (.inl (by simp)), fun h => by simp [Admitted] at h⟩
  case clearActive =>
      cases h
      exact ⟨.released (by simp) (by simp [outstanding]) (by simp [Admitted]),
        .inl (by simp), fun h => by simp [Admitted] at h⟩
  case clearOwner =>
      cases h
      exact ⟨.released (by simp) (by simp [outstanding]) (by simp [Admitted]),
        .inl (by simp), fun h => by simp [Admitted] at h⟩

lemma outstanding_move_of_ne {k : NodeId} (hk : k ≠ n)
    (hr : (r.1.ticket k).ticket = (s.mem.ticket k).ticket) :
    outstanding (s.move n r) k = outstanding s k := by
  simp [outstanding, hk, hr]

lemma admitted_move_of_ne {k : NodeId} (hk : k ≠ n)
    (hr : (r.1.ticket k).ticket = (s.mem.ticket k).ticket) :
    Admitted (s.move n r) k ↔ Admitted s k := by
  simp [Admitted, hk, hr]

/-- A drawn ticket stays one when the counter moves on. -/
lemma Drawn.mono {shm shm' : FaaShm} {t : UInt32} (h : Drawn l shm t)
    (hnext : ∀ u, u < (shm.entry l).nextTicket → u < (shm'.entry l).nextTicket) :
    Drawn l shm' t :=
  h.imp_left (hnext t)

lemma ManagerOk.mono {shm shm' : FaaShm} {pc : ManagerPc} (h : ManagerOk size l shm pc)
    (hnext : ∀ u, u < (shm.entry l).nextTicket → u < (shm'.entry l).nextTicket) :
    ManagerOk size l shm' pc := by
  cases pc <;> first | exact h | exact Drawn.mono h hnext

lemma lt_maxTicket {t : UInt32} (h : t.toNat + 1 < 2 ^ 32 - 1) : t < maxTicket := by
  simp only [UInt32.lt_iff_toNat_lt, maxTicket, UInt32.reduceToNat]
  omega

namespace TicketEffect

variable {s' : State}

/-- A new outstanding ticket is the value the counter had. -/
lemma eq_old_or_next (h : TicketEffect l s s' n) {t : UInt32} (ht : t ∈ outstanding s' n) :
    t ∈ outstanding s n ∨
      t = (s.mem.entry l).nextTicket ∧ t < (s'.mem.entry l).nextTicket := by
  rcases h with ⟨hfew, hnext, -, hsome⟩ | ⟨-, hkept⟩ | ⟨-, hnone, -⟩
  · obtain rfl := Option.some.inj (hsome.symm.trans ht)
    rw [hnext]
    exact .inr ⟨rfl, (lt_add_one_iff (lt_maxTicket hfew)).2 (.inr rfl)⟩
  · exact .inl (hkept ▸ ht)
  · cases hnone.symm.trans ht

lemma nextTicket_mono (h : TicketEffect l s s' n) {u : UInt32}
    (hu : u < (s.mem.entry l).nextTicket) : u < (s'.mem.entry l).nextTicket := by
  rcases h with ⟨hfew, hnext, -, -⟩ | ⟨hnext, -⟩ | ⟨hnext, -, -⟩
  · rw [hnext]
    exact (lt_add_one_iff (lt_maxTicket hfew)).2 (.inl hu)
  · rwa [hnext]
  · rwa [hnext]

/-- A node that is admitted keeps the ticket it had. -/
lemma kept_of_admitted (h : TicketEffect l s s' n) (hadm : Admitted s' n) {t : UInt32}
    (ht : t ∈ outstanding s n) : outstanding s' n = outstanding s n := by
  rcases h with ⟨-, -, hnone, -⟩ | ⟨-, hkept⟩ | ⟨-, -, hnadm⟩
  · cases hnone.symm.trans ht
  · exact hkept
  · exact absurd hadm hnadm

end TicketEffect

/-- If the next ticket is served already, no ticket below it has been drawn. -/
lemma Inv.not_lt_of_next_le (h : Inv size l s)
    (hle : (s.mem.entry l).nextTicket ≤ (s.mem.entry l).nowServing) (v : UInt32) :
    ¬ v < (s.mem.entry l).nextTicket := by
  intro hv
  rcases h.serving_drawn with hlt | hzero
  · exact UInt32.not_lt.2 hle hlt
  · rw [hzero] at hle
    exact UInt32.not_lt.2 UInt32.zero_le (UInt32.lt_of_lt_of_le hv hle)

lemma Inv.node (h : Inv size l s) (hn : n < size.nodeCount)
    (hstep : nodeStep l n s.mem (s.pc n) = some r) : Inv size l (s.move n r) := by
  obtain ⟨hserving, hrecords⟩ := nodeStep_frame hstep
  obtain ⟨htickets, hrecord, hadmitted⟩ := nodeStep_effect hstep
  have hout : ∀ k, k ≠ n → outstanding (s.move n r) k = outstanding s k := fun k hk =>
    outstanding_move_of_ne hk (hrecords k hk)
  have hadm : ∀ k, k ≠ n → (Admitted (s.move n r) k ↔ Admitted s k) := fun k hk =>
    admitted_move_of_ne hk (hrecords k hk)
  have hnext : ∀ u, u < (s.mem.entry l).nextTicket → u < (r.1.entry l).nextTicket :=
    fun u => htickets.nextTicket_mono
  -- an outstanding ticket is an old one, or the caller has just drawn it
  have hold : ∀ k, ∀ t ∈ outstanding (s.move n r) k, t ∈ outstanding s k ∨
      k = n ∧ t = (s.mem.entry l).nextTicket ∧ t < (r.1.entry l).nextTicket := by
    intro k t ht
    by_cases hk : k = n
    · subst hk
      exact (htickets.eq_old_or_next ht).imp_right fun hnew => ⟨rfl, hnew⟩
    · exact .inl (hout k hk ▸ ht)
  constructor
  · intro k t ht
    rcases hold k t ht with ht | ⟨-, -, hlt⟩
    · exact hnext t (h.drawn_lt k t ht)
    · exact hlt
  · intro k m t ht hm
    rcases hold k t ht with htk | ⟨rfl, rfl, -⟩ <;> rcases hold m _ hm with htm | ⟨rfl, hmt, -⟩
    · exact h.distinct k m t htk htm
    · exact absurd (hmt ▸ h.drawn_lt k t htk) (UInt32.lt_irrefl _)
    · exact absurd (h.drawn_lt m _ htm) (UInt32.lt_irrefl _)
    · rfl
  · intro k t ht
    rcases hold k t ht with ht | ⟨rfl, -, -⟩
    · exact h.participates k t ht
    · exact hn
  · intro k hk
    have hdrawn : Drawn l s.mem (r.1.ticket k).ticket := by
      by_cases hkn : k = n
      · subst hkn
        rcases hrecord with hsame | hzero | hmem
        · exact (show (r.1.ticket k).ticket = _ from hsame) ▸ h.record_drawn k hk
        · exact .inr hzero
        · exact .inl (h.drawn_lt k _ hmem)
      · rw [hrecords k hkn]
        exact h.record_drawn k hk
    exact hdrawn.mono hnext
  · exact h.manager_ok.mono hnext
  · rw [Config.move_mem, hserving]
    exact h.serving_drawn.mono hnext
  · intro a ha b hb u hu v hv hua hvb
    rw [Config.move_mem, hserving] at hua hvb
    rcases hold a u hu with hold_u | ⟨rfl, rfl, -⟩ <;>
      rcases hold b v hv with hold_v | ⟨rfl, rfl, -⟩
    · exact h.one_served a ha b hb u hold_u v hold_v hua hvb
    · exact absurd (h.drawn_lt a u hold_u) (h.not_lt_of_next_le hvb u)
    · exact absurd (h.drawn_lt b v hold_v) (h.not_lt_of_next_le hua v)
    · rfl
  · intro k hk
    by_cases hkn : k = n
    · subst hkn
      -- the load of `now_serving` has found the only outstanding ticket it serves
      have hleast : ∃ t ∈ outstanding s k, ∀ m, m ≠ k → ∀ u ∈ outstanding s m, t < u := by
        rcases hadmitted hk with hk | ⟨t, ht, hle⟩
        · exact h.admitted k hk
        · refine ⟨t, ht, fun m hm u hu => ?_⟩
          by_contra hut
          exact hm (h.one_served m (h.participates m u hu) k hn u hu t ht
            (UInt32.le_trans (UInt32.not_lt.1 hut) hle) hle)
      obtain ⟨t, ht, hleast⟩ := hleast
      refine ⟨t, ?_, fun m hm u hu => hleast m hm u (hout m hm ▸ hu)⟩
      rw [htickets.kept_of_admitted hk ht]
      exact ht
    · obtain ⟨t, ht, hleast⟩ := h.admitted k ((hadm k hkn).1 hk)
      refine ⟨t, by rwa [hout k hkn], fun m hm u hu => ?_⟩
      rcases hold m u hu with hu | ⟨-, rfl, -⟩
      · exact hleast m hm u hu
      · exact h.drawn_lt k t ht

lemma afterNode_ok {shm : FaaShm} {nid minNode : NodeId} {minTicket : UInt32}
    (hmin : minNode ≠ invalidNodeId → minNode < size.nodeCount) :
    ManagerOk size l shm (afterNode size.nodeCount nid minTicket minNode) := by
  unfold afterNode
  split_ifs with hnid hnone
  · exact ⟨hnid, hmin⟩
  · trivial
  · exact hmin hnone

/-- An access of the manager keeps all tickets; only its store to `now_serving` matters. -/
lemma managerStep_frame (size : SystemSize) (l : LockId) (shm : FaaShm) (pc : ManagerPc) :
    (managerStep size.nodeCount l shm pc).1.ticket = shm.ticket ∧
      ((managerStep size.nodeCount l shm pc).1.entry l).nextTicket =
        (shm.entry l).nextTicket ∧
      (((managerStep size.nodeCount l shm pc).1.entry l).nowServing =
          (shm.entry l).nowServing ∨
        ∃ t, pc = .storeServing t ∧
          ((managerStep size.nodeCount l shm pc).1.entry l).nowServing = t) := by
  cases pc <;> simp only [managerStep] <;> (try split_ifs) <;> simp

lemma managerStep_ok {pc : ManagerPc} {shm : FaaShm} (h : ManagerOk size l shm pc)
    (hrec : ∀ n, n < size.nodeCount → Drawn l shm (shm.ticket n).ticket) :
    ManagerOk size l shm (managerStep size.nodeCount l shm pc).2 := by
  cases pc with
  | loadOwner =>
      simp only [managerStep]
      split_ifs
      · trivial
      · exact ⟨size.nodeCount_pos, fun h => absurd rfl h⟩
  | scanActive nid minTicket minNode =>
      simp only [managerStep]
      split_ifs
      · exact h
      · exact afterNode_ok h.2
  | scanTicket nid minTicket minNode =>
      simp only [managerStep]
      split_ifs
      · exact afterNode_ok fun _ => h.1
      · exact afterNode_ok h.2
  | loadGrant nodeId => exact hrec nodeId h
  | storeOwner nodeId grantTicket => exact h
  | storeServing grantTicket => trivial

lemma Inv.manager (h : Inv size l s) (hok : ServesOne size s .manager) :
    Inv size l (s.manage (managerStep size.nodeCount l s.mem s.mgr)) := by
  obtain ⟨hticket, hnext, hserving⟩ :=
    managerStep_frame size l s.mem s.mgr
  obtain ⟨hlt, hdistinct, hpart, hrec, hmgr, hserv, hone, hmin⟩ := h
  have hout : outstanding (s.manage (managerStep size.nodeCount l s.mem s.mgr)) =
      outstanding s := by
    funext n
    simp [outstanding, hticket]
  have hadm : ∀ n, Admitted (s.manage (managerStep size.nodeCount l s.mem s.mgr)) n ↔
      Admitted s n := fun n => by
    simp [Admitted, hticket]
  have hdrawn : ∀ t, Drawn l s.mem t →
      Drawn l (managerStep size.nodeCount l s.mem s.mgr).1 t := fun t ht =>
    ht.mono fun u hu => hnext ▸ hu
  refine ⟨?_, ?_, ?_, ?_, ?_, ?_, ?_, ?_⟩
  · simpa [hout, hnext] using hlt
  · simpa [hout] using hdistinct
  · simpa [hout] using hpart
  · intro n hn
    simpa [hticket] using hdrawn _ (hrec n hn)
  · exact (managerStep_ok hmgr hrec).mono fun u hu => hnext ▸ hu
  · rcases hserving with hsame | ⟨t, hpc, hstore⟩
    · simpa [hsame] using hdrawn _ hserv
    · rw [hpc] at hmgr
      simpa [hstore] using hdrawn _ hmgr
  · rcases hserving with hsame | ⟨t, hpc, hstore⟩
    · simpa [OneServed, hsame, hout] using hone
    · simp only [ServesOne, hpc] at hok
      simpa [OneServed, hstore, hout] using hok
  · intro n hn
    simpa [hout] using hmin n ((hadm n).1 hn)

lemma Inv.init (h : (machine size l).system.init s) : Inv size l s := by
  obtain ⟨⟨hl, shm, hshm⟩, hpc, hmgr⟩ := h
  have hnone : ∀ n, outstanding s n = none := fun n => by
    simp [outstanding, hpc n, machine]
  simp only [initializeShm, size.nodeCount_valid, if_false] at hshm
  refine ⟨by simp [hnone], by simp [hnone], by simp [hnone], fun n hn => .inr ?_, ?_, .inr ?_,
    by simp [OneServed, hnone], fun n hn => ?_⟩
  · simp [hshm, hn]
  · rw [hmgr]
    trivial
  · simp [hshm, size.lock_lt hl]
  · simp [Admitted, hpc n, machine] at hn

lemma Inv.exclusive (h : Inv size l s) : Exclusive s := by
  intro n m hn hm
  by_contra hnm
  obtain ⟨t, ht, hnleast⟩ := h.admitted n (by simp [Admitted, hn])
  obtain ⟨u, hu, hmleast⟩ := h.admitted m (by simp [Admitted, hm])
  have h1 := hnleast m (Ne.symm hnm) u hu
  have h2 := hmleast n hnm t ht
  exact UInt32.lt_asymm h1 h2

end Steps

/-! ## Exclusion -/

/-- **Exclusion, access by access.**  In every run in which each store to `now_serving` serves
at most one outstanding ticket, no two nodes are inside the critical section. -/
theorem faa_exclusive_of_servesOne (size : SystemSize) (l : LockId) (s : State)
    (hs : (machine size l).system.ReachableWhen (ServesOne size) s) : Exclusive s := by
  have hinv : Inv size l s := by
    refine Machine.invariant (fun _ => Inv.init) (fun s n c r h _ hr => ?_)
      (fun s q h hok hq => ?_) hs
    · simp only [machine] at hr
      split_ifs at hr with hn
      exact h.node hn hr
    · obtain rfl := Option.some.inj hq
      exact h.manager hok
  exact hinv.exclusive

/-- The state of `size` right after `initialize` of a zeroed region. -/
def startState (size : SystemSize) (l : LockId) : State :=
  (machine size l).initial
    (initializeShm size.nodeCount ⟨fun _ => ⟨0, 0, 0⟩, fun _ => ⟨0, 0⟩⟩).2

lemma startState_init (size : SystemSize) {l : LockId} (hl : l < size.maxLocks) :
    (machine size l).system.init (startState size l) :=
  Machine.initial_init ⟨hl, _, rfl⟩

/-- Node 0 is granted the lock, enters and releases; then node 1 is granted and enters. -/
theorem faa_exclusive_after_grants : ∃ s : State, Exclusive s ∧ s.pc 1 = .critical := by
  obtain ⟨s, hs, hp⟩ := LabelledSystem.exists_of_exec (ServesOne (.of 2 1))
    (turns 0 3 ++ managerTurns 7 ++ turns 0 3 ++ turns 1 3 ++ turns 0 3 ++
      managerTurns 7 ++ turns 1 3)
    (fun s => s.pc 1 == .critical) (startState_init (.of 2 1) (l := 0) (by decide))
    (by decide +kernel)
  exact ⟨s, faa_exclusive_of_servesOne (.of 2 1) 0 s hs, beq_iff_eq.1 hp⟩

/-- Without the condition two nodes can be inside.  Node 0 has drawn ticket 0 and not yet
published it when the manager serves ticket 1; node 1 enters, and then node 0 publishes
ticket 0, which is at most `now_serving`, and enters as well. -/
theorem late_ticket_enters : ¬ ∀ (size : SystemSize) (l : LockId) (s : State),
    (machine size l).system.Reachable s → Exclusive s := by
  intro h
  obtain ⟨s, hs, hp⟩ := LabelledSystem.exists_of_exec (fun _ _ => True)
    (turns 0 1 ++ turns 1 3 ++ managerTurns 7 ++ turns 1 3 ++ turns 0 5)
    (fun s => s.pc 0 == .critical && s.pc 1 == .critical)
    (startState_init (.of 2 1) (l := 0) (by decide)) (by decide +kernel)
  simp only [Bool.and_eq_true, beq_iff_eq] at hp
  exact absurd (h (.of 2 1) 0 s hs 0 1 hp.1 hp.2) (by decide)

end CxlLock.Faa
