import CxlLock.Lib.Transition

/-!
# Parties and a manager interleaved over one shared memory

A `Machine` is a sequential program for each of a family of parties and one for a manager.
All of them act on one memory; a program is given by what it does at each program counter,
one access to the memory at a time.  Local variables of the program live in its program
counter.  An event of the resulting system names the party that moves next, so a run is an
arbitrary interleaving of single accesses, and the memory is sequentially consistent.

A program may depend on outcomes it cannot compute, such as a clock or the choice of the next
call; they come with the event as its `κ`.
-/

namespace Transition

universe u

/-- The memory and all program counters. -/
structure Config (ι M P Q : Type u) where
  mem : M
  /-- Program counter of each party. -/
  pc : ι → P
  /-- Program counter of the manager. -/
  mgr : Q

/-- Who moves next. -/
inductive Turn (ι κ : Type u)
  | party (i : ι) (c : κ)
  | manager
  deriving DecidableEq

/-- The same party moves `k` times in a row. -/
def turns {ι : Type u} (i : ι) (k : Nat) : List (Turn ι PUnit) :=
  List.replicate k (.party i .unit)

/-- The manager moves `k` times in a row. -/
def managerTurns {ι κ : Type u} (k : Nat) : List (Turn ι κ) := List.replicate k .manager

/-- The programs of the parties and of the manager. -/
structure Machine (ι κ M P Q : Type u) where
  /-- The memories a run may start with. -/
  start : M → Prop
  /-- Where every party starts. -/
  idle : P
  /-- Where the manager starts. -/
  managerIdle : Q
  /-- One access of a party. -/
  party : ι → κ → M → P → Option (M × P)
  /-- One access of the manager. -/
  manager : M → Q → Option (M × Q)

section Config

variable {ι M P Q : Type u}

/-- A party has moved to `p` and left the memory `mem`. -/
def Config.move [DecidableEq ι] (s : Config ι M P Q) (i : ι) (r : M × P) : Config ι M P Q :=
  { s with mem := r.1, pc := Function.update s.pc i r.2 }

/-- The manager has moved to `q` and left the memory `mem`. -/
def Config.manage (s : Config ι M P Q) (r : M × Q) : Config ι M P Q :=
  { s with mem := r.1, mgr := r.2 }

variable (s : Config ι M P Q) (i k : ι) (r : M × P) (q : M × Q)

@[simp] lemma Config.move_mem [DecidableEq ι] : (s.move i r).mem = r.1 := rfl

@[simp] lemma Config.move_pc [DecidableEq ι] :
    (s.move i r).pc k = if k = i then r.2 else s.pc k := by
  simp [Config.move, Function.update_apply]

@[simp] lemma Config.move_mgr [DecidableEq ι] : (s.move i r).mgr = s.mgr := rfl

@[simp] lemma Config.manage_mem : (s.manage q).mem = q.1 := rfl

@[simp] lemma Config.manage_pc : (s.manage q).pc = s.pc := rfl

@[simp] lemma Config.manage_mgr : (s.manage q).mgr = q.2 := rfl

/-- A party that is at a place where the one that has moved is not: it is another one, and was
there before. -/
lemma Config.of_move_pc [DecidableEq ι] {s : Config ι M P Q} {i k : ι} {r : M × P} (p : P → Prop)
    (hp : ¬ p r.2) (hk : p ((s.move i r).pc k)) : k ≠ i ∧ p (s.pc k) := by
  by_cases hki : k = i
  · exact absurd (by simpa [hki] using hk) hp
  · exact ⟨hki, by simpa [hki] using hk⟩

end Config

namespace Machine

variable {ι κ M P Q : Type u} [DecidableEq ι] (m : Machine ι κ M P Q)

/-- The system of all interleavings. -/
def system : LabelledSystem (Config ι M P Q) (Turn ι κ) where
  init s := m.start s.mem ∧ (∀ i, s.pc i = m.idle) ∧ s.mgr = m.managerIdle
  next s
    | .party i c => (m.party i c s.mem (s.pc i)).map (s.move i)
    | .manager => (m.manager s.mem s.mgr).map s.manage

/-- The state in which nobody has done anything yet. -/
def initial (mem : M) : Config ι M P Q := ⟨mem, fun _ => m.idle, m.managerIdle⟩

variable {m}

lemma initial_init {mem : M} (h : m.start mem) : m.system.init (m.initial mem) :=
  ⟨h, fun _ => rfl, rfl⟩

/-- **The invariant rule for interleavings**: what holds at the start and is kept by each
access of a party and each access of the manager holds in every reached state. -/
theorem invariant {ok : Config ι M P Q → Turn ι κ → Prop} {I : Config ι M P Q → Prop}
    (hinit : ∀ s, m.system.init s → I s)
    (hparty : ∀ s i c r, I s → ok s (.party i c) → m.party i c s.mem (s.pc i) = some r →
      I (s.move i r))
    (hmanager : ∀ s q, I s → ok s .manager → m.manager s.mem s.mgr = some q → I (s.manage q))
    {s : Config ι M P Q} (hs : m.system.ReachableWhen ok s) : I s := by
  refine hs.invariant hinit fun s e s' h hok hnext => ?_
  cases e with
  | party i c =>
      obtain ⟨r, hr, rfl⟩ := Option.map_eq_some_iff.1 hnext
      exact hparty s i c r h hok hr
  | manager =>
      obtain ⟨q, hq, rfl⟩ := Option.map_eq_some_iff.1 hnext
      exact hmanager s q h hok hq

/-! ## Programs that always have a next access -/

/-- Every party that takes part can move at each place, and so can the manager: `node` and `mgr`
are what they do there. -/
structure NeverBlocks (m : Machine ι κ M P Q) (part : ι → Prop) (node : ι → M → P → M × P)
    (mgr : M → Q → M × Q) : Prop where
  party : ∀ {i c mem p r}, m.party i c mem p = some r → part i ∧ r = node i mem p
  manager : ∀ mem q, m.manager mem q = some (mgr mem q)

namespace NeverBlocks

variable {part : ι → Prop} {node : ι → M → P → M × P} {mgr : M → Q → M × Q}
  {s s' : Config ι M P Q} {i : ι} {c : κ}

lemma next_party (h : m.NeverBlocks part node mgr)
    (hnext : m.system.next s (.party i c) = some s') :
    part i ∧ s' = s.move i (node i s.mem (s.pc i)) := by
  obtain ⟨r, hr, rfl⟩ := Option.map_eq_some_iff.1 hnext
  obtain ⟨hi, rfl⟩ := h.party hr
  exact ⟨hi, rfl⟩

lemma next_manager (h : m.NeverBlocks part node mgr)
    (hnext : m.system.next s .manager = some s') : s' = s.manage (mgr s.mem s.mgr) := by
  obtain ⟨q, hq, rfl⟩ := Option.map_eq_some_iff.1 hnext
  obtain rfl := Option.some.inj ((h.manager s.mem s.mgr).symm.trans hq)
  rfl

/-- The invariant rule, with the one thing each program can do. -/
theorem invariant (h : m.NeverBlocks part node mgr)
    {ok : Config ι M P Q → Turn ι κ → Prop} {I : Config ι M P Q → Prop}
    (hinit : ∀ s, m.system.init s → I s)
    (hparty : ∀ s i c, I s → ok s (.party i c) → part i →
      I (s.move i (node i s.mem (s.pc i))))
    (hmanager : ∀ s, I s → ok s .manager → I (s.manage (mgr s.mem s.mgr)))
    {s : Config ι M P Q} (hs : m.system.ReachableWhen ok s) : I s := by
  refine hs.invariant hinit fun s e s' hI hok hnext => ?_
  cases e with
  | party i c =>
      obtain ⟨hi, rfl⟩ := h.next_party hnext
      exact hparty s i c hI hok hi
  | manager =>
      obtain rfl := h.next_manager hnext
      exact hmanager s hI hok

end NeverBlocks

end Machine

end Transition
