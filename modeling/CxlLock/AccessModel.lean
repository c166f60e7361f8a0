import CxlLock.DistributedLock
import CxlLock.Cas.Accesses
import CxlLock.Faa.Accesses
import CxlLock.Mcs.Accesses
import CxlLock.Qspinlock.Accesses

/-!
# The four algorithms by their accesses

One record with what the results about caches need of an algorithm: its words and their lines,
the accesses of each call of the plugin interface, and those of one iteration of
`TwoTierLock::poll_for_grant`, which only loads.
-/

namespace CxlLock

open AccessProgram

/-- An algorithm by its accesses, in a system of `nodeCount` nodes with the records at
`stateOffset`.  `fuel` bounds the loops that have no bound in the source. -/
structure AccessModel where
  Word : Type
  [decidableEq : DecidableEq Word]
  lines (stateOffset : ShmOffset) : Lines Word Nat
  program (stateOffset : ShmOffset) (nodeCount : UInt32) (fuel : Nat) (op : Operation) :
    Prog Word UInt32 Answer
  /-- One iteration of `poll_for_grant`. -/
  poll (stateOffset : ShmOffset) (nodeCount : UInt32) (nodeId : NodeId) (lockId : LockId) :
    Prog Word UInt32 Bool
  /-- The words that the iteration reads. -/
  pollReads (stateOffset : ShmOffset) (nodeCount : UInt32) (nodeId : NodeId) (lockId : LockId) :
    List Word
  /-- The test of the iteration on a memory. -/
  granted (stateOffset : ShmOffset) (nodeCount : UInt32) (nodeId : NodeId) (lockId : LockId)
    (m : Word → UInt32) : Bool
  poll_loads : ∀ stateOffset nodeCount n l, (poll stateOffset nodeCount n l).Every fun t _ =>
    ∀ e ∈ t, ∃ x ∈ pollReads stateOffset nodeCount n l, ∃ v, e = .load x v
  poll_outcome : ∀ stateOffset nodeCount n l m, (poll stateOffset nodeCount n l).outcome m =
    some (granted stateOffset nodeCount n l m, m)

attribute [instance] AccessModel.decidableEq

namespace LockAlgorithm

/-- The four algorithms by their accesses. -/
def accesses : LockAlgorithm → AccessModel
  | .cas =>
      { Word := ShmOffset
        lines := fun _ => Cas.lines
        program := fun stateOffset nodeCount _ => Cas.Accesses.program stateOffset nodeCount
        poll := Cas.Accesses.pollForGrant
        pollReads := Cas.Accesses.pollReads
        granted := Cas.pollGranted
        poll_loads := Cas.Accesses.pollForGrant_loads
        poll_outcome := Cas.Accesses.pollForGrant_outcome }
  | .faa =>
      { Word := Faa.Word
        lines := Faa.lines
        program := fun _ _ _ => Faa.Accesses.program
        poll := fun _ _ => Faa.Accesses.pollForGrant
        pollReads := fun _ _ => Faa.Accesses.pollReads
        granted := fun _ _ => Faa.Accesses.granted
        poll_loads := fun _ _ => Faa.Accesses.pollForGrant_loads
        poll_outcome := fun _ _ => Faa.Accesses.pollForGrant_outcome }
  | .mcs =>
      { Word := Mcs.Word
        lines := Mcs.lines
        program := fun _ => Mcs.Accesses.program
        poll := fun _ _ => Mcs.Accesses.pollForGrant
        pollReads := fun _ _ n _ => Mcs.Accesses.pollReads n
        granted := fun _ _ => Mcs.Accesses.granted
        poll_loads := fun _ _ => Mcs.Accesses.pollForGrant_loads
        poll_outcome := fun _ _ => Mcs.Accesses.pollForGrant_outcome }
  | .qspinlock =>
      { Word := Qspinlock.Word
        lines := Qspinlock.lines
        program := fun _ => Qspinlock.Accesses.program
        poll := fun _ _ => Qspinlock.Accesses.pollForGrant
        pollReads := fun _ _ n _ => Qspinlock.Accesses.pollReads n
        granted := fun _ _ => Qspinlock.Accesses.granted
        poll_loads := fun _ _ => Qspinlock.Accesses.pollForGrant_loads
        poll_outcome := fun _ _ => Qspinlock.Accesses.pollForGrant_outcome }

end LockAlgorithm

end CxlLock
