import LayerStack.Tensor

/-!
# LayerStack.Memory

The memory that live owners hold.

The tracker knows owners by their identity, and what each of them holds since it was last tracked.  Tracking an owner
also leaves a finalizer behind, which forgets whatever its identity holds once the owner is collected.  Identities may
be used again after that: by then all finalizers of the old owner have run, so a new owner is never forgotten by them.
-/

namespace LayerStack

/-- What distinguishes an owner from all others that are alive with it. -/
abbrev Identity := Nat

/-- How many tensors are held, and their bytes. -/
structure MemoryInfo where
  tensors : Nat
  bytes : Nat
deriving Repr, DecidableEq

namespace MemoryInfo

/-- The bytes of one entry of a tensor. -/
def entryBytes : Nat := 8

/-- The megabytes, as the nearest double. -/
def megabytes (i : MemoryInfo) : Binary64 := Binary64.ofFraction i.bytes (1024 * 1024)

end MemoryInfo

/-- The tensors that owners hold. -/
structure MemoryTracker where
  /-- The axes of the tensors of each tracked owner. -/
  held : List (Identity × List Dims) := []
  /-- The identities to forget when their owners are collected, one for each time an owner was tracked. -/
  finalizers : List Identity := []
deriving Repr

namespace MemoryTracker

/-- Without what an identity holds. -/
def forget (m : MemoryTracker) (owner : Identity) : MemoryTracker :=
  { m with held := m.held.filter (·.1 != owner) }

/-- Holds tensors for an owner in place of those it held before.  Tensors that are not there do not count. -/
def track (m : MemoryTracker) (owner : Identity) (tensors : List (Option Dims)) : MemoryTracker :=
  { held := (m.forget owner).held ++ [(owner, tensors.filterMap id)], finalizers := owner :: m.finalizers }

/-- What an owner holds. -/
def heldBy (m : MemoryTracker) (owner : Identity) : List Dims := (m.held.lookup owner).getD []

/-- Forgets what an owner holds, and says how many tensors that was. -/
def release (m : MemoryTracker) (owner : Identity) : Nat × MemoryTracker :=
  ((m.heldBy owner).length, m.forget owner)

def isTracked (m : MemoryTracker) (owner : Identity) : Bool := m.held.any (·.1 == owner)

theorem isTracked_track (m : MemoryTracker) (owner : Identity) (tensors : List (Option Dims)) :
    (m.track owner tensors).isTracked owner := by
  simp [isTracked, track]

theorem not_isTracked_forget (m : MemoryTracker) (owner : Identity) : ¬ (m.forget owner).isTracked owner := by
  simp [isTracked, forget]

/-- Runs the finalizers of an owner that nothing refers to any more. -/
def collect (m : MemoryTracker) (owner : Identity) : MemoryTracker :=
  let after := m.finalizers.foldl (fun m id => if id = owner then m.forget id else m) m
  { after with finalizers := m.finalizers.filter (· != owner) }

/-- All tensors that are held. -/
def tensors (m : MemoryTracker) : List Dims := m.held.flatMap (·.2)

def info (m : MemoryTracker) : MemoryInfo where
  tensors := m.tensors.length
  bytes := m.tensors.foldr (fun dims bytes => MemoryInfo.entryBytes * Dims.volume dims + bytes) 0

end MemoryTracker

end LayerStack
