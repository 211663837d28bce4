import WrapperGen.Output.Unit
/-!
# Units in memory
-/

namespace WrapperGen

open Files

structure StoredUnit where
  source : String
  origin : FilePath
deriving DecidableEq, Repr

/-- Units by path. The unit named `failOn` cannot be written. -/
structure MemoryOutput where
  units : List (FilePath × StoredUnit)
  failOn : Option String
  writes : Nat

namespace MemoryOutput

def empty (failOn : Option String) : MemoryOutput := ⟨[], failOn, 0⟩

def source? (m : MemoryOutput) (package unit : String) : Option String :=
  (findByPath (unitPath package unit) m.units).map (·.source)

def store (m : MemoryOutput) (path : FilePath) (u : UnitText) : MemoryOutput :=
  { m with units := insertByPath path ⟨u.source, u.origin⟩ m.units, writes := m.writes + 1 }

/-- Stores a unit unless it is there with the same source. -/
def write (m : MemoryOutput) (u : UnitText) : MemoryOutput × Except Failure WriteOutcome :=
  if m.failOn = some u.unit then (m, .error (.writeFailed u.unit (.custom "write refused")))
  else
    let path := unitPath u.package u.unit
    if (findByPath path m.units).any (·.source = u.source) then (m, .ok (.upToDate path))
    else (m.store path u, .ok (.written path))

end MemoryOutput

end WrapperGen
