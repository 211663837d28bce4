/-!
# What was processed

The names of the services that were taken up, each of which is taken up only once.
-/

namespace WrapperGen

structure Tracker where
  processed : List String

namespace Tracker

def empty : Tracker := ⟨[]⟩

instance : Inhabited Tracker := ⟨empty⟩

def isProcessed (t : Tracker) (name : String) : Bool := t.processed.contains name

/-- Takes up a name; false if it was taken up before. -/
def takeUp (t : Tracker) (name : String) : Tracker × Bool :=
  if t.isProcessed name then (t, false) else (⟨name :: t.processed⟩, true)

def size (t : Tracker) : Nat := t.processed.length

end Tracker

end WrapperGen
