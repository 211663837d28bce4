import WrapperGen.Service.Validate
/-!
# Reports of a scan

What would be generated from a universe, without generating it.
-/

namespace WrapperGen

/-- A service that was left out and why. -/
structure Omission where
  name : String
  reason : String
deriving DecidableEq, Repr

structure ScanReport where
  interfaces : List Interface
  deferred : List Omission
  aborted : List Omission

def unresolvedText (names : List String) : String := "unresolved " ++ ", ".intercalate names

/-- Puts one declared service at the end of the list it belongs to. -/
def ScanReport.add (c : Config) (r : Resolver) (report : ScanReport) (d : Declared) : ScanReport :=
  match unresolvedIn c r d with
  | [] =>
    match classifyInterface c r d with
    | .ok i => { report with interfaces := report.interfaces ++ [i] }
    | .error e =>
      { report with aborted := report.aborted ++ [⟨d.qualifiedName, e.message⟩] }
  | names =>
    { report with deferred := report.deferred ++ [⟨d.qualifiedName, unresolvedText names⟩] }

/-- Classifies every marked trait. -/
def scanReport (c : Config) (u : Universe) : ScanReport :=
  (scan u c.marker).foldl (ScanReport.add c (.ofUniverse u)) ⟨[], [], []⟩

end WrapperGen
