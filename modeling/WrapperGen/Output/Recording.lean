import WrapperGen.Output.Memory
import WrapperGen.Service.Process
/-!
# Generation in memory

A host that keeps the units and the log.
-/

namespace WrapperGen

structure Recording where
  output : MemoryOutput
  entries : List Entry

namespace Recording

def start (failOn : Option String) : Recording := ⟨.empty failOn, []⟩

def host : Host Recording where
  write u s :=
    let (output, result) := s.output.write u
    ({ s with output := output }, result)
  log e s := { s with entries := s.entries ++ [e] }

end Recording

end WrapperGen
