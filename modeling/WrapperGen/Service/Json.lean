import WrapperGen.Service.Process
import WrapperGen.Text.Json
/-!
# Reports as JSON
-/

namespace WrapperGen

open Text

def Parameter.json (p : Parameter) : Json :=
  .object [("name", .text p.name), ("type", .text p.ty.render)]

def Operation.json (o : Operation) : Json :=
  .object [("name", .text o.name), ("parameters", .array (o.parameters.map (·.json))),
    ("result_shape", .text o.shape.key), ("payload_type", .text o.payload.render),
    ("is_deferred", .bool o.isDeferred)]

def Interface.json (i : Interface) : Json :=
  .object [("qualified_name", .text i.qualifiedName), ("package_name", .text i.packageName),
    ("simple_name", .text i.simpleName), ("visibility", .text i.visibility.render),
    ("origin", .text i.origin.text), ("operations", .array (i.operations.map (·.json)))]

def Omission.json (o : Omission) : Json :=
  .object [("name", .text o.name), ("reason", .text o.reason)]

def ScanReport.json (r : ScanReport) : Json :=
  .object [("interfaces", .array (r.interfaces.map (·.json))),
    ("deferred", .array (r.deferred.map (·.json))),
    ("aborted", .array (r.aborted.map (·.json)))]

def GeneratedRecord.json (r : GeneratedRecord) : Json :=
  .object [("qualified_name", .text r.qualifiedName), ("unit_name", .text r.unitName),
    ("path", .text r.path.text), ("written", .bool r.written)]

/-- A service that was not generated and its unknown types. -/
def deferredJson (d : String × List String) : Json := .array [.text d.1, .texts d.2]

def BuildReport.json (r : BuildReport) : Json :=
  .object [("rounds", .number r.rounds), ("generated", .array (r.generated.map (·.json))),
    ("deferred", .array (r.deferred.map deferredJson)), ("aborted", .texts r.aborted),
    ("write_failures", .texts r.writeFailures), ("parse_failures", .texts r.parseFailures)]

end WrapperGen
