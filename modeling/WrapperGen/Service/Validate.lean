import WrapperGen.Service.Classify
/-!
# Waiting for types

A service whose types are not all known yet has to wait for a later round.
-/

namespace WrapperGen

open Source

namespace Source.Signature

/-- The types of the parameters and of the result. -/
def types (s : Signature) : List Ty := s.typedInputs.map (·.2) ++ s.output.toList

end Source.Signature

/-- The type names in the operations of a service that resolve to nothing. -/
def unresolvedIn (c : Config) (r : Resolver) (d : Declared) : List String :=
  let scope := Scope.withGenerics ⟨d.packageName, []⟩ d.item.generics
  (qualifyingMethods c d.item).foldl (fun known m =>
    let inner := scope.withGenerics m.signature.generics
    m.signature.types.foldl (fun known ty => Resolver.addNew known (r.unresolvedNames inner ty))
      known) []

end WrapperGen
