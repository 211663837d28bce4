import WrapperGen.Proofs.Rounds.Reports
import WrapperGen.Proofs.Types.Operations
import WrapperGen.Proofs.Types.Unresolved
/-!
# Types in wrappers

The types of a described service are known where its wrappers are (`described_types_known`).
Validation looks at the types of the methods in scopes with the parameters of the trait and of the
method. A service that is described has neither, and extracting a payload brings no new paths in.
-/

namespace WrapperGen

open Source

/-! ## The types of a service -/

namespace Operation

/-- The types that the wrappers of an operation name. -/
def types (o : Operation) : List Ty := o.payload :: o.parameters.map (·.ty)

/-- They hold no other paths than the types of the method. -/
theorem paths_of_method {c : Config} {r : Resolver} {s : Scope} {m : Method} {o : Operation}
    (h : classifyOperation c r s m = .ok o) :
    ∀ t ∈ o.types, ∃ ty ∈ m.signature.types, t.paths ⊆ ty.paths := by
  obtain ⟨-, hparameters, ty, hty, hpayload⟩ := classifyOperation_ok h
  intro t ht
  rcases List.mem_cons.1 ht with rfl | ht
  · refine ⟨ty, hty, ?_⟩
    rcases List.mem_cons.1 hpayload with hsame | hargument
    · rw [hsame]
      exact List.Subset.refl _
    · exact applied_paths _ hargument
  · obtain ⟨p, hp, rfl⟩ := List.mem_map.1 ht
    exact ⟨p.ty, hparameters p hp, List.Subset.refl _⟩

end Operation

theorem Scope.withGenerics_of_none {s : Scope} {g : Generics} (hg : g.params = []) :
    s.withGenerics g = s := by
  simp [Scope.withGenerics, Generics.typeNames, hg]

/-- **Wrappers name known types only.** For every universe, all settings and every trait: if
validation finds no unknown type in the trait and the trait is described, then all types of the
described operations, those of the parameters and those of the payloads, are known to the same
resolver in the module of the service, where no type parameters can be named. -/
theorem described_types_known (u : Universe) (c : Config) (d : Declared) (i : Interface)
    (hvalid : unresolvedIn c (.ofUniverse u) d = [])
    (hi : classifyInterface c (.ofUniverse u) d = .ok i) :
    i.packageName = d.packageName ∧ ∀ o ∈ i.operations, ∀ t ∈ o.types,
      (Resolver.ofUniverse u).unresolvedNames ⟨i.packageName, []⟩ t = [] := by
  obtain ⟨-, hpackage, -⟩ := classifyInterface_ok hi
  refine ⟨hpackage, fun o ho t ht => ?_⟩
  obtain ⟨htrait, hoperations⟩ := classifyInterface_operations hi
  obtain ⟨m, hm, hmo⟩ := hoperations o ho
  have hscope : d.methodScope m = ⟨i.packageName, []⟩ := by
    rw [Declared.methodScope, Scope.withGenerics_of_none htrait,
      Scope.withGenerics_of_none (classifyOperation_ok hmo).1, hpackage]
  obtain ⟨ty, hty, hpaths⟩ := Operation.paths_of_method hmo t ht
  refine List.eq_nil_iff_forall_not_mem.2 fun n hn => ?_
  obtain ⟨p, hp, hunknown⟩ := Resolver.mem_unresolvedNames.1 hn
  have hmem : n ∈ unresolvedIn c (.ofUniverse u) d :=
    mem_unresolvedIn.2 ⟨m, hm, ty, hty,
      Resolver.mem_unresolvedNames.2 ⟨p, hpaths hp, by rw [hscope]; exact hunknown⟩⟩
  rw [hvalid] at hmem
  exact absurd hmem List.not_mem_nil

/-- A file with one service, whose operation hands out a call. -/
def itemService : Universe :=
  let get : Source.Member := .method {
    attrs := []
    vis := .inherited
    signature := {
      constant := false
      asynchronous := false
      unchecked := false
      abi := none
      name := "get"
      generics := .none
      inputs := [.receiver [] ⟨some none, false, none⟩, .typed [] (.word "key") (.named "u8")]
      trailing := false
      variadic := []
      output := some (.path ⟨false, [⟨"Call", .angle false [.type (.named "Item")] false⟩]⟩) }
    body := none }
  let content := [.use (.path "svcwrap" (.name "Call")), .declaration .struct "Item",
    .trait (markedTrait "Api" ["Send", "Sync"] [get])]
  ⟨[⟨⟨"api.rs"⟩, modulePath ⟨"api.rs"⟩, ⟨content⟩⟩], []⟩

theorem item_service_known :
    ∃ d ∈ scan itemService Config.default.marker,
      unresolvedIn .default (.ofUniverse itemService) d = [] ∧
      ∃ i, classifyInterface .default (.ofUniverse itemService) d = .ok i ∧
        i.operations.flatMap (fun o => o.shape.label :: o.types.map Ty.render) =
          ["async-call", "Item", "u8"] ∧
        i.packageName = d.packageName ∧ ∀ o ∈ i.operations, ∀ t ∈ o.types,
          (Resolver.ofUniverse itemService).unresolvedNames ⟨i.packageName, []⟩ t = [] := by
  have hread : ((scan itemService Config.default.marker).map fun d =>
      (unresolvedIn .default (.ofUniverse itemService) d,
        (classifyInterface .default (.ofUniverse itemService) d).toOption.map fun i =>
          i.operations.flatMap fun o => o.shape.label :: o.types.map Ty.render)) =
      [([], some ["async-call", "Item", "u8"])] := by decide +kernel
  obtain ⟨d, ds, hscan, hfound, -⟩ := List.map_eq_cons_iff.1 hread
  obtain ⟨hvalid, hdescribed⟩ := Prod.mk.inj hfound
  obtain ⟨i, hi, hoperations⟩ := Option.map_eq_some_iff.1 hdescribed
  rw [toOption_eq_some] at hi
  exact ⟨d, by simp [hscan], hvalid, i, hi, hoperations,
    described_types_known itemService .default d i hvalid hi⟩

end WrapperGen
