import Mathlib.Data.List.Forall2
import WrapperGen.Service.Validate
/-!
# The types of operations

An operation has the types of its method, except that its payload may be an argument of the return
type (`classifyOperation_ok`).
-/

namespace WrapperGen

open Source

/-! ## Arguments of types -/

theorem argumentTypes_paths {a : Args} : ∀ t ∈ Ty.argumentTypes a, t.paths ⊆ a.paths := by
  cases a with
  | angle _ as _ =>
    intro t ht
    rw [Ty.argumentTypes] at ht
    rw [Args.paths]
    induction as with
    | nil => exact absurd ht List.not_mem_nil
    | cons a as ih =>
      rw [genericArgsPaths]
      cases a with
      | type t' =>
        rcases List.mem_cons.1 ht with rfl | ht
        · exact List.subset_append_of_subset_left _ fun p hp => by rwa [GenericArg.paths]
        · exact List.subset_append_of_subset_right _ (ih ht)
      | _ => exact List.subset_append_of_subset_right _ (ih ht)
  | _ => exact fun t ht => absurd ht List.not_mem_nil

theorem segment_paths {ss : List Segment} {s : Segment} (hs : s ∈ ss) :
    s.args.paths ⊆ segmentsPaths ss := by
  induction ss with
  | nil => exact absurd hs List.not_mem_nil
  | cons s' ss ih =>
    rw [segmentsPaths]
    rcases List.mem_cons.1 hs with rfl | hs
    · cases s
      exact List.subset_append_left _ _
    · exact List.subset_append_of_subset_right _ (ih hs)

/-- The types that a type applies its last name to. -/
def Source.Ty.applied : Ty → List Ty
  | .paren e => e.applied
  | .path p => (p.segments.getLast?.map fun l => argumentTypes l.args).getD []
  | _ => []

/-- What a type is applied to is looked at wherever the type is. -/
theorem applied_paths {t : Ty} : ∀ a ∈ t.applied, a.paths ⊆ t.paths := by
  fun_induction Ty.applied t with
  | case1 e ih => simpa [Ty.paths] using ih
  | case2 p =>
    obtain ⟨leading, segments⟩ := p
    intro a ha
    cases hlast : segments.getLast? with
    | none => simp [hlast] at ha
    | some last =>
      rw [hlast] at ha
      rw [Ty.paths, Path.argPaths]
      exact List.subset_cons_of_subset _ <|
        List.Subset.trans (argumentTypes_paths a ha) (segment_paths (List.mem_of_getLast? hlast))
  | case3 => exact fun a ha => absurd ha List.not_mem_nil

namespace Resolver

variable {r : Resolver} {arguments : List Ty}

/-- What a name refers to has the arguments that the name has, or none. -/
def KeepsArguments (arguments : List Ty) (x : Resolution) : Prop :=
  x.arguments = arguments ∨ x.arguments = []

theorem resolveInternal_arguments (path : String) :
    KeepsArguments arguments (r.resolveInternal path arguments) := by
  unfold resolveInternal
  split
  · exact .inl rfl
  · split
    · split
      · exact .inl rfl
      · exact .inr rfl
    · exact .inr rfl

theorem resolvePath_arguments (path : String) :
    KeepsArguments arguments (r.resolvePath path arguments) := by
  unfold resolvePath
  split
  · exact resolveInternal_arguments path
  · exact .inl rfl

theorem resolveGlobs_arguments (name : String) (globs : List String) :
    KeepsArguments arguments (r.resolveGlobs name arguments globs) := by
  induction globs with
  | nil => exact .inr rfl
  | cons glob globs ih =>
    rw [resolveGlobs]
    split
    · exact .inl rfl
    · exact ih

theorem resolveName_arguments (s : Scope) (name : String) :
    KeepsArguments arguments (r.resolveName s name arguments) := by
  unfold resolveName
  dsimp only
  repeat' split
  · exact .inr rfl
  · exact resolvePath_arguments _
  · exact .inl rfl
  · exact .inl rfl
  · exact .inl rfl
  · exact resolveGlobs_arguments name _

theorem resolveTypePath_arguments (s : Scope) (p : Path) :
    KeepsArguments (Ty.path p).applied (r.resolveTypePath s p) := by
  unfold resolveTypePath
  rw [Ty.applied]
  dsimp only
  split
  · exact .inl rfl
  · split
    · exact resolveName_arguments s _
    · split
      · exact .inr rfl
      · exact resolvePath_arguments _

/-- Whatever a type refers to, it has no other arguments than those it is written with. -/
theorem resolve_arguments (s : Scope) (t : Ty) :
    ∀ a ∈ (r.resolve s t).arguments, a ∈ t.applied := by
  fun_induction Resolver.resolve r s t with
  | case1 e ih => exact ih
  | case2 p =>
    intro a ha
    rcases resolveTypePath_arguments (r := r) s p with hall | hnone
    · rwa [hall] at ha
    · rw [hnone] at ha
      exact absurd ha List.not_mem_nil
  | case3 => exact fun a ha => absurd ha List.not_mem_nil

end Resolver

/-! ## Operations -/

theorem single_mem (ty : Ty) (ts : List Ty) :
    (match ts with
      | [single] => single
      | _ => ty) ∈ ty :: ts := by
  split <;> simp

theorem classifyReturn_payload (c : Config) (r : Resolver) (s : Scope) (isAsync : Bool) (ty : Ty) :
    (classifyReturn c r s isAsync ty).2 ∈ ty :: ty.applied := by
  have hself : ty ∈ ty :: ty.applied := .head _
  unfold classifyReturn
  split
  · exact hself
  · split
    · rename_i path arguments hresolve
      have harguments : ∀ a ∈ arguments, a ∈ ty.applied := by
        simpa [hresolve, Resolution.arguments] using r.resolve_arguments s ty
      have hpayload := List.cons_subset_cons ty harguments (single_mem ty arguments)
      dsimp only
      split
      · exact hpayload
      · split
        · exact hpayload
        · exact hself
    · exact hself

theorem bind_ok {ε α β : Type} {x : Except ε α} {f : α → Except ε β} {b : β}
    (h : x >>= f = .ok b) : ∃ a, x = .ok a ∧ f a = .ok b := by
  cases x with
  | error e => cases h
  | ok a => exact ⟨a, rfl, h⟩

theorem mapM_forall₂ {ε α β : Type} {f : α → Except ε β} {xs : List α} {ys : List β}
    (h : xs.mapM f = .ok ys) : List.Forall₂ (fun x y => f x = .ok y) xs ys := by
  induction xs generalizing ys with
  | nil =>
    cases h
    exact .nil
  | cons x xs ih =>
    rw [List.mapM_cons] at h
    obtain ⟨y, hx, h⟩ := bind_ok h
    obtain ⟨ys', hxs, h⟩ := bind_ok h
    cases h
    exact .cons hx (ih hxs)

theorem forall₂_mem_right {α β : Type} {R : α → β → Prop} {xs : List α} {ys : List β}
    (h : List.Forall₂ R xs ys) : ∀ y ∈ ys, ∃ x ∈ xs, R x y := by
  induction h with
  | nil => exact fun y hy => absurd hy List.not_mem_nil
  | cons hxy _ ih =>
    rintro y (_ | ⟨_, hy⟩)
    · exact ⟨_, .head _, hxy⟩
    · obtain ⟨x, hx, hxy⟩ := ih y hy
      exact ⟨x, .tail _ hx, hxy⟩

theorem collectParameter_ok {method : String} {isAsync : Bool} {index : Nat} {pattern : Node}
    {ty : Ty} {p : Parameter} (h : collectParameter method isAsync index pattern ty = .ok p) :
    p.ty = ty := by
  unfold collectParameter at h
  dsimp only at h
  split at h
  · cases h
  · split at h
    · cases h
    · split at h
      · cases h
      · cases h
        rfl

/-- What is described of a method: it has no parameters of its own, the operation has the types of
its parameters, and its payload is the return type or an argument of it. -/
theorem classifyOperation_ok {c : Config} {r : Resolver} {s : Scope} {m : Method} {o : Operation}
    (h : classifyOperation c r s m = .ok o) : m.signature.generics.params = [] ∧
      (∀ p ∈ o.parameters, p.ty ∈ m.signature.types) ∧
      ∃ ty ∈ m.signature.types, o.payload ∈ ty :: ty.applied := by
  unfold classifyOperation at h
  dsimp only at h
  split at h
  · cases h
  · rename_i hgenerics
    split at h
    · cases h
    · split at h
      · cases h
      · rename_i ty hty
        split at h
        · cases h
        · obtain ⟨parameters, hparameters, h⟩ := bind_ok h
          cases h
          refine ⟨by simpa using hgenerics, fun p hp => ?_, ty, ?_,
            classifyReturn_payload c r s m.signature.asynchronous ty⟩
          · obtain ⟨⟨⟨pattern, ty'⟩, index⟩, hmem, hp⟩ :=
              forall₂_mem_right (mapM_forall₂ hparameters) p hp
            rw [collectParameter_ok hp]
            have hinput := List.fst_mem_of_mem_zipIdx hmem
            exact List.mem_append_left _ (List.mem_map.2 ⟨_, hinput, rfl⟩)
          · simp [Signature.types, hty]

/-- An operation has what was collected of the parameters of its method. -/
theorem classifyOperation_parameters {c : Config} {r : Resolver} {s : Scope} {m : Method}
    {o : Operation} (h : classifyOperation c r s m = .ok o) :
    collectParameters m = .ok o.parameters := by
  unfold classifyOperation at h
  dsimp only at h
  split at h
  · cases h
  split at h
  · cases h
  split at h
  · cases h
  split at h
  · cases h
  obtain ⟨parameters, hparameters, h⟩ := bind_ok h
  cases h
  exact hparameters

/-- The operations of a service are its methods that count, described in order. -/
theorem classifyInterface_forall₂ {c : Config} {r : Resolver} {d : Declared} {i : Interface}
    (h : classifyInterface c r d = .ok i) : d.item.generics.params = [] ∧
      List.Forall₂ (fun m o => classifyOperation c r ⟨d.packageName, []⟩ m = .ok o)
        (qualifyingMethods c d.item) i.operations := by
  unfold classifyInterface at h
  dsimp only at h
  split at h
  · cases h
  · rename_i hgenerics
    split at h
    · cases h
    · obtain ⟨operations, hoperations, h⟩ := bind_ok h
      cases h
      refine ⟨by simpa using hgenerics, (mapM_forall₂ hoperations).imp fun m o hmo => ?_⟩
      cases hclassified : classifyOperation c r ⟨d.packageName, []⟩ m with
      | error reason => rw [hclassified] at hmo; cases hmo
      | ok o' => rw [hclassified] at hmo; cases hmo; rfl

theorem classifyInterface_operations {c : Config} {r : Resolver} {d : Declared} {i : Interface}
    (h : classifyInterface c r d = .ok i) : d.item.generics.params = [] ∧
      ∀ o ∈ i.operations, ∃ m ∈ qualifyingMethods c d.item,
        classifyOperation c r ⟨d.packageName, []⟩ m = .ok o :=
  (classifyInterface_forall₂ h).imp_right forall₂_mem_right

end WrapperGen
