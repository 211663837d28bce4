import WrapperGen.Proofs.Source.Characters
import WrapperGen.Proofs.Traits.Callable
import WrapperGen.Proofs.Types.Imports
/-!
# What a description says of a trait

`described_faithfully`: an accepted trait is described method by method, in order. An operation has
the name of its method and the parameters of it, each under the name that its pattern binds or that
its place gives it. What it delivers follows from the return type alone: `Config.Delivers` says how,
in terms of the declaration that the type resolves to and of the types it is applied to.
-/

namespace WrapperGen

open Source

/-! ## Methods that count -/

namespace Source.Method

/-- The method takes `self`, and the settings choose it: as it has no body, or for an attribute that
ends in one of the verbs. -/
def Counts (c : Config) (m : Method) : Prop :=
  (∃ self, m.signature.receiver? = some self) ∧
    match c.filter with
    | .required => m.body = none
    | .httpVerb => ∃ a ∈ m.attrs, ∃ last ∈ a.path.segments.getLast?, last.name ∈ c.httpVerbs

end Source.Method

theorem isQualifying_iff {c : Config} {m : Method} : isQualifying c m = true ↔ m.Counts c := by
  rw [isQualifying, Method.Counts, Bool.and_eq_true, Option.isSome_iff_exists]
  refine and_congr_right fun _ => ?_
  cases c.filter with
  | required => exact Option.isNone_iff_eq_none
  | httpVerb => simp [List.any_eq_true, Option.any_eq_true, Config.isHttpVerb]

instance (c : Config) (m : Method) : Decidable (m.Counts c) :=
  decidable_of_iff _ isQualifying_iff

theorem qualifyingMethods_eq (c : Config) (t : Source.Trait) :
    qualifyingMethods c t = t.methods.filter (·.Counts c) :=
  List.filter_congr fun m _ => by rw [Bool.eq_iff_iff, isQualifying_iff, decide_eq_true_iff]

/-! ## Parameters -/

/-- The name of the parameter with this pattern at this place, counted from zero without `self`: the
one that the pattern binds the whole argument to, else one made from the place. -/
inductive ParameterName (place : Nat) : Node → String → Prop
  | bound {byRef mutable below : Node} {name : String} (whole : below.isAbsent = true) :
      ParameterName place (.form .bindingPat [byRef, mutable, .token (.ident name), below]) name
  | unnamed {pattern : Node}
      (noName : ∀ byRef mutable name below,
        pattern = .form .bindingPat [byRef, mutable, .token (.ident name), below] →
          below.isAbsent = false) :
      ParameterName place pattern ("arg" ++ toString place)

theorem parameterName_boundName? (place : Nat) (pattern : Node) :
    ParameterName place pattern ((boundName? pattern).getD ("arg" ++ toString place)) := by
  unfold boundName?
  split
  · rename_i byRef mutable name below
    split
    · rename_i habsent
      exact .bound habsent
    · rename_i hbelow
      refine .unnamed fun _ _ _ _ heq => ?_
      cases heq
      simpa using hbelow
  · rename_i hother
    exact .unnamed fun byRef mutable name below heq => absurd heq (hother byRef mutable name below)

theorem collectParameter_name {method : String} {isAsync : Bool} {place : Nat} {pattern : Node}
    {ty : Ty} {p : Parameter} (h : collectParameter method isAsync place pattern ty = .ok p) :
    ParameterName place pattern p.name := by
  unfold collectParameter at h
  dsimp only at h
  split at h
  · cases h
  · split at h
    · cases h
    · split at h
      · cases h
      · cases h
        exact parameterName_boundName? place pattern

theorem collectParameters_forall₂ {m : Method} {parameters : List Parameter}
    (h : collectParameters m = .ok parameters) :
    List.Forall₂ (fun input p => ParameterName input.2 input.1.1 p.name ∧ p.ty = input.1.2)
      m.signature.typedInputs.zipIdx parameters :=
  (mapM_forall₂ h).imp fun _ _ hp => ⟨collectParameter_name hp, collectParameter_ok hp⟩

/-! ## Results -/

namespace Resolver

variable {r : Resolver} {s : Scope} {path : String} {arguments found : List Ty}

theorem resolveGlobs_nominal {name : String} {globs : List String}
    (h : r.resolveGlobs name arguments globs = .nominal path found) : found = arguments := by
  induction globs with
  | nil => cases h
  | cons glob globs ih =>
    rw [resolveGlobs] at h
    split at h
    · cases h
      rfl
    · exact ih h

theorem resolveName_nominal {name : String}
    (h : r.resolveName s name arguments = .nominal path found) : found = arguments := by
  unfold resolveName at h
  dsimp only at h
  split at h
  · cases h
  split at h
  · exact resolvePath_nominal h
  split at h
  · cases h
    rfl
  split at h
  · cases h
    rfl
  split at h
  · cases h
    rfl
  · exact resolveGlobs_nominal h

/-- A declaration is applied to the types that it is written with. -/
theorem resolve_nominal {t : Ty} (h : r.resolve s t = .nominal path found) : found = t.applied := by
  fun_induction Resolver.resolve r s t with
  | case1 e ih => exact ih h
  | case2 p =>
    rw [resolveTypePath] at h
    rw [Ty.applied]
    split at h
    · cases h
      rfl
    · split at h
      · exact resolveName_nominal h
      · split at h
        · cases h
        · exact resolvePath_nominal h
  | case3 => cases h

theorem resolve_bare (r : Resolver) (s : Scope) (t : Ty) : r.resolve s t.bare = r.resolve s t := by
  fun_induction Ty.bare t with
  | case1 e ih => rw [ih, resolve]
  | case2 => rfl

/-- The type, through the parentheses around it, resolves to the declaration at this path. -/
def Denotes (r : Resolver) (s : Scope) (t : Ty) (path : String) : Prop :=
  ∃ arguments, r.resolve s t.bare = .nominal path arguments

theorem denotes_iff {t : Ty} :
    r.Denotes s t path ↔ r.resolve s t = .nominal path t.applied := by
  rw [Denotes, resolve_bare]
  refine ⟨fun ⟨arguments, h⟩ => ?_, fun h => ⟨_, h⟩⟩
  rwa [resolve_nominal h] at h

end Resolver

/-- The shape of a call or of a response, which are delivered as what they wrap. -/
def ResultShape.IsWrapper (shape : ResultShape) : Prop :=
  shape = .asyncCallWrapper ∨ shape = .syncResponseWrapper

/-- What a method with this return type delivers, in which shape: wrappers are known by the
declarations that the settings list, calls before responses, and a wrapper that is applied to one
type delivers this type. -/
structure Config.Delivers (c : Config) (r : Resolver) (s : Scope) (isAsync : Bool) (ty : Ty)
    (shape : ResultShape) (payload : Ty) : Prop where
  deferred : shape = .deferredValue ↔ isAsync = true
  call : isAsync = false →
    (shape = .asyncCallWrapper ↔ ∃ path, r.Denotes s ty path ∧ path ∈ c.callWrappers)
  response : isAsync = false →
    (shape = .syncResponseWrapper ↔
      ∃ path, r.Denotes s ty path ∧ path ∈ c.responseWrappers ∧ path ∉ c.callWrappers)
  bare : isAsync = false →
    (shape = .bareValue ↔
      ∀ path, r.Denotes s ty path → path ∉ c.callWrappers ∧ path ∉ c.responseWrappers)
  unwrapped : shape.IsWrapper → ∀ t, ty.applied = [t] → payload = t
  whole : ¬ (shape.IsWrapper ∧ ∃ t, ty.applied = [t]) → payload = ty

theorem classifyReturn_payload_eq {c : Config} {r : Resolver} {s : Scope} {isAsync : Bool} {ty : Ty}
    (h : ¬ ((classifyReturn c r s isAsync ty).1.IsWrapper ∧ ∃ t, ty.applied = [t])) :
    (classifyReturn c r s isAsync ty).2 = ty := by
  unfold classifyReturn at h ⊢
  split
  · rfl
  rename_i hsync
  rw [if_neg hsync] at h
  cases hresolve : r.resolve s ty with
  | nominal path arguments =>
    rw [hresolve] at h
    cases Resolver.resolve_nominal hresolve
    dsimp only at h ⊢
    -- a wrapper of one type has been excluded, so what it is applied to is no such list
    have hmany : c.callWrappers.contains path = true ∨ c.responseWrappers.contains path = true →
        ∀ t, ty.applied ≠ [t] := fun hlisted t ht => by
      refine h ⟨?_, t, ht⟩
      split
      · exact .inl rfl
      · rename_i hcall
        rw [if_pos (hlisted.resolve_left hcall)]
        exact .inr rfl
    split
    · rename_i hcall
      have hnone := hmany (.inl hcall)
      dsimp only
      split
      · rename_i single heq
        exact absurd heq (hnone single)
      · rfl
    · split
      · rename_i hresponse
        have hnone := hmany (.inr hresponse)
        dsimp only
        split
        · rename_i single heq
          exact absurd heq (hnone single)
        · rfl
      · rfl
  | _ => rfl

/-- A wrapper has a path that is listed. -/
theorem nominal_of_isWrapper {c : Config} {r : Resolver} {s : Scope} {ty : Ty}
    (h : (classifyReturn c r s false ty).1.IsWrapper) :
    ∃ path, r.resolve s ty = .nominal path ty.applied := by
  rw [classifyReturn_shape] at h
  split at h
  · rename_i path arguments hresolve
    exact ⟨path, Resolver.resolve_nominal hresolve ▸ hresolve⟩
  · exact absurd h (by simp [ResultShape.IsWrapper])

theorem classifyReturn_delivers (c : Config) (r : Resolver) (s : Scope) (isAsync : Bool) (ty : Ty) :
    c.Delivers r s isAsync ty (classifyReturn c r s isAsync ty).1
      (classifyReturn c r s isAsync ty).2 := by
  cases isAsync with
  | true =>
    have hasync : classifyReturn c r s true ty = (.deferredValue, ty) := rfl
    rw [hasync]
    constructor <;> simp [ResultShape.IsWrapper]
  | false =>
    have hunwrapped : (classifyReturn c r s false ty).1.IsWrapper → ∀ t, ty.applied = [t] →
        (classifyReturn c r s false ty).2 = t := fun hwrapper t ht => by
      obtain ⟨path, hpath⟩ := nominal_of_isWrapper hwrapper
      rw [ht] at hpath
      refine classifyReturn_single hpath fun hbare => ?_
      rw [ResultShape.IsWrapper, hbare] at hwrapper
      exact absurd hwrapper (by decide)
    have hsync : (classifyReturn c r s false ty).1 ≠ .deferredValue := by
      rw [classifyReturn_shape]
      split
      · unfold Config.shapeOf
        repeat' split
        all_goals decide
      · decide
    refine ⟨by simp [hsync], fun _ => ?_, fun _ => ?_, fun _ => ?_, hunwrapped,
      classifyReturn_payload_eq⟩
    -- the path that the type resolves to, if there is one, decides the shape
    all_goals
      rw [classifyReturn_shape]
      simp only [Resolver.denotes_iff]
      cases hresolve : r.resolve s ty with
      | nominal path arguments =>
        cases Resolver.resolve_nominal hresolve
        by_cases hcall : path ∈ c.callWrappers <;>
          by_cases hresponse : path ∈ c.responseWrappers <;>
            simp [Config.shapeOf, hcall, hresponse]
      | _ => simp

/-! ## Operations -/

/-- The operation describes the method, whose types are read in the scope. -/
structure Operation.Describes (c : Config) (r : Resolver) (s : Scope) (m : Method) (o : Operation) :
    Prop where
  name : o.name = m.signature.name
  parameters : List.Forall₂
    (fun input p => ParameterName input.2 input.1.1 p.name ∧ p.ty = input.1.2)
    m.signature.typedInputs.zipIdx o.parameters
  deferred : o.isDeferred = true ↔ m.signature.asynchronous = true
  result : ∃ ty, m.signature.output = some ty ∧
    c.Delivers r s m.signature.asynchronous ty o.shape o.payload

theorem classifyOperation_describes {c : Config} {r : Resolver} {s : Scope} {m : Method}
    {o : Operation} (h : classifyOperation c r s m = .ok o) : o.Describes c r s m := by
  unfold classifyOperation at h
  dsimp only at h
  split at h
  · cases h
  split at h
  · cases h
  split at h
  · cases h
  rename_i ty hty
  split at h
  · cases h
  obtain ⟨parameters, hparameters, h⟩ := bind_ok h
  cases h
  have hdelivers := classifyReturn_delivers c r s m.signature.asynchronous ty
  exact {
    name := rfl
    parameters := collectParameters_forall₂ hparameters
    deferred := by
      rw [Operation.isDeferred, decide_eq_true_iff]
      exact hdelivers.deferred
    result := ⟨ty, hty, hdelivers⟩ }

/-- **Descriptions are faithful.** For all settings, every resolver and every trait that is
accepted: its operations are its methods that count, one for each and in order, and each operation
describes its method. It has the name of the method and all its parameters besides `self`, in order
and with their types; it is deferred exactly if the method is asynchronous; and its shape and its
payload follow from the return type. -/
theorem described_faithfully {c : Config} {r : Resolver} {d : Declared} {i : Interface}
    (h : classifyInterface c r d = .ok i) :
    List.Forall₂ (Operation.Describes c r ⟨d.packageName, []⟩)
      (d.item.methods.filter (·.Counts c)) i.operations := by
  rw [← qualifyingMethods_eq]
  exact (classifyInterface_forall₂ h).2.imp fun _ _ => classifyOperation_describes

/-- A method that takes a pair apart, has a name for its other argument and returns the type
`(svcwrap::Call<'a, u8>)`. -/
def pairMethod : Method where
  attrs := []
  vis := .inherited
  signature := {
    constant := false
    asynchronous := false
    unchecked := false
    abi := none
    name := "pair"
    generics := .none
    inputs := [.receiver [] ⟨some none, false, none⟩,
      .typed [] (.form .tuple [.group .paren []]) (.tuple [.named "u8", .named "u8"] false),
      .typed [] (.form .bindingPat [.absent, .word "mut", .word "key", .absent]) (.named "String")]
    trailing := false
    variadic := []
    output := some (.paren (.path ⟨false, [.plain "svcwrap",
      ⟨"Call", .angle false [.lifetime "a", .type (.named "u8")] false⟩]⟩)) }
  body := none

def pairTrait : Declared :=
  ⟨"crate::api::Api", "crate::api", "Api", ⟨"api.rs"⟩, 1,
    markedTrait "Api" ["Send", "Sync"] [.raw (.const "LIMIT"), .method pairMethod]⟩

theorem pair_described :
    ∃ i, classifyInterface .default (.ofUniverse .empty) pairTrait = .ok i ∧
      i.operations.map (fun o => (o.name, o.parameters.map (·.name), o.shape)) =
        [("pair", ["arg0", "key"], .asyncCallWrapper)] ∧
      ∀ o ∈ i.operations, o.payload = .named "u8" := by
  have haccepted : (classifyInterface .default (.ofUniverse .empty) pairTrait).toOption.map
      (fun i => i.operations.map (fun o => (o.name, o.parameters.map (·.name), o.shape))) =
        some [("pair", ["arg0", "key"], .asyncCallWrapper)] := by decide +kernel
  obtain ⟨i, hi, hoperations⟩ := Option.map_eq_some_iff.1 haccepted
  have hi := toOption_eq_some.1 hi
  refine ⟨i, hi, hoperations, fun o ho => ?_⟩
  obtain ⟨m, hm, hdescribes⟩ := forall₂_mem_right (described_faithfully hi) o ho
  have hmethod : m = pairMethod := by
    have hmem : .method m ∈ pairTrait.item.members :=
      mem_members_of_qualifying ((qualifyingMethods_eq _ _).symm ▸ hm)
    rcases List.mem_cons.1 hmem with heq | hmem
    · cases heq
    · cases List.mem_singleton.1 hmem
      rfl
  subst hmethod
  obtain ⟨ty, hty, hdelivers⟩ := hdescribes.result
  cases hty
  have hmem := List.mem_map_of_mem
    (f := fun o : Operation => (o.name, o.parameters.map (·.name), o.shape)) ho
  rw [hoperations] at hmem
  have hshape : o.shape = .asyncCallWrapper :=
    (Prod.mk.inj (Prod.mk.inj (List.mem_singleton.1 hmem)).2).2
  exact hdelivers.unwrapped (.inl hshape) _ rfl

/-! ## Descriptions of a given source -/

/-- The universe of one file. -/
def Universe.ofFile (path : String) (file : File) : Universe :=
  ⟨[⟨⟨path⟩, modulePath ⟨path⟩, file⟩], []⟩

theorem Universe.ofSources_single {path text : String} {file : File}
    (h : File.parse text = .ok file) : ofSources [(path, text)] = .ok (ofFile path file) := by
  have hadd : add empty ⟨path⟩ text = .ok (ofFile path file) := by
    unfold add
    rw [h]
    rfl
  change add empty ⟨path⟩ text >>= pure = _
  rw [hadd]
  rfl

/-- Whether the file with this path and these characters has a service that is described so that
`P` holds. -/
def describedAs (path : String) (cs : List Char) (P : Interface → Bool) : Bool :=
  (File.parseChars cs).toOption.any fun file =>
    (scan (.ofFile path file) Config.default.marker).any fun d =>
      (classifyInterface .default (.ofUniverse (.ofFile path file)) d).toOption.any P

theorem exists_of_describedAs {path text : String} {P : Interface → Bool}
    (h : describedAs path text.toList P = true) :
    ∃ u, Universe.ofSources [(path, text)] = .ok u ∧ ∃ d ∈ scan u Config.default.marker, ∃ i,
      classifyInterface .default (.ofUniverse u) d = .ok i ∧ P i = true := by
  obtain ⟨file, hfile, hscan⟩ := (Option.any_eq_true _ _).1 h
  rw [← File.parse_eq, toOption_eq_some] at hfile
  obtain ⟨d, hd, hclassify⟩ := List.any_eq_true.1 hscan
  obtain ⟨i, hi, hP⟩ := (Option.any_eq_true _ _).1 hclassify
  exact ⟨_, Universe.ofSources_single hfile, d, hd, i, toOption_eq_some.1 hi, hP⟩

end WrapperGen
