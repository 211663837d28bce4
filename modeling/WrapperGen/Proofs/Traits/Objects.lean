import WrapperGen.Proofs.Rounds.Reports
/-!
# Traits that can be shared as objects

Wrappers reach a service through a shared trait object. `Trait.Shareable` says what the text of a
trait must satisfy for it, member by member and at any depth of the types. `handleProblem?_eq_none`
says what the classifier checks of it, and `accepted_shareable_iff` what is missing: a bound on
`Sized`, associated types, members kept as tokens, and `Self` and `impl Trait` inside the types.
-/

namespace WrapperGen

namespace Source

/-! ## The types in a type -/

mutual
/-- Every type in a type, at any depth: the outer type before those in it, else in the order of the
text. -/
def Ty.parts : Ty → List Ty
  | .array e n => .array e n :: (e.parts ++ n.parts)
  | .fnPointer b u a ps tr v o =>
    .fnPointer b u a ps tr v o :: (binderParts b ++ paramsParts ps ++ outputParts o)
  | .implTrait bs tr => .implTrait bs tr :: boundsParts bs
  | .infer => [.infer]
  | .never => [.never]
  | .invocation p n => [.invocation p n]
  | .paren e => .paren e :: e.parts
  | .path p => .path p :: p.argParts
  | .projection s n p => .projection s n p :: (s.parts ++ p.argParts)
  | .pointer m e => .pointer m e :: e.parts
  | .reference l m e => .reference l m e :: e.parts
  | .slice e => .slice e :: e.parts
  | .traitObject d bs tr => .traitObject d bs tr :: boundsParts bs
  | .tuple es tr => .tuple es tr :: tysParts es
  | .verbatim ns => [.verbatim ns]
/-- The types in the arguments of a path. -/
def Path.argParts : Path → List Ty
  | ⟨_, ss⟩ => segmentsParts ss
def Segment.argParts : Segment → List Ty
  | ⟨_, a⟩ => a.parts
def Args.parts : Args → List Ty
  | .none => []
  | .angle _ as _ => genericArgsParts as
  | .paren ts _ o => tysParts ts ++ outputParts o
def GenericArg.parts : GenericArg → List Ty
  | .lifetime _ => []
  | .type t => t.parts
  | .const n => n.parts
  | .assocType _ a t => a.parts ++ t.parts
  | .assocConst _ a n => a.parts ++ n.parts
  | .constraint _ a bs _ => a.parts ++ boundsParts bs
def Bound.parts : Bound → List Ty
  | .lifetime _ => []
  | .trait _ _ b p => binderParts b ++ p.argParts
  | .capture _ _ => []
  | .verbatim _ => []
def Binder.parts : Binder → List Ty
  | ⟨ps, _⟩ => genericParamsParts ps
def GenericParam.parts : GenericParam → List Ty
  | .lifetime _ _ _ => []
  | .type _ _ bs d => boundsParts bs ++ outputParts d
  | .const _ _ t d => t.parts ++ defaultParts d
def FnPointerParam.parts : FnPointerParam → List Ty
  | ⟨_, _, t⟩ => t.parts
def Node.parts : Node → List Ty
  | .token _ => []
  | .group _ ns => nodesParts ns
  | .type t => t.parts
  | .path p => p.argParts
  | .projection s _ p => s.parts ++ p.argParts
  | .args a => a.parts
  | .binder b => b.parts
  | .form _ ns => nodesParts ns
def tysParts : List Ty → List Ty
  | [] => []
  | t :: ts => t.parts ++ tysParts ts
def segmentsParts : List Segment → List Ty
  | [] => []
  | s :: ss => s.argParts ++ segmentsParts ss
def genericArgsParts : List GenericArg → List Ty
  | [] => []
  | a :: as => a.parts ++ genericArgsParts as
def boundsParts : List Bound → List Ty
  | [] => []
  | b :: bs => b.parts ++ boundsParts bs
def genericParamsParts : List GenericParam → List Ty
  | [] => []
  | p :: ps => p.parts ++ genericParamsParts ps
def paramsParts : List FnPointerParam → List Ty
  | [] => []
  | p :: ps => p.parts ++ paramsParts ps
def nodesParts : List Node → List Ty
  | [] => []
  | n :: ns => n.parts ++ nodesParts ns
def binderParts : Option Binder → List Ty
  | none => []
  | some b => b.parts
def outputParts : Option Ty → List Ty
  | none => []
  | some t => t.parts
def defaultParts : Option Node → List Ty
  | none => []
  | some n => n.parts
end

namespace Ty

theorem self_mem_parts (t : Ty) : t ∈ t.parts := by
  cases t <;> simp [parts]

/-- The type `Self`. -/
def isSelf : Ty → Bool
  | .path p => p.isSingle "Self"
  | _ => false

end Ty

/-! ## Bounds -/

/-- The bound requires the trait `name`: it is neither relaxed nor a lifetime. -/
def Bound.IsOn (name : String) : Bound → Prop
  | .trait _ maybe _ p => maybe = false ∧ p.endsIn name = true
  | _ => False

instance (name : String) : (b : Bound) → Decidable (b.IsOn name)
  | .trait _ _ _ _ => inferInstanceAs (Decidable (_ ∧ _))
  | .lifetime _ | .capture _ _ | .verbatim _ => inferInstanceAs (Decidable False)

/-- The predicate bounds `Self` by the trait `name`. -/
def WherePredicate.BoundsSelf (name : String) : WherePredicate → Prop
  | .type _ t bounds _ => t.isSelf = true ∧ ∃ b ∈ bounds, b.IsOn name
  | _ => False

instance (name : String) : (w : WherePredicate) → Decidable (w.BoundsSelf name)
  | .type _ _ _ _ => inferInstanceAs (Decidable (_ ∧ _))
  | .lifetime _ _ _ => inferInstanceAs (Decidable False)

/-- The `where` clause has the predicate `Self: name`. -/
def Generics.BoundsSelf (name : String) (g : Generics) : Prop :=
  ∃ w ∈ g.predicates, w.BoundsSelf name

instance (name : String) (g : Generics) : Decidable (g.BoundsSelf name) :=
  inferInstanceAs (Decidable (∃ w ∈ g.predicates, w.BoundsSelf name))

/-- The trait itself requires the trait `name`. -/
def Trait.Requires (name : String) (t : Trait) : Prop :=
  (∃ b ∈ t.supertraits, b.IsOn name) ∨ t.generics.BoundsSelf name

instance (name : String) (t : Trait) : Decidable (t.Requires name) :=
  inferInstanceAs (Decidable (_ ∨ _))

end Source

open Source

theorem namesBound_iff {name : String} {bounds : List Bound} :
    namesBound name bounds = true ↔ ∃ b ∈ bounds, b.IsOn name := by
  unfold namesBound
  rw [List.any_eq_true]
  refine exists_congr fun b => and_congr_right fun _ => ?_
  cases b <;> simp [Bound.IsOn]

theorem selfBounds_iff {name : String} {g : Generics} :
    namesBound name (selfBounds g) = true ↔ g.BoundsSelf name := by
  rw [namesBound_iff]
  unfold selfBounds Generics.BoundsSelf
  simp only [List.mem_flatMap]
  constructor
  · rintro ⟨b, ⟨w, hw, hb⟩, hname⟩
    refine ⟨w, hw, ?_⟩
    split at hb
    · split at hb
      · rename_i hself
        exact ⟨hself, b, hb, hname⟩
      · exact absurd hb List.not_mem_nil
    · exact absurd hb List.not_mem_nil
  · rintro ⟨w, hw, hname⟩
    cases w with
    | lifetime => exact hname.elim
    | type _ t bounds _ =>
      obtain ⟨hself, b, hb, hname⟩ := hname
      refine ⟨b, ⟨_, hw, ?_⟩, hname⟩
      cases t with
      | path p =>
        have hself : p.isSingle "Self" = true := hself
        simpa [hself] using hb
      | _ => cases hself

theorem requiresBound_iff {name : String} {t : Trait} :
    requiresBound t name = true ↔ t.Requires name := by
  rw [requiresBound, Bool.or_eq_true, namesBound_iff, selfBounds_iff]
  rfl

theorem sizedOnly_iff {s : Signature} : sizedOnly s = true ↔ s.generics.BoundsSelf "Sized" :=
  selfBounds_iff

/-! ## Members -/

namespace Source

/-- What lets a method be called through a trait object. -/
structure Signature.IsDispatchable (boxesFutures : Bool) (s : Signature) : Prop where
  receiver : s.receiver?.isSome = true
  params : s.generics.hasTypeOrConst = false
  noImpl : ∀ ty ∈ s.types, ∀ part ∈ ty.parts, isImplTrait part = false
  noSelf : ∀ ty ∈ s.types, ∀ part ∈ ty.parts, part.isSelf = false
  boxed : s.asynchronous = true → boxesFutures = true

instance (boxesFutures : Bool) (s : Signature) : Decidable (s.IsDispatchable boxesFutures) :=
  decidable_of_iff (_ ∧ _ ∧ _ ∧ _ ∧ _)
    ⟨fun ⟨h₁, h₂, h₃, h₄, h₅⟩ => ⟨h₁, h₂, h₃, h₄, h₅⟩,
      fun h => ⟨h.receiver, h.params, h.noImpl, h.noSelf, h.boxed⟩⟩

namespace Member

/-- What lets a trait with this member be made an object. What stands for a member counts as that
member; what an invocation stands for is not in the text. -/
def IsObjectSafe (boxesFutures : Bool) : Member → Prop
  | .const _ => False
  | .type _ g => g.BoundsSelf "Sized"
  | .method m =>
    m.signature.generics.BoundsSelf "Sized" ∨ m.signature.IsDispatchable boxesFutures
  | .raw m => m.IsObjectSafe boxesFutures
  | .invocation => True

instance decidableIsObjectSafe (boxesFutures : Bool) :
    (m : Member) → Decidable (m.IsObjectSafe boxesFutures)
  | .const _ => inferInstanceAs (Decidable False)
  | .type _ g => inferInstanceAs (Decidable (g.BoundsSelf "Sized"))
  | .method _ => inferInstanceAs (Decidable (_ ∨ _))
  | .raw m => decidableIsObjectSafe boxesFutures m
  | .invocation => inferInstanceAs (Decidable True)

/-- What the classifier looks at in a member. -/
def IsChecked (boxesFutures : Bool) : Member → Prop
  | .const _ => False
  | .method m =>
    m.signature.generics.BoundsSelf "Sized" ∨
      m.signature.receiver?.isSome = true ∧ m.signature.generics.hasTypeOrConst = false ∧
        (∀ ty ∈ m.signature.output, isImplTrait ty = false) ∧
        (m.signature.asynchronous = true → boxesFutures = true)
  | _ => True

/-- What it does not look at. -/
def IsUnchecked (boxesFutures : Bool) : Member → Prop
  | .const _ | .invocation => True
  | .type _ g => g.BoundsSelf "Sized"
  | .method m =>
    m.signature.generics.BoundsSelf "Sized" ∨
      ∀ ty ∈ m.signature.types, ∀ part ∈ ty.parts, isImplTrait part = false ∧ part.isSelf = false
  | .raw m => m.IsObjectSafe boxesFutures

instance (boxesFutures : Bool) : (m : Member) → Decidable (m.IsUnchecked boxesFutures)
  | .const _ | .invocation => inferInstanceAs (Decidable True)
  | .type _ g => inferInstanceAs (Decidable (g.BoundsSelf "Sized"))
  | .method _ => inferInstanceAs (Decidable (_ ∨ _))
  | .raw m => inferInstanceAs (Decidable (m.IsObjectSafe boxesFutures))

theorem isObjectSafe_iff {boxesFutures : Bool} {m : Member} :
    m.IsObjectSafe boxesFutures ↔ m.IsChecked boxesFutures ∧ m.IsUnchecked boxesFutures := by
  cases m with
  | const => exact ⟨False.elim, And.left⟩
  | type | raw | invocation => exact (true_and _).to_iff.symm
  | method m =>
    simp only [IsObjectSafe, IsChecked, IsUnchecked, ← or_and_left]
    refine or_congr_right ⟨fun h => ?_, ?_⟩
    · refine ⟨⟨h.receiver, h.params, fun ty hty => ?_, h.boxed⟩, fun ty hty part hpart =>
        ⟨h.noImpl ty hty part hpart, h.noSelf ty hty part hpart⟩⟩
      refine h.noImpl ty ?_ ty ty.self_mem_parts
      exact List.mem_append_right _ (Option.mem_toList.2 hty)
    · rintro ⟨⟨hreceiver, hparams, -, hboxed⟩, htypes⟩
      exact ⟨hreceiver, hparams, fun ty hty part hpart => (htypes ty hty part hpart).1,
        fun ty hty part hpart => (htypes ty hty part hpart).2, hboxed⟩

end Member

/-! ## Traits -/

/-- What the text of a trait must satisfy for it to be shared as an object. -/
structure Trait.Shareable (t : Trait) : Prop where
  send : t.Requires "Send"
  sync : t.Requires "Sync"
  params : t.generics.params = []
  unsized : ¬ t.Requires "Sized"
  members : ∀ m ∈ t.members, m.IsObjectSafe (Attribute.anyNamed t.attrs "async_trait")

instance (t : Trait) : Decidable t.Shareable :=
  decidable_of_iff (_ ∧ _ ∧ t.generics.params.isEmpty = true ∧ _ ∧ _)
    ⟨fun ⟨h₁, h₂, h₃, h₄, h₅⟩ => ⟨h₁, h₂, List.isEmpty_iff.1 h₃, h₄, h₅⟩,
      fun h => ⟨h.send, h.sync, List.isEmpty_iff.2 h.params, h.unsized, h.members⟩⟩

end Source

theorem ite_some_eq_none {α : Type} {p : Prop} [Decidable p] {x : α} {y : Option α} :
    (if p then some x else y) = none ↔ ¬ p ∧ y = none := by
  split <;> simp [*]

theorem memberProblem?_eq_none {boxesFutures : Bool} {m : Member} :
    memberProblem? boxesFutures m = none ↔ m.IsChecked boxesFutures := by
  cases m with
  | const => exact ⟨fun h => (by cases h), False.elim⟩
  | type | raw | invocation => exact ⟨fun _ => trivial, fun _ => rfl⟩
  | method m =>
    have hasync : ¬ (m.signature.asynchronous && !boxesFutures) = true ↔
        (m.signature.asynchronous = true → boxesFutures = true) := by simp
    have hreceiver : ¬ m.signature.receiver?.isNone = true ↔ m.signature.receiver?.isSome = true := by
      cases m.signature.receiver? <;> simp
    have houtput : ¬ m.signature.output.any isImplTrait = true ↔
        ∀ ty ∈ m.signature.output, isImplTrait ty = false := by
      cases m.signature.output <;> simp
    simp only [memberProblem?, Member.IsChecked, ← sizedOnly_iff]
    cases sizedOnly m.signature with
    | true => simp
    | false =>
      simp only [Bool.false_eq_true, if_false, false_or, ite_some_eq_none, hasync, hreceiver,
        houtput, Bool.not_eq_true, and_true]
      constructor
      · rintro ⟨hasync, hreceiver, hparams, houtput⟩
        exact ⟨hreceiver, hparams, houtput, hasync⟩
      · rintro ⟨hreceiver, hparams, houtput, hasync⟩
        exact ⟨hasync, hreceiver, hparams, houtput⟩

theorem handleProblem?_eq_none {t : Trait} : handleProblem? t = none ↔
    t.Requires "Send" ∧ t.Requires "Sync" ∧
      ∀ m ∈ t.members, m.IsChecked (Attribute.anyNamed t.attrs "async_trait") := by
  have hmissing : ["Send", "Sync"].filter (fun name => !requiresBound t name) = [] ↔
      t.Requires "Send" ∧ t.Requires "Sync" := by
    simp [List.filter_eq_nil_iff, requiresBound_iff]
  unfold handleProblem?
  split
  · rename_i hnone
    rw [List.findSome?_eq_none_iff]
    simp only [memberProblem?_eq_none, hmissing.1 hnone, true_and]
  · rename_i hsome
    exact iff_of_false (by simp) fun h => hsome (hmissing.2 ⟨h.1, h.2.1⟩)

theorem classifyInterface_checked {c : Config} {r : Resolver} {d : Declared} {i : Interface}
    (h : classifyInterface c r d = .ok i) :
    d.item.generics.params = [] ∧ handleProblem? d.item = none := by
  unfold classifyInterface at h
  dsimp only at h
  split at h
  · cases h
  · rename_i hparams
    split at h
    · cases h
    · rename_i hproblem
      exact ⟨by simpa using hparams, hproblem⟩

/-- **What an accepted trait satisfies.** For all settings and every universe, a marked trait that
the classifier accepts requires `Send` and `Sync` itself, has no parameters and passes the checks
of each of its members. It can be shared as an object exactly if it also satisfies what is not
checked: it does not require `Sized`, its associated types are for sized types only, no method for
other types has `impl Trait` or `Self` at any depth of its types, and members of which only the
tokens are kept satisfy all of this. -/
theorem accepted_shareable_iff {c : Config} {r : Resolver} {d : Declared} {i : Interface}
    (h : classifyInterface c r d = .ok i) :
    let boxesFutures := Attribute.anyNamed d.item.attrs "async_trait"
    d.item.Requires "Send" ∧ d.item.Requires "Sync" ∧ d.item.generics.params = [] ∧
      (∀ m ∈ d.item.members, m.IsChecked boxesFutures) ∧
      (d.item.Shareable ↔
        ¬ d.item.Requires "Sized" ∧ ∀ m ∈ d.item.members, m.IsUnchecked boxesFutures) := by
  intro boxesFutures
  obtain ⟨hparams, hproblem⟩ := classifyInterface_checked h
  obtain ⟨hsend, hsync, hchecked⟩ := handleProblem?_eq_none.1 hproblem
  refine ⟨hsend, hsync, hparams, hchecked, fun ht => ?_, ?_⟩
  · exact ⟨ht.unsized, fun m hm => (Member.isObjectSafe_iff.1 (ht.members m hm)).2⟩
  · rintro ⟨hsized, hunchecked⟩
    exact ⟨hsend, hsync, hparams, hsized, fun m hm =>
      Member.isObjectSafe_iff.2 ⟨hchecked m hm, hunchecked m hm⟩⟩

/-- A trait with a method that returns a plain value. -/
def counterTrait : Declared :=
  ⟨"crate::api::Counter", "crate::api", "Counter", ⟨"api.rs"⟩, 1,
    markedTrait "Counter" ["Send", "Sync"] [getter "get" "u8"]⟩

theorem counter_shareable :
    (∃ i, classifyInterface .default (.ofUniverse .empty) counterTrait = .ok i) ∧
      counterTrait.item.Shareable := by
  have haccepted :
      (classifyInterface .default (.ofUniverse .empty) counterTrait).toOption.isSome = true := by
    decide +kernel
  obtain ⟨i, hi⟩ := Option.isSome_iff_exists.1 haccepted
  have hi := toOption_eq_some.1 hi
  exact ⟨⟨i, hi⟩, (accepted_shareable_iff hi).2.2.2.2.2 (by decide +kernel)⟩

/-- A service with `impl Trait` inside the result of a method. -/
def nestedImplSource : String :=
  "#[remote_service]\ntrait Api: Send + Sync \x7b\n" ++
  "    fn all(&self) -> Option<impl Send>;\n" ++
  "\x7d\n"

theorem nested_impl_accepted :
    ∃ u, Universe.ofSources [("api.rs", nestedImplSource)] = .ok u ∧
      ∃ d ∈ scan u Config.default.marker,
        (∃ i, classifyInterface .default (.ofUniverse u) d = .ok i) ∧ ¬ d.item.Shareable := by
  have haccepted : (Universe.ofSources [("api.rs", nestedImplSource)]).toOption.any fun u =>
      (scan u Config.default.marker).any fun d =>
        (classifyInterface .default (.ofUniverse u) d).toOption.isSome &&
          !decide d.item.Shareable := by decide +kernel
  obtain ⟨u, hu, hd⟩ := (Option.any_eq_true _ _).1 haccepted
  obtain ⟨d, hd, hclassify⟩ := List.any_eq_true.1 hd
  rw [Bool.and_eq_true] at hclassify
  obtain ⟨i, hi⟩ := Option.isSome_iff_exists.1 hclassify.1
  exact ⟨u, toOption_eq_some.1 hu, d, hd, ⟨i, toOption_eq_some.1 hi⟩, by simpa using hclassify.2⟩

end WrapperGen
