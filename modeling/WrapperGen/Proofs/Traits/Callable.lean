import WrapperGen.Proofs.Traits.Objects
import WrapperGen.Proofs.Types.Operations
/-!
# Operations of a shared object

A wrapper calls its operation on a shared trait object. `operations_callable_iff`: this is possible
for every described operation but those whose method is for sized types only. Such a method is no
part of the object, so the check of the members passes over it; it becomes an operation all the
same, as nothing after the check looks at the bound.
-/

namespace WrapperGen

namespace Source

/-- The type without the parentheses around it. -/
def Ty.bare : Ty → Ty
  | .paren e => e.bare
  | t => t

/-- The predicate bounds `Self`, which may stand in parentheses, by `Sized`. -/
def WherePredicate.AsksSized : WherePredicate → Prop
  | .type _ t bounds _ => t.bare.isSelf = true ∧ ∃ b ∈ bounds, b.IsOn "Sized"
  | .lifetime _ _ _ => False

instance : (w : WherePredicate) → Decidable w.AsksSized
  | .type _ _ _ _ => inferInstanceAs (Decidable (_ ∧ _))
  | .lifetime _ _ _ => inferInstanceAs (Decidable False)

theorem WherePredicate.BoundsSelf.asksSized {w : WherePredicate} (h : w.BoundsSelf "Sized") :
    w.AsksSized := by
  cases w with
  | lifetime => exact h
  | type _ t bounds _ =>
    obtain ⟨hself, hbound⟩ := h
    refine ⟨?_, hbound⟩
    cases t with
    | path p => exact hself
    | _ => cases hself

namespace Signature

/-- The method is for sized types only, and so no part of a trait object. -/
def IsSizedOnly (s : Signature) : Prop := ∃ w ∈ s.generics.predicates, w.AsksSized

instance (s : Signature) : Decidable s.IsSizedOnly :=
  inferInstanceAs (Decidable (∃ w ∈ s.generics.predicates, w.AsksSized))

/-- The method takes `&self`. -/
def TakesShared (s : Signature) : Prop :=
  ∃ self ∈ s.receiver?, self.reference.isSome = true ∧ self.mutable = false

instance (s : Signature) : Decidable s.TakesShared :=
  inferInstanceAs (Decidable (∃ self ∈ s.receiver?, _))

/-- What a wrapper needs of a method to call it on the shared object. -/
structure IsCallable (boxesFutures : Bool) (s : Signature) : Prop where
  shared : s.TakesShared
  params : s.generics.params = []
  inObject : ¬ s.IsSizedOnly
  boxed : s.asynchronous = true → boxesFutures = true

end Signature

end Source

open Source

/-- A described method keeps its name, takes `&self` and has no parameters of its own. -/
theorem classifyOperation_shared {c : Config} {r : Resolver} {s : Scope} {m : Method}
    {o : Operation} (h : classifyOperation c r s m = .ok o) :
    o.name = m.signature.name ∧ m.signature.TakesShared ∧ m.signature.generics.params = [] := by
  unfold classifyOperation at h
  dsimp only at h
  split at h
  · cases h
  · rename_i hparams
    split at h
    · cases h
    · rename_i hshared
      have hshared : m.signature.TakesShared := by
        simpa [Signature.TakesShared, Option.any_eq_true] using hshared
      split at h
      · cases h
      · split at h
        · cases h
        · obtain ⟨parameters, -, h⟩ := bind_ok h
          cases h
          exact ⟨rfl, hshared, by simpa using hparams⟩

theorem mem_members_of_qualifying {c : Config} {t : Source.Trait} {m : Method}
    (h : m ∈ qualifyingMethods c t) : .method m ∈ t.members := by
  obtain ⟨member, hmember, hm⟩ := List.mem_filterMap.1 (List.mem_filter.1 h).1
  split at hm
  · cases hm
    exact hmember
  · cases hm

/-- A method that passed the check is asynchronous only where futures are boxed, unless the check
passed over it. -/
theorem Source.Member.IsChecked.boxed {boxesFutures : Bool} {m : Method}
    (h : (Member.method m).IsChecked boxesFutures) (hsized : ¬ m.signature.IsSizedOnly) :
    m.signature.asynchronous = true → boxesFutures = true := by
  rcases h with ⟨w, hw, hself⟩ | ⟨-, -, -, hboxed⟩
  · exact absurd ⟨w, hw, hself.asksSized⟩ hsized
  · exact hboxed

/-- **Which operations can be called.** For all settings, with either choice of methods, every
universe and every trait that is accepted: its operations are its methods that count, in order and
under their names, and each of these takes `&self` and has no parameters of its own. It can be
called on the shared object exactly if it is not for sized types only; and only methods for sized
types are asynchronous where futures are not boxed. -/
theorem operations_callable_iff {c : Config} {r : Resolver} {d : Declared} {i : Interface}
    (h : classifyInterface c r d = .ok i) :
    let boxesFutures := Attribute.anyNamed d.item.attrs "async_trait"
    List.Forall₂ (fun m o => o.name = m.signature.name ∧ m.signature.TakesShared ∧
        m.signature.generics.params = [] ∧
        (m.signature.IsCallable boxesFutures ↔ ¬ m.signature.IsSizedOnly))
      (qualifyingMethods c d.item) i.operations := by
  intro boxesFutures
  obtain ⟨-, hproblem⟩ := classifyInterface_checked h
  obtain ⟨-, -, hchecked⟩ := handleProblem?_eq_none.1 hproblem
  have hoperations := (List.forall₂_and_left _ _).2
    ⟨fun m (hm : m ∈ qualifyingMethods c d.item) => hm, (classifyInterface_forall₂ h).2⟩
  refine hoperations.imp fun m o ⟨hm, hmo⟩ => ?_
  obtain ⟨hname, hshared, hparams⟩ := classifyOperation_shared hmo
  refine ⟨hname, hshared, hparams, fun hcallable => hcallable.inObject, fun hsized => ?_⟩
  exact ⟨hshared, hparams, hsized,
    (hchecked _ (mem_members_of_qualifying hm)).boxed hsized⟩

/-- An asynchronous method without parameters. -/
def laterMethod (name : String) (g : Generics) : Method where
  attrs := []
  vis := .inherited
  signature := {
    constant := false
    asynchronous := true
    unchecked := false
    abi := none
    name := name
    generics := g
    inputs := [.receiver [] ⟨some none, false, none⟩]
    trailing := false
    variadic := []
    output := some (.named "u8") }
  body := none

/-- The clause `where Self: Sized`. -/
def sizedClause : Generics :=
  let bound := .trait false false none (.single "Sized")
  ⟨false, [], false, some ([.type none (.named "Self") [bound] false], false)⟩

/-- A service with boxed futures and two methods, one of them for sized types only. -/
def boxingTrait : Declared :=
  let item := markedTrait "Api" ["Send", "Sync"]
    [.method (laterMethod "later" .none), .method (laterMethod "own" sizedClause)]
  ⟨"crate::api::Api", "crate::api", "Api", ⟨"api.rs"⟩, 1,
    { item with attrs := ⟨.single "async_trait", []⟩ :: item.attrs }⟩

theorem boxing_callable :
    ∃ i, classifyInterface .default (.ofUniverse .empty) boxingTrait = .ok i ∧
      i.operations.map (·.name) = ["later", "own"] ∧
      (laterMethod "later" .none).signature.IsCallable true ∧
      ¬ (laterMethod "own" sizedClause).signature.IsCallable true := by
  have haccepted : (classifyInterface .default (.ofUniverse .empty) boxingTrait).toOption.map
      (fun i => i.operations.map (·.name)) = some ["later", "own"] := by decide +kernel
  obtain ⟨i, hi, hnames⟩ := Option.map_eq_some_iff.1 haccepted
  have hi := toOption_eq_some.1 hi
  have hmethods : qualifyingMethods .default boxingTrait.item =
      [laterMethod "later" .none, laterMethod "own" sizedClause] := rfl
  have hoperations := operations_callable_iff hi
  rw [hmethods] at hoperations
  obtain ⟨_, _, hlater, hrest, -⟩ := List.forall₂_cons_left_iff.1 hoperations
  obtain ⟨_, _, hown, -, -⟩ := List.forall₂_cons_left_iff.1 hrest
  exact ⟨i, hi, hnames, hlater.2.2.2.2 (by decide), fun h => hown.2.2.2.1 h (by decide)⟩

/-- A service with a method that is for sized types only. -/
def sizedSource : String :=
  "#[remote_service]\ntrait Api: Send + Sync \x7b\n" ++
  "    fn plain(&self) -> u8;\n" ++
  "    fn own(&self) -> u8 where Self: Sized;\n" ++
  "\x7d\n"

theorem sized_method_described :
    ∃ u, Universe.ofSources [("api.rs", sizedSource)] = .ok u ∧
      ∃ d ∈ scan u Config.default.marker, ∃ i,
        classifyInterface .default (.ofUniverse u) d = .ok i ∧
        ∃ o ∈ i.operations, ∃ m ∈ d.item.methods, o.name = "own" ∧ m.signature.name = "own" ∧
          m.signature.IsSizedOnly ∧
          ¬ m.signature.IsCallable (Attribute.anyNamed d.item.attrs "async_trait") := by
  have hdescribed : (Universe.ofSources [("api.rs", sizedSource)]).toOption.any fun u =>
      (scan u Config.default.marker).any fun d =>
        (classifyInterface .default (.ofUniverse u) d).toOption.any fun i =>
          (i.operations.any (·.name == "own")) &&
            d.item.methods.any fun m =>
              m.signature.name == "own" && decide m.signature.IsSizedOnly := by decide +kernel
  obtain ⟨u, hu, hd⟩ := (Option.any_eq_true _ _).1 hdescribed
  obtain ⟨d, hd, hclassify⟩ := List.any_eq_true.1 hd
  obtain ⟨i, hi, hboth⟩ := (Option.any_eq_true _ _).1 hclassify
  obtain ⟨ho, hm⟩ := Bool.and_eq_true_iff.1 hboth
  obtain ⟨o, ho, hname⟩ := List.any_eq_true.1 ho
  obtain ⟨m, hm, hown⟩ := List.any_eq_true.1 hm
  obtain ⟨hm', hsized⟩ := Bool.and_eq_true_iff.1 hown
  have hsized : m.signature.IsSizedOnly := of_decide_eq_true hsized
  exact ⟨u, toOption_eq_some.1 hu, d, hd, i, toOption_eq_some.1 hi, o, ho, m, hm,
    by simpa using hname, by simpa using hm', hsized, fun h => h.inObject hsized⟩

end WrapperGen
