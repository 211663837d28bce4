import WrapperGen.Proofs.Source.Nesting
import WrapperGen.Proofs.Traits.Descriptions
/-!
# Arguments of deferred operations

The arguments of an asynchronous method move into a future that outlives the call, so they must not
borrow. `deferred_arguments_owned_iff`: the classifier refuses references among the components of
an argument's type, which it finds through parentheses and tuples. A borrow that stands deeper, in
the arguments of a path, in an array, a slice, a pointer or a bound, is let through.
-/

namespace WrapperGen

namespace Source

/-! ## Borrows in a type -/

namespace Phrase

/-- The phrase says what functions take and give, and holds nothing itself. -/
def isSignature : Phrase → Bool
  | ty (.fnPointer ..) | args (.paren ..) => true
  | _ => false

/-- What the phrase consists of, unless it is a signature. -/
def held (x : Phrase) : List Phrase := if x.isSignature then [] else x.children

/-- What stands at an address in the phrase, outside of signatures. -/
def heldAt? (x : Phrase) : List Nat → Option Phrase
  | [] => some x
  | i :: rest => x.held[i]?.bind fun y => y.heldAt? rest

/-- A reference that is not known to be good for ever. -/
def isBorrow : Phrase → Bool
  | ty (.reference lifetime _ _) => lifetime != some "'static"
  | _ => false

/-- There is no borrow in the phrase, at any depth outside of signatures. -/
def IsOwned (x : Phrase) : Prop := ∀ address, ∀ y ∈ x.heldAt? address, y.isBorrow = false

theorem isOwned_iff {x : Phrase} :
    x.IsOwned ↔ x.isBorrow = false ∧ ∀ y ∈ x.held, y.IsOwned := by
  constructor
  · intro h
    refine ⟨h [] x rfl, fun y hy address z hz => ?_⟩
    obtain ⟨k, hk, rfl⟩ := List.getElem_of_mem hy
    apply h (k :: address)
    rw [heldAt?, List.getElem?_eq_getElem hk]
    exact hz
  · rintro ⟨hx, hheld⟩ address y hy
    cases address with
    | nil =>
      cases hy
      exact hx
    | cons k address =>
      obtain ⟨z, hz, hy⟩ := Option.bind_eq_some_iff.1 hy
      exact hheld z (List.mem_of_getElem? hz) address y hy

/-- Looks for borrows at most `depth` deep; false also if the phrase is deeper. -/
def isOwnedTo : Nat → Phrase → Bool
  | 0, _ => false
  | depth + 1, x => !x.isBorrow && x.held.all (isOwnedTo depth)

theorem isOwned_of_isOwnedTo {depth : Nat} {x : Phrase} (h : isOwnedTo depth x = true) :
    x.IsOwned := by
  induction depth generalizing x with
  | zero => cases h
  | succ depth ih =>
    rw [isOwnedTo, Bool.and_eq_true, List.all_eq_true] at h
    exact isOwned_iff.2 ⟨by simpa using h.1, fun y hy => ih (h.2 y hy)⟩

end Phrase

namespace Ty

/-- The components of a type: those of what is in its parentheses or of the elements of the tuple
that it is, else the type itself. -/
def components : Ty → List Ty
  | .paren t => t.components
  | .tuple ts _ => ofAll ts
  | t => [t]
where
  ofAll : List Ty → List Ty
    | [] => []
    | t :: ts => t.components ++ ofAll ts

def isReference : Ty → Bool
  | .reference .. => true
  | _ => false

/-- There is no borrow in the type, at any depth outside of signatures. -/
def IsOwned (t : Ty) : Prop := (Phrase.ty t).IsOwned

theorem isOwned_paren {t : Ty} : (Ty.paren t).IsOwned ↔ t.IsOwned := by
  simp [IsOwned, Phrase.isOwned_iff (x := .ty (.paren t)), Phrase.isBorrow, Phrase.held,
    Phrase.isSignature, Phrase.children]

theorem isOwned_tuple {ts : List Ty} {trailing : Bool} :
    (Ty.tuple ts trailing).IsOwned ↔ ∀ t ∈ ts, t.IsOwned := by
  simp [IsOwned, Phrase.isOwned_iff (x := .ty (.tuple ts trailing)), Phrase.isBorrow, Phrase.held,
    Phrase.isSignature, Phrase.children]

mutual
theorem isOwned_iff_components (t : Ty) : t.IsOwned ↔ ∀ e ∈ t.components, e.IsOwned := by
  cases t with
  | paren t => exact isOwned_paren.trans (isOwned_iff_components t)
  | tuple ts trailing => exact isOwned_tuple.trans (all_isOwned_iff_components ts)
  | _ => exact List.forall_mem_singleton.symm
theorem all_isOwned_iff_components (ts : List Ty) :
    (∀ t ∈ ts, t.IsOwned) ↔ ∀ e ∈ components.ofAll ts, e.IsOwned := by
  cases ts with
  | nil => exact iff_of_true (List.forall_mem_nil _) (List.forall_mem_nil _)
  | cons t ts =>
    rw [List.forall_mem_cons, components.ofAll, List.forall_mem_append, isOwned_iff_components t,
      all_isOwned_iff_components ts]
end

/-- If no component of a type is a reference, then what the components hold decides whether the
type borrows. -/
theorem isOwned_iff_held {t : Ty} (h : ∀ e ∈ t.components, e.isReference = false) :
    t.IsOwned ↔ ∀ e ∈ t.components, ∀ x ∈ (Phrase.ty e).held, x.IsOwned := by
  rw [isOwned_iff_components]
  refine forall₂_congr fun e he => Phrase.isOwned_iff.trans (and_iff_right ?_)
  have hreference := h e he
  cases e with
  | reference => cases hreference
  | _ => rfl

end Ty

end Source

open Source

/-! ## What the classifier looks at -/

mutual
theorem borrows_eq (t : Ty) : borrows t = t.components.any Ty.isReference := by
  cases t with
  | paren t => exact borrows_eq t
  | tuple ts trailing => exact anyBorrows_eq ts
  | _ => rfl
theorem anyBorrows_eq (ts : List Ty) :
    borrows.anyBorrows ts = (Ty.components.ofAll ts).any Ty.isReference := by
  cases ts with
  | nil => rfl
  | cons t ts =>
    rw [borrows.anyBorrows, Ty.components.ofAll, List.any_append, borrows_eq t, anyBorrows_eq ts]
end

theorem collectParameter_borrows {method : String} {place : Nat} {pattern : Node} {ty : Ty}
    {p : Parameter} (h : collectParameter method true place pattern ty = .ok p) :
    borrows p.ty = false := by
  unfold collectParameter at h
  dsimp only at h
  split at h
  · cases h
  split at h
  · cases h
  split at h
  · cases h
  rename_i hborrows
  cases h
  simpa using hborrows

/-- **Arguments of deferred operations.** In every service that is described, no component of the
type of an argument of a deferred operation is a reference, whatever its lifetime. So the type
borrows nothing, at any depth outside of signatures, exactly if nothing that these components hold
does: what stands in the arguments of their paths, in their elements and in their bounds. -/
theorem deferred_arguments_owned_iff {c : Config} {r : Resolver} {d : Declared} {i : Interface}
    (h : classifyInterface c r d = .ok i) :
    ∀ o ∈ i.operations, o.shape = .deferredValue → ∀ p ∈ o.parameters,
      (∀ e ∈ p.ty.components, e.isReference = false) ∧
        (p.ty.IsOwned ↔ ∀ e ∈ p.ty.components, ∀ x ∈ (Phrase.ty e).held, x.IsOwned) := by
  intro o ho hshape p hp
  obtain ⟨m, -, hm⟩ := (classifyInterface_operations h).2 o ho
  have hasync : m.signature.asynchronous = true := by
    apply (classifyOperation_describes hm).deferred.1
    simp [Operation.isDeferred, hshape]
  have hall := mapM_forall₂ (classifyOperation_parameters hm)
  rw [hasync] at hall
  obtain ⟨e, -, hparameter⟩ := forall₂_mem_right hall p hp
  have hreference : ∀ e ∈ p.ty.components, e.isReference = false := by
    simpa [borrows_eq] using collectParameter_borrows hparameter
  exact ⟨hreference, Ty.isOwned_iff_held hreference⟩

/-- A service whose deferred method borrows in signatures and for ever only. -/
def ownedSource : String :=
  "#[remote_service]\n#[async_trait]\ntrait Api: Send + Sync \x7b
    async fn put(&self, key: (String, (u8)), f: Box<dyn Fn(&str)>,
      n: [&'static str; 2]) -> u8;
\x7d\n"

theorem put_arguments_owned :
    ∃ u, Universe.ofSources [("api.rs", ownedSource)] = .ok u ∧
      ∃ d ∈ scan u Config.default.marker, ∃ i,
        classifyInterface .default (.ofUniverse u) d = .ok i ∧
        ∃ o ∈ i.operations, o.shape = .deferredValue ∧ o.parameters.length = 3 ∧
          ∀ p ∈ o.parameters, p.ty.IsOwned := by
  have hread : describedAs "api.rs" ownedSource.toList fun i => i.operations.any fun o =>
      decide (o.shape = .deferredValue ∧ o.parameters.length = 3 ∧
        ∀ p ∈ o.parameters, ∀ e ∈ p.ty.components, ∀ x ∈ (Phrase.ty e).held,
          x.isOwnedTo 8 = true) := by
    unfold ownedSource
    rw [toList_of_ofList rfl]
    decide +kernel
  obtain ⟨u, hu, d, hd, i, hi, hoperations⟩ := exists_of_describedAs hread
  obtain ⟨o, ho, howned⟩ := List.any_eq_true.1 hoperations
  obtain ⟨hshape, hlength, howned⟩ := of_decide_eq_true howned
  refine ⟨u, hu, d, hd, i, hi, o, ho, hshape, hlength, fun p hp => ?_⟩
  refine (deferred_arguments_owned_iff hi o ho hshape p hp).2.2 fun e he x hx => ?_
  exact Phrase.isOwned_of_isOwnedTo (howned p hp e he x hx)

/-- A service whose deferred method takes a list of borrowed texts. -/
def borrowingSource : String :=
  "#[remote_service]\n#[async_trait]\ntrait Api: Send + Sync \x7b
    async fn put(&self, items: Vec<&str>) -> u8;
\x7d\n"

theorem nested_borrow_accepted :
    ∃ u, Universe.ofSources [("api.rs", borrowingSource)] = .ok u ∧
      ∃ d ∈ scan u Config.default.marker, ∃ i,
        classifyInterface .default (.ofUniverse u) d = .ok i ∧
        ∃ o ∈ i.operations, o.shape = .deferredValue ∧ ∃ p ∈ o.parameters, ¬ p.ty.IsOwned := by
  -- the argument of the first name, as the first argument in its brackets
  have hread : describedAs "api.rs" borrowingSource.toList fun i => i.operations.any fun o =>
      decide (o.shape = .deferredValue) &&
        o.parameters.any fun p => ((Phrase.ty p.ty).heldAt? [0, 0, 0]).any Phrase.isBorrow := by
    unfold borrowingSource
    rw [toList_of_ofList rfl]
    decide +kernel
  obtain ⟨u, hu, d, hd, i, hi, hoperations⟩ := exists_of_describedAs hread
  obtain ⟨o, ho, hborrows⟩ := List.any_eq_true.1 hoperations
  rw [Bool.and_eq_true, decide_eq_true_iff] at hborrows
  obtain ⟨p, hp, hborrow⟩ := List.any_eq_true.1 hborrows.2
  obtain ⟨x, hx, hborrow⟩ := (Option.any_eq_true _ _).1 hborrow
  refine ⟨u, hu, d, hd, i, hi, o, ho, hborrows.1, p, hp, ?_⟩
  intro howned
  rw [howned _ x hx] at hborrow
  cases hborrow

end WrapperGen
