import WrapperGen.Source.Ty
/-!
# Phrases in phrases

What a type is made of, at any depth. A phrase has constituents in the order of the text
(`children`), so everything in it has an address, the numbers of the constituents that lead there.
Addresses are ordered as lists: what is outside comes before what is in it, and otherwise the text
decides. The list of the type paths in a type holds each where it is written, in this order
(`Phrase.listed`).
-/

namespace WrapperGen

/-! ## Lists in the order of addresses -/

/-- What `At` puts somewhere are the members of `xs`, in the order of these addresses. -/
structure ListedBy {α : Type} (At : List Nat → α → Prop) (places : List (List Nat × α))
    (xs : List α) : Prop where
  members : places.map (·.2) = xs
  sorted : places.Pairwise fun p p' => p.1 < p'.1
  mem : ∀ a x, (a, x) ∈ places ↔ At a x

def Listed {α : Type} (At : List Nat → α → Prop) (xs : List α) : Prop :=
  ∃ places, ListedBy At places xs

/-- Where something is below the members of a list: first the number of the member, counted from
`start`. -/
def Below {α β : Type} (At : α → List Nat → β → Prop) (start : Nat) (xs : List α)
    (address : List Nat) (y : β) : Prop :=
  ∃ i x rest, address = (start + i) :: rest ∧ xs[i]? = some x ∧ At x rest y

section Below

variable {α β : Type} {At : α → List Nat → β → Prop} {start : Nat} {xs : List α} {y : β}

theorem not_below_nil : ¬ Below At start xs [] y := by
  rintro ⟨i, x, rest, haddress, -⟩
  cases haddress

theorem below_address {i : Nat} {rest : List Nat} :
    Below At 0 xs (i :: rest) y ↔ ∃ x, xs[i]? = some x ∧ At x rest y := by
  constructor
  · rintro ⟨j, x, rest', haddress, hx, hat⟩
    obtain ⟨rfl, rfl⟩ := List.cons.inj haddress
    exact ⟨x, by rwa [Nat.zero_add], hat⟩
  · rintro ⟨x, hx, hat⟩
    exact ⟨i, x, rest, by rw [Nat.zero_add], hx, hat⟩

theorem below_cons {x : α} {address : List Nat} :
    Below At start (x :: xs) address y ↔
      (∃ rest, address = start :: rest ∧ At x rest y) ∨ Below At (start + 1) xs address y := by
  constructor
  · rintro ⟨i, x', rest, haddress, hx', hat⟩
    cases i with
    | zero =>
      cases hx'
      exact .inl ⟨rest, haddress, hat⟩
    | succ i => exact .inr ⟨i, x', rest, by rw [haddress, Nat.add_assoc, Nat.add_comm 1], hx', hat⟩
  · rintro (⟨rest, haddress, hat⟩ | ⟨i, x', rest, haddress, hx', hat⟩)
    · exact ⟨0, x, rest, haddress, rfl, hat⟩
    · exact ⟨i + 1, x', rest, by rw [haddress, Nat.add_assoc, Nat.add_comm 1], hx', hat⟩

end Below

namespace Listed

variable {α β : Type}

theorem congr {At At' : List Nat → α → Prop} {xs : List α} (h : Listed At xs)
    (hsame : ∀ a x, At a x ↔ At' a x) : Listed At' xs := by
  obtain ⟨places, hplaces⟩ := h
  exact ⟨places, hplaces.members, hplaces.sorted, fun a x => (hplaces.mem a x).trans (hsame a x)⟩

/-- The lists of the members of a list, one after the other. -/
theorem below {At : α → List Nat → β → Prop} {f : α → List β} {xs : List α}
    (h : ∀ x ∈ xs, Listed (At x) (f x)) (start : Nat) :
    Listed (Below At start xs) (xs.flatMap f) := by
  induction xs generalizing start with
  | nil =>
    refine ⟨[], rfl, .nil, fun a y => ⟨fun hmem => absurd hmem List.not_mem_nil, ?_⟩⟩
    rintro ⟨i, x, rest, -, hx, -⟩
    cases hx
  | cons x xs ih =>
    obtain ⟨head, hhead⟩ := h x (.head _)
    obtain ⟨tail, htail⟩ := ih (fun x' hx' => h x' (.tail _ hx')) (start + 1)
    refine ⟨head.map (fun p => (start :: p.1, p.2)) ++ tail, ?_, ?_, fun a y => ?_⟩
    · rw [List.map_append, List.map_map, htail.members, List.flatMap_cons, ← hhead.members]
      rfl
    · rw [List.pairwise_append, List.pairwise_map]
      refine ⟨hhead.sorted.imp fun hlt => List.cons_lt_cons_iff.2 (.inr ⟨rfl, hlt⟩),
        htail.sorted, ?_⟩
      rintro p hp ⟨a', y'⟩ hp'
      obtain ⟨q, -, rfl⟩ := List.mem_map.1 hp
      obtain ⟨i, x', rest, rfl, -, -⟩ := (htail.mem a' y').1 hp'
      exact List.cons_lt_cons_iff.2 (.inl (by omega))
    · rw [List.mem_append, htail.mem, below_cons]
      refine or_congr_left ⟨fun hmem => ?_, ?_⟩
      · obtain ⟨q, hq, heq⟩ := List.mem_map.1 hmem
        cases heq
        exact ⟨q.1, rfl, (hhead.mem q.1 q.2).1 hq⟩
      · rintro ⟨rest, rfl, hat⟩
        exact List.mem_map.2 ⟨(rest, y), (hhead.mem rest y).2 hat, rfl⟩

/-- Something at the top, before everything below. -/
theorem top {At : List Nat → α → Prop} {xs : List α} (x : Option α)
    (h : Listed At xs) (hbelow : ∀ y, ¬ At [] y) :
    Listed (fun a y => (a = [] ∧ x = some y) ∨ At a y) (x.toList ++ xs) := by
  obtain ⟨places, hplaces⟩ := h
  refine ⟨x.toList.map (([], ·)) ++ places, ?_, ?_, fun a y => ?_⟩
  · rw [List.map_append, hplaces.members, List.map_map]
    simp [Function.comp_def]
  · rw [List.pairwise_append, List.pairwise_map]
    refine ⟨by cases x <;> simp, hplaces.sorted, ?_⟩
    rintro p hp ⟨a', y'⟩ hp'
    obtain ⟨x', -, rfl⟩ := List.mem_map.1 hp
    have hat := (hplaces.mem a' y').1 hp'
    cases a' with
    | nil => exact absurd hat (hbelow y')
    | cons n a' => exact List.nil_lt_cons n a'
  · rw [List.mem_append, hplaces.mem]
    refine or_congr_left ⟨fun hmem => ?_, ?_⟩
    · obtain ⟨x', hx', heq⟩ := List.mem_map.1 hmem
      cases heq
      exact ⟨rfl, by simpa using hx'⟩
    · rintro ⟨rfl, rfl⟩
      simp

/-- What the members stand for, where they are. -/
theorem filterMap {At : List Nat → α → Prop} {xs : List α} (h : Listed At xs) (f : α → Option β) :
    Listed (fun a y => ∃ x, At a x ∧ f x = some y) (xs.filterMap f) := by
  obtain ⟨places, hplaces⟩ := h
  refine ⟨places.filterMap fun p => (f p.2).map (p.1, ·), ?_, ?_, fun a y => ?_⟩
  · rw [← hplaces.members, List.filterMap_map, List.map_filterMap]
    simp [Function.comp_def]
  · refine List.Pairwise.filterMap _ (fun p p' hlt q hq q' hq' => ?_) hplaces.sorted
    obtain ⟨y, -, rfl⟩ := Option.map_eq_some_iff.1 hq
    obtain ⟨y', -, rfl⟩ := Option.map_eq_some_iff.1 hq'
    exact hlt
  · simp only [List.mem_filterMap, Option.map_eq_some_iff, Prod.mk.injEq]
    constructor
    · rintro ⟨⟨a', x⟩, hmem, y', hy', rfl, rfl⟩
      exact ⟨x, (hplaces.mem _ x).1 hmem, hy'⟩
    · rintro ⟨x, hat, hy⟩
      exact ⟨(a, x), (hplaces.mem a x).2 hat, y, hy, rfl, rfl⟩

/-- There is one such list. -/
theorem unique {At : List Nat → α → Prop} {xs ys : List α} (hx : Listed At xs) (hy : Listed At ys) :
    xs = ys := by
  obtain ⟨places, rfl, hsorted, hmem⟩ := hx
  obtain ⟨places', rfl, hsorted', hmem'⟩ := hy
  have hnodup : ∀ {places : List (List Nat × α)}, (places.Pairwise fun p p' => p.1 < p'.1) →
      places.Nodup := fun hsorted => hsorted.imp fun {p p'} hlt (heq : p = p') =>
    List.lt_irrefl p'.1 (heq ▸ hlt)
  have hperm : places.Perm places' :=
    (List.perm_ext_iff_of_nodup (hnodup hsorted) (hnodup hsorted')).2 fun p =>
      (hmem p.1 p.2).trans (hmem' p.1 p.2).symm
  have hplaces := hperm.eq_of_pairwise
    (fun _ _ _ _ hlt hgt => absurd hgt (List.lt_asymm hlt)) hsorted hsorted'
  rw [hplaces]

end Listed

namespace Source

/-! ## Phrases -/

/-- A part of a type. -/
inductive Phrase
  | ty (t : Ty)
  | args (a : Args)
  | genericArg (a : GenericArg)
  | bound (b : Bound)
  | binder (b : Binder)
  | genericParam (p : GenericParam)
  | fnPointerParam (p : FnPointerParam)
  | node (n : Node)

/-- What the names of a path are applied to, one after the other. -/
def Path.phrases (p : Path) : List Phrase := p.segments.map (.args ·.args)

namespace Phrase

/-- The constituents of a phrase, in the order of the text. An invocation has none: what it stands
for is not known. -/
def children : Phrase → List Phrase
  | ty (.array e n) => [ty e, node n]
  | ty (.fnPointer b _ _ ps _ _ o) =>
    b.toList.map binder ++ ps.map fnPointerParam ++ o.toList.map ty
  | ty (.implTrait bs _) | ty (.traitObject _ bs _) => bs.map bound
  | ty (.infer) | ty (.never) | ty (.invocation _ _) | ty (.verbatim _) => []
  | ty (.paren e) | ty (.pointer _ e) | ty (.reference _ _ e) | ty (.slice e) => [ty e]
  | ty (.path p) => p.phrases
  | ty (.projection s _ p) => ty s :: p.phrases
  | ty (.tuple es _) => es.map ty
  | args .none => []
  | args (.angle _ as _) => as.map genericArg
  | args (.paren ts _ o) => ts.map ty ++ o.toList.map ty
  | genericArg (.lifetime _) => []
  | genericArg (.type t) => [ty t]
  | genericArg (.const n) => [node n]
  | genericArg (.assocType _ a t) => [args a, ty t]
  | genericArg (.assocConst _ a n) => [args a, node n]
  | genericArg (.constraint _ a bs _) => args a :: bs.map bound
  | bound (.trait _ _ b p) => b.toList.map binder ++ p.phrases
  | bound (.lifetime _) | bound (.capture _ _) | bound (.verbatim _) => []
  | binder ⟨ps, _⟩ => ps.map genericParam
  | genericParam (.lifetime _ _ _) => []
  | genericParam (.type _ _ bs d) => bs.map bound ++ d.toList.map ty
  | genericParam (.const _ _ t d) => ty t :: d.toList.map node
  | fnPointerParam ⟨_, _, t⟩ => [ty t]
  | node (.token _) => []
  | node (.group _ ns) | node (.form _ ns) => ns.map node
  | node (.type t) => [ty t]
  | node (.path p) => p.phrases
  | node (.projection s _ p) => ty s :: p.phrases
  | node (.args a) => [args a]
  | node (.binder b) => [binder b]

/-- What stands at an address in the phrase. -/
def at? (x : Phrase) : List Nat → Option Phrase
  | [] => some x
  | i :: rest => x.children[i]?.bind fun y => y.at? rest

/-- The path that the phrase itself is, if it is a type and nothing but a path. -/
def typePath? : Phrase → Option Path
  | ty (.path p) => some p
  | _ => none

/-- The type paths in the phrase, as they are collected. -/
def paths : Phrase → List Path
  | ty t => t.paths
  | args a => a.paths
  | genericArg a => a.paths
  | bound b => b.paths
  | binder b => b.paths
  | genericParam p => p.paths
  | fnPointerParam p => p.paths
  | node n => n.paths

/-! ## Sizes -/

section Sizes

variable {y : Phrase}

theorem sizeOf_mem_map {α : Type} [SizeOf α] {f : α → Phrase}
    (hf : ∀ a, sizeOf (f a) = 1 + sizeOf a) {as : List α} (h : y ∈ as.map f) :
    sizeOf y < 1 + sizeOf as := by
  obtain ⟨a, ha, rfl⟩ := List.mem_map.1 h
  have := List.sizeOf_lt_of_mem ha
  rw [hf]
  omega

theorem sizeOf_mem_toList {α : Type} [SizeOf α] {f : α → Phrase}
    (hf : ∀ a, sizeOf (f a) = 1 + sizeOf a) {o : Option α} (h : y ∈ o.toList.map f) :
    sizeOf y < 1 + sizeOf o := by
  obtain ⟨a, ha, rfl⟩ := List.mem_map.1 h
  cases Option.mem_toList.1 ha
  rw [hf, Option.some.sizeOf_spec]
  omega

theorem sizeOf_mem_phrases {p : Path} (h : y ∈ p.phrases) : sizeOf y < 1 + sizeOf p := by
  obtain ⟨leading, segments⟩ := p
  obtain ⟨⟨name, a⟩, hs, rfl⟩ := List.mem_map.1 h
  have := List.sizeOf_lt_of_mem hs
  rw [Segment.mk.sizeOf_spec] at this
  rw [args.sizeOf_spec, Path.mk.sizeOf_spec]
  dsimp only at this ⊢
  omega

/-- What a phrase is made of is smaller than it. -/
theorem sizeOf_children {x : Phrase} (h : y ∈ x.children) : sizeOf y < sizeOf x := by
  have hty : ∀ ts : List Ty, y ∈ ts.map ty → sizeOf y < 1 + sizeOf ts := fun _ =>
    sizeOf_mem_map fun _ => rfl
  have hty? : ∀ t : Option Ty, y ∈ t.toList.map ty → sizeOf y < 1 + sizeOf t := fun _ =>
    sizeOf_mem_toList fun _ => rfl
  have hargs : ∀ as : List GenericArg, y ∈ as.map genericArg → sizeOf y < 1 + sizeOf as := fun _ =>
    sizeOf_mem_map fun _ => rfl
  have hbounds : ∀ bs : List Bound, y ∈ bs.map bound → sizeOf y < 1 + sizeOf bs := fun _ =>
    sizeOf_mem_map fun _ => rfl
  have hbinder? : ∀ b : Option Binder, y ∈ b.toList.map binder → sizeOf y < 1 + sizeOf b := fun _ =>
    sizeOf_mem_toList fun _ => rfl
  have hgenerics : ∀ ps : List GenericParam, y ∈ ps.map genericParam → sizeOf y < 1 + sizeOf ps :=
    fun _ => sizeOf_mem_map fun _ => rfl
  have hparams : ∀ ps : List FnPointerParam, y ∈ ps.map fnPointerParam → sizeOf y < 1 + sizeOf ps :=
    fun _ => sizeOf_mem_map fun _ => rfl
  have hnodes : ∀ ns : List Node, y ∈ ns.map node → sizeOf y < 1 + sizeOf ns := fun _ =>
    sizeOf_mem_map fun _ => rfl
  have hnode? : ∀ n : Option Node, y ∈ n.toList.map node → sizeOf y < 1 + sizeOf n := fun _ =>
    sizeOf_mem_toList fun _ => rfl
  have hpath : ∀ p : Path, y ∈ p.phrases → sizeOf y < 1 + sizeOf p := fun _ => sizeOf_mem_phrases
  fun_cases children x
  all_goals simp only [children, List.mem_append, List.mem_cons, List.not_mem_nil, or_false] at h
  all_goals grind

end Sizes

/-! ## Collecting paths -/

theorem tysPaths_eq (ts : List Ty) : tysPaths ts = (ts.map ty).flatMap paths := by
  induction ts with
  | nil => rfl
  | cons t ts ih => rw [tysPaths, ih]; rfl

theorem segmentsPaths_eq (ss : List Segment) :
    segmentsPaths ss = (ss.map (args ·.args)).flatMap paths := by
  induction ss with
  | nil => rfl
  | cons s ss ih =>
    obtain ⟨name, args⟩ := s
    rw [segmentsPaths, Segment.argPaths, ih]
    rfl

theorem genericArgsPaths_eq (as : List GenericArg) :
    genericArgsPaths as = (as.map genericArg).flatMap paths := by
  induction as with
  | nil => rfl
  | cons a as ih => rw [genericArgsPaths, ih]; rfl

theorem boundsPaths_eq (bs : List Bound) : boundsPaths bs = (bs.map bound).flatMap paths := by
  induction bs with
  | nil => rfl
  | cons b bs ih => rw [boundsPaths, ih]; rfl

theorem genericParamsPaths_eq (ps : List GenericParam) :
    genericParamsPaths ps = (ps.map genericParam).flatMap paths := by
  induction ps with
  | nil => rfl
  | cons p ps ih => rw [genericParamsPaths, ih]; rfl

theorem paramsPaths_eq (ps : List FnPointerParam) :
    paramsPaths ps = (ps.map fnPointerParam).flatMap paths := by
  induction ps with
  | nil => rfl
  | cons p ps ih => rw [paramsPaths, ih]; rfl

theorem nodesPaths_eq (ns : List Node) : nodesPaths ns = (ns.map node).flatMap paths := by
  induction ns with
  | nil => rfl
  | cons n ns ih => rw [nodesPaths, ih]; rfl

theorem binderPaths_eq (b : Option Binder) :
    binderPaths b = (b.toList.map binder).flatMap paths := by
  cases b <;> simp [binderPaths, paths]

theorem outputPaths_eq (t : Option Ty) : outputPaths t = (t.toList.map ty).flatMap paths := by
  cases t <;> simp [outputPaths, paths]

theorem defaultPaths_eq (n : Option Node) :
    defaultPaths n = (n.toList.map node).flatMap paths := by
  cases n <;> simp [defaultPaths, paths]

theorem argPaths_eq (p : Path) : p.argPaths = p.phrases.flatMap paths := by
  obtain ⟨leading, segments⟩ := p
  rw [Path.argPaths, segmentsPaths_eq]
  rfl

/-- A phrase's paths are the path that it is and those of its constituents. -/
theorem paths_eq (x : Phrase) : x.paths = x.typePath?.toList ++ x.children.flatMap paths := by
  fun_cases children x
  all_goals simp [typePath?, paths, Ty.paths, Args.paths, GenericArg.paths, Bound.paths,
    Binder.paths, GenericParam.paths, FnPointerParam.paths, Node.paths, tysPaths_eq,
    genericArgsPaths_eq, boundsPaths_eq, genericParamsPaths_eq, paramsPaths_eq, nodesPaths_eq,
    binderPaths_eq, outputPaths_eq, defaultPaths_eq, argPaths_eq]

/-! ## Paths in order -/

theorem typePath?_eq_some {x : Phrase} {p : Path} : x.typePath? = some p ↔ x = ty (.path p) := by
  unfold typePath?
  split
  · simp
  · rename_i hpath
    simpa using hpath p

/-- The type paths of a phrase are those that stand somewhere in it, in order. -/
theorem listed (x : Phrase) : Listed (fun a p => x.at? a = some (ty (.path p))) x.paths := by
  have hbelow : Listed (Below (fun y a p => y.at? a = some (ty (.path p))) 0 x.children)
      (x.children.flatMap paths) := Listed.below (fun y hy => listed y) 0
  rw [paths_eq]
  refine (hbelow.top x.typePath? ?_).congr fun a p => ?_
  · exact fun p => not_below_nil
  cases a with
  | nil => simp [at?, not_below_nil, typePath?_eq_some]
  | cons i rest => simp [at?, below_address, Option.bind_eq_some_iff]
termination_by sizeOf x
decreasing_by exact sizeOf_children hy

end Phrase

end Source

end WrapperGen
