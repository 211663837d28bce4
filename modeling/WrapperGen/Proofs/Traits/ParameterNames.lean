import Mathlib.Data.List.Sigma
import WrapperGen.Proofs.Traits.Descriptions
import WrapperGen.Proofs.Types.Spelling
import WrapperGen.Service.Emit
/-!
# The names that a wrapper binds

A wrapper names its parameters after those of the method, or after their places, and its callback
with a name of its own. `wrapper_names_distinct_iff`: when no two of these names are the same
identifier. The classifier keeps only the plain spelling of the callback's name free, and names made
from places not at all.
-/

namespace WrapperGen

open Source

/-! ## Identifiers -/

/-- A name that means a plain identifier is its plain or its raw spelling. -/
theorem unraw_spellings {n word : String} (h : unraw n = word) : n = word ∨ n = "r#" ++ word := by
  unfold unraw at h
  split at h
  · rename_i rest hraw
    right
    apply String.toList_inj.1
    simp [hraw, ← h, String.toList_append]
  · left
    exact h

/-- The name of a parameter whose pattern does not give it one. -/
def placeName (place : Nat) : String := "arg" ++ toString place

theorem placeName_inj {k l : Nat} (h : placeName k = placeName l) : k = l := by
  have hdigits : Nat.toDigits 10 k = Nat.toDigits 10 l := by
    simpa [placeName, String.toList_append] using congrArg String.toList h
  rw [← Nat.ofDigitChars_toDigits (b := 10) (n := k) (by decide) (by decide), hdigits,
    Nat.ofDigitChars_toDigits (by decide) (by decide)]

theorem unraw_placeName (place : Nat) : unraw (placeName place) = placeName place := by
  unfold unraw placeName
  split
  · rename_i hraw
    simp [String.toList_append] at hraw
  · rfl

theorem placeName_ne_callbackName (place : Nat) : placeName place ≠ callbackName := by
  intro h
  have hchars := congrArg String.toList h
  simp [placeName, callbackName, String.toList_append] at hchars

/-! ## The names in a signature -/

namespace Source.Signature

/-- The names that parameters besides `self` give to their whole arguments, in order. -/
def boundNames (s : Signature) : List String :=
  s.typedInputs.filterMap fun input => boundName? input.1

/-- The places of the parameters without such a name, counted from zero and without `self`. -/
def unnamedPlaces (s : Signature) : List Nat :=
  s.typedInputs.zipIdx.filterMap fun (input, place) =>
    if (boundName? input.1).isNone then some place else none

/-- No parameter has a name that its wrapper needs for something else: for the callback, in raw
spelling, or for a parameter without a name. -/
structure LeavesRoom (s : Signature) : Prop where
  callback : "r#" ++ callbackName ∉ s.boundNames
  places : ∀ place ∈ s.unnamedPlaces, ∀ n ∈ s.boundNames, unraw n ≠ placeName place

instance (s : Signature) : Decidable s.LeavesRoom :=
  decidable_of_iff (_ ∧ _) ⟨fun h => ⟨h.1, h.2⟩, fun h => ⟨h.callback, h.places⟩⟩

variable {s : Signature}

theorem mem_boundNames_iff {n : String} : n ∈ s.boundNames ↔
    ∃ e ∈ s.typedInputs.zipIdx, boundName? e.1.1 = some n := by
  rw [boundNames, List.mem_filterMap]
  constructor
  · rintro ⟨input, hinput, hn⟩
    obtain ⟨k, hk, rfl⟩ := List.getElem_of_mem hinput
    exact ⟨(s.typedInputs[k], k), List.mk_mem_zipIdx_iff_getElem?.2 (by simp), hn⟩
  · rintro ⟨e, he, hn⟩
    exact ⟨e.1, List.fst_mem_of_mem_zipIdx he, hn⟩

theorem mem_unnamedPlaces_iff {place : Nat} : place ∈ s.unnamedPlaces ↔
    ∃ e ∈ s.typedInputs.zipIdx, boundName? e.1.1 = none ∧ e.2 = place := by
  simp [unnamedPlaces, List.mem_filterMap]

end Source.Signature

/-! ## The names of a wrapper -/

/-- The name that a wrapper gives to the parameter with this pattern at this place. -/
def wrapperName (pattern : Node) (place : Nat) : String :=
  (boundName? pattern).getD (placeName place)

theorem collectParameter_wrapperName {method : String} {isAsync : Bool} {place : Nat}
    {pattern : Node} {ty : Ty} {p : Parameter}
    (h : collectParameter method isAsync place pattern ty = .ok p) :
    wrapperName pattern place = p.name ∧ p.name ≠ callbackName := by
  unfold collectParameter at h
  dsimp only at h
  split at h
  · cases h
  rename_i hreserved
  split at h
  · cases h
  split at h
  · cases h
  cases h
  exact ⟨rfl, by simpa using hreserved⟩

theorem operation_names {c : Config} {r : Resolver} {s : Scope} {m : Method} {o : Operation}
    (h : classifyOperation c r s m = .ok o) :
    m.signature.typedInputs.zipIdx.map (fun e => wrapperName e.1.1 e.2) =
        o.parameters.map (·.name) ∧
      ∀ p ∈ o.parameters, p.name ≠ callbackName := by
  have hall := mapM_forall₂ (classifyOperation_parameters h)
  constructor
  · rw [← List.forall₂_eq_eq_eq, List.forall₂_map_left_iff, List.forall₂_map_right_iff]
    exact hall.imp fun e p hp => (collectParameter_wrapperName hp).1
  · intro p hp
    obtain ⟨e, -, hp⟩ := forall₂_mem_right hall p hp
    exact (collectParameter_wrapperName hp).2

/-- Two elements that give the same value are one, if no value is given twice. -/
theorem eq_of_nodup_filterMap {α β : Type} {g : α → Option β} {l : List α}
    (h : (l.filterMap g).Nodup) {x y : α} (hx : x ∈ l) (hy : y ∈ l) {b : β} (hgx : g x = some b)
    (hgy : g y = some b) : x = y := by
  have : Std.Symm fun x y => ∀ b, g x = some b → ∀ b', g y = some b' → b ≠ b' :=
    ⟨fun _ _ h b hb b' hb' => (h b' hb' b hb).symm⟩
  by_contra hne
  exact (List.pairwise_filterMap.1 h).forall hx hy hne b hgx b hgy rfl

theorem boundName?_binding (name : String) : boundName? (.binding name) = some name := rfl

theorem signature_boundNames (runtime : Path) (o : Operation) :
    (Emit.signature runtime o).boundNames = o.parameters.map (·.name) ++ [callbackName] := by
  simp [Signature.boundNames, Signature.typedInputs, Emit.signature, Emit.selfInput,
    Emit.parameterInput, Emit.blockInput, boundName?_binding, List.filterMap_append,
    List.filterMap_map, Function.comp_def]

theorem bound_ne_placeName {s : Signature} (hroom : s.LeavesRoom) {e e' : (Node × Ty) × Nat}
    (he : e ∈ s.typedInputs.zipIdx) (he' : e' ∈ s.typedInputs.zipIdx) {n : String}
    (hn : boundName? e.1.1 = some n) (hn' : boundName? e'.1.1 = none) :
    unraw n ≠ placeName e'.2 := by
  apply hroom.places
  · exact Signature.mem_unnamedPlaces_iff.2 ⟨e', he', hn', rfl⟩
  · exact Signature.mem_boundNames_iff.2 ⟨e, he, hn⟩

/-- Two parameters of a method get different names, if the method leaves room. -/
theorem wrapperName_inj {s : Signature} (hown : (s.boundNames.map unraw).Nodup)
    (hroom : s.LeavesRoom) {e e' : (Node × Ty) × Nat} (he : e ∈ s.typedInputs.zipIdx)
    (he' : e' ∈ s.typedInputs.zipIdx)
    (heq : unraw (wrapperName e.1.1 e.2) = unraw (wrapperName e'.1.1 e'.2)) : e = e' := by
  unfold wrapperName at heq
  cases hn : boundName? e.1.1 with
  | some n =>
    cases hn' : boundName? e'.1.1 with
    | some n' =>
      simp only [hn, hn', Option.getD_some] at heq
      rw [Signature.boundNames, List.map_filterMap, ← List.zipIdx_map_fst 0 s.typedInputs,
        List.filterMap_map] at hown
      apply eq_of_nodup_filterMap hown he he' (b := unraw n)
      · simp [hn]
      · simp [hn', heq]
    | none =>
      simp only [hn, hn', Option.getD_some, Option.getD_none, unraw_placeName] at heq
      exact absurd heq (bound_ne_placeName hroom he he' hn hn')
  | none =>
    cases hn' : boundName? e'.1.1 with
    | some n' =>
      simp only [hn, hn', Option.getD_some, Option.getD_none, unraw_placeName] at heq
      exact absurd heq.symm (bound_ne_placeName hroom he' he hn' hn)
    | none =>
      simp only [hn, hn', Option.getD_none, unraw_placeName] at heq
      have hplace := placeName_inj heq
      -- there is one parameter at each place
      have hget := List.mem_zipIdx_iff_getElem?.1 he
      rw [hplace, List.mem_zipIdx_iff_getElem?.1 he'] at hget
      exact Prod.ext (Option.some.inj hget).symm hplace

/-- The identifiers of a wrapper's parameters, in order. -/
def wrapperIdents (s : Signature) : List String :=
  s.typedInputs.zipIdx.map fun e => unraw (wrapperName e.1.1 e.2)

theorem wrapperIdents_nodup_iff {s : Signature} (hown : (s.boundNames.map unraw).Nodup)
    (hcallback : "r#" ++ callbackName ∉ s.boundNames) :
    (wrapperIdents s).Nodup ↔ s.LeavesRoom := by
  constructor
  · intro hnodup
    refine ⟨hcallback, fun place hplace n hn heq => ?_⟩
    obtain ⟨e, he, hnone, rfl⟩ := Signature.mem_unnamedPlaces_iff.1 hplace
    obtain ⟨e', he', hsome⟩ := Signature.mem_boundNames_iff.1 hn
    have hsame : e' = e := by
      apply List.inj_on_of_nodup_map hnodup he' he
      simp [wrapperName, hnone, hsome, heq, unraw_placeName]
    rw [hsame, hnone] at hsome
    cases hsome
  · intro hroom
    have hplaces : s.typedInputs.zipIdx.Nodup := .of_map Prod.snd (List.nodup_zipIdx_map_snd _)
    exact hplaces.map_on fun e he e' he' heq => wrapperName_inj hown hroom he he' heq

/-- The callback's name is another identifier than those of the parameters, if none of them is its
raw spelling. -/
theorem callbackName_mem_wrapperIdents {s : Signature}
    (hreserved : ∀ e ∈ s.typedInputs.zipIdx, wrapperName e.1.1 e.2 ≠ callbackName) :
    callbackName ∈ wrapperIdents s ↔ "r#" ++ callbackName ∈ s.boundNames := by
  rw [wrapperIdents, List.mem_map, Signature.mem_boundNames_iff]
  refine exists_congr fun e => and_congr_right fun he => ?_
  have hplain := hreserved e he
  unfold wrapperName at hplain ⊢
  cases hbound : boundName? e.1.1 with
  | none => simp [unraw_placeName, placeName_ne_callbackName]
  | some n =>
    simp only [hbound, Option.getD_some, Option.some_inj] at hplain ⊢
    constructor
    · intro heq
      exact (unraw_spellings heq).resolve_left hplain
    · rintro rfl
      decide +kernel

/-- **The names of a wrapper are distinct.** For every method that is described, with whatever
settings and in whatever universe: if its own names are different identifiers, then so are those of
its wrapper, the callback's included, exactly if none of its own names is the callback's in raw
spelling or one that is made for another of its parameters. -/
theorem wrapper_names_distinct_iff {c : Config} {r : Resolver} {s : Scope} {m : Method}
    {o : Operation} (h : classifyOperation c r s m = .ok o)
    (hown : (m.signature.boundNames.map unraw).Nodup) (runtime : Path) :
    (Emit.signature runtime o).boundNames = o.parameters.map (·.name) ++ [callbackName] ∧
      (((Emit.signature runtime o).boundNames.map unraw).Nodup ↔ m.signature.LeavesRoom) := by
  refine ⟨signature_boundNames runtime o, ?_⟩
  obtain ⟨hnames, hreserved⟩ := operation_names h
  have hidents : (o.parameters.map (·.name)).map unraw = wrapperIdents m.signature := by
    rw [← hnames, List.map_map]
    rfl
  have hreserved' : ∀ e ∈ m.signature.typedInputs.zipIdx, wrapperName e.1.1 e.2 ≠ callbackName := by
    rw [← List.forall_mem_map (P := (· ≠ callbackName)), hnames]
    simpa using hreserved
  have hcallback := callbackName_mem_wrapperIdents hreserved'
  have hplain : unraw callbackName = callbackName := by decide +kernel
  rw [signature_boundNames, List.map_append, hidents, List.nodup_append_comm, List.map_singleton,
    List.singleton_append, List.nodup_cons, hplain, hcallback]
  constructor
  · rintro ⟨hraw, hnodup⟩
    exact (wrapperIdents_nodup_iff hown hraw).1 hnodup
  · intro hroom
    exact ⟨hroom.callback, (wrapperIdents_nodup_iff hown hroom.callback).2 hroom⟩

/-- A method whose own name is made from a place, but not from one that lacks a name. -/
def placedSource : String :=
  "trait Api \x7b fn put(&self, r#arg0: u8, _: u16, _: u32) -> u8; \x7d"

theorem placed_names_distinct :
    ∃ t, Trait.parse placedSource = .ok t ∧ ∃ m ∈ t.methods, ∃ o,
      classifyOperation .default (.ofUniverse .empty) ⟨"crate::api", []⟩ m = .ok o ∧
      (m.signature.boundNames.map unraw).Nodup ∧
      o.parameters.map (·.name) = ["r#arg0", "arg1", "arg2"] ∧
      ((Emit.signature Config.default.runtime o).boundNames.map unraw).Nodup := by
  have hread : (Trait.parse placedSource).toOption.any fun t => t.methods.any fun m =>
      (classifyOperation .default (.ofUniverse .empty) ⟨"crate::api", []⟩ m).toOption.any fun o =>
        decide ((m.signature.boundNames.map unraw).Nodup ∧ m.signature.LeavesRoom ∧
          o.parameters.map (·.name) = ["r#arg0", "arg1", "arg2"]) := by decide +kernel
  obtain ⟨t, ht, hmethods⟩ := (Option.any_eq_true _ _).1 hread
  obtain ⟨m, hm, hclassify⟩ := List.any_eq_true.1 hmethods
  obtain ⟨o, ho, hnames⟩ := (Option.any_eq_true _ _).1 hclassify
  obtain ⟨hown, hroom, hnames⟩ := of_decide_eq_true hnames
  have ho := toOption_eq_some.1 ho
  exact ⟨t, toOption_eq_some.1 ht, m, hm, o, ho, hown, hnames,
    (wrapper_names_distinct_iff ho hown _).2.2 hroom⟩

/-- A service whose method has a name made from the place of its other parameter. -/
def clashSource : String :=
  "#[remote_service]\ntrait Api: Send + Sync \x7b\n" ++
  "    fn put(&self, arg1: u8, _: u16) -> u8;\n" ++
  "\x7d\n"

theorem place_name_clashes :
    ∃ u, Universe.ofSources [("api.rs", clashSource)] = .ok u ∧
      ∃ d ∈ scan u Config.default.marker, ∃ m ∈ d.item.methods, ∃ o,
        classifyOperation .default (.ofUniverse u) ⟨d.packageName, []⟩ m = .ok o ∧
        (m.signature.boundNames.map unraw).Nodup ∧
        ¬ ((o.parameters.map (·.name) ++ [callbackName]).map unraw).Nodup := by
  have hread : (Universe.ofSources [("api.rs", clashSource)]).toOption.any fun u =>
      (scan u Config.default.marker).any fun d => d.item.methods.any fun m =>
        (classifyOperation .default (.ofUniverse u) ⟨d.packageName, []⟩ m).toOption.any fun o =>
          decide ((m.signature.boundNames.map unraw).Nodup ∧
            ¬ ((o.parameters.map (·.name) ++ [callbackName]).map unraw).Nodup) := by
    decide +kernel
  obtain ⟨u, hu, hscan⟩ := (Option.any_eq_true _ _).1 hread
  obtain ⟨d, hd, hmethods⟩ := List.any_eq_true.1 hscan
  obtain ⟨m, hm, hclassify⟩ := List.any_eq_true.1 hmethods
  obtain ⟨o, ho, hnames⟩ := (Option.any_eq_true _ _).1 hclassify
  exact ⟨u, toOption_eq_some.1 hu, d, hd, m, hm, o, toOption_eq_some.1 ho, of_decide_eq_true hnames⟩

end WrapperGen
