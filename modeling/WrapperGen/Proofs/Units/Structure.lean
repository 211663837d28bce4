import WrapperGen.Proofs.Rounds.Units
import WrapperGen.Proofs.Units.Bodies
import WrapperGen.Proofs.Units.ReadBack
/-!
# The structure of a unit

`emitted_structure`: what is emitted is a trait and its implementation, method for method as the
operations of the service demand, and this is what the source reads as. The generator writes a unit
only if its tokens read as a file, so names need not be assumed to be names: reading the unit once
with nothing known of types and bodies (`emitted_outlines`) gives the names, and these make the
bodies read back.
-/

namespace WrapperGen

open Source Grammar

/-- A service all of whose names and types are read back as they are written. -/
structure Interface.IsRead (i : Interface) : Prop where
  visibility : i.visibility.IsPlain
  simpleName : isName i.simpleName
  parameters : ∀ o ∈ i.operations, ∀ p ∈ o.parameters, isName p.name ∧ p.ty.IsRead
  payloads : ∀ o ∈ i.operations, o.payload.IsRead

namespace Emit

variable {c : Config} {i : Interface} {u : GeneratedUnit} {runtime : Path} {o : Operation}

/-! ## What a unit has to be -/

/-- `fn name(&self, parameters, block: impl FnOnce(&mut Continuation<payload>))`. -/
def wrapperSignature (runtime : Path) (o : Operation) : Signature :=
  let continuation := Ty.path ⟨runtime.leading,
    runtime.segments ++ [⟨"Continuation", .angle false [.type o.payload] false⟩]⟩
  .plain o.name (.borrowedSelf :: o.parameters.map (fun p => .typed [] (.binding p.name) p.ty) ++
    [.typed [] (.binding "block") (.onceOf (.reference none true continuation))], false, [])

/-- The trait `t` and the implementation `m` are the wrappers of the service `i`. -/
structure Wraps (c : Config) (i : Interface) (t : Trait) (m : Implementation) : Prop where
  name : t.name = c.unitName i.simpleName
  vis : t.vis = i.visibility
  implements : m.trait = some (.single t.name)
  self : m.self = .path (c.runtime.child "ServiceDsl")
  declared : t.members = i.operations.map fun o =>
    .method ⟨[], .inherited, wrapperSignature c.runtime o, none⟩
  defined : List.Forall₂ (fun o member => ∃ ns before inside after,
    member = .method ⟨[], .inherited, wrapperSignature c.runtime o, some ns⟩ ∧
      CutAtBoundary c.runtime i.simpleName o ns before inside after) i.operations m.members

/-- The trait `t` and the implementation `m` have a wrapper for each operation of the service `i`,
whatever its parameters and its body are. -/
structure Outlines (c : Config) (i : Interface) (t : Trait) (m : Implementation) : Prop where
  name : t.name = c.unitName i.simpleName
  implements : m.trait = some (.single t.name)
  self : m.self = .path (c.runtime.child "ServiceDsl")
  declared : List.Forall₂ (fun o member => ∃ inputs,
    member = .method ⟨[], .inherited, .plain o.name inputs, none⟩) i.operations t.members
  defined : List.Forall₂ (fun o member => ∃ attrs inputs ns,
    member = .method ⟨attrs, .inherited, .plain o.name inputs, some ns⟩) i.operations m.members

/-! ## What is rendered -/

theorem signature_eq_wrapper (runtime : Path) (o : Operation) :
    signature runtime o = wrapperSignature runtime o := rfl

theorem render_wraps (c : Config) (i : Interface) :
    Wraps c i (render c.runtime i (c.unitName i.simpleName)).extension
      (render c.runtime i (c.unitName i.simpleName)).implementation where
  name := rfl
  vis := rfl
  implements := rfl
  self := rfl
  declared := rfl
  defined := by
    refine List.forall₂_map_right_iff.2 (List.forall₂_same.2 fun o _ => ?_)
    obtain ⟨before, inside, after, h⟩ := body_cutAtBoundary c.runtime i.simpleName o
    exact ⟨body c.runtime i.simpleName o, before, inside, after, rfl, h⟩

/-- What is emitted is what was rendered, and this was read. -/
theorem emit_source (h : emit c i = .ok u) :
    (∃ file, readTrees File.reader (render c.runtime i (c.unitName i.simpleName)).trees = .ok file) ∧
      u.source = header i ++ "\n\n" ++
        Layout.layout (render c.runtime i (c.unitName i.simpleName)).pieces := by
  unfold emit at h
  dsimp only at h
  split at h
  · cases h
  · simp only [bind, Except.bind, pure, Except.pure] at h
    split at h
    · cases h
    · rename_i file hread
      split at h
      · cases h
      · cases h
        exact ⟨⟨file, hread⟩, rfl⟩

/-! ## What is read -/

theorem render_outlines {file : File} (hruntime : c.runtime.IsWords)
    (hfile : readTrees File.reader (render c.runtime i (c.unitName i.simpleName)).trees = .ok file) :
    (∀ o ∈ i.operations, isName o.name) ∧
      ∃ t m, file.items = [.trait t, .impl m] ∧ Outlines c i t m := by
  have hunit := Reads.run (reads_unit hruntime (passes_any i.visibility)
    (J := fun _ _ => True) (D := fun _ _ => True) (fun _ _ _ _ _ _ _ _ => trivial)
    fun _ _ _ _ _ _ _ _ => trivial) hfile
  obtain ⟨_, _, hitems, ⟨-, v, ms, -, hdeclared, rfl⟩, ns, hdefined, rfl⟩ := hunit
  refine ⟨((List.forall₂_and_left _ _).1 hdeclared).1, _, _, hitems, ?_⟩
  constructor
  case name => rfl
  case implements => rfl
  case self => rfl
  case declared => exact hdeclared.imp fun _ _ ⟨_, inputs, _, heq⟩ => ⟨inputs, heq⟩
  case defined =>
    exact hdefined.imp fun _ _ ⟨_, inputs, body, _, _, heq⟩ => ⟨body.1, inputs, body.2, heq⟩

theorem inputs_isRead (hruntime : runtime.IsWords) (hpayload : o.payload.IsRead)
    (hparams : ∀ p ∈ o.parameters, isName p.name ∧ p.ty.IsRead) :
    Inputs (inputTrees runtime o) (· = (inputs runtime o, false, [])) := by
  have hcontinuation : (Ty.path (runtimeType runtime "Continuation" [o.payload])).IsRead :=
    Ty.isRead_applied hruntime.segments (by decide) (List.forall_mem_singleton.2 hpayload)
  refine inputs_typed (List.append_ne_nil_of_right_ne_nil _ (List.cons_ne_nil _ _)) fun j hj => ?_
  rcases List.mem_append.1 hj with hj | hj
  · obtain ⟨p, hp, rfl⟩ := List.mem_map.1 hj
    exact ⟨p.name, p.ty, rfl, hparams p hp⟩
  · cases List.mem_singleton.1 hj
    exact ⟨callbackName, _, rfl, by decide, Ty.isRead_onceOf (Ty.isRead_reference hcontinuation)⟩

theorem render_isRead {file : File} (hruntime : c.runtime.IsWords) (hi : i.IsRead)
    (hnames : ∀ o ∈ i.operations, isName o.name)
    (hfile : readTrees File.reader (render c.runtime i (c.unitName i.simpleName)).trees = .ok file) :
    file.items = [.trait (render c.runtime i (c.unitName i.simpleName)).extension,
      .impl (render c.runtime i (c.unitName i.simpleName)).implementation] := by
  have hunit := Reads.run (reads_unit hruntime hi.visibility.passes
    (fun o ho => inputs_isRead hruntime (hi.payloads o ho) (hi.parameters o ho))
    fun o ho => (body_areStatements hruntime hi.simpleName (hnames o ho)
      fun p hp => (hi.parameters o ho p hp).1).isBody) hfile
  obtain ⟨_, _, hitems, ⟨-, _, ms, rfl, hdeclared, rfl⟩, ns, hdefined, rfl⟩ := hunit
  have hms : i.operations.map (fun o => method (signature c.runtime o) none) = ms := by
    rw [← List.forall₂_eq_eq_eq, List.forall₂_map_left_iff]
    exact hdeclared.imp fun o _ ⟨_, _, ha, heq⟩ => by rw [heq, ha]; rfl
  have hns : i.operations.map (fun o =>
      method (signature c.runtime o) (some (body c.runtime i.simpleName o))) = ns := by
    rw [← List.forall₂_eq_eq_eq, List.forall₂_map_left_iff]
    exact hdefined.imp fun o _ ⟨_, _, _, ha, hb, heq⟩ => by rw [heq, ha, hb]; rfl
  rw [hitems, ← hms, ← hns]
  rfl

/-! ## What is emitted -/

/-- The source of a unit is that of a trait and its implementation, which wrap the service. As a
file it has these two items: with a wrapper for each operation in any case, and exactly as they were
written if the names and types of the service are read back. -/
theorem emitted_structure (hc : c.runtime.isPlain) (h : emit c i = .ok u) : ∃ t m,
    u.source = header i ++ "\n\n" ++
      Layout.layout (Layout.traitPieces t ++ Layout.implementationPieces m) ∧
    Wraps c i t m ∧
    ∃ file, readTrees File.reader (t.trees ++ m.trees) = .ok file ∧
      (∃ t' m', file.items = [.trait t', .impl m'] ∧ Outlines c i t' m') ∧
      (i.IsRead → file.items = [.trait t, .impl m]) := by
  have hruntime : c.runtime.IsWords := Config.runtime_isWords hc
  obtain ⟨⟨file, hfile⟩, hsource⟩ := emit_source h
  obtain ⟨hnames, hitems⟩ := render_outlines hruntime hfile
  exact ⟨_, _, hsource, render_wraps c i, file, hfile, hitems,
    fun hi => render_isRead hruntime hi hnames hfile⟩

/-- A service with an operation of each kind of result but one. -/
def shelf : Interface where
  qualifiedName := "crate::api::Shelf"
  packageName := "crate::api"
  simpleName := "Shelf"
  visibility := .pub
  origin := ⟨"src/api.rs"⟩
  operations :=
    [⟨"fetch", [⟨"id", .reference none false (.named "str")⟩], .asyncCallWrapper, .named "Item"⟩,
      ⟨"later", [⟨"id", .named "u64"⟩, ⟨"all", .named "bool"⟩], .deferredValue, .named "Item"⟩,
      ⟨"count", [], .bareValue, .named "usize"⟩]

theorem shelf_isRead : shelf.IsRead where
  visibility := .pub
  simpleName := by decide
  parameters := by
    have hstr : (Ty.named "str").IsRead := Ty.isRead_words (Path.isWords_single (by decide))
    simp only [shelf, List.forall_mem_cons, List.not_mem_nil, false_implies, implies_true, and_true]
    refine ⟨⟨by decide, Ty.isRead_reference hstr⟩, ⟨by decide, ?_⟩, ⟨by decide, ?_⟩⟩
    · exact Ty.isRead_words (Path.isWords_single (by decide))
    · exact Ty.isRead_words (Path.isWords_single (by decide))
  payloads := by
    simp only [shelf, List.forall_mem_cons, List.not_mem_nil, false_implies, implies_true, and_true]
    refine ⟨?_, ?_, ?_⟩ <;> exact Ty.isRead_words (Path.isWords_single (by decide))

theorem shelf_structure : Config.default.runtime.isPlain ∧ ∃ u, emit Config.default shelf = .ok u ∧
    ∃ t m, u.source = header shelf ++ "\n\n" ++
        Layout.layout (Layout.traitPieces t ++ Layout.implementationPieces m) ∧
      Wraps Config.default shelf t m ∧
      ∃ file, readTrees File.reader (t.trees ++ m.trees) = .ok file ∧
        file.items = [.trait t, .impl m] := by
  have hplain : Config.default.runtime.isPlain := by decide +kernel
  have hemit : (emit Config.default shelf).toOption.isSome = true := by decide +kernel
  obtain ⟨u, hu⟩ := Option.isSome_iff_exists.1 hemit
  have hu : emit Config.default shelf = .ok u := toOption_eq_some.1 hu
  obtain ⟨t, m, hsource, hwraps, file, hfile, -, hitems⟩ := emitted_structure hplain hu
  exact ⟨hplain, u, hu, t, m, hsource, hwraps, file, hfile, hitems shelf_isRead⟩

end Emit

end WrapperGen
