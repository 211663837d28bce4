import WrapperGen.Proofs.Source.Nesting
import WrapperGen.Proofs.Traits.Descriptions
import WrapperGen.Proofs.Types.Imports
/-!
# Where marked traits are

The scan and the table of declarations go through the items of a universe each on its own.
`scanned_where_declared`: the scan finds the marked traits at the top of files and in modules of any
depth, each once and in the order of the text, and what it finds is declared under the name that it
was found by and goes by its own name in its module. Only an import of that name, which comes before
a declaration, is in the way.
-/

namespace WrapperGen

open Files Source

/-! ## Names of traits -/

namespace Source

mutual
/-- The names of the traits in an item, at any depth of modules. -/
def Item.traitNames : Item → List String
  | .trait t => [t.name]
  | .module _ (some items) => Item.allTraitNames items
  | _ => []
def Item.allTraitNames : List Item → List String
  | [] => []
  | i :: is => Item.traitNames i ++ Item.allTraitNames is
end

namespace Item

/-- The traits in an item have names that are no keywords. -/
def IsNamed (i : Item) : Prop := ∀ n ∈ i.traitNames, isName n

theorem mem_allTraitNames {is : List Item} {n : String} :
    n ∈ allTraitNames is ↔ ∃ i ∈ is, n ∈ i.traitNames := by
  induction is with
  | nil => simp [allTraitNames]
  | cons i is ih => simp [allTraitNames, ih]

theorem isNamed_trait {t : Trait} (h : isName t.name) : IsNamed (.trait t) := by
  intro n hn
  rw [traitNames, List.mem_singleton] at hn
  exact hn ▸ h

theorem isNamed_module {name : String} {items : List Item} (h : ∀ i ∈ items, i.IsNamed) :
    IsNamed (.module name (some items)) := by
  intro n hn
  rw [traitNames, mem_allTraitNames] at hn
  obtain ⟨i, hi, hn⟩ := hn
  exact h i hi n hn

theorem isNamed_other {i : Item} (h : i.traitNames = []) : i.IsNamed := by
  intro n hn
  rw [h] at hn
  exact absurd hn List.not_mem_nil

end Item

namespace Grammar

variable {g : Grammar}

theorem traitRest_yields {attrs : List Attribute} {vis : Visibility} {unchecked auto : Bool}
    {n : String} {line : Nat} {generics : Generics} (hname : isName n) :
    Reader.Yields (g.traitRest attrs vis unchecked auto n line generics) Item.IsNamed := by
  unfold traitRest
  refine .after fun _ => .ite (.after fun _ => ?_) (.after fun _ => ?_)
  all_goals exact .after fun _ => .after fun _ => .pure (Item.isNamed_trait hname)

theorem traitItem_yields (attrs : List Attribute) :
    Reader.Yields (g.traitItem attrs) Item.IsNamed := by
  unfold traitItem
  refine .after fun _ => .after fun _ => .after fun _ => .after fun _ => .after fun _ => ?_
  exact Reader.Yields.name.bind fun n hn => .after fun _ => traitRest_yields hn

theorem traitOrAlias_yields (attrs : List Attribute) :
    Reader.Yields (g.traitOrAlias attrs) Item.IsNamed := by
  unfold traitOrAlias
  refine .after fun _ => .after fun _ => .after fun _ => Reader.Yields.name.bind fun n hn => ?_
  refine .after fun _ => .after fun _ => .ite (traitRest_yields hn) (.ite ?_ .failExpected)
  refine .after fun _ => .after fun _ => .after fun _ => .after fun _ => .pure ?_
  exact Item.isNamed_other rfl

theorem implItem_yields (attrs : List Attribute) :
    Reader.Yields (g.implItem attrs) Item.IsNamed := by
  unfold implItem
  -- however it is read, it ends in an implementation or in no item at all
  repeat' first
    | exact .pure (Item.isNamed_other rfl)
    | exact .failExpected
    | refine .after fun _ => ?_
    | refine .ite ?_ ?_

theorem moduleItem_yields (hitem : Reader.Yields g.item Item.IsNamed) :
    Reader.Yields g.moduleItem Item.IsNamed := by
  have hitems : Reader.Yields (Reader.within .brace (do
      let _ ← g.innerAttributes
      Reader.manyWhile (!·.isEmpty) g.item)) fun items => ∀ i ∈ items, i.IsNamed :=
    .within (.after fun _ => .manyWhile hitem)
  have hrest (n : String) : Reader.Yields (do
      let ts ← Reader.rest
      if peekOp ";" ts then
        let _ ← Reader.op ";"
        return .module n none
      else if peekGroup .brace ts then
        let items ← Reader.within .brace (do
          let _ ← g.innerAttributes
          Reader.manyWhile (!·.isEmpty) g.item)
        return .module n (some items)
      else Reader.failExpected ["`;`", "curly braces"]) Item.IsNamed := by
    refine .after fun ts => .ite ?_ (.ite ?_ .failExpected)
    · exact .after fun _ => .pure (Item.isNamed_other rfl)
    · exact hitems.bind fun items h => .pure (Item.isNamed_module h)
  unfold moduleItem
  refine .after fun _ => .after fun _ => .after fun _ => .after fun b => ?_
  exact .ite (.after hrest) (.after hrest)

theorem foreignModule_yields : Reader.Yields g.foreignModule Item.IsNamed := by
  unfold foreignModule
  refine .after fun _ => .after fun _ => .after fun _ => .ite (.after fun _ => ?_) ?_
  all_goals exact .after fun _ => .pure (Item.isNamed_other rfl)

theorem externItem_yields : Reader.Yields g.externItem Item.IsNamed := by
  have hend : Reader.Yields (do let _ ← Reader.op ";"; return .other) Item.IsNamed :=
    .after fun _ => .pure (Item.isNamed_other rfl)
  have hrenamed : Reader.Yields (do
      if ← Reader.test (peekWord "as") then
        let _ ← Reader.word "as"
        if ← Reader.test peekName then let _ ← Reader.name else let _ ← Reader.word "_"
      let _ ← Reader.op ";"
      return .other) Item.IsNamed :=
    .after fun _ => .ite (.after fun _ => .after fun _ =>
      .ite (.after fun _ => hend) (.after fun _ => hend)) hend
  unfold externItem
  refine .after fun _ => .after fun ts => ?_
  dsimp only
  refine .ite ?crate (.ite foreignModule_yields (.ite ?linked ?neither))
  case crate =>
    exact .after fun _ => .after fun _ => .after fun _ =>
      .ite (.after fun _ => hrenamed) (.after fun _ => hrenamed)
  case linked => exact .ite foreignModule_yields (.after fun _ => .failExpected)
  case neither => exact .after fun _ => .failExpected

theorem staticItem_yields : Reader.Yields g.staticItem Item.IsNamed := by
  have hend : Reader.Yields (do let _ ← Reader.op ";"; return .other) Item.IsNamed :=
    .after fun _ => .pure (Item.isNamed_other rfl)
  unfold staticItem
  refine .after fun _ => .after fun _ => .after fun _ => .after fun _ => .after fun _ => ?_
  refine .ite (.after fun _ => hend) (.after fun _ => .after fun _ => .after fun _ => ?_)
  exact .ite (.after fun _ => .after fun _ => hend) hend

theorem definitionItem_yields : Reader.Yields definitionItem Item.IsNamed := by
  have hbody (names : List String) : Reader.Yields (do
      if ← Reader.test (peekGroup .brace) then
        let _ ← Reader.within .brace Reader.takeAll
        return .other
      else Reader.failExpected names) Item.IsNamed :=
    .after fun _ => .ite (.after fun _ => .pure (Item.isNamed_other rfl)) .failExpected
  unfold definitionItem
  refine .after fun _ => .after fun _ => .after fun _ => .after fun _ => ?_
  exact .ite (.after fun _ => hbody _) (hbody _)

theorem itemWith_yields (hitem : Reader.Yields g.item Item.IsNamed) :
    Reader.Yields g.itemWith Item.IsNamed := by
  unfold itemWith
  refine .after fun attrs => .after fun start => .after fun vis => .after fun after => ?_
  dsimp only
  refine .ite ?function (.ite ?foreign (.ite ?use (.ite ?static (.ite ?const (.ite ?unchecked
    (.ite ?mod (.ite ?type (.ite ?struct (.ite ?enum (.ite ?union (.ite ?trait (.ite ?auto
    (.ite ?impl (.ite ?definition (.ite ?invocation .failExpected)))))))))))))))
  case function =>
    refine .after fun _ => .after fun _ => .ite (.after fun _ => ?_) (.after fun _ => ?_)
    all_goals exact .pure (Item.isNamed_other rfl)
  case foreign => exact .after fun _ => externItem_yields
  case use =>
    refine .after fun _ => .after fun _ => .after fun tree => .after fun _ => .pure ?_
    exact Item.isNamed_other (by cases tree <;> rfl)
  case static => exact .after fun _ => staticItem_yields
  case const =>
    exact .after fun _ => .after fun _ => .after fun _ => .pure (Item.isNamed_other rfl)
  case unchecked =>
    refine .ite (.after fun _ => traitItem_yields attrs)
      (.ite (.after fun _ => implItem_yields attrs) (.ite foreignModule_yields ?_))
    exact .ite (.after fun _ => moduleItem_yields hitem) (.after fun _ => .failExpected)
  case mod => exact .after fun _ => moduleItem_yields hitem
  case type =>
    refine .after fun _ => .pure (Item.isNamed_other ?_)
    split <;> rfl
  case struct =>
    refine .after fun _ => .after fun _ => .after fun _ => .after fun _ => .pure ?_
    exact Item.isNamed_other rfl
  case enum =>
    refine .after fun _ => .after fun _ => .after fun _ => .after fun _ => .after fun _ => .pure ?_
    exact Item.isNamed_other rfl
  case union =>
    refine .after fun _ => .after fun _ => .after fun _ => .after fun _ => .after fun _ => .pure ?_
    exact Item.isNamed_other rfl
  case trait => exact .after fun _ => traitOrAlias_yields attrs
  case auto => exact .after fun _ => traitItem_yields attrs
  case impl => exact .after fun _ => implItem_yields attrs
  case definition => exact .after fun _ => definitionItem_yields
  case invocation => exact .after fun _ => .pure (Item.isNamed_other rfl)

theorem ofDepth_item_yields : ∀ depth, Reader.Yields (ofDepth depth).item Item.IsNamed
  | 0 => .failExpected
  | depth + 1 => itemWith_yields (ofDepth_item_yields depth)

end Grammar

/-- The traits of a file that was read have names that are no keywords. -/
theorem File.parse_named {text : String} {file : File} (h : File.parse text = .ok file) :
    ∀ i ∈ file.items, i.IsNamed := by
  have hreader (depth : Nat) : Reader.Yields (File.reader (.ofDepth depth))
      fun file => ∀ i ∈ file.items, i.IsNamed :=
    .after fun _ => (Reader.Yields.manyWhile (Grammar.ofDepth_item_yields depth)).bind fun _ h =>
      .pure h
  unfold File.parse at h
  exact readText_yields h hreader

/-! ## Places of traits -/

/-- The trait `t` stands at an address among the items of `module`: at the top, or in the module
`m` below it, whose items stand among these. -/
inductive TraitAt : String → List Item → List Nat → String → Trait → Prop
  | top {module : String} {items : List Item} {n : Nat} {t : Trait}
      (here : items[n]? = some (.trait t)) : TraitAt module items [n] module t
  | inner {module name m : String} {items inside : List Item} {n : Nat} {rest : List Nat}
      {t : Trait} (here : items[n]? = some (.module name (some inside)))
      (within : TraitAt (module ++ "::" ++ name) inside rest m t) :
      TraitAt module items (n :: rest) m t

/-- The marker is the last name in the path of some attribute of the trait. -/
def Trait.IsMarked (t : Trait) (marker : String) : Prop :=
  ∃ a ∈ t.attrs, ∃ s, a.path.segments.getLast? = some s ∧ s.name = marker

theorem anyNamed_iff {t : Trait} {marker : String} :
    Attribute.anyNamed t.attrs marker ↔ t.IsMarked marker := by
  simp [Attribute.anyNamed, Path.endsIn, Trait.IsMarked, Option.any_eq_true]

end Source

/-- What the scan says of the trait `t` in the module `m`. -/
def Declared.ofTrait (origin : FilePath) (m : String) (t : Trait) : Declared :=
  ⟨m ++ "::" ++ t.name, m, t.name, origin, t.line, t⟩

/-- What the scan says of a marked trait at an address among the items of `module`. -/
def MarkedIn (marker : String) (origin : FilePath) (module : String) (items : List Item)
    (address : List Nat) (d : Declared) : Prop :=
  ∃ m t, TraitAt module items address m t ∧ t.IsMarked marker ∧ d = .ofTrait origin m t

/-- What the scan says of a marked trait in a universe. An address begins with the number of the
file. -/
def Universe.MarkedAt (u : Universe) (marker : String) : List Nat → Declared → Prop :=
  Below (fun f => MarkedIn marker f.path f.module f.content.items) 0 u.files

variable {marker module : String} {origin : FilePath}

theorem scanItems_eq (items : List Item) :
    scanItems marker origin module items = items.flatMap (scanItem marker origin module) := by
  induction items with
  | nil => rfl
  | cons i is ih => rw [scanItems, List.flatMap_cons, ih]

/-- Where a marked trait is in a single item. -/
def MarkedBelow (marker : String) (origin : FilePath) (module : String) (i : Item)
    (address : List Nat) (d : Declared) : Prop :=
  MarkedIn marker origin module [i] (0 :: address) d

theorem markedIn_iff {items : List Item} {address : List Nat} {d : Declared} :
    Below (MarkedBelow marker origin module) 0 items address d ↔
      MarkedIn marker origin module items address d := by
  constructor
  · rintro ⟨n, i, rest, rfl, hi, m, t, hat, hmarked, rfl⟩
    rw [Nat.zero_add]
    refine ⟨m, t, ?_, hmarked, rfl⟩
    cases hat with
    | top here =>
      cases here
      exact .top hi
    | inner here within =>
      cases here
      exact .inner hi within
  · rintro ⟨m, t, hat, hmarked, rfl⟩
    rcases hat with @⟨_, _, n, _, here⟩ | @⟨_, name, _, _, inside, n, rest, _, here, within⟩
    · exact ⟨n, _, [], by rw [Nat.zero_add], here, module, t, .top rfl, hmarked, rfl⟩
    · exact ⟨n, _, rest, by rw [Nat.zero_add], here, m, t, .inner rfl within, hmarked, rfl⟩

theorem listed_none {α : Type} {At : List Nat → α → Prop} (h : ∀ a x, ¬ At a x) :
    Listed At [] := by
  refine ⟨[], rfl, .nil, fun a x => ⟨fun hmem => absurd hmem List.not_mem_nil, fun hat => ?_⟩⟩
  exact (h a x hat).elim

theorem scanTrait_listed (t : Trait) :
    Listed (MarkedBelow marker origin module (.trait t))
      (scanItem marker origin module (.trait t)) := by
  have hbelow (address : List Nat) (d : Declared) :
      MarkedBelow marker origin module (.trait t) address d ↔
        address = [] ∧ t.IsMarked marker ∧ d = .ofTrait origin module t := by
    constructor
    · rintro ⟨m, t', hat, hmarked, rfl⟩
      rcases hat with ⟨here⟩ | ⟨here, -⟩ <;> cases here
      exact ⟨rfl, hmarked, rfl⟩
    · rintro ⟨rfl, hmarked, rfl⟩
      exact ⟨module, t, .top rfl, hmarked, rfl⟩
  rw [scanItem]
  by_cases hmarked : t.IsMarked marker
  · rw [if_pos (anyNamed_iff.2 hmarked)]
    refine ⟨[([], .ofTrait origin module t)], rfl, List.pairwise_singleton _ _, fun a d => ?_⟩
    rw [List.mem_singleton, hbelow, Prod.mk.injEq, and_iff_right hmarked]
  · rw [if_neg (mt anyNamed_iff.1 hmarked)]
    exact listed_none fun a d hat => hmarked ((hbelow a d).1 hat).2.1

theorem markedBelow_module {name : String} {inside : List Item} {address : List Nat}
    {d : Declared} : MarkedBelow marker origin module (.module name (some inside)) address d ↔
      MarkedIn marker origin (module ++ "::" ++ name) inside address d := by
  constructor
  · rintro ⟨m, t, hat, hmarked, rfl⟩
    rcases hat with ⟨here⟩ | ⟨here, within⟩ <;> cases here
    exact ⟨m, t, within, hmarked, rfl⟩
  · rintro ⟨m, t, hat, hmarked, rfl⟩
    exact ⟨m, t, .inner rfl hat, hmarked, rfl⟩

/-- The scan lists the marked traits among some items. -/
theorem scanItems_listed (marker : String) (origin : FilePath) (module : String)
    (items : List Item) :
    Listed (MarkedIn marker origin module items) (scanItems marker origin module items) := by
  rw [scanItems_eq]
  refine (@Listed.below _ _ (MarkedBelow marker origin module) _ _ (fun i hi => ?_) 0).congr
    fun a d => markedIn_iff
  match i with
  | .trait t => exact scanTrait_listed t
  | .module name (some inside) =>
    have hsize := List.sizeOf_lt_of_mem hi
    rw [scanItem]
    exact (scanItems_listed marker origin (module ++ "::" ++ name) inside).congr fun a d =>
      markedBelow_module.symm
  | .module name none | .use _ | .impl _ | .declaration _ name | .other =>
    refine listed_none ?_
    rintro a d ⟨m, t, hat, -⟩
    rcases hat with ⟨here⟩ | ⟨here, -⟩ <;> cases here
termination_by sizeOf items
decreasing_by simp at hsize; omega

theorem scan_listed (u : Universe) (marker : String) :
    Listed (u.MarkedAt marker) (scan u marker) :=
  Listed.below (fun f _ => scanItems_listed marker f.path f.module f.content.items) 0

/-! ## What is declared where -/

theorem mem_itemsDeclared {items : List Item} {path : String} :
    path ∈ Resolver.itemsDeclared module items ↔
      ∃ i ∈ items, path ∈ Resolver.itemDeclared module i := by
  induction items with
  | nil => simp [Resolver.itemsDeclared]
  | cons i is ih => simp [Resolver.itemsDeclared, ih]

/-- The table of declarations has a trait under the module that it is found in. -/
theorem Source.TraitAt.declared {items : List Item} {address : List Nat} {m : String} {t : Trait}
    (h : TraitAt module items address m t) :
    m ++ "::" ++ t.name ∈ Resolver.itemsDeclared module items := by
  induction h with
  | top here =>
    refine mem_itemsDeclared.2 ⟨_, List.mem_of_getElem? here, ?_⟩
    rw [Resolver.itemDeclared]
    exact List.mem_singleton_self _
  | inner here _ ih =>
    refine mem_itemsDeclared.2 ⟨_, List.mem_of_getElem? here, ?_⟩
    rwa [Resolver.itemDeclared]

theorem Source.TraitAt.isName {items : List Item} {address : List Nat} {m : String} {t : Trait}
    (h : TraitAt module items address m t) (hnamed : ∀ i ∈ items, i.IsNamed) : isName t.name := by
  induction h with
  | top here =>
    refine hnamed _ (List.mem_of_getElem? here) _ ?_
    rw [Item.traitNames]
    exact List.mem_singleton_self _
  | inner here _ ih =>
    refine ih fun i hi n hn => hnamed _ (List.mem_of_getElem? here) n ?_
    rw [Item.traitNames]
    exact Item.mem_allTraitNames.2 ⟨i, hi, hn⟩

/-- What is in the files was read of texts. -/
def Universe.IsRead (u : Universe) : Prop :=
  ∀ f ∈ u.files, ∃ text, File.parse text = .ok f.content

namespace Universe

variable {u v : Universe}

theorem IsRead.add {path : FilePath} {text : String} (h : u.IsRead)
    (hadd : u.add path text = .ok v) : v.IsRead := by
  unfold Universe.add at hadd
  cases hparse : File.parse text with
  | error e =>
    rw [hparse] at hadd
    cases hadd
  | ok content =>
    rw [hparse] at hadd
    cases hadd
    intro f hf
    rcases List.mem_append.1 hf with hf | hf
    · exact h f (List.mem_filter.1 hf).1
    · rw [List.mem_singleton.1 hf]
      exact ⟨text, hparse⟩

theorem isRead_ofSources {sources : List (String × String)} (h : ofSources sources = .ok u) :
    u.IsRead := by
  unfold ofSources at h
  have hempty : empty.IsRead := fun f hf => absurd hf List.not_mem_nil
  generalize empty = start at h hempty
  induction sources generalizing start with
  | nil =>
    cases h
    exact hempty
  | cons source sources ih =>
    obtain ⟨path, text⟩ := source
    rw [List.foldlM_cons] at h
    dsimp only at h
    cases hadd : start.add ⟨path⟩ text with
    | error e =>
      rw [hadd] at h
      cases h
    | ok next =>
      rw [hadd] at h
      exact ih next h (hempty.add hadd)

end Universe

namespace Resolver

/-- A declared name that nothing imports means what is declared. -/
theorem resolve_declared {u : Universe} {module name : String} (hname : isName name)
    (hdeclared : (ofUniverse u).isDeclared (module ++ "::" ++ name))
    (himports : name ∉ u.boundNames module) :
    (ofUniverse u).resolve ⟨module, []⟩ (.named name) =
      .nominal (module ++ "::" ++ name) [] := by
  have hself : name ≠ "Self" := by
    rintro rfl
    exact absurd hname (by decide)
  have hrenamed : (ofUniverse u).renamed? module name = none := by
    rw [(ofUniverse_readIn u module).renamed, renamed?_readIn_other himports]
    rfl
  refine ((ofUniverse u).resolve_name name .none).trans ?_
  simp [resolveName, hself, hrenamed, hdeclared, Ty.argumentTypes]

end Resolver

/-- **Scan and resolver agree on where traits are.** For every universe and marker the scan lists,
file by file in the order of the text, what stands for the marked traits at the top and in modules
of any depth, each once and nothing else. Each is declared under its qualified name, and where its
module imports nothing of its name, the name resolves to this declaration. -/
theorem scanned_where_declared {u : Universe} (hread : u.IsRead) (marker : String) :
    Listed (u.MarkedAt marker) (scan u marker) ∧
      ∀ d ∈ scan u marker, (Resolver.ofUniverse u).isDeclared d.qualifiedName ∧
        (d.simpleName ∉ u.boundNames d.packageName →
          (Resolver.ofUniverse u).resolve ⟨d.packageName, []⟩ (.named d.simpleName) =
            .nominal d.qualifiedName []) := by
  have hlisted := scan_listed u marker
  refine ⟨hlisted, fun d hd => ?_⟩
  obtain ⟨places, hplaces⟩ := hlisted
  rw [← hplaces.members] at hd
  obtain ⟨⟨address, d⟩, hmem, rfl⟩ := List.mem_map.1 hd
  obtain ⟨n, f, rest, -, hf, m, t, hat, -, rfl⟩ := (hplaces.mem address d).1 hmem
  have hfile := List.mem_of_getElem? hf
  have hdeclared : (Resolver.ofUniverse u).isDeclared (m ++ "::" ++ t.name) :=
    Resolver.mem_ofUniverse_declared.2 ⟨f, hfile, hat.declared⟩
  obtain ⟨text, htext⟩ := hread f hfile
  exact ⟨hdeclared, Resolver.resolve_declared (hat.isName (File.parse_named htext)) hdeclared⟩

/-- A service in a module of its file, which imports another trait under another name. -/
def nestedSource : String :=
  "mod v1 \x7b
    use crate::other::Api as Other;
    #[rpc::remote_service]
    pub trait Api \x7b\x7d
\x7d
"

theorem nested_resolves :
    ∃ u, Universe.ofSources [("api.rs", nestedSource)] = .ok u ∧
      ∃ d ∈ scan u "remote_service", d.packageName = "crate::api::v1" ∧
        (Resolver.ofUniverse u).resolve ⟨"crate::api::v1", []⟩ (.named "Api") =
          .nominal "crate::api::v1::Api" [] := by
  have hread : ((File.parseChars nestedSource.toList).toOption.any fun file =>
      (scan (.ofFile "api.rs" file) "remote_service").any fun d =>
        decide (d.packageName = "crate::api::v1" ∧ d.simpleName = "Api" ∧
          "Api" ∉ (Universe.ofFile "api.rs" file).boundNames "crate::api::v1")) = true := by
    unfold nestedSource
    rw [toList_of_ofList rfl]
    decide +kernel
  obtain ⟨file, hfile, hscan⟩ := (Option.any_eq_true _ _).1 hread
  rw [← File.parse_eq, toOption_eq_some] at hfile
  obtain ⟨d, hd, hproperties⟩ := List.any_eq_true.1 hscan
  obtain ⟨hpackage, hname, himports⟩ := of_decide_eq_true hproperties
  have hu := @Universe.ofSources_single "api.rs" _ _ hfile
  refine ⟨_, hu, d, hd, hpackage, ?_⟩
  obtain ⟨-, hfound⟩ := scanned_where_declared (Universe.isRead_ofSources hu) "remote_service"
  have hresolve := (hfound d hd).2
  have hqualified := (scanItems_body (List.mem_flatMap.1 hd).choose_spec.2).2
  rw [hqualified, hpackage, hname] at hresolve
  exact hresolve himports

end WrapperGen
