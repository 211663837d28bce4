import Mathlib.Data.List.Nodup
import WrapperGen.Proofs.Rounds.Skipped
import WrapperGen.Proofs.Types.Tables
/-!
# The order of files

Where no two modules share a path, all imports of a module stand in one file, and so do all traits
of one qualified name. So the order of the files shows neither in what a type means nor in what a
first round makes of a trait (`file_order_irrelevant`).
-/

namespace WrapperGen

open Source

/-- A list made of parts, of which at most one is not empty, does not depend on the order of the
parts. -/
theorem flatMap_eq_of_perm {α β : Type} {f : α → List β} {xs ys : List α} (hperm : xs.Perm ys)
    (hsingle : xs.Pairwise fun x y => f x = [] ∨ f y = []) : xs.flatMap f = ys.flatMap f := by
  induction hperm with
  | nil => rfl
  | cons x _ ih => rw [List.flatMap_cons, List.flatMap_cons, ih hsingle.of_cons]
  | swap x y xs =>
    simp only [List.flatMap_cons]
    rcases List.rel_of_pairwise_cons hsingle (.head _) with h | h <;> simp [h]
  | trans h _ ih ih' =>
    exact (ih hsingle).trans (ih' ((h.pairwise_iff fun h => h.symm).1 hsingle))

/-! ## Resolution -/

namespace Resolver

/-- Two resolvers with the same tables. -/
structure Same (r r' : Resolver) : Prop where
  alike : ∀ module, Alike (fun _ => True) module r r'
  declared : ∀ path, r.isDeclared path = r'.isDeclared path

namespace Same

variable {r r' : Resolver} (h : Same r r')
include h

theorem names : SameNames r r' :=
  ⟨h.declared, fun module name => (h.alike module).children name trivial,
    fun module => (h.alike module).renamed⟩

theorem resolveName (s : Scope) (name : String) (arguments : List Ty) :
    r.resolveName s name arguments = r'.resolveName s name arguments := by
  unfold Resolver.resolveName
  simp only [(h.alike s.module).renamed, (h.alike s.module).globs, h.declared,
    h.names.resolvePath, h.names.resolveGlobs]

/-- They resolve every type alike. -/
theorem resolve (s : Scope) (t : Ty) : r.resolve s t = r'.resolve s t := by
  fun_induction Resolver.resolve r s t with
  | case1 e ih => rwa [Resolver.resolve]
  | case2 p =>
    rw [Resolver.resolve]
    unfold Resolver.resolveTypePath
    simp only [h.names.absolute, h.resolveName, h.names.resolvePath]
  | case3 t hparen hpath => rw [Resolver.resolve] <;> assumption

end Same

/-- The order of files with different modules says nothing of what a type means. -/
theorem same_of_perm {u u' : Universe} (hperm : u.files.Perm u'.files) (hbodies : u.bodies.Nodup) :
    Same (ofUniverse u) (ofUniverse u') where
  alike module := by
    refine ofUniverse_alike ?_ (fun _ _ _ _ _ => trivial) fun name _ =>
      (hperm.flatMap_right SourceFile.modules).mem_iff
    have hsingle : u.files.Pairwise fun f g =>
        f.uses.filter (·.1 = module) = [] ∨ g.uses.filter (·.1 = module) = [] := by
      refine (List.nodup_flatMap.1 hbodies).2.imp fun {f g} hdisjoint => ?_
      by_contra hboth
      rw [not_or] at hboth
      have hbody : ∀ f : SourceFile, f.uses.filter (·.1 = module) ≠ [] → module ∈ f.bodies :=
        fun f hf => by
          obtain ⟨use, huse⟩ := List.exists_mem_of_ne_nil _ hf
          obtain ⟨huse, hmodule⟩ := List.mem_filter.1 huse
          exact (of_decide_eq_true hmodule) ▸ SourceFile.uses_body use huse
      exact hdisjoint (hbody f hboth.1) (hbody g hboth.2)
    have huses := flatMap_eq_of_perm hperm hsingle
    rw [← List.filter_flatMap, ← List.filter_flatMap] at huses
    exact huses
  declared path := by
    rw [Bool.eq_iff_iff, mem_ofUniverse_declared, mem_ofUniverse_declared]
    simp only [hperm.mem_iff]

end Resolver

/-! ## Outcomes -/

/-- What a round has for a trait before it writes anything. -/
inductive Outcome
  | skipped
  | waits (names : List String)
  | fails (failure : Failure)
  | emits (unit : GeneratedUnit)

/-- Whether a trait with this outcome is taken up. -/
def Outcome.takesUp : Option Outcome → Bool
  | some .skipped => false
  | some (.waits _) => false
  | _ => true

/-- What becomes of a trait that was not taken up before, unless its emission panics. -/
def outcomeOf? (c : Config) (r : Resolver) (d : Declared) : Option Outcome :=
  match unresolvedIn c r d with
  | [] =>
    match unitOf c r d with
    | .ok u => some (.emits u)
    | .error (.failure f) => some (.fails f)
    | .error (.panic _) => none
  | names => some (.waits names)

/-- What a visit came to before anything was written. -/
def Visit.outcome? (c : Config) (r : Resolver) (v : Visit) : Option Outcome :=
  match v.fate with
  | .skipped => some .skipped
  | .deferred names => some (.waits names)
  | .aborted f => some (.fails f)
  | .generated u _ => some (.emits u)
  -- the failure does not say which unit was refused, but it is that of the trait
  | .unwritten _ => (unitOf c r v.declaration).toOption.map .emits
  | .panicked _ => none

section

variable (outcome? : Declared → Option Outcome)

/-- The outcome of a trait after others were taken up, given what it is for a new one. -/
def outcomeAfter? (taken : List String) (d : Declared) : Option Outcome :=
  if d.qualifiedName ∈ taken then some .skipped else outcome? d

/-- The names that are taken up after a trait. -/
def takenAfter (taken : List String) (d : Declared) : List String :=
  if Outcome.takesUp (outcomeAfter? outcome? taken d) then d.qualifiedName :: taken else taken

/-- The outcomes of traits in order. -/
def outcomes : List String → List Declared → List (Declared × Option Outcome)
  | _, [] => []
  | taken, d :: ds =>
    (d, outcomeAfter? outcome? taken d) :: outcomes (takenAfter outcome? taken d) ds

end

section

variable {outcome? : Declared → Option Outcome} {taken taken' : List String}
  {ds es : List Declared}

/-- Only the names of the traits at hand matter. -/
theorem outcomes_congr (h : ∀ d ∈ ds, d.qualifiedName ∈ taken ↔ d.qualifiedName ∈ taken') :
    outcomes outcome? taken ds = outcomes outcome? taken' ds := by
  induction ds generalizing taken taken' with
  | nil => rfl
  | cons d ds ih =>
    have hhead : outcomeAfter? outcome? taken d = outcomeAfter? outcome? taken' d := by
      simp only [outcomeAfter?, h d (.head _)]
    rw [outcomes, outcomes, hhead, ih fun e he => ?_]
    rw [takenAfter, takenAfter, hhead]
    split
    · rw [List.mem_cons, List.mem_cons, h e (.tail _ he)]
    · exact h e (.tail _ he)

/-- Traits of other names do not take part in each other's outcomes. -/
theorem outcomes_append (h : ∀ d ∈ ds, ∀ e ∈ es, d.qualifiedName ≠ e.qualifiedName) :
    outcomes outcome? taken (ds ++ es) =
      outcomes outcome? taken ds ++ outcomes outcome? taken es := by
  induction ds generalizing taken with
  | nil => rfl
  | cons d ds ih =>
    have hes : outcomes outcome? (takenAfter outcome? taken d) es =
        outcomes outcome? taken es := outcomes_congr fun e he => by
      unfold takenAfter
      split
      · rw [List.mem_cons]
        exact ⟨fun hmem => hmem.resolve_left (h d (.head _) e he).symm, .inr⟩
      · exact .rfl
    rw [List.cons_append, outcomes, outcomes, ih fun x hx => h x (.tail _ hx), hes,
      List.cons_append]

theorem outcomes_flatMap (outcome? : Declared → Option Outcome) (taken : List String) {α : Type}
    {f : α → List Declared} {xs : List α}
    (h : xs.Pairwise fun x y => ∀ d ∈ f x, ∀ e ∈ f y, d.qualifiedName ≠ e.qualifiedName) :
    outcomes outcome? taken (xs.flatMap f) = xs.flatMap fun x => outcomes outcome? taken (f x) := by
  induction xs with
  | nil => rfl
  | cons x xs ih =>
    rw [List.flatMap_cons, List.flatMap_cons, outcomes_append, ih h.of_cons]
    intro d hd e he
    obtain ⟨y, hy, he⟩ := List.mem_flatMap.1 he
    exact List.rel_of_pairwise_cons h hy d hd e he

end

namespace Processor

variable {σ : Type} {h : Host σ} {p : Processor σ} {r : Resolver}

theorem outcomeOf?_ready {c : Config} {d : Declared} (hd : unresolvedIn c r d = []) :
    outcomeOf? c r d = match unitOf c r d with
      | .ok u => some (.emits u)
      | .error (.failure f) => some (.fails f)
      | .error (.panic _) => none := by
  rw [outcomeOf?, hd]

theorem outcomeOf?_waits {c : Config} {d : Declared} {names : List String}
    (hd : unresolvedIn c r d = names) (hnames : names ≠ []) :
    outcomeOf? c r d = some (.waits names) := by
  unfold outcomeOf?
  split
  · rename_i hnone
    exact absurd (hd.symm.trans hnone) hnames
  · rw [hd]

/-- A visit comes to the outcome of its trait; without one it is a panic. -/
theorem handle_outcome (d : Declared) :
    let outcome? := outcomeOf? p.config r
    let taken := p.tracker.processed
    let v : Visit := ⟨d, (p.handle h r d).2⟩
    (v.panic? = none ↔ (outcomeAfter? outcome? taken d).isSome) ∧
    (v.panic? = none → v.outcome? p.config r = outcomeAfter? outcome? taken d) ∧
    (p.handle h r d).1.tracker.processed = takenAfter outcome? taken d := by
  have hc := p.handle_cases h r d
  generalize p.handle h r d = y at hc ⊢
  cases hc with
  | skipped known =>
    simp [outcomeAfter?, takenAfter, known, Visit.panic?, Visit.outcome?, Outcome.takesUp]
  | deferred new unresolved some =>
    simp [outcomeAfter?, takenAfter, new, outcomeOf?_waits unresolved some, Visit.panic?,
      Visit.outcome?, Outcome.takesUp]
  | panicked ready unit | aborted ready unit | unwritten ready unit _ | generated ready unit _ =>
    simp [outcomeAfter?, takenAfter, ready.new, outcomeOf?_ready ready.resolved, unit,
      Visit.panic?, Visit.outcome?, Outcome.takesUp, taking, Except.toOption]

/-- A round goes through the outcomes, and comes to its end if none is missing. -/
theorem handleAll_outcomes (ds : List Declared) :
    let expected := outcomes (outcomeOf? p.config r) p.tracker.processed ds
    let visits := (p.handleAll h r ds).2
    ((∀ v ∈ visits, v.panic? = none) ↔ ∀ x ∈ expected, x.2.isSome) ∧
    ((∀ v ∈ visits, v.panic? = none) →
      visits.map (fun v => (v.declaration, v.outcome? p.config r)) = expected) := by
  induction ds generalizing p with
  | nil => simp [handleAll, outcomes]
  | cons d ds ih =>
    obtain ⟨hpanic, houtcome, htaken⟩ := handle_outcome (h := h) (p := p) (r := r) d
    obtain ⟨hquiet, hmap⟩ := ih (p := (p.handle h r d).1)
    rw [handle_config, htaken] at hquiet hmap
    rw [outcomes]
    by_cases hd : (⟨d, (p.handle h r d).2⟩ : Visit).panic? = none
    · have hcons : p.handleAll h r (d :: ds) = (((p.handle h r d).1.handleAll h r ds).1,
          ⟨d, (p.handle h r d).2⟩ :: ((p.handle h r d).1.handleAll h r ds).2) := by
        rw [handleAll_cons, if_neg (by simp [Visit.panic?_eq_none.1 hd])]
      simp only [hcons, List.forall_mem_cons, List.map_cons]
      refine ⟨and_congr hpanic hquiet, fun hall => ?_⟩
      rw [hmap hall.2, houtcome hd]
    · have hcons : (p.handleAll h r (d :: ds)).2 = [⟨d, (p.handle h r d).2⟩] := by
        rw [handleAll_cons, if_pos (Classical.not_not.1 fun hfate =>
          hd (Visit.panic?_eq_none.2 (Bool.eq_false_iff.2 hfate)))]
      have hmissing : ¬ (outcomeAfter? (outcomeOf? p.config r) p.tracker.processed d).isSome :=
        fun hsome => hd (hpanic.2 hsome)
      simp [hcons, hd, hmissing]

end Processor

/-! ## Resolvers with the same tables -/

namespace Resolver.Same

variable {r r' : Resolver} (h : Same r r') (c : Config)
include h

theorem unresolvedIn (d : Declared) : unresolvedIn c r d = WrapperGen.unresolvedIn c r' d := by
  have hpath : r.unresolvedPath? = r'.unresolvedPath? := by
    funext s p
    have hresolve := h.resolve s (.path p)
    rw [Resolver.resolve, Resolver.resolve] at hresolve
    rw [unresolvedPath?, unresolvedPath?, hresolve]
  have hnames : r.unresolvedNames = r'.unresolvedNames := by
    funext s t
    rw [unresolvedNames, unresolvedNames, hpath]
  rw [WrapperGen.unresolvedIn, WrapperGen.unresolvedIn, hnames]

theorem unitOf (d : Declared) : unitOf c r d = WrapperGen.unitOf c r' d := by
  have hreturn : classifyReturn c r = classifyReturn c r' := by
    funext s isAsync ty
    rw [classifyReturn, classifyReturn, h.resolve]
  have hoperation : classifyOperation c r = classifyOperation c r' := by
    funext s m
    rw [classifyOperation, classifyOperation, hreturn]
  rw [WrapperGen.unitOf, WrapperGen.unitOf, classifyInterface, classifyInterface, hoperation]

theorem outcomeOf? : outcomeOf? c r = WrapperGen.outcomeOf? c r' := by
  funext d
  rw [WrapperGen.outcomeOf?, WrapperGen.outcomeOf?, h.unresolvedIn, h.unitOf]

end Resolver.Same

/-! ## Rounds -/

/-- Marked traits of one qualified name stand in one module, if their own names have no colon. -/
theorem scan_names_disjoint {u : Universe} (hbodies : u.bodies.Nodup) {marker : String}
    (hnames : ∀ d ∈ scan u marker, NoColon d.simpleName) :
    u.files.Pairwise fun f g => ∀ d ∈ f.marked marker, ∀ e ∈ g.marked marker,
      d.qualifiedName ≠ e.qualifiedName := by
  refine (List.Pairwise.and_mem.1 (List.nodup_flatMap.1 hbodies).2).imp fun {f g} ⟨hf, hg, hdisjoint⟩ => ?_
  intro d hd e he heq
  have hd' : d ∈ scan u marker := List.mem_flatMap.2 ⟨f, hf, hd⟩
  have he' : e ∈ scan u marker := List.mem_flatMap.2 ⟨g, hg, he⟩
  obtain ⟨hdbody, hdname⟩ := scanItems_body hd
  obtain ⟨hebody, hename⟩ := scanItems_body he
  rw [hdname, hename] at heq
  have hsame := (qualified_inj (hnames d hd') (hnames e he') heq).1
  exact hdisjoint hdbody (hsame ▸ hebody)

/-- **The order of files does not matter.** For every universe in which no two bodies of modules
(files and modules in them) share a path, and every order of its files: every type means the same
in every scope; and if the names of its marked traits hold no colon, as no name does that is read
from a text, then with any host, settings and worlds, if the first round of a new processor returns
in one order, then it returns in the other, and visits the same traits with the same outcomes before
writing: skipped, waiting for the same types, failing for the same reason, or emitted as the same
unit. -/
theorem file_order_irrelevant (u u' : Universe) (hperm : u.files.Perm u'.files)
    (hbodies : u.bodies.Nodup) :
    (∀ s t, (Resolver.ofUniverse u).resolve s t = (Resolver.ofUniverse u').resolve s t) ∧
    ∀ {σ : Type} (h : Host σ) (c : Config) (world world' : σ) (retried retried' : List String)
      (out : RoundOutput), (∀ d ∈ scan u c.marker, NoColon d.simpleName) →
      ((Processor.start c world).round h u retried).2 = .ok out →
      let visits := ((Processor.start c world).visit h u).2
      let visits' := ((Processor.start c world').visit h u').2
      out = .collect visits ∧
      ((Processor.start c world').round h u' retried').2 = .ok (.collect visits') ∧
      (visits.map fun v => (v.declaration, v.outcome? c (.ofUniverse u))).Perm
        (visits'.map fun v => (v.declaration, v.outcome? c (.ofUniverse u'))) := by
  have hsame := Resolver.same_of_perm hperm hbodies
  refine ⟨hsame.resolve, fun h c world world' retried retried' out hnames hround => ?_⟩
  intro visits visits'
  have hdisjoint := scan_names_disjoint hbodies hnames
  have hdisjoint' := (hperm.pairwise_iff fun hfg d hd e he => (hfg e he d hd).symm).1 hdisjoint
  let outcome? := outcomeOf? c (.ofUniverse u)
  have houtcomes : (outcomes outcome? [] (scan u c.marker)).Perm
      (outcomes (outcomeOf? c (.ofUniverse u')) [] (scan u' c.marker)) := by
    rw [← hsame.outcomeOf?]
    have hparts := outcomes_flatMap outcome? [] hdisjoint
    have hparts' := outcomes_flatMap outcome? [] hdisjoint'
    exact (List.Perm.of_eq hparts).trans
      ((hperm.flatMap_right _).trans (List.Perm.of_eq hparts'.symm))
  obtain ⟨hquiet, rfl⟩ := Processor.round_ok.1 hround
  have hexpected := Processor.handleAll_outcomes (h := h) (p := .start c world)
    (r := .ofUniverse u) (scan u c.marker)
  have hexpected' := Processor.handleAll_outcomes (h := h) (p := .start c world')
    (r := .ofUniverse u') (scan u' c.marker)
  have hquiet' : ∀ v ∈ visits', v.panic? = none := hexpected'.1.2 fun x hx =>
    hexpected.1.1 hquiet x (houtcomes.mem_iff.2 hx)
  refine ⟨rfl, Processor.round_ok.2 ⟨hquiet', rfl⟩, ?_⟩
  exact (List.Perm.of_eq (hexpected.2 hquiet)).trans
    (houtcomes.trans (List.Perm.of_eq (hexpected'.2 hquiet').symm))

/-- Two files, in one of which a service waits for a type of the other one's module. -/
def twoFiles : List SourceFile :=
  let file (path : String) (traits : List Source.Trait) : SourceFile :=
    ⟨⟨path⟩, modulePath ⟨path⟩, ⟨traits.map .trait⟩⟩
  [file "api.rs" [markedTrait "Api" ["Send", "Sync"] [], markedTrait "Alone" [] []],
    file "late.rs" [markedTrait "Late" ["Send", "Sync"] [getter "get" "Api"]]]

/-- The first round goes through the two files in either order, with the same outcomes. -/
theorem two_files_either_order :
    let round (files : List SourceFile) :=
      ((Processor.start .default (.start none)).round Recording.host ⟨files, []⟩ []).2
    let visits (files : List SourceFile) :=
      ((Processor.start .default (.start none)).visit Recording.host ⟨files, []⟩).2
    (visits twoFiles).map (·.name) = ["crate::api::Api", "crate::api::Alone", "crate::late::Late"] ∧
    round twoFiles = .ok (.collect (visits twoFiles)) ∧
    round twoFiles.reverse = .ok (.collect (visits twoFiles.reverse)) ∧
    ((visits twoFiles).map fun v =>
        (v.declaration, v.outcome? .default (.ofUniverse ⟨twoFiles, []⟩))).Perm
      ((visits twoFiles.reverse).map fun v =>
        (v.declaration, v.outcome? .default (.ofUniverse ⟨twoFiles.reverse, []⟩))) := by
  intro round visits
  -- one conjunction, so that the visits are evaluated once
  have hvisits : (visits twoFiles).map (·.name) =
        ["crate::api::Api", "crate::api::Alone", "crate::late::Late"] ∧
      ∀ v ∈ visits twoFiles, v.panic? = none := by
    decide +kernel
  obtain ⟨hnames, hquiet⟩ := hvisits
  have hround : round twoFiles = .ok (.collect (visits twoFiles)) :=
    Processor.round_ok.2 ⟨hquiet, rfl⟩
  obtain ⟨-, hrounds⟩ := file_order_irrelevant ⟨twoFiles, []⟩ ⟨twoFiles.reverse, []⟩
    (List.reverse_perm twoFiles).symm (by decide +kernel)
  obtain ⟨-, hround', hperm⟩ := hrounds Recording.host .default (.start none) (.start none) [] []
    (.collect (visits twoFiles)) (by decide +kernel) hround
  exact ⟨hnames, hround, hround', hperm⟩

end WrapperGen
