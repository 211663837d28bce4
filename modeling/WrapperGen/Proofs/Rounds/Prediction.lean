import Mathlib.Data.List.Forall2
import WrapperGen.Proofs.Rounds.Skipped
import WrapperGen.Service.Report
/-!
# What a scan foretells

A scan and a round come to the same verdict on a marked trait (`handle_follows`); a round goes on to
emit and to write the units of the traits that are fit. `scan_predicts_round`: so where no two
traits share a name, the report of a scan is that of a first round without the ends of the units.
-/

namespace WrapperGen

open Source

/-! ## Verdicts -/

/-- What a scan finds out about a marked trait. -/
inductive Verdict
  | waits (names : List String)
  | unfit (failure : Failure)
  | fit (interface : Interface)

def verdict (c : Config) (r : Resolver) (d : Declared) : Verdict :=
  match unresolvedIn c r d with
  | [] =>
    match classifyInterface c r d with
    | .ok i => .fit i
    | .error f => .unfit f
  | names => .waits names

namespace Verdict

def interface? : Verdict → Option Interface
  | fit i => some i
  | _ => none

/-- The entry of a trait of this name among those that wait. -/
def deferral? (name : String) : Verdict → Option Omission
  | waits names => some ⟨name, unresolvedText names⟩
  | _ => none

/-- The entry of a trait of this name among those that are unfit. -/
def abortion? (name : String) : Verdict → Option Omission
  | unfit f => some ⟨name, f.message⟩
  | _ => none

end Verdict

/-- Where a scan puts a trait depends on the verdict on it. -/
theorem add_verdict (c : Config) (r : Resolver) (report : ScanReport) (d : Declared) :
    report.add c r d = match verdict c r d with
      | .fit i => { report with interfaces := report.interfaces ++ [i] }
      | .unfit f => { report with aborted := report.aborted ++ [⟨d.qualifiedName, f.message⟩] }
      | .waits names =>
        { report with deferred := report.deferred ++ [⟨d.qualifiedName, unresolvedText names⟩] } := by
  unfold ScanReport.add verdict
  cases unresolvedIn c r d with
  | nil => cases classifyInterface c r d <;> rfl
  | cons name names => rfl

/-- A scan reports one verdict for every marked trait. -/
theorem foldl_add (c : Config) (r : Resolver) (ds : List Declared) (report : ScanReport) :
    ds.foldl (ScanReport.add c r) report =
      { interfaces := report.interfaces ++ ds.filterMap fun d => (verdict c r d).interface?
        deferred := report.deferred ++
          ds.filterMap fun d => (verdict c r d).deferral? d.qualifiedName
        aborted := report.aborted ++
          ds.filterMap fun d => (verdict c r d).abortion? d.qualifiedName } := by
  induction ds generalizing report with
  | nil => simp
  | cons d ds ih =>
    rw [List.foldl_cons, ih, add_verdict]
    cases hverdict : verdict c r d <;>
      simp [hverdict, Verdict.interface?, Verdict.deferral?, Verdict.abortion?]

/-! ## Reasons -/

namespace Failure

/-- Whether a rendered unit did not read as a file. -/
def isUnreadable : Failure → Bool
  | aborted _ reason => unreadableText.toList.isPrefixOf reason.toList
  | _ => false

/-- The entry of a failed trait in the report of a scan. -/
def omission? : Failure → Option Omission
  | f@(aborted interface _) => some ⟨interface, f.message⟩
  | _ => none

theorem isUnreadable_append (interface text : String) :
    (aborted interface (unreadableText ++ text)).isUnreadable = true := by
  simp [isUnreadable, String.toList_append]

end Failure

/-- A text that does not begin like what is said of a unit. -/
def IsOther (text : String) : Prop := ∃ c, text.toList.head? = some c ∧ c ≠ 'r'

theorem IsOther.append {text : String} (htext : IsOther text) (rest : String) :
    IsOther (text ++ rest) := by
  obtain ⟨c, hc, hne⟩ := htext
  exact ⟨c, by rw [String.toList_append, List.head?_append, hc, Option.some_or], hne⟩

theorem IsOther.isUnreadable {interface reason : String} (hreason : IsOther reason) :
    (Failure.aborted interface reason).isUnreadable = false := by
  obtain ⟨c, hc, hne⟩ := hreason
  have hr : unreadableText.toList.head? = some 'r' := by decide +kernel
  obtain ⟨cs, hcs⟩ := List.head?_eq_some_iff.1 hc
  obtain ⟨rs, hrs⟩ := List.head?_eq_some_iff.1 hr
  rw [Failure.isUnreadable, hcs, hrs, List.isPrefixOf, Bool.and_eq_false_iff]
  exact .inl (by simpa using hne.symm)

theorem isOther_quoted (name : String) : IsOther (quoted name) :=
  (IsOther.append ⟨'`', by decide +kernel, by decide⟩ name).append _

theorem memberProblem?_isOther {boxes : Bool} {m : Member} {reason : String}
    (h : memberProblem? boxes m = some reason) : IsOther reason := by
  cases m with
  | const name =>
    cases h
    exact (IsOther.append ⟨'a', by decide +kernel, by decide⟩ _).append _
  | method m =>
    unfold memberProblem? at h
    dsimp only at h
    repeat' split at h
    all_goals cases h
    · exact (IsOther.append ⟨'a', by decide +kernel, by decide⟩ _).append _
    all_goals exact (isOther_quoted _).append _
  | type | raw | invocation => cases h

theorem handleProblem?_isOther {t : Trait} {reason : String} (h : handleProblem? t = some reason) :
    IsOther reason := by
  unfold handleProblem? at h
  split at h
  · obtain ⟨m, -, hm⟩ := List.exists_of_findSome?_eq_some h
    exact memberProblem?_isOther hm
  · cases h
    exact (IsOther.append ⟨'s', by decide +kernel, by decide⟩ _).append _

theorem collectParameter_isOther {method : String} {isAsync : Bool} {index : Nat} {pattern : Node}
    {ty : Ty} {reason : String}
    (h : collectParameter method isAsync index pattern ty = .error reason) : IsOther reason := by
  unfold collectParameter at h
  dsimp only at h
  split at h
  · cases h
    exact (((isOther_quoted _).append _).append _).append _
  · split at h
    · cases h
      exact (isOther_quoted _).append _
    · split at h
      · cases h
        exact (((IsOther.append ⟨'a', by decide +kernel, by decide⟩ _).append _).append _).append _
      · cases h

theorem classifyOperation_isOther {c : Config} {r : Resolver} {s : Scope} {m : Method}
    {reason : String} (h : classifyOperation c r s m = .error reason) : IsOther reason := by
  unfold classifyOperation at h
  dsimp only at h
  split at h
  · cases h
    exact (isOther_quoted _).append _
  · split at h
    · cases h
      exact (isOther_quoted _).append _
    · split at h
      · cases h
        exact (isOther_quoted _).append _
      · split at h
        · cases h
          exact (isOther_quoted _).append _
        · cases hparameters : collectParameters m with
          | ok parameters => rw [hparameters] at h; cases h
          | error reason' =>
            rw [hparameters] at h
            cases h
            obtain ⟨_, -, hparameter⟩ := mapM_error hparameters
            exact collectParameter_isOther hparameter

/-- A classification fails for other reasons than emission. -/
theorem classifyInterface_isOther {c : Config} {r : Resolver} {d : Declared} {f : Failure}
    (h : classifyInterface c r d = .error f) :
    ∃ reason, f = .aborted d.qualifiedName reason ∧ IsOther reason := by
  obtain ⟨reason, hf, hreason⟩ := classifyInterface_error h
  refine ⟨reason, hf, ?_⟩
  rcases hreason with rfl | hproblem | ⟨m, -, hm⟩
  · exact ⟨'g', by decide +kernel, by decide⟩
  · exact handleProblem?_isOther hproblem
  · exact classifyOperation_isOther hm

/-! ## One trait in a round -/

/-- How a round can end for a service that a scan describes. -/
inductive EndsAs {σ : Type} (h : Host σ) (c : Config) (i : Interface) : Fate → Prop
  | generated {u : GeneratedUnit} (unit : Emit.emit c i = .ok u) {w w' : σ} {o : WriteOutcome}
      (accepted : h.write u.toText w = (w', .ok o)) : EndsAs h c i (.generated u o)
  | unwritten {u : GeneratedUnit} (unit : Emit.emit c i = .ok u) {w w' : σ} {f : Failure}
      (refused : h.write u.toText w = (w', .error f)) : EndsAs h c i (.unwritten f)
  | unreadable {text : String}
      (unit : Emit.emit c i =
        .error (.failure (.aborted i.qualifiedName (unreadableText ++ text)))) :
      EndsAs h c i (.aborted (.aborted i.qualifiedName (unreadableText ++ text)))

/-- The fates that a verdict leaves. -/
inductive Follows {σ : Type} (h : Host σ) (c : Config) (d : Declared) : Verdict → Fate → Prop
  | waits (names : List String) : Follows h c d (.waits names) (.deferred names)
  | unfit {reason : String} (other : IsOther reason) :
      Follows h c d (.unfit (.aborted d.qualifiedName reason))
        (.aborted (.aborted d.qualifiedName reason))
  | fit {i : Interface} (name : i.qualifiedName = d.qualifiedName) {fate : Fate}
      (ends : EndsAs h c i fate) : Follows h c d (.fit i) fate

theorem verdict_ready {c : Config} {r : Resolver} {d : Declared} (hd : unresolvedIn c r d = []) :
    verdict c r d = match classifyInterface c r d with
      | .ok i => .fit i
      | .error f => .unfit f := by
  rw [verdict, hd]

namespace Processor

variable {σ : Type} {h : Host σ} {p : Processor σ} {r : Resolver}

/-- A round follows the verdict on every trait that is new to it. -/
theorem handle_follows {d : Declared} (hnew : (p.handle h r d).2 ≠ .skipped)
    (hquiet : (p.handle h r d).2.isPanic = false) :
    Follows h p.config d (verdict p.config r d) (p.handle h r d).2 := by
  have hc := p.handle_cases h r d
  generalize p.handle h r d = y at hc hnew hquiet ⊢
  cases hc with
  | skipped known => exact absurd rfl hnew
  | panicked ready unit => cases hquiet
  | @deferred new names unresolved some =>
    have hverdict : verdict p.config r d = .waits names := by
      unfold verdict
      split
      · rename_i hnone
        exact absurd (unresolved.symm.trans hnone) some
      · rw [unresolved]
    rw [hverdict]
    exact .waits names
  | aborted ready unit =>
    rw [verdict_ready ready.resolved]
    rcases unitOf_failure_cases unit with hclassify | ⟨i, hclassify, hemit⟩
    · obtain ⟨reason, rfl, hother⟩ := classifyInterface_isOther hclassify
      rw [hclassify]
      exact .unfit hother
    · obtain ⟨text, rfl⟩ := Emit.emit_failure hemit
      rw [hclassify]
      exact .fit (classifyInterface_ok hclassify).1 (.unreadable hemit)
  | unwritten ready unit refused =>
    obtain ⟨i, hclassify, hemit⟩ := unitOf_emitted unit
    rw [verdict_ready ready.resolved, hclassify]
    exact .fit (classifyInterface_ok hclassify).1 (.unwritten hemit refused)
  | generated ready unit accepted =>
    obtain ⟨i, hclassify, hemit⟩ := unitOf_emitted unit
    rw [verdict_ready ready.resolved, hclassify]
    exact .fit (classifyInterface_ok hclassify).1 (.generated hemit accepted)

/-- A round handles every trait with its own settings. -/
theorem handleAll_follows {ds : List Declared}
    (hquiet : ∀ v ∈ (p.handleAll h r ds).2, v.panic? = none) :
    ∀ v ∈ (p.handleAll h r ds).2, v.fate ≠ .skipped →
      Follows h p.config v.declaration (verdict p.config r v.declaration) v.fate := by
  induction ds generalizing p with
  | nil => exact fun v hv => absurd hv List.not_mem_nil
  | cons d ds ih =>
    have hcons := handleAll_cons_quiet hquiet
    rw [hcons] at hquiet ⊢
    rintro v (_ | ⟨_, hv⟩) hnew
    · exact handle_follows hnew (Visit.panic?_eq_none.1 (hquiet _ (.head _)))
    · have hrest := ih (fun v hv => hquiet v (.tail _ hv)) v hv hnew
      rwa [handle_config] at hrest

end Processor

/-! ## Lists -/

/-- What a round reports of a trait that waits, in the words of a scan. -/
def DeferredService.omission (s : DeferredService) : Omission :=
  ⟨s.declaration.qualifiedName, unresolvedText s.unresolved⟩

/-- The end of a service in a round: it is visited under its name, and ends in one way. -/
structure Ends {σ : Type} (h : Host σ) (c : Config) (i : Interface) (v : Visit) : Prop where
  name : v.name = i.qualifiedName
  ends : EndsAs h c i v.fate

/-- Such a service is only aborted for its unit. -/
theorem Ends.abortion? {σ : Type} {h : Host σ} {c : Config} {i : Interface} {v : Visit}
    (hv : Ends h c i v) : v.abortion?.filter Failure.isUnreadable = v.abortion? := by
  obtain ⟨d, fate⟩ := v
  cases hv.ends <;> simp [Visit.abortion?, Failure.isUnreadable_append]

namespace Follows

variable {σ : Type} {h : Host σ} {c : Config} {v : Visit} {x : Verdict}

theorem deferral? (hv : Follows h c v.declaration x v.fate) :
    x.deferral? v.name = v.deferral?.map DeferredService.omission := by
  obtain ⟨d, fate⟩ := v
  dsimp only at hv
  cases hv with
  | waits | unfit => rfl
  | fit _ ends => cases ends <;> rfl

/-- What a scan calls unfit fails in the round with the same message, and not for its unit. -/
theorem abortion? (hv : Follows h c v.declaration x v.fate) :
    (x.abortion? v.name).map some =
      (v.abortion?.filter (!·.isUnreadable)).map Failure.omission? := by
  obtain ⟨d, fate⟩ := v
  dsimp only at hv
  cases hv with
  | waits => rfl
  | unfit other =>
    simp [Verdict.abortion?, Visit.abortion?, Visit.name, Option.filter, other.isUnreadable,
      Failure.omission?]
  | fit _ ends =>
    cases ends <;>
      simp [Verdict.abortion?, Visit.abortion?, Option.filter, Failure.isUnreadable_append]

theorem fit_ends {i : Interface} (hv : Follows h c v.declaration x v.fate)
    (hi : x.interface? = some i) : Ends h c i v := by
  obtain ⟨d, fate⟩ := v
  dsimp only at hv
  cases hv with
  | waits | unfit => cases hi
  | fit name ends =>
    cases hi
    exact ⟨name.symm, ends⟩

/-- Of a trait that a scan does not describe no unit is made. -/
theorem not_fit (hv : Follows h c v.declaration x v.fate) (hx : x.interface? = none) :
    v.record? = none ∧ v.refusal? = none ∧ v.abortion?.filter Failure.isUnreadable = none := by
  obtain ⟨d, fate⟩ := v
  dsimp only at hv
  cases hv with
  | waits => exact ⟨rfl, rfl, rfl⟩
  | unfit other => simp [Visit.record?, Visit.refusal?, Visit.abortion?, other.isUnreadable]
  | fit => cases hx

end Follows

theorem forall₂_filterMap {α β : Type} {f : α → Option β} {R : β → α → Prop} {xs : List α}
    (hxs : ∀ x ∈ xs, ∀ y, f x = some y → R y x) :
    List.Forall₂ R (xs.filterMap f) (xs.filter (f · |>.isSome)) := by
  induction xs with
  | nil => exact .nil
  | cons x xs ih =>
    have hrest := ih fun x hx => hxs x (.tail _ hx)
    cases hx : f x with
    | none => simpa [List.filterMap_cons, hx] using hrest
    | some y => simpa [List.filterMap_cons, hx] using ⟨hxs x (.head _) y hx, hrest⟩

/-- What is not said outside of a part of a list is said of that part. -/
theorem filterMap_filter_eq {α β : Type} {f : α → Option β} {kept : α → Bool} {xs : List α}
    (hxs : ∀ x ∈ xs, kept x = false → f x = none) :
    (xs.filter kept).filterMap f = xs.filterMap f := by
  rw [List.filterMap_filter]
  refine List.filterMap_congr fun x hx => ?_
  cases hkept : kept x with
  | true => rfl
  | false => rw [hxs x hx hkept]; rfl

/-! ## Visits that follow the verdicts -/

section
variable {σ : Type} {h : Host σ} {c : Config} {r : Resolver} {visits : List Visit}

theorem deferred_of_follows
    (hvs : ∀ v ∈ visits, Follows h c v.declaration (verdict c r v.declaration) v.fate) :
    (visits.map (·.declaration)).filterMap
        (fun d => (verdict c r d).deferral? d.qualifiedName) =
      (RoundOutput.collect visits).deferred.map DeferredService.omission := by
  rw [RoundOutput.collect, List.map_filterMap, List.filterMap_map]
  exact List.filterMap_congr fun v hv => (hvs v hv).deferral?

theorem aborted_of_follows
    (hvs : ∀ v ∈ visits, Follows h c v.declaration (verdict c r v.declaration) v.fate) :
    ((visits.map (·.declaration)).filterMap
        fun d => (verdict c r d).abortion? d.qualifiedName).map some =
      ((RoundOutput.collect visits).aborted.filter (!·.isUnreadable)).map Failure.omission? := by
  rw [RoundOutput.collect, List.filter_filterMap, List.map_filterMap, List.map_filterMap,
    List.filterMap_map]
  exact List.filterMap_congr fun v hv => (hvs v hv).abortion?

/-- The visits of the services that a scan describes, and what a round reports of them. -/
theorem ends_of_follows
    (hvs : ∀ v ∈ visits, Follows h c v.declaration (verdict c r v.declaration) v.fate) :
    ∃ kept : List Visit, kept.Sublist visits ∧
      List.Forall₂ (Ends h c)
        ((visits.map (·.declaration)).filterMap fun d => (verdict c r d).interface?) kept ∧
      (RoundOutput.collect visits).generated = kept.filterMap Visit.record? ∧
      (RoundOutput.collect visits).writeFailures = kept.filterMap Visit.refusal? ∧
      (RoundOutput.collect visits).aborted.filter Failure.isUnreadable =
        kept.filterMap Visit.abortion? := by
  let fit (v : Visit) : Option Interface := (verdict c r v.declaration).interface?
  have hends : ∀ v ∈ visits, ∀ i, fit v = some i → Ends h c i v :=
    fun v hv i hi => (hvs v hv).fit_ends hi
  have hunfit : ∀ v ∈ visits, (fit v).isSome = false →
      v.record? = none ∧ v.refusal? = none ∧ v.abortion?.filter Failure.isUnreadable = none :=
    fun v hv hfit => (hvs v hv).not_fit (by simpa using hfit)
  refine ⟨visits.filter (fit · |>.isSome), List.filter_sublist, ?_, ?_, ?_, ?_⟩
  · rw [List.filterMap_map]
    exact forall₂_filterMap hends
  · exact (filterMap_filter_eq fun v hv hfit => (hunfit v hv hfit).1).symm
  · exact (filterMap_filter_eq fun v hv hfit => (hunfit v hv hfit).2.1).symm
  · rw [RoundOutput.collect, List.filter_filterMap,
      ← filterMap_filter_eq fun v hv hfit => (hunfit v hv hfit).2.2]
    -- a service that the scan describes is aborted for its unit only
    refine List.filterMap_congr fun v hv => ?_
    obtain ⟨hmem, hfit⟩ := List.mem_filter.1 hv
    obtain ⟨i, hi⟩ := Option.isSome_iff_exists.1 hfit
    exact (hends v hmem i hi).abortion?

end

/-! ## Rounds -/

namespace Processor

variable {σ : Type} {h : Host σ} {p : Processor σ} {r : Resolver}

/-- A new processor skips nothing among traits of distinct names. -/
theorem handleAll_distinct {ds : List Declared}
    (hquiet : ∀ v ∈ (p.handleAll h r ds).2, v.panic? = none)
    (hnames : (ds.map (·.qualifiedName)).Nodup) (hnew : p.tracker.processed = []) :
    ∀ v ∈ (p.handleAll h r ds).2, v.fate ≠ .skipped := by
  intro v hv hskipped
  obtain ⟨before, after, hvisits⟩ := List.append_of_mem hv
  rw [← handleAll_declarations hquiet, List.map_map, hvisits, List.map_append] at hnames
  rcases (handleAll_skipped hquiet hvisits).1 hskipped with hknown | ⟨w, hw, hname, -⟩
  · rw [hnew] at hknown
    exact List.not_mem_nil hknown
  · exact (List.nodup_append.1 hnames).2.2 w.name (List.mem_map.2 ⟨w, hw, rfl⟩) v.name
      (List.mem_map.2 ⟨v, .head _, rfl⟩) hname

end Processor

/-- **A scan predicts a first round.** For every host, all settings and every universe in which no
two marked traits share a name: if the first round of a new processor returns, then

* the traits that the scan leaves waiting are those that the round defers, in the same order and
  for the same types;
* the traits that the scan finds unfit are those that the round aborts for another reason than that
  their unit does not read as a file, in the same order and with the same messages;
* the services that the scan describes are, in the same order, those whose units the round reports
  as generated, as not written, or as not read back, each of them once and in one of these lists;
* the round skips nothing. -/
theorem scan_predicts_round {σ : Type} (h : Host σ) (c : Config) (world : σ) (u : Universe)
    (retried : List String) (out : RoundOutput)
    (hnames : ((scan u c.marker).map (·.qualifiedName)).Nodup)
    (hround : ((Processor.start c world).round h u retried).2 = .ok out) :
    let report := scanReport c u
    report.deferred = out.deferred.map DeferredService.omission ∧
    report.aborted.map some =
      (out.aborted.filter (!·.isUnreadable)).map Failure.omission? ∧
    (∃ visits : List Visit, List.Forall₂ (Ends h c) report.interfaces visits ∧
      (visits.map (·.name)).Nodup ∧
      (∀ v ∈ visits, v.fate.IsOf v.name ∧ v.places.count true = 1) ∧
      out.generated = visits.filterMap Visit.record? ∧
      out.writeFailures = visits.filterMap Visit.refusal? ∧
      out.aborted.filter Failure.isUnreadable = visits.filterMap Visit.abortion?) ∧
    out.skipped = [] := by
  intro report
  obtain ⟨hquiet, rfl⟩ := Processor.round_ok.1 hround
  have hfound : ((Processor.start c world).visit h u).2.map (·.declaration) = scan u c.marker :=
    Processor.handleAll_declarations hquiet
  have hnew : ∀ v ∈ ((Processor.start c world).visit h u).2, v.fate ≠ .skipped :=
    Processor.handleAll_distinct hquiet hnames rfl
  have hfollows : ∀ v ∈ ((Processor.start c world).visit h u).2,
      Follows h c v.declaration (verdict c (.ofUniverse u) v.declaration) v.fate :=
    fun v hv => Processor.handleAll_follows hquiet v hv (hnew v hv)
  have hreport : report = _ := foldl_add c (.ofUniverse u) (scan u c.marker) ⟨[], [], []⟩
  simp only [← hfound, List.nil_append] at hreport
  rw [← hfound, List.map_map] at hnames
  obtain ⟨kept, hkept, hends, hgenerated, hrefused, hunreadable⟩ := ends_of_follows hfollows
  rw [hreport]
  refine ⟨deferred_of_follows hfollows, aborted_of_follows hfollows, ⟨kept, hends,
    hnames.sublist (hkept.map _), fun v hv => ?_, hgenerated, hrefused, hunreadable⟩, ?_⟩
  · have hmem := hkept.subset hv
    exact ⟨Processor.visit_isOf hmem, Visit.count_places (hquiet v hmem)⟩
  · refine List.eq_nil_iff_forall_not_mem.2 fun name hname => ?_
    obtain ⟨v, hv, hskipped, -⟩ := RoundOutput.mem_skipped.1 hname
    exact hnew v hv hskipped

/-- Four traits, of which one waits, one cannot be shared and two are fit. -/
def fourTraits : Universe :=
  let content := [
    markedTrait "Late" ["Send", "Sync"] [getter "get" "Missing"],
    markedTrait "Empty" ["Send", "Sync"] [],
    markedTrait "Alone" [] [],
    markedTrait "Odd" ["Send", "Sync"] [getter "get" "u8"]]
  ⟨[⟨⟨"api.rs"⟩, modulePath ⟨"api.rs"⟩, ⟨content.map .trait⟩⟩], []⟩

/-- Settings whose runtime cannot be written in front of a call. -/
def oddSettings : Config := { Config.default with runtimePath := "a<b>" }

/-- Of the two fit traits of `fourTraits` one is generated, and the unit of the other cannot be read
back. -/
theorem four_traits_predicted :
    let start := Processor.start oddSettings (.start none)
    (scanReport oddSettings fourTraits).interfaces.map (·.qualifiedName) =
      ["crate::api::Empty", "crate::api::Odd"] ∧
    ∃ out, (start.round Recording.host fourTraits []).2 = .ok out ∧
      out.generated.map (·.qualifiedName) = ["crate::api::Empty"] ∧
      (out.aborted.filter Failure.isUnreadable).map Failure.message =
        ["generation aborted for crate::api::Odd: rendered unit does not parse: comparison " ++
          "operators cannot be chained"] ∧
      out.deferred.map DeferredService.omission =
        [⟨"crate::api::Late", "unresolved Missing"⟩] ∧
      out.skipped = [] := by
  intro start
  refine ⟨by decide +kernel, ?_⟩
  have hends : ((start.round Recording.host fourTraits []).2.toOption.map fun out =>
      (out.generated.map (·.qualifiedName),
        (out.aborted.filter Failure.isUnreadable).map Failure.message)) =
      some (["crate::api::Empty"],
        ["generation aborted for crate::api::Odd: rendered unit does not parse: comparison " ++
          "operators cannot be chained"]) := by decide +kernel
  obtain ⟨out, hout, hlists⟩ := Option.map_eq_some_iff.1 hends
  have hround := toOption_eq_some.1 hout
  obtain ⟨hdeferred, -, -, hskipped⟩ := scan_predicts_round Recording.host oddSettings
    (.start none) fourTraits [] out (by decide +kernel) hround
  refine ⟨out, hround, congrArg Prod.fst hlists, congrArg Prod.snd hlists, ?_, hskipped⟩
  rw [← hdeferred]
  decide +kernel

end WrapperGen
