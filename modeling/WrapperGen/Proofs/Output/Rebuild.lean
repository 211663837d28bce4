import Mathlib.Tactic.MkIffOfInductiveProp
import WrapperGen.Command.Generate
import WrapperGen.Proofs.Files.Walks
import WrapperGen.Proofs.Output.Repeats
import WrapperGen.Proofs.Rounds.Fixpoint
/-!
# Generating again

`generate_again`: generating again from unchanged sources into the same directory changes no file
and reports the same, but nothing is written. The second run is simulated by the first one, visit
by visit (`handle_again`), round by round (`round_again`); that each unit is written or refused as
before is known from all that came after it in the first run (`repeats_of_trail`).
-/

namespace WrapperGen

open Files

/-! ## The same again -/

/-- What becomes of a trait when the same is generated again. -/
def Fate.again : Fate → Fate
  | generated u o => generated u o.again
  | f => f

def Visit.again (v : Visit) : Visit := { v with fate := v.fate.again }

/-- The record of a unit that is up to date. -/
def GeneratedRecord.again (g : GeneratedRecord) : GeneratedRecord := { g with written := false }

def RoundOutput.again (o : RoundOutput) : RoundOutput :=
  { o with generated := o.generated.map GeneratedRecord.again }

/-- The report when the same is generated again. -/
def BuildReport.again (r : BuildReport) : BuildReport :=
  { r with generated := r.generated.map GeneratedRecord.again }

@[simp] theorem Fate.isPanic_again (f : Fate) : f.again.isPanic = f.isPanic := by cases f <;> rfl

theorem RoundOutput.collect_again (vs : List Visit) :
    RoundOutput.collect (vs.map Visit.again) = (RoundOutput.collect vs).again := by
  have hagain : ∀ {β : Type} (f : Visit → Option β), (∀ v : Visit, f v.again = f v) →
      (vs.map Visit.again).filterMap f = vs.filterMap f := fun f hf => by
    rw [List.filterMap_map]
    exact congrArg (List.filterMap · vs) (funext hf)
  have hrecord : (vs.map Visit.again).filterMap Visit.record? =
      (vs.filterMap Visit.record?).map GeneratedRecord.again := by
    rw [List.filterMap_map, List.map_filterMap]
    refine congrArg (List.filterMap · vs) (funext fun v => ?_)
    rw [Function.comp_apply, Visit.record?, Visit.record?, Visit.again]
    cases v.fate <;> rfl
  rw [collect, hrecord, hagain, hagain, hagain, hagain]
  · rfl
  all_goals
    intro v
    obtain ⟨d, f⟩ := v
    cases f <;> rfl

/-- Whatever unit is to be written at a point, it is written or refused as before. -/
def Point.Repeats (files : FileSystem) (r : Resolver) (x : Point DirectoryOutput) : Prop :=
  ∀ u, x.before.IsReady r x.visit.declaration →
    unitOf x.before.config r x.visit.declaration = .ok u → x.before.world.Repeats files u.toText

namespace Processor

open DirectoryOutput

/-! ## Simulation -/

/-- Messages leave the files and what was written. -/
theorem Idled.retraces {p q : Processor DirectoryOutput} (h : Idled host p q) :
    Retraces p.world.files p.world q.world := by
  obtain ⟨entries, hworld⟩ := h.world
  rw [hworld]
  generalize p.world = o
  clear hworld
  induction entries generalizing o with
  | nil => exact ⟨rfl, rfl, rfl⟩
  | cons e entries ih =>
    obtain ⟨hfiles, hroot, hunits⟩ := ih (host.log e o)
    exact ⟨hfiles.trans (log_files o e), hroot.trans (print_root o _),
      hunits.trans (log_units o e)⟩

/-- A processor that works over other files as another one does. -/
structure Again (files : FileSystem) (p q : Processor DirectoryOutput) : Prop where
  config : q.config = p.config
  tracker : q.tracker = p.tracker
  world : Retraces files p.world q.world

variable {files : FileSystem} {p q p' q' : Processor DirectoryOutput} {r : Resolver}

theorem Again.idled (h : Again files p q) (hp : Idled host p p') (hq : Idled host q q') :
    Again files p' q' := by
  obtain ⟨-, hproot, hpunits⟩ := hp.retraces
  obtain ⟨hqfiles, hqroot, hqunits⟩ := hq.retraces
  exact ⟨by rw [hq.config, h.config, hp.config], by rw [hq.tracker, h.tracker, hp.tracker],
    by rw [hqfiles, h.world.files], by rw [hqroot, h.world.root, hproot],
    by rw [hqunits, h.world.units, hpunits]⟩

theorem writeUnit_again (h : Again files p q) {u : GeneratedUnit}
    (hrepeats : p.world.Repeats files u.toText) :
    Again files (p.writeUnit host u).1 (q.writeUnit host u).1 ∧
      (q.writeUnit host u).2 = (p.writeUnit host u).2.again := by
  obtain ⟨hretraces, hresult⟩ := hrepeats q.world h.world
  unfold writeUnit
  rw [host_write, host_write]
  cases hp : p.world.write u.toText with
  | mk o result =>
    cases hq : q.world.write u.toText with
    | mk o₂ result₂ =>
      rw [hp, hq] at hretraces hresult
      obtain rfl : result₂ = result.map WriteOutcome.again := hresult
      have hwritten : Again files { p with world := o } { q with world := o₂ } :=
        ⟨h.config, h.tracker, hretraces⟩
      cases result with
      | error f => exact ⟨hwritten.idled ((Idled.refl _).log _ _) ((Idled.refl _).log _ _), rfl⟩
      | ok w => exact ⟨hwritten.idled ((Idled.refl _).log _ _) ((Idled.refl _).log _ _), rfl⟩

theorem handle_again (h : Again files p q) {d : Declared}
    (hrepeats : (Point.of host p r d).Repeats files r) :
    Again files (p.handle host r d).1 (q.handle host r d).1 ∧
      (q.handle host r d).2 = (p.handle host r d).2.again := by
  have hready : q.IsReady r d ↔ p.IsReady r d := isReady_congr h.config h.tracker
  by_cases hp : p.IsReady r d
  · have htaking : Again files (p.taking d) (q.taking d) :=
      ⟨h.config, by simp only [taking, h.tracker], h.world⟩
    rw [handle_of_ready host hp, handle_of_ready host (hready.2 hp), generate, generate,
      show (q.taking d).config = (p.taking d).config from h.config]
    cases hunit : unitOf (p.taking d).config r d with
    | error e =>
      cases e with
      | panic text => exact ⟨htaking, rfl⟩
      | failure f => exact ⟨htaking.idled ((Idled.refl _).log _ _) ((Idled.refl _).log _ _), rfl⟩
    | ok u => exact writeUnit_again htaking (hrepeats u hp hunit)
  · obtain ⟨hpidle, hpfate⟩ := handle_idle (h := host) hp
    obtain ⟨hqidle, hqfate⟩ := handle_idle (h := host) fun hq => hp (hready.1 hq)
    refine ⟨h.idled hpidle hqidle, ?_⟩
    rw [hpfate, hqfate, idleFate, idleFate, h.config, h.tracker]
    split <;> rfl

theorem handleAll_again (h : Again files p q) {ds : List Declared}
    (hrepeats : ∀ x ∈ historyOf host r ds p, x.Repeats files r) :
    Again files (p.handleAll host r ds).1 (q.handleAll host r ds).1 ∧
      (q.handleAll host r ds).2 = (p.handleAll host r ds).2.map Visit.again := by
  induction ds generalizing p q with
  | nil => exact ⟨h, rfl⟩
  | cons d ds ih =>
    obtain ⟨hstep, hfate⟩ := handle_again h (hrepeats _ (.head _))
    rw [handleAll_cons, handleAll_cons]
    dsimp only
    rw [hfate, Fate.isPanic_again]
    split
    · exact ⟨hstep, rfl⟩
    · rename_i hquiet
      obtain ⟨hrest, hvisits⟩ := ih hstep fun x hx => hrepeats x (by
        rw [historyOf, if_neg hquiet]
        exact .tail _ hx)
      exact ⟨hrest, by rw [hvisits]; rfl⟩

/-- A round over the files goes as the round before. -/
theorem round_again (h : Again files p q) {u : Universe} {retried : List String}
    {out : RoundOutput} (hrepeats : ∀ x ∈ roundHistory host u p, x.Repeats files (.ofUniverse u))
    (hround : p.round host u retried = (p', .ok out)) :
    ∃ q', q.round host u retried = (q', .ok out.again) ∧ Again files p' q' := by
  obtain ⟨hquiet, rfl⟩ := round_ok.1 (congrArg Prod.snd hround)
  have hvisit : Again files (p.visit host u).1 (q.visit host u).1 ∧
      (q.visit host u).2 = (p.visit host u).2.map Visit.again := by
    unfold visit
    rw [h.config]
    exact handleAll_again h hrepeats
  have hanswer : (q.round host u retried).2 =
      .ok (RoundOutput.collect (p.visit host u).2).again := by
    refine round_ok.2 ⟨fun v hv => ?_, by rw [hvisit.2, RoundOutput.collect_again]⟩
    rw [hvisit.2] at hv
    obtain ⟨w, hw, rfl⟩ := List.mem_map.1 hv
    rw [Visit.panic?_eq_none, Visit.again, Fate.isPanic_again, ← Visit.panic?_eq_none]
    exact hquiet w hw
  refine ⟨(q.round host u retried).1, Prod.ext rfl hanswer, ?_⟩
  have hidle := visit_idled_round (h := host) u retried p
  rw [hround] at hidle
  exact hvisit.1.idled hidle (visit_idled_round u retried q)

theorem mem_historyOf {σ : Type} {h : Host σ} {p : Processor σ} {r : Resolver}
    {ds : List Declared} {x : Point σ} (hx : x ∈ historyOf h r ds p) :
    x = .of h x.before r x.visit.declaration ∧ x.visit.declaration ∈ ds := by
  induction ds generalizing p with
  | nil => cases hx
  | cons d ds ih =>
    rw [historyOf] at hx
    rcases List.mem_cons.1 hx with rfl | hx
    · exact ⟨rfl, .head _⟩
    · split at hx
      · cases hx
      · obtain ⟨hof, hmem⟩ := ih hx
        exact ⟨hof, .tail _ hmem⟩

end Processor

/-! ## What is left of a trail -/

namespace DirectoryOutput

variable {p q : Processor DirectoryOutput} {xs : List (Point DirectoryOutput)} {root : FilePath}
  {workingDirectory : Place}

/-- The places of the units that were generated. -/
def unitPlace (workingDirectory : Place) (xs : List (Point DirectoryOutput)) (here : Place) :
    Prop :=
  ∃ a ∈ generatedIn xs, here = lexicalPlace workingDirectory a.2

theorem trail_isTree (ht : Trail host p xs q) (hp : p.world.files.IsTree) :
    q.world.files.IsTree := by
  refine Trail.keeps (K := fun o : DirectoryOutput => o.files.IsTree) (fun _ => False)
    (fun e w hw => ?_) (fun u w w' f hw he => ?_) (fun u w w' o hw _ he => ?_) ht
    (fun _ _ => not_false) hp
  · rwa [log_files]
  all_goals
    rw [host_write] at he
    have hwrite := write_isTree hw u
    rwa [he] at hwrite

theorem finish_isTree {o : DirectoryOutput} {files : FileSystem} {m : FilePath}
    (h : o.files.IsTree) (hfinish : o.finish = .ok (files, m)) : files.IsTree := by
  obtain ⟨-, above, hmade, hwrite⟩ := finish_steps hfinish
  have habove := h.makeDirectories o.root
  rw [hmade] at habove
  exact habove.write hwrite

/-- Only the places of the units that are generated are touched. -/
theorem trail_grows (ht : Trail host p xs q) (hp : Within root workingDirectory p.world) :
    FileSystem.Grows (unitPlace workingDirectory xs) p.world.files q.world.files := by
  let K (o : DirectoryOutput) : Prop := Within root workingDirectory o ∧
    FileSystem.Grows (unitPlace workingDirectory xs) p.world.files o.files
  let clash (v : UnitText) : Prop := ¬ unitPlace workingDirectory xs
    (lexicalPlace workingDirectory (root.join (unitPath v.package v.unit)))
  suffices hK : K q.world from hK.2
  refine ht.keeps clash (fun e w hw => ?_) (fun v w w' f hw he => ?_)
    (fun v w w' o hw hclash he => ?_) (fun a ha hclash => hclash ?_) ⟨hp, .refl _⟩
  · refine ⟨hw.1.log e, ?_⟩
    rw [log_files]
    exact hw.2
  · rw [host_write] at he
    have hwithin := hw.1.write v
    have hc := w.write_cases v
    rw [he] at hc hwithin
    cases hc with
    | refused files grows => exact ⟨hwithin, hw.2.trans (grows.mono fun _ => False.elim)⟩
  · rw [host_write] at he
    have hwithin := hw.1.write v
    have hc := w.write_cases v
    rw [he] at hc hwithin
    refine ⟨hwithin, ?_⟩
    cases hc with
    | upToDate there =>
      rw [record_files]
      exact hw.2
    | written files grows there =>
      rw [record_files]
      refine hw.2.trans (grows.mono fun here hhere => ?_)
      rw [target, hw.1.root, hw.1.workingDirectory] at hhere
      rw [hhere]
      exact Classical.not_not.1 hclash
  · exact ⟨a, ha, by rw [path_of_mem ht hp ha]; rfl⟩

/-- The places of the units that were generated, and of the manifest. -/
def outputPlace (root : FilePath) (workingDirectory : Place) (xs : List (Point DirectoryOutput))
    (here : Place) : Prop :=
  unitPlace workingDirectory xs here ∨
    here = lexicalPlace workingDirectory (root.join ⟨manifestName⟩)

/-- Only the places of the output are touched by all that is written. -/
theorem output_grows {files : FileSystem} {m : FilePath} (ht : Trail host p xs q)
    (hp : Within root workingDirectory p.world) (hfinish : q.world.finish = .ok (files, m)) :
    FileSystem.Grows (outputPlace root workingDirectory xs) p.world.files files := by
  have hq := within_keeps ht hp
  have hmanifest := (finish_ok hfinish).1
  rw [hq.root, hq.workingDirectory] at hmanifest
  exact ((trail_grows ht hp).mono fun _ => .inl).trans (hmanifest.mono fun _ => .inr)

/-- The names of ignore files end in another letter than those of units and of the manifest. -/
theorem not_ignoreFile {here : Place} {name : String} (hname : name.toList.getLast? ≠ some 'e') :
    ∀ names ∈ FileSystem.ignoreFiles, ¬ names <:+ here ++ [name] := by
  rintro names hnames ⟨before, hnames'⟩
  have hlast := congrArg List.getLast? hnames'
  rw [List.getLast?_append, List.getLast?_concat] at hlast
  simp only [FileSystem.ignoreFiles, List.mem_cons, List.not_mem_nil, or_false] at hnames
  rcases hnames with rfl | rfl | rfl
  all_goals
    obtain rfl := Option.some.inj hlast
    exact hname (by decide)

theorem outputPlace_not_ignoreFile (ht : Trail host p xs q)
    (hp : Within root workingDirectory p.world) {here : Place}
    (h : outputPlace root workingDirectory xs here) :
    ∀ names ∈ FileSystem.ignoreFiles, ¬ names <:+ here := by
  rcases h with ⟨a, ha, rfl⟩ | rfl
  · obtain ⟨above, hplace⟩ := FileSystem.lexicalPlace_of_name workingDirectory
      (FilePath.components_join_join_name root (unitDirectory a.1.packageName)
        (unitFile_isName a.1.unitName))
    rw [path_of_mem ht hp ha, unitPath, hplace]
    exact not_ignoreFile (by simp [unitFile_toList])
  · obtain ⟨above, hplace⟩ := FileSystem.lexicalPlace_of_name workingDirectory
      (FilePath.components_join_name root manifestName_isName)
    rw [hplace]
    exact not_ignoreFile (by decide)

/-- After a trail that keeps its units apart, every unit is written or refused as it was. -/
theorem repeats_of_trail {r : Resolver} {files : FileSystem} {m : FilePath}
    (ht : Trail host p xs q) (hp : Within root workingDirectory p.world)
    (htree₀ : p.world.files.IsTree) (hfinish : q.world.finish = .ok (files, m))
    (hxs : ∀ x ∈ xs, x = .of host x.before r x.visit.declaration)
    (hdistinct : (generatedIn xs).Pairwise fun a b =>
      lexicalPlace workingDirectory a.2 ≠ lexicalPlace workingDirectory b.2)
    (hfailures : ∀ x ∈ xs, (∀ f, x.fate ≠ .unwritten f) ∨
      .parent ∉ (root.join (unitDirectory x.visit.declaration.packageName)).components) :
    ∀ x ∈ xs, x.Repeats files r := by
  intro x hx u hready hunit
  obtain ⟨before, after, rfl⟩ := List.append_of_mem hx
  obtain ⟨-, -, -, hbefore, hafter⟩ := ht.split
  have hwithin := within_keeps hbefore hp
  have htree := trail_isTree hbefore htree₀
  have hfate : x.fate = (x.before.handle host r x.visit.declaration).2 :=
    congrArg Point.fate (hxs x hx)
  have hdone : x.after = (x.before.handle host r x.visit.declaration).1 :=
    congrArg Point.after (hxs x hx)
  have hc := x.before.handle_cases host r x.visit.declaration
  generalize x.before.handle host r x.visit.declaration = y at hfate hdone hc
  cases hc with
  | skipped known => exact absurd known hready.new
  | deferred _ unresolved some => exact absurd (unresolved.symm.trans hready.resolved) some
  | panicked _ unit => rw [hunit] at unit; cases unit
  | aborted _ unit => rw [hunit] at unit; cases unit
  | @unwritten _ _ unit w f refused =>
    rw [hunit] at unit
    cases unit
    rw [host_write] at refused
    have hforward : .parent ∉ (x.before.world.root.join
        (unitDirectory u.toText.package)).components := by
      rw [hwithin.root, GeneratedUnit.toText, (unitOf_ok hunit).packageName]
      exact (hfailures x hx).resolve_left fun hno => hno f hfate
    obtain ⟨e, rfl, hrefusal⟩ := refusal_of_write htree hforward refused
    have hafter' : x.after.world.files = w.files := by
      rw [hdone]
      exact log_files w _
    have hwritten := hwithin.write u.toText
    rw [refused] at hwritten
    have hwithin' : Within root workingDirectory x.after.world := by
      rw [hdone]
      exact hwritten.log _
    have hgrows := trail_grows hafter hwithin'
    rw [hafter'] at hgrows
    exact repeats_of_refused refused ((finish_isTree (trail_isTree ht htree₀) hfinish).origin _)
      ((hrefusal.of_grows hgrows).of_grows (finish_ok hfinish).1)
  | @generated _ _ unit w o accepted =>
    rw [hunit] at unit
    cases unit
    rw [host_write] at accepted
    have hpath : o.path = x.before.world.target u.toText := (accepted_hasSource accepted).1
    have hmade : generatedIn (before ++ x :: after) =
        generatedIn before ++ (u, o.path) :: generatedIn after := by
      rw [generatedIn, List.filterMap_append, List.filterMap_cons, hfate]
      rfl
    have hlater := (List.pairwise_append.1 (hmade ▸ hdistinct)).2.1
    have hkept := (keeps_of_trail ht).source _ _ _ _ hmade fun b hb hplace =>
      (List.pairwise_cons.1 hlater).1 b hb (by
        rw [(within_keeps ht hp).workingDirectory] at hplace
        exact hplace.symm)
    refine repeats_of_accepted accepted ?_
    rw [← hpath]
    exact hkept.2 _ _ hfinish

theorem Retraces.finish_eq {o o' : DirectoryOutput} (h : Retraces o.files o o') :
    o'.finish = o.finish := by
  rw [finish, finish, entries, entries, h.files, h.root, h.units]

/-- Writing the manifest again changes nothing. -/
theorem finish_again {o o' : DirectoryOutput} {files : FileSystem} {m : FilePath}
    (hfinish : o.finish = .ok (files, m)) (h : Retraces files o o') :
    o'.finish = .ok (files, m) := by
  obtain ⟨rfl, above, hmade, hwrite⟩ := finish_steps hfinish
  have hgrows := FileSystem.write_grows hwrite
  have hthere : o.root.text = "" ∨ files.isDirectory o.root :=
    (FileSystem.makeUpTo_made hmade).imp_right (FileSystem.isDirectory_of_grows · hgrows)
  rw [finish, entries, h.files, h.root, h.units,
    FileSystem.createDirectories_ok.2 (FileSystem.makeDirectories_of_isDirectory hthere)]
  show (do
    let files ← files.writeText (o.root.join ⟨manifestName⟩) (manifest o.entries).pretty
    return (files, o.root.join ⟨manifestName⟩)) = _
  rw [FileSystem.writeText_again hwrite]
  rfl

end DirectoryOutput

/-! ## Generating again -/

namespace Processor

/-- What a run comes to whose first round returns. -/
theorem fixpoint_of_first_round {σ : Type} {h : Host σ} {p p₁ : Processor σ} {u : Universe}
    {out : RoundOutput} (hround : (p.warned h u).round h u [] = (p₁, .ok out)) :
    ∃ q, Idled h p₁ q ∧ p.runToFixpoint h u = (q, .ok { (startReport u).absorb out with
      rounds := if out.madeProgress then 2 else 1
      deferred := (p₁.waiting u).map DeferredService.line }) := by
  obtain ⟨q, hq, hrounds⟩ := rounds_two hround (startReport u)
  obtain ⟨s, hs, hrun⟩ := fixpoint_of_rounds (hrounds 14)
  refine ⟨s, hq.trans hs, hrun.trans ?_⟩
  simp [startReport]

/-- What a run reports of its first round, after which it only logs. -/
theorem report_of_first_round {σ : Type} {h : Host σ} {p p₁ q : Processor σ} {u : Universe}
    {out : RoundOutput} {report : BuildReport} (hrun : p.runToFixpoint h u = (q, .ok report))
    (hround : (p.warned h u).round h u [] = (p₁, .ok out)) :
    Idled h p₁ q ∧
      report.generated.map (·.path) =
        (generatedIn (roundHistory h u (p.warned h u))).map (·.2) ∧
      (report.writeFailures = [] →
        ∀ x ∈ roundHistory h u (p.warned h u), ∀ f, x.fate ≠ .unwritten f) := by
  obtain ⟨s, hs, hrun'⟩ := fixpoint_of_first_round hround
  rw [hrun] at hrun'
  obtain ⟨rfl, hreport⟩ := Prod.mk.inj hrun'
  obtain rfl := Except.ok.inj hreport
  refine ⟨hs, ?_, fun hnone x hx f hfate => ?_⟩
  · have hgenerated := congrArg (List.map (·.2.2)) (round_generated h (congrArg Prod.snd hround))
    rw [List.map_map, List.map_map] at hgenerated
    exact hgenerated
  · obtain ⟨-, rfl⟩ := round_ok.1 (congrArg Prod.snd hround)
    have hmem : f ∈ ((p.warned h u).visit h u).2.filterMap Visit.refusal? := by
      rw [visit, ← historyOf_visits]
      refine List.mem_filterMap.2 ⟨x.visit, List.mem_map_of_mem hx, ?_⟩
      rw [Visit.refusal?, show x.visit.fate = .unwritten f from hfate]
    have hnil : ((p.warned h u).visit h u).2.filterMap Visit.refusal? = [] :=
      List.map_eq_nil_iff.1 hnone
    rw [hnil] at hmem
    cases hmem

/-- A run over the files goes as the run before. -/
theorem fixpoint_again {files : FileSystem} {p q p₁ : Processor DirectoryOutput} {u : Universe}
    {report : BuildReport} (h : Again files p q)
    (hrepeats : ∀ x ∈ roundHistory DirectoryOutput.host u (p.warned DirectoryOutput.host u),
      x.Repeats files (.ofUniverse u))
    (hrun : p.runToFixpoint DirectoryOutput.host u = (p₁, .ok report)) :
    ∃ q₁, q.runToFixpoint DirectoryOutput.host u = (q₁, .ok report.again) ∧ Again files p₁ q₁ := by
  have hwarned : Again files (p.warned DirectoryOutput.host u) (q.warned DirectoryOutput.host u) :=
    h.idled ((Idled.refl p).logAll _ _) ((Idled.refl q).logAll _ _)
  obtain ⟨p₀, out, hround⟩ := first_round_of_fixpoint hrun
  obtain ⟨q₀, hround', hagain⟩ := round_again hwarned hrepeats hround
  obtain ⟨p₂, hp, hprun⟩ := fixpoint_of_first_round hround
  obtain ⟨q₂, hq, hqrun⟩ := fixpoint_of_first_round hround'
  rw [hrun] at hprun
  obtain ⟨rfl, hreport⟩ := Prod.mk.inj hprun
  obtain rfl := Except.ok.inj hreport
  refine ⟨q₂, hqrun.trans ?_, hagain.idled hp hq⟩
  have hprogress : out.again.madeProgress = out.madeProgress := by
    simp [RoundOutput.madeProgress, RoundOutput.again]
  have hwaiting : q₀.waiting u = p₀.waiting u := by
    unfold waiting
    rw [hagain.config, hagain.tracker]
  rw [hprogress, hwaiting]
  simp [BuildReport.again, BuildReport.absorb, RoundOutput.again, startReport]

end Processor

namespace Command

open DirectoryOutput

variable {fs : FileSystem} {source out : FilePath} {c : Config} {forBuild : Bool}
  {report : BuildReport}

/-- What a run that succeeds went through. -/
theorem generateInto_ok (h : (generateInto fs source out c forBuild).answer = .ok report) :
    ∃ u p m, Universe.load fs source c.exclude = .ok u ∧
      (Processor.start c (.start fs out forBuild)).runToFixpoint host u = (p, .ok report) ∧
      p.world.finish = .ok ((generateInto fs source out c forBuild).files, m) := by
  unfold generateInto at h ⊢
  cases hload : Universe.load fs source c.exclude with
  | error f => simp [loadSources, during, hload, Except.mapError, Outcome.halted] at h
  | ok u =>
    simp only [loadSources, during, hload, Except.mapError] at h ⊢
    cases hrun : (Processor.start c (.start fs out forBuild)).runToFixpoint host u with
    | mk p answer =>
      rw [hrun] at h
      cases answer with
      | error text => cases h
      | ok report' =>
        dsimp only at h ⊢
        cases hfinish : p.world.finish with
        | error e =>
          rw [hfinish] at h
          cases h
        | ok done =>
          rw [hfinish] at h
          cases h
          exact ⟨u, p, done.2, rfl, hrun, hfinish⟩

theorem generateInto_of {u : Universe} {p : Processor DirectoryOutput} {files : FileSystem}
    {m : FilePath} (hload : Universe.load fs source c.exclude = .ok u)
    (hrun : (Processor.start c (.start fs out forBuild)).runToFixpoint host u = (p, .ok report))
    (hfinish : p.world.finish = .ok (files, m)) :
    generateInto fs source out c forBuild = ⟨files, p.world.printed, .ok report⟩ := by
  unfold generateInto
  simp only [loadSources, during, hload, Except.mapError, hrun, hfinish]

/-- A run that succeeds, generates each unit into a file of its own and none among the sources. -/
@[mk_iff]
structure Apart (fs : FileSystem) (source out : FilePath) (c : Config) (forBuild : Bool)
    (report : BuildReport) : Prop where
  isTree : fs.IsTree
  answer : (generateInto fs source out c forBuild).answer = .ok report
  distinct : report.generated.Pairwise fun a b =>
    lexicalPlace fs.workingDirectory a.path ≠ lexicalPlace fs.workingDirectory b.path
  outside : ∀ p ∈ out.join ⟨manifestName⟩ :: report.generated.map (·.path),
    ¬ lexicalPlace fs.workingDirectory source <+: lexicalPlace fs.workingDirectory p

/-- **Generating again changes nothing**: no file changes, and the report is the same but for the
units, none of which is written. The first run may defer, abort and fail to write whatever it will,
but there are two conditions. It must not make a repository of the source directory or of one above
or below it, since the ignore files of a repository count only inside it. And when a unit could not
be written, no path of a unit's directory may have a `..`: such a path can be followed only after
the directories on its way were made, which is another error the second time. -/
theorem generate_again (fs : FileSystem) (source out : FilePath) (c : Config) (forBuild : Bool)
    (report : BuildReport) (hapart : Apart fs source out c forBuild report)
    (hrepository : ∀ d, FileSystem.IsAround d (lexicalPlace fs.workingDirectory source) →
      (generateInto fs source out c forBuild).files.isRepository d → fs.isRepository d)
    (hfailures : report.writeFailures = [] ∨ ∀ u, Universe.load fs source c.exclude = .ok u →
      ∀ d ∈ scan u c.marker, .parent ∉ (out.join (unitDirectory d.packageName)).components) :
    let first := generateInto fs source out c forBuild
    let second := generateInto first.files source out c forBuild
    second.files = first.files ∧ second.answer = .ok report.again := by
  intro first second
  obtain ⟨htree, hfirst, hdistinct, houtside⟩ := hapart
  obtain ⟨u, p, m, hload, hrun, hfinish⟩ := generateInto_ok hfirst
  let p₀ := Processor.start c (DirectoryOutput.start fs out forBuild)
  let warned := p₀.warned host u
  let xs := warned.roundHistory host u
  obtain ⟨p₁, o, hround⟩ := Processor.first_round_of_fixpoint hrun
  obtain ⟨hidle, hpaths, hwritten⟩ := Processor.report_of_first_round hrun hround
  have ht : Trail host warned xs p₁ := by
    have ht := warned.roundHistory_trail host u []
    rwa [hround] at ht
  have hfinish₁ : p₁.world.finish = .ok (first.files, m) :=
    hidle.retraces.finish_eq.symm.trans hfinish
  have hwarned : p₀.Idled host warned := (Processor.Idled.refl p₀).logAll _ _
  have hfiles : warned.world.files = fs := hwarned.retraces.files
  have hwithin : Within out fs.workingDirectory warned.world :=
    ⟨hwarned.retraces.root, by rw [hfiles]⟩
  have hmem : ∀ x ∈ xs, x = .of host x.before (.ofUniverse u) x.visit.declaration ∧
      x.visit.declaration ∈ scan u c.marker := fun x hx => by
    obtain ⟨hof, hdeclared⟩ := Processor.mem_historyOf hx
    rw [hwarned.config] at hdeclared
    exact ⟨hof, hdeclared⟩
  -- every unit is written or refused as before
  have hrepeats : ∀ x ∈ xs, x.Repeats first.files (.ofUniverse u) := by
    refine repeats_of_trail ht hwithin (by rwa [hfiles]) hfinish₁ (fun x hx => (hmem x hx).1) ?_
      fun x hx => ?_
    · let apart (p q : FilePath) : Prop :=
        lexicalPlace fs.workingDirectory p ≠ lexicalPlace fs.workingDirectory q
      have hplaces := (List.pairwise_map (f := GeneratedRecord.path) (R := apart)).2 hdistinct
      rw [hpaths] at hplaces
      exact (List.pairwise_map (f := Prod.snd) (R := apart)).1 hplaces
    · rcases hfailures with hnone | hforward
      · exact .inl (hwritten hnone x hx)
      · exact .inr (hforward u hload _ (hmem x hx).2)
  -- the sources are left alone
  have hbeside : FileSystem.GrowsBeside (lexicalPlace fs.workingDirectory source)
      (outputPlace out fs.workingDirectory xs) fs first.files := by
    have hgrows := output_grows ht hwithin hfinish₁
    rw [hfiles] at hgrows
    refine ⟨hgrows, ?_, fun _ => outputPlace_not_ignoreFile ht hwithin, hrepository⟩
    rintro here (⟨a, ha, rfl⟩ | rfl)
    · refine houtside a.2 (.tail _ ?_)
      rw [hpaths]
      exact List.mem_map_of_mem ha
    · exact houtside _ (.head _)
  have hload' := Universe.load_of_growsBeside hbeside htree hload
  obtain ⟨q, hrun', hagain⟩ := Processor.fixpoint_again
    (p := p₀) (q := .start c (DirectoryOutput.start first.files out forBuild))
    ⟨rfl, rfl, rfl, rfl, rfl⟩ hrepeats hrun
  rw [show second = _ from generateInto_of hload' hrun' (finish_again hfinish hagain.world)]
  exact ⟨rfl, rfl⟩

instance : Decidable (Apart fs source out c forBuild report) :=
  decidable_of_iff _ (apart_iff ..).symm

/-- The source of a service without members. -/
def bareSource : String := "#[remote_service]\ntrait Api: Send + Sync {}\n"

/-- An ignore file that names the only source, but counts for nothing outside a repository. -/
def ignoredSource : FileSystem where
  entries := [([".gitignore"], .file (.text "api.rs\n")), (["src"], .directory),
    (["src", "api.rs"], .file (.text bareSource))]
  workingDirectory := []

/-- A file stands in the place of the directory of `crate::f`. -/
def blockedUnit : FileSystem where
  entries := [(["src"], .directory), (["src", "f"], .directory),
    (["src", "f", "g.rs"], .file (.text bareSource)), (["out"], .directory),
    (["out", "f"], .file (.text "no directory\n"))]
  workingDirectory := []

/-- Neither condition can go. A unit below `.git` makes a repository, whose ignore file then leaves
the source out. And `m/../out` leads nowhere before `m` is made, but to a file afterwards. -/
theorem generate_again_differs :
    (let first := generateInto ignoredSource ⟨"src"⟩ ⟨".git/units"⟩ .default false
      let report := ⟨2, [⟨"crate::api::Api", "ApiDslExtensions",
        ⟨".git/units/api/api_dsl_extensions.rs"⟩, true⟩], [], [], [], []⟩
      Apart ignoredSource ⟨"src"⟩ ⟨".git/units"⟩ .default false report ∧
        (generateInto first.files ⟨"src"⟩ ⟨".git/units"⟩ .default false).answer =
          .ok ⟨1, [], [], [], [], []⟩) ∧
    (let first := generateInto blockedUnit ⟨"src"⟩ ⟨"m/../out"⟩ .default false
      let failure := "failed to write ApiDslExtensions: "
      Apart blockedUnit ⟨"src"⟩ ⟨"m/../out"⟩ .default false
          ⟨2, [], [], [], [failure ++ "File exists (os error 17)"], []⟩ ∧
        (generateInto first.files ⟨"src"⟩ ⟨"m/../out"⟩ .default false).answer =
          .ok ⟨2, [], [], [], [failure ++ "Not a directory (os error 20)"], []⟩) := by
  decide +kernel

/-- Another source, whose unit nothing blocks. -/
def halfBlocked : FileSystem :=
  { blockedUnit with
    entries := (["src", "api.rs"], .file (.text bareSource)) :: blockedUnit.entries }

def halfBlockedReport (written : Bool) : BuildReport :=
  ⟨2, [⟨"crate::api::Api", "ApiDslExtensions", ⟨"out/api/api_dsl_extensions.rs"⟩, written⟩], [], [],
    ["failed to write ApiDslExtensions: Not a directory (os error 20)"], []⟩

/-- One unit is up to date the second time, the other is blocked again. -/
theorem generate_again_halfBlocked :
    let first := generateInto halfBlocked ⟨"src"⟩ ⟨"out"⟩ .default false
    let second := generateInto first.files ⟨"src"⟩ ⟨"out"⟩ .default false
    Apart halfBlocked ⟨"src"⟩ ⟨"out"⟩ .default false (halfBlockedReport true) ∧
      second.files = first.files ∧ second.answer = .ok (halfBlockedReport false) := by
  -- one conjunction, so that the first run is evaluated once
  have hfirst : Apart halfBlocked ⟨"src"⟩ ⟨"out"⟩ .default false (halfBlockedReport true) ∧
      (∀ e ∈ (generateInto halfBlocked ⟨"src"⟩ ⟨"out"⟩ .default false).files.entries,
        e.1.getLast? ≠ some ".git") ∧
      (Universe.load halfBlocked ⟨"src"⟩ Config.default.exclude).toOption.all fun u =>
        (scan u Config.default.marker).all fun d =>
          .parent ∉ ((⟨"out"⟩ : FilePath).join (unitDirectory d.packageName)).components := by
    decide +kernel
  obtain ⟨hapart, hrepository, hforward⟩ := hfirst
  refine ⟨hapart, generate_again halfBlocked ⟨"src"⟩ ⟨"out"⟩ .default false _ hapart
    (fun d _ hd => ?_) (.inr fun u hu d hd => ?_)⟩
  · obtain ⟨e, he, hgit⟩ := FileSystem.exists_of_isRepository hd
    exact absurd hgit (hrepository e he)
  · rw [hu] at hforward
    exact of_decide_eq_true (List.all_eq_true.1 hforward d hd)

end Command

end WrapperGen
