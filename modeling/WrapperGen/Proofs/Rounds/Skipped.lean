import WrapperGen.Proofs.Rounds.Places
/-!
# What a round skips

`skipped_unless_repeated`: a round skips the traits that an earlier request took up, and those
that repeat a trait it took up itself. So what it reports as skipped was taken up earlier exactly
if no ready trait is followed by another one of its name. Two files of one module are enough for
such a repetition (`one_module_two_files`).
-/

namespace WrapperGen

/-- What holds of all pairs holds of each element and those before it, and conversely. -/
theorem pairwise_iff_before {α : Type} {R : α → α → Prop} {xs : List α} :
    xs.Pairwise R ↔ ∀ before x after, xs = before ++ x :: after → ∀ w ∈ before, R w x := by
  constructor
  · rintro hxs before x after rfl w hw
    exact (List.pairwise_append.1 hxs).2.2 w hw x (.head _)
  · induction xs with
    | nil => exact fun _ => .nil
    | cons y xs ih =>
      refine fun hsplit => .cons (fun x hx => ?_) (ih fun before x after hxs w hw => ?_)
      · obtain ⟨before, after, rfl⟩ := List.append_of_mem hx
        exact hsplit (y :: before) x after rfl y (.head _)
      · exact hsplit (y :: before) x after (by rw [hxs]; rfl) w (.tail _ hw)

theorem RoundOutput.mem_skipped {vs : List Visit} {name : String} :
    name ∈ (collect vs).skipped ↔ ∃ v ∈ vs, v.fate = .skipped ∧ v.name = name := by
  simp only [collect, List.mem_filterMap]
  refine exists_congr fun v => and_congr_right fun _ => ?_
  unfold Visit.skip?
  cases v.fate <;> simp

namespace Processor

variable {σ : Type} {h : Host σ} {p : Processor σ} {r : Resolver}

/-! ## One trait -/

theorem handle_skipped {d : Declared} :
    (p.handle h r d).2 = .skipped ↔ d.qualifiedName ∈ p.tracker.processed := by
  have hc := p.handle_cases h r d
  generalize p.handle h r d = y at hc ⊢
  cases hc with
  | skipped known => exact ⟨fun _ => known, fun _ => rfl⟩
  | deferred new _ _ => exact ⟨nofun, fun known => absurd known new⟩
  | panicked ready _ | aborted ready _ | unwritten ready _ _ | generated ready _ _ =>
    exact ⟨nofun, fun known => absurd known ready.new⟩

/-- Handling a trait takes up its name if it is ready, and nothing else. -/
theorem mem_handle_processed {d : Declared} {name : String} :
    name ∈ (p.handle h r d).1.tracker.processed ↔
      name ∈ p.tracker.processed ∨ p.IsReady r d ∧ d.qualifiedName = name := by
  have hc := p.handle_cases h r d
  generalize p.handle h r d = y at hc ⊢
  cases hc with
  | skipped known =>
    have hd : ¬ p.IsReady r d := fun ready => ready.new known
    simp [hd]
  | deferred _ unresolved some =>
    have hd : ¬ p.IsReady r d := fun ready => some (unresolved.symm.trans ready.resolved)
    simp [hd]
  | panicked ready _ | aborted ready _ | unwritten ready _ _ | generated ready _ _ =>
    simp [taking, ready, or_comm, eq_comm]

/-! ## All traits of a round -/

/-- A visit is skipped if its name was taken up before the round, or by a visit before it. -/
theorem handleAll_skipped {ds : List Declared}
    (hquiet : ∀ v ∈ (p.handleAll h r ds).2, v.panic? = none) {before after : List Visit} {v : Visit}
    (hvisits : (p.handleAll h r ds).2 = before ++ v :: after) :
    v.fate = .skipped ↔ v.name ∈ p.tracker.processed ∨
      ∃ w ∈ before, w.name = v.name ∧ p.IsReady r w.declaration := by
  induction ds generalizing p before with
  | nil => cases before <;> cases hvisits
  | cons d ds ih =>
    have hcons := handleAll_cons_quiet hquiet
    rw [hcons] at hquiet hvisits
    cases before with
    | nil =>
      obtain ⟨rfl, -⟩ := List.cons.inj hvisits
      simp [Visit.name, handle_skipped]
    | cons w before =>
      obtain ⟨rfl, hrest⟩ := List.cons.inj hvisits
      rw [ih (fun v hv => hquiet v (.tail _ hv)) hrest, mem_handle_processed]
      simp only [handle_isReady, Visit.name, List.mem_cons, exists_eq_or_imp]
      constructor
      · rintro ((hknown | ⟨hready, hname⟩) | ⟨w, hw, hname, hready, -⟩)
        · exact .inl hknown
        · exact .inr (.inl ⟨hname, hready⟩)
        · exact .inr (.inr ⟨w, hw, hname, hready⟩)
      · rintro (hknown | ⟨hname, hready⟩ | ⟨w, hw, hname, hready⟩)
        · exact .inl (.inl hknown)
        · exact .inl (.inr ⟨hready, hname⟩)
        · -- `d` may have taken up the name before `w` could
          by_cases hd : p.IsReady r d ∧ d.qualifiedName = v.declaration.qualifiedName
          · exact .inl (.inr hd)
          · exact .inr ⟨w, hw, hname, hready, fun hdready hdw => hd ⟨hdready, hdw.trans hname⟩⟩

end Processor

/-! ## Rounds after other requests -/

/-- **What a round skips.** For every host and every sequence of requests: a round after them that
returns visits every marked trait that it found, puts each in one of its lists, and skips exactly
those whose name the requests took up, or that a ready trait of the same name stands before. So all
that it skips was taken up by the requests exactly if no ready trait is followed by another one of
its name, and then a first round skips nothing. -/
theorem skipped_unless_repeated {σ : Type} (h : Host σ) (c : Config) (world : σ)
    (qs : List Request) (u : Universe) (retried : List String) (out : RoundOutput)
    (hround : ((Request.serveAll h (.start c world) qs).1.round h u retried).2 = .ok out) :
    let p := (Request.serveAll h (.start c world) qs).1
    let known := settledNames (Request.serveAll h (.start c world) qs).2
    let r := Resolver.ofUniverse u
    let found := scan u c.marker
    let unrepeated := found.Pairwise fun d e => p.IsReady r d → d.qualifiedName ≠ e.qualifiedName
    (∃ visits : List Visit, visits.map (·.declaration) = found ∧ out = .collect visits ∧
      (∀ v ∈ visits, v.places.count true = 1 ∧ v.fate.IsOf v.name) ∧
      ∀ before v after, visits = before ++ v :: after →
        (v.fate = .skipped ↔ v.name ∈ known ∨
          ∃ w ∈ before, w.name = v.name ∧ p.IsReady r w.declaration)) ∧
    ((∀ name ∈ out.skipped, name ∈ known) ↔ unrepeated) ∧
    (known = [] → (out.skipped = [] ↔ unrepeated)) := by
  intro p known r found unrepeated
  have ht : Trail h (.start c world) _ p := Request.serveAll_trail h (.start c world) qs
  have hknown : ∀ name, name ∈ p.tracker.processed ↔ name ∈ known := fun name => by
    rw [ht.mem_processed]
    simp [Processor.start, Tracker.empty, known]
  obtain ⟨hquiet, rfl⟩ := Processor.round_ok.1 hround
  have hfound : scan u p.config.marker = found := by rw [ht.config]; rfl
  have hvisits : (p.visit h u).2.map (·.declaration) = found := by
    rw [← hfound]
    exact Processor.handleAll_declarations hquiet
  have hskipped : ∀ before v after, (p.visit h u).2 = before ++ v :: after →
      (v.fate = .skipped ↔ v.name ∈ known ∨
        ∃ w ∈ before, w.name = v.name ∧ p.IsReady r w.declaration) := fun before v after hv => by
    rw [← hknown]
    exact Processor.handleAll_skipped hquiet hv
  have hall : (∀ name ∈ (RoundOutput.collect (p.visit h u).2).skipped, name ∈ known) ↔
      unrepeated := by
    show _ ↔ found.Pairwise _
    rw [← hvisits, List.pairwise_map, pairwise_iff_before]
    constructor
    · intro hall before v after hv w hw hready hname
      have hv' : v.name ∈ known := hall _ (RoundOutput.mem_skipped.2
        ⟨v, by rw [hv]; simp, (hskipped before v after hv).2 (.inr ⟨w, hw, hname, hready⟩), rfl⟩)
      exact hready.new ((hknown _).2 (hname ▸ hv'))
    · intro hpairs name hname
      obtain ⟨v, hmem, hfate, rfl⟩ := RoundOutput.mem_skipped.1 hname
      obtain ⟨before, after, hv⟩ := List.append_of_mem hmem
      rcases (hskipped before v after hv).1 hfate with hv' | ⟨w, hw, hname, hready⟩
      · exact hv'
      · exact absurd hname (hpairs before v after hv w hw hready)
  refine ⟨⟨_, hvisits, rfl, fun v hv =>
    ⟨Visit.count_places (hquiet v hv), Processor.visit_isOf hv⟩, hskipped⟩, hall, fun hnone => ?_⟩
  rw [← hall, hnone, List.eq_nil_iff_forall_not_mem]
  exact ⟨fun hno name hname => absurd hname (hno name),
    fun hno name hname => List.not_mem_nil (hno name hname)⟩

/-- A second round over `unevenCopies` skips both copies of one service, which the first took up. -/
theorem second_round_skips :
    let p := (Request.serveAll Recording.host (.start .default (.start none))
      [.round unevenCopies []]).1
    ∃ out, (p.round Recording.host unevenCopies ["crate::api::Late"]).2 = .ok out ∧
      out.skipped = ["crate::api::Twice", "crate::api::Twice", "crate::api::Alone"] ∧
      (scan unevenCopies Config.default.marker).Pairwise fun d e =>
        p.IsReady (.ofUniverse unevenCopies) d → d.qualifiedName ≠ e.qualifiedName := by
  intro p
  let earlier := settledNames (Request.serveAll Recording.host (.start .default (.start none))
    [.round unevenCopies []]).2
  -- one conjunction, so that the first round is evaluated once
  have hskipped : ((p.round Recording.host unevenCopies ["crate::api::Late"]).2.toOption.map
        (·.skipped)) = some ["crate::api::Twice", "crate::api::Twice", "crate::api::Alone"] ∧
      ∀ name ∈ ["crate::api::Twice", "crate::api::Twice", "crate::api::Alone"],
        name ∈ earlier := by
    decide +kernel
  obtain ⟨hskipped, hearlier⟩ := hskipped
  obtain ⟨out, hout, hnames⟩ := Option.map_eq_some_iff.1 hskipped
  have hround := toOption_eq_some.1 hout
  obtain ⟨-, hall, -⟩ := skipped_unless_repeated Recording.host .default (.start none)
    [.round unevenCopies []] unevenCopies ["crate::api::Late"] out hround
  refine ⟨out, hround, hnames, hall.1 fun name hname => ?_⟩
  rw [hnames] at hname
  exact hearlier name hname

/-- One name in both root files of a crate; the second trait could not be shared. -/
def rootFiles : List (String × String) :=
  [("lib.rs", "#[remote_service]\ntrait Api: Send + Sync {}\n"),
    ("main.rs", "#[remote_service]\ntrait Api {}\n")]

/-- The first round of a new processor skips the second trait, which nothing took up before. -/
theorem one_module_two_files :
    settledNames (Request.serveAll Recording.host (.start .default (.start none)) []).2 = [] ∧
    ∃ u, Universe.ofSources rootFiles = .ok u ∧
      ∃ out, ((Processor.start .default (.start none)).round Recording.host u []).2 = .ok out ∧
        out.skipped = ["crate::Api"] ∧ out.aborted = [] := by
  refine ⟨rfl, ?_⟩
  have hround : ((Universe.ofSources rootFiles).toOption.bind fun u =>
      ((Processor.start .default (.start none)).round Recording.host u []).2.toOption.map
        fun out => (out.skipped, out.aborted)) = some (["crate::Api"], []) := by decide +kernel
  obtain ⟨u, hu, hround⟩ := Option.bind_eq_some_iff.1 hround
  obtain ⟨out, hout, hlists⟩ := Option.map_eq_some_iff.1 hround
  exact ⟨u, toOption_eq_some.1 hu, out, toOption_eq_some.1 hout, congrArg Prod.fst hlists,
    congrArg Prod.snd hlists⟩

end WrapperGen
