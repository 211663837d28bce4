import WrapperGen.Proofs.Files.Paths
import WrapperGen.Service.Universe
/-!
# The latest version of each file

A universe grows call by call, and a call may fail or bring a new version of a file that is there.
`latest_version_held`: after any calls the files are those of the calls that nothing replaced, in
the order of these calls. Paths count by their components here, so a file that comes back under
another spelling of its path takes the place of the old one.
-/

namespace WrapperGen.Universe

open Files Source

/-! ## Calls -/

/-- What `add` is called with. -/
structure Addition where
  path : FilePath
  text : String

/-- The file that a call adds, if its text can be read. -/
def Addition.file? (a : Addition) : Option SourceFile :=
  match File.parse a.text with
  | .ok content => some ⟨a.path, modulePath a.path, content⟩
  | .error _ => none

/-- The universe after a call, the same as before if the call fails. -/
def afterCall (u : Universe) (a : Addition) : Universe :=
  match u.add a.path a.text with
  | .ok v => v
  | .error _ => u

def afterCalls (u : Universe) (calls : List Addition) : Universe := calls.foldl afterCall u

variable {u : Universe} {a : Addition} {f : SourceFile}

theorem file?_eq_some : a.file? = some f ↔
    ∃ content, File.parse a.text = .ok content ∧ f = ⟨a.path, modulePath a.path, content⟩ := by
  unfold Addition.file?
  generalize File.parse a.text = parsed
  cases parsed with
  | ok content => simp [eq_comm]
  | error e => simp

theorem file?_eq_none : a.file? = none ↔ ∃ e, File.parse a.text = .error e := by
  unfold Addition.file?
  generalize File.parse a.text = parsed
  cases parsed <;> simp

theorem file?_path (hfile : a.file? = some f) : f.path = a.path := by
  obtain ⟨content, -, rfl⟩ := file?_eq_some.1 hfile
  rfl

theorem add_ok (hfile : a.file? = some f) : u.add a.path a.text =
    .ok { u with files := u.files.filter (!·.path.same a.path) ++ [f] } := by
  obtain ⟨content, hparse, rfl⟩ := file?_eq_some.1 hfile
  unfold add
  generalize File.parse a.text = parsed at hparse
  subst hparse
  rfl

theorem add_error {e : SyntaxError} (hparse : File.parse a.text = .error e) :
    u.add a.path a.text =
      .error (.parse a.path e.pos.line (e.pos.column + 1) e.fault.message) := by
  unfold add
  generalize File.parse a.text = parsed at hparse
  subst hparse
  rfl

/-- Whether a call succeeds depends on its text alone. -/
theorem add_isOk_iff : (∃ v, u.add a.path a.text = .ok v) ↔ ∃ f, a.file? = some f := by
  constructor
  · rintro ⟨v, hv⟩
    cases hfile : a.file? with
    | some f => exact ⟨f, rfl⟩
    | none =>
      obtain ⟨e, hparse⟩ := file?_eq_none.1 hfile
      rw [add_error hparse] at hv
      cases hv
  · rintro ⟨f, hfile⟩
    exact ⟨_, add_ok hfile⟩

theorem afterCall_ok (hfile : a.file? = some f) :
    u.afterCall a = { u with files := u.files.filter (!·.path.same a.path) ++ [f] } := by
  unfold afterCall
  rw [add_ok hfile]

theorem afterCall_failed (hfile : a.file? = none) : u.afterCall a = u := by
  obtain ⟨e, hparse⟩ := file?_eq_none.1 hfile
  unfold afterCall
  rw [add_error hparse]

theorem afterCalls_concat (calls : List Addition) :
    u.afterCalls (calls ++ [a]) = (u.afterCalls calls).afterCall a := by
  rw [afterCalls, List.foldl_append]
  rfl

/-! ## The last call for a path -/

/-- Call number `n` added the file `f`, and no later call added one of this path. -/
structure IsLastCall (calls : List Addition) (n : Nat) (f : SourceFile) : Prop where
  made : ∃ a, calls[n]? = some a ∧ a.file? = some f
  last : ∀ m b g, n < m → calls[m]? = some b → b.file? = some g → ¬ g.path.same f.path

variable {calls : List Addition} {n m : Nat} {g : SourceFile}

theorem IsLastCall.lt (h : IsLastCall calls n f) : n < calls.length := by
  obtain ⟨b, hb, -⟩ := h.made
  exact (List.getElem?_eq_some_iff.1 hb).1

/-- A call that fails is the last for no path. -/
theorem isLastCall_concat_failed (hfile : a.file? = none) :
    IsLastCall (calls ++ [a]) n f ↔ IsLastCall calls n f := by
  have hcall (m : Nat) (b : Addition) (g : SourceFile) :
      (calls ++ [a])[m]? = some b ∧ b.file? = some g ↔ calls[m]? = some b ∧ b.file? = some g := by
    rcases Nat.lt_trichotomy m calls.length with hlt | rfl | hgt
    · rw [List.getElem?_append_left hlt]
    · rw [List.getElem?_concat_length, List.getElem?_eq_none (Nat.le_refl _)]
      constructor
      · rintro ⟨hb, hg⟩
        cases hb
        rw [hfile] at hg
        cases hg
      · rintro ⟨hb, -⟩
        cases hb
    · have hnone : (calls ++ [a])[m]? = none := List.getElem?_eq_none (by simp; omega)
      rw [hnone, List.getElem?_eq_none (Nat.le_of_lt hgt)]
  constructor
  · rintro ⟨⟨b, hb⟩, hlast⟩
    exact ⟨⟨b, (hcall n b f).1 hb⟩, fun m b g hlt hb hg =>
      hlast m b g hlt ((hcall m b g).2 ⟨hb, hg⟩).1 hg⟩
  · rintro ⟨⟨b, hb⟩, hlast⟩
    exact ⟨⟨b, (hcall n b f).2 hb⟩, fun m b g hlt hb hg =>
      hlast m b g hlt ((hcall m b g).1 ⟨hb, hg⟩).1 hg⟩

/-- A call that succeeds is the last for its path, and the others stay the last for theirs. -/
theorem isLastCall_concat (hfile : a.file? = some f) :
    IsLastCall (calls ++ [a]) n g ↔
      IsLastCall calls n g ∧ ¬ g.path.same a.path ∨ n = calls.length ∧ g = f := by
  have hself : (calls ++ [a])[calls.length]? = some a := List.getElem?_concat_length
  constructor
  · rintro ⟨⟨b, hb, hg⟩, hlast⟩
    have hlt : n < calls.length + 1 := by simpa using (List.getElem?_eq_some_iff.1 hb).1
    rcases Nat.lt_or_ge n calls.length with hlt | hge
    · rw [List.getElem?_append_left hlt] at hb
      refine .inl ⟨⟨⟨b, hb, hg⟩, fun m b g' hm hb' hg' => ?_⟩, ?_⟩
      · have hmlt := (List.getElem?_eq_some_iff.1 hb').1
        exact hlast m b g' hm (by rw [List.getElem?_append_left hmlt, hb']) hg'
      · have hdiffers := hlast calls.length a f hlt hself hfile
        rw [file?_path hfile, FilePath.same_iff] at hdiffers
        rw [FilePath.same_iff]
        exact Ne.symm hdiffers
    · obtain rfl : n = calls.length := by omega
      rw [hself] at hb
      cases hb
      rw [hfile] at hg
      exact .inr ⟨rfl, (Option.some.inj hg).symm⟩
  · rintro (⟨⟨⟨b, hb, hg⟩, hlast⟩, hdiffers⟩ | ⟨rfl, rfl⟩)
    · have hlt := (List.getElem?_eq_some_iff.1 hb).1
      refine ⟨⟨b, by rw [List.getElem?_append_left hlt, hb], hg⟩, fun m b' g' hm hb' hg' => ?_⟩
      have hmlt : m < calls.length + 1 := by simpa using (List.getElem?_eq_some_iff.1 hb').1
      rcases Nat.lt_or_ge m calls.length with hmlt | hge
      · rw [List.getElem?_append_left hmlt] at hb'
        exact hlast m b' g' hm hb' hg'
      · obtain rfl : m = calls.length := by omega
        rw [hself] at hb'
        cases hb'
        rw [FilePath.same_iff] at hdiffers ⊢
        rw [file?_path hg']
        exact Ne.symm hdiffers
    · refine ⟨⟨a, hself, hfile⟩, fun m b g' hm hb => ?_⟩
      have hmlt : m < calls.length + 1 := by simpa using (List.getElem?_eq_some_iff.1 hb).1
      omega

/-! ## The files of a universe -/

/-- The files are those of the last calls for their paths, in the order of these calls. -/
structure HoldsLatest (calls : List Addition) (u : Universe) : Prop where
  /-- Each file with the number of its call. -/
  listed : ∃ numbered : List (Nat × SourceFile), numbered.map (·.2) = u.files ∧
    numbered.Pairwise (fun p q => p.1 < q.1) ∧ ∀ n f, (n, f) ∈ numbered ↔ IsLastCall calls n f
  distinct : u.files.Pairwise fun f g => ¬ f.path.same g.path
  /-- There is a file at exactly the paths that a call succeeded for. -/
  paths : ∀ p : FilePath, (∃ f ∈ u.files, f.path.same p) ↔
    ∃ a ∈ calls, (∃ f, a.file? = some f) ∧ a.path.same p

theorem listed_afterCalls (calls : List Addition) :
    ∃ numbered : List (Nat × SourceFile), numbered.map (·.2) = (empty.afterCalls calls).files ∧
      numbered.Pairwise (fun p q => p.1 < q.1) ∧
      ∀ n f, (n, f) ∈ numbered ↔ IsLastCall calls n f := by
  induction calls using List.reverseRecOn with
  | nil =>
    refine ⟨[], rfl, .nil, fun n f => ⟨fun hmem => absurd hmem List.not_mem_nil, fun h => ?_⟩⟩
    exact absurd h.lt (Nat.not_lt_zero n)
  | append_singleton calls a ih =>
    obtain ⟨numbered, hfiles, hsorted, hmem⟩ := ih
    rw [afterCalls_concat]
    cases hfile : a.file? with
    | none =>
      rw [afterCall_failed hfile]
      exact ⟨numbered, hfiles, hsorted, fun n f =>
        (hmem n f).trans (isLastCall_concat_failed hfile).symm⟩
    | some f =>
      rw [afterCall_ok hfile]
      refine ⟨numbered.filter (!·.2.path.same a.path) ++ [(calls.length, f)], ?_, ?_, fun n g => ?_⟩
      · rw [List.map_append, ← hfiles, List.filter_map]
        rfl
      · refine List.pairwise_append.2 ⟨hsorted.filter _, List.pairwise_singleton _ _, ?_⟩
        rintro ⟨n, g⟩ hn q hq
        rw [List.mem_singleton.1 hq]
        exact ((hmem n g).1 (List.mem_filter.1 hn).1).lt
      · rw [isLastCall_concat hfile, List.mem_append, List.mem_filter, hmem, List.mem_singleton,
          Prod.mk.injEq, Bool.not_eq_true', Bool.not_eq_true]

theorem IsLastCall.unique (hf : IsLastCall calls n f) (hg : IsLastCall calls m g)
    (hsame : f.path.same g.path) : ¬ n < m := by
  intro hlt
  obtain ⟨b, hb, hfile⟩ := hg.made
  exact hf.last m b g hlt hb hfile (FilePath.same_symm hsame)

/-- Among the calls that succeed for a path there is a last one. -/
theorem exists_isLastCall {p : FilePath} (hmem : a ∈ calls) (hfile : a.file? = some f)
    (hp : a.path.same p) : ∃ n g, IsLastCall calls n g ∧ g.path.same p := by
  induction calls using List.reverseRecOn with
  | nil => exact absurd hmem List.not_mem_nil
  | append_singleton calls b ih =>
    cases hb : b.file? with
    | none =>
      rcases List.mem_append.1 hmem with hmem | hmem
      · obtain ⟨n, g, hlast, hg⟩ := ih hmem
        exact ⟨n, g, (isLastCall_concat_failed hb).2 hlast, hg⟩
      · rw [List.mem_singleton.1 hmem, hb] at hfile
        cases hfile
    | some h =>
      by_cases hbp : b.path.same p
      · exact ⟨_, h, (isLastCall_concat hb).2 (.inr ⟨rfl, rfl⟩), by rwa [file?_path hb]⟩
      · rcases List.mem_append.1 hmem with hmem | hmem
        · obtain ⟨n, g, hlast, hg⟩ := ih hmem
          refine ⟨n, g, (isLastCall_concat hb).2 (.inl ⟨hlast, fun hgb => hbp ?_⟩), hg⟩
          rw [FilePath.same_iff] at hgb hg ⊢
          rw [← hgb, hg]
        · rw [List.mem_singleton.1 hmem] at hp
          exact absurd hp hbp

/-- **The universe holds the latest version of each file.** After any calls, with whatever paths and
texts, no two files have one path, there is a file at exactly the paths that a call succeeded for,
and the files stand in the order of the last such calls, each with what was read of the text of that
call and the module of its path. A further call succeeds exactly if its text can be read; otherwise
it says where it cannot, and nothing changes. -/
theorem latest_version_held (calls : List Addition) :
    HoldsLatest calls (empty.afterCalls calls) ∧
      ∀ a : Addition,
        ((∃ v, (empty.afterCalls calls).add a.path a.text = .ok v) ↔ ∃ f, a.file? = some f) ∧
        ∀ e, File.parse a.text = .error e →
          (empty.afterCalls calls).add a.path a.text =
              .error (.parse a.path e.pos.line (e.pos.column + 1) e.fault.message) ∧
            empty.afterCalls (calls ++ [a]) = empty.afterCalls calls := by
  obtain ⟨numbered, hfiles, hsorted, hmem⟩ := listed_afterCalls calls
  refine ⟨⟨⟨numbered, hfiles, hsorted, hmem⟩, ?_, fun p => ?_⟩, fun a =>
    ⟨add_isOk_iff, fun e hparse => ⟨add_error hparse, ?_⟩⟩⟩
  · rw [← hfiles, List.pairwise_map]
    refine (List.Pairwise.and_mem.1 hsorted).imp fun {p q} ⟨hp, hq, hlt⟩ hsame => ?_
    exact ((hmem _ _).1 hp).unique ((hmem _ _).1 hq) hsame hlt
  · rw [← hfiles]
    constructor
    · rintro ⟨f, hf, hp⟩
      obtain ⟨⟨n, f⟩, hmem', rfl⟩ := List.mem_map.1 hf
      obtain ⟨a, ha, hfile⟩ := ((hmem n f).1 hmem').made
      exact ⟨a, List.mem_of_getElem? ha, ⟨f, hfile⟩, file?_path hfile ▸ hp⟩
    · rintro ⟨a, ha, ⟨f, hfile⟩, hp⟩
      obtain ⟨n, g, hlast, hg⟩ := exists_isLastCall ha hfile hp
      exact ⟨g, List.mem_map.2 ⟨(n, g), (hmem n g).2 hlast, rfl⟩, hg⟩
  · have hfile : a.file? = none := file?_eq_none.2 ⟨e, hparse⟩
    rw [afterCalls_concat, afterCall_failed hfile]

end WrapperGen.Universe
