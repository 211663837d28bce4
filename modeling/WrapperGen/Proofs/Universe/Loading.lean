import WrapperGen.Proofs.Files.Walks
import WrapperGen.Proofs.Rounds.Units
import WrapperGen.Proofs.Universe.Scanned
/-!
# Loading a directory

Each file that is found goes to one of two lists: among the files of the universe, as it would be
added by itself, or among the failures. A text that does not parse is put aside in this way, but a
file that is no text ends the loading (`load_setsAside_iff`).
-/

namespace WrapperGen

open Files Source

namespace Universe

/-! ## One file -/

/-- The path of a found file that its module comes from. -/
def relativePath (root p : FilePath) : FilePath := (FilePath.stripBase? root p).getD p

/-- A file of this text below `root`, or why it cannot be read. -/
def sourceAt (root p : FilePath) (text : String) : Except Failure SourceFile :=
  match File.parse text with
  | .ok content => .ok ⟨p, modulePath (relativePath root p), content⟩
  | .error e => .error (.ofSyntax p e)

/-- Why there is no source, if so. -/
def failure? : Except Failure SourceFile → Option Failure
  | .ok _ => none
  | .error e => some e

/-- Puts what was found at a path last in its list. -/
def keep (u : Universe) : Except Failure SourceFile → Universe
  | .ok f => { u with files := u.files ++ [f] }
  | .error e => { u with failures := u.failures ++ [e] }

variable {root p : FilePath} {text : String}

theorem addLoaded_eq (u : Universe) : u.addLoaded root p text = u.keep (sourceAt root p text) := by
  unfold addLoaded sourceAt
  generalize File.parse text = parsed
  cases parsed <;> rfl

/-- A file below `root` is what is added for its path there. -/
theorem add_of_sourceAt {f : SourceFile} (h : sourceAt root p text = .ok f) :
    f.path = p ∧ empty.add (relativePath root p) text =
      .ok ⟨[{ f with path := relativePath root p }], []⟩ := by
  unfold sourceAt at h
  unfold add
  generalize File.parse text = parsed at h ⊢
  cases parsed with
  | error e => cases h
  | ok content =>
    cases h
    exact ⟨rfl, by simp [empty]⟩

theorem add_of_sourceAt_error {e : Failure} (h : sourceAt root p text = .error e) :
    (∃ line column message, e = .parse p line column message) ∧
      ∀ u, empty.add (relativePath root p) text ≠ .ok u := by
  unfold sourceAt at h
  unfold add
  generalize File.parse text = parsed at h ⊢
  cases parsed with
  | ok content => cases h
  | error e' =>
    cases h
    exact ⟨⟨_, _, _, rfl⟩, fun u hu => by cases hu⟩

/-! ## All files -/

variable (fs : FileSystem)

/-- What is to be made of a found file: a source with the content and the module that adding its
text under its path below `root` gives, or else a failure to parse it. -/
inductive IsPlaced (root p : FilePath) : Except Failure SourceFile → Prop
  | file {text : String} {f : SourceFile} (read : fs.readText p = .ok text) (path : f.path = p)
      (added : empty.add (relativePath root p) text =
        .ok ⟨[{ f with path := relativePath root p }], []⟩) : IsPlaced root p (.ok f)
  | aside {line column : Nat} {message : String}
      (unreadable : ∀ text u, fs.readText p = .ok text →
        empty.add (relativePath root p) text ≠ .ok u) :
      IsPlaced root p (.error (.parse p line column message))

/-- Each path is in one place, and the places have the order of the paths. -/
def SetsAside (root : FilePath) (paths : List FilePath) (u : Universe) : Prop :=
  ∃ results, List.Forall₂ (IsPlaced fs root) paths results ∧
    u.files = results.filterMap Except.toOption ∧ u.failures = results.filterMap failure?

variable {fs} {exclude : List String} {paths : List FilePath}

theorem isPlaced_sourceAt (hread : fs.readText p = .ok text) :
    IsPlaced fs root p (sourceAt root p text) := by
  cases hsource : sourceAt root p text with
  | ok f =>
    obtain ⟨hpath, hadded⟩ := add_of_sourceAt hsource
    exact .file hread hpath hadded
  | error e =>
    obtain ⟨⟨line, column, message, rfl⟩, hadded⟩ := add_of_sourceAt_error hsource
    refine .aside fun text' u hread' => ?_
    rw [hread] at hread'
    cases hread'
    exact hadded u

theorem keep_files (u : Universe) (r : Except Failure SourceFile) :
    (u.keep r).files = u.files ++ r.toOption.toList := by
  cases r <;> simp [keep, Except.toOption]

theorem keep_failures (u : Universe) (r : Except Failure SourceFile) :
    (u.keep r).failures = u.failures ++ (failure? r).toList := by
  cases r <;> simp [keep, failure?]

theorem foldl_keep (results : List (Except Failure SourceFile)) (u : Universe) :
    results.foldl keep u =
      ⟨u.files ++ results.filterMap Except.toOption, u.failures ++ results.filterMap failure?⟩ := by
  induction results generalizing u with
  | nil => simp
  | cons r results ih =>
    rw [List.foldl_cons, ih, keep_files, keep_failures]
    cases r <;> simp [Except.toOption, failure?, List.filterMap_cons]

/-- Reads a found file and puts it in its place. -/
def readInto (fs : FileSystem) (root : FilePath) (u : Universe) (p : FilePath) :
    Except Failure Universe := do
  let text ← (fs.readText p).mapError .io
  return u.addLoaded root p text

theorem load_eq (hfound : fs.findSources root exclude = .ok paths) :
    load fs root exclude = paths.foldlM (readInto fs root) empty := by
  unfold load
  rw [hfound]
  rfl

theorem readInto_ok {u : Universe} (hread : fs.readText p = .ok text) :
    readInto fs root u p = .ok (u.keep (sourceAt root p text)) := by
  unfold readInto
  rw [hread, ← addLoaded_eq]
  rfl

theorem readInto_error {u : Universe} {e : IoError} (hread : fs.readText p = .error e) :
    readInto fs root u p = .error (.io e) := by
  unfold readInto
  rw [hread]
  rfl

/-- Where all found files are texts, each is put in its place. -/
theorem foldlM_readInto {u : Universe} (hread : ∀ p ∈ paths, ∃ text, fs.readText p = .ok text) :
    ∃ results, List.Forall₂ (IsPlaced fs root) paths results ∧
      paths.foldlM (readInto fs root) u = .ok (results.foldl keep u) := by
  induction paths generalizing u with
  | nil => exact ⟨[], .nil, rfl⟩
  | cons p paths ih =>
    obtain ⟨text, htext⟩ := hread p (.head _)
    obtain ⟨results, hplaced, hfold⟩ := ih (u := u.keep (sourceAt root p text)) fun q hq =>
      hread q (.tail _ hq)
    refine ⟨sourceAt root p text :: results, .cons (isPlaced_sourceAt htext) hplaced, ?_⟩
    rw [List.foldlM_cons, readInto_ok htext]
    exact hfold

/-- The first file that is no text ends the loading. -/
theorem foldlM_readInto_error {u : Universe} (hreadable : ∀ p ∈ paths,
    fs.readText p = .error .invalidText ∨ ∃ text, fs.readText p = .ok text)
    (hbytes : ∃ p ∈ paths, fs.readText p = .error .invalidText) :
    paths.foldlM (readInto fs root) u = .error (.io .invalidText) := by
  induction paths generalizing u with
  | nil =>
    obtain ⟨p, hp, -⟩ := hbytes
    exact absurd hp List.not_mem_nil
  | cons p paths ih =>
    rw [List.foldlM_cons]
    rcases hreadable p (.head _) with hp | ⟨text, htext⟩
    · rw [readInto_error hp]
      rfl
    · rw [readInto_ok htext]
      refine ih (fun q hq => hreadable q (.tail _ hq)) ?_
      obtain ⟨q, hq, hbytes⟩ := hbytes
      rcases List.mem_cons.1 hq with rfl | hq
      · rw [htext] at hbytes
        cases hbytes
      · exact ⟨q, hq, hbytes⟩

theorem IsRead.readInto {u v : Universe} (h : u.IsRead) (hread : readInto fs root u p = .ok v) :
    v.IsRead := by
  cases htext : fs.readText p with
  | error e =>
    rw [readInto_error htext] at hread
    cases hread
  | ok text =>
    rw [readInto_ok htext] at hread
    cases hread
    intro f hf
    rw [keep_files] at hf
    rcases List.mem_append.1 hf with hf | hf
    · exact h f hf
    · have hsource := toOption_eq_some.1 (Option.mem_toList.1 hf)
      unfold sourceAt at hsource
      cases hparse : File.parse text with
      | error e =>
        rw [hparse] at hsource
        cases hsource
      | ok content =>
        rw [hparse] at hsource
        cases hsource
        exact ⟨text, hparse⟩

/-- What is loaded was read of texts. -/
theorem isRead_load {u : Universe} (h : load fs root exclude = .ok u) : u.IsRead := by
  cases hfound : fs.findSources root exclude with
  | error e =>
    unfold load at h
    rw [hfound] at h
    cases h
  | ok paths =>
    rw [load_eq hfound] at h
    have hempty : empty.IsRead := fun f hf => absurd hf List.not_mem_nil
    clear hfound
    generalize empty = start at h hempty
    induction paths generalizing start with
    | nil =>
      cases h
      exact hempty
    | cons p paths ih =>
      rw [List.foldlM_cons] at h
      cases hread : Universe.readInto fs root start p with
      | error e =>
        rw [hread] at h
        cases h
      | ok next =>
        rw [hread] at h
        exact ih next h (hempty.readInto hread)

/-- Sources are found in every directory that is there, if the patterns can be read. -/
theorem findSources_ok (hroot : ∃ n, fs.find root = .ok n)
    (hexclude : ∀ pattern ∈ exclude, ∃ g, Glob.parse pattern = .ok g) :
    ∃ paths, fs.findSources root exclude = .ok paths := by
  have hwalk : ∃ files, fs.walk root = .ok files := by
    obtain ⟨n, hn⟩ := hroot
    unfold FileSystem.find at hn
    unfold FileSystem.walk
    cases hplace : fs.place root with
    | error e => simp [hplace, bind, Except.bind] at hn
    | ok here =>
      simp only [hplace, bind, Except.bind] at hn ⊢
      cases hnode : fs.node? here with
      | none => simp [hnode] at hn
      | some node => cases node <;> exact ⟨_, rfl⟩
  have hpatterns : ∃ patterns, exclude.mapM Glob.parse = .ok patterns := by
    cases hparse : exclude.mapM Glob.parse with
    | ok patterns => exact ⟨patterns, rfl⟩
    | error e =>
      obtain ⟨pattern, hpattern, herror⟩ := mapM_error hparse
      obtain ⟨g, hg⟩ := hexclude pattern hpattern
      rw [hg] at herror
      cases herror
  obtain ⟨files, hfiles⟩ := hwalk
  obtain ⟨patterns, hpatterns⟩ := hpatterns
  unfold FileSystem.findSources
  rw [hpatterns, hfiles]
  exact ⟨_, rfl⟩

theorem readText_text (hfind : fs.find p = .ok (.file (.text text))) : fs.readText p = .ok text := by
  unfold FileSystem.readText
  rw [hfind]
  rfl

theorem readText_binary {bytes : List Nat} (hfind : fs.find p = .ok (.file (.binary bytes))) :
    fs.readText p = .error .invalidText := by
  unfold FileSystem.readText
  rw [hfind]
  rfl

/-- **A bad source file is put aside.** Let `root` be there, the patterns be valid and all files that
are found be readable as bytes. If these are texts, loading succeeds and each path is in one place,
in order: among the files, with the content and the module that adding its text under its path below
`root` gives, if the text can be read as source, and otherwise among the failures. It is so in no
other case: a file whose bytes are no text ends the loading. -/
theorem load_setsAside_iff (hroot : ∃ n, fs.find root = .ok n)
    (hexclude : ∀ pattern ∈ exclude, ∃ g, Glob.parse pattern = .ok g) :
    ∃ paths, fs.findSources root exclude = .ok paths ∧
      ((∀ p ∈ paths, ∃ content, fs.find p = .ok (.file content)) →
        ((∃ u, load fs root exclude = .ok u ∧ SetsAside fs root paths u) ↔
          ∀ p ∈ paths, ∃ text, fs.find p = .ok (.file (.text text))) ∧
        ((∃ p ∈ paths, ∃ bytes, fs.find p = .ok (.file (.binary bytes))) →
          load fs root exclude = .error (.io .invalidText))) := by
  obtain ⟨paths, hfound⟩ := findSources_ok hroot hexclude
  refine ⟨paths, hfound, fun hreadable => ?_⟩
  have hbytes (h : ∃ p ∈ paths, ∃ bytes, fs.find p = .ok (.file (.binary bytes))) :
      load fs root exclude = .error (.io .invalidText) := by
    rw [load_eq hfound]
    obtain ⟨p, hp, bytes, hfind⟩ := h
    refine foldlM_readInto_error (fun q hq => ?_) ⟨p, hp, readText_binary hfind⟩
    obtain ⟨content, hcontent⟩ := hreadable q hq
    cases content with
    | text text => exact .inr ⟨text, readText_text hcontent⟩
    | binary bytes => exact .inl (readText_binary hcontent)
  refine ⟨⟨?_, fun htexts => ?_⟩, hbytes⟩
  · rintro ⟨u, hload, -⟩ p hp
    obtain ⟨content, hcontent⟩ := hreadable p hp
    cases content with
    | text text => exact ⟨text, hcontent⟩
    | binary bytes =>
      rw [hbytes ⟨p, hp, bytes, hcontent⟩] at hload
      cases hload
  · have hread : ∀ p ∈ paths, ∃ text, fs.readText p = .ok text := fun p hp => by
      obtain ⟨text, htext⟩ := htexts p hp
      exact ⟨text, readText_text htext⟩
    obtain ⟨results, hplaced, hfold⟩ := @foldlM_readInto root _ _ empty hread
    rw [foldl_keep] at hfold
    exact ⟨_, (load_eq hfound).trans hfold, results, hplaced, List.nil_append _, List.nil_append _⟩

/-- A source, and a file that is none. -/
def brokenSources : FileSystem where
  entries := [(["src"], .directory), (["src", "broken.rs"], .file (.text "pub trait \x7b")),
    (["src", "api.rs"], .file (.text "pub trait A \x7b\x7d"))]
  workingDirectory := []

theorem broken_set_aside :
    brokenSources.findSources ⟨"src"⟩ [] = .ok [⟨"src/api.rs"⟩, ⟨"src/broken.rs"⟩] ∧
      ∃ u, load brokenSources ⟨"src"⟩ [] = .ok u ∧
        SetsAside brokenSources ⟨"src"⟩ [⟨"src/api.rs"⟩, ⟨"src/broken.rs"⟩] u := by
  have hfound : brokenSources.findSources ⟨"src"⟩ [] = .ok [⟨"src/api.rs"⟩, ⟨"src/broken.rs"⟩] := by
    decide +kernel
  have htexts : ∀ p ∈ [(⟨"src/api.rs"⟩ : FilePath), ⟨"src/broken.rs"⟩],
      ∃ text, brokenSources.find p = .ok (.file (.text text)) := by
    intro p hp
    simp only [List.mem_cons, List.not_mem_nil, or_false] at hp
    rcases hp with rfl | rfl
    · exact ⟨"pub trait A \x7b\x7d", by decide +kernel⟩
    · exact ⟨"pub trait \x7b", by decide +kernel⟩
  have hroot : ∃ n, brokenSources.find ⟨"src"⟩ = .ok n := ⟨.directory, by decide +kernel⟩
  have hexclude : ∀ pattern ∈ ([] : List String), ∃ g, Glob.parse pattern = .ok g :=
    fun pattern hpattern => absurd hpattern List.not_mem_nil
  obtain ⟨paths, hpaths, hload⟩ := load_setsAside_iff hroot hexclude
  rw [hfound] at hpaths
  cases hpaths
  refine ⟨hfound, (hload fun p hp => ?_).1.2 htexts⟩
  obtain ⟨text, htext⟩ := htexts p hp
  exact ⟨_, htext⟩

/-- A source, and a file with a byte that begins no character. -/
def bytesBeside : FileSystem where
  entries := [(["src"], .directory), (["src", "bad.rs"], .file (.binary [255])),
    (["src", "api.rs"], .file (.text "pub trait A \x7b\x7d"))]
  workingDirectory := []

/-- One file that is no text keeps the others from being loaded. -/
theorem bytes_end_loading :
    bytesBeside.findSources ⟨"src"⟩ [] = .ok [⟨"src/api.rs"⟩, ⟨"src/bad.rs"⟩] ∧
      bytesBeside.find ⟨"src/api.rs"⟩ = .ok (.file (.text "pub trait A \x7b\x7d")) ∧
      bytesBeside.find ⟨"src/bad.rs"⟩ = .ok (.file (.binary [255])) ∧
      load bytesBeside ⟨"src"⟩ [] = .error (.io .invalidText) := by
  have hfound : bytesBeside.findSources ⟨"src"⟩ [] = .ok [⟨"src/api.rs"⟩, ⟨"src/bad.rs"⟩] := by
    decide +kernel
  have htext : bytesBeside.find ⟨"src/api.rs"⟩ =
      .ok (.file (.text "pub trait A \x7b\x7d")) := by
    decide +kernel
  have hbytes : bytesBeside.find ⟨"src/bad.rs"⟩ = .ok (.file (.binary [255])) := by
    decide +kernel
  refine ⟨hfound, htext, hbytes, ?_⟩
  rw [load_eq hfound]
  refine foldlM_readInto_error (fun p hp => ?_) ⟨_, .tail _ (.head _), readText_binary hbytes⟩
  simp only [List.mem_cons, List.not_mem_nil, or_false] at hp
  rcases hp with rfl | rfl
  · exact .inr ⟨_, readText_text htext⟩
  · exact .inl (readText_binary hbytes)

end Universe

end WrapperGen
