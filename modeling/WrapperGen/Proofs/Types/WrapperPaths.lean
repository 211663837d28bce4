import WrapperGen.Config.Validation
import WrapperGen.Proofs.Rounds.Units
import WrapperGen.Proofs.Source.Names
import WrapperGen.Proofs.Types.FullPaths
/-!
# Paths of wrappers

A result is handed out as a call or a response if its type resolves to a path that the settings
list. The settings list texts, and a type resolves to the names of its path with `::` between them
(`resolve_foreign`): so a listed path is recognised where it is written exactly if this spelling of
it is listed (`wrapper_recognised_iff`). A path that is listed with a leading `::` is a valid
setting that is never met (`leading_colons_missed`).
-/

namespace WrapperGen

open Source

/-! ## Paths of other crates -/

namespace Source.Path

/-- The names of the path with `::` between them, and nothing else. -/
def spelling (p : Path) : String := joinNames p.names

/-- A path without arguments of two names or more that begins with the name of a crate. -/
structure IsForeign (p : Path) : Prop where
  plain : p.isPlain = true
  nested : 2 ≤ p.segments.length
  crateName : ∀ first ∈ p.names.head?, first ∉ ["crate", "self", "super", "Self"]

/-- The path applied to one type. -/
def appliedTo (p : Path) (turbofish : Bool) (t : Ty) (trailing : Bool) : Path :=
  { p with
    segments := p.segments.dropLast ++
      (p.segments.getLast?.map fun s => ⟨s.name, .angle turbofish [.type t] trailing⟩).toList }

theorem appliedTo_names (p : Path) (turbofish : Bool) (t : Ty) (trailing : Bool) :
    (p.appliedTo turbofish t trailing).names = p.names := by
  obtain ⟨leading, segments⟩ := p
  unfold names appliedTo
  cases hlast : segments.getLast? with
  | none =>
    rw [List.getLast?_eq_none_iff] at hlast
    simp [hlast]
  | some s =>
    obtain ⟨before, rfl⟩ := List.getLast?_eq_some_iff.1 hlast
    simp

theorem appliedTo_arguments {p : Path} (hp : p.segments ≠ []) (turbofish : Bool) (t : Ty)
    (trailing : Bool) :
    (p.appliedTo turbofish t trailing).segments.getLast?.map (Ty.argumentTypes ·.args) =
      some [t] := by
  unfold appliedTo
  rw [List.getLast?_eq_some_getLast hp]
  simp [Ty.argumentTypes]

/-- The names of a path of another crate that was read: at least two, the first one without
colons. -/
theorem IsForeign.names_eq {p : Path} (hp : p.IsForeign) {text : String}
    (hread : Path.parse text = .ok p) :
    ∃ first second rest, p.names = first :: second :: rest ∧ NoColon first ∧
      first ∉ ["crate", "self", "super", "Self"] := by
  obtain ⟨s, ss, hsegments, hcolon⟩ := Path.parse_first hread
  have hnested := hp.nested
  have hfirst := hp.crateName
  unfold names at hfirst ⊢
  rw [hsegments] at hnested hfirst ⊢
  cases ss with
  | nil => simp at hnested
  | cons s' ss => exact ⟨s.name, s'.name, ss.map (·.name), rfl, hcolon, hfirst s.name rfl⟩

end Source.Path

/-- A text is cut in one way only at its first colon. -/
theorem append_colon_inj {xs ys xs' ys' : List Char} (hxs : ':' ∉ xs) (hys : ':' ∉ ys)
    (h : xs ++ ':' :: xs' = ys ++ ':' :: ys') : xs = ys := by
  have htake : ∀ {zs zs' : List Char}, ':' ∉ zs →
      (zs ++ ':' :: zs').takeWhile (· != ':') = zs := fun {zs zs'} hzs => by
    rw [List.takeWhile_append_of_pos fun c hc => by simpa using ne_of_mem_of_not_mem hc hzs]
    simp
  rw [← htake hxs, h, htake hys]

/-- The spelling of a path of another crate does not lead into the own one. -/
theorem not_isInternal {first second : String} {rest : List String} (hcolon : NoColon first)
    (hcrate : first ≠ "crate") : isInternal (joinNames (first :: second :: rest)) = false := by
  have htext : (joinNames (first :: second :: rest)).toList =
      first.toList ++ ':' :: (':' :: (joinNames (second :: rest)).toList) := by
    simp [joinNames, String.toList_intercalate]
  rw [isInternal, Bool.or_eq_false_iff, beq_eq_false_iff_ne, Bool.eq_false_iff]
  constructor
  · intro heq
    have hmem : ':' ∈ (joinNames (first :: second :: rest)).toList := by rw [htext]; simp
    rw [heq] at hmem
    exact absurd hmem (by decide)
  · intro hlead
    obtain ⟨tail, htail⟩ := String.startsWith_string_iff.1 hlead
    rw [htext, show "crate::".toList = "crate".toList ++ ':' :: [':'] by decide,
      List.append_assoc] at htail
    exact hcrate (String.toList_inj.1 (append_colon_inj (by decide) hcolon htail).symm)

/-! ## Modules without imports -/

namespace Universe

/-- All modules: those of the files and those in them. -/
def modules (u : Universe) : List String :=
  u.files.flatMap fun f => f.module :: Resolver.itemsModules f.module f.content.items

/-- All imports, each with its module. -/
def uses (u : Universe) : List (String × FlatUse) :=
  u.files.flatMap fun f => Resolver.itemsUses f.module f.content.items

/-- A module without imports and without modules in it. -/
structure IsBare (u : Universe) (module : String) : Prop where
  noUse : ∀ use ∈ u.uses, use.1 ≠ module
  noChild : ∀ name, NoColon name → module ++ "::" ++ name ∉ u.modules

end Universe

namespace Resolver

theorem addUse_modules (r : Resolver) (module : String) (use : FlatUse) :
    (r.addUse module use).modules = r.modules := by
  unfold addUse
  dsimp only
  split <;> rfl

theorem addUse_renamed? (r : Resolver) {module other : String} (use : FlatUse) (name : String)
    (h : other ≠ module) : (r.addUse other use).renamed? module name = r.renamed? module name := by
  unfold addUse
  dsimp only
  split
  · simp [renamed?, h]
  · rfl

/-- Imports of other modules say nothing of a module. -/
theorem foldl_addUse {uses : List (String × FlatUse)} {module : String}
    (huses : ∀ use ∈ uses, use.1 ≠ module) (r : Resolver) (name : String) :
    let last := uses.foldl (fun r (module, use) => r.addUse module use) r
    last.modules = r.modules ∧ last.renamed? module name = r.renamed? module name := by
  induction uses generalizing r with
  | nil => exact ⟨rfl, rfl⟩
  | cons use uses ih =>
    obtain ⟨hmodules, hrenamed⟩ := ih (fun u hu => huses u (.tail _ hu)) (r.addUse use.1 use.2)
    exact ⟨hmodules.trans (addUse_modules r _ _),
      hrenamed.trans (addUse_renamed? r _ _ (huses use (.head _)))⟩

theorem ofUniverse_bare {u : Universe} {module : String} (hm : u.IsBare module) (name : String) :
    (ofUniverse u).modules = u.modules ∧ (ofUniverse u).renamed? module name = none :=
  foldl_addUse hm.noUse _ name

/-- A path of another crate means itself in a module without imports. -/
theorem absolute_bare {u : Universe} {module : String} (hm : u.IsBare module) {first : String}
    (hcolon : NoColon first) (hfirst : first ∉ ["crate", "self", "super", "Self"])
    (rest : List String) :
    (ofUniverse u).absolute module (first :: rest) = joinNames (first :: rest) := by
  obtain ⟨hmodules, hrenamed⟩ := ofUniverse_bare hm first
  have hchild : ¬ (ofUniverse u).modules.contains (module ++ "::" ++ first) = true := by
    rw [hmodules, List.contains_iff_mem]
    exact hm.noChild first hcolon
  have hword : first ∉ moduleWords := fun hmem => hfirst (List.mem_append_left ["Self"] hmem)
  have hfront : (ofUniverse u).front module first = first := by
    rw [front, hrenamed]
    exact if_neg hchild
  rw [absolute_cons _ module hword, hfront, joinOnto_eq]

/-- In such a module a path of another crate resolves to its spelling. -/
theorem resolve_foreign {u : Universe} {module : String} (hm : u.IsBare module) {p : Path}
    (hp : p.IsForeign) {text : String} (hread : Path.parse text = .ok p) (turbofish : Bool) (t : Ty)
    (trailing : Bool) :
    (ofUniverse u).resolve ⟨module, []⟩ (.path (p.appliedTo turbofish t trailing)) =
      .nominal p.spelling [t] := by
  obtain ⟨first, second, rest, hnames, hcolon, hfirst⟩ := hp.names_eq hread
  have hsegments : p.segments ≠ [] := by
    intro hnil
    have hnested := hp.nested
    rw [hnil] at hnested
    exact absurd hnested (by decide)
  have hSelf : first ≠ "Self" := fun h => hfirst (by simp [h])
  have hcrate : first ≠ "crate" := fun h => hfirst (by simp [h])
  rw [resolve, resolveTypePath, Path.appliedTo_arguments hsegments, Path.appliedTo_names,
    Path.spelling, hnames]
  split
  · rfl
  · dsimp only
    rw [absolute_bare hm hcolon hfirst, resolvePath, not_isInternal hcolon hcrate]
    simp [hSelf]

end Resolver

/-! ## Settings that pass their check -/

namespace Config

variable {c : Config}

theorem textProblems_eq_nil {ok : String → Bool} {message field value : String} :
    textProblems ok message field value = [] ↔ value.isEmpty = false ∧ ok value = true := by
  unfold textProblems
  cases value.isEmpty <;> cases ok value <;> simp

/-- A listed path can be read. -/
theorem pathListProblems_eq_nil {field : String} {values : List String}
    (h : pathListProblems field values = []) {w : String} (hw : w ∈ values) :
    ∃ p, Path.parse w = .ok p := by
  rw [pathListProblems, List.append_eq_nil_iff] at h
  obtain ⟨i, hi⟩ : ∃ i, (w, i) ∈ values.zipIdx := by
    obtain ⟨i, hi, rfl⟩ := List.mem_iff_getElem.1 hw
    exact ⟨i, by simp [List.mem_zipIdx_iff_getElem?]⟩
  have hproblems := List.flatMap_eq_nil_iff.1 h.2 _ hi
  have hok := (textProblems_eq_nil.1 hproblems).2
  unfold isOk at hok
  split at hok
  · rename_i p hread
    exact ⟨p, hread⟩
  · cases hok

/-- What settings that pass their check say of wrappers. -/
theorem wrapper_problems (hc : c.problems = []) :
    pathListProblems "shapes.call_wrappers" c.callWrappers = [] ∧
      pathListProblems "shapes.response_wrappers" c.responseWrappers = [] ∧
      c.overlapProblems = [] := by
  simp only [problems, List.append_eq_nil_iff] at hc
  obtain ⟨⟨⟨⟨⟨⟨-, hcall⟩, hresponse⟩, hoverlap⟩, -⟩, -⟩, -⟩ := hc
  exact ⟨hcall, hresponse, hoverlap⟩

theorem wrappers_read (hc : c.problems = []) :
    ∀ w ∈ c.callWrappers ++ c.responseWrappers, ∃ p, Path.parse w = .ok p := by
  obtain ⟨hcall, hresponse, -⟩ := wrapper_problems hc
  intro w hw
  rcases List.mem_append.1 hw with hw | hw
  · exact pathListProblems_eq_nil hcall hw
  · exact pathListProblems_eq_nil hresponse hw

/-- No path is listed for both kinds of wrapper. -/
theorem wrappers_disjoint (hc : c.problems = []) {w : String} (hcall : w ∈ c.callWrappers) :
    w ∉ c.responseWrappers := by
  obtain ⟨-, -, hoverlap⟩ := wrapper_problems hc
  rw [overlapProblems, List.map_eq_nil_iff, List.filter_eq_nil_iff] at hoverlap
  simpa using hoverlap w hcall

end Config

/-! ## Recognition -/

/-- The shape of a type that resolves to this path. -/
def Config.shapeOf (c : Config) (path : String) : ResultShape :=
  if path ∈ c.callWrappers then .asyncCallWrapper
  else if path ∈ c.responseWrappers then .syncResponseWrapper
  else .bareValue

theorem classifyReturn_foreign (c : Config) {u : Universe} {module : String}
    (hm : u.IsBare module) {p : Path} (hp : p.IsForeign) {text : String}
    (hread : Path.parse text = .ok p) (turbofish : Bool) (t : Ty) (trailing : Bool) :
    let written := Ty.path (p.appliedTo turbofish t trailing)
    classifyReturn c (.ofUniverse u) ⟨module, []⟩ false written =
      (c.shapeOf p.spelling, if c.shapeOf p.spelling = .bareValue then written else t) := by
  intro written
  rw [classifyReturn, Resolver.resolve_foreign hm hp hread]
  simp only [Bool.false_eq_true, if_false, List.contains_iff_mem, Config.shapeOf]
  split
  · rfl
  · split <;> rfl

/-- **Which listed paths are recognised.** For all settings that pass their check and every module
without imports and without modules in it: each listed path can be read, and if it is a path of
another crate without arguments, then a result written as this path applied to one type is a call
exactly if the spelling of the path is listed for calls, and a response exactly if it is listed for
responses; the type is then what a success delivers. In particular a listed path that is its own
spelling is recognised. -/
theorem wrapper_recognised_iff {c : Config} (hc : c.problems = []) {u : Universe} {module : String}
    (hm : u.IsBare module) :
    ∀ w ∈ c.callWrappers ++ c.responseWrappers, ∃ p, Path.parse w = .ok p ∧
      (p.IsForeign → ∀ turbofish t trailing,
        let answer := classifyReturn c (.ofUniverse u) ⟨module, []⟩ false
          (.path (p.appliedTo turbofish t trailing))
        (p.spelling ∈ c.callWrappers ↔ answer = (.asyncCallWrapper, t)) ∧
        (p.spelling ∈ c.responseWrappers ↔ answer = (.syncResponseWrapper, t)) ∧
        (w = p.spelling → answer.1 ≠ .bareValue)) := by
  intro w hw
  obtain ⟨p, hread⟩ := Config.wrappers_read hc w hw
  refine ⟨p, hread, fun hp turbofish t trailing => ?_⟩
  rw [classifyReturn_foreign c hm hp hread]
  have hdisjoint : p.spelling ∈ c.callWrappers → p.spelling ∉ c.responseWrappers :=
    Config.wrappers_disjoint hc
  rw [List.mem_append] at hw
  unfold Config.shapeOf
  by_cases hcall : p.spelling ∈ c.callWrappers
  · simp [hcall, hdisjoint hcall]
  · by_cases hresponse : p.spelling ∈ c.responseWrappers
    · simp [hcall, hresponse]
    · have hother : w ≠ p.spelling := by
        rintro rfl
        exact hw.elim hcall hresponse
      simp [hcall, hresponse, hother]

/-- A file that imports nothing. -/
def plainFile : Universe := ⟨[⟨⟨"api.rs"⟩, modulePath ⟨"api.rs"⟩, ⟨[]⟩⟩], []⟩

theorem plainFile_bare : plainFile.IsBare "crate::api" where
  noUse := by decide +kernel
  noChild := by
    intro name _ hmem
    have hmodules : plainFile.modules = ["crate::api"] := by decide +kernel
    rw [hmodules, List.mem_singleton] at hmem
    have hlength := congrArg String.length hmem
    simp only [String.length_append] at hlength
    have hcolons : "::".length = 2 := by decide
    omega

/-- What is known of a path that was read as two plain names. -/
theorem foreign_of_names {text : String} {p : Path} (first second : String)
    (hread : Path.parse text = .ok p)
    (hnames : (Path.parse text).toOption.map (fun p => (p.names, p.isPlain)) =
      some ([first, second], true))
    (hfirst : first ∉ ["crate", "self", "super", "Self"]) :
    p.IsForeign ∧ p.spelling = joinNames [first, second] := by
  rw [hread] at hnames
  obtain ⟨hnames, hplain⟩ := Prod.mk.inj (Option.some.inj hnames)
  refine ⟨⟨hplain, ?_, ?_⟩, by rw [Path.spelling, hnames]⟩
  · have hlength := congrArg List.length hnames
    rw [Path.names, List.length_map] at hlength
    exact Nat.le_of_eq hlength.symm
  · rw [hnames]
    intro name hname
    cases hname
    exact hfirst

theorem default_call_recognised :
    Config.default.problems = [] ∧ plainFile.IsBare "crate::api" ∧
      ∃ p, Path.parse "svcwrap::Call" = .ok p ∧ p.IsForeign ∧ ∀ t,
        classifyReturn .default (.ofUniverse plainFile) ⟨"crate::api", []⟩ false
          (.path (p.appliedTo false t false)) = (.asyncCallWrapper, t) := by
  refine ⟨Config.default_problems, plainFile_bare, ?_⟩
  obtain ⟨p, hread, hrecognised⟩ :=
    wrapper_recognised_iff Config.default_problems plainFile_bare "svcwrap::Call" (by decide)
  obtain ⟨hforeign, hspelling⟩ := foreign_of_names "svcwrap" "Call" hread (by decide +kernel) (by decide)
  refine ⟨p, hread, hforeign, fun t => ((hrecognised hforeign false t false).1).1 ?_⟩
  rw [hspelling]
  decide +kernel

/-- The default path of calls, listed as a path that begins with colons. -/
def colonSettings : Config := { Config.default with callWrappers := ["::svcwrap::Call"] }

theorem leading_colons_missed :
    colonSettings.problems = [] ∧ plainFile.IsBare "crate::api" ∧
      ∃ p, Path.parse "::svcwrap::Call" = .ok p ∧ p.IsForeign ∧
        (classifyReturn colonSettings (.ofUniverse plainFile) ⟨"crate::api", []⟩ false
          (.path (p.appliedTo false (.named "u8") false))).1 = .bareValue := by
  have hproblems : colonSettings.problems = [] := by decide +kernel
  obtain ⟨p, hread⟩ := Config.wrappers_read hproblems "::svcwrap::Call" (by decide)
  obtain ⟨hforeign, hspelling⟩ := foreign_of_names "svcwrap" "Call" hread (by decide +kernel) (by decide)
  refine ⟨hproblems, plainFile_bare, p, hread, hforeign, ?_⟩
  rw [classifyReturn_foreign colonSettings plainFile_bare hforeign hread, hspelling]
  show colonSettings.shapeOf (joinNames ["svcwrap", "Call"]) = .bareValue
  decide +kernel

end WrapperGen
