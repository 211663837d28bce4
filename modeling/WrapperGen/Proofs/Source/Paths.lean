import WrapperGen.Config.Settings
import WrapperGen.Proofs.Source.Reading
/-!
# Paths that are read back

The trees of a path without arguments are read as that path and as nothing else, as long as
nothing follows that would go on with it. The path of the runtime is one: `Config.runtime_isWords`.
-/

namespace WrapperGen.Source

open Tree

/-! ## Trees of paths -/

theorem segmentTrees_eq (ss : List Segment) : segmentTrees ss = ss.map Segment.trees := by
  induction ss with
  | nil => rfl
  | cons s ss ih => rw [segmentTrees, ih, List.map_cons]

theorem separated_singleton (sep : String) (t : List Tree) : separated sep false [t] = t := by
  simp [separated]

theorem separated_cons_cons (sep : String) (trailing : Bool) (t u : List Tree)
    (ts : List (List Tree)) :
    separated sep trailing (t :: u :: ts) = t ++ op sep ++ separated sep trailing (u :: ts) :=
  rfl

theorem separated_cons (sep : String) (t : List Tree) (ts : List (List Tree)) :
    separated sep false (t :: ts) = t ++ ts.flatMap (op sep ++ ·) := by
  induction ts generalizing t with
  | nil => simp [separated]
  | cons u us ih => simp [separated, ih]

theorem Path.trees_cons (leading : Bool) (s : Segment) (ss : List Segment) :
    Path.trees ⟨leading, s :: ss⟩ =
      when leading (op "::") ++ (s.trees ++ ss.flatMap (op "::" ++ ·.trees)) := by
  rw [Path.trees, segmentTrees_eq, List.map_cons, separated_cons, List.flatMap_map]

theorem Path.trees_single (name : String) : (single name).trees = word name := by
  simp [single, Path.trees_cons, when, Segment.plain, Segment.trees, Args.trees]

/-! ## Words in paths -/

/-- Whether the word may be a segment of a path. -/
def isPathWord (word : String) : Bool :=
  isName word || ["super", "self", "crate", "try", "Self"].contains word

theorem isPathWord_cases {word : String} (h : isPathWord word) :
    isName word ∨ word = "super" ∨ word = "self" ∨ word = "crate" ∨ word = "try" ∨ word = "Self" := by
  simpa [isPathWord] using h

/-- A segment that is a word and nothing else. -/
structure Segment.IsWord (s : Segment) : Prop where
  args : s.args = .none
  word : isPathWord s.name

theorem Segment.IsWord.trees_eq {s : Segment} (h : s.IsWord) : s.trees = Tree.word s.name := by
  obtain ⟨name, args⟩ := s
  cases h.args
  simp [Segment.trees, Args.trees]

/-- A path of words. -/
structure Path.IsWords (p : Path) : Prop where
  nonempty : p.segments ≠ []
  segments : ∀ s ∈ p.segments, s.IsWord

theorem Path.IsWords.trees_ne_nil {p : Path} (h : p.IsWords) : p.trees ≠ [] := by
  obtain ⟨leading, _ | ⟨s, ss⟩⟩ := p
  · exact absurd rfl h.nonempty
  · rw [Path.trees_cons, (h.segments s (.head _)).trees_eq]
    exact List.append_ne_nil_of_right_ne_nil _ (List.cons_ne_nil _ _)

theorem Path.IsWords.child {p : Path} (h : p.IsWords) {name : String} (hname : isPathWord name) :
    (p.child name).IsWords := by
  refine ⟨List.append_ne_nil_of_right_ne_nil _ (List.cons_ne_nil _ _), fun s hs => ?_⟩
  rcases List.mem_append.1 hs with hs | hs
  · exact h.segments s hs
  · rw [List.mem_singleton.1 hs]
    exact ⟨rfl, hname⟩

theorem Path.isWords_single {name : String} (hname : isPathWord name) : (single name).IsWords := by
  refine ⟨List.cons_ne_nil _ _, fun s hs => ?_⟩
  rw [List.mem_singleton.1 hs]
  exact ⟨rfl, hname⟩

/-- Whether a path is over before the trees. -/
def endsPath (exprStyle : Bool) (ts : List Tree) : Bool :=
  !peekOp "::" ts && (exprStyle || !peekOp "<" ts)

namespace Grammar

variable {g : Grammar} {inner : PathGrammar} {exprStyle : Bool} {us : List Tree}

/-- Whether arguments of a segment come next. -/
def opensArgs (exprStyle : Bool) (ts : List Tree) : Bool :=
  (!exprStyle && peekOp "<" ts && !peekOp "<=" ts && !peekOp "<<=" ts) ||
    (peekOp "::" ts && peekOp "<" (ts.drop 2))

theorem reads_segment {s : Segment} (hs : s.IsWord) (hus : opensArgs exprStyle us = false) :
    Reads (g.segment inner exprStyle) (s.trees ++ us) us (· = s) := by
  rw [hs.trees_eq]
  obtain ⟨w, args⟩ := s
  obtain ⟨⟨⟩, hword⟩ := hs
  unfold Grammar.segment
  refine .andThen .rest ?_
  rcases isPathWord_cases hword with h | rfl | rfl | rfl | rfl | rfl
  · refine .ifFalse ?_ (.ifFalse (peekWord_name us h (by decide)) ?_)
    · simp (disch := decide) [peekWord_name us h]
    refine (Reads.name w).bind ?_
    rintro _ ⟨rfl, -⟩
    exact Reads.rest.andThen (.ifFalse hus (.pure rfl))
  · exact .ifTrue rfl ((Reads.anyWord _).andThen (.pure rfl))
  · exact .ifTrue rfl ((Reads.anyWord _).andThen (.pure rfl))
  · exact .ifTrue rfl ((Reads.anyWord _).andThen (.pure rfl))
  · exact .ifTrue rfl ((Reads.anyWord _).andThen (.pure rfl))
  · refine .ifFalse rfl (.ifTrue rfl ((Reads.anyWord _).andThen ?_))
    exact Reads.rest.andThen (.ifFalse hus (.pure rfl))

/-- A segment that begins with a word and is read back where no arguments follow. -/
structure IsSegment (g : Grammar) (inner : PathGrammar) (exprStyle : Bool) (s : Segment) : Prop where
  begins : ∃ w ts, s.trees = word w ++ ts
  reads : ∀ ⦃us⦄, opensArgs exprStyle us = false →
    Reads (g.segment inner exprStyle) (s.trees ++ us) us (· = s)

theorem isSegment_word {s : Segment} (hs : s.IsWord) : g.IsSegment inner exprStyle s :=
  ⟨⟨s.name, [], by rw [hs.trees_eq, List.append_nil]⟩, fun _ => reads_segment hs⟩

variable {s : Segment} {ss : List Segment}

/-- After a segment either the path is over or the next segment follows. -/
theorem opensArgs_eq_false (hss : ∀ s ∈ ss, g.IsSegment inner exprStyle s)
    (hus : endsPath exprStyle us) :
    opensArgs exprStyle (ss.flatMap (op "::" ++ ·.trees) ++ us) = false := by
  cases ss with
  | nil =>
    simp only [endsPath, Bool.and_eq_true, Bool.not_eq_true', Bool.or_eq_true] at hus
    rcases hus with ⟨hcolons, rfl | hangle⟩ <;> simp [opensArgs, *]
  | cons s ss =>
    obtain ⟨w, ts, htrees⟩ := (hss s (.head _)).begins
    rw [List.flatMap_cons, htrees]
    cases exprStyle <;> rfl

theorem reads_moreSegments (hss : ∀ s ∈ ss, g.IsSegment inner exprStyle s)
    (hus : endsPath exprStyle us) :
    Reads (g.moreSegments inner exprStyle) (ss.flatMap (op "::" ++ ·.trees) ++ us) us
      (· = ss) := by
  refine .many (.items (.ends ?_) (fun s rest hrest => ?_) ?_)
  · simp only [endsPath, Bool.and_eq_true, Bool.not_eq_true'] at hus
    rw [hus.1, Bool.false_and]
  · have hs : g.IsSegment inner exprStyle s := hss s (hrest.subset (.head _))
    have hrest : ∀ t ∈ rest, g.IsSegment inner exprStyle t :=
      fun t ht => hss t (hrest.subset (.tail _ ht))
    refine (Reads.goes ?_ (P := (· = s)) ?_).mono ?_
    · obtain ⟨w, ts, htrees⟩ := hs.begins
      rw [htrees]
      rfl
    · rw [List.append_assoc]
      exact (Reads.op "::").andThen (hs.reads (opensArgs_eq_false hrest hus))
    · rintro _ ⟨_, rfl, rfl⟩
      rfl
  · intro s _ h
    cases h

theorem reads_segments {leading : Bool} (hss : ∀ t ∈ s :: ss, g.IsSegment inner exprStyle t)
    (hus : endsPath exprStyle us) :
    Reads (g.pathWith inner exprStyle) (Path.trees ⟨leading, s :: ss⟩ ++ us) us
      (· = ⟨leading, s :: ss⟩) := by
  have hs : g.IsSegment inner exprStyle s := hss s (.head _)
  have htail : ∀ t ∈ ss, g.IsSegment inner exprStyle t := fun t ht => hss t (.tail _ ht)
  rw [Path.trees_cons, List.append_assoc, List.append_assoc]
  unfold Grammar.pathWith
  refine (Reads.op?_when ?_).bind ?_
  · obtain ⟨w, ts, htrees⟩ := hs.begins
    rw [htrees]
    rfl
  rintro o rfl
  exact (hs.reads (opensArgs_eq_false htail hus)).andThen
    ((reads_moreSegments htail hus).andThen (.pure rfl))

/-- A path of words is read back before anything that does not go on with it. -/
theorem reads_pathWith {p : Path} (hp : p.IsWords) (hus : endsPath exprStyle us) :
    Reads (g.pathWith inner exprStyle) (p.trees ++ us) us (· = p) := by
  obtain ⟨leading, _ | ⟨s, ss⟩⟩ := p
  · exact absurd rfl hp.nonempty
  · exact reads_segments (fun t ht => isSegment_word (hp.segments t ht)) hus

theorem reads_path_of {p : Path} (h : ∀ inner, Reads (g.pathWith inner exprStyle) (p.trees ++ us) us
    (· = p)) : Reads (g.path exprStyle) (p.trees ++ us) us (· = p) := by
  unfold Grammar.path Grammar.inner
  exact .bind (.andThen .rest (.pure rfl)) fun _ heq => heq ▸ h _

theorem reads_path {p : Path} (hp : p.IsWords) (hus : endsPath exprStyle us) :
    Reads (g.path exprStyle) (p.trees ++ us) us (· = p) :=
  reads_path_of fun _ => reads_pathWith hp hus

end Grammar

/-! ## Paths from texts -/

namespace Reader

theorem anyWord_peeked {word text : String} {c c' : Cursor} (hpeek : peekWord word c.rest = true)
    (h : anyWord c = .ok (text, c')) : text = word := by
  obtain ⟨pos, hrest⟩ := anyWord_ok h
  rw [hrest] at hpeek
  exact eq_of_beq hpeek

end Reader

namespace Grammar

open Reader

variable {g : Grammar} {inner : PathGrammar} {exprStyle : Bool}

theorem segment_isPathWord :
    Yields (g.segment inner exprStyle) fun s => isPathWord s.name := by
  have hlast {w : String} (hw : isPathWord w) : Yields (do
      let ts ← rest
      if opensArgs exprStyle ts then return ⟨w, ← g.angleArgs inner⟩
      else return .plain w : Reader Segment) fun s => isPathWord s.name :=
    .after fun _ => .ite (.after fun _ => .pure hw) (.pure hw)
  intro c s c' h
  unfold segment at h
  obtain ⟨ts, d, hrest, h⟩ := bind_ok h
  cases hrest
  split at h
  · rename_i hwords
    obtain ⟨word, d, hword, h⟩ := bind_ok h
    cases h
    obtain ⟨w, hw, hpeek⟩ := List.any_eq_true.1 hwords
    cases anyWord_peeked hpeek hword
    simp only [List.mem_cons, List.not_mem_nil, or_false] at hw
    rcases hw with rfl | rfl | rfl | rfl <;> rfl
  · dsimp only at h
    split at h
    · rename_i hself
      obtain ⟨word, d, hword, h⟩ := bind_ok h
      cases anyWord_peeked hself hword
      exact hlast rfl h
    · obtain ⟨word, d, hword, h⟩ := bind_ok h
      have hname : isName word := (name_ok hword).1
      exact hlast (by simp [isPathWord, hname]) h

theorem pathWith_isPathWord : Yields (g.pathWith inner exprStyle) fun p =>
    p.segments ≠ [] ∧ ∀ s ∈ p.segments, isPathWord s.name := by
  unfold pathWith
  refine .after fun _ => segment_isPathWord.bind fun first hfirst => ?_
  refine (Yields.manyWhile (.after fun _ => segment_isPathWord)).bind fun more hmore => .pure ?_
  exact ⟨List.cons_ne_nil _ _, List.forall_mem_cons.2 ⟨hfirst, hmore⟩⟩

theorem path_isPathWord : Yields (g.path exprStyle) fun p =>
    p.segments ≠ [] ∧ ∀ s ∈ p.segments, isPathWord s.name := by
  intro c p c' h
  unfold path at h
  obtain ⟨grammar, d, hinner, h⟩ := bind_ok h
  cases hinner
  exact pathWith_isPathWord h

end Grammar

theorem Path.parse_isPathWord {text : String} {p : Path} (h : Path.parse text = .ok p) :
    p.segments ≠ [] ∧ ∀ s ∈ p.segments, isPathWord s.name :=
  (readText_yields h fun _ => Grammar.path_isPathWord :)

end WrapperGen.Source

namespace WrapperGen

/-- The path of the runtime consists of words if none of its segments has arguments. -/
theorem Config.runtime_isWords {c : Config} (h : c.runtime.isPlain) : c.runtime.IsWords := by
  have hargs : ∀ s ∈ c.runtime.segments, s.args = .none := by
    intro s hs
    have := List.all_eq_true.1 h s hs
    unfold Source.Segment.isPlain at this
    split at this
    · assumption
    · cases this
  have hwords : c.runtime.segments ≠ [] ∧ ∀ s ∈ c.runtime.segments, Source.isPathWord s.name := by
    unfold runtime
    split
    · rename_i hparse
      exact Source.Path.parse_isPathWord hparse
    · exact ⟨List.cons_ne_nil _ _, by simp [Source.Segment.plain, Source.isPathWord, Source.isName,
        Source.keywords]⟩
  exact ⟨hwords.1, fun s hs => ⟨hargs s hs, hwords.2 s hs⟩⟩

end WrapperGen
