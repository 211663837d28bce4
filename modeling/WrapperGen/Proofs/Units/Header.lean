import WrapperGen.Proofs.Traits.Descriptions
import WrapperGen.Proofs.Units.Structure
import WrapperGen.Proofs.Unplaced.Texts
/-!
# The header of a unit

The header is written in front of a unit that was read before. `emitted_text_reads_back_iff`: it
is one comment line, and what is printed behind it keeps its meaning, exactly if neither the path of
the source nor the name of the service has a line feed in it. Both are texts from file names and may
have one (`broken_path_unreadable`).
-/

namespace WrapperGen

open Source Layout

/-! ## The start of a layout -/

namespace Layout

theorem Page.writeIfAny_out (page : Page) (s : String) :
    ∃ more, (page.writeIfAny s).out = more ++ page.out := by
  unfold writeIfAny
  split
  · exact ⟨[], rfl⟩
  · exact ⟨[s, _], rfl⟩

theorem Page.putBreak_out (page : Page) (frame : Frame) (indent : Int) (size : Nat) (b : Break) :
    ∃ more, (page.putBreak frame indent size b).out = more ++ page.out := by
  unfold putBreak
  dsimp only
  split_ifs
  · exact ⟨[b.unbroken], rfl⟩
  · obtain ⟨ending, hending⟩ := page.writeIfAny_out b.ending
    obtain ⟨starting, hstarting⟩ :=
      ((page.writeIfAny b.ending).startLine (indent + b.offset)).writeIfAny_out b.starting
    refine ⟨starting ++ "\n" :: ending, ?_⟩
    rw [hstarting, startLine, hending, List.append_assoc, List.cons_append]

mutual
/-- What is printed stays. -/
theorem Piece.print_out (frame : Frame) (indent : Int) (after : Nat) (page : Page) (p : Piece) :
    ∃ more, (p.print frame indent after page).out = more ++ page.out := by
  cases p with
  | text s => exact ⟨[s, _], rfl⟩
  | brk b => exact page.putBreak_out ..
  | box offset consistent inner =>
    rw [Piece.print]
    split
    · exact printAll_out ..
    · exact printAll_out ..
  | strut => exact ⟨[], rfl⟩
  | unwritable => exact ⟨[], rfl⟩
theorem printAll_out (frame : Frame) (indent : Int) (after : Nat) (page : Page) (ps : List Piece) :
    ∃ more, (printAll frame indent after page ps).out = more ++ page.out := by
  cases ps with
  | nil => exact ⟨[], rfl⟩
  | cons p ps =>
    obtain ⟨more, hmore⟩ := Piece.print_out frame indent (lead after ps) page p
    obtain ⟨others, hothers⟩ :=
      printAll_out frame indent after (p.print frame indent (lead after ps) page) ps
    refine ⟨others ++ more, ?_⟩
    rw [printAll, hothers, hmore, List.append_assoc]
end

/-- The page with these pieces on it. -/
def pageOf (pieces : List Piece) : Page :=
  Piece.print (.broken false) 0 0 ⟨[], margin, 0⟩ (.box 0 true pieces)

/-- What is laid out, text by text. -/
theorem layout_toList (pieces : List Piece) :
    (layout pieces).toList = (pageOf pieces).out.reverse.flatMap String.toList :=
  String.toList_join

theorem layout_begins (s : String) (ps : List Piece) :
    ∃ rest, (layout (.text s :: ps)).toList = s.toList ++ rest := by
  have hpage : ∃ frame, pageOf (.text s :: ps) =
      printAll frame 0 0 (Page.write ⟨[], margin, 0⟩ s) ps := by
    rw [pageOf, Piece.print]
    split
    · exact ⟨_, rfl⟩
    · exact ⟨_, rfl⟩
  obtain ⟨frame, hpage⟩ := hpage
  obtain ⟨more, hmore⟩ := printAll_out frame 0 0 (Page.write ⟨[], margin, 0⟩ s) ps
  have hblanks : "".pushn ' ' 0 = "" := rfl
  refine ⟨more.reverse.flatMap String.toList, ?_⟩
  rw [layout_toList, hpage, hmore]
  simp [Page.write, hblanks]

theorem commentPieces_begin {inner : Bool} {name value : String} {ps : List Piece}
    (h : commentPieces? inner name value = some ps) :
    ∃ s others, ps = .text s :: others ∧ s.toList.head? = some '/' := by
  unfold commentPieces? at h
  dsimp only at h
  split_ifs at h <;> obtain rfl := Option.some.inj h <;> exact ⟨_, _, rfl, by simp⟩

end Layout

namespace Emit

variable {c : Config} {i : Interface} {u : GeneratedUnit}

theorem docAttribute_begins (doc : String) :
    ∃ s ps, attributesPieces [docAttribute doc] = .text s :: ps ∧
      ∃ cs, s.toList = '/' :: cs ∨ s.toList = '#' :: '[' :: cs := by
  have hpieces : attributesPieces [docAttribute doc] =
      ((attributeComment? false (.single "doc")
        [.op "=", .token (.literal (Text.quote doc))]).getD
          (text "#[doc" ++ attrBody [.op "=", .token (.literal (Text.quote doc))] ++ text "]" ++
            space)) ++ [] := rfl
  rw [hpieces, List.append_nil]
  cases hcomment : attributeComment? false (.single "doc")
      [.op "=", .token (.literal (Text.quote doc))] with
  | none => exact ⟨"#[doc", _, rfl, "doc".toList, .inr rfl⟩
  | some ps =>
    obtain ⟨value, -, hpieces⟩ := Option.bind_eq_some_iff.1 hcomment
    obtain ⟨s, others, hps, hs⟩ := commentPieces_begin hpieces
    obtain ⟨cs, hcs⟩ := List.head?_eq_some_iff.1 hs
    exact ⟨s, others, hps, cs, .inl hcs⟩

/-- A unit begins with the documentation of its trait. -/
theorem render_beginsPlainly (runtime : Path) (i : Interface) (unitName : String) :
    File.BeginsPlainly (layout (render runtime i unitName).pieces).toList := by
  obtain ⟨s, ps, hdoc, cs, hs⟩ := docAttribute_begins (docOf i.simpleName)
  have hfirst : attributesPieces [docAttribute (docOf i.simpleName)] <+:
      (render runtime i unitName).pieces := by
    simp only [RenderedUnit.pieces, traitPieces, render, List.append_assoc]
    exact List.prefix_append _ _
  obtain ⟨others, hpieces⟩ := hfirst
  rw [hdoc, List.cons_append] at hpieces
  obtain ⟨rest, hrest⟩ := layout_begins s (ps ++ others)
  rw [← hpieces, hrest]
  rcases hs with hs | hs <;> rw [hs] <;> constructor <;> simp

/-! ## What is read -/

/-- The text is read as the file, but for the lines on which its traits stand. -/
def ReadsAs (text : String) (file : File) : Prop :=
  ∃ read, File.parse text = .ok read ∧ read.unplaced = file.unplaced

/-- What the header says. -/
def headerLine (i : Interface) : String :=
  "@generated by svcwrap from " ++ i.origin.text ++ " (" ++ i.qualifiedName ++ "). Do not edit."

theorem header_eq (i : Interface) : header i = "// " ++ headerLine i := by
  have hlead : "// @generated by svcwrap from " = "// " ++ "@generated by svcwrap from " := by
    decide +kernel
  rw [← String.toList_inj]
  unfold header headerLine
  rw [hlead]
  simp only [String.toList_append, List.append_assoc]

theorem headerLine_isLine_iff : '\n' ∉ (headerLine i).toList ↔
    '\n' ∉ i.origin.text.toList ∧ '\n' ∉ i.qualifiedName.toList := by
  have hwords : '\n' ∉ "@generated by svcwrap from ".toList ∧ '\n' ∉ " (".toList ∧
      '\n' ∉ "). Do not edit.".toList := by
    decide +kernel
  obtain ⟨hlead, hopen, hclose⟩ := hwords
  unfold headerLine
  simp only [String.toList_append, List.mem_append, not_or]
  constructor
  · rintro ⟨⟨⟨⟨-, hpath⟩, -⟩, hname⟩, -⟩
    exact ⟨hpath, hname⟩
  · rintro ⟨hpath, hname⟩
    exact ⟨⟨⟨⟨hlead, hpath⟩, hopen⟩, hname⟩, hclose⟩

/-- **Emitted text.** The header of a unit is one comment line, behind which the source is read as
whatever the printed unit is read as, exactly if neither the path of the source nor the name of the
service holds a line feed. Printed text that is read as the unit which was printed is then read as
its trait and its implementation. -/
theorem emitted_text_reads_back_iff {file : File} (h : emit c i = .ok u)
    (hprinted : ReadsAs (layout (render c.runtime i (c.unitName i.simpleName)).pieces) file) :
    ((∃ line, '\n' ∉ line.toList ∧
        u.source = "// " ++ line ++ "\n\n" ++
          layout (render c.runtime i (c.unitName i.simpleName)).pieces ∧
        ReadsAs u.source file) ↔
      '\n' ∉ i.origin.text.toList ∧ '\n' ∉ i.qualifiedName.toList) ∧
    ∃ written, readTrees File.reader (render c.runtime i (c.unitName i.simpleName)).trees =
        .ok written ∧
      (c.runtime.isPlain → (∃ t m, written.items = [.trait t, .impl m] ∧ Outlines c i t m) ∧
        (i.IsRead → written.items =
          [.trait (render c.runtime i (c.unitName i.simpleName)).extension,
            .impl (render c.runtime i (c.unitName i.simpleName)).implementation])) := by
  obtain ⟨⟨written, hwritten⟩, hsource⟩ := emit_source h
  rw [header_eq] at hsource
  refine ⟨⟨?_, fun hplaces => ?_⟩, written, hwritten, fun hplain => ?_⟩
  · rintro ⟨line, hline, hsource', -⟩
    -- there is one text between the two slashes and the printed unit
    rw [hsource', ← String.toList_inj] at hsource
    simp only [String.toList_append, List.append_assoc, List.append_cancel_left_eq] at hsource
    have hsame := List.append_cancel_right hsource
    rw [hsame] at hline
    exact headerLine_isLine_iff.1 hline
  · have hline := headerLine_isLine_iff.2 hplaces
    obtain ⟨printed, hparse, hprinted⟩ := hprinted
    obtain ⟨read, hread, hsame⟩ :=
      File.parse_behind_comment hline (render_beginsPlainly _ _ _) hparse
    rw [← hsource] at hread
    exact ⟨_, hline, hsource, read, hread, hsame.trans hprinted⟩
  · have hruntime := Config.runtime_isWords hplain
    obtain ⟨hnames, hitems⟩ := render_outlines hruntime hwritten
    exact ⟨hitems, fun hi => render_isRead hruntime hi hnames hwritten⟩

theorem readsAs_of_trees {text : String} {trees : List Tree} {file : File}
    (htext : File.BeginsPlainly text.toList)
    (hlex : (Lexer.lexChars text.toList).toOption.map Tree.allUnplaced =
      some (Tree.allUnplaced trees))
    (hread : readTrees File.reader trees = .ok file) : ReadsAs text file := by
  obtain ⟨ts, hts, htrees⟩ := Option.map_eq_some_iff.1 hlex
  obtain ⟨read, hread, hsame⟩ := readTrees_of_unplaced File.reader_unplaced htrees hread
  refine ⟨read, ?_, hsame⟩
  rw [File.parse_eq, File.parseChars, File.dropMark_of_beginsPlainly htext,
    File.dropShebang_of_beginsPlainly htext, toOption_eq_some.1 hts]
  exact hread

/-- A service without operations. -/
def silent : Interface :=
  ⟨"crate::api::Api", "crate::api", "Api", .pub, ⟨"src/api.rs"⟩, []⟩

theorem silent_isRead : silent.IsRead where
  visibility := .pub
  simpleName := by decide
  parameters := fun _ ho => absurd ho List.not_mem_nil
  payloads := fun _ ho => absurd ho List.not_mem_nil

/-- Its unit is printed token for token. -/
theorem silent_lex :
    (Lexer.lexChars (layout (render Config.default.runtime silent
        (Config.default.unitName silent.simpleName)).pieces).toList).toOption.map
          Tree.allUnplaced =
      some (Tree.allUnplaced (render Config.default.runtime silent
        (Config.default.unitName silent.simpleName)).trees) := by
  rw [layout_toList]
  decide +kernel

theorem silent_text_reads_back :
    '\n' ∉ silent.origin.text.toList ∧ '\n' ∉ silent.qualifiedName.toList ∧
    ∃ u, emit .default silent = .ok u ∧ ∃ file,
      ReadsAs (layout (render Config.default.runtime silent
        (Config.default.unitName silent.simpleName)).pieces) file ∧
      ReadsAs u.source file ∧
      file.items =
        [.trait (render Config.default.runtime silent
            (Config.default.unitName silent.simpleName)).extension,
          .impl (render Config.default.runtime silent
            (Config.default.unitName silent.simpleName)).implementation] := by
  have hpath : '\n' ∉ silent.origin.text.toList := by decide +kernel
  have hname : '\n' ∉ silent.qualifiedName.toList := by decide +kernel
  have hplain : Config.default.runtime.isPlain := by decide +kernel
  have hemit : (emit .default silent).toOption.isSome = true := by decide +kernel
  obtain ⟨u, hu⟩ := Option.isSome_iff_exists.1 hemit
  have hu : emit .default silent = .ok u := toOption_eq_some.1 hu
  obtain ⟨file, hfile⟩ := (emit_source hu).1
  have hprinted := readsAs_of_trees (render_beginsPlainly _ _ _) silent_lex hfile
  obtain ⟨hiff, written, hwritten, hitems⟩ := emitted_text_reads_back_iff hu hprinted
  obtain ⟨line, -, -, hsource⟩ := hiff.2 ⟨hpath, hname⟩
  obtain rfl : file = written := Except.ok.inj (hfile.symm.trans hwritten)
  exact ⟨hpath, hname, u, hu, file, hprinted, hsource, (hitems hplain).2 silent_isRead⟩

/-- The silent service in a file with a line feed in its name. -/
def broken : Interface :=
  ⟨"crate::a\nb::Api", "crate::a\nb", "Api", .pub, ⟨"a\nb.rs"⟩, []⟩

def silentSource : String := "#[remote_service]\npub trait Api: Send + Sync \x7b\x7d\n"

theorem broken_unreadable : (File.parseChars ((header broken).toList ++ "\n\n".toList ++
    (layout (render Config.default.runtime silent
      (Config.default.unitName silent.simpleName)).pieces).toList)).toOption.isNone = true := by
  rw [layout_toList]
  decide +kernel

/-- With a line feed in the path of its source, the unit reads as it was printed until its header is
in front of it. -/
theorem broken_path_unreadable :
    ∃ crate, Universe.ofSources [("a\nb.rs", silentSource)] = .ok crate ∧
      ∃ d ∈ scan crate Config.default.marker, ∃ i,
        classifyInterface .default (.ofUniverse crate) d = .ok i ∧
        ∃ u, emit .default i = .ok u ∧
          (∃ written, readTrees File.reader (render Config.default.runtime i
              (Config.default.unitName i.simpleName)).trees = .ok written ∧
            ReadsAs (layout (render Config.default.runtime i
              (Config.default.unitName i.simpleName)).pieces) written) ∧
          ∀ file, File.parse u.source ≠ .ok file := by
  have hread : describedAs "a\nb.rs" silentSource.toList fun i =>
      decide (i.qualifiedName = broken.qualifiedName ∧ i.packageName = broken.packageName ∧
        i.simpleName = broken.simpleName ∧ i.origin = broken.origin) &&
      i.visibility matches .pub && i.operations.isEmpty := by
    unfold silentSource
    rw [toList_of_ofList rfl]
    decide +kernel
  obtain ⟨crate, hcrate, d, hd, i, hi, hbroken⟩ := exists_of_describedAs hread
  obtain rfl : i = broken := by
    obtain ⟨_, _, _, visibility, _, operations⟩ := i
    simp only [Bool.and_eq_true, decide_eq_true_eq, List.isEmpty_iff] at hbroken
    obtain ⟨⟨⟨rfl, rfl, rfl, rfl⟩, hvisibility⟩, rfl⟩ := hbroken
    split at hvisibility
    · rfl
    · cases hvisibility
  have hemit : (emit .default broken).toOption.isSome = true := by decide +kernel
  obtain ⟨u, hu⟩ := Option.isSome_iff_exists.1 hemit
  have hu : emit .default broken = .ok u := toOption_eq_some.1 hu
  obtain ⟨⟨written, hwritten⟩, hsource⟩ := emit_source hu
  refine ⟨crate, hcrate, d, hd, broken, hi, u, hu, ⟨written, hwritten, ?_⟩, fun file hfile => ?_⟩
  · exact readsAs_of_trees (render_beginsPlainly _ _ _) silent_lex hwritten
  · rw [hsource, File.parse_eq, String.toList_append, String.toList_append] at hfile
    have hnone : (Except.ok file : Except SyntaxError File).toOption.isNone = true :=
      hfile ▸ broken_unreadable
    cases hnone

end Emit

end WrapperGen
