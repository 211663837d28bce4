import WrapperGen.Proofs.Layout.Units
import WrapperGen.Proofs.Rounds.Units
import WrapperGen.Proofs.Source.Names
import WrapperGen.Proofs.Types.Operations
/-!
# Traits whose wrappers cannot be emitted

Classification only fails; emission can panic, on a name that cannot be made into one and on a
phrase that has no layout. `unitOf_panic` says exactly when, and `emittable_of_plain` that plain
names and types without raw tokens are enough to prevent it.
-/

namespace WrapperGen

open Source

/-! ## Names -/

/-- A text that is an identifier as it stands: not empty, not raw, without blanks. -/
def IsPlainName (text : String) : Prop :=
  text.toList.head?.any Text.isIdentStart ∧ text.toList.tail.all Text.isIdentContinue

instance (text : String) : Decidable (IsPlainName text) := inferInstanceAs (Decidable (_ ∧ _))

theorem IsPlainName.append {text suffix : String} (htext : IsPlainName text)
    (hsuffix : suffix.toList.all Text.isIdentContinue) : IsPlainName (text ++ suffix) := by
  obtain ⟨hstart, hrest⟩ := htext
  unfold IsPlainName
  cases hcs : text.toList with
  | nil => simp [hcs] at hstart
  | cons c cs => simp_all

namespace Emit

theorem badName?_eq_none {text : String} : badName? text = none ↔ IsPlainName text := by
  unfold badName? IsPlainName
  cases htext : text.toList with
  | nil => simp
  | cons c cs =>
    by_cases hc : Text.isIdentStart c
    · simp [hc, Text.not_isDigit hc]
    · simp only [hc, List.head?_cons, List.tail_cons, Option.any_some]
      split <;> simp

/-- What keeps emission from a panic: plain names, and a layout for a unit that reads as a file. -/
structure Emittable (c : Config) (i : Interface) : Prop where
  unitName : IsPlainName (c.unitName i.simpleName)
  name : IsPlainName i.simpleName
  layout : ∀ file, readTrees File.reader
    (render c.runtime i (c.unitName i.simpleName)).trees = .ok file →
      Layout.Writable (render c.runtime i (c.unitName i.simpleName)).pieces

theorem emit_panic {c : Config} {i : Interface} :
    (∃ text, emit c i = .error (.panic text)) ↔ ¬ Emittable c i := by
  unfold emit
  dsimp only
  cases hunit : badName? (c.unitName i.simpleName) with
  | some text =>
    refine iff_of_true ⟨text, rfl⟩ fun hi => ?_
    rw [badName?_eq_none.2 hi.unitName] at hunit
    cases hunit
  | none =>
    cases hname : badName? i.simpleName with
    | some text =>
      refine iff_of_true ⟨text, rfl⟩ fun hi => ?_
      rw [badName?_eq_none.2 hi.name] at hname
      cases hname
    | none =>
      have hnames := And.intro (badName?_eq_none.1 hunit) (badName?_eq_none.1 hname)
      simp only [bind, Except.bind, pure, Except.pure,
        show (none <|> none : Option String) = none from rfl]
      cases hread : readTrees File.reader
          (render c.runtime i (c.unitName i.simpleName)).trees with
      | error e =>
        refine iff_of_false (by simp [throw, throwThe, MonadExceptOf.throw]) (not_not_intro ?_)
        exact ⟨hnames.1, hnames.2, fun file hfile => by rw [hread] at hfile; cases hfile⟩
      | ok file =>
        cases hpieces : Layout.anyUnwritable?
            (render c.runtime i (c.unitName i.simpleName)).pieces with
        | some what =>
          refine iff_of_true (by simp [throw, throwThe, MonadExceptOf.throw]) fun hi => ?_
          have hwritable := hi.layout file hread
          rw [Layout.Writable, hpieces] at hwritable
          cases hwritable
        | none =>
          exact iff_of_false (by simp) (not_not_intro ⟨hnames.1, hnames.2, fun _ _ => hpieces⟩)

end Emit

theorem unitOf_panic {c : Config} {r : Resolver} {d : Declared} :
    (∃ text, unitOf c r d = .error (.panic text)) ↔
      ∃ i, classifyInterface c r d = .ok i ∧ ¬ Emit.Emittable c i := by
  cases hi : classifyInterface c r d with
  | error f => simp [unitOf_of_unfit hi]
  | ok i => simp [unitOf_of_fit hi, Emit.emit_panic]

/-! ## Types -/

theorem argumentTypes_isParsed {a : Args} (ha : a.isParsed) :
    ∀ t ∈ Ty.argumentTypes a, t.isParsed := by
  cases a with
  | angle _ as _ =>
    simp only [Args.isParsed] at ha
    intro t ht
    rw [Ty.argumentTypes] at ht
    induction as with
    | nil => exact absurd ht List.not_mem_nil
    | cons a as ih =>
      simp only [genericArgsParsed, Bool.and_eq_true] at ha
      cases a with
      | type t' =>
        rcases List.mem_cons.1 ht with rfl | ht
        · simpa [GenericArg.isParsed] using ha.1
        · exact ih ha.2 ht
      | _ => exact ih ha.2 ht
  | _ => exact fun t ht => absurd ht List.not_mem_nil

theorem segment_isParsed {ss : List Segment} (hss : segmentsParsed ss) {s : Segment}
    (hs : s ∈ ss) : s.args.isParsed := by
  induction ss with
  | nil => exact absurd hs List.not_mem_nil
  | cons s' ss ih =>
    simp only [segmentsParsed, Bool.and_eq_true] at hss
    rcases List.mem_cons.1 hs with rfl | hs
    · cases s
      exact hss.1
    · exact ih hss.2 hs

theorem applied_isParsed {t : Ty} (ht : t.isParsed) : ∀ a ∈ t.applied, a.isParsed := by
  fun_induction Ty.applied t with
  | case1 e ih => exact ih (by simpa [Ty.isParsed] using ht)
  | case2 p =>
    rw [Ty.isParsed, Path.isParsed_eq] at ht
    intro a ha
    cases hlast : p.segments.getLast? with
    | none => simp [hlast] at ha
    | some last =>
      rw [hlast] at ha
      exact argumentTypes_isParsed (segment_isParsed ht (List.mem_of_getLast? hlast)) a ha
  | case3 => exact fun a ha => absurd ha List.not_mem_nil

theorem operation_isParsed {c : Config} {r : Resolver} {s : Scope} {m : Method} {o : Operation}
    (hm : ∀ ty ∈ m.signature.types, ty.isParsed) (h : classifyOperation c r s m = .ok o) :
    Emit.Parsed o := by
  obtain ⟨-, hparameters, ty, hty, hpayload⟩ := classifyOperation_ok h
  refine ⟨fun p hp => hm p.ty (hparameters p hp), ?_⟩
  rcases List.mem_cons.1 hpayload with hsame | hargument
  · rw [hsame]
    exact hm ty hty
  · exact applied_isParsed (hm ty hty) _ hargument

/-! ## Plain traits -/

/-- Settings that spoil no wrappers. -/
structure Config.IsPlain (c : Config) : Prop where
  suffix : c.unitSuffix.toList.all Text.isIdentContinue
  runtime : c.runtime.isParsed

/-- A trait whose name is plain and whose operations are typed without raw tokens. -/
structure Declared.IsPlain (c : Config) (d : Declared) : Prop where
  name : IsPlainName d.simpleName
  types : ∀ m ∈ qualifyingMethods c d.item, ∀ ty ∈ m.signature.types, ty.isParsed

instance (c : Config) : Decidable c.IsPlain :=
  decidable_of_iff (_ ∧ _) ⟨fun h => ⟨h.1, h.2⟩, fun h => ⟨h.suffix, h.runtime⟩⟩

instance (c : Config) (d : Declared) : Decidable (d.IsPlain c) :=
  decidable_of_iff (_ ∧ _) ⟨fun h => ⟨h.1, h.2⟩, fun h => ⟨h.name, h.types⟩⟩

/-- A plain trait is emitted, or a failure says why not. -/
theorem emittable_of_plain {c : Config} (hc : c.IsPlain) {r : Resolver} {d : Declared}
    (hd : d.IsPlain c) {i : Interface} (hi : classifyInterface c r d = .ok i) :
    Emit.Emittable c i := by
  have hsame : i.simpleName = d.simpleName := (classifyInterface_ok hi).2.2.1
  have hname : IsPlainName i.simpleName := hsame ▸ hd.name
  refine ⟨hname.append hc.suffix, hname, fun _ _ => Emit.render_writable hc.runtime ?_ _⟩
  intro o ho
  obtain ⟨m, hm, hmo⟩ := (classifyInterface_operations hi).2 o ho
  exact operation_isParsed (hd.types m hm) hmo

end WrapperGen
