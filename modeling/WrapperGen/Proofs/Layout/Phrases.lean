import WrapperGen.Proofs.Layout.Pieces
/-!
# Phrases that can be written

Only tokens that the parser kept as they are have no layout. `Ty.isParsed` says that there are none
in a type; then its pieces are writable (`ty_writable`), and so are those of every expression,
pattern and statement without such tokens (`node_laidOut`).

A phrase is laid out by several functions, according to the place it stands in; `Laid` says of all
of them that what they make of it is writable. Some look one level further down, so the induction
carries `LaidOut`: a phrase and its parts are `Laid`.
-/

namespace WrapperGen

namespace Source

/-! ## Parsed phrases -/

mutual
/-- Whether no part of the type is kept as raw tokens. -/
def Ty.isParsed : Ty → Bool
  | .array e n => e.isParsed && n.isParsed
  | .fnPointer b _ _ ps _ v o =>
    binderParsed b && paramsParsed ps && nodesParsed v && outputParsed o
  | .implTrait bs _ => boundsParsed bs
  | .infer => true
  | .never => true
  | .invocation _ _ => true
  | .paren e => e.isParsed
  | .path p => p.isParsed
  | .projection s _ p => s.isParsed && p.isParsed
  | .pointer _ e => e.isParsed
  | .reference _ _ e => e.isParsed
  | .slice e => e.isParsed
  | .traitObject _ bs _ => boundsParsed bs
  | .tuple es _ => tysParsed es
  | .verbatim _ => false
def Path.isParsed : Path → Bool
  | ⟨_, ss⟩ => segmentsParsed ss
def Segment.isParsed : Segment → Bool
  | ⟨_, a⟩ => a.isParsed
def Args.isParsed : Args → Bool
  | .none => true
  | .angle _ as _ => genericArgsParsed as
  | .paren ts _ o => tysParsed ts && outputParsed o
def GenericArg.isParsed : GenericArg → Bool
  | .lifetime _ => true
  | .type t => t.isParsed
  | .const n => n.isParsed
  | .assocType _ a t => a.isParsed && t.isParsed
  | .assocConst _ a n => a.isParsed && n.isParsed
  | .constraint _ a bs _ => a.isParsed && boundsParsed bs
def Bound.isParsed : Bound → Bool
  | .lifetime _ => true
  | .trait _ _ b p => binderParsed b && p.isParsed
  | .capture _ _ => true
  | .verbatim _ => false
def Binder.isParsed : Binder → Bool
  | ⟨ps, _⟩ => genericParamsParsed ps
def GenericParam.isParsed : GenericParam → Bool
  | .lifetime as _ _ => nodesParsed as
  | .type as _ bs d => nodesParsed as && boundsParsed bs && outputParsed d
  | .const as _ t d => nodesParsed as && t.isParsed && defaultParsed d
def FnPointerParam.isParsed : FnPointerParam → Bool
  | ⟨as, _, t⟩ => nodesParsed as && t.isParsed
def Node.isParsed : Node → Bool
  | .token _ => true
  | .group _ ns => nodesParsed ns
  | .type t => t.isParsed
  | .path p => p.isParsed
  | .projection s _ p => s.isParsed && p.isParsed
  | .args a => a.isParsed
  | .binder b => b.isParsed
  | .form .verbatim _ => false
  | .form _ ns => nodesParsed ns
def tysParsed : List Ty → Bool
  | [] => true
  | t :: ts => t.isParsed && tysParsed ts
def segmentsParsed : List Segment → Bool
  | [] => true
  | s :: ss => s.isParsed && segmentsParsed ss
def genericArgsParsed : List GenericArg → Bool
  | [] => true
  | a :: as => a.isParsed && genericArgsParsed as
def boundsParsed : List Bound → Bool
  | [] => true
  | b :: bs => b.isParsed && boundsParsed bs
def genericParamsParsed : List GenericParam → Bool
  | [] => true
  | p :: ps => p.isParsed && genericParamsParsed ps
def paramsParsed : List FnPointerParam → Bool
  | [] => true
  | p :: ps => p.isParsed && paramsParsed ps
def nodesParsed : List Node → Bool
  | [] => true
  | n :: ns => n.isParsed && nodesParsed ns
def binderParsed : Option Binder → Bool
  | none => true
  | some b => b.isParsed
def outputParsed : Option Ty → Bool
  | none => true
  | some t => t.isParsed
def defaultParsed : Option Node → Bool
  | none => true
  | some n => n.isParsed
end

theorem Node.isParsed_form {f : Form} {ns : List Node} :
    (form f ns).isParsed ↔ f ≠ .verbatim ∧ nodesParsed ns := by
  cases f <;> simp [isParsed]

end Source

namespace Layout

open Source

/-! ## Places -/

/-- Whatever place the phrase stands in, its pieces are writable. -/
structure Laid (n : Node) : Prop where
  whole : ∀ place, Writable (nodePieces place n)
  values : AllWritable (insideValues n)
  lines : Writable (insideLines n)
  alone : ∀ place, AllWritable (aloneIn place n).toList
  tail : ∀ place, AllWritable (tailValue place n).toList
  rows : AllWritable (rowPieces n)
  otherwise : AllWritable (elsePieces n).toList
  alternatives : AllWritable (orParts n)

def parts : Node → List Node
  | .group _ ns => ns
  | .form _ ns => ns
  | _ => []

structure LaidOut (n : Node) : Prop extends Laid n where
  inner : ∀ m ∈ parts n, Laid m

/-! ## Lists of phrases -/

section
variable {ns : List Node} (hns : ∀ n ∈ ns, LaidOut n)
include hns

theorem writable_valuesOf : AllWritable (valuesOf ns) := by
  induction ns with
  | nil => exact allWritable_nil
  | cons n ns ih =>
    obtain ⟨hn, hns⟩ := List.forall_mem_cons.1 hns
    rw [valuesOf]
    split
    · exact ih hns
    · exact allWritable_cons.2 ⟨hn.whole _, ih hns⟩

theorem writable_linesOf : Writable (linesOf ns) := by
  induction ns with
  | nil => exact writable_nil
  | cons n ns ih =>
    obtain ⟨hn, hns⟩ := List.forall_mem_cons.1 hns
    rw [linesOf]
    exact writable_append.2 ⟨hn.whole _, ih hns⟩

theorem writable_rowParts : AllWritable (rowParts ns) := by
  induction ns with
  | nil => exact allWritable_nil
  | cons n ns ih =>
    obtain ⟨hn, hns⟩ := List.forall_mem_cons.1 hns
    rw [rowParts]
    exact allWritable_cons.2 ⟨hn.whole _, ih hns⟩

theorem writable_orList : AllWritable (orList ns) := by
  induction ns with
  | nil => exact allWritable_nil
  | cons n ns ih =>
    obtain ⟨hn, hns⟩ := List.forall_mem_cons.1 hns
    rw [orList]
    split
    · exact ih hns
    · exact allWritable_cons.2 ⟨hn.whole _, ih hns⟩

theorem writable_attrsPieces : Writable (attrsPieces ns) := by
  induction ns with
  | nil => exact writable_nil
  | cons n ns ih =>
    obtain ⟨hn, hns⟩ := List.forall_mem_cons.1 hns
    rw [attrsPieces]
    exact writable_append.2 ⟨hn.whole _, ih hns⟩

theorem writable_furtherPieces : Writable (furtherPieces ns) := by
  induction ns with
  | nil => exact writable_nil
  | cons n ns ih =>
    obtain ⟨hn, hns⟩ := List.forall_mem_cons.1 hns
    rw [furtherPieces]
    simp [hn.whole, ih hns]

end

theorem writable_attrBody {ns : List Node} (hns : ∀ n ∈ ns, Laid n) : Writable (attrBody ns) := by
  unfold attrBody
  split
  · simp [(hns _ (.tail _ (.head _))).whole]
  · exact writable_attrToken _ _ _
  · exact writable_nil

/-! ## One phrase -/

/-- A phrase without parts is laid out as a whole or not at all. -/
theorem laidOut_of_whole {n : Node} (hparts : ∀ d ns, n ≠ .group d ns)
    (hform : ∀ f ns, n ≠ .form f ns) (hn : ∀ place, Writable (nodePieces place n)) : LaidOut n := by
  cases n with
  | group d ns => exact absurd rfl (hparts d ns)
  | form f ns => exact absurd rfl (hform f ns)
  | _ =>
    exact ⟨⟨hn, allWritable_nil, writable_nil, fun _ => allWritable_nil, fun _ => allWritable_nil,
      allWritable_nil, allWritable_nil, allWritable_nil⟩, fun _ hm => absurd hm List.not_mem_nil⟩

theorem laidOut_group {d : Delim} {ns : List Node} (hns : ∀ n ∈ ns, LaidOut n) :
    LaidOut (.group d ns) := by
  have halone : ∀ place, AllWritable (aloneIn place (.group d ns)).toList := by
    intro place
    unfold aloneIn
    split
    · rename_i s hs
      obtain ⟨-, rfl⟩ := Node.group.inj hs
      exact (hns s (.head _)).tail place
    · exact allWritable_nil
  exact ⟨⟨fun _ => writable_tokenPieces (.group d ns), writable_valuesOf hns, writable_linesOf hns,
    halone, fun _ => allWritable_nil, allWritable_nil, allWritable_nil, allWritable_nil⟩,
    fun m hm => (hns m hm).toLaid⟩

theorem writable_form {place : Place} {f : Form} {ns : List Node} (hf : f ≠ .verbatim)
    (hns : ∀ n ∈ ns, LaidOut n) : Writable (nodePieces place (.form f ns)) := by
  have hwhole : ∀ n ∈ ns, ∀ place, Writable (nodePieces place n) := fun n hn => (hns n hn).whole
  have hvalues : ∀ n ∈ ns, AllWritable (insideValues n) := fun n hn => (hns n hn).values
  have hlines : ∀ n ∈ ns, Writable (insideLines n) := fun n hn => (hns n hn).lines
  have halone : ∀ n ∈ ns, ∀ place, AllWritable (aloneIn place n).toList :=
    fun n hn => (hns n hn).alone
  have hrows : ∀ n ∈ ns, AllWritable (rowPieces n) := fun n hn => (hns n hn).rows
  have helse : ∀ n ∈ ns, AllWritable (elsePieces n).toList := fun n hn => (hns n hn).otherwise
  have hor : ∀ n ∈ ns, AllWritable (orParts n) := fun n hn => (hns n hn).alternatives
  generalize hn : Node.form f ns = n
  unfold nodePieces
  split
  all_goals cases hn
  -- most forms put the pieces of their parts together
  all_goals try simp [hwhole, hvalues, hlines, halone, hrows, hor, writable_smallBlock,
    writable_fieldsBox]
  -- attributes, which may become comments
  · rename_i head delim p body
    have hbody := (hns (.group delim (.path p :: body)) (by simp)).inner
    refine writable_getD writable_attributeComment ?_
    simp [writable_attrBody fun m hm => hbody m (.tail _ hm)]
  · rename_i head mark delim p body
    have hbody := (hns (.group delim (.path p :: body)) (by simp)).inner
    refine writable_getD writable_attributeComment ?_
    simp [writable_attrBody fun m hm => hbody m (.tail _ hm)]
  -- a block, which vanishes around the only expression of an arm
  · rename_i l b
    have hl := hrows l (by simp)
    have hb := hlines b (by simp)
    have halone := halone b (by simp)
    split
    · split
      · rename_i ps hps
        split at hps
        · exact halone .armBody ps (by simp [hps])
        · cases hps
      · simp [hl, hb]
    · simp [hl, hb, halone, writable_smallBlock]
  -- a call
  · rename_i d args
    exact hvalues (.group d args) (by simp)
  -- a closure, with or without the type of its value
  · rename_i params _ out body
    have hparams := hrows params (by simp)
    have hout := hrows out (by simp)
    have hbody := hwhole body (by simp) .value
    generalize rowPieces params = inputs at hparams ⊢
    split
    · rename_i ty heq
      rw [heq] at hout
      cases inputs with
      | nil => simp_all
      | cons x xs => simp_all
    · cases inputs with
      | nil => simp_all
      | cons x xs => simp_all
  -- a condition
  · rename_i b e
    have hb := hlines b (by simp)
    have halone := halone b (by simp)
    have he := helse e (by simp)
    split
    · rename_i ps hps
      rw [hps] at he
      simp_all [writable_smallBlock]
    · simp [hb]
  -- an arm
  · rename_i guard _ body _
    have hguard := hrows guard (by simp)
    split
    · rename_i heq
      simp_all
    · exact writable_nil
  -- the call of a method
  · rename_i d args
    exact hvalues (.group d args) (by simp)
  -- a repeated element
  · rename_i e _ n
    have hinner := (hns (.group _ _) (.head _)).inner
    exact ⟨(hinner e (.head _)).whole _, (hinner n (by simp [parts])).whole _⟩
  -- a tuple
  · rename_i ns
    have hvalues : AllWritable (valuesOf ns) := hvalues (.group _ ns) (.head _)
    split
    · exact writable_text _
    · simpa using hvalues
  -- raw tokens
  · exact absurd rfl hf
  -- the initial value of a variable
  · rename_i init _
    have hinit := hrows init (by simp)
    split
    · rename_i heq
      simp_all
    · rename_i heq
      simp_all
    · exact writable_nil
  -- a name with a pattern
  · rename_i sub
    have hsub := hrows sub (by simp)
    split
    · rename_i heq
      simp_all
    · exact writable_nil

theorem laidOut_form {f : Form} {ns : List Node} (hf : f ≠ .verbatim)
    (hns : ∀ n ∈ ns, LaidOut n) : LaidOut (.form f ns) := by
  have htail : ∀ place, AllWritable (tailValue place (.form f ns)).toList := by
    intro place
    unfold tailValue
    split
    · rename_i e semi heq
      obtain ⟨rfl, rfl⟩ := Node.form.inj heq
      split
      · simp [(hns e (.head _)).whole]
      · exact allWritable_nil
    · exact allWritable_nil
  have hrows : AllWritable (rowPieces (.form f ns)) := by
    unfold rowPieces
    split
    · rename_i heq
      obtain ⟨rfl, rfl⟩ := Node.form.inj heq
      exact writable_rowParts hns
    · exact allWritable_nil
  have helse : AllWritable (elsePieces (.form f ns)).toList := by
    unfold elsePieces
    split
    -- the parts of the `if` are two levels down
    · rename_i k c b e heq
      obtain ⟨rfl, rfl⟩ := Node.form.inj heq
      have hinner := (hns _ (.tail _ (.head _))).inner
      have hc := hinner c (by simp [parts])
      have hb := hinner b (by simp [parts])
      have he := hinner e (by simp [parts])
      have hrest := writable_getD he.otherwise writable_nil
      simp [hc.whole, hb.lines, hb.alone, hrest, writable_smallBlock]
    · rename_i l b heq
      obtain ⟨rfl, rfl⟩ := Node.form.inj heq
      have hb := (hns _ (.tail _ (.head _))).inner b (by simp [parts])
      simp [hb.lines, hb.alone, writable_smallBlock]
    · exact allWritable_nil
  have hor : AllWritable (orParts (.form f ns)) := by
    unfold orParts
    split
    · rename_i heq
      obtain ⟨rfl, rfl⟩ := Node.form.inj heq
      exact writable_orList hns
    · exact allWritable_nil
  exact ⟨⟨fun _ => writable_form hf hns, allWritable_nil, writable_nil, fun _ => allWritable_nil,
    htail, hrows, helse, hor⟩, fun m hm => (hns m hm).toLaid⟩

/-! ## Every phrase -/

mutual
theorem ty_writable : ∀ t : Ty, t.isParsed → Writable (tyPieces t)
  | .array e n, h => by
    simp only [Ty.isParsed, Bool.and_eq_true] at h
    simp [tyPieces, ty_writable e h.1, (node_laidOut n h.2).whole]
  | .fnPointer b _ abi ps _ v o, h => by
    simp only [Ty.isParsed, Bool.and_eq_true] at h
    obtain ⟨⟨⟨hb, hps⟩, hv⟩, ho⟩ := h
    have hparams := params_writable ps hps
    have heach : ∀ x ∈ paramPieces ps, Writable x := hparams
    have hfurther := writable_furtherPieces (nodes_laidOut v hv)
    obtain _ | _ | name := abi <;>
      simpa [tyPieces, binder_writable b hb, output_writable o ho, hparams, hfurther] using
        fun _ => heach
  | .implTrait bs _, h => by
    simp only [Ty.isParsed] at h
    simp [tyPieces, bounds_writable bs h]
  | .infer, _ => writable_text _
  | .never, _ => writable_text _
  | .invocation p n, _ => writable_invocation p n
  | .paren e, h => by
    simp only [Ty.isParsed] at h
    simp [tyPieces, ty_writable e h]
  | .path p, h => path_writable .type p h
  | .projection s n ⟨l, ss⟩, h => by
    simp only [Ty.isParsed, Path.isParsed, Bool.and_eq_true] at h
    exact writable_projection (ty_writable s h.1) (segments_writable .type ss h.2)
      (segments_writable .type ss h.2)
  | .pointer _ e, h => by
    simp only [Ty.isParsed] at h
    simp [tyPieces, ty_writable e h]
  | .reference l _ e, h => by
    simp only [Ty.isParsed] at h
    cases l <;> simp [tyPieces, ty_writable e h]
  | .slice e, h => by
    simp only [Ty.isParsed] at h
    simp [tyPieces, ty_writable e h]
  | .traitObject _ bs _, h => by
    simp only [Ty.isParsed] at h
    simp [tyPieces, bounds_writable bs h]
  | .tuple es _, h => by
    simp only [Ty.isParsed] at h
    simp [tyPieces, tys_writable es h]
  | .verbatim _, h => by simp [Ty.isParsed] at h
theorem path_writable (style : PathStyle) : ∀ p : Path, p.isParsed → Writable (pathPieces style p)
  | ⟨l, ss⟩, h => by
    simp only [Path.isParsed] at h
    simp [pathPieces, segments_writable style ss h]
theorem segment_writable (style : PathStyle) :
    ∀ s : Segment, s.isParsed → Writable (segmentPieces style s)
  | ⟨n, a⟩, h => by
    simp only [Segment.isParsed] at h
    simp [segmentPieces, args_writable style a h]
theorem args_writable (style : PathStyle) : ∀ a : Args, a.isParsed → Writable (argsPieces style a)
  | .none, _ => writable_nil
  | .angle _ as _, h => by
    simp only [Args.isParsed] at h
    simp [argsPieces, genericArgs_writable as h]
  | .paren ts _ o, h => by
    simp only [Args.isParsed, Bool.and_eq_true] at h
    simp [argsPieces, tys_writable ts h.1, output_writable o h.2]
theorem genericArg_writable : ∀ a : GenericArg, a.isParsed → Writable (genericArgPieces a)
  | .lifetime n, _ => writable_text n
  | .type t, h => ty_writable t h
  | .const n, h => by
    simp only [GenericArg.isParsed] at h
    have hn := (node_laidOut n h).whole .value
    unfold genericArgPieces
    split <;> simp_all
  | .assocType _ a t, h => by
    simp only [GenericArg.isParsed, Bool.and_eq_true] at h
    simp [genericArgPieces, args_writable .type a h.1, ty_writable t h.2]
  | .assocConst _ a n, h => by
    simp only [GenericArg.isParsed, Bool.and_eq_true] at h
    simp [genericArgPieces, args_writable .type a h.1, (node_laidOut n h.2).whole]
  | .constraint _ a bs _, h => by
    simp only [GenericArg.isParsed, Bool.and_eq_true] at h
    simp [genericArgPieces, args_writable .type a h.1, bounds_writable bs h.2]
theorem bound_writable : ∀ b : Bound, b.isParsed → Writable (boundPieces b)
  | .lifetime n, _ => writable_text n
  | .trait _ _ b p, h => by
    simp only [Bound.isParsed, Bool.and_eq_true] at h
    simp [boundPieces, binder_writable b h.1, path_writable .type p h.2]
  | .capture ps _, _ => by
    have hps : AllWritable (ps.map text) := by
      intro x hx
      obtain ⟨p, -, rfl⟩ := List.mem_map.1 hx
      exact writable_text p
    simp [boundPieces, hps]
  | .verbatim _, h => by simp [Bound.isParsed] at h
theorem genericParam_writable : ∀ p : GenericParam, p.isParsed → Writable (genericParamPieces p)
  | .lifetime as _ bs, h => by
    simp only [GenericParam.isParsed] at h
    have hbs : AllWritable (bs.map text) := by
      intro x hx
      obtain ⟨b, -, rfl⟩ := List.mem_map.1 hx
      exact writable_text b
    simp [genericParamPieces, writable_attrsPieces (nodes_laidOut as h), hbs]
  | .type as _ bs d, h => by
    simp only [GenericParam.isParsed, Bool.and_eq_true] at h
    simp [genericParamPieces, writable_attrsPieces (nodes_laidOut as h.1.1),
      bounds_writable bs h.1.2, defaultTy_writable d h.2]
  | .const as _ t d, h => by
    simp only [GenericParam.isParsed, Bool.and_eq_true] at h
    simp [genericParamPieces, writable_attrsPieces (nodes_laidOut as h.1.1), ty_writable t h.1.2,
      default_writable d h.2]
theorem node_laidOut : ∀ n : Node, n.isParsed → LaidOut n
  | .token t, _ => laidOut_of_whole (by simp) (by simp) fun place => by
    show Writable (finish place (.token t) (tokenPieces (.token t)))
    simp [writable_tokenPieces]
  | .group d ns, h => laidOut_group (nodes_laidOut ns h)
  | .type t, h => laidOut_of_whole (by simp) (by simp) fun _ => ty_writable t h
  | .path p, h => laidOut_of_whole (by simp) (by simp) fun place => by
    show Writable (finish place (.path p) (pathPieces .expr p))
    exact writable_finish.2 (path_writable .expr p h)
  | .projection s n ⟨l, ss⟩, h => laidOut_of_whole (by simp) (by simp) fun place => by
    simp only [Node.isParsed, Path.isParsed, Bool.and_eq_true] at h
    have hself := ty_writable s h.1
    show Writable (finish place (.projection s n ⟨l, ss⟩) (projectionPieces (tyPieces s) n l
      (segmentsPieces .type ss) (segmentsPieces .expr ss)))
    exact writable_finish.2 (writable_projection hself (segments_writable .type ss h.2)
      (segments_writable .expr ss h.2))
  | .args a, h => laidOut_of_whole (by simp) (by simp) fun _ => args_writable .expr a h
  | .binder ⟨ps, tr⟩, h => laidOut_of_whole (by simp) (by simp) fun place => by
    simp only [Node.isParsed, Binder.isParsed] at h
    have hps := genericParams_writable ps h
    show Writable (text "for<" ++ between ", " (genericParamsPieces ps) ++ text "> ")
    simp [hps]
  | .form f ns, h => by
    obtain ⟨hf, hns⟩ := Node.isParsed_form.1 h
    exact laidOut_form hf (nodes_laidOut ns hns)
theorem tys_writable : ∀ ts : List Ty, tysParsed ts → AllWritable (tysPieces ts)
  | [], _ => allWritable_nil
  | t :: ts, h => by
    simp only [tysParsed, Bool.and_eq_true] at h
    simp [tysPieces, ty_writable t h.1, tys_writable ts h.2]
theorem segments_writable (style : PathStyle) :
    ∀ ss : List Segment, segmentsParsed ss → AllWritable (segmentsPieces style ss)
  | [], _ => allWritable_nil
  | s :: ss, h => by
    simp only [segmentsParsed, Bool.and_eq_true] at h
    simp [segmentsPieces, segment_writable style s h.1, segments_writable style ss h.2]
theorem genericArgs_writable :
    ∀ as : List GenericArg, genericArgsParsed as → AllWritable (genericArgsPieces as)
  | [], _ => allWritable_nil
  | a :: as, h => by
    simp only [genericArgsParsed, Bool.and_eq_true] at h
    simp [genericArgsPieces, genericArg_writable a h.1, genericArgs_writable as h.2]
theorem bounds_writable : ∀ bs : List Bound, boundsParsed bs → AllWritable (boundsPieces bs)
  | [], _ => allWritable_nil
  | b :: bs, h => by
    simp only [boundsParsed, Bool.and_eq_true] at h
    simp [boundsPieces, bound_writable b h.1, bounds_writable bs h.2]
theorem genericParams_writable :
    ∀ ps : List GenericParam, genericParamsParsed ps → AllWritable (genericParamsPieces ps)
  | [], _ => allWritable_nil
  | p :: ps, h => by
    simp only [genericParamsParsed, Bool.and_eq_true] at h
    simp [genericParamsPieces, genericParam_writable p h.1, genericParams_writable ps h.2]
theorem params_writable :
    ∀ ps : List FnPointerParam, paramsParsed ps → AllWritable (paramPieces ps)
  | [], _ => allWritable_nil
  | ⟨as, n, t⟩ :: ps, h => by
    simp only [paramsParsed, FnPointerParam.isParsed, Bool.and_eq_true] at h
    cases n <;>
      simp [paramPieces, writable_attrsPieces (nodes_laidOut as h.1.1), ty_writable t h.1.2,
        params_writable ps h.2]
theorem nodes_laidOut : ∀ ns : List Node, nodesParsed ns → ∀ n ∈ ns, LaidOut n
  | [], _ => fun _ hn => absurd hn List.not_mem_nil
  | n :: ns, h => by
    simp only [nodesParsed, Bool.and_eq_true] at h
    exact List.forall_mem_cons.2 ⟨node_laidOut n h.1, nodes_laidOut ns h.2⟩
theorem binder_writable : ∀ b : Option Binder, binderParsed b → Writable (binderPieces b)
  | none, _ => writable_nil
  | some ⟨ps, _⟩, h => by
    simp only [binderParsed, Binder.isParsed] at h
    simp [binderPieces, genericParams_writable ps h]
theorem output_writable : ∀ o : Option Ty, outputParsed o → Writable (outputPieces o)
  | none, _ => writable_nil
  | some t, h => by
    simp only [outputParsed] at h
    simp [outputPieces, ty_writable t h]
theorem defaultTy_writable : ∀ o : Option Ty, outputParsed o → Writable (defaultTyPieces o)
  | none, _ => writable_nil
  | some t, h => by
    simp only [outputParsed] at h
    simp [defaultTyPieces, ty_writable t h]
theorem default_writable : ∀ o : Option Node, defaultParsed o → Writable (defaultPieces o)
  | none, _ => writable_nil
  | some n, h => by
    simp only [defaultParsed] at h
    simp [defaultPieces, (node_laidOut n h).whole]
end

end Layout

end WrapperGen
