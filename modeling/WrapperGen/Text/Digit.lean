/-!
# Digits

The values of digits up to `f`, in either case, and of numbers written in them.
-/

namespace WrapperGen.Text

def digitValue? (c : Char) : Option Nat :=
  if c.isDigit then some (c.toNat - '0'.toNat)
  else if 'a' ≤ c && c ≤ 'f' then some (c.toNat - 'a'.toNat + 10)
  else if 'A' ≤ c && c ≤ 'F' then some (c.toNat - 'A'.toNat + 10)
  else none

/-- The value of `c` in the base `base`, if it is one of its digits. -/
def digitIn? (base : Nat) (c : Char) : Option Nat := (digitValue? c).filter (· < base)

/-- The number that all of `cs` are the digits of; none at all make zero. -/
def number? (base : Nat) (cs : List Char) : Option Nat :=
  cs.foldlM (fun n c => (digitIn? base c).map (base * n + ·)) 0

theorem digitIn?_lt {base d : Nat} {c : Char} (h : digitIn? base c = some d) : d < base := by
  simpa using (Option.filter_eq_some_iff.1 h).2

@[simp] theorem number?_nil (base : Nat) : number? base [] = some 0 := rfl

end WrapperGen.Text
