/-! Sets of characters, written as ranges of code points. -/
namespace AttackSurface.Text

/-- Ranges of code points, both ends included. -/
abbrev CharRanges := List (Nat × Nat)

def CharRanges.contains (ranges : CharRanges) (c : Char) : Bool :=
  ranges.any fun range => range.1 ≤ c.toNat && c.toNat ≤ range.2

theorem CharRanges.contains_iff {ranges : CharRanges} {c : Char} :
    ranges.contains c ↔ ∃ range ∈ ranges, range.1 ≤ c.toNat ∧ c.toNat ≤ range.2 := by
  simp [CharRanges.contains]

end AttackSurface.Text
