/-!
# Sets of code points as ranges

A property of characters that a standard fixes by enumeration is stored as a
table of closed ranges of code points, which carries the proof that it ascends.
-/

namespace ApiManual.Text

/-- Ranges `(first, last)` that are nonempty, ascending and disjoint, none of
them starting below `bound`. -/
def ascendingFrom : Nat → List (Nat × Nat) → Bool
  | _, [] => true
  | bound, (first, last) :: rest =>
      bound ≤ first && first ≤ last && ascendingFrom (last + 1) rest

/-- Whether ascending ranges cover `code`. The search stops at the first range
that starts above `code`. -/
def coveredBy : List (Nat × Nat) → Nat → Bool
  | [], _ => false
  | (first, last) :: rest, code =>
      if code < first then false else code ≤ last || coveredBy rest code

structure CodeRanges where
  ranges : List (Nat × Nat)
  ascending : ascendingFrom 0 ranges = true

def CodeRanges.covers (table : CodeRanges) (code : Nat) : Bool :=
  coveredBy table.ranges code

theorem le_fst_of_ascendingFrom {bound : Nat} {ranges : List (Nat × Nat)}
    (ascending : ascendingFrom bound ranges = true) :
    ∀ range ∈ ranges, bound ≤ range.1 := by
  induction ranges generalizing bound with
  | nil => simp
  | cons range rest ih =>
      simp only [ascendingFrom, Bool.and_eq_true, decide_eq_true_eq] at ascending
      obtain ⟨⟨fromBound, nonempty⟩, later⟩ := ascending
      rw [List.forall_mem_cons]
      refine ⟨fromBound, fun other member => ?_⟩
      have := ih later other member
      omega

/-- Stopping early misses nothing, because the ranges ascend. -/
theorem coveredBy_iff {bound code : Nat} {ranges : List (Nat × Nat)}
    (ascending : ascendingFrom bound ranges = true) :
    coveredBy ranges code = true ↔ ∃ range ∈ ranges, range.1 ≤ code ∧ code ≤ range.2 := by
  induction ranges generalizing bound with
  | nil => simp [coveredBy]
  | cons range rest ih =>
      simp only [ascendingFrom, Bool.and_eq_true, decide_eq_true_eq] at ascending
      rw [coveredBy]
      split
      · next below =>
          -- What comes after the first range starts above `code` as well.
          have startsLater := le_fst_of_ascendingFrom ascending.2
          refine iff_of_false Bool.false_ne_true ?_
          rintro ⟨other, member, inside, -⟩
          rcases List.mem_cons.mp member with rfl | later
          · exact Nat.not_lt.mpr inside below
          · have := startsLater other later
            omega
      · next notBelow =>
          rw [Bool.or_eq_true, decide_eq_true_eq, ih ascending.2]
          simp [Nat.le_of_not_lt notBelow]

/-- A table covers the code points that lie in one of its ranges. -/
theorem CodeRanges.covers_iff {table : CodeRanges} {code : Nat} :
    table.covers code = true ↔ ∃ range ∈ table.ranges, range.1 ≤ code ∧ code ≤ range.2 :=
  coveredBy_iff table.ascending

end ApiManual.Text
