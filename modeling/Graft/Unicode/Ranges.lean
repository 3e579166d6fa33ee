/-!
# Look-up in a table of code point ranges

A character property is given as a list of closed ranges in ascending order. The look-up walks the
list and stops at the first range that begins beyond the code point, so that code points near the
front of a table, ASCII among them, cost a few comparisons.
-/

namespace Graft.Unicode

/-- Whether a code point lies in one of the ascending closed ranges. -/
def inRanges : List (Nat × Nat) → Nat → Bool
  | [], _ => false
  | (first, last) :: higher, codePoint =>
      if codePoint < first then false
      else if codePoint ≤ last then true
      else inRanges higher codePoint

/-- A code point found in a table lies in one of the table's ranges. -/
theorem exists_range_of_inRanges {ranges : List (Nat × Nat)} {codePoint : Nat}
    (found : inRanges ranges codePoint) :
    ∃ range ∈ ranges, range.1 ≤ codePoint ∧ codePoint ≤ range.2 := by
  induction ranges with
  | nil => simp [inRanges] at found
  | cons range higher ih =>
      obtain ⟨first, last⟩ := range
      simp only [inRanges] at found
      split at found
      · simp at found
      · split at found
        · exact ⟨(first, last), by simp, by omega, by assumption⟩
        · obtain ⟨range, member, bounds⟩ := ih found
          exact ⟨range, by simp [member], bounds⟩

end Graft.Unicode
