/-!
Classes of characters given as ranges of code points.

* `CodeTable`: ranges in the order of their code points;
* `CodeTable.contains`: membership in a table, which is searched no further than the code point;
* `CodeTable.contains_iff`: a character is in a table exactly when one of the ranges holds its code point.
-/

namespace Concerto.Text

/-- A first and a last code point, both of them in the range. -/
abbrev CodeRange := Nat × Nat

/-- The ranges are in the order of their first code points. -/
def inOrder : List CodeRange → Bool
  | r :: r' :: ranges => r.1 ≤ r'.1 && inOrder (r' :: ranges)
  | _ => true

/-- The search of the ranges for the code point of a character ends at the first one that begins
after it. -/
def inRanges : List CodeRange → Char → Bool
  | [], _ => false
  | r :: ranges, c => r.1 ≤ c.toNat && (c.toNat ≤ r.2 || inRanges ranges c)

/-- Ranges in the order of their first code points. -/
structure CodeTable where
  ranges : List CodeRange
  ordered : inOrder ranges = true

/-- A character belongs to a table when one of its ranges holds the code point. -/
def CodeTable.contains (table : CodeTable) (c : Char) : Bool := inRanges table.ranges c

/-- The first range begins before all others. -/
theorem le_of_inOrder {r : CodeRange} {ranges : List CodeRange} (h : inOrder (r :: ranges) = true) :
    ∀ r' ∈ ranges, r.1 ≤ r'.1 := by
  induction ranges generalizing r with
  | nil => simp
  | cons r₁ ranges ih =>
    simp only [inOrder, Bool.and_eq_true, decide_eq_true_eq] at h
    intro r' hr'
    rcases List.mem_cons.mp hr' with rfl | hr'
    · exact h.1
    · exact Nat.le_trans h.1 (ih h.2 r' hr')

theorem inOrder_tail {r : CodeRange} {ranges : List CodeRange} (h : inOrder (r :: ranges) = true) :
    inOrder ranges = true := by
  cases ranges with
  | nil => rfl
  | cons r' ranges =>
    simp only [inOrder, Bool.and_eq_true] at h
    exact h.2

theorem inRanges_iff {ranges : List CodeRange} (h : inOrder ranges = true) {c : Char} :
    inRanges ranges c = true ↔ ∃ r ∈ ranges, r.1 ≤ c.toNat ∧ c.toNat ≤ r.2 := by
  induction ranges with
  | nil => simp [inRanges]
  | cons r ranges ih =>
    simp only [inRanges, Bool.and_eq_true, Bool.or_eq_true, decide_eq_true_eq, ih (inOrder_tail h),
      List.mem_cons, or_and_right, exists_or, exists_eq_left]
    constructor
    · rintro ⟨hlow, hhigh | hothers⟩
      · exact .inl ⟨hlow, hhigh⟩
      · exact .inr hothers
    · rintro (⟨hlow, hhigh⟩ | ⟨r', hr', hlow, hhigh⟩)
      · exact ⟨hlow, .inl hhigh⟩
      · -- a range further on begins no earlier, so the search gets to it
        exact ⟨Nat.le_trans (le_of_inOrder h r' hr') hlow, .inr ⟨r', hr', hlow, hhigh⟩⟩

theorem CodeTable.contains_iff {table : CodeTable} {c : Char} :
    table.contains c = true ↔ ∃ r ∈ table.ranges, r.1 ≤ c.toNat ∧ c.toNat ≤ r.2 :=
  inRanges_iff table.ordered

end Concerto.Text
