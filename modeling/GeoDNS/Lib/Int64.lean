import Mathlib.Algebra.Order.BigOperators.Group.List
import Mathlib.Algebra.Order.Ring.Int
import Mathlib.Data.Int.Order.Lemmas

/-!
# Sums of 64-bit integers

Addition of 64-bit integers wraps around, which makes them a commutative group: a sum does not depend on
the order of its parts, whatever overflows on the way. What it stands for is the exact sum as long as
that is in range (`toInt_sum_of_fits`).
-/

namespace GeoDNS.Lib

/-- Addition wraps around. -/
instance int64AddCommGroup : AddCommGroup Int64 where
  add_assoc := Int64.add_assoc
  zero_add := Int64.zero_add
  add_zero := Int64.add_zero
  neg_add_cancel := Int64.add_left_neg
  add_comm := Int64.add_comm
  sub_eq_add_neg := Int64.sub_eq_add_neg
  nsmul := nsmulRec
  zsmul := zsmulRec

/-- An integer in range is kept as it is. -/
lemma bmod_eq_self {n : Int} (low : -2 ^ 63 ≤ n) (high : n < 2 ^ 63) : n.bmod (2 ^ 64) = n := by
  rw [Int.bmod_eq_of_le] <;> omega

/-- An addition that does not overflow. -/
lemma toInt_add_of_fits {a b : Int64} (low : -2 ^ 63 ≤ a.toInt + b.toInt)
    (high : a.toInt + b.toInt < 2 ^ 63) : (a + b).toInt = a.toInt + b.toInt := by
  rw [Int64.toInt_add, bmod_eq_self low high]

/-- A 64-bit integer is non-negative if it stands for a non-negative number. -/
lemma nonneg_iff_toInt {a : Int64} : 0 ≤ a ↔ 0 ≤ a.toInt := by
  rw [Int64.le_iff_toInt_le, Int64.toInt_zero]

/-- A 64-bit integer is positive if it stands for a positive number. -/
lemma pos_iff_toInt {a : Int64} : 0 < a ↔ 0 < a.toInt := by
  rw [Int64.lt_iff_toInt_lt, Int64.toInt_zero]

/-- A 64-bit integer is zero if it stands for zero. -/
lemma eq_zero_iff_toInt {a : Int64} : a = 0 ↔ a.toInt = 0 := by
  rw [← Int64.toInt_inj, Int64.toInt_zero]

/-- An integer in range, as a 64-bit one. -/
lemma toInt_ofInt_of_fits {n : Int} (low : -2 ^ 63 ≤ n) (high : n < 2 ^ 63) :
    (Int64.ofInt n).toInt = n := by
  rw [Int64.toInt_ofInt]
  exact bmod_eq_self low high

/-- The exact sum of 64-bit integers. -/
def exactSum (l : List Int64) : Int :=
  (l.map Int64.toInt).sum

/-- The exact sum of their absolute values. -/
def absSum (l : List Int64) : Int :=
  (l.map (fun a => |a.toInt|)).sum

/-- The exact sum of nothing is zero. -/
@[simp] lemma exactSum_nil : exactSum [] = 0 := rfl

/-- The absolute values of nothing sum up to zero. -/
@[simp] lemma absSum_nil : absSum [] = 0 := rfl

/-- The exact sum with one more number. -/
@[simp] lemma exactSum_cons (a : Int64) (l : List Int64) : exactSum (a :: l) = a.toInt + exactSum l := by
  simp [exactSum]

/-- The sum of absolute values with one more number. -/
@[simp] lemma absSum_cons (a : Int64) (l : List Int64) : absSum (a :: l) = |a.toInt| + absSum l := by
  simp [absSum]

/-- The exact sum of a list in any order. -/
lemma exactSum_perm {l l' : List Int64} (perm : l.Perm l') : exactSum l = exactSum l' :=
  (perm.map _).sum_eq

/-- The sum of the absolute values of a list in any order. -/
lemma absSum_perm {l l' : List Int64} (perm : l.Perm l') : absSum l = absSum l' :=
  (perm.map _).sum_eq

/-- The sum of absolute values is not negative. -/
lemma absSum_nonneg (l : List Int64) : 0 ≤ absSum l := by
  apply List.sum_nonneg
  intro x hx
  obtain ⟨a, _, rfl⟩ := List.mem_map.mp hx
  exact abs_nonneg _

/-- The absolute values of some of the integers do not sum up to more. -/
lemma absSum_le_of_sublist {l l' : List Int64} (sub : l.Sublist l') : absSum l ≤ absSum l' := by
  apply (sub.map _).sum_le_sum
  intro x hx
  obtain ⟨a, _, rfl⟩ := List.mem_map.mp hx
  exact abs_nonneg _

/-- The exact sum is bounded by that of the absolute values. -/
lemma abs_exactSum_le (l : List Int64) : |exactSum l| ≤ absSum l := by
  induction l with
  | nil => simp
  | cons a l ih =>
    rw [exactSum_cons, absSum_cons]
    exact (abs_add_le _ _).trans (by omega)

/-- The sum of non-negative integers is that of their absolute values. -/
lemma absSum_eq_exactSum {l : List Int64} (nonneg : ∀ a ∈ l, 0 ≤ a) : absSum l = exactSum l := by
  refine congrArg List.sum (List.map_congr_left (fun a ha => ?_))
  exact abs_of_nonneg (nonneg_iff_toInt.mp (nonneg a ha))

/-- A sum stands for the exact one, up to a multiple of 2^64. -/
lemma toInt_sum (l : List Int64) : l.sum.toInt = (exactSum l).bmod (2 ^ 64) := by
  induction l with
  | nil => rfl
  | cons a l ih =>
    rw [List.sum_cons, Int64.toInt_add, ih, exactSum_cons, Int.add_bmod_bmod]

/-- A sum that does not overflow, as no sum does of integers whose absolute values have a sum in range. -/
lemma toInt_sum_of_fits {l : List Int64} (fits : absSum l < 2 ^ 63) : l.sum.toInt = exactSum l := by
  have bound := abs_le.mp (abs_exactSum_le l)
  rw [toInt_sum, bmod_eq_self (by omega) (by omega)]

end GeoDNS.Lib
