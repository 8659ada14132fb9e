import GeoDNS.Lib.ExactDraw
import GeoDNS.Lib.Int64
import Mathlib.Order.Interval.Finset.Nat

/-!
# Weighted draws with 64-bit sums

The draws of `Draw.lean` with 64-bit integers for weights, whose sums may overflow. A turn does not survive
a sum that is negative, and neither one that is the largest 64-bit integer, since it asks for a number
below the sum and one.

`draws_iff` says exactly when the slots are filled whatever numbers are drawn: no sum that can be left is
one of these (`Drawable`). As long as the absolute values of the weights sum up to less than the largest
64-bit integer, the draw is the one with exact sums (`draw_toInt`), and what holds of that one holds here.
How many numbers select an element is said by its share of the partial sums (`card_selecting_eq_share`).
-/

namespace GeoDNS.Lib.Machine

/-- The `k`-th random number below `n` (Go `rand.Intn`, which panics for `n ≤ 0`). -/
def intn (draws : Nat → Nat) (k : Nat) (n : Int64) : Res Int64 :=
  if n ≤ 0 then .panic (.explicit "invalid argument to Intn")
  else .ok (Int64.ofNat (draws k % n.toNatClampNeg))

/-- A sum that a number can be drawn up to. -/
def Drawn (sum : Int64) : Prop :=
  0 ≤ sum ∧ sum ≠ Int64.maxValue

instance (sum : Int64) : Decidable (Drawn sum) :=
  inferInstanceAs (Decidable (_ ∧ _))

/-- Such a sum is one that can be counted one further. -/
lemma drawn_iff {sum : Int64} : Drawn sum ↔ 0 ≤ sum.toInt ∧ sum.toInt < 2 ^ 63 - 1 := by
  have top : sum.toInt < 2 ^ 63 := sum.toInt_lt
  rw [Drawn, nonneg_iff_toInt, Ne, ← Int64.toInt_inj, Int64.toInt_maxValue]
  constructor
  · rintro ⟨nonneg, ne⟩
    exact ⟨nonneg, by omega⟩
  · rintro ⟨nonneg, lt⟩
    exact ⟨nonneg, by omega⟩

/-- Whether a number can be drawn up to a sum, and which ones. -/
lemma drawn_iff_pos {sum : Int64} : Drawn sum ↔ ¬ sum + 1 ≤ 0 := by
  have low : -2 ^ 63 ≤ sum.toInt := sum.le_toInt
  have high : sum.toInt < 2 ^ 63 := sum.toInt_lt
  rw [drawn_iff, Int64.le_iff_toInt_le, Int64.toInt_zero]
  by_cases top : sum.toInt = 2 ^ 63 - 1
  · -- the sum wraps around
    have wraps : (sum + 1).toInt = -2 ^ 63 := by
      rw [Int64.toInt_add, top]
      rfl
    rw [wraps]
    omega
  · have one : (1 : Int64).toInt = 1 := rfl
    rw [toInt_add_of_fits (by omega) (by omega), one]
    omega

/-- One more than a sum that a number can be drawn up to. -/
lemma Drawn.toInt_succ {sum : Int64} (drawn : Drawn sum) : (sum + 1).toInt = sum.toInt + 1 := by
  obtain ⟨nonneg, lt⟩ := drawn_iff.mp drawn
  have one : (1 : Int64).toInt = 1 := rfl
  rw [toInt_add_of_fits (by omega) (by omega), one]

/-- The numbers that are drawn up to a sum. -/
lemma intn_eq_ok {draws : Nat → Nat} {k : Nat} {sum n : Int64} :
    intn draws k (sum + 1) = .ok n ↔
      Drawn sum ∧ n.toInt = ((draws k % (sum.toInt + 1).toNat : Nat) : Int) := by
  unfold intn
  split
  case isTrue stop =>
    refine iff_of_false (fun h => by cases h) (fun h => ?_)
    exact drawn_iff_pos.mp h.1 stop
  case isFalse go =>
    have drawn := drawn_iff_pos.mpr go
    obtain ⟨nonneg, lt⟩ := drawn_iff.mp drawn
    have count : (sum + 1).toNatClampNeg = (sum.toInt + 1).toNat := by
      rw [Int64.toNatClampNeg, drawn.toInt_succ]
    have small : draws k % (sum.toInt + 1).toNat < (sum.toInt + 1).toNat := Nat.mod_lt _ (by omega)
    have value : (Int64.ofNat (draws k % (sum.toInt + 1).toNat)).toInt =
        ((draws k % (sum.toInt + 1).toNat : Nat) : Int) := Int64.toInt_ofNat_of_lt (by omega)
    rw [count]
    constructor
    · intro h
      cases h
      exact ⟨drawn, value⟩
    · rintro ⟨_, e⟩
      rw [Res.ok.injEq, ← Int64.toInt_inj, value, e]

/-- A number that is drawn is up to the sum. -/
lemma intn_le {draws : Nat → Nat} {k : Nat} {sum n : Int64} (h : intn draws k (sum + 1) = .ok n) :
    Drawn sum ∧ 0 ≤ n ∧ n ≤ sum := by
  obtain ⟨drawn, value⟩ := intn_eq_ok.mp h
  obtain ⟨nonneg, _⟩ := drawn_iff.mp drawn
  have small : draws k % (sum.toInt + 1).toNat < (sum.toInt + 1).toNat := Nat.mod_lt _ (by omega)
  refine ⟨drawn, ?_, ?_⟩
  · rw [nonneg_iff_toInt]
    omega
  · rw [Int64.le_iff_toInt_le]
    omega

/-- A number is drawn up to a sum in range. -/
lemma intn_returns {sum : Int64} (draws : Nat → Nat) (k : Nat) (drawn : Drawn sum) :
    ∃ n, intn draws k (sum + 1) = .ok n :=
  ⟨_, if_neg (drawn_iff_pos.mp drawn)⟩

/-- Every number up to a sum may be drawn. -/
lemma intn_of_le {sum n : Int64} {draws : Nat → Nat} {k : Nat} (drawn : Drawn sum) (nonneg : 0 ≤ n)
    (le : n ≤ sum) (value : draws k = n.toInt.toNat) : intn draws k (sum + 1) = .ok n := by
  rw [nonneg_iff_toInt] at nonneg
  rw [Int64.le_iff_toInt_le] at le
  refine intn_eq_ok.mpr ⟨drawn, ?_⟩
  rw [value, Nat.mod_eq_of_lt (by omega)]
  omega

section
variable {α : Type} {weight : α → Int64} {draws : Nat → Nat} {slots k k' : Nat} {sum : Int64}
variable {l : List α} {xs : List (Option α)}

/-! ## Which draws return -/

/-- The sum of the weights of these elements. -/
def total (weight : α → Int64) (l : List α) : Int64 :=
  (l.map weight).sum

/-- Whatever is drawn, a number can be drawn up to what is left. An element is drawn by some number if the
    partial sum up to it is not negative and above all those before, which have not reached the total. -/
def Drawable (weight : α → Int64) : Nat → List α → Prop
  | 0, _ => True
  | slots + 1, l => Drawn (total weight l) ∧ ∀ pre a post, l = pre ++ a :: post →
      0 ≤ total weight (pre ++ [a]) →
      (∀ p, p ≠ [] → p <+: pre →
        total weight p < total weight l ∧ total weight p < total weight (pre ++ [a])) →
      Drawable weight slots (pre ++ post)

/-- The elements that some number takes out. -/
lemma exists_takeAt_iff {l' : List α} {a : α} (nonneg : 0 ≤ total weight l) :
    (∃ n, 0 ≤ n ∧ n ≤ total weight l ∧ takeAt weight n 0 l = some (a, l')) ↔
      ∃ pre post, l = pre ++ a :: post ∧ l' = pre ++ post ∧ 0 ≤ total weight (pre ++ [a]) ∧
        ∀ p, p ≠ [] → p <+: pre →
          total weight p < total weight l ∧ total weight p < total weight (pre ++ [a]) := by
  constructor
  · rintro ⟨n, hn, le, h⟩
    obtain ⟨pre, post, e, e', reaches, before⟩ := takeAt_eq_some_iff.mp h
    rw [zero_add] at reaches
    refine ⟨pre, post, e, e', Int64.le_trans hn reaches, fun p ne sub => ?_⟩
    have lt : total weight p < n := by
      have first := before p ne sub
      rwa [zero_add, Int64.not_le] at first
    exact ⟨Int64.lt_of_lt_of_le lt le, Int64.lt_of_lt_of_le lt reaches⟩
  · rintro ⟨pre, post, e, e', nonneg', before⟩
    -- the largest number that may take it
    by_cases small : total weight (pre ++ [a]) ≤ total weight l
    · refine ⟨total weight (pre ++ [a]), nonneg', small, takeAt_eq_some_iff.mpr
        ⟨pre, post, e, e', ?_, fun p ne sub => ?_⟩⟩
      · rw [zero_add]
        exact Int64.le_refl _
      · rw [zero_add, Int64.not_le]
        exact (before p ne sub).2
    · refine ⟨total weight l, nonneg, Int64.le_refl _, takeAt_eq_some_iff.mpr
        ⟨pre, post, e, e', ?_, fun p ne sub => ?_⟩⟩
      · rw [zero_add]
        exact Int64.le_of_lt (Int64.not_le.mp small)
      · rw [zero_add, Int64.not_le]
        exact (before p ne sub).1

/-- The slots are filled for all random numbers if and only if no sum that may be left stops the draw. -/
theorem draws_iff (tallied : Tallied weight ⟨slots, k, sum, l⟩) :
    (∀ draws, ∃ (ys : List α) (k' : Nat), draw weight (intn draws) slots k sum l = .ok (ys.map some, k')) ↔
      Drawable weight slots l := by
  induction slots generalizing k sum l with
  | zero => exact iff_of_true (fun draws => ⟨[], k, rfl⟩) trivial
  | succ slots ih =>
    have hsum : sum = total weight l := tallied.sum
    constructor
    · intro all
      have drawn : Drawn (total weight l) := by
        obtain ⟨ys, k', h⟩ := all (fun _ => 0)
        obtain ⟨n, hn, _⟩ := Res.bind_eq_ok.mp h
        exact hsum ▸ (intn_le hn).1
      refine ⟨drawn, fun pre a post e nonneg before => ?_⟩
      obtain ⟨n, hn, le, ht⟩ := (exists_takeAt_iff drawn.1).mpr ⟨pre, post, e, rfl, nonneg, before⟩
      have step : ∀ draws : Nat → Nat, draws k = n.toInt.toNat → DrawStep weight (intn draws)
          ⟨slots + 1, k, sum, l⟩ (some a) ⟨slots, k + 1, sum - weight a, pre ++ post⟩ :=
        fun draws value => .taken (intn_of_le (hsum ▸ drawn) hn (hsum ▸ le) value) ht
      refine (ih (tallied.step (step (fun _ => n.toInt.toNat) rfl))).mp (fun draws => ?_)
      -- the number that takes `a` comes first, and then those that are given
      let draws' : Nat → Nat := Function.update draws k n.toInt.toNat
      obtain ⟨ys, k', h⟩ := all draws'
      rw [(step draws' (Function.update_self k _ draws)).draw_eq] at h
      obtain ⟨⟨zs, k1⟩, hrest, e⟩ := Res.map_eq_ok.mp h
      have same : ∀ i, k + 1 ≤ i → intn draws' i = intn draws i := by
        intro i hi
        funext m
        have value : draws' i = draws i := Function.update_of_ne (by omega) _ draws
        rw [intn, intn, value]
      rw [draw_congr same] at hrest
      obtain ⟨zs, rfl, _⟩ := draw_filled (fun h => (intn_le h).2.2)
        (tallied.step (step (fun _ => n.toInt.toNat) rfl)) hrest
      exact ⟨zs, k1, hrest⟩
    · rintro ⟨drawn, rest⟩ draws
      obtain ⟨n, hn⟩ := intn_returns draws k (hsum ▸ drawn : Drawn sum)
      obtain ⟨_, nonneg, le⟩ := intn_le hn
      obtain ⟨a, l', step, ht⟩ := tallied.turn hn le
      obtain ⟨pre, post, e, e', nonneg', before⟩ :=
        (exists_takeAt_iff drawn.1).mp ⟨n, nonneg, hsum ▸ le, ht⟩
      subst e'
      obtain ⟨ys, k', h⟩ := (ih (tallied.step step)).mpr (rest pre a post e nonneg' before) draws
      exact ⟨a :: ys, k', by rw [step.draw_eq, h, Res.map_ok, List.map_cons]⟩

/-! ## Sums in range -/

/-- Without overflow, a number takes out the element that it takes out with exact sums. -/
lemma takeAt_toInt {n s : Int64} (fits : |s.toInt| + absSum (l.map weight) < 2 ^ 63) :
    takeAt weight n s l = takeAt (fun a => (weight a).toInt) n.toInt s.toInt l := by
  induction l generalizing s with
  | nil => rfl
  | cons a l ih =>
    rw [List.map_cons, absSum_cons] at fits
    have rest := absSum_nonneg (l.map weight)
    have bound := abs_le.mp (abs_add_le s.toInt (weight a).toInt)
    have exact : (s + weight a).toInt = s.toInt + (weight a).toInt :=
      toInt_add_of_fits (by omega) (by omega)
    have fits' : |(s + weight a).toInt| + absSum (l.map weight) < 2 ^ 63 := by
      have triangle := abs_add_le s.toInt (weight a).toInt
      rw [exact]
      omega
    simp only [takeAt, Int64.le_iff_toInt_le, exact, ih fits']

/-- A number drawn up to a sum is the one that is drawn with exact sums. -/
lemma intn_toInt {draws : Nat → Nat} {k : Nat} (in_range : sum.toInt < 2 ^ 63 - 1) :
    Exact.intn draws k (sum.toInt + 1) = Int64.toInt <$> intn draws k (sum + 1) := by
  by_cases nonneg : 0 ≤ sum.toInt
  · obtain ⟨n, hn⟩ := intn_returns draws k (drawn_iff.mpr ⟨nonneg, in_range⟩)
    rw [hn, Res.map_ok, Exact.intn, if_neg (by omega), (intn_eq_ok.mp hn).2]
  · have stop : sum + 1 ≤ 0 := by
      by_contra go
      exact nonneg (drawn_iff.mp (drawn_iff_pos.mpr go)).1
    rw [Exact.intn, if_pos (by omega), intn, if_pos stop]
    rfl

/-- Without overflow, the draw is the one with exact sums. -/
theorem draw_toInt (fits : absSum (l.map weight) < 2 ^ 63 - 1) (hsum : sum = (l.map weight).sum) :
    draw weight (intn draws) slots k sum l =
      draw (fun a => (weight a).toInt) (Exact.intn draws) slots k sum.toInt l := by
  induction slots generalizing k sum l with
  | zero => rfl
  | succ slots ih =>
    have exact : sum.toInt = exactSum (l.map weight) := by
      rw [hsum]
      exact toInt_sum_of_fits (by omega)
    have bound := abs_le.mp (abs_exactSum_le (l.map weight))
    rw [draw, draw, intn_toInt (by omega)]
    cases intn draws k (sum + 1) with
    | panic p => rfl
    | diverge => rfl
    | ok n =>
      have zero : (0 : Int64).toInt = 0 := rfl
      rw [Res.map_ok, Res.ok_bind, Res.ok_bind, takeAt_toInt (by rw [zero, abs_zero]; omega), zero]
      cases ht : takeAt (fun a => (weight a).toInt) n.toInt 0 l with
      | none =>
        dsimp only
        rw [ih fits hsum]
      | some x =>
        obtain ⟨a, l'⟩ := x
        have perm := (takeAt_perm ht).map weight
        have fewer := absSum_perm perm
        rw [List.map_cons, absSum_cons] at fewer
        have nonneg := abs_nonneg (weight a).toInt
        have left : sum - weight a = (l'.map weight).sum := by
          rw [hsum, perm.sum_eq, List.map_cons, List.sum_cons, add_sub_cancel_left]
        have fits' : absSum (l'.map weight) < 2 ^ 63 - 1 := by omega
        have exact' : (sum - weight a).toInt = sum.toInt - (weight a).toInt := by
          rw [left, toInt_sum_of_fits (by omega), exact, exactSum_perm perm, List.map_cons, exactSum_cons]
          omega
        dsimp only
        rw [ih fits' left, exact']

/-- The exact sum of the weights, as the exact draw counts them. -/
lemma toInt_total (fits : absSum (l.map weight) < 2 ^ 63) :
    (total weight l).toInt = (l.map (fun a => (weight a).toInt)).sum := by
  rw [total, toInt_sum_of_fits fits, exactSum, List.map_map]
  rfl

/-- Non-negative weights whose sum is below the largest 64-bit integer: no sum overflows. -/
structure Moderate (weight : α → Int64) (l : List α) : Prop where
  nonneg : ∀ a ∈ l, 0 ≤ weight a
  fits : exactSum (l.map weight) < 2 ^ 63 - 1

/-- The absolute values of such weights are in range as well. -/
lemma Moderate.absSum_lt (moderate : Moderate weight l) : absSum (l.map weight) < 2 ^ 63 - 1 := by
  rw [absSum_eq_exactSum]
  · exact moderate.fits
  · intro w hw
    obtain ⟨a, ha, rfl⟩ := List.mem_map.mp hw
    exact moderate.nonneg a ha

/-- The weights as exact integers are not negative. -/
lemma Moderate.toInt_nonneg (moderate : Moderate weight l) : ∀ a ∈ l, 0 ≤ (weight a).toInt :=
  fun a ha => nonneg_iff_toInt.mp (moderate.nonneg a ha)

/-- The sum of moderate weights is the exact one. -/
lemma Moderate.toInt_total (moderate : Moderate weight l) :
    (total weight l).toInt = (l.map (fun a => (weight a).toInt)).sum :=
  Machine.toInt_total (by
    have lt := moderate.absSum_lt
    omega)

/-- Whether elements are moderate depends on their weights only. -/
lemma Moderate.of_map {β : Type} {weight' : β → Int64} {l' : List β} (moderate : Moderate weight l)
    (same : l'.map weight' = l.map weight) : Moderate weight' l' where
  nonneg b hb := by
    obtain ⟨a, ha, e⟩ := List.mem_map.mp (same ▸ List.mem_map_of_mem hb : weight' b ∈ l.map weight)
    exact e ▸ moderate.nonneg a ha
  fits := same ▸ moderate.fits

/-- Fewer elements are moderate as well. -/
lemma Moderate.sublist {l' : List α} (moderate : Moderate weight l) (sub : l'.Sublist l) :
    Moderate weight l' where
  nonneg a ha := moderate.nonneg a (sub.subset ha)
  fits := by
    have le := (le_abs_self _).trans (abs_exactSum_le (l'.map weight))
    have fewer := absSum_le_of_sublist (sub.map weight)
    have lt := moderate.absSum_lt
    omega

/-- Fewer elements do not weigh more. -/
lemma Moderate.total_le {l' : List α} (moderate : Moderate weight l) (sub : l'.Sublist l) :
    total weight l' ≤ total weight l := by
  rw [Int64.le_iff_toInt_le, moderate.toInt_total, (moderate.sublist sub).toInt_total]
  apply (sub.map _).sum_le_sum
  intro x hx
  obtain ⟨a, ha, rfl⟩ := List.mem_map.mp hx
  exact moderate.toInt_nonneg a ha

/-- Such weights do not weigh less than nothing, and a number can be drawn up to their sum. -/
lemma Moderate.drawn (moderate : Moderate weight l) : Drawn (total weight l) := by
  have lt := moderate.absSum_lt
  have exact : (total weight l).toInt = exactSum (l.map weight) := toInt_sum_of_fits (by omega)
  have same : absSum (l.map weight) = exactSum (l.map weight) :=
    absSum_eq_exactSum (by
      intro w hw
      obtain ⟨a, ha, rfl⟩ := List.mem_map.mp hw
      exact moderate.nonneg a ha)
  have nonneg := absSum_nonneg (l.map weight)
  rw [drawn_iff]
  omega

/-- With moderate weights, the right sum and enough elements, every slot is filled, with different
    elements of the list. -/
theorem draw_fills (draws : Nat → Nat) (moderate : Moderate weight l)
    (tallied : Tallied weight ⟨slots, k, sum, l⟩) :
    ∃ (ys : List α) (k' : Nat), draw weight (intn draws) slots k sum l = .ok (ys.map some, k') ∧
      ys.Subperm l := by
  have hsum : sum = total weight l := tallied.sum
  rw [draw_toInt moderate.absSum_lt tallied.sum]
  exact Exact.draw_fills draws moderate.toInt_nonneg (by rw [hsum, moderate.toInt_total]) tallied.enough k

/-- Elements in descending order of their weights. -/
def Descending (weight : α → Int64) (l : List α) : Prop :=
  l.Pairwise (fun a b => weight b ≤ weight a)

/-- The order of the weights is that of the exact integers. -/
lemma descending_toInt : Descending weight l ↔ Exact.Descending (fun a => (weight a).toInt) l :=
  ⟨List.Pairwise.imp Int64.le_iff_toInt_le.mp, List.Pairwise.imp Int64.le_iff_toInt_le.mpr⟩

/-- If an element without weight is drawn, then so are all elements with weight. -/
theorem draw_zero_last (desc : Descending weight l) (moderate : Moderate weight l)
    (hsum : sum = (l.map weight).sum) (h : draw weight (intn draws) slots k sum l = .ok (xs, k')) {a : α}
    (ha : some a ∈ xs) (zero : weight a = 0) : ∀ b ∈ l, 0 < weight b → some b ∈ xs := by
  rw [draw_toInt moderate.absSum_lt hsum] at h
  intro b hb pos
  exact Exact.draw_zero_last (descending_toInt.mp desc) moderate.toInt_nonneg h ha
    (eq_zero_iff_toInt.mp zero) b hb (pos_iff_toInt.mp pos)

/-- Without overflow and in descending order, the slots are filled whatever is drawn if and only if the
    weights without those of the heaviest elements, one less than there are slots, have a sum that is not
    negative. -/
theorem drawable_iff (desc : Descending weight l) (fits : absSum (l.map weight) < 2 ^ 63 - 1)
    (enough : slots ≤ l.length) :
    Drawable weight slots l ↔ slots = 0 ∨ 0 ≤ total weight (l.drop (slots - 1)) := by
  have tallied : Tallied weight ⟨slots, 0, total weight l, l⟩ := ⟨rfl, enough⟩
  have fewer : absSum ((l.drop (slots - 1)).map weight) ≤ absSum (l.map weight) :=
    absSum_le_of_sublist ((List.drop_sublist _ l).map weight)
  rw [← draws_iff tallied, nonneg_iff_toInt, toInt_total (by omega),
    ← Exact.draw_safe_iff (descending_toInt.mp desc) (toInt_total (by omega)) enough 0]
  refine forall_congr' (fun draws => ?_)
  rw [draw_toInt fits (rfl : total weight l = (l.map weight).sum)]

/-! ## How many numbers select an element -/

/-- The numbers up to the total weight that select this element in one turn. -/
def selecting [DecidableEq α] (weight : α → Int64) (l : List α) (a : α) : Finset Nat :=
  (Finset.range (total weight l + 1).toNatClampNeg).filter
    (fun n => (takeAt weight (Int64.ofNat n) 0 l).map Prod.fst = some a)

/-- The highest partial sum of these elements, counted from `s`. -/
def peak (weight : α → Int64) : Int64 → List α → Int
  | _, [] => -1
  | s, a :: l => max (s + weight a).toInt (peak weight (s + weight a) l)

/-- How many numbers up to the total are above all partial sums before an element and not above the one
    with it. There are none if no number can be drawn up to the total. -/
def share (weight : α → Int64) (pre : List α) (a : α) (post : List α) : Nat :=
  if Drawn (total weight (pre ++ a :: post)) then
    (min (total weight (pre ++ a :: post)).toInt (total weight (pre ++ [a])).toInt -
      peak weight 0 pre).toNat
  else 0

/-- The highest partial sum is taken to be -1 at least. -/
lemma neg_one_le_peak (weight : α → Int64) (s : Int64) (l : List α) : -1 ≤ peak weight s l := by
  induction l generalizing s with
  | nil => exact le_refl _
  | cons a l ih => exact (ih _).trans (le_max_right _ _)

/-- The highest partial sum of images. -/
lemma peak_map {β : Type} (f : β → α) (s : Int64) (l : List β) :
    peak weight s (l.map f) = peak (fun b => weight (f b)) s l := by
  induction l generalizing s with
  | nil => rfl
  | cons b l ih => rw [List.map_cons, peak, peak, ih]

/-- The share of an element of an image is that of the element it comes from. -/
lemma share_map {β : Type} (f : β → α) (pre : List β) (b : β) (post : List β) :
    share weight (pre.map f) (f b) (post.map f) = share (fun b => weight (f b)) pre b post := by
  have whole : total weight (pre.map f ++ f b :: post.map f) =
      total (fun b => weight (f b)) (pre ++ b :: post) := by
    simp [total, Function.comp_def]
  have part : total weight (pre.map f ++ [f b]) = total (fun b => weight (f b)) (pre ++ [b]) := by
    simp [total, Function.comp_def]
  rw [share, share, whole, part, peak_map]

/-- An element is selected by the numbers above all partial sums before it and not above the one with
    it. -/
lemma selects_iff {n s : Int64} {pre post : List α} {a : α} (nonneg : 0 ≤ n)
    (nodup : (pre ++ a :: post).Nodup) :
    (∃ l', takeAt weight n s (pre ++ a :: post) = some (a, l')) ↔
      peak weight s pre < n.toInt ∧ n ≤ s + total weight (pre ++ [a]) := by
  induction pre generalizing s with
  | nil =>
    have fresh : a ∉ post := (List.nodup_cons.mp nodup).1
    have low : peak weight s [] < n.toInt := by
      rw [nonneg_iff_toInt] at nonneg
      rw [peak]
      omega
    have own : total weight ([] ++ [a]) = weight a := by simp [total]
    rw [own, List.nil_append, takeAt]
    by_cases le : n ≤ s + weight a
    · rw [if_pos le]
      exact iff_of_true ⟨post, rfl⟩ ⟨low, le⟩
    · rw [if_neg le]
      refine iff_of_false ?_ (fun h => le h.2)
      rintro ⟨l', h⟩
      obtain ⟨⟨b, l''⟩, hb, e⟩ := Option.map_eq_some_iff.mp h
      cases e
      exact fresh ((takeAt_perm hb).symm.subset List.mem_cons_self)
  | cons b pre ih =>
    obtain ⟨fresh, nodup'⟩ := List.nodup_cons.mp nodup
    have ne : b ≠ a := by
      rintro rfl
      exact fresh (List.mem_append_right _ List.mem_cons_self)
    have sums : s + total weight (b :: pre ++ [a]) = s + weight b + total weight (pre ++ [a]) := by
      rw [List.cons_append, total, total, List.map_cons, List.sum_cons, add_assoc]
    rw [sums, List.cons_append, takeAt, peak, max_lt_iff]
    by_cases le : n ≤ s + weight b
    · rw [if_pos le]
      refine iff_of_false ?_ ?_
      · rintro ⟨l', h⟩
        cases h
        exact ne rfl
      · rintro ⟨⟨lt, _⟩, _⟩
        rw [Int64.le_iff_toInt_le] at le
        omega
    · rw [if_neg le]
      have lt : (s + weight b).toInt < n.toInt := by
        rwa [Int64.le_iff_toInt_le, not_le] at le
      constructor
      · rintro ⟨l', h⟩
        obtain ⟨⟨c, l''⟩, hc, e⟩ := Option.map_eq_some_iff.mp h
        cases e
        obtain ⟨above, reaches⟩ := (ih nodup').mp ⟨l'', hc⟩
        exact ⟨⟨lt, above⟩, reaches⟩
      · rintro ⟨⟨_, above⟩, reaches⟩
        obtain ⟨l'', hc⟩ := (ih nodup').mpr ⟨above, reaches⟩
        exact ⟨b :: l'', by rw [hc]; rfl⟩

/-- Whatever the weights are, an element is selected by as many numbers as its share. -/
theorem card_selecting_eq_share [DecidableEq α] {pre post : List α} {a : α}
    (nodup : (pre ++ a :: post).Nodup) :
    (selecting weight (pre ++ a :: post) a).card = share weight pre a post := by
  unfold selecting share
  split
  case isFalse stop =>
    -- no number is drawn at all
    rw [drawn_iff_pos, not_not, Int64.le_iff_toInt_le, Int64.toInt_zero] at stop
    rw [Int64.toNatClampNeg, Int.toNat_of_nonpos stop]
    rfl
  case isTrue drawn =>
    obtain ⟨nonneg, lt⟩ := drawn_iff.mp drawn
    have low := neg_one_le_peak weight 0 pre
    have all : (Finset.range (total weight (pre ++ a :: post) + 1).toNatClampNeg).filter
          (fun n => (takeAt weight (Int64.ofNat n) 0 (pre ++ a :: post)).map Prod.fst = some a) =
        Finset.Ico (peak weight 0 pre + 1).toNat
          (min (total weight (pre ++ a :: post)).toInt (total weight (pre ++ [a])).toInt + 1).toNat := by
      apply Finset.ext
      intro n
      have taken : (takeAt weight (Int64.ofNat n) 0 (pre ++ a :: post)).map Prod.fst = some a ↔
          ∃ l', takeAt weight (Int64.ofNat n) 0 (pre ++ a :: post) = some (a, l') := by
        simp
      rw [Finset.mem_filter, Finset.mem_range, Finset.mem_Ico, taken, Int64.toNatClampNeg,
        drawn.toInt_succ]
      by_cases below : n < 2 ^ 63
      · have value : (Int64.ofNat n).toInt = n := Int64.toInt_ofNat_of_lt below
        rw [selects_iff (by rw [nonneg_iff_toInt, value]; omega) nodup, zero_add,
          Int64.le_iff_toInt_le, value]
        omega
      · omega
    rw [all, Nat.card_Ico]
    omega

/-- The partial sums of weights that are not negative go up, so the highest one is the last. -/
lemma peak_eq {s : Int64} (start : 0 ≤ s) (nonneg : ∀ a ∈ l, 0 ≤ weight a)
    (fits : s.toInt + exactSum (l.map weight) < 2 ^ 63) :
    peak weight s l = if l = [] then -1 else s.toInt + exactSum (l.map weight) := by
  induction l generalizing s with
  | nil => rfl
  | cons a l ih =>
    have start' := nonneg_iff_toInt.mp start
    have own := nonneg_iff_toInt.mp (nonneg a List.mem_cons_self)
    have rest : 0 ≤ exactSum (l.map weight) := by
      rw [← absSum_eq_exactSum]
      · exact absSum_nonneg _
      · intro w hw
        obtain ⟨b, hb, rfl⟩ := List.mem_map.mp hw
        exact nonneg b (List.mem_cons_of_mem _ hb)
    rw [List.map_cons, exactSum_cons] at fits
    have exact : (s + weight a).toInt = s.toInt + (weight a).toInt :=
      toInt_add_of_fits (by omega) (by omega)
    rw [peak, ih (by rw [nonneg_iff_toInt]; omega) (fun b hb => nonneg b (List.mem_cons_of_mem _ hb))
      (by omega), if_neg (List.cons_ne_nil a l), exact, List.map_cons, exactSum_cons]
    split
    case isTrue e =>
      subst e
      rw [List.map_nil, exactSum_nil]
      omega
    case isFalse => omega

/-- With moderate weights, an element is selected by as many numbers as it weighs; the first one by one
    more, the number 0. -/
theorem card_selecting [DecidableEq α] {pre post : List α} {a : α}
    (moderate : Moderate weight (pre ++ a :: post)) (nodup : (pre ++ a :: post).Nodup) :
    ((selecting weight (pre ++ a :: post) a).card : Int) =
      (weight a).toInt + if pre = [] then 1 else 0 := by
  have upTo : (pre ++ [a]).Sublist (pre ++ a :: post) :=
    (List.Sublist.refl pre).append (List.singleton_sublist.mpr List.mem_cons_self)
  have before := moderate.sublist (List.sublist_append_left pre (a :: post))
  have le := Int64.le_iff_toInt_le.mp (moderate.total_le upTo)
  have own := moderate.toInt_nonneg a (List.mem_append_right _ List.mem_cons_self)
  have zero : (0 : Int64).toInt = 0 := rfl
  have part : (total weight (pre ++ [a])).toInt = exactSum (pre.map weight) + (weight a).toInt := by
    rw [(moderate.sublist upTo).toInt_total, exactSum, List.map_append, List.sum_append, List.map_map]
    simp [Function.comp_def]
  have nonneg : 0 ≤ exactSum (pre.map weight) := by
    have drawn := (drawn_iff.mp before.drawn).1
    rwa [before.toInt_total, ← Function.comp_def, ← List.map_map] at drawn
  have top := before.fits
  rw [card_selecting_eq_share nodup, share, if_pos moderate.drawn,
    min_eq_right le, peak_eq (Int64.le_refl 0) before.nonneg (by omega), zero, part]
  by_cases first : pre = []
  · rw [if_pos first, if_pos first]
    subst first
    rw [List.map_nil, exactSum_nil]
    omega
  · rw [if_neg first, if_neg first]
    omega

end
end GeoDNS.Lib.Machine
