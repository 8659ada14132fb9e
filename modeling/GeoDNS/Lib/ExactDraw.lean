import GeoDNS.Lib.Draw
import Mathlib.Algebra.Order.BigOperators.Group.List
import Mathlib.Algebra.Order.Ring.Int

/-!
# Weighted draws with exact sums

The draws of `Draw.lean` with integers for weights. `draw_fills` says that all slots are filled if the
weights are non-negative, the caller's sum is their total, and there are enough elements. For weights of
any sign in descending order the condition is that of `draw_safe_iff`.
-/

namespace GeoDNS.Lib.Exact

/-- The `k`-th random number below `n`. -/
def intn (draws : Nat → Nat) (k : Nat) (n : Int) : Res Int :=
  if n ≤ 0 then .panic (.explicit "invalid argument to Intn") else .ok (draws k % n.toNat : Nat)

/-- A number that is drawn is up to the sum. -/
lemma intn_le {draws : Nat → Nat} {k : Nat} {sum n : Int} (h : intn draws k (sum + 1) = .ok n) :
    0 ≤ n ∧ n ≤ sum := by
  unfold intn at h
  split at h
  · cases h
  · cases h
    have lt : draws k % (sum + 1).toNat < (sum + 1).toNat := Nat.mod_lt _ (by omega)
    omega

/-- A number is drawn if the sum is not negative. -/
lemma intn_returns {sum : Int} (draws : Nat → Nat) (k : Nat) (nonneg : 0 ≤ sum) :
    ∃ n, intn draws k (sum + 1) = .ok n :=
  ⟨_, if_neg (by omega)⟩

section
variable {α : Type} {weight : α → Int}

variable {draws : Nat → Nat} {slots k k' : Nat} {sum : Int} {l : List α} {xs : List (Option α)}

/-- With non-negative weights that sum up to `sum`, and enough elements, every slot is filled, with
    different elements of the list. -/
theorem draw_fills (draws : Nat → Nat) (nonneg : ∀ a ∈ l, 0 ≤ weight a) (hsum : sum = (l.map weight).sum)
    (enough : slots ≤ l.length) (k : Nat) :
    ∃ (ys : List α) (k' : Nat), draw weight (intn draws) slots k sum l = .ok (ys.map some, k') ∧
      ys.Subperm l := by
  obtain ⟨xs, k', h⟩ : ∃ xs k', draw weight (intn draws) slots k sum l = .ok (xs, k') := by
    induction slots generalizing k sum l with
    | zero => exact ⟨[], k, rfl⟩
    | succ slots ih =>
      have tallied : Tallied weight ⟨slots + 1, k, sum, l⟩ := ⟨hsum, enough⟩
      have pos : 0 ≤ sum := by
        rw [hsum]
        apply List.sum_nonneg
        intro x hx
        obtain ⟨a, ha, rfl⟩ := List.mem_map.mp hx
        exact nonneg a ha
      obtain ⟨n, hn⟩ := intn_returns draws k pos
      obtain ⟨a, l', step, ht⟩ := tallied.turn hn (intn_le hn).2
      have nonneg' : ∀ b ∈ l', 0 ≤ weight b :=
        fun b hb => nonneg b ((takeAt_perm ht).mem_iff.mpr (List.mem_cons_of_mem _ hb))
      obtain ⟨hsum', enough'⟩ := tallied.step step
      obtain ⟨ys, k', h⟩ := ih nonneg' hsum' enough' (k + 1)
      exact ⟨some a :: ys, k', by rw [step.draw_eq, h, Res.map_ok]⟩
  obtain ⟨ys, rfl, sub⟩ := draw_filled (fun h => (intn_le h).2) ⟨hsum, enough⟩ h
  exact ⟨ys, k', h, sub⟩

/-! ## Descending weights -/

/-- Elements in descending order of their weights. -/
def Descending (weight : α → Int) (l : List α) : Prop :=
  l.Pairwise (fun a b => weight b ≤ weight a)

/-- What is left when one is taken out is still in descending order. -/
lemma Descending.of_takeAt {n s : Int} {l' : List α} {a : α} (desc : Descending weight l)
    (h : takeAt weight n s l = some (a, l')) : Descending weight l' := by
  obtain ⟨pre, post, rfl, rfl⟩ := takeAt_split h
  exact desc.sublist (List.Sublist.append_left (List.sublist_cons_self a post) pre)

/-- A number above the sum so far finds an element that weighs something. -/
lemma takeAt_weight_pos {n s : Int} {l' : List α} {a : α} (lt : s < n)
    (h : takeAt weight n s l = some (a, l')) : 0 < weight a := by
  induction l generalizing s l' with
  | nil => cases h
  | cons b l ih =>
    unfold takeAt at h
    split at h
    · cases h
      omega
    · obtain ⟨⟨c, l''⟩, hc, e⟩ := Option.map_eq_some_iff.mp h
      cases e
      exact ih (by omega) hc

/-- An element without weight is taken only when there are no others. -/
lemma takeAt_zero {n : Int} {l' : List α} {a : α} (hn : 0 ≤ n) (desc : Descending weight l)
    (nonneg : ∀ b ∈ l, 0 ≤ weight b) (h : takeAt weight n 0 l = some (a, l')) (zero : weight a = 0) :
    ∀ b ∈ l, weight b = 0 := by
  by_cases none : n = 0
  · subst none
    cases l with
    | nil => cases h
    | cons c l =>
      have first := nonneg c List.mem_cons_self
      rw [takeAt, if_pos (by omega)] at h
      cases h
      intro b hb
      rcases List.mem_cons.mp hb with rfl | hb
      · exact zero
      · have le := (List.pairwise_cons.mp desc).1 b hb
        have ge := nonneg b (List.mem_cons_of_mem _ hb)
        omega
  · have pos := takeAt_weight_pos (by omega) h
    omega

/-- If an element without weight is drawn, then so are all elements with weight. -/
theorem draw_zero_last (desc : Descending weight l) (nonneg : ∀ b ∈ l, 0 ≤ weight b)
    (h : draw weight (intn draws) slots k sum l = .ok (xs, k')) {a : α} (ha : some a ∈ xs)
    (zero : weight a = 0) : ∀ b ∈ l, 0 < weight b → some b ∈ xs := by
  induction slots generalizing k sum l xs with
  | zero =>
    cases h
    cases ha
  | succ slots ih =>
    obtain ⟨x, ys, k1, sum', l', step, rfl, rest⟩ := draw_turns h
    intro b hb pos
    cases step with
    | missed hn ht =>
      rcases List.mem_cons.mp ha with e | ha
      · cases e
      · exact List.mem_cons_of_mem _ (ih desc nonneg rest ha b hb pos)
    | taken hn ht =>
      have perm := takeAt_perm ht
      rcases List.mem_cons.mp ha with e | ha
      · cases e
        have none := takeAt_zero (intn_le hn).1 desc nonneg ht zero b hb
        omega
      · rcases List.mem_cons.mp (perm.mem_iff.mp hb) with rfl | hb
        · exact List.mem_cons_self
        · have nonneg' : ∀ d ∈ l', 0 ≤ weight d :=
            fun d hd => nonneg d (perm.mem_iff.mpr (List.mem_cons_of_mem _ hd))
          exact List.mem_cons_of_mem _ (ih (desc.of_takeAt ht) nonneg' rest ha b hb pos)

/-! ## Arbitrary weights

A weight may be negative, and then the sum that is left can be as well, which the next draw does not
survive. The heaviest elements are drawn first if all numbers are 0, so that this is the worst case. -/

/-- The heaviest of elements that do not weigh less than nothing does not either. -/
lemma Descending.head_nonneg {a : α} (desc : Descending weight (a :: l))
    (h : 0 ≤ ((a :: l).map weight).sum) : 0 ≤ weight a := by
  by_contra neg
  have below : ∀ x ∈ l.map weight, x ≤ 0 := by
    intro x hx
    obtain ⟨b, hb, rfl⟩ := List.mem_map.mp hx
    have le := (List.pairwise_cons.mp desc).1 b hb
    omega
  have rest := List.sum_le_card_nsmul _ _ below
  rw [List.map_cons, List.sum_cons] at h
  rw [nsmul_zero] at rest
  omega

/-- If a tail does not weigh less than nothing, the whole does not either. -/
lemma Descending.sum_nonneg {j : Nat} (desc : Descending weight l) (lt : j < l.length)
    (h : 0 ≤ ((l.drop j).map weight).sum) : 0 ≤ (l.map weight).sum := by
  induction l generalizing j with
  | nil => cases lt
  | cons a l ih =>
    cases j with
    | zero => exact h
    | succ j =>
      have lt : j < l.length := Nat.lt_of_succ_lt_succ lt
      obtain ⟨le, desc⟩ := List.pairwise_cons.mp desc
      have rest := ih desc lt h
      cases l with
      | nil => cases lt
      | cons b l =>
        have first := Descending.head_nonneg desc rest
        have above := le b List.mem_cons_self
        rw [List.map_cons, List.sum_cons]
        omega

/-- The draws of zeros: each takes the heaviest element that is left. -/
lemma draw_zeros (desc : Descending weight l) (hsum : sum = (l.map weight).sum)
    (enough : slots ≤ l.length) (h : draw weight (intn (fun _ => 0)) slots k sum l = .ok (xs, k')) :
    slots = 0 ∨ 0 ≤ ((l.drop (slots - 1)).map weight).sum := by
  induction slots generalizing k k' sum l xs with
  | zero => exact .inl rfl
  | succ slots ih =>
    obtain ⟨n, hn, h⟩ := Res.bind_eq_ok.mp h
    have pos : 0 ≤ sum := (intn_le hn).1.trans (intn_le hn).2
    cases l with
    | nil => cases enough
    | cons a l =>
      have first : 0 ≤ weight a := desc.head_nonneg (hsum ▸ pos)
      have zero : n = 0 := by
        rw [intn, if_neg (by omega)] at hn
        cases hn
        simp
      subst zero
      have taken : takeAt weight 0 0 (a :: l) = some (a, l) := by
        rw [takeAt, if_pos (by omega)]
      rw [taken] at h
      obtain ⟨⟨rest, k1⟩, hrest, _⟩ := Res.bind_eq_ok.mp h
      have total : sum - weight a = (l.map weight).sum := by
        rw [hsum, List.map_cons, List.sum_cons]
        omega
      rcases ih (List.pairwise_cons.mp desc).2 total (Nat.le_of_succ_le_succ enough) hrest with rfl | le
      · exact .inr (hsum ▸ pos)
      · refine .inr ?_
        cases slots with
        | zero => exact hsum ▸ pos
        | succ slots => exact le

/-- Taking out an element leaves at least as much behind the heaviest ones. -/
lemma Descending.sum_drop_le {a : α} {pre post : List α} (desc : Descending weight (pre ++ a :: post))
    (j : Nat) : (((pre ++ a :: post).drop (j + 1)).map weight).sum ≤
      (((pre ++ post).drop j).map weight).sum := by
  induction pre generalizing j with
  | nil => exact le_refl _
  | cons c pre ih =>
    obtain ⟨le, desc⟩ := List.pairwise_cons.mp desc
    cases j with
    | zero =>
      have above := le a (List.mem_append_right pre List.mem_cons_self)
      simp only [List.cons_append, List.drop_succ_cons, List.drop_zero, List.map_cons, List.map_append,
        List.sum_cons, List.sum_append]
      omega
    | succ j => exact ih desc j

/-- With enough weight behind the heaviest elements, the slots are filled whatever is drawn. -/
lemma draw_safe (draws : Nat → Nat) (desc : Descending weight l) (hsum : sum = (l.map weight).sum)
    (enough : slots ≤ l.length) (heavy : slots = 0 ∨ 0 ≤ ((l.drop (slots - 1)).map weight).sum)
    (k : Nat) :
    ∃ (ys : List α) (k' : Nat), draw weight (intn draws) slots k sum l = .ok (ys.map some, k') := by
  induction slots generalizing k sum l with
  | zero => exact ⟨[], k, rfl⟩
  | succ slots ih =>
    have heavy : 0 ≤ ((l.drop slots).map weight).sum := heavy.resolve_left (Nat.succ_ne_zero slots)
    have pos : 0 ≤ sum := hsum ▸ desc.sum_nonneg enough heavy
    have tallied : Tallied weight ⟨slots + 1, k, sum, l⟩ := ⟨hsum, enough⟩
    obtain ⟨n, hn⟩ := intn_returns draws k pos
    obtain ⟨a, l', step, ht⟩ := tallied.turn hn (intn_le hn).2
    obtain ⟨total, enough'⟩ := tallied.step step
    have heavy' : slots = 0 ∨ 0 ≤ ((l'.drop (slots - 1)).map weight).sum := by
      obtain ⟨pre, post, rfl, rfl⟩ := takeAt_split ht
      cases slots with
      | zero => exact .inl rfl
      | succ slots => exact .inr (heavy.trans (desc.sum_drop_le slots))
    obtain ⟨ys, k', h⟩ := ih (desc.of_takeAt ht) total enough' heavy' (k + 1)
    exact ⟨a :: ys, k', by rw [step.draw_eq, h, Res.map_ok, List.map_cons]⟩

/-- The slots are filled for all random numbers if and only if the weights without those of the heaviest
    elements, one less than there are slots, have a non-negative sum. -/
theorem draw_safe_iff (desc : Descending weight l) (hsum : sum = (l.map weight).sum)
    (enough : slots ≤ l.length) (k : Nat) :
    (∀ draws : Nat → Nat, ∃ (ys : List α) (k' : Nat),
      draw weight (intn draws) slots k sum l = .ok (ys.map some, k')) ↔
      slots = 0 ∨ 0 ≤ ((l.drop (slots - 1)).map weight).sum := by
  constructor
  · intro all
    obtain ⟨ys, k', h⟩ := all (fun _ => 0)
    exact draw_zeros desc hsum enough h
  · exact fun heavy draws => draw_safe draws desc hsum enough heavy k

end
end GeoDNS.Lib.Exact
