import GeoDNS.Lib.Res
import Mathlib.Algebra.BigOperators.Group.List.Basic
import Mathlib.Algebra.Group.Basic

/-!
# Weighted draws without replacement

A number up to the total weight selects the element in whose interval of partial sums it falls; the
element is taken out and the next number is drawn up to the remaining weight. A slot for which no element
is found stays empty.

The numbers are those of any commutative group with a comparison: integers, or machine integers, whose
sums wrap around. For all of them the sum stays that of the elements that are left (`Tallied.run`), and
every slot is filled if the draw returns at all (`draw_filled`). Whether it returns is a matter of the
numbers: `ExactDraw.lean` has integers, and `MachineDraw.lean` 64-bit ones.
-/

namespace GeoDNS.Lib

section
variable {α ω : Type} [AddCommGroup ω] [LE ω] [DecidableLE ω] (weight : α → ω)

/-- Take out the first element at which the partial sum of the weights, counted from `s`, reaches
    `n`. -/
def takeAt (n : ω) : ω → List α → Option (α × List α)
  | _, [] => none
  | s, a :: l =>
    if n ≤ s + weight a then some (a, l)
    else (takeAt n (s + weight a) l).map (fun x => (x.1, a :: x.2))

/-- Fill `slots` slots from a list with this total weight, beginning with the `k`-th random number; `intn`
    gives a number below its argument. -/
def draw [One ω] (intn : Nat → ω → Res ω) : (slots k : Nat) → (sum : ω) → List α → Res (List (Option α) × Nat)
  | 0, k, _, _ => .ok ([], k)
  | slots + 1, k, sum, l => do
    let n ← intn k (sum + 1)
    match takeAt weight n 0 l with
    | none =>
      let (rest, k) ← draw intn slots (k + 1) sum l
      return (none :: rest, k)
    | some (a, l) =>
      let (rest, k) ← draw intn slots (k + 1) (sum - weight a) l
      return (some a :: rest, k)

variable {weight}

/-- What is taken out stands somewhere in the list, where the partial sum reaches `n` for the first time,
    and the rest of the list stays as it is. -/
lemma takeAt_eq_some_iff {n s : ω} {l l' : List α} {a : α} :
    takeAt weight n s l = some (a, l') ↔ ∃ pre post, l = pre ++ a :: post ∧ l' = pre ++ post ∧
      n ≤ s + ((pre ++ [a]).map weight).sum ∧
      ∀ p, p ≠ [] → p <+: pre → ¬ n ≤ s + (p.map weight).sum := by
  induction l generalizing s l' with
  | nil =>
    refine iff_of_false (fun h => by cases h) ?_
    rintro ⟨pre, post, e, _⟩
    exact List.append_ne_nil_of_right_ne_nil pre (List.cons_ne_nil a post) e.symm
  | cons b l ih =>
    unfold takeAt
    constructor
    · intro h
      split at h
      case isTrue le =>
        cases h
        refine ⟨[], l, rfl, rfl, by simpa using le, ?_⟩
        intro p ne sub
        exact (ne (List.prefix_nil.mp sub)).elim
      case isFalse gt =>
        obtain ⟨⟨c, l''⟩, hc, e⟩ := Option.map_eq_some_iff.mp h
        cases e
        obtain ⟨pre, post, rfl, rfl, le, before⟩ := ih.mp hc
        refine ⟨b :: pre, post, rfl, rfl, ?_, ?_⟩
        · rwa [List.cons_append, List.map_cons, List.sum_cons, ← add_assoc]
        · intro p ne sub
          obtain ⟨p', rfl, sub'⟩ := (List.prefix_cons_iff.mp sub).resolve_left ne
          rw [List.map_cons, List.sum_cons, ← add_assoc]
          by_cases empty : p' = []
          · subst empty
            simpa using gt
          · exact before p' empty sub'
    · rintro ⟨pre, post, e, rfl, le, before⟩
      cases pre with
      | nil =>
        cases e
        rw [if_pos (by simpa using le)]
        rfl
      | cons c pre =>
        obtain ⟨rfl, rfl⟩ : b = c ∧ l = pre ++ a :: post := List.cons.inj e
        have gt : ¬ n ≤ s + weight b := by
          have first := before [b] (List.cons_ne_nil b []) (by simp)
          simpa using first
        have rest : takeAt weight n (s + weight b) (pre ++ a :: post) = some (a, pre ++ post) := by
          refine ih.mpr ⟨pre, post, rfl, rfl, ?_, ?_⟩
          · rwa [List.cons_append, List.map_cons, List.sum_cons, ← add_assoc] at le
          · intro p ne sub
            have later := before (b :: p) (List.cons_ne_nil b p) (List.cons_prefix_cons.mpr ⟨rfl, sub⟩)
            rwa [List.map_cons, List.sum_cons, ← add_assoc] at later
        rw [if_neg gt, rest]
        rfl

/-- What is taken out stands somewhere in the list, and the rest of the list stays as it is. -/
lemma takeAt_split {n s : ω} {l l' : List α} {a : α} (h : takeAt weight n s l = some (a, l')) :
    ∃ pre post, l = pre ++ a :: post ∧ l' = pre ++ post := by
  obtain ⟨pre, post, e, e', _⟩ := takeAt_eq_some_iff.mp h
  exact ⟨pre, post, e, e'⟩

/-- The list consists of what is taken out and of the rest. -/
lemma takeAt_perm {n s : ω} {l l' : List α} {a : α} (h : takeAt weight n s l = some (a, l')) :
    l.Perm (a :: l') := by
  obtain ⟨pre, post, rfl, rfl⟩ := takeAt_split h
  exact List.perm_middle

/-- Elements are taken by their weights alone. -/
lemma takeAt_map {β : Type} (f : β → α) (n s : ω) (l : List β) :
    takeAt weight n s (l.map f) =
      (takeAt (fun b => weight (f b)) n s l).map (fun x => (f x.1, x.2.map f)) := by
  induction l generalizing s with
  | nil => rfl
  | cons b l ih =>
    rw [List.map_cons, takeAt, takeAt]
    split
    · rfl
    · rw [ih, Option.map_map, Option.map_map]
      rfl

/-- A number up to the total weight selects some element. -/
lemma takeAt_isSome {n s : ω} {l : List α} (ne : l ≠ []) (le : n ≤ s + (l.map weight).sum) :
    ∃ a l', takeAt weight n s l = some (a, l') := by
  induction l generalizing s with
  | nil => exact (ne rfl).elim
  | cons b l ih =>
    unfold takeAt
    rw [List.map_cons, List.sum_cons, ← add_assoc] at le
    split
    case isTrue => exact ⟨b, l, rfl⟩
    case isFalse gt =>
      have ne' : l ≠ [] := by
        rintro rfl
        exact gt (by simpa using le)
      obtain ⟨a, l', h⟩ := ih ne' le
      exact ⟨a, b :: l', by rw [h]; rfl⟩

/-! ## The loop, state by state -/

/-- A state of the loop: the slots that are still to be filled, the count of random numbers, the caller's
    sum and the elements that are left. -/
structure DrawState (α ω : Type) where
  slots : Nat
  k : Nat
  sum : ω
  left : List α

/-- The sum is that of the weights that are left, and there are enough elements. -/
structure Tallied (weight : α → ω) (s : DrawState α ω) : Prop where
  sum : s.sum = (s.left.map weight).sum
  enough : s.slots ≤ s.left.length

variable {n : ω} {s s' : DrawState α ω}

omit [LE ω] [DecidableLE ω] in
/-- While there are slots to fill there are elements. -/
lemma Tallied.left_ne_nil (tallied : Tallied weight s) (more : s.slots ≠ 0) : s.left ≠ [] := by
  intro e
  have enough := tallied.enough
  rw [e, List.length_nil] at enough
  exact more (Nat.le_zero.mp enough)

/-- A number up to the sum finds an element. -/
lemma Tallied.finds (tallied : Tallied weight s) (more : s.slots ≠ 0) (le : n ≤ s.sum) :
    ∃ a l', takeAt weight n 0 s.left = some (a, l') := by
  apply takeAt_isSome (tallied.left_ne_nil more)
  rwa [zero_add, ← tallied.sum]

variable [One ω]

/-- One turn of the loop, which fills a slot. -/
inductive DrawStep (weight : α → ω) (intn : Nat → ω → Res ω) :
    DrawState α ω → Option α → DrawState α ω → Prop
  | taken {slots k sum l n a l'} : intn k (sum + 1) = .ok n → takeAt weight n 0 l = some (a, l') →
      DrawStep weight intn ⟨slots + 1, k, sum, l⟩ (some a) ⟨slots, k + 1, sum - weight a, l'⟩
  | missed {slots k sum l n} : intn k (sum + 1) = .ok n → takeAt weight n 0 l = none →
      DrawStep weight intn ⟨slots + 1, k, sum, l⟩ none ⟨slots, k + 1, sum, l⟩

/-- Turns of the loop, with the slots that they fill. -/
inductive DrawRun (weight : α → ω) (intn : Nat → ω → Res ω) :
    DrawState α ω → List (Option α) → DrawState α ω → Prop
  | refl (s : DrawState α ω) : DrawRun weight intn s [] s
  | step {s s' s'' : DrawState α ω} {x : Option α} {xs : List (Option α)} :
      DrawStep weight intn s x s' → DrawRun weight intn s' xs s'' → DrawRun weight intn s (x :: xs) s''

variable {intn : Nat → ω → Res ω} {slots k k' : Nat} {sum : ω} {l : List α} {x : Option α}
variable {xs : List (Option α)}

/-- What is left to be drawn after a turn. -/
lemma DrawStep.draw_eq (step : DrawStep weight intn s x s') :
    draw weight intn s.slots s.k s.sum s.left =
      (fun y => (x :: y.1, y.2)) <$> draw weight intn s'.slots s'.k s'.sum s'.left := by
  cases step with
  | taken hn ht =>
    rw [draw, hn, Res.ok_bind, ht]
    rfl
  | missed hn ht =>
    rw [draw, hn, Res.ok_bind, ht]
    rfl

/-- A draw that returns and has slots to fill begins with a turn. -/
lemma draw_turns (h : draw weight intn (slots + 1) k sum l = .ok (xs, k')) :
    ∃ x ys k1 sum' l', DrawStep weight intn ⟨slots + 1, k, sum, l⟩ x ⟨slots, k1, sum', l'⟩ ∧
      xs = x :: ys ∧ draw weight intn slots k1 sum' l' = .ok (ys, k') := by
  obtain ⟨n, hn, h⟩ := Res.bind_eq_ok.mp h
  rcases ht : takeAt weight n 0 l with _ | ⟨a, l'⟩
  all_goals
    simp only [ht] at h
    obtain ⟨⟨rest, k1⟩, hrest, h⟩ := Res.bind_eq_ok.mp h
    cases h
  · exact ⟨none, rest, _, _, _, .missed hn ht, rfl, hrest⟩
  · exact ⟨some a, rest, _, _, _, .taken hn ht, rfl, hrest⟩

/-- `draw` takes the turns of the loop until all slots are filled. -/
theorem draw_eq_ok_iff : draw weight intn s.slots s.k s.sum s.left = .ok (xs, k') ↔
    ∃ s', DrawRun weight intn s xs s' ∧ s'.slots = 0 ∧ s'.k = k' := by
  constructor
  · intro h
    obtain ⟨slots, k, sum, l⟩ := s
    induction slots generalizing k sum l xs with
    | zero =>
      cases h
      exact ⟨_, .refl _, rfl, rfl⟩
    | succ slots ih =>
      obtain ⟨x, ys, k1, sum', l', step, rfl, rest⟩ := draw_turns h
      obtain ⟨s', run, none, count⟩ := ih k1 sum' l' rest
      exact ⟨s', .step step run, none, count⟩
  · rintro ⟨s', run, none, rfl⟩
    induction run with
    | refl s =>
      obtain ⟨_, k, sum, l⟩ := s
      cases none
      rfl
    | step step _ ih => rw [step.draw_eq, ih none, Res.map_ok]

/-- As many slots are filled as there are. -/
lemma draw_length (h : draw weight intn slots k sum l = .ok (xs, k')) : xs.length = slots := by
  induction slots generalizing k sum l xs with
  | zero =>
    cases h
    rfl
  | succ slots ih =>
    obtain ⟨x, ys, k1, sum', l', _, rfl, rest⟩ := draw_turns h
    rw [List.length_cons, ih rest]

/-- What is drawn is in the list. -/
lemma draw_mem (h : draw weight intn slots k sum l = .ok (xs, k')) {a : α} (ha : some a ∈ xs) :
    a ∈ l := by
  induction slots generalizing k sum l xs with
  | zero =>
    cases h
    cases ha
  | succ slots ih =>
    obtain ⟨x, ys, k1, sum', l', step, rfl, h⟩ := draw_turns h
    cases step with
    | taken hn ht =>
      have perm := takeAt_perm ht
      rcases List.mem_cons.mp ha with e | ha
      · cases e
        exact perm.mem_iff.mpr List.mem_cons_self
      · exact perm.mem_iff.mpr (List.mem_cons_of_mem _ (ih h ha))
    | missed hn ht =>
      rcases List.mem_cons.mp ha with e | ha
      · cases e
      · exact ih h ha

/-- Elements are drawn by their weights alone. -/
lemma draw_map {β : Type} (f : β → α) (intn : Nat → ω → Res ω) (slots k : Nat) (sum : ω) (l : List β) :
    draw weight intn slots k sum (l.map f) =
      (fun x => (x.1.map (Option.map f), x.2)) <$>
        draw (fun b => weight (f b)) intn slots k sum l := by
  induction slots generalizing k sum l with
  | zero => rfl
  | succ slots ih =>
    rw [draw, draw]
    cases intn k (sum + 1) with
    | panic p => rfl
    | diverge => rfl
    | ok n =>
      simp only [Res.ok_bind, takeAt_map]
      cases takeAt (fun b => weight (f b)) n 0 l with
      | none =>
        simp only [Option.map_none, ih]
        cases draw (fun b => weight (f b)) intn slots (k + 1) sum l <;> rfl
      | some x =>
        simp only [Option.map_some, ih]
        cases draw (fun b => weight (f b)) intn slots (k + 1) (sum - weight (f x.1)) x.2 <;> rfl

/-- Only the numbers from the `k`-th on matter. -/
lemma draw_congr {intn' : Nat → ω → Res ω} (same : ∀ i, k ≤ i → intn i = intn' i) :
    draw weight intn slots k sum l = draw weight intn' slots k sum l := by
  induction slots generalizing k sum l with
  | zero => rfl
  | succ slots ih =>
    rw [draw, draw, same k (Nat.le_refl k)]
    have rest : ∀ {sum l}, draw weight intn slots (k + 1) sum l = draw weight intn' slots (k + 1) sum l :=
      ih (fun i hi => same i (Nat.le_of_succ_le hi))
    simp only [rest]

/-! ## The sum -/

/-- A turn keeps the sum right, whatever it takes. -/
lemma Tallied.step (tallied : Tallied weight s) (step : DrawStep weight intn s x s') :
    Tallied weight s' := by
  cases step with
  | @taken slots k sum l n a l' hn ht =>
    have perm := takeAt_perm ht
    constructor
    · have total : sum = (l.map weight).sum := tallied.sum
      show sum - weight a = (l'.map weight).sum
      rw [total, (perm.map weight).sum_eq, List.map_cons, List.sum_cons, add_sub_cancel_left]
    · have enough : slots + 1 ≤ l.length := tallied.enough
      rw [perm.length_eq, List.length_cons] at enough
      exact Nat.le_of_succ_le_succ enough
  | missed hn ht => exact ⟨tallied.sum, Nat.le_of_succ_le tallied.enough⟩

/-- The sum is right throughout the loop. -/
lemma Tallied.run (tallied : Tallied weight s) (run : DrawRun weight intn s xs s') :
    Tallied weight s' := by
  induction run with
  | refl => exact tallied
  | step step _ ih => exact ih (tallied.step step)

/-- If the numbers are what they should be, a draw that returns has filled all its slots with different
    elements of the list. -/
theorem draw_filled (below : ∀ {k sum n}, intn k (sum + 1) = .ok n → n ≤ sum)
    (tallied : Tallied weight ⟨slots, k, sum, l⟩)
    (h : draw weight intn slots k sum l = .ok (xs, k')) :
    ∃ ys : List α, xs = ys.map some ∧ ys.Subperm l := by
  induction slots generalizing k sum l xs with
  | zero =>
    cases h
    exact ⟨[], rfl, List.nil_subperm⟩
  | succ slots ih =>
    obtain ⟨x, ys, k1, sum', l', step, rfl, h⟩ := draw_turns h
    have tallied' := tallied.step step
    cases step with
    | missed hn ht =>
      obtain ⟨a, l', found⟩ := tallied.finds (Nat.succ_ne_zero _) (below hn)
      rw [ht] at found
      cases found
    | @taken _ _ _ _ _ a _ hn ht =>
      obtain ⟨zs, rfl, sub⟩ := ih tallied' h
      exact ⟨a :: zs, rfl, ((List.subperm_cons a).mpr sub).trans (takeAt_perm ht).symm.subperm⟩

/-- A turn that draws a number up to the sum takes an element. -/
lemma Tallied.turn {n : ω} (tallied : Tallied weight ⟨slots + 1, k, sum, l⟩)
    (hn : intn k (sum + 1) = .ok n) (le : n ≤ sum) :
    ∃ a l', DrawStep weight intn ⟨slots + 1, k, sum, l⟩ (some a) ⟨slots, k + 1, sum - weight a, l'⟩ ∧
      takeAt weight n 0 l = some (a, l') := by
  obtain ⟨a, l', ht⟩ := tallied.finds (Nat.succ_ne_zero _) le
  exact ⟨a, l', .taken hn ht, ht⟩

end

end GeoDNS.Lib
