import GeoDNS.Lib.Res
import Mathlib.Data.Fintype.Card
import Mathlib.Logic.Relation

/-!
# Recursion with a finite call list

A `Recursion` is a recursive procedure in open form: its `body` takes the procedure itself as an
argument, and `calls s` lists the arguments it may be called with from `s`. `run n` is the
executable semantics with recursion depth `n`; `value` is the result for every large enough depth,
and `diverge` when there is none, so that proofs do not have to carry a depth around.

* `value_eq` is the fixpoint equation, and `value_eq_iff_run` ties `value` back to `run`.
* `value_induction` proves a property of the returned values from the returned values of the calls.
* `returns_acc` and `ends_of_acc` relate termination to accessibility in the call graph.
* `acc_iff_not_cycle` says what accessibility is when only finitely many arguments are reachable:
  no reachable argument lies on a cycle.
-/

namespace GeoDNS.Lib

open Relation

/-- A recursive procedure in open form, with the calls it may make. -/
structure Recursion (σ β : Type) where
  /-- the procedure, given itself -/
  body : (σ → Res β) → σ → Res β
  /-- the arguments the procedure may call itself with -/
  calls : σ → List σ
  /-- the body consults the procedure at these arguments only -/
  local_calls : ∀ {f g : σ → Res β} {s}, (∀ b ∈ calls s, f b = g b) → body f s = body g s
  /-- more information from the calls gives more information -/
  mono : ∀ {f g : σ → Res β}, (∀ b, Res.Below (f b) (g b)) →
    ∀ s, Res.Below (body f s) (body g s)
  /-- the body itself does not loop -/
  total : ∀ {f : σ → Res β} {s}, (∀ b ∈ calls s, f b ≠ .diverge) → body f s ≠ .diverge
  /-- a returning body has made all its calls, and they have returned -/
  strict : ∀ {f : σ → Res β} {s r}, body f s = .ok r → ∀ b ∈ calls s, ∃ r', f b = .ok r'

namespace Recursion
variable {σ β : Type} (R : Recursion σ β)

/-- The procedure with recursion depth `n`. -/
def run : Nat → σ → Res β
  | 0, _ => .diverge
  | n + 1, s => R.body (run n) s

/-- The call `s` leads to the call `b`. -/
def Calls (a b : σ) : Prop :=
  b ∈ R.calls a

/-- A result stays the same with more depth. -/
lemma run_below_succ (n : Nat) (s : σ) : Res.Below (R.run n s) (R.run (n + 1) s) := by
  induction n generalizing s with
  | zero => exact .inl rfl
  | succ n ih => exact R.mono ih s

/-- More fuel only adds results. -/
lemma run_below {n m : Nat} (le : n ≤ m) (s : σ) : Res.Below (R.run n s) (R.run m s) := by
  induction le with
  | refl => exact .refl _
  | @step m _ ih => exact ih.trans (R.run_below_succ m s)

/-- Two depths that both give a result give the same one. -/
lemma run_agree {n m : Nat} {s : σ} (hn : R.run n s ≠ .diverge) (hm : R.run m s ≠ .diverge) :
    R.run n s = R.run m s := by
  rcases Nat.le_total n m with le | le
  · exact (R.run_below le s).eq hn
  · exact ((R.run_below le s).eq hm).symm

open Classical in
/-- The result of the procedure: that of a large enough depth, if there is one. -/
noncomputable def value (s : σ) : Res β :=
  if h : ∃ n, R.run n s ≠ .diverge then R.run h.choose s else .diverge

/-- The procedure ends at `s`, by returning or by a panic. -/
def Ends (s : σ) : Prop :=
  ∃ n, R.run n s ≠ .diverge

/-- If a run has a result, that is the value. -/
lemma value_eq_run {n : Nat} {s : σ} (ne : R.run n s ≠ .diverge) : R.value s = R.run n s := by
  have ex : ∃ n, R.run n s ≠ .diverge := ⟨n, ne⟩
  rw [value, dif_pos ex]
  exact R.run_agree ex.choose_spec ne

/-- A run says no more than the value. -/
lemma run_below_value (n : Nat) (s : σ) : Res.Below (R.run n s) (R.value s) := by
  by_cases h : R.run n s = .diverge
  · exact .inl h
  · exact .inr (R.value_eq_run h).symm

/-- The procedure ends exactly when its value is no divergence. -/
lemma ends_iff {s : σ} : R.Ends s ↔ R.value s ≠ .diverge := by
  constructor
  · rintro ⟨n, ne⟩
    rw [R.value_eq_run ne]
    exact ne
  · intro ne
    by_contra h
    exact ne (dif_neg h)

/-- A value that is no divergence is the result of some depth. -/
lemma value_eq_iff_run {s : σ} {x : Res β} (ne : x ≠ .diverge) :
    R.value s = x ↔ ∃ n, R.run n s = x := by
  constructor
  · rintro rfl
    obtain ⟨n, hn⟩ := R.ends_iff.mpr ne
    exact ⟨n, (R.value_eq_run hn).symm⟩
  · rintro ⟨n, rfl⟩
    exact R.value_eq_run ne

/-- One depth serves finitely many calls at once. -/
lemma exists_depth (l : List σ) : ∃ n, ∀ b ∈ l, R.run n b = R.value b := by
  induction l with
  | nil => exact ⟨0, by simp⟩
  | cons a l ih =>
    obtain ⟨n, hn⟩ := ih
    by_cases h : R.value a = .diverge
    · refine ⟨n, ?_⟩
      intro b hb
      rcases List.mem_cons.mp hb with rfl | hb
      · rcases R.run_below_value n b with e | e
        · rw [e, h]
        · exact e
      · exact hn b hb
    · obtain ⟨m, hm⟩ := (R.value_eq_iff_run h).mp rfl
      refine ⟨max n m, ?_⟩
      intro b hb
      rcases List.mem_cons.mp hb with rfl | hb
      · exact hm ▸ ((R.run_below (Nat.le_max_right n m) b).eq (hm ▸ h)).symm
      · by_cases hd : R.value b = .diverge
        · rcases R.run_below_value (max n m) b with e | e
          · rw [e, hd]
          · exact e
        · have e := hn b hb
          rw [← e]
          exact ((R.run_below (Nat.le_max_left n m) b).eq (e ▸ hd)).symm

/-- The value satisfies the equation of the recursion. -/
theorem value_eq (s : σ) : R.value s = R.body R.value s := by
  -- a depth at which all calls have their final result
  obtain ⟨n, hn⟩ := R.exists_depth (R.calls s)
  have e : R.run (n + 1) s = R.body R.value s := R.local_calls hn
  by_cases h : R.body R.value s = .diverge
  · -- no depth can do better than the final results of the calls
    by_contra ne
    rw [h] at ne
    obtain ⟨m, hm⟩ := (R.value_eq_iff_run ne).mp rfl
    cases m with
    | zero => exact ne hm.symm
    | succ m =>
      rcases R.mono (R.run_below_value m) s with hd | he
      · exact ne (hm.symm.trans hd)
      · exact ne (hm.symm.trans (he.trans h))
  · rw [← e] at h ⊢
    exact R.value_eq_run h

/-- Induction over the calls of a procedure that returns. -/
theorem value_induction {motive : σ → β → Prop}
    (step : ∀ s r, R.body R.value s = .ok r →
      (∀ b ∈ R.calls s, ∀ r', R.value b = .ok r' → motive b r') → motive s r)
    {s : σ} {r : β} (h : R.value s = .ok r) : motive s r := by
  obtain ⟨n, hn⟩ := (R.value_eq_iff_run (by simp)).mp h
  induction n generalizing s r with
  | zero => cases hn
  | succ n ih =>
    refine step s r ((R.value_eq s).symm.trans h) ?_
    intro b hb r' hr'
    -- the call has returned at depth `n` already, with its final result
    obtain ⟨r'', hr''⟩ := R.strict hn b hb
    have e : R.value b = .ok r'' := (R.value_eq_run (by simp [hr''])).trans hr''
    rw [hr'] at e
    cases e
    exact ih hr' hr''

/-- A procedure that returns has a well-founded call tree. -/
theorem returns_acc {s : σ} {r : β} (h : R.value s = .ok r) : Acc (flip R.Calls) s := by
  refine R.value_induction (motive := fun s _ => Acc (flip R.Calls) s) ?_ h
  intro s r hr ih
  constructor
  intro b hb
  obtain ⟨r', hr'⟩ := R.strict hr b hb
  exact ih b hb r' hr'

/-- A procedure with a well-founded call tree ends. -/
theorem ends_of_acc {s : σ} (acc : Acc (flip R.Calls) s) : R.Ends s := by
  induction acc with
  | intro s _ ih =>
    rw [R.ends_iff, R.value_eq]
    apply R.total
    intro b hb
    exact R.ends_iff.mp (ih b hb)

/-! ## Accessibility is the absence of reachable cycles -/

/-- An accessible element lies on no cycle. -/
lemma not_cycle_of_acc {r : σ → σ → Prop} {a : σ} (acc : Acc (flip r) a) : ¬ TransGen r a a := by
  have acc' : Acc (TransGen (flip r)) a := acc.transGen
  intro cyc
  have cyc' : TransGen (flip r) a a := transGen_swap.mpr cyc
  induction acc' with
  | intro a _ ih => exact ih a cyc' (acc.inv_of_transGen cyc') cyc cyc'

/-- What is reachable from an accessible element is accessible. -/
lemma acc_reach {r : σ → σ → Prop} {s a : σ} (acc : Acc (flip r) s) (reach : ReflTransGen r s a) :
    Acc (flip r) a := by
  induction reach with
  | refl => exact acc
  | tail _ h ih => exact ih.inv h

/-- Only finitely many elements are reachable from `s`, none of them on a cycle: then `s` is
    accessible. -/
lemma acc_of_not_cycle {r : σ → σ → Prop} {s : σ} (fin : {b | ReflTransGen r s b}.Finite)
    (acyclic : ¬ ∃ a, ReflTransGen r s a ∧ TransGen r a a) : Acc (flip r) s := by
  -- the reachable elements with the relation "lies below", a finite strict order
  let below : {b // ReflTransGen r s b} → {b // ReflTransGen r s b} → Prop :=
    fun x y => TransGen r y.1 x.1
  have finite : Finite {b // ReflTransGen r s b} := fin
  have trans : IsTrans _ below := ⟨fun _ _ _ h1 h2 => h2.trans h1⟩
  have irrefl : Std.Irrefl below := ⟨fun x h => acyclic ⟨x.1, x.2, h⟩⟩
  have wf : WellFounded below := Finite.wellFounded_of_trans_of_irrefl below
  -- accessibility there gives accessibility for every reachable element
  have key : ∀ x : {b // ReflTransGen r s b}, Acc (flip r) x.1 := by
    intro x
    induction wf.apply x with
    | intro x _ ih =>
      constructor
      intro b hb
      exact ih ⟨b, x.2.tail hb⟩ (.single hb)
  exact key ⟨s, .refl⟩

/-- With finitely many reachable elements, accessibility is the absence of a reachable cycle. -/
theorem acc_iff_not_cycle {r : σ → σ → Prop} {s : σ} (fin : {b | ReflTransGen r s b}.Finite) :
    Acc (flip r) s ↔ ¬ ∃ a, ReflTransGen r s a ∧ TransGen r a a := by
  constructor
  · rintro acc ⟨a, reach, cyc⟩
    exact not_cycle_of_acc (acc_reach acc reach) cyc
  · exact acc_of_not_cycle fin

end Recursion
end GeoDNS.Lib
