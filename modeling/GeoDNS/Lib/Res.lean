import Mathlib.Data.List.Basic
import Mathlib.Data.List.Forall2

/-!
# Results of imperative code

The result of running a piece of imperative code that may abort: it returns a value (`ok`), it
panics (`panic`), or the model gave it too little recursion depth to tell (`diverge`). `Res` is a
monad in which `panic` and `diverge` propagate, as an unrecovered panic does.

`Below x y` is the information order of the fuelled semantics: `x` is `diverge`, or it already is
the final result `y`. A body built from `bind` and list traversals is monotone in it, which is what
makes a result independent of the depth it was computed with (`Recursion.lean`).
-/

namespace GeoDNS.Lib

/-- The reasons for which running code aborts. -/
inductive Panic where
  /-- an explicit call of `panic` with this text -/
  | explicit (msg : String)
  /-- an index outside of a slice -/
  | index
  /-- a nil pointer or nil interface is dereferenced -/
  | nilDeref
  /-- a failed type assertion -/
  | typeAssert
  /-- an allocation or a library call with an argument out of its range -/
  | range
  deriving DecidableEq, Repr

/-- The result of running a piece of code. -/
inductive Res (α : Type) where
  | ok (a : α)
  | panic (p : Panic)
  | diverge
  deriving DecidableEq, Repr

namespace Res
variable {α β γ σ : Type}

/-- Sequencing: a panic or a divergence of the first part is one of the whole. -/
protected def bind (x : Res α) (f : α → Res β) : Res β :=
  match x with
  | .ok a => f a
  | .panic p => .panic p
  | .diverge => .diverge

instance : Monad Res where
  pure := .ok
  bind := Res.bind

/-- A pure value is one that is returned. -/
@[simp] lemma pure_eq_ok (a : α) : (pure a : Res α) = .ok a := rfl

/-- What comes after a return is run with the value. -/
@[simp] lemma ok_bind (a : α) (f : α → Res β) : (Res.ok a >>= f) = f a := rfl

/-- What comes after a panic is not run. -/
@[simp] lemma panic_bind (p : Panic) (f : α → Res β) : (Res.panic p >>= f) = .panic p := rfl

/-- What comes after a loop that does not end is not run. -/
@[simp] lemma diverge_bind (f : α → Res β) : ((Res.diverge : Res α) >>= f) = .diverge := rfl

instance : LawfulMonad Res := LawfulMonad.mk' Res
  (by intro _ x; cases x <;> rfl)
  (by intros; rfl)
  (by intro _ _ _ x _ _; cases x <;> rfl)

/-- The image of a value that is returned. -/
@[simp] lemma map_ok (f : α → β) (a : α) : (f <$> Res.ok a) = .ok (f a) := rfl

/-- A function does not change a panic. -/
@[simp] lemma map_panic (f : α → β) (p : Panic) : (f <$> (Res.panic p : Res α)) = .panic p := rfl

/-- A function does not change a loop that does not end. -/
@[simp] lemma map_diverge (f : α → β) : (f <$> (Res.diverge : Res α)) = .diverge := rfl

/-- A sequence returns exactly when its parts do. -/
lemma bind_eq_ok {x : Res α} {f : α → Res β} {b : β} :
    (x >>= f) = .ok b ↔ ∃ a, x = .ok a ∧ f a = .ok b := by
  cases x <;> simp

/-- A sequence panics when its first part does, or its second part on the result of the first. -/
lemma bind_eq_panic {x : Res α} {f : α → Res β} {p : Panic} :
    (x >>= f) = .panic p ↔ x = .panic p ∨ ∃ a, x = .ok a ∧ f a = .panic p := by
  cases x <;> simp

/-- A sequence runs out of depth when its first part does, or its second part. -/
lemma bind_eq_diverge {x : Res α} {f : α → Res β} :
    (x >>= f) = .diverge ↔ x = .diverge ∨ ∃ a, x = .ok a ∧ f a = .diverge := by
  cases x <;> simp

/-- An image returns if there is something to take it of. -/
lemma map_eq_ok {x : Res α} {f : α → β} {b : β} : (f <$> x) = .ok b ↔ ∃ a, x = .ok a ∧ f a = b := by
  rw [← bind_pure_comp, bind_eq_ok]
  simp

/-- A value is returned as an optional one if and only if it is returned. -/
lemma map_some_eq_ok {x : Res α} {a : α} : (some <$> x) = .ok (some a) ↔ x = .ok a := by
  cases x <;> simp

/-- Reading a value that may be missing: a missing one makes the code panic with `p`. -/
def get (o : Option α) (p : Panic) : Res α :=
  match o with
  | some a => .ok a
  | none => .panic p

/-- A pointer to something is followed. -/
@[simp] lemma get_some (a : α) (p : Panic) : get (some a) p = .ok a := rfl

/-- To follow a nil pointer is a panic. -/
@[simp] lemma get_none (p : Panic) : get (none : Option α) p = .panic p := rfl

/-- A pointer is followed only to what is there. -/
lemma get_eq_ok {o : Option α} {p : Panic} {a : α} : get o p = .ok a ↔ o = some a := by
  cases o <;> simp

/-! ## The information order -/

/-- `x` has run out of depth, or it is the result `y` already. -/
def Below (x y : Res α) : Prop :=
  x = .diverge ∨ x = y

/-- A result is below itself. -/
lemma Below.refl (x : Res α) : Below x x := .inr rfl

/-- Being below is transitive. -/
lemma Below.trans {x y z : Res α} (b1 : Below x y) (b2 : Below y z) : Below x z := by
  rcases b1 with rfl | rfl
  · exact .inl rfl
  · exact b2

/-- A result that is no divergence is final. -/
lemma Below.eq {x y : Res α} (b : Below x y) (ne : x ≠ .diverge) : x = y :=
  b.resolve_left ne

/-- Sequencing is monotone. -/
lemma Below.bind {x y : Res α} {f g : α → Res β}
    (b : Below x y) (bf : ∀ a, Below (f a) (g a)) : Below (x >>= f) (y >>= g) := by
  rcases b with rfl | rfl
  · exact .inl rfl
  · cases x with
    | ok a => exact bf a
    | panic p => exact .refl _
    | diverge => exact .refl _

/-! ## Loops -/

/-- The results of a loop that computes one value for each element. -/
lemma mapM_cons_eq_ok {f : α → Res β} {a : α} {l : List α} {bs : List β} :
    (a :: l).mapM f = .ok bs ↔ ∃ b bs', f a = .ok b ∧ l.mapM f = .ok bs' ∧ bs = b :: bs' := by
  rw [List.mapM_cons]
  simp only [bind_eq_ok, pure_eq_ok, ok.injEq]
  constructor
  · rintro ⟨b, hb, bs', hbs, rfl⟩
    exact ⟨b, bs', hb, hbs, rfl⟩
  · rintro ⟨b, bs', hb, hbs, rfl⟩
    exact ⟨b, hb, bs', hbs, rfl⟩

/-- A loop returns if all its turns do. -/
lemma mapM_eq_ok {f : α → Res β} {l : List α} {bs : List β} :
    l.mapM f = .ok bs ↔ List.Forall₂ (fun a b => f a = .ok b) l bs := by
  induction l generalizing bs with
  | nil => simp [eq_comm]
  | cons a l ih =>
    rw [mapM_cons_eq_ok, List.forall₂_cons_left_iff]
    constructor
    · rintro ⟨b, bs', hb, hbs, rfl⟩
      exact ⟨b, bs', hb, ih.mp hbs, rfl⟩
    · rintro ⟨b, bs', hb, hbs, rfl⟩
      exact ⟨b, bs', hb, ih.mpr hbs, rfl⟩

/-- If all turns of a loop return, the loop does. -/
lemma mapM_returns {f : α → Res β} {l : List α} (h : ∀ a ∈ l, ∃ b, f a = .ok b) :
    ∃ bs, l.mapM f = .ok bs := by
  induction l with
  | nil => exact ⟨[], rfl⟩
  | cons a l ih =>
    obtain ⟨b, hb⟩ := h a (by simp)
    obtain ⟨bs, hbs⟩ := ih (fun a' ha' => h a' (by simp [ha']))
    exact ⟨b :: bs, mapM_cons_eq_ok.mpr ⟨b, bs, hb, hbs, rfl⟩⟩

/-- A loop returns if and only if all its turns do. -/
lemma mapM_returns_iff {f : α → Res β} {l : List α} :
    (∃ bs, l.mapM f = .ok bs) ↔ ∀ a ∈ l, ∃ b, f a = .ok b := by
  refine ⟨?_, mapM_returns⟩
  rintro ⟨bs, h⟩
  induction l generalizing bs with
  | nil => simp
  | cons a l ih =>
    obtain ⟨b, bs', hb, hbs, rfl⟩ := mapM_cons_eq_ok.mp h
    intro a' ha'
    rcases List.mem_cons.mp ha' with rfl | ha'
    · exact ⟨b, hb⟩
    · exact ih bs' hbs a' ha'

/-- Every value that such a loop computes belongs to an element. -/
lemma mem_of_mapM {f : α → Res β} {l : List α} {bs : List β} (h : l.mapM f = .ok bs) {b : β}
    (hb : b ∈ bs) : ∃ a ∈ l, f a = .ok b := by
  induction l generalizing bs with
  | nil =>
    cases h
    cases hb
  | cons a l ih =>
    obtain ⟨b', bs', ha, hbs, rfl⟩ := mapM_cons_eq_ok.mp h
    rcases List.mem_cons.mp hb with rfl | hb
    · exact ⟨a, by simp, ha⟩
    · obtain ⟨a', ha', e⟩ := ih hbs hb
      exact ⟨a', by simp [ha'], e⟩

/-- The result of a turn is among those of the loop. -/
lemma mem_mapM {f : α → Res β} {l : List α} {bs : List β} (h : l.mapM f = .ok bs) {a : α} {b : β}
    (ha : a ∈ l) (hb : f a = .ok b) : b ∈ bs := by
  induction l generalizing bs with
  | nil => cases ha
  | cons a' l ih =>
    obtain ⟨b', bs', hb', hbs, rfl⟩ := mapM_cons_eq_ok.mp h
    rcases List.mem_cons.mp ha with rfl | ha
    · rw [hb] at hb'
      cases hb'
      exact List.mem_cons_self
    · exact List.mem_cons_of_mem _ (ih hbs ha)

/-- A loop over a state, whose turns return or not whatever the state is. -/
lemma foldlM_returns_iff {σ : Type} {f : σ → α → Res σ} {P : α → Prop}
    (returns : ∀ s a, (∃ s', f s a = .ok s') ↔ P a) {l : List α} {s : σ} :
    (∃ s', l.foldlM f s = .ok s') ↔ ∀ a ∈ l, P a := by
  induction l generalizing s with
  | nil => simp
  | cons a l ih =>
    rw [List.forall_mem_cons, ← returns s a]
    constructor
    · rintro ⟨s', h⟩
      obtain ⟨s1, h1, h⟩ := bind_eq_ok.mp h
      exact ⟨⟨s1, h1⟩, ih.mp ⟨s', h⟩⟩
    · rintro ⟨⟨s1, h1⟩, rest⟩
      obtain ⟨s', h⟩ := ih.mpr rest
      exact ⟨s', bind_eq_ok.mpr ⟨s1, h1, h⟩⟩

/-- What every turn of a loop keeps holds at its end. -/
lemma foldlM_invariant {σ : Type} {f : σ → α → Res σ} (inv : σ → Prop) {l : List α}
    (keeps : ∀ s a s', a ∈ l → inv s → f s a = .ok s' → inv s') {s s' : σ} (start : inv s)
    (h : l.foldlM f s = .ok s') : inv s' := by
  induction l generalizing s with
  | nil =>
    cases h
    exact start
  | cons a l ih =>
    obtain ⟨s₁, turn, h⟩ := bind_eq_ok.mp h
    exact ih (fun s a' s' mem => keeps s a' s' (List.mem_cons_of_mem _ mem))
      (keeps s a s₁ List.mem_cons_self start turn) h

/-- The results of a loop whose body appends to a list. -/
def collect (f : α → Res (List β)) : List α → Res (List β)
  | [] => .ok []
  | a :: as => do
    let x ← f a
    let xs ← collect f as
    return x ++ xs

/-- What is collected with one more element. -/
lemma collect_cons_eq_ok {f : α → Res (List β)} {a : α} {as : List α} {xs : List β} :
    collect f (a :: as) = .ok xs ↔
      ∃ x ys, f a = .ok x ∧ collect f as = .ok ys ∧ xs = x ++ ys := by
  rw [collect, bind_eq_ok]
  constructor
  · rintro ⟨x, hx, h⟩
    obtain ⟨ys, hys, h⟩ := bind_eq_ok.mp h
    cases h
    exact ⟨x, ys, hx, hys, rfl⟩
  · rintro ⟨x, ys, hx, hys, rfl⟩
    exact ⟨x, hx, bind_eq_ok.mpr ⟨ys, hys, rfl⟩⟩

/-- Only the elements of the list matter. -/
lemma collect_congr {f g : α → Res (List β)} {l : List α} (h : ∀ a ∈ l, f a = g a) :
    collect f l = collect g l := by
  induction l with
  | nil => rfl
  | cons a l ih =>
    rw [collect, collect, h a (by simp), ih (fun b hb => h b (by simp [hb]))]

/-- Collecting is monotone. -/
lemma collect_below {f g : α → Res (List β)} (h : ∀ a, Below (f a) (g a)) (l : List α) :
    Below (collect f l) (collect g l) := by
  induction l with
  | nil => exact .refl _
  | cons a l ih =>
    apply (h a).bind
    intro x
    apply ih.bind
    intro xs
    exact .refl _

/-- Collecting ends if all turns end. -/
lemma collect_ne_diverge {f : α → Res (List β)} {l : List α} (h : ∀ a ∈ l, f a ≠ .diverge) :
    collect f l ≠ .diverge := by
  induction l with
  | nil => simp [collect]
  | cons a l ih =>
    intro hd
    rcases bind_eq_diverge.mp hd with hd | ⟨x, _, hd⟩
    · exact h a (by simp) hd
    · rcases bind_eq_diverge.mp hd with hd | ⟨xs, _, hd⟩
      · exact ih (fun b hb => h b (by simp [hb])) hd
      · cases hd

/-- A loop that returns has run its body for every element, and kept all results. -/
lemma collect_mem {f : α → Res (List β)} {l : List α} {xs : List β} (h : collect f l = .ok xs)
    {a : α} (ha : a ∈ l) : ∃ x, f a = .ok x ∧ x ⊆ xs := by
  induction l generalizing xs with
  | nil => cases ha
  | cons b l ih =>
    obtain ⟨x, ys, hx, hys, rfl⟩ := collect_cons_eq_ok.mp h
    rcases List.mem_cons.mp ha with rfl | ha
    · exact ⟨x, hx, List.subset_append_left _ _⟩
    · obtain ⟨x', hx', sub⟩ := ih hys ha
      exact ⟨x', hx', List.Subset.trans sub (List.subset_append_right _ _)⟩

/-- Every result of a loop comes from one run of its body. -/
lemma mem_collect {f : α → Res (List β)} {l : List α} {xs : List β} (h : collect f l = .ok xs)
    {y : β} (hy : y ∈ xs) : ∃ a ∈ l, ∃ x, f a = .ok x ∧ y ∈ x := by
  induction l generalizing xs with
  | nil =>
    cases h
    cases hy
  | cons b l ih =>
    obtain ⟨x, ys, hx, hys, rfl⟩ := collect_cons_eq_ok.mp h
    rcases List.mem_append.mp hy with hy | hy
    · exact ⟨b, by simp, x, hx, hy⟩
    · obtain ⟨a, ha, x', hx', hy'⟩ := ih hys hy
      exact ⟨a, by simp [ha], x', hx', hy'⟩

/-- Two loops over the same elements, of which the second follows the first turn by turn. -/
lemma collect_transfer {γ : Type} {R : List β → List γ → Prop} {f : α → Res (List β)}
    {g : α → Res (List γ)} {l : List α} {xs : List β} (nil : R [] [])
    (append : ∀ {x x' y y'}, R x x' → R y y' → R (x ++ y) (x' ++ y'))
    (turn : ∀ a ∈ l, ∀ x, f a = .ok x → ∃ x', g a = .ok x' ∧ R x x') (h : collect f l = .ok xs) :
    ∃ xs', collect g l = .ok xs' ∧ R xs xs' := by
  induction l generalizing xs with
  | nil =>
    cases h
    exact ⟨[], rfl, nil⟩
  | cons a l ih =>
    obtain ⟨x, ys, hx, hys, rfl⟩ := collect_cons_eq_ok.mp h
    obtain ⟨x', hx', rel⟩ := turn a List.mem_cons_self x hx
    obtain ⟨ys', hys', rels⟩ := ih (fun b hb => turn b (List.mem_cons_of_mem _ hb)) hys
    exact ⟨x' ++ ys', collect_cons_eq_ok.mpr ⟨x', ys', hx', hys', rfl⟩, append rel rels⟩

/-- If no turn of the first loop finds more than the same turn of the second, and both find the same
    altogether, then each turn does. -/
lemma collect_turns_eq {γ : Type} {φ : β → γ} {f g : α → Res (List β)} {l : List α} {xs ys : List β}
    (fewer : ∀ a ∈ l, ∀ x y, f a = .ok x → g a = .ok y → x.length ≤ y.length)
    (hf : collect f l = .ok xs) (hg : collect g l = .ok ys) :
    xs.length ≤ ys.length ∧ (xs.map φ = ys.map φ →
      ∀ a ∈ l, ∀ x y, f a = .ok x → g a = .ok y → x.map φ = y.map φ) := by
  induction l generalizing xs ys with
  | nil =>
    cases hf
    cases hg
    exact ⟨Nat.le_refl _, nofun⟩
  | cons a l ih =>
    obtain ⟨x, xs, hx, hxs, rfl⟩ := collect_cons_eq_ok.mp hf
    obtain ⟨y, ys, hy, hys, rfl⟩ := collect_cons_eq_ok.mp hg
    have first := fewer a List.mem_cons_self x y hx hy
    obtain ⟨rest, each⟩ := ih (fun b hb => fewer b (List.mem_cons_of_mem _ hb)) hxs hys
    refine ⟨by simp only [List.length_append]; omega, ?_⟩
    intro e
    rw [List.map_append, List.map_append] at e
    -- both parts are at most as long, and together they are equally long
    have length := congrArg List.length e
    simp only [List.length_append, List.length_map] at length
    obtain ⟨e1, e2⟩ := List.append_inj e (by simp only [List.length_map]; omega)
    intro b hb x' y' hx' hy'
    rcases List.mem_cons.mp hb with rfl | hb
    · rw [hx] at hx'
      rw [hy] at hy'
      cases hx'
      cases hy'
      exact e1
    · exact each e2 b hb x' y' hx' hy'

/-- If no turn has a result, nothing is collected. -/
lemma collect_nothing {f : α → Res (List β)} {l : List α} (h : ∀ a ∈ l, f a = .ok []) :
    collect f l = .ok [] := by
  induction l with
  | nil => rfl
  | cons a l ih =>
    rw [collect, h a List.mem_cons_self, ih (fun b hb => h b (List.mem_cons_of_mem _ hb))]
    rfl

/-- A loop in which one element alone has results. -/
lemma collect_one [DecidableEq α] {f : α → Res (List β)} {l : List α} {a : α} {xs : List β}
    (once : l.count a = 1) (here : f a = .ok xs) (others : ∀ b ∈ l, b ≠ a → f b = .ok []) :
    collect f l = .ok xs := by
  induction l with
  | nil => cases once
  | cons b l ih =>
    rw [collect]
    by_cases hb : b = a
    · -- the one element; nothing comes after it
      subst hb
      rw [List.count_cons_self] at once
      have absent : b ∉ l := List.count_eq_zero.mp (by omega)
      have rest : collect f l = .ok [] := by
        apply collect_nothing
        intro c hc
        exact others c (List.mem_cons_of_mem _ hc) (by rintro rfl; exact absent hc)
      rw [here, rest]
      simp
    · rw [List.count_cons_of_ne hb] at once
      rw [others b List.mem_cons_self hb, ih once (fun c hc => others c (List.mem_cons_of_mem _ hc))]
      rfl

/-- A loop panics where its body first does. -/
lemma collect_eq_panic {f : α → Res (List β)} {l : List α} {p : Panic} :
    collect f l = .panic p ↔
      ∃ pre a post, l = pre ++ a :: post ∧ (∀ b ∈ pre, ∃ x, f b = .ok x) ∧ f a = .panic p := by
  induction l with
  | nil => simp [collect]
  | cons b l ih =>
    constructor
    · intro h
      rcases bind_eq_panic.mp h with h | ⟨x, hx, h⟩
      · exact ⟨[], b, l, rfl, by simp, h⟩
      · rcases bind_eq_panic.mp h with h | ⟨xs, _, h⟩
        · obtain ⟨pre, a, post, rfl, hpre, ha⟩ := ih.mp h
          refine ⟨b :: pre, a, post, rfl, ?_, ha⟩
          intro c hc
          rcases List.mem_cons.mp hc with rfl | hc
          · exact ⟨x, hx⟩
          · exact hpre c hc
        · cases h
    · rintro ⟨pre, a, post, e, hpre, ha⟩
      cases pre with
      | nil =>
        cases e
        exact bind_eq_panic.mpr (.inl ha)
      | cons c pre =>
        cases e
        obtain ⟨x, hx⟩ := hpre b (by simp)
        refine bind_eq_panic.mpr (.inr ⟨x, hx, bind_eq_panic.mpr (.inl ?_)⟩)
        exact ih.mpr ⟨pre, a, post, rfl, fun d hd => hpre d (by simp [hd]), ha⟩

/-- A loop that gets as far as a panic of its body panics. -/
lemma collect_panics {f : α → Res (List β)} {pre post : List α} {a : α} {p : Panic}
    (hpre : ∀ b ∈ pre, f b ≠ .diverge) (ha : f a = .panic p) :
    ∃ p', collect f (pre ++ a :: post) = .panic p' := by
  induction pre with
  | nil => exact ⟨p, bind_eq_panic.mpr (.inl ha)⟩
  | cons b pre ih =>
    cases hb : f b with
    | ok x =>
      obtain ⟨p', hp'⟩ := ih (fun c hc => hpre c (by simp [hc]))
      exact ⟨p', bind_eq_panic.mpr (.inr ⟨x, hb, bind_eq_panic.mpr (.inl hp')⟩)⟩
    | panic p' => exact ⟨p', bind_eq_panic.mpr (.inl hb)⟩
    | diverge => exact (hpre b (by simp) hb).elim

end Res

/-! ## The first element that counts -/

section
variable {α β : Type} {skip hit : β → Prop}

/-- The first element of the list that is not skipped is a hit. -/
def Hits (skip hit : β → Prop) : List β → Prop
  | [] => False
  | b :: bs => hit b ∨ (skip b ∧ Hits skip hit bs)

/-- There is a hit in the first part, or it is all skipped and there is one in the second. -/
lemma hits_append {bs cs : List β} :
    Hits skip hit (bs ++ cs) ↔ Hits skip hit bs ∨ ((∀ b ∈ bs, skip b) ∧ Hits skip hit cs) := by
  induction bs with
  | nil => simp [Hits]
  | cons b bs ih =>
    rw [List.cons_append, Hits, Hits, ih, List.forall_mem_cons]
    tauto

/-- Without a candidate there is no hit. -/
lemma not_hits {bs : List β} (none : ∀ b ∈ bs, ¬ hit b) : ¬ Hits skip hit bs := by
  induction bs with
  | nil => exact id
  | cons b bs ih =>
    rintro (h | ⟨_, h⟩)
    · exact none b List.mem_cons_self h
    · exact ih (fun c hc => none c (List.mem_cons_of_mem _ hc)) h

/-- Whether all elements that a loop appends are skipped is a matter of its turns. -/
lemma Res.collect_skips {f : α → Res (List β)} {as : List α} {bs : List β}
    (h : collect f as = .ok bs) :
    (∀ b ∈ bs, skip b) ↔ ∀ a ∈ as, ∀ x, f a = .ok x → ∀ b ∈ x, skip b := by
  constructor
  · intro all a ha x hx b hb
    obtain ⟨y, hy, sub⟩ := collect_mem h ha
    rw [hx] at hy
    cases hy
    exact all b (sub hb)
  · intro all b hb
    obtain ⟨a, ha, x, hx, hbx⟩ := mem_collect h hb
    exact all a ha x hx b hbx

/-- The first hit of a loop is the first hit of one of its turns, with nothing but skipped elements in the
    turns before. -/
lemma Res.collect_hits {f : α → Res (List β)} {as : List α} {bs : List β} (h : collect f as = .ok bs) :
    Hits skip hit bs ↔ ∃ pre a post x, as = pre ++ a :: post ∧ f a = .ok x ∧ Hits skip hit x ∧
      ∀ c ∈ pre, ∀ y, f c = .ok y → ∀ b ∈ y, skip b := by
  induction as generalizing bs with
  | nil =>
    cases h
    simp [Hits]
  | cons a as ih =>
    obtain ⟨x, ys, hx, hys, rfl⟩ := collect_cons_eq_ok.mp h
    rw [hits_append, ih hys]
    constructor
    · rintro (hit | ⟨skips, pre, c, post, y, rfl, hy, hit, before⟩)
      · exact ⟨[], a, as, x, rfl, hx, hit, by simp⟩
      · refine ⟨a :: pre, c, post, y, rfl, hy, hit, ?_⟩
        intro d hd z hz
        rcases List.mem_cons.mp hd with rfl | hd
        · rw [hx] at hz
          cases hz
          exact skips
        · exact before d hd z hz
    · rintro ⟨pre, c, post, y, e, hy, hit, before⟩
      cases pre with
      | nil =>
        cases e
        rw [hx] at hy
        cases hy
        exact .inl hit
      | cons d pre =>
        cases e
        refine .inr ⟨before a List.mem_cons_self x hx, pre, c, post, y, rfl, hy, hit, ?_⟩
        exact fun d hd => before d (List.mem_cons_of_mem _ hd)

end
end GeoDNS.Lib
