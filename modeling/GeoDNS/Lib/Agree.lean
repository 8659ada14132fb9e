import GeoDNS.Lib.GoMap

/-!
# Two runs that agree

`Res.Agree Q x y` compares two runs of imperative code: both return, with results related by `Q`, or
neither does; for which reason a run fails does not matter. Sequencing keeps it (`Res.Agree.bind`), and
so do the loops over two maps whose entries are related key by key, in whatever order the loops come to
them (`GoMap.traverseEntries_agree`).
-/

namespace GeoDNS.Lib
namespace Res
variable {α β γ δ : Type}

/-- Both return, with related results, or neither does. -/
inductive Agree (Q : α → β → Prop) : Res α → Res β → Prop
  | ok {a b} : Q a b → Agree Q (.ok a) (.ok b)
  | fail {x y} : (∀ a, x ≠ .ok a) → (∀ b, y ≠ .ok b) → Agree Q x y

variable {Q : α → β → Prop} {P : γ → δ → Prop}

/-- A result agrees with itself. -/
lemma Agree.refl {Q : α → α → Prop} (refl : ∀ a, Q a a) (x : Res α) : Agree Q x x := by
  cases x with
  | ok a => exact .ok (refl a)
  | panic p => exact .fail (by simp) (by simp)
  | diverge => exact .fail (by simp) (by simp)

/-- Equal results agree. -/
lemma Agree.of_eq {Q : α → α → Prop} (refl : ∀ a, Q a a) {x y : Res α} (e : x = y) : Agree Q x y :=
  e ▸ .refl refl x

/-- Results that agree also agree in a weaker sense. -/
lemma Agree.mono {Q' : α → β → Prop} {x : Res α} {y : Res β} (agree : Agree Q x y)
    (le : ∀ a b, Q a b → Q' a b) : Agree Q' x y := by
  cases agree with
  | ok h => exact .ok (le _ _ h)
  | fail hx hy => exact .fail hx hy

/-- Computations that agree step by step agree. -/
lemma Agree.bind {x : Res α} {y : Res β} {f : α → Res γ} {g : β → Res δ} (agree : Agree Q x y)
    (step : ∀ a b, Q a b → Agree P (f a) (g b)) : Agree P (x >>= f) (y >>= g) := by
  cases agree with
  | ok h => exact step _ _ h
  | fail hx hy =>
    constructor
    · intro c e
      obtain ⟨a, ha, _⟩ := bind_eq_ok.mp e
      exact hx a ha
    · intro d e
      obtain ⟨b, hb, _⟩ := bind_eq_ok.mp e
      exact hy b hb

/-- Images of results that agree agree. -/
lemma Agree.map {x : Res α} {y : Res β} {f : α → γ} {g : β → δ} (agree : Agree Q x y)
    (step : ∀ a b, Q a b → P (f a) (g b)) : Agree P (f <$> x) (g <$> y) := by
  rw [← bind_pure_comp, ← bind_pure_comp]
  exact agree.bind (fun a b h => .ok (step a b h))

/-- Two switches on one condition agree if their branches do. -/
lemma Agree.ite {c : Prop} [Decidable c] {x x' : Res α} {y y' : Res β} (pos : Agree Q x y)
    (neg : Agree Q x' y') : Agree Q (if c then x else x') (if c then y else y') := by
  by_cases h : c
  · rw [if_pos h, if_pos h]
    exact pos
  · rw [if_neg h, if_neg h]
    exact neg

/-- Two runs agree if each returns whenever the other does, with related results. -/
lemma Agree.of_returns {x : Res α} {y : Res β} (returns : (∃ a, x = .ok a) ↔ ∃ b, y = .ok b)
    (related : ∀ a b, x = .ok a → y = .ok b → Q a b) : Agree Q x y := by
  cases x with
  | ok a =>
    obtain ⟨b, hb⟩ := returns.mp ⟨a, rfl⟩
    subst hb
    exact .ok (related a b rfl rfl)
  | panic p => exact .fail (by simp) (fun b hb => by simpa using returns.mpr ⟨b, hb⟩)
  | diverge => exact .fail (by simp) (fun b hb => by simpa using returns.mpr ⟨b, hb⟩)

/-- What is known of the results, with where they come from. -/
lemma Agree.with_eq {x : Res α} {y : Res β} (agree : Agree Q x y) :
    Agree (fun a b => Q a b ∧ x = .ok a ∧ y = .ok b) x y := by
  cases agree with
  | ok q => exact .ok ⟨q, rfl, rfl⟩
  | fail hx hy => exact .fail hx hy

/-- If the right result is a value, the left one is. -/
lemma Agree.left {x : Res α} {y : Res β} {b : β} (agree : Agree Q x y) (h : y = .ok b) :
    ∃ a, x = .ok a ∧ Q a b := by
  cases agree with
  | ok q =>
    cases h
    exact ⟨_, rfl, q⟩
  | fail _ hy => exact (hy b h).elim

/-- If the left result is a value, the right one is. -/
lemma Agree.right {x : Res α} {y : Res β} {a : α} (agree : Agree Q x y) (h : x = .ok a) :
    ∃ b, y = .ok b ∧ Q a b := by
  cases agree with
  | ok q =>
    cases h
    exact ⟨_, rfl, q⟩
  | fail hx _ => exact (hx a h).elim

/-- Of two results that agree, one is a value if and only if the other is. -/
lemma Agree.returns_iff {x : Res α} {y : Res β} (agree : Agree Q x y) :
    (∃ a, x = .ok a) ↔ ∃ b, y = .ok b := by
  cases agree with
  | ok h => simp
  | fail hx hy => simp [hx, hy]

/-- Values that agree are related. -/
lemma Agree.related {a : α} {b : β} (agree : Agree Q (.ok a) (.ok b)) : Q a b := by
  cases agree with
  | ok h => exact h
  | fail hx _ => exact (hx a rfl).elim

end Res

namespace GoMap
variable {κ ν ν' μ μ' : Type} [DecidableEq κ]

/-- The loops over two maps with related entries agree. -/
lemma traverseEntries_agree {R : κ → ν → ν' → Prop} {Q : κ → μ → μ' → Prop} {f : κ → ν → Res μ}
    {g : κ → ν' → Res μ'} {es : List (Σ _ : κ, ν)} {es' : List (Σ _ : κ, ν')}
    (nodup : es.NodupKeys) (nodup' : es'.NodupKeys)
    (related : ∀ k, Option.Rel (R k) (es.dlookup k) (es'.dlookup k))
    (step : ∀ k v v', R k v v' → Res.Agree (Q k) (f k v) (g k v')) :
    Res.Agree (fun xs ys => ∀ k, Option.Rel (Q k) (xs.dlookup k) (ys.dlookup k))
      (traverseEntries f es) (traverseEntries g es') := by
  apply Res.Agree.of_returns
  · rw [traverseEntries_returns nodup, traverseEntries_returns nodup']
    constructor
    · intro h k v' hv'
      obtain ⟨v, hv, r⟩ := rel_left (related k) hv'
      exact (step k v v' r).returns_iff.mp (h k v hv)
    · intro h k v hv
      obtain ⟨v', hv', r⟩ := rel_right (related k) hv
      exact (step k v v' r).returns_iff.mpr (h k v' hv')
  · intro xs ys hx hy k
    have rel := related k
    rcases dlookup_traverseEntries hx k with ⟨hn, hxn⟩ | ⟨v, x, hv, hxk, hf⟩
    · rw [hn] at rel
      rcases dlookup_traverseEntries hy k with ⟨_, hyn⟩ | ⟨v', y, hv', _, _⟩
      · rw [hxn, hyn]
        exact .none
      · rw [hv'] at rel
        cases rel
    · rw [hv] at rel
      rcases dlookup_traverseEntries hy k with ⟨hn', _⟩ | ⟨v', y, hv', hyk, hg⟩
      · rw [hn'] at rel
        cases rel
      · rw [hv'] at rel
        rw [hxk, hyk]
        cases rel with
        | some r =>
          have agree := step k v v' r
          rw [hf, hg] at agree
          exact .some agree.related

/-- Traversals of related maps agree if their steps do. -/
lemma traverse_agree {R : κ → ν → ν' → Prop} {Q : κ → μ → μ' → Prop} {f : κ → ν → Res μ}
    {g : κ → ν' → Res μ'} {m : GoMap κ ν} {m' : GoMap κ ν'}
    (related : ∀ k, Option.Rel (R k) (m.lookup k) (m'.lookup k))
    (step : ∀ k v v', R k v v' → Res.Agree (Q k) (f k v) (g k v')) :
    Res.Agree (fun xs ys => ∀ k, Option.Rel (Q k) (xs.lookup k) (ys.lookup k)) (m.traverse f)
      (m'.traverse g) := by
  refine (traverseEntries_agree m.nodupKeys m'.nodupKeys related step).bind (fun xs ys rel => ?_)
  refine .ok (fun k => ?_)
  rw [AList.lookup_to_alist, AList.lookup_to_alist]
  exact rel k

/-- The loops over two maps with related entries that collect a list agree up to the order, which cannot
    be seen when all elements are of one kind. -/
lemma mapM_entries_agree {γ δ : Type} {R : κ → ν → ν' → Prop} {P : γ → Prop} {Q : δ → Prop}
    {f : (Σ _ : κ, ν) → Res γ} {g : (Σ _ : κ, ν') → Res δ} {m : GoMap κ ν} {m' : GoMap κ ν'}
    (related : ∀ k, Option.Rel (R k) (m.lookup k) (m'.lookup k))
    (step : ∀ k v v', R k v v' → Res.Agree (fun c d => P c ∧ Q d) (f ⟨k, v⟩) (g ⟨k, v'⟩)) :
    Res.Agree (List.Forall₂ (fun c d => P c ∧ Q d)) (m.entries.mapM f) (m'.entries.mapM g) := by
  apply Res.Agree.of_returns
  · rw [Res.mapM_returns_iff, Res.mapM_returns_iff]
    constructor
    · rintro h ⟨k, v'⟩ he
      obtain ⟨v, hv, r⟩ := rel_left (related k) (mem_entries_iff.mp he)
      exact (step k v v' r).returns_iff.mp (h ⟨k, v⟩ (mem_entries_iff.mpr hv))
    · rintro h ⟨k, v⟩ he
      obtain ⟨v', hv', r⟩ := rel_right (related k) (mem_entries_iff.mp he)
      exact (step k v v' r).returns_iff.mpr (h ⟨k, v'⟩ (mem_entries_iff.mpr hv'))
  · intro cs ds hc hd
    have length : cs.length = ds.length := by
      rw [← (Res.mapM_eq_ok.mp hc).length_eq, ← (Res.mapM_eq_ok.mp hd).length_eq]
      exact length_entries_eq (fun k => mem_iff_of_rel (related k))
    have left : ∀ c ∈ cs, P c := by
      intro c hmem
      obtain ⟨⟨k, v⟩, he, hf⟩ := Res.mem_of_mapM hc hmem
      obtain ⟨v', hv', r⟩ := rel_right (related k) (mem_entries_iff.mp he)
      obtain ⟨d, _, h⟩ := (step k v v' r).right hf
      exact h.1
    have right : ∀ d ∈ ds, Q d := by
      intro d hmem
      obtain ⟨⟨k, v'⟩, he, hg⟩ := Res.mem_of_mapM hd hmem
      obtain ⟨v, hv, r⟩ := rel_left (related k) (mem_entries_iff.mp he)
      obtain ⟨c, _, h⟩ := (step k v v' r).left hg
      exact h.2
    exact List.forall₂_iff_get.mpr ⟨length, fun i hi hi' =>
      ⟨left _ (List.get_mem _ _), right _ (List.get_mem _ _)⟩⟩

end GoMap
end GeoDNS.Lib
