import GeoDNS.Lib.Res
import Mathlib.Data.List.AList

/-!
# Maps

A Go map is Mathlib's `AList`: an association list without repeated keys, whose order is the order
in which a `range` loop visits the entries. Lookup, insertion and deletion and their laws are those of
`AList`; what is added here are the two ways in which the program rebuilds a whole map, value by
value, and the map built by a sequence of assignments.
-/

namespace GeoDNS.Lib

section
variable {α β : Type} {R : α → β → Prop} {x : Option α} {y : Option β}

/-- If there is something on the right, there is something on the left. -/
lemma rel_left {b : β} (rel : Option.Rel R x y) (h : y = some b) : ∃ a, x = some a ∧ R a b := by
  subst h
  cases rel with
  | some r => exact ⟨_, rfl, r⟩

/-- If there is something on the left, there is something on the right. -/
lemma rel_right {a : α} (rel : Option.Rel R x y) (h : x = some a) : ∃ b, y = some b ∧ R a b := by
  subst h
  cases rel with
  | some r => exact ⟨_, rfl, r⟩

/-- An optional value is related to itself. -/
lemma rel_refl {R : α → α → Prop} (refl : ∀ a, R a a) (x : Option α) : Option.Rel R x x := by
  cases x with
  | none => exact .none
  | some a => exact .some (refl a)

/-- Related values are also related in a weaker sense. -/
lemma rel_mono {S : α → β → Prop} (rel : Option.Rel R x y) (le : ∀ a b, R a b → S a b) :
    Option.Rel S x y := by
  cases rel with
  | none => exact .none
  | some r => exact .some (le _ _ r)

/-- If optional values are related, they are so the other way round by the converse. -/
lemma rel_symm {S : β → α → Prop} (rel : Option.Rel R x y) (symm : ∀ a b, R a b → S b a) :
    Option.Rel S y x := by
  cases rel with
  | none => exact .none
  | some r => exact .some (symm _ _ r)

/-- Relations of optional values compose. -/
lemma rel_trans {γ : Type} {S : β → γ → Prop} {T : α → γ → Prop} {w : Option γ} (rel : Option.Rel R x y)
    (rel' : Option.Rel S y w) (trans : ∀ a b c, R a b → S b c → T a c) : Option.Rel T x w := by
  cases rel with
  | none =>
    cases rel'
    exact .none
  | some r =>
    cases rel' with
    | some r' => exact .some (trans _ _ _ r r')

/-- Values that are related by equality are equal. -/
lemma eq_of_rel {R : α → α → Prop} {x y : Option α} (rel : Option.Rel R x y)
    (eq : ∀ a b, R a b → a = b) : x = y := by
  cases rel with
  | none => rfl
  | some r => rw [eq _ _ r]

/-- Two optional values are related if each is there when the other one is, and they are then related. -/
lemma rel_of_isSome (isSome : x.isSome ↔ y.isSome) (related : ∀ a b, x = some a → y = some b → R a b) :
    Option.Rel R x y := by
  cases x with
  | none =>
    cases y with
    | none => exact .none
    | some b => simp at isSome
  | some a =>
    cases y with
    | none => simp at isSome
    | some b => exact .some (related a b rfl rfl)

end

/-- A Go `map[κ]ν`. -/
abbrev GoMap (κ ν : Type) := AList (fun _ : κ => ν)

namespace GoMap
variable {κ ν μ : Type}

/-- Replace every value of the map. -/
def mapVals (f : κ → ν → μ) (m : GoMap κ ν) : GoMap κ μ where
  entries := m.entries.map (Sigma.map id f)
  nodupKeys := List.NodupKeys.map₂ f m.entries m.nodupKeys

variable [DecidableEq κ]

/-- A value of the new map is the image of the old one. -/
@[simp] lemma lookup_mapVals (f : κ → ν → μ) (m : GoMap κ ν) (k : κ) :
    (mapVals f m).lookup k = (m.lookup k).map (f k) :=
  List.dlookup_map₂ k

/-- Related maps have the same keys. -/
lemma mem_iff_of_rel {R : ν → μ → Prop} {m : GoMap κ ν} {m' : GoMap κ μ} {k : κ}
    (rel : Option.Rel R (m.lookup k) (m'.lookup k)) : k ∈ m ↔ k ∈ m' := by
  rw [← AList.lookup_isSome, ← AList.lookup_isSome]
  generalize m.lookup k = a at rel ⊢
  generalize m'.lookup k = b at rel ⊢
  cases rel with
  | none => rfl
  | some _ => rfl

/-- What is found in a map with one entry. -/
lemma lookup_of_single {m : GoMap κ ν} {k : κ} {v : ν} (single : m.entries = [⟨k, v⟩]) (k' : κ) :
    m.lookup k' = if k' = k then some v else none := by
  rw [AList.lookup, single]
  by_cases h : k' = k
  · subst h
    simp
  · simp [h]

/-- What is found in a map after an insertion. -/
lemma lookup_insert_eq_ite (m : GoMap κ ν) (k k' : κ) (v : ν) :
    (m.insert k v).lookup k' = if k' = k then some v else m.lookup k' := by
  by_cases h : k' = k
  · subst h
    simp
  · simp [h]

/-- What is found in a map after a deletion. -/
lemma lookup_erase_eq_ite (m : GoMap κ ν) (k k' : κ) :
    (m.erase k).lookup k' = if k' = k then none else m.lookup k' := by
  by_cases h : k' = k
  · subst h
    simp
  · simp [h]

/-- The entries are what is looked up. -/
lemma mem_entries_iff {m : GoMap κ ν} {k : κ} {v : ν} :
    (⟨k, v⟩ : Σ _ : κ, ν) ∈ m.entries ↔ m.lookup k = some v :=
  (List.mem_dlookup_iff m.nodupKeys).symm

/-- The map after assigning the pairs in order: of two with the same key the later one stays. -/
def ofPairs (l : List (κ × ν)) : GoMap κ ν :=
  l.foldl (fun m kv => m.insert kv.1 kv.2) ∅

/-- Replace every value by a computation that may abort, entry by entry. -/
def traverseEntries (f : κ → ν → Res μ) : List (Σ _ : κ, ν) → Res (List (Σ _ : κ, μ))
  | [] => .ok []
  | e :: es => do
    let v ← f e.1 e.2
    let vs ← traverseEntries f es
    return ⟨e.1, v⟩ :: vs

/-- Replace every value of the map by a computation that may abort. -/
def traverse (f : κ → ν → Res μ) (m : GoMap κ ν) : Res (GoMap κ μ) := do
  let es ← traverseEntries f m.entries
  return es.toAList

/-- The entries of a traversal, key by key. -/
lemma dlookup_traverseEntries {f : κ → ν → Res μ} {es : List (Σ _ : κ, ν)}
    {es' : List (Σ _ : κ, μ)} (h : traverseEntries f es = .ok es') (k : κ) :
    (es.dlookup k = none ∧ es'.dlookup k = none) ∨
      ∃ v v', es.dlookup k = some v ∧ es'.dlookup k = some v' ∧ f k v = .ok v' := by
  induction es generalizing es' with
  | nil =>
    cases h
    exact .inl ⟨rfl, rfl⟩
  | cons e es ih =>
    obtain ⟨v', hv, h⟩ := Res.bind_eq_ok.mp h
    obtain ⟨vs, hvs, h⟩ := Res.bind_eq_ok.mp h
    cases h
    obtain ⟨k', v⟩ := e
    by_cases hk : k = k'
    · subst hk
      exact .inr ⟨v, v', by simp, by simp, hv⟩
    · simp only [ne_eq, hk, not_false_eq_true, List.dlookup_cons_ne]
      exact ih hvs

/-- Two loops that come to the same value under a key compute the same for it. -/
lemma dlookup_traverseEntries_congr {f : κ → ν → Res μ} {es es' : List (Σ _ : κ, ν)}
    {xs xs' : List (Σ _ : κ, μ)} (h : traverseEntries f es = .ok xs) (h' : traverseEntries f es' = .ok xs')
    {k : κ} (same : es.dlookup k = es'.dlookup k) : xs.dlookup k = xs'.dlookup k := by
  rcases dlookup_traverseEntries h k with ⟨hn, hx⟩ | ⟨v, x, hv, hx, hf⟩
  · rcases dlookup_traverseEntries h' k with ⟨_, hx'⟩ | ⟨v', _, hv', _⟩
    · rw [hx, hx']
    · cases (hn.symm.trans same).trans hv'
  · rcases dlookup_traverseEntries h' k with ⟨hn', _⟩ | ⟨v', x', hv', hx', hf'⟩
    · cases (hv.symm.trans same).trans hn'
    · cases (hv.symm.trans same).trans hv'
      cases hf.symm.trans hf'
      rw [hx, hx']

omit [DecidableEq κ] in
/-- A traversal keeps the keys. -/
lemma keys_traverseEntries {f : κ → ν → Res μ} {es : List (Σ _ : κ, ν)} {es' : List (Σ _ : κ, μ)}
    (h : traverseEntries f es = .ok es') : es'.keys = es.keys := by
  induction es generalizing es' with
  | nil =>
    cases h
    rfl
  | cons e es ih =>
    obtain ⟨v, _, h⟩ := Res.bind_eq_ok.mp h
    obtain ⟨vs, hvs, h⟩ := Res.bind_eq_ok.mp h
    cases h
    rw [List.keys_cons, List.keys_cons, ih hvs]

omit [DecidableEq κ] in
/-- A traversal keeps the keys different. -/
lemma nodupKeys_traverseEntries {f : κ → ν → Res μ} {es : List (Σ _ : κ, ν)} {es' : List (Σ _ : κ, μ)}
    (nodup : es.NodupKeys) (h : traverseEntries f es = .ok es') : es'.NodupKeys := by
  rw [List.NodupKeys, keys_traverseEntries h]
  exact nodup

/-- Every entry of the new map comes from the one with its key. -/
lemma mem_traverseEntries {f : κ → ν → Res μ} {es : List (Σ _ : κ, ν)} {es' : List (Σ _ : κ, μ)}
    (nodup : es.NodupKeys) (h : traverseEntries f es = .ok es') {e : Σ _ : κ, μ} (he : e ∈ es') :
    ∃ v, es.dlookup e.1 = some v ∧ f e.1 v = .ok e.2 := by
  have found := List.mem_dlookup (nodupKeys_traverseEntries nodup h) he
  rcases dlookup_traverseEntries h e.1 with ⟨_, hn⟩ | ⟨v, v', hv, hv', hf⟩
  · cases hn.symm.trans found
  · cases hv'.symm.trans found
    exact ⟨v, hv, hf⟩

/-- A map is rebuilt exactly when the computation returns for every entry. -/
lemma traverseEntries_returns {f : κ → ν → Res μ} {es : List (Σ _ : κ, ν)} (nodup : es.NodupKeys) :
    (∃ es', traverseEntries f es = .ok es') ↔
      ∀ k v, es.dlookup k = some v → ∃ v', f k v = .ok v' := by
  constructor
  · rintro ⟨es', h⟩ k v hv
    rcases dlookup_traverseEntries h k with ⟨hn, _⟩ | ⟨v0, v', h0, _, hf⟩
    · rw [hn] at hv
      cases hv
    · rw [h0] at hv
      cases hv
      exact ⟨v', hf⟩
  · intro h
    induction es with
    | nil => exact ⟨[], rfl⟩
    | cons e es ih =>
      obtain ⟨hnot, nodup⟩ := List.nodupKeys_cons.mp nodup
      obtain ⟨v', hv'⟩ := h e.1 e.2 (List.dlookup_cons_eq es e.1 e.2)
      obtain ⟨es', hes'⟩ := ih nodup (fun k v hv => h k v (by
        have ne : k ≠ e.1 := by
          rintro rfl
          exact hnot (List.dlookup_isSome.mp (by simp [hv]))
        rwa [List.dlookup_cons_ne es e ne]))
      rw [traverseEntries, hv', hes']
      exact ⟨_, rfl⟩

/-- A rebuilt map has the same keys, and each value is the result for the old one. -/
lemma lookup_traverse {f : κ → ν → Res μ} {m : GoMap κ ν} {m' : GoMap κ μ}
    (h : traverse f m = .ok m') (k : κ) :
    (m.lookup k = none ∧ m'.lookup k = none) ∨
      ∃ v v', m.lookup k = some v ∧ m'.lookup k = some v' ∧ f k v = .ok v' := by
  obtain ⟨es, hes, h⟩ := Res.bind_eq_ok.mp h
  cases h
  rw [AList.lookup_to_alist]
  exact dlookup_traverseEntries hes k

/-- Every value of the new map comes from the one under its key. -/
lemma exists_of_lookup_traverse {f : κ → ν → Res μ} {m : GoMap κ ν} {m' : GoMap κ μ} {k : κ} {v' : μ}
    (h : traverse f m = .ok m') (hk : m'.lookup k = some v') :
    ∃ v, m.lookup k = some v ∧ f k v = .ok v' := by
  rcases lookup_traverse h k with ⟨_, hn⟩ | ⟨v, v'', hv, hv'', hf⟩
  · cases hn.symm.trans hk
  · cases hv''.symm.trans hk
    exact ⟨v, hv, hf⟩

/-! ## Loops that fill a record -/

/-- A loop over keyed changes, each of which touches the part of the state that belongs to its key: a part
    that only `key` touches is what the change under that key has made of it. -/
lemma foldl_part {σ τ χ : Type} {apply : σ → χ → σ} {belongs : κ → χ → Prop} (part : σ → τ)
    (after : τ → χ → τ) (key : κ) (step : ∀ s c, part (apply s c) = after (part s) c)
    (skips : ∀ k c x, belongs k c → k ≠ key → after x c = x) {changes : List (Σ _ : κ, χ)}
    (nodup : changes.NodupKeys) (all : ∀ e ∈ changes, belongs e.1 e.2) (s : σ) :
    part (changes.foldl (fun s e => apply s e.2) s) =
      (changes.dlookup key).elim (part s) (after (part s)) := by
  induction changes generalizing s with
  | nil => rfl
  | cons e changes ih =>
    obtain ⟨hnot, nodup⟩ := List.nodupKeys_cons.mp nodup
    have rest := ih nodup (fun e' he' => all e' (List.mem_cons_of_mem _ he')) (apply s e.2)
    obtain ⟨k, c⟩ := e
    rw [List.foldl_cons, rest, step]
    by_cases hk : k = key
    · subst hk
      rw [List.dlookup_cons_eq, List.dlookup_eq_none.mpr hnot]
      rfl
    · have other : (⟨k, c⟩ :: changes : List (Σ _ : κ, χ)).dlookup key = changes.dlookup key :=
        List.dlookup_cons_ne _ _ (Ne.symm hk)
      rw [other, skips k c _ (all _ List.mem_cons_self) hk]

/-- The same for a loop that may abort, with what the turn of `key` sets its part to as a relation. -/
lemma foldlM_part {σ τ : Type} {f : σ → (Σ _ : κ, ν) → Res σ} (part : σ → τ) (key : κ)
    (sets : ν → τ → Prop) {es : List (Σ _ : κ, ν)}
    (here : ∀ s v s', f s ⟨key, v⟩ = .ok s' → sets v (part s'))
    (skips : ∀ s e s', e ∈ es → e.1 ≠ key → f s e = .ok s' → part s' = part s)
    (nodup : es.NodupKeys) {s s' : σ} (h : es.foldlM f s = .ok s') :
    (es.dlookup key = none ∧ part s' = part s) ∨ ∃ v, es.dlookup key = some v ∧ sets v (part s') := by
  induction es generalizing s with
  | nil =>
    cases h
    exact .inl ⟨rfl, rfl⟩
  | cons e es ih =>
    obtain ⟨hnot, nodup⟩ := List.nodupKeys_cons.mp nodup
    obtain ⟨s₁, turn, h⟩ := Res.bind_eq_ok.mp h
    have rest := ih (fun s e' s' mem => skips s e' s' (List.mem_cons_of_mem _ mem)) nodup h
    obtain ⟨k, v⟩ := e
    by_cases hk : k = key
    · subst hk
      have absent : es.dlookup k = none := List.dlookup_eq_none.mpr hnot
      rw [absent] at rest
      rcases rest with ⟨_, same⟩ | ⟨_, other, _⟩
      · exact .inr ⟨v, List.dlookup_cons_eq _ _ _, same ▸ here s v s₁ turn⟩
      · cases other
    · have other : (⟨k, v⟩ :: es : List (Σ _ : κ, ν)).dlookup key = es.dlookup key :=
        List.dlookup_cons_ne _ _ (Ne.symm hk)
      rw [other, ← skips s ⟨k, v⟩ s₁ List.mem_cons_self hk turn]
      exact rest

/-- A loop over distinct keys, in whatever order: a part of the state that only the turn of `key` touches. -/
lemma foldl_keys {σ τ : Type} {f : σ → κ → σ} (part : σ → τ) (key : κ) {g : τ → τ}
    (here : ∀ s, part (f s key) = g (part s)) (skips : ∀ s k, k ≠ key → part (f s k) = part s)
    {keys : List κ} (nodup : keys.Nodup) (s : σ) :
    part (keys.foldl f s) = if key ∈ keys then g (part s) else part s := by
  induction keys generalizing s with
  | nil => rfl
  | cons k keys ih =>
    obtain ⟨hnot, nodup⟩ := List.nodup_cons.mp nodup
    rw [List.foldl_cons, ih nodup]
    by_cases hk : k = key
    · subst hk
      rw [if_neg hnot, if_pos List.mem_cons_self, here]
    · rw [skips s k hk]
      simp [Ne.symm hk]

omit [DecidableEq κ] in
/-- Two maps with the same keys have the same number of entries. -/
lemma length_entries_eq {m : GoMap κ ν} {m' : GoMap κ μ} (same : ∀ k, k ∈ m ↔ k ∈ m') :
    m.entries.length = m'.entries.length := by
  have perm : m.entries.keys.Perm m'.entries.keys :=
    (List.perm_ext_iff_of_nodup m.nodupKeys m'.nodupKeys).mpr same
  simpa [List.keys] using perm.length_eq

/-! ## Counting -/

/-- Count one more under a key (Go `m[k]++`). -/
def increment (m : GoMap κ Nat) (k : κ) : GoMap κ Nat :=
  m.insert k ((m.lookup k).getD 0 + 1)

/-- A loop that counts the elements of a list. -/
lemma lookup_increments (l : List κ) (m : GoMap κ Nat) (k : κ) :
    (l.foldl increment m).lookup k =
      if k ∈ l then some ((m.lookup k).getD 0 + l.count k) else m.lookup k := by
  induction l generalizing m with
  | nil => rfl
  | cons k' l ih =>
    rw [List.foldl_cons, ih, increment, lookup_insert_eq_ite]
    by_cases here : k = k'
    · subst here
      by_cases later : k ∈ l
      · simp only [later, List.mem_cons, or_true, if_true, Option.getD_some, List.count_cons_self]
        congr 1
        omega
      · simp [later, List.count_eq_zero.mpr later]
    · simp [here, List.count_cons_of_ne (Ne.symm here)]

/-! ## Entries in two orders -/

/-- Two maps with the same values have the same entries, up to the order. -/
lemma perm_of_lookup {m m' : GoMap κ ν} (same : ∀ k, m.lookup k = m'.lookup k) :
    m.entries.Perm m'.entries :=
  List.lookup_ext m.nodupKeys m'.nodupKeys fun k v => by
    rw [show m.entries.dlookup k = m'.entries.dlookup k from same k]

/-- Two lists of entries that are related key by key are so entry by entry, up to the order. -/
lemma exists_perm_forall₂ {R : κ → ν → μ → Prop} {es : List (Σ _ : κ, ν)} {es' : List (Σ _ : κ, μ)}
    (nodup : es.NodupKeys) (nodup' : es'.NodupKeys)
    (related : ∀ k, Option.Rel (R k) (es.dlookup k) (es'.dlookup k)) :
    ∃ l : List (Σ _ : κ, μ), es'.Perm l ∧
      List.Forall₂ (fun e e' => e.1 = e'.1 ∧ R e.1 e.2 e'.2) es l := by
  induction es generalizing es' with
  | nil =>
    refine ⟨[], ?_, .nil⟩
    cases es' with
    | nil => exact .refl []
    | cons e es' =>
      obtain ⟨v, hv, _⟩ := rel_left (related e.1) (List.dlookup_cons_eq es' e.1 e.2)
      cases hv
  | cons e es ih =>
    obtain ⟨k, v⟩ := e
    obtain ⟨hnot, nodup⟩ := List.nodupKeys_cons.mp nodup
    obtain ⟨v', hv', r⟩ := rel_right (related k) (List.dlookup_cons_eq es k v)
    obtain ⟨pre, post, rfl⟩ := List.append_of_mem (List.of_mem_dlookup hv')
    have perm : (pre ++ ⟨k, v'⟩ :: post).Perm (⟨k, v'⟩ :: (pre ++ post)) := List.perm_middle
    have nodup'' := (List.perm_nodupKeys perm).mp nodup'
    obtain ⟨hnot', nodup''⟩ := List.nodupKeys_cons.mp nodup''
    have rest : ∀ k', Option.Rel (R k') (es.dlookup k') ((pre ++ post).dlookup k') := by
      intro k'
      by_cases hk : k' = k
      · subst hk
        rw [List.dlookup_eq_none.mpr hnot, List.dlookup_eq_none.mpr hnot']
        exact .none
      · have rel := related k'
        have left : (⟨k, v⟩ :: es : List (Σ _ : κ, ν)).dlookup k' = es.dlookup k' :=
          List.dlookup_cons_ne _ _ hk
        have right : (⟨k, v'⟩ :: (pre ++ post) : List (Σ _ : κ, μ)).dlookup k' =
            (pre ++ post).dlookup k' := List.dlookup_cons_ne _ _ hk
        rwa [List.perm_dlookup k' nodup' perm, left, right] at rel
    obtain ⟨l, hl, each⟩ := ih nodup nodup'' rest
    exact ⟨⟨k, v'⟩ :: l, perm.trans (hl.cons _), .cons ⟨rfl, r⟩ each⟩

/-- Two loops over related entries whose turns commute keep their states related, in whatever order they
    come to the entries. -/
lemma foldl_related {σ τ : Type} {E : σ → τ → Prop} {R : κ → ν → μ → Prop} {f : σ → (Σ _ : κ, ν) → σ}
    {g : τ → (Σ _ : κ, μ) → τ} {es : List (Σ _ : κ, ν)} {es' : List (Σ _ : κ, μ)}
    (nodup : es.NodupKeys) (nodup' : es'.NodupKeys)
    (related : ∀ k, Option.Rel (R k) (es.dlookup k) (es'.dlookup k))
    (step : ∀ s t k v v', E s t → R k v v' → E (f s ⟨k, v⟩) (g t ⟨k, v'⟩))
    (comm : ∀ e ∈ es', ∀ e' ∈ es', e.1 ≠ e'.1 → ∀ t, g (g t e) e' = g (g t e') e)
    {s : σ} {t : τ} (start : E s t) : E (es.foldl f s) (es'.foldl g t) := by
  obtain ⟨l, perm, each⟩ := exists_perm_forall₂ nodup nodup' related
  have reordered : es'.foldl g t = l.foldl g t := by
    apply perm.foldl_eq'
    intro e he e' he' t
    by_cases same : e.1 = e'.1
    · obtain ⟨k, v⟩ := e
      obtain ⟨k', v'⟩ := e'
      obtain rfl : k = k' := same
      obtain rfl : v = v' :=
        Option.some.inj ((List.mem_dlookup nodup' he).symm.trans (List.mem_dlookup nodup' he'))
      rfl
    · exact comm e he e' he' same t
  rw [reordered]
  clear reordered perm comm related nodup nodup'
  induction each generalizing s t with
  | nil => exact start
  | @cons e e' es l h _ ih =>
    obtain ⟨k, v⟩ := e
    obtain ⟨k', v'⟩ := e'
    obtain ⟨rfl, r⟩ := h
    exact ih (step s t _ v v' start r)

end GoMap
end GeoDNS.Lib
