import GeoDNS.Lib.Recursion
import GeoDNS.Zones.Zone

/-!
# Label lookup

`Zone.FindLabels` of `zones/zone.go`: the labels that may answer a query for `s`, one target after the
other and for each target one query type after the other, with `MF` records followed as aliases by a
recursive call. `findLabels` is the executable model with a bound on the depth of that recursion, and
`lookupRec` is the same procedure in the open form of `Lib/Recursion.lean`: its calls from `s` are the
names the aliases of `s` point to, `aliasCalls`.
-/

namespace GeoDNS.Zones
open GeoDNS.Lib GeoDNS.Dns

/-- The name of `s` for a target (the first `switch` of `FindLabels`). -/
def targetName (s target : String) : String :=
  if target = "@" then s
  else if s ≠ "" then s ++ "." ++ target
  else target

/-- The matches of one query type at a label found for `s` (the second `switch` of `FindLabels`);
    `lookup` is the recursive call. -/
def matchType (z : Zone) (lookup : String → Res (List LabelMatch)) (s : String) (l : Label)
    (q : RRType) : Res (List LabelMatch) :=
  if q = typeANY then
    -- the label of `s` itself, which need not be the one that was found
    .ok [⟨z.labels.lookup s, q⟩]
  else if q = typeMF then
    match l.recordsOf typeMF with
    | none => .ok []
    | some _ => do
      let rr ← l.firstRR typeMF
      match rr.data with
      | .mf mf => lookup mf
      | _ => .panic .typeAssert
  else
    match l.recordsOf q with
    | some (_ :: _) => .ok [⟨some l, q⟩]
    | _ => .ok []

/-- The matches for one target. -/
def matchTarget (z : Zone) (qts : List RRType) (lookup : String → Res (List LabelMatch))
    (s target : String) : Res (List LabelMatch) :=
  match z.labels.lookup (targetName s target) with
  | none => .ok []
  | some l => Res.collect (matchType z lookup s l) qts

/-- The body of `FindLabels`, given the recursive call. -/
def findBody (z : Zone) (targets : List String) (qts : List RRType)
    (lookup : String → Res (List LabelMatch)) (s : String) : Res (List LabelMatch) := do
  let found ← Res.collect (matchTarget z qts lookup s) targets
  match found, z.labels.lookup s with
  | [], some l => return [⟨some l, 0⟩]
  | found, _ => return found

/-- Go `Zone.FindLabels`, with recursion at most `fuel` deep. -/
def findLabels (z : Zone) (targets : List String) (qts : List RRType) :
    Nat → String → Res (List LabelMatch)
  | 0, _ => .diverge
  | fuel + 1, s => findBody z targets qts (findLabels z targets qts fuel) s

/-! ## Aliases -/

/-- What `FindLabels` finds at a label's entry for aliases, if it has one: the name that the first
    record points to, or the panic of reading it from an empty entry (or, in no zone that was read
    from a file, from a record of another kind). -/
def aliasEntry (l : Label) : Option (Except Panic String) :=
  match l.recordsOf typeMF with
  | none => none
  | some [] => some (.error .index)
  | some (r :: _) =>
    match r.rr.data with
    | .mf mf => some (.ok mf)
    | _ => some (.error .typeAssert)

/-- The alias of the label found for `s` and a target. -/
def aliasOf (z : Zone) (s target : String) : Option (Except Panic String) :=
  (z.labels.lookup (targetName s target)).bind aliasEntry

/-- The recursive calls of `FindLabels` from `s`. -/
def aliasCalls (z : Zone) (targets : List String) (qts : List RRType) (s : String) : List String :=
  if typeMF ∈ qts then targets.filterMap (fun t => (aliasOf z s t).bind Except.toOption) else []

section
variable {z : Zone} {targets : List String} {qts : List RRType}
variable {f g : String → Res (List LabelMatch)} {s : String} {l : Label} {q : RRType}

/-- The recursive calls are those along the aliases of the targets. -/
lemma mem_aliasCalls {b : String} :
    b ∈ aliasCalls z targets qts s ↔
      typeMF ∈ qts ∧ ∃ t ∈ targets, aliasOf z s t = some (.ok b) := by
  unfold aliasCalls
  split
  · simp only [List.mem_filterMap, Option.bind_eq_some_iff, *]
    constructor
    · rintro ⟨t, ht, e, he, hb⟩
      cases e with
      | error p => cases hb
      | ok b' =>
        cases hb
        exact ⟨trivial, t, ht, he⟩
    · rintro ⟨_, t, ht, he⟩
      exact ⟨t, ht, _, he, rfl⟩
  · simp_all

/-- The case of `MF` by the alias of the label. -/
lemma matchType_mf : matchType z f s l typeMF =
    match aliasEntry l with
    | none => .ok []
    | some (.error p) => .panic p
    | some (.ok b) => f b := by
  simp only [matchType, aliasEntry, LabelOf.firstRR, show typeMF ≠ typeANY by decide, if_false,
    if_true]
  rcases l.recordsOf typeMF with _ | _ | ⟨r, rs⟩
  · rfl
  · rfl
  · rcases r with ⟨⟨hdr, data⟩, weight, loc, test⟩
    cases data <;> rfl

/-- At any other type the recursive call is not used, and the lookup returns. -/
lemma matchType_ne_mf (hq : q ≠ typeMF) : ∃ x, ∀ f, matchType z f s l q = .ok x := by
  unfold matchType
  by_cases ha : q = typeANY
  · exact ⟨_, fun _ => if_pos ha⟩
  · simp only [ha, hq, if_false]
    rcases l.recordsOf q with _ | _ | ⟨r, rs⟩
    · exact ⟨_, fun _ => rfl⟩
    · exact ⟨_, fun _ => rfl⟩
    · exact ⟨_, fun _ => rfl⟩

/-- The match of a type is monotone in the recursive calls. -/
lemma matchType_below (h : ∀ b, Res.Below (f b) (g b)) (q : RRType) :
    Res.Below (matchType z f s l q) (matchType z g s l q) := by
  by_cases hq : q = typeMF
  · subst hq
    rw [matchType_mf, matchType_mf]
    rcases aliasEntry l with _ | p | b
    · exact .refl _
    · exact .refl _
    · exact h b
  · obtain ⟨x, hx⟩ := matchType_ne_mf (z := z) (s := s) (l := l) hq
    exact .inr ((hx f).trans (hx g).symm)

/-- The body depends on its calls only, and grows with them. -/
lemma findBody_congr (h : ∀ b ∈ aliasCalls z targets qts s, f b = g b) :
    findBody z targets qts f s = findBody z targets qts g s := by
  unfold findBody
  congr 1
  apply Res.collect_congr
  intro t ht
  unfold matchTarget
  cases hl : z.labels.lookup (targetName s t) with
  | none => rfl
  | some l =>
    apply Res.collect_congr
    intro q hq
    by_cases hmf : q = typeMF
    · subst hmf
      rw [matchType_mf, matchType_mf]
      cases he : aliasEntry l with
      | none => rfl
      | some e =>
        cases e with
        | error p => rfl
        | ok b => exact h b (mem_aliasCalls.mpr ⟨hq, t, ht, by simp [aliasOf, hl, he]⟩)
    · obtain ⟨x, hx⟩ := matchType_ne_mf (z := z) (s := s) (l := l) hmf
      rw [hx, hx]

/-- The body of the lookup is monotone in the recursive calls. -/
lemma findBody_below (h : ∀ b, Res.Below (f b) (g b)) (s : String) :
    Res.Below (findBody z targets qts f s) (findBody z targets qts g s) := by
  apply Res.Below.bind
  · apply Res.collect_below
    intro t
    unfold matchTarget
    cases z.labels.lookup (targetName s t) with
    | none => exact .refl _
    | some l => exact Res.collect_below (matchType_below h) qts
  · intro found
    exact .refl _

/-- The end of the body: a label without matches matches with type 0. -/
lemma findBody_eq_ok {r : List LabelMatch} : findBody z targets qts f s = .ok r ↔
    ∃ found, Res.collect (matchTarget z qts f s) targets = .ok found ∧
      ((found ≠ [] ∧ r = found) ∨ (found = [] ∧ r = (z.labels.lookup s).toList.map (⟨some ·, 0⟩))) := by
  unfold findBody
  rw [Res.bind_eq_ok]
  constructor
  · rintro ⟨found, hf, e⟩
    refine ⟨found, hf, ?_⟩
    cases found with
    | nil => cases hl : z.labels.lookup s <;> simp_all
    | cons m ms => exact .inl ⟨by simp, by simpa using e.symm⟩
  · rintro ⟨found, hf, h⟩
    refine ⟨found, hf, ?_⟩
    rcases h with ⟨ne, rfl⟩ | ⟨rfl, rfl⟩
    · cases r with
      | nil => exact (ne rfl).elim
      | cons m ms => rfl
    · cases z.labels.lookup s <;> rfl

/-- The lookup for a target ends if the calls along its alias do. -/
lemma matchTarget_ne_diverge {t : String}
    (h : typeMF ∈ qts → ∀ b, aliasOf z s t = some (.ok b) → f b ≠ .diverge) :
    matchTarget z qts f s t ≠ .diverge := by
  unfold matchTarget
  cases hl : z.labels.lookup (targetName s t) with
  | none => simp
  | some l =>
    apply Res.collect_ne_diverge
    intro q hq
    by_cases hmf : q = typeMF
    · subst hmf
      rw [matchType_mf]
      cases he : aliasEntry l with
      | none => simp
      | some e =>
        cases e with
        | error p => simp
        | ok b => exact h hq b (by simp [aliasOf, hl, he])
    · obtain ⟨x, hx⟩ := matchType_ne_mf (z := z) (s := s) (l := l) hmf
      simp [hx]

/-- The lookup for a target panics at its alias only, or in following it. -/
lemma matchTarget_eq_panic {t : String} {p : Panic} : matchTarget z qts f s t = .panic p ↔
    typeMF ∈ qts ∧ (aliasOf z s t = some (.error p) ∨
      ∃ b, aliasOf z s t = some (.ok b) ∧ f b = .panic p) := by
  unfold matchTarget aliasOf
  cases hl : z.labels.lookup (targetName s t) with
  | none => simp
  | some l =>
    have here : matchType z f s l typeMF = .panic p ↔ aliasEntry l = some (.error p) ∨
        ∃ b, aliasEntry l = some (.ok b) ∧ f b = .panic p := by
      rw [matchType_mf]
      rcases aliasEntry l with _ | p' | b <;> simp
    have others : ∀ q, q ≠ typeMF → ∃ x, matchType z f s l q = .ok x := by
      intro q hq
      obtain ⟨x, hx⟩ := matchType_ne_mf (z := z) (s := s) (l := l) hq
      exact ⟨x, hx f⟩
    show Res.collect (matchType z f s l) qts = .panic p ↔ typeMF ∈ qts ∧ (aliasEntry l = _ ∨ _)
    rw [Res.collect_eq_panic]
    constructor
    · rintro ⟨pre, q, post, rfl, _, hq⟩
      by_cases hmf : q = typeMF
      · subst hmf
        exact ⟨by simp, here.mp hq⟩
      · obtain ⟨x, hx⟩ := others q hmf
        rw [hx] at hq
        cases hq
    · rintro ⟨hmf, h⟩
      -- the types before the first `MF` are looked up without a panic
      obtain ⟨pre, post, rfl, hpre⟩ := List.eq_append_cons_of_mem hmf
      refine ⟨pre, typeMF, post, rfl, ?_, here.mpr h⟩
      intro q hq
      exact others q (fun e => hpre (e ▸ hq))

/-- A target that was looked up has had its alias followed. -/
lemma matchTarget_follows {t b : String} {x : List LabelMatch} (h : matchTarget z qts f s t = .ok x)
    (hq : typeMF ∈ qts) (hb : aliasOf z s t = some (.ok b)) : ∃ y, f b = .ok y ∧ y ⊆ x := by
  obtain ⟨l, hl, hb⟩ := Option.bind_eq_some_iff.mp hb
  simp only [matchTarget, hl] at h
  obtain ⟨y, hy, sub⟩ := Res.collect_mem h hq
  rw [matchType_mf, hb] at hy
  exact ⟨y, hy, sub⟩

/-- The body ends if all calls do. -/
lemma findBody_ne_diverge (h : ∀ b ∈ aliasCalls z targets qts s, f b ≠ .diverge) :
    findBody z targets qts f s ≠ .diverge := by
  intro hd
  rcases Res.bind_eq_diverge.mp hd with hd | ⟨found, _, hd⟩
  · revert hd
    apply Res.collect_ne_diverge
    intro t ht
    apply matchTarget_ne_diverge
    intro hq b hb
    exact h b (mem_aliasCalls.mpr ⟨hq, t, ht, hb⟩)
  · cases found with
    | nil => cases hl : z.labels.lookup s <;> simp [hl] at hd
    | cons m ms => cases hd

/-- The body panics if and only if the loop over the targets does. -/
lemma findBody_eq_panic {p : Panic} : findBody z targets qts f s = .panic p ↔
    Res.collect (matchTarget z qts f s) targets = .panic p := by
  unfold findBody
  rw [Res.bind_eq_panic]
  constructor
  · rintro (h | ⟨found, _, h⟩)
    · exact h
    · cases found with
      | nil => cases hl : z.labels.lookup s <;> simp [hl] at h
      | cons m ms => cases h
  · exact .inl

/-- A lookup that returns has gone through every target and type. -/
lemma findBody_visits {r : List LabelMatch} (h : findBody z targets qts f s = .ok r)
    {t : String} (ht : t ∈ targets) (hl : z.labels.lookup (targetName s t) = some l) (hq : q ∈ qts) :
    ∃ x, matchType z f s l q = .ok x ∧ x ⊆ r := by
  obtain ⟨found, hf, hr⟩ := findBody_eq_ok.mp h
  obtain ⟨x, hx, sub⟩ := Res.collect_mem hf ht
  simp only [matchTarget, hl] at hx
  obtain ⟨y, hy, sub'⟩ := Res.collect_mem hx hq
  refine ⟨y, hy, ?_⟩
  rcases hr with ⟨_, rfl⟩ | ⟨rfl, _⟩
  · exact List.Subset.trans sub' sub
  · intro m hm
    cases sub (sub' hm)

/-- Every match of a lookup comes from a target and a type, or from the label of `s` itself. -/
lemma findBody_mem {r : List LabelMatch} (h : findBody z targets qts f s = .ok r)
    {m : LabelMatch} (hm : m ∈ r) :
    (∃ t ∈ targets, ∃ l, z.labels.lookup (targetName s t) = some l ∧
      ∃ q ∈ qts, ∃ x, matchType z f s l q = .ok x ∧ m ∈ x) ∨
      ∃ l, z.labels.lookup s = some l ∧ m = ⟨some l, 0⟩ := by
  obtain ⟨found, hf, hr⟩ := findBody_eq_ok.mp h
  rcases hr with ⟨_, rfl⟩ | ⟨_, rfl⟩
  · obtain ⟨t, ht, x, hx, hmx⟩ := Res.mem_collect hf hm
    unfold matchTarget at hx
    cases hl : z.labels.lookup (targetName s t) with
    | none =>
      simp only [hl] at hx
      cases hx
      cases hmx
    | some l =>
      simp only [hl] at hx
      obtain ⟨q, hq, y, hy, hmy⟩ := Res.mem_collect hx hmx
      exact .inl ⟨t, ht, l, hl, q, hq, y, hy, hmy⟩
  · cases hl : z.labels.lookup s with
    | none => simp [hl] at hm
    | some l =>
      simp only [hl, Option.toList_some, List.map_cons, List.map_nil, List.mem_singleton] at hm
      exact .inr ⟨l, rfl, hm⟩

end

/-- `FindLabels` as a recursion along aliases. -/
def lookupRec (z : Zone) (targets : List String) (qts : List RRType) :
    Recursion String (List LabelMatch) where
  body := findBody z targets qts
  calls := aliasCalls z targets qts
  local_calls := findBody_congr
  mono := findBody_below
  total := findBody_ne_diverge
  strict := by
    intro f s r h b hb
    obtain ⟨hq, t, ht, he⟩ := mem_aliasCalls.mp hb
    obtain ⟨l, hl, hb⟩ := Option.bind_eq_some_iff.mp he
    obtain ⟨x, hx, _⟩ := findBody_visits h ht hl hq
    rw [matchType_mf, hb] at hx
    exact ⟨x, hx⟩

/-- `findLabels` is the run of the recursion. -/
lemma findLabels_eq_run (z : Zone) (targets : List String) (qts : List RRType) (fuel : Nat) :
    findLabels z targets qts fuel = (lookupRec z targets qts).run fuel := by
  induction fuel with
  | zero => rfl
  | succ n ih =>
    funext s
    rw [findLabels, ih]
    rfl

end GeoDNS.Zones
