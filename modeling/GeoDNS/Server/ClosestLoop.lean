import GeoDNS.Server.AliasLeak
import GeoDNS.Zones.Closest

/-!
# The place of the client, match by match

`serve` goes through the matches of a query and hands each label to `Picker`, with the place of the client
if the label is one with `closest`. `answerTrace` is that loop with a record of what is handed over; without
the record it is `answerLoop` (`answerTrace_fst`).

The place is kept in one variable for all matches and is cleared for a label without `closest`, so that a
label with it that comes later gets none (`location_forgotten`). `closest_per_label_iff` says when this
happens. A match comes after another only if that has nothing to serve, which is what `PassedOver` says
without regard to the random choices of `Picker` (`picker_passes_iff`).
-/

namespace GeoDNS.Server
open GeoDNS.Lib GeoDNS.Dns GeoDNS.Health GeoDNS.Targeting GeoDNS.Zones

/-- The records picked, under the name asked for (in Go `Server.serve`). -/
def named (qname : String) (servers : List (Option Record)) : Res (List RR) :=
  servers.mapM (fun server => do
    let record ← Res.get server .nilDeref
    return record.rr.setName qname)

/-- The loop over the matches, with the matches that are handed to `Picker` and the places that are handed
    over with them. -/
def answerTrace (env : Env) (qname : String) :
    List LabelMatch → Option Location → Nat → Res (List RR) × List (LabelMatch × Option Location)
  | [], _, _ => (.ok [], [])
  | found :: rest, location, k =>
    match found.label with
    | none => (.panic .nilDeref, [])
    | some label =>
      let location := if label.closest then location else none
      match picker env.status env.geod env.chance label found.type label.maxHosts location k with
      | .panic p => (.panic p, [(found, location)])
      | .diverge => (.diverge, [(found, location)])
      | .ok (servers, k) =>
        match named qname servers with
        | .panic p => (.panic p, [(found, location)])
        | .diverge => (.diverge, [(found, location)])
        | .ok [] =>
          let (answer, calls) := answerTrace env qname rest location k
          (answer, (found, location) :: calls)
        | .ok (rr :: rrs) => (.ok (rr :: rrs), [(found, location)])

/-- Is the label of this match one with `closest`? -/
def isClosest (found : LabelMatch) : Bool :=
  match found.label with
  | some l => l.closest
  | none => false

/-- The health of all records that `Picker` looks at for a query of this type can be looked up. -/
def Known (status : String → Res StatusType) (l : Label) (q : RRType) : Prop :=
  ∀ t rs, (q ≠ typeANY → t = q) → l.recordsOf t = some rs → ∃ x, candidates status l t rs = .ok x

/-- A match with a label that has nothing to serve. -/
def PassedOver (status : String → Res StatusType) (found : LabelMatch) : Prop :=
  ∃ l, found.label = some l ∧ Known status l found.type ∧ NothingFor status l l.maxHosts found.type

section
variable {env : Env} {qname : String} {labelMatches rest : List LabelMatch} {location : Option Location}
variable {found : LabelMatch} {k : Nat}

/-- The loop with its trace answers as the loop. -/
lemma answerTrace_fst (env : Env) (qname : String) (labelMatches : List LabelMatch)
    (location : Option Location) (k : Nat) :
    (answerTrace env qname labelMatches location k).1 = answerLoop env qname labelMatches location k := by
  induction labelMatches generalizing location k with
  | nil => rfl
  | cons found rest ih =>
    rw [answerTrace, answerLoop]
    cases found.label with
    | none => rfl
    | some label =>
      rw [Res.get_some, Res.ok_bind]
      dsimp only
      cases picker env.status env.geod env.chance label found.type label.maxHosts
        (if label.closest then location else none) k with
      | panic p => rfl
      | diverge => rfl
      | ok x =>
        obtain ⟨servers, k'⟩ := x
        change _ = named qname servers >>= _
        dsimp only
        cases named qname servers with
        | panic p => rfl
        | diverge => rfl
        | ok rrs =>
          cases rrs with
          | nil => exact ih _ k'
          | cons rr rrs => rfl

/-! ## What is passed over -/

variable {status : String → Res StatusType} {geod : Geodesy} {chance : Chance} {l : Label} {t q : RRType}
variable {max : Int} {xs : List (Option Record)} {k' : Nat}

/-- A type with nothing to serve is passed over. -/
lemma pickType_blank (geod : Geodesy) (chance : Chance) (location : Option Location) (k : Nat)
    (balanced : Balanced l)
    (known : ∀ rs, l.recordsOf t = some rs → ∃ x, candidates status l t rs = .ok x)
    (blank : Blank status l max t) :
    pickType status geod chance l t max location k = .ok ([], k) := by
  unfold pickType
  cases hrec : l.recordsOf t with
  | none => rfl
  | some rs =>
    obtain ⟨⟨servers, sum⟩, hc⟩ := known rs hrec
    dsimp only
    rw [hc, Res.ok_bind]
    dsimp only
    rcases blank rs servers sum hrec hc with rfl | ⟨draws, limit⟩
    · -- without candidates there is no weight either
      have zero : sum = 0 := (candidates_eq_ok hc).2 (balanced.weights hrec)
      rw [if_pos (unbalanced_of_weightless hc zero)]
      rfl
    · obtain ⟨servers', sum', hcl, _⟩ :=
        closest_returns geod location t sum (pickLimit_le t max servers.length)
      rw [draws, if_neg (by decide), limit, if_neg (by decide)]
      rw [limit] at hcl
      rw [hcl]
      rfl

/-- A pick that returns has looked at all health tests. -/
lemma pickType_known (h : pickType status geod chance l t max location k = .ok (xs, k')) :
    ∀ rs, l.recordsOf t = some rs → ∃ x, candidates status l t rs = .ok x := by
  intro rs hrec
  unfold pickType at h
  rw [hrec] at h
  obtain ⟨x, hc, _⟩ := Res.bind_eq_ok.mp h
  exact ⟨x, hc⟩

/-- Over types that are all blank, nothing is picked. -/
lemma pickTypes_blank (geod : Geodesy) (chance : Chance) (location : Option Location) (k : Nat)
    (balanced : Balanced l) {ts : List RRType} (own : ∀ t ∈ ts, t ≠ typeANY)
    (known : ∀ t rs, l.recordsOf t = some rs → ∃ x, candidates status l t rs = .ok x)
    (blank : ∀ t, Blank status l max t) :
    pickTypes status geod chance l max location ts k = .ok ([], k) := by
  induction ts with
  | nil => rfl
  | cons t ts ih =>
    rw [pickTypes, if_neg (own t List.mem_cons_self),
      pickType_blank geod chance location k balanced (known t) (blank t), Res.ok_bind]
    dsimp only
    rw [ih (fun t ht => own t (List.mem_cons_of_mem _ ht))]
    rfl

/-- `Picker` comes back without records exactly if the label has nothing to serve. -/
lemma picker_passes_iff (geod : Geodesy) (chance : Chance) (location : Option Location) (k : Nat)
    (balanced : Balanced l) :
    (∃ k', picker status geod chance l q max location k = .ok ([], k')) ↔
      Known status l q ∧ NothingFor status l max q := by
  constructor
  · rintro ⟨k', h⟩
    refine ⟨?_, (picker_eq_nil h).mp rfl⟩
    intro t rs ht hrec
    unfold picker at h
    by_cases hq : q = typeANY
    · rw [if_pos hq] at h
      have mem : t ∈ l.records.keys := AList.lookup_isSome.mp (by
        rw [LabelOf.recordsOf] at hrec
        simp [hrec])
      obtain ⟨k1, ys, k2, hpick, _⟩ := pickTypes_turn h ((chance.order_perm k _).mem_iff.mpr mem)
      exact pickType_known hpick rs hrec
    · rw [if_neg hq] at h
      rw [ht hq] at hrec ⊢
      exact pickType_known h rs hrec
  · rintro ⟨known, nothing⟩
    unfold NothingFor at nothing
    unfold picker
    by_cases hq : q = typeANY
    · rw [if_pos hq] at nothing ⊢
      refine ⟨k + 1, pickTypes_blank geod chance location (k + 1) balanced ?_
        (fun t rs => known t rs (fun ne => (ne hq).elim)) nothing⟩
      rintro t ht rfl
      have mem := (chance.order_perm k _).mem_iff.mp ht
      have absent : l.records.lookup typeANY = none := balanced.any
      exact AList.lookup_eq_none.mp absent mem
    · rw [if_neg hq] at nothing ⊢
      exact ⟨k, pickType_blank geod chance location k balanced
        (fun rs => known q rs (fun _ => rfl)) nothing⟩

/-! ## What is handed over -/

/-- The place that is left after these matches. -/
def remembered (labelMatches : List LabelMatch) (location : Option Location) : Option Location :=
  if labelMatches.all isClosest then location else none

/-- What is remembered of the location with one more match. -/
lemma remembered_cons (found : LabelMatch) (rest : List LabelMatch) (location : Option Location) :
    remembered (found :: rest) location =
      remembered rest (if isClosest found then location else none) := by
  unfold remembered
  rw [List.all_cons]
  cases isClosest found <;> cases rest.all isClosest <;> rfl

/-- There are no answers exactly for no records. -/
lemma named_eq_nil {servers : List (Option Record)} : named qname servers = .ok [] ↔ servers = [] := by
  constructor
  · intro h
    have length := (Res.mapM_eq_ok.mp h).length_eq
    exact List.length_eq_zero_iff.mp length
  · rintro rfl
    rfl

/-- A match is handed over first, and the others only if it is passed over. -/
lemma answerTrace_cons (env : Env) (qname : String) (rest : List LabelMatch) (location : Option Location)
    (k : Nat) (hl : found.label = some l) (balanced : Balanced l) :
    ∃ calls, (answerTrace env qname (found :: rest) location k).2 =
        (found, if isClosest found then location else none) :: calls ∧
      (PassedOver env.status found → ∃ k', calls =
        (answerTrace env qname rest (if isClosest found then location else none) k').2) ∧
      (¬ PassedOver env.status found → calls = []) := by
  have closest : isClosest found = l.closest := by rw [isClosest, hl]
  have passes : PassedOver env.status found ↔ ∃ k', picker env.status env.geod env.chance l found.type
      l.maxHosts (if l.closest then location else none) k = .ok ([], k') := by
    rw [picker_passes_iff _ _ _ _ balanced]
    constructor
    · rintro ⟨l', hl', h⟩
      rw [hl] at hl'
      cases hl'
      exact h
    · exact fun h => ⟨l, hl, h⟩
  rw [closest, passes, answerTrace, hl]
  dsimp only
  cases hp : picker env.status env.geod env.chance l found.type l.maxHosts
      (if l.closest then location else none) k with
  | panic p => exact ⟨[], rfl, by simp, fun _ => rfl⟩
  | diverge => exact ⟨[], rfl, by simp, fun _ => rfl⟩
  | ok x =>
    obtain ⟨servers, k'⟩ := x
    dsimp only
    cases hn : named qname servers with
    | panic p =>
      refine ⟨[], rfl, ?_, fun _ => rfl⟩
      rintro ⟨k'', e⟩
      cases e
      cases hn
    | diverge =>
      refine ⟨[], rfl, ?_, fun _ => rfl⟩
      rintro ⟨k'', e⟩
      cases e
      cases hn
    | ok rrs =>
      cases rrs with
      | nil =>
        refine ⟨_, rfl, fun _ => ⟨k', rfl⟩, fun ne => (ne ?_).elim⟩
        rw [named_eq_nil.mp hn]
        exact ⟨k', rfl⟩
      | cons rr rrs =>
        refine ⟨[], rfl, ?_, fun _ => rfl⟩
        rintro ⟨k'', e⟩
        cases e
        cases hn

/-- A match is handed over if and only if all matches before it are passed over, with the place that is
    left. -/
lemma mem_answerTrace {c : LabelMatch × Option Location}
    (balanced : ∀ m ∈ labelMatches, ∀ l, m.label = some l → Balanced l) :
    c ∈ (answerTrace env qname labelMatches location k).2 ↔
      ∃ pre found post, labelMatches = pre ++ found :: post ∧
        (∀ m ∈ pre, PassedOver env.status m) ∧ found.label.isSome ∧
        c = (found, remembered (pre ++ [found]) location) := by
  induction labelMatches generalizing location k with
  | nil => simp [answerTrace]
  | cons first rest ih =>
    cases hl : first.label with
    | none =>
      have none : (answerTrace env qname (first :: rest) location k).2 = [] := by
        rw [answerTrace, hl]
      rw [none]
      refine iff_of_false (by simp) ?_
      rintro ⟨pre, found, post, e, before, label, _⟩
      cases pre with
      | nil =>
        cases e
        rw [hl] at label
        cases label
      | cons m pre =>
        cases e
        obtain ⟨l, hl', _⟩ := before first List.mem_cons_self
        rw [hl] at hl'
        cases hl'
    | some l =>
      obtain ⟨calls, e, passed, kept⟩ :=
        answerTrace_cons env qname rest location k hl (balanced first List.mem_cons_self l hl)
      have balanced' : ∀ m ∈ rest, ∀ l, m.label = some l → Balanced l :=
        fun m hm => balanced m (List.mem_cons_of_mem _ hm)
      rw [e, List.mem_cons]
      constructor
      · rintro (rfl | hc)
        · refine ⟨[], first, rest, rfl, by simp, by simp [hl], ?_⟩
          rw [List.nil_append, remembered_cons]
          rfl
        · by_cases skipped : PassedOver env.status first
          · obtain ⟨k', rfl⟩ := passed skipped
            obtain ⟨pre, found, post, rfl, before, label, rfl⟩ := (ih balanced').mp hc
            refine ⟨first :: pre, found, post, rfl, List.forall_mem_cons.mpr ⟨skipped, before⟩, label, ?_⟩
            rw [List.cons_append, remembered_cons]
          · rw [kept skipped] at hc
            cases hc
      · rintro ⟨pre, found, post, split, before, label, rfl⟩
        cases pre with
        | nil =>
          cases split
          refine .inl ?_
          rw [List.nil_append, remembered_cons]
          rfl
        | cons m pre =>
          cases split
          obtain ⟨skipped, before⟩ := List.forall_mem_cons.mp before
          obtain ⟨k', rfl⟩ := passed skipped
          refine .inr ((ih balanced').mpr ⟨pre, found, post, rfl, before, label, ?_⟩)
          rw [List.cons_append, remembered_cons]

/-- Every match is handed to `Picker` with the place of the client if its own label is one with `closest`,
    and without a place otherwise, exactly if the place is not known, or no label with `closest` comes
    after one without that is passed over. -/
theorem closest_per_label_iff {ext : Externals} {z : Zone} {targets : List String} {fuel : Nat}
    {s : String} (env : Env) (qname : String) (location : Option Location) (k : Nat)
    (installed : Installed ext z)
    (h : findLabels z targets [typeMF, typeCNAME, q] fuel s = .ok labelMatches) :
    (∀ c ∈ (answerTrace env qname labelMatches location k).2,
        c.2 = if isClosest c.1 then location else none) ↔
      location = none ∨ ∀ pre found post, labelMatches = pre ++ found :: post →
        (∀ m ∈ pre, PassedOver env.status m) → isClosest found → ∀ m ∈ pre, isClosest m := by
  have balanced : ∀ m ∈ labelMatches, ∀ l, m.label = some l → Balanced l := by
    intro m hm l hl
    obtain ⟨name, hname⟩ := (match_label h hm).2 l hl
    exact installed.balanced hname
  constructor
  · intro each
    cases location with
    | none => exact .inl rfl
    | some here =>
      refine .inr ?_
      intro pre found post split before closest m hm
      have label : found.label.isSome := by
        unfold isClosest at closest
        cases hl : found.label with
        | none =>
          rw [hl] at closest
          cases closest
        | some l => rfl
      have call := each _ ((mem_answerTrace balanced).mpr ⟨pre, found, post, split, before, label, rfl⟩)
      rw [if_pos closest] at call
      dsimp only [remembered] at call
      split at call
      case isTrue all => exact List.all_eq_true.mp all m (List.mem_append_left _ hm)
      case isFalse => cases call
  · intro cond c hc
    obtain ⟨pre, found, post, split, before, label, rfl⟩ := (mem_answerTrace balanced).mp hc
    dsimp only
    rcases cond with rfl | cond
    · simp [remembered]
    · by_cases closest : isClosest found
      · have all : (pre ++ [found]).all isClosest := by
          rw [List.all_append, List.all_eq_true.mpr (cond pre found post split before closest)]
          simp [closest]
        rw [if_pos closest]
        exact if_pos all
      · have some : ¬ (pre ++ [found]).all isClosest := by
          simp [closest]
        rw [if_neg closest]
        exact if_neg some

end

/-- The zone `example.com` with addresses of `www`, served by place, and none of them for clients in
    Europe, whether by place (in Denmark) or not. -/
def smallClosest : Zone :=
  smallZone [("www", .obj [("closest", .bool true), ("a", .arr [.arr [.str "192.0.2.1"]])]),
    ("www.europe", .obj [("max_hosts", .str "0"), ("a", .arr [.arr [.str "192.0.2.2"]])]),
    ("www.dk", .obj [("closest", .bool true), ("max_hosts", .str "0"),
      ("a", .arr [.arr [.str "192.0.2.3"]])])]

/-- A client in Denmark without the target for Europe: the label for Denmark is passed over, and `www` is
    handed to `Picker` with the place all the same. -/
theorem location_kept : ∃ passed found,
    findLabels smallClosest ["dk", "@"] [typeMF, typeCNAME, typeA] 1 "www" = .ok [passed, found] ∧
      isClosest passed ∧ isClosest found ∧
      (answerTrace smallEnv "www.example.com." [passed, found] (some (smallPlace "dk" "europe")) 0).2.map
        Prod.fst = [passed, found] ∧
      ∀ c ∈ (answerTrace smallEnv "www.example.com." [passed, found] (some (smallPlace "dk" "europe")) 0).2,
        c.2 = if isClosest c.1 then some (smallPlace "dk" "europe") else none := by
  have installed : Installed smallExternals smallClosest := .accepted (smallZone_accepted rfl)
  obtain ⟨passed, found, h, closest, closest', calls⟩ : ∃ passed found,
      findLabels smallClosest ["dk", "@"] [typeMF, typeCNAME, typeA] 1 "www" = .ok [passed, found] ∧
      isClosest passed ∧ isClosest found ∧
      (answerTrace smallEnv "www.example.com." [passed, found] (some (smallPlace "dk" "europe")) 0).2.map
        Prod.fst = [passed, found] :=
    ⟨_, _, rfl, rfl, rfl, rfl⟩
  refine ⟨passed, found, h, closest, closest', calls,
    (closest_per_label_iff smallEnv "www.example.com." _ 0 installed h).mpr (.inr ?_)⟩
  intro pre m post split _ _ m' hm'
  have mem : m' ∈ [passed, found] := by
    rw [split]
    exact List.mem_append_left _ hm'
  rcases List.mem_pair.mp mem with rfl | rfl
  · exact closest
  · exact closest'

/-- For a client in Europe, the label for Europe is passed over, and `www` is handed to `Picker` without a
    place. -/
theorem location_forgotten : Accepted smallExternals smallClosest ∧ ∃ found c,
    findLabels smallClosest ["europe", "@"] [typeMF, typeCNAME, typeA] 1 "www" = .ok found ∧
      c ∈ (answerTrace smallEnv "www.example.com." found (some (smallPlace "dk" "europe")) 0).2 ∧
      isClosest c.1 = true ∧ c.2 = none ∧
      c.2 ≠ if isClosest c.1 then some (smallPlace "dk" "europe") else none := by
  refine ⟨smallZone_accepted rfl, _, (_, none), rfl, List.mem_cons_of_mem _ List.mem_cons_self, rfl, rfl, ?_⟩
  intro e
  cases e

end GeoDNS.Server
