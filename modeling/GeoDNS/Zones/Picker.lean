import GeoDNS.Lib.MachineDraw
import GeoDNS.Lib.Nearest
import GeoDNS.Zones.Zone

/-!
# Picking records

`zones/picker.go`: the records of a label that answer a query, filtered by health, chosen by distance
and drawn by weight. What depends on the outside is a parameter: the health status of a test name, the
distance between two places, and the random choices of Go, which are the numbers it draws and the orders
in which it ranges over a map.

`pickType_returns` is the specification that the rest of the development uses: with non-negative weights
that do not overflow, and a limit that is not negative, `Picker` returns, all its slots are filled from the
records that pass the health filter, and whether there are any depends neither on the random choices nor on
the place.
-/

namespace GeoDNS.Zones
open GeoDNS.Lib GeoDNS.Dns GeoDNS.Health GeoDNS.Targeting

/-- The random choices of Go: the numbers it draws, and the order of a map's keys when it ranges over it.
    Both are counted by one counter. -/
structure Chance where
  draws : Nat → Nat
  order : Nat → List RRType → List RRType
  order_perm : ∀ k keys, (order k keys).Perm keys

/-- Records whose weights are not negative and have a sum below the largest integer. -/
abbrev Moderate (rs : List Record) : Prop :=
  Machine.Moderate Record.weight rs

/-- Is this record served, as far as its health is concerned? -/
def passesHealth (status : String → Res StatusType) (r : Record) : Res Bool :=
  if r.test = "" then .ok true
  else do
    let st ← status r.test
    return st == statusHealthy

/-- Remove unhealthy servers, and sum up the weights of the others (Go `Zone.filterHealth`). -/
def filterHealth (status : String → Res StatusType) : List Record → Res (List Record × Int64)
  | [] => .ok ([], 0)
  | s :: servers => do
    let keep ← passesHealth status s
    let (kept, sum) ← filterHealth status servers
    return if keep then (s :: kept, s.weight + sum) else (kept, sum)

/-- The candidates of `Picker` among the records of a type, and their total weight: all records, unless
    the label has a health test. -/
def candidates (status : String → Res StatusType) (l : Label) (q : RRType) (labelRR : List Record) :
    Res (List Record × Int64) :=
  match l.test with
  | none => .ok (labelRR, l.weightOf q)
  | some _ => filterHealth status labelRR

/-- The servers nearest to the client, if its place is known and there are more than `max`. -/
def closest (geod : Geodesy) (location : Option Location) (q : RRType) (max : Int)
    (servers : List Record) (sum : Int64) : Res (List Record × Int64) :=
  match location with
  | none => .ok (servers, sum)
  | some here =>
    if (q = typeA ∨ q = typeAAAA) ∧ max < servers.length then do
      let chosen ← nearest maxDistance (21 / 20) (fun s => geod.distance here s.loc) max servers
      return (chosen, (chosen.map Record.weight).sum)
    else .ok (servers, sum)

/-- How many of `n` candidates are picked. -/
def pickLimit (q : RRType) (max : Int) (n : Nat) : Int :=
  let max := if q = typeCNAME ∨ q = typeMF then 1 else max
  if max > n then n else max

/-- Are all candidates returned as they are? -/
def unbalanced (l : Label) (q : RRType) (sum : Int64) : Bool :=
  (l.test.isSome ∧ sum = 0) ∨ l.weightOf q = 0

/-- `Zone.Picker` for one record type. -/
def pickType (status : String → Res StatusType) (geod : Geodesy) (chance : Chance) (l : Label)
    (q : RRType) (max : Int) (location : Option Location) (k : Nat) :
    Res (List (Option Record) × Nat) :=
  match l.recordsOf q with
  | none => .ok ([], k)
  | some labelRR => do
    let (servers, sum) ← candidates status l q labelRR
    if unbalanced l q sum then return (servers.map some, k)
    else
      let max := pickLimit q max servers.length
      if max < 0 then .panic .range
      else
        let (servers, sum) ← closest geod location q max servers sum
        draw Record.weight (Machine.intn chance.draws) max.toNat k sum servers

/-- The loop over all record types of `Zone.Picker` for a query of type `ANY`. A type `ANY` among them
    would be looked up the same way again, without end. -/
def pickTypes (status : String → Res StatusType) (geod : Geodesy) (chance : Chance) (l : Label)
    (max : Int) (location : Option Location) : List RRType → Nat → Res (List (Option Record) × Nat)
  | [], k => .ok ([], k)
  | t :: ts, k => do
    let (records, k) ← (if t = typeANY then .diverge
      else pickType status geod chance l t max location k)
    let (rest, k) ← pickTypes status geod chance l max location ts k
    return (records ++ rest, k)

/-- Go `Zone.Picker`, beginning with the `k`-th random choice. -/
def picker (status : String → Res StatusType) (geod : Geodesy) (chance : Chance) (l : Label)
    (q : RRType) (max : Int) (location : Option Location) (k : Nat) :
    Res (List (Option Record) × Nat) :=
  if q = typeANY then
    pickTypes status geod chance l max location (chance.order k l.records.keys) (k + 1)
  else pickType status geod chance l q max location k

section
variable {status : String → Res StatusType} {geod : Geodesy} {chance : Chance} {l : Label}
variable {q : RRType} {max : Int} {location : Option Location} {k k' : Nat}
variable {servers kept : List Record} {sum : Int64} {xs : List (Option Record)} {r : Record}

/-! ## The health filter -/

/-- What is kept are the records that pass, with their weight. -/
lemma filterHealth_eq_ok (h : filterHealth status servers = .ok (kept, sum)) :
    kept.Sublist servers ∧ sum = (kept.map Record.weight).sum ∧
      ∀ r, r ∈ kept ↔ r ∈ servers ∧ passesHealth status r = .ok true := by
  induction servers generalizing kept sum with
  | nil =>
    cases h
    exact ⟨.refl _, rfl, by simp⟩
  | cons s servers ih =>
    obtain ⟨keep, hkeep, h⟩ := Res.bind_eq_ok.mp h
    obtain ⟨⟨kept', sum'⟩, h', h⟩ := Res.bind_eq_ok.mp h
    obtain ⟨sub, hsum, mem⟩ := ih h'
    cases keep with
    | true =>
      cases h
      refine ⟨sub.cons_cons s, by rw [hsum, List.map_cons, List.sum_cons], ?_⟩
      intro r
      rw [List.mem_cons, List.mem_cons, mem]
      constructor
      · rintro (rfl | ⟨hr, hp⟩)
        · exact ⟨.inl rfl, hkeep⟩
        · exact ⟨.inr hr, hp⟩
      · rintro ⟨rfl | hr, hp⟩
        · exact .inl rfl
        · exact .inr ⟨hr, hp⟩
    | false =>
      cases h
      refine ⟨sub.cons s, hsum, ?_⟩
      intro r
      rw [List.mem_cons, mem]
      constructor
      · rintro ⟨hr, hp⟩
        exact ⟨.inr hr, hp⟩
      · rintro ⟨rfl | hr, hp⟩
        · rw [hkeep] at hp
          cases hp
        · exact ⟨hr, hp⟩

/-- The filter returns if the health of every record can be told. -/
lemma filterHealth_returns_iff :
    (∃ kept sum, filterHealth status servers = .ok (kept, sum)) ↔
      ∀ r ∈ servers, ∃ keep, passesHealth status r = .ok keep := by
  induction servers with
  | nil => exact iff_of_true ⟨[], 0, rfl⟩ (by simp)
  | cons s servers ih =>
    rw [List.forall_mem_cons, ← ih]
    constructor
    · rintro ⟨kept, sum, h⟩
      obtain ⟨keep, hkeep, h⟩ := Res.bind_eq_ok.mp h
      obtain ⟨⟨kept', sum'⟩, h', _⟩ := Res.bind_eq_ok.mp h
      exact ⟨⟨keep, hkeep⟩, kept', sum', h'⟩
    · rintro ⟨⟨keep, hkeep⟩, kept, sum, h⟩
      rw [filterHealth, hkeep, h]
      exact ⟨_, _, rfl⟩

/-- The filter returns if every test has a status. -/
lemma filterHealth_returns (known : ∀ r ∈ servers, ∃ st, status r.test = .ok st) :
    ∃ kept sum, filterHealth status servers = .ok (kept, sum) := by
  refine filterHealth_returns_iff.mpr (fun r hr => ?_)
  unfold passesHealth
  split
  · exact ⟨true, rfl⟩
  · obtain ⟨st, hst⟩ := known r hr
    exact ⟨st == statusHealthy, by rw [hst]; rfl⟩

/-- Records without tests are all kept. -/
lemma filterHealth_untested (untested : ∀ r ∈ servers, r.test = "") :
    filterHealth status servers = .ok (servers, (servers.map Record.weight).sum) := by
  induction servers with
  | nil => rfl
  | cons s servers ih =>
    have passes : passesHealth status s = .ok true := if_pos (untested s List.mem_cons_self)
    rw [filterHealth, passes, ih (fun r hr => untested r (List.mem_cons_of_mem _ hr))]
    rfl

/-- The candidates are some of the records, with the sum of their weights. -/
lemma candidates_eq_ok {labelRR : List Record}
    (h : candidates status l q labelRR = .ok (servers, sum)) :
    servers.Sublist labelRR ∧
      (l.weightOf q = (labelRR.map Record.weight).sum → sum = (servers.map Record.weight).sum) := by
  unfold candidates at h
  split at h
  · cases h
    exact ⟨.refl _, id⟩
  · obtain ⟨sub, hsum, _⟩ := filterHealth_eq_ok h
    exact ⟨sub, fun _ => hsum⟩

/-- If all health tests are known, there are candidates. -/
lemma candidates_returns {labelRR : List Record}
    (known : ∀ r ∈ labelRR, ∃ st, status r.test = .ok st) :
    ∃ servers sum, candidates status l q labelRR = .ok (servers, sum) := by
  unfold candidates
  split
  · exact ⟨labelRR, _, rfl⟩
  · exact filterHealth_returns known

/-! ## The choice by distance -/

/-- The choice of the closest returns if there are enough records. -/
lemma closest_returns (geod : Geodesy) (location : Option Location) (q : RRType) (sum : Int64)
    (enough : max ≤ servers.length) :
    ∃ servers' sum', closest geod location q max servers sum = .ok (servers', sum') ∧
      servers'.Sublist servers ∧ max ≤ servers'.length ∧
      (sum = (servers.map Record.weight).sum → sum' = (servers'.map Record.weight).sum) := by
  unfold closest
  cases location with
  | none => exact ⟨servers, sum, rfl, .refl _, enough, id⟩
  | some here =>
    dsimp only
    split
    · have bounds : ∀ s ∈ servers, 0 ≤ geod.distance here s.loc ∧
          geod.distance here s.loc ≤ maxDistance :=
        fun s _ => ⟨geod.distance_nonneg here s.loc, geod.distance_le here s.loc⟩
      have slack : (1 : Rat) ≤ 21 / 20 := by norm_num
      obtain ⟨chosen, h, sub, le⟩ := nearest_returns slack bounds enough
      rw [h]
      exact ⟨chosen, _, rfl, sub, le, fun _ => rfl⟩
    · exact ⟨servers, sum, rfl, .refl _, enough, id⟩

/-- Not more are picked than there are. -/
lemma pickLimit_le (q : RRType) (max : Int) (n : Nat) : pickLimit q max n ≤ n := by
  dsimp only [pickLimit]
  split_ifs <;> omega

/-- The limit is not negative if the maximum is not. -/
lemma pickLimit_nonneg (q : RRType) (n : Nat) (h : 0 ≤ max) : 0 ≤ pickLimit q max n := by
  dsimp only [pickLimit]
  split_ifs <;> omega

/-! ## What is picked -/

/-- Whatever is picked for a type is one of its candidates. -/
lemma pickType_candidate (h : pickType status geod chance l q max location k = .ok (xs, k'))
    (hr : some r ∈ xs) : ∃ labelRR servers sum, l.recordsOf q = some labelRR ∧
      candidates status l q labelRR = .ok (servers, sum) ∧ r ∈ servers := by
  unfold pickType at h
  cases hrec : l.recordsOf q with
  | none =>
    rw [hrec] at h
    cases h
    cases hr
  | some labelRR =>
    rw [hrec] at h
    obtain ⟨⟨servers, sum⟩, hc, h⟩ := Res.bind_eq_ok.mp h
    refine ⟨labelRR, servers, sum, rfl, hc, ?_⟩
    dsimp only at h
    split_ifs at h with _ neg
    · cases h
      simpa using hr
    · obtain ⟨servers', sum', hcl, sub', _⟩ :=
        closest_returns geod location q sum (pickLimit_le q max servers.length)
      rw [hcl] at h
      exact sub'.subset (draw_mem h hr)

/-- What is picked over several types is a candidate of one of them. -/
lemma pickTypes_candidate {ts : List RRType}
    (h : pickTypes status geod chance l max location ts k = .ok (xs, k')) (hr : some r ∈ xs) :
    ∃ t ∈ ts, ∃ labelRR servers sum, l.recordsOf t = some labelRR ∧
      candidates status l t labelRR = .ok (servers, sum) ∧ r ∈ servers := by
  induction ts generalizing k xs with
  | nil =>
    cases h
    cases hr
  | cons t ts ih =>
    obtain ⟨⟨records, k1⟩, h1, h⟩ := Res.bind_eq_ok.mp h
    obtain ⟨⟨rest, k2⟩, h2, h⟩ := Res.bind_eq_ok.mp h
    cases h
    rcases List.mem_append.mp hr with hr | hr
    · split at h1
      · cases h1
      · exact ⟨t, List.mem_cons_self, pickType_candidate h1 hr⟩
    · obtain ⟨t', ht', hrec⟩ := ih h2 hr
      exact ⟨t', List.mem_cons_of_mem _ ht', hrec⟩

/-- Whatever is picked is a candidate, and of the type asked for unless that is `ANY`. -/
theorem picker_candidate (h : picker status geod chance l q max location k = .ok (xs, k'))
    (hr : some r ∈ xs) :
    ∃ t labelRR servers sum, l.recordsOf t = some labelRR ∧
      candidates status l t labelRR = .ok (servers, sum) ∧ r ∈ servers ∧ (q ≠ typeANY → t = q) := by
  unfold picker at h
  split at h
  case isTrue hq =>
    obtain ⟨t, _, labelRR, servers, sum, hrec, hc, hr⟩ := pickTypes_candidate h hr
    exact ⟨t, labelRR, servers, sum, hrec, hc, hr, fun ne => (ne hq).elim⟩
  case isFalse =>
    obtain ⟨labelRR, servers, sum, hrec, hc, hr⟩ := pickType_candidate h hr
    exact ⟨q, labelRR, servers, sum, hrec, hc, hr, fun _ => rfl⟩

/-- Whatever is picked is a record of the label, and of the type asked for unless that is `ANY`. -/
theorem picker_mem (h : picker status geod chance l q max location k = .ok (xs, k'))
    (hr : some r ∈ xs) :
    ∃ t labelRR, l.recordsOf t = some labelRR ∧ r ∈ labelRR ∧ (q ≠ typeANY → t = q) := by
  obtain ⟨t, labelRR, servers, sum, hrec, hc, hr, ht⟩ := picker_candidate h hr
  exact ⟨t, labelRR, hrec, (candidates_eq_ok hc).1.subset hr, ht⟩

/-- `Picker` for one type returns and fills all its slots from the candidates. Whether it picks
    anything is a matter of the candidates and the limit alone. -/
theorem pickType_returns {labelRR : List Record} (geod : Geodesy) (chance : Chance)
    (location : Option Location) (k : Nat) (hrec : l.recordsOf q = some labelRR)
    (hcand : candidates status l q labelRR = .ok (servers, sum))
    (weights : l.weightOf q = (labelRR.map Record.weight).sum)
    (moderate : Moderate labelRR) (hmax : 0 ≤ max) :
    ∃ xs k', pickType status geod chance l q max location k = .ok (xs, k') ∧
      (∀ x ∈ xs, ∃ r ∈ servers, x = some r) ∧
      (xs = [] ↔ servers = [] ∨ (unbalanced l q sum = false ∧ pickLimit q max servers.length = 0)) := by
  obtain ⟨sub, hsum⟩ := candidates_eq_ok hcand
  unfold pickType
  rw [hrec]
  dsimp only
  rw [hcand, Res.ok_bind]
  dsimp only
  by_cases hu : unbalanced l q sum = true
  · rw [if_pos hu]
    refine ⟨servers.map some, k, rfl, ?_, by simp [hu]⟩
    intro x hx
    obtain ⟨r, hr, rfl⟩ := List.mem_map.mp hx
    exact ⟨r, hr, rfl⟩
  · have pos := pickLimit_nonneg q servers.length hmax
    rw [if_neg hu, if_neg (by omega)]
    obtain ⟨servers', sum', hcl, sub', enough, hsum'⟩ :=
      closest_returns geod location q sum (pickLimit_le q max servers.length)
    rw [hcl, Res.ok_bind]
    have tallied : Tallied Record.weight ⟨(pickLimit q max servers.length).toNat, k, sum', servers'⟩ :=
      ⟨hsum' (hsum weights), Int.toNat_le.mpr enough⟩
    obtain ⟨ys, k', h, drawn⟩ :=
      Machine.draw_fills chance.draws (moderate.sublist (sub'.trans sub)) tallied
    refine ⟨ys.map some, k', h, ?_, ?_⟩
    · intro x hx
      obtain ⟨r, hr, rfl⟩ := List.mem_map.mp hx
      exact ⟨r, sub'.subset (drawn.subset hr), rfl⟩
    · have length := draw_length h
      rw [← List.length_eq_zero_iff, length]
      have le := pickLimit_le q max servers.length
      constructor
      · intro e
        exact .inr ⟨by simpa using hu, by omega⟩
      · rintro (rfl | ⟨_, e⟩)
        · simp only [List.length_nil] at le ⊢
          omega
        · omega

/-! ## When nothing is picked -/

/-- No record of this type is picked: no candidates are left, or the limit is zero. -/
def Blank (status : String → Res StatusType) (l : Label) (max : Int) (t : RRType) : Prop :=
  ∀ labelRR servers sum, l.recordsOf t = some labelRR →
    candidates status l t labelRR = .ok (servers, sum) →
    servers = [] ∨ (unbalanced l t sum = false ∧ pickLimit t max servers.length = 0)

/-- No record is picked for a query of this type. -/
def NothingFor (status : String → Res StatusType) (l : Label) (max : Int) (q : RRType) : Prop :=
  if q = typeANY then ∀ t, Blank status l max t else Blank status l max q

/-- A type without records is blank. -/
lemma blank_of_absent {t : RRType} (absent : ∀ r rs, l.recordsOf t ≠ some (r :: rs)) :
    Blank status l max t := by
  intro labelRR servers sum hrec hc
  cases labelRR with
  | cons r rs => exact (absent r rs hrec).elim
  | nil => exact .inl (List.eq_nil_of_sublist_nil (candidates_eq_ok hc).1)

/-- Nothing is picked of a type if and only if it is blank. -/
lemma pickType_eq_nil (h : pickType status geod chance l q max location k = .ok (xs, k')) :
    xs = [] ↔ Blank status l max q := by
  unfold pickType at h
  cases hrec : l.recordsOf q with
  | none =>
    rw [hrec] at h
    cases h
    refine iff_of_true rfl ?_
    intro labelRR servers sum h
    rw [hrec] at h
    cases h
  | some labelRR =>
    rw [hrec] at h
    obtain ⟨⟨servers, sum⟩, hc, h⟩ := Res.bind_eq_ok.mp h
    have blank : Blank status l max q ↔ servers = [] ∨
        (unbalanced l q sum = false ∧ pickLimit q max servers.length = 0) := by
      constructor
      · exact fun blank => blank labelRR servers sum hrec hc
      · intro none labelRR' servers' sum' hrec' hc'
        rw [hrec] at hrec'
        cases hrec'
        rw [hc] at hc'
        cases hc'
        exact none
    rw [blank]
    dsimp only at h
    split_ifs at h with hu neg
    · cases h
      simp [hu]
    · obtain ⟨servers', sum', hcl, _⟩ :=
        closest_returns geod location q sum (pickLimit_le q max servers.length)
      rw [hcl] at h
      have length := draw_length h
      have le := pickLimit_le q max servers.length
      rw [← List.length_eq_zero_iff, length]
      constructor
      · intro e
        exact .inr ⟨by simpa using hu, by omega⟩
      · rintro (rfl | ⟨_, e⟩)
        · simp only [List.length_nil] at le ⊢
          omega
        · omega

/-- What one turn picks is among what the loop does. -/
lemma pickTypes_turn {ts : List RRType} {t : RRType}
    (h : pickTypes status geod chance l max location ts k = .ok (xs, k')) (ht : t ∈ ts) :
    ∃ k1 ys k2, pickType status geod chance l t max location k1 = .ok (ys, k2) ∧ ys ⊆ xs := by
  induction ts generalizing k xs with
  | nil => cases ht
  | cons t' ts ih =>
    obtain ⟨⟨records, k1⟩, h1, h⟩ := Res.bind_eq_ok.mp h
    obtain ⟨⟨rest, k2⟩, h2, h⟩ := Res.bind_eq_ok.mp h
    cases h
    rcases List.mem_cons.mp ht with rfl | ht
    · split at h1
      · cases h1
      · exact ⟨k, records, k1, h1, List.subset_append_left _ _⟩
    · obtain ⟨k3, ys, k4, hy, sub⟩ := ih h2 ht
      exact ⟨k3, ys, k4, hy, List.Subset.trans sub (List.subset_append_right _ _)⟩

/-- Nothing is picked over several types if and only if all are blank. -/
lemma pickTypes_eq_nil {ts : List RRType}
    (h : pickTypes status geod chance l max location ts k = .ok (xs, k')) :
    xs = [] ↔ ∀ t ∈ ts, Blank status l max t := by
  induction ts generalizing k xs with
  | nil =>
    cases h
    simp
  | cons t ts ih =>
    obtain ⟨⟨records, k1⟩, h1, h⟩ := Res.bind_eq_ok.mp h
    obtain ⟨⟨rest, k2⟩, h2, h⟩ := Res.bind_eq_ok.mp h
    cases h
    split at h1
    · cases h1
    · rw [List.append_eq_nil_iff, pickType_eq_nil h1, ih h2, List.forall_mem_cons]

/-- Whether anything is picked depends neither on the random choices nor on the place. -/
theorem picker_eq_nil (h : picker status geod chance l q max location k = .ok (xs, k')) :
    xs = [] ↔ NothingFor status l max q := by
  unfold picker at h
  unfold NothingFor
  by_cases hq : q = typeANY
  · rw [if_pos hq] at h
    rw [if_pos hq, pickTypes_eq_nil h]
    constructor
    · intro blank t labelRR servers sum hrec
      have mem : t ∈ l.records.keys := AList.lookup_isSome.mp (by
        rw [LabelOf.recordsOf] at hrec
        simp [hrec])
      exact blank t ((chance.order_perm k _).mem_iff.mpr mem) labelRR servers sum hrec
    · exact fun blank t _ => blank t
  · rw [if_neg hq] at h
    rw [if_neg hq]
    exact pickType_eq_nil h

end
end GeoDNS.Zones
