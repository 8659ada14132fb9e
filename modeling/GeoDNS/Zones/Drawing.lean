import GeoDNS.Zones.Balance

/-!
# Drawing records

What `Picker` returns for a label that is in order, in any health state. If the records that are kept have
non-negative weights and weigh something together, they are drawn: as many as the limit allows, at different
positions (`picker_draws`), and those without weight last (`weightless_last`). This takes sums that do not
overflow: a weight of 2^63 - 1 leaves no number to draw (`heaviest_panics`), and a total that wraps around
leaves the records unsorted (`overflow_unsorted`).

Two things go wrong besides. The drawing loop asks for a number up to the sum, inclusive, and takes the first
record at which the partial sum *reaches* it, so that the first record is chosen by one value more than it
weighs (`choice_proportional_iff`). And records that weigh nothing together once the unhealthy ones are
gone are all returned, before the limit is applied (`limit_holds_iff`).
-/

namespace GeoDNS.Zones
open GeoDNS.Lib GeoDNS.Dns GeoDNS.Health GeoDNS.Targeting

section
variable {health : String → StatusType} {geod : Geodesy} {chance : Chance} {l : Label} {q : RRType}
variable {max : Int} {location : Option Location} {k : Nat} {rs : List Record}

/-- Records that weigh something together are drawn, of a type that has a total. -/
lemma balanced_draws (balanced : Balanced l) (weighted : l.weightOf q ≠ 0)
    (pos : 0 < totalWeight (kept health l rs)) :
    unbalanced l q (totalWeight (kept health l rs)) = false ∧ q ≠ typeMF := by
  constructor
  · apply decide_eq_false
    rintro (⟨_, zero⟩ | zero)
    · rw [zero] at pos
      exact Int64.lt_irrefl pos
    · exact weighted zero
  · rintro rfl
    exact weighted balanced.aliases

/-- A type with records is not `ANY`. -/
lemma picker_of_ne (balanced : Balanced l) (hrec : l.recordsOf q = some rs)
    (status : String → Res StatusType) :
    picker status geod chance l q max location k = pickType status geod chance l q max location k := by
  refine if_neg ?_
  rintro rfl
  rw [balanced.any] at hrec
  cases hrec

/-- Records that are not drawn are all returned. -/
lemma picker_unbalanced (balanced : Balanced l) (hrec : l.recordsOf q = some rs)
    (all : unbalanced l q (totalWeight (kept health l rs)) = true) :
    picker (reports health) geod chance l q max location k = .ok ((kept health l rs).map some, k) := by
  rw [picker_of_ne balanced hrec, pickType, hrec]
  dsimp only
  rw [candidates_reports balanced hrec, Res.ok_bind]
  exact if_pos all

/-- How many records are picked of a type that is not that of aliases. -/
lemma pickLimit_eq_min (hq : q ≠ typeMF) (max : Int) (n : Nat) :
    pickLimit q max n = min (if q = typeCNAME then 1 else max) n := by
  unfold pickLimit
  simp only [hq, or_false]
  split <;> omega

/-- The records that are kept are those at certain positions. -/
lemma kept_positions (health : String → StatusType) (l : Label) (rs : List Record) :
    ∃ ps : List (Fin rs.length), kept health l rs = ps.map rs.get ∧
      (∀ {i}, i ∈ ps ↔ keeps health l (rs.get i)) ∧ ps.Nodup := by
  refine ⟨(List.finRange rs.length).filter (fun i => keeps health l (rs.get i)), ?_, by simp,
    (List.nodup_finRange rs.length).filter _⟩
  calc kept health l rs = ((List.finRange rs.length).map rs.get).filter (keeps health l) :=
        congrArg (List.filter (keeps health l)) (List.map_get_finRange rs).symm
    _ = ((List.finRange rs.length).filter (fun i => keeps health l (rs.get i))).map rs.get := by
        rw [List.filter_map]
        rfl

/-- The records drawn are those at the positions drawn. -/
lemma picker_positions {status : String → Res StatusType} {slots k0 k' : Nat} {sum : Int64}
    {ps ys : List (Fin rs.length)} (balanced : Balanced l) (hrec : l.recordsOf q = some rs)
    (begins : drawingStart status geod l q max location k = .ok (some ⟨slots, k0, sum, ps.map rs.get⟩))
    (h : draw (fun i => (rs.get i).weight) (Machine.intn chance.draws) slots k0 sum ps =
      .ok (ys.map some, k')) :
    picker status geod chance l q max location k = .ok (ys.map (fun i => some (rs.get i)), k') := by
  rw [picker_of_ne balanced hrec, pickType_drawing begins]
  dsimp only
  rw [draw_map, h, Res.map_ok, List.map_map]
  rfl

/-- Records at certain positions are moderate as those positions are. -/
lemma moderate_positions {ps : List (Fin rs.length)} (moderate : Moderate (ps.map rs.get)) :
    Machine.Moderate (fun i => (rs.get i).weight) ps :=
  moderate.of_map List.map_map.symm

/-- `Picker` draws as many records as it should, at different positions, among those that are kept. -/
lemma picker_fills (geod : Geodesy) (chance : Chance) (location : Option Location) (k : Nat)
    (balanced : Balanced l) (hrec : l.recordsOf q = some rs) (moderate : Moderate (kept health l rs))
    (weighted : l.weightOf q ≠ 0) (hmax : 0 ≤ max) (pos : 0 < totalWeight (kept health l rs)) :
    ∃ (ps : List (Fin rs.length)) (k' : Nat),
      picker (reports health) geod chance l q max location k =
        .ok (ps.map (fun i => some (rs.get i)), k') ∧
      (ps.length : Int) = min (if q = typeCNAME then 1 else max) (kept health l rs).length ∧
      ps.Nodup ∧ ∀ i ∈ ps, keeps health l (rs.get i) := by
  obtain ⟨draws, notMF⟩ := balanced_draws balanced weighted pos
  obtain ⟨left, begins, _, sub, enough⟩ := drawingStart_begins geod location k balanced hrec draws
    (pickLimit_nonneg q _ hmax)
  obtain ⟨ps, rfl, nodup⟩ := sublist_positions (sub.trans List.filter_sublist)
  rw [List.length_map] at enough
  obtain ⟨ys, k', h, zs, perm, sub'⟩ := Machine.draw_fills (k := k) chance.draws
    (moderate_positions (moderate.sublist sub)) ⟨totalWeight_positions ps, enough⟩
  refine ⟨ys, k', picker_positions balanced hrec begins h, ?_, perm.nodup_iff.mp (nodup.sublist sub'), ?_⟩
  · have length := draw_length h
    rw [List.length_map] at length
    rw [length, ← pickLimit_eq_min notMF]
    exact Int.toNat_of_nonneg (pickLimit_nonneg q _ hmax)
  · intro i hi
    have mem : rs.get i ∈ kept health l rs :=
      sub.subset (List.mem_map_of_mem (sub'.subset (perm.mem_iff.mpr hi)))
    exact (List.mem_filter.mp mem).2

/-- The turns of the drawing loop of `Picker`. -/
abbrev Turns (chance : Chance) :
    DrawState Record Int64 → List (Option Record) → DrawState Record Int64 → Prop :=
  DrawRun Record.weight (Machine.intn chance.draws)

/-- A number is drawn, and finds one of the records that are left. -/
def Finds (chance : Chance) (s : DrawState Record Int64) : Prop :=
  ∃ n r left, Machine.intn chance.draws s.k (s.sum + 1) = .ok n ∧
    takeAt Record.weight n 0 s.left = some (r, left)

/-- What is left stays moderate from turn to turn. -/
lemma moderate_turns {s s' : DrawState Record Int64} {xs : List (Option Record)}
    (run : Turns chance s xs s') (moderate : Moderate s.left) : Moderate s'.left := by
  induction run with
  | refl => exact moderate
  | step step _ ih =>
    apply ih
    cases step with
    | taken hn ht =>
      obtain ⟨pre, post, rfl, rfl⟩ := takeAt_split ht
      exact moderate.sublist (List.Sublist.append_left (List.sublist_cons_self _ _) _)
    | missed => exact moderate

/-- With moderate records, the sum is the total weight of the records that are left throughout the loop, and
    every draw finds one. -/
lemma turns_exact {s s' : DrawState Record Int64} {xs : List (Option Record)} (moderate : Moderate s.left)
    (tallied : Tallied Record.weight s) (run : Turns chance s xs s') :
    s'.sum = totalWeight s'.left ∧ (s'.slots ≠ 0 → Finds chance s') := by
  have tallied' := tallied.run run
  have drawn : Machine.Drawn s'.sum := tallied'.sum ▸ (moderate_turns run moderate).drawn
  refine ⟨tallied'.sum, fun more => ?_⟩
  obtain ⟨n, hn⟩ := Machine.intn_returns chance.draws s'.k drawn
  obtain ⟨r, left, ht⟩ := tallied'.finds more (Machine.intn_le hn).2.2
  exact ⟨n, r, left, hn, ht⟩

/-- What `Picker` draws from records that weigh something together. The records come out of the turns of its
    loop, and throughout the loop the sum is the total weight of what is left. -/
theorem picker_draws (geod : Geodesy) (chance : Chance) (location : Option Location) (k : Nat)
    (balanced : Balanced l) (hrec : l.recordsOf q = some rs) (moderate : Moderate (kept health l rs))
    (weighted : l.weightOf q ≠ 0) (hmax : 0 ≤ max) (pos : 0 < totalWeight (kept health l rs)) :
    ∃ (ps : List (Fin rs.length)) (k' : Nat),
      picker (reports health) geod chance l q max location k =
        .ok (ps.map (fun i => some (rs.get i)), k') ∧
      (ps.length : Int) = min (if q = typeCNAME then 1 else max) (kept health l rs).length ∧
      ps.Nodup ∧ (∀ i ∈ ps, keeps health l (rs.get i)) ∧
      ∃ start, drawingStart (reports health) geod l q max location k = .ok (some start) ∧
        (∃ s, Turns chance start (ps.map (fun i => some (rs.get i))) s ∧ s.slots = 0) ∧
        ∀ xs s, Turns chance start xs s →
          s.sum = totalWeight s.left ∧ (s.slots ≠ 0 → Finds chance s) := by
  obtain ⟨ps, k', h, length, nodup, healthy⟩ :=
    picker_fills geod chance location k balanced hrec moderate weighted hmax pos
  refine ⟨ps, k', h, length, nodup, healthy, ?_⟩
  obtain ⟨draws, _⟩ := balanced_draws balanced weighted pos
  obtain ⟨left, begins, _, sub, enough⟩ := drawingStart_begins geod location k balanced hrec draws
    (pickLimit_nonneg q _ hmax)
  refine ⟨_, begins, ?_, fun xs s => turns_exact (moderate.sublist sub) ⟨rfl, enough⟩⟩
  rw [picker_of_ne balanced hrec, pickType_drawing begins] at h
  obtain ⟨s, run, none, _⟩ := draw_eq_ok_iff.mp h
  exact ⟨s, run, none⟩

end

/-- The zone `example.com` with three addresses of `www`, one of them without weight. -/
def smallWeights : Zone :=
  smallZone [("www", .obj [("a", .arr [.arr [.str "192.0.2.1", .str "10"],
    .arr [.str "192.0.2.2", .str "0"], .arr [.str "192.0.2.3", .str "5"]])])]

/-- Numbers that are all zero, and keys in their order. -/
def smallChance : Chance where
  draws _ := 0
  order _ keys := keys
  order_perm _ _ := .refl _

/-- The distance between places is not negative. -/
lemma smallGeodesy_nonneg (_ _ : Location) : (0 : Rat) ≤ 0 :=
  le_refl 0

/-- The distance between places is not above the largest one. -/
lemma smallGeodesy_le_max (_ _ : Location) : (0 : Rat) ≤ maxDistance := by
  decide

/-- All places are at one place. -/
def smallGeodesy : Geodesy where
  degrees _ _ := 0
  nonneg := smallGeodesy_nonneg
  le_max := smallGeodesy_le_max

/-- The three addresses, as they are in the zone. -/
lemma smallWeights_label : ∃ l rs, smallWeights.labels.lookup "www" = some l ∧
    l.recordsOf typeA = some rs ∧ rs.map Record.weight = [10, 5, 0] ∧ Moderate rs ∧ 0 < l.weightOf typeA ∧
    kept (fun _ => statusUnknown) l rs = rs ∧ Balanced l := by
  obtain ⟨l, rs, hl, hrec, weights, moderate, weighted, all⟩ : ∃ l rs,
      smallWeights.labels.lookup "www" = some l ∧ l.recordsOf typeA = some rs ∧
      rs.map Record.weight = [10, 5, 0] ∧ Moderate rs ∧ 0 < l.weightOf typeA ∧
      kept (fun _ => statusUnknown) l rs = rs :=
    ⟨_, _, rfl, rfl, rfl, ⟨by decide +kernel, by decide +kernel⟩, by decide +kernel, rfl⟩
  have accepted : Accepted smallExternals smallWeights := smallZone_accepted rfl
  exact ⟨l, rs, hl, hrec, weights, moderate, weighted, all, (Installed.accepted accepted).balanced hl⟩

/-- Two of the three addresses are drawn. -/
theorem two_addresses_drawn : ∃ l rs, smallWeights.labels.lookup "www" = some l ∧
    l.recordsOf typeA = some rs ∧ ∃ (ps : List (Fin rs.length)) (k' : Nat),
      picker (reports (fun _ => statusUnknown)) smallGeodesy smallChance l typeA 2 none 0 =
        .ok (ps.map (fun i => some (rs.get i)), k') ∧ ps.length = 2 ∧ ps.Nodup := by
  obtain ⟨l, rs, hl, hrec, weights, moderate, _, all, balanced⟩ := smallWeights_label
  have three : rs.length = 3 := by
    have length := congrArg List.length weights
    rwa [List.length_map] at length
  have pos : 0 < totalWeight (kept (fun _ => statusUnknown) l rs) := by
    rw [all, totalWeight, weights]
    decide
  obtain ⟨moderate', le⟩ := moderate_kept (fun _ => statusUnknown) balanced hrec moderate
  obtain ⟨ps, k', h, length, nodup, _⟩ := picker_draws smallGeodesy smallChance none 0 balanced hrec moderate'
    (Int64.ne_of_lt (Int64.lt_of_lt_of_le pos le)).symm (by decide : (0 : Int) ≤ 2) pos
  refine ⟨l, rs, hl, hrec, ps, k', h, ?_, nodup⟩
  rw [all, if_neg (by decide)] at length
  omega

/-- The zone `example.com` with an address of `www` that has the largest weight there is. -/
def smallHeaviest : Zone :=
  smallZone [("www", .obj [("a", .arr [.arr [.str "192.0.2.1", .str "9223372036854775807"]])])]

/-- There is no number above the largest weight to draw below. -/
theorem heaviest_panics : Accepted smallExternals smallHeaviest ∧
    ∃ l rs, smallHeaviest.labels.lookup "www" = some l ∧ Balanced l ∧ l.recordsOf typeA = some rs ∧
      (∀ r ∈ rs, 0 ≤ r.weight) ∧ 0 < totalWeight (kept (fun _ => statusUnknown) l rs) ∧
      ∀ chance, picker (reports (fun _ => statusUnknown)) smallGeodesy chance l typeA 2 none 0 =
        .panic (.explicit "invalid argument to Intn") := by
  have accepted : Accepted smallExternals smallHeaviest := smallZone_accepted rfl
  obtain ⟨l, rs, hl, hrec, nonneg, pos, panics⟩ : ∃ l rs, smallHeaviest.labels.lookup "www" = some l ∧
      l.recordsOf typeA = some rs ∧ (∀ r ∈ rs, 0 ≤ r.weight) ∧
      0 < totalWeight (kept (fun _ => statusUnknown) l rs) ∧
      ∀ chance, picker (reports (fun _ => statusUnknown)) smallGeodesy chance l typeA 2 none 0 =
        .panic (.explicit "invalid argument to Intn") :=
    ⟨_, _, rfl, rfl, by decide +kernel, by decide +kernel, fun _ => rfl⟩
  exact ⟨accepted, l, rs, hl, (Installed.accepted accepted).balanced hl, hrec, nonneg, pos, panics⟩

/-! ## Proportions -/

section
variable {health : String → StatusType} {geod : Geodesy} {chance : Chance} {l : Label} {q : RRType}
variable {max : Int} {location : Option Location} {k : Nat} {rs : List Record}

/-- The values of `rand.Intn` for which the record at this position is chosen, in one round of the drawing
    loop over these candidates. -/
def chosenBy (servers : List Record) (i : Fin servers.length) : Finset Nat :=
  Machine.selecting (fun j => (servers.get j).weight) (List.finRange servers.length) i

/-- How many numbers up to the sum of the weights are above all partial sums before this position and not
    above the one with it; none if `rand.Intn` does not return for the sum. All sums are 64-bit ones. -/
def share (servers : List Record) (i : Fin servers.length) : Nat :=
  Machine.share Record.weight (servers.take i) (servers.get i) (servers.drop (i + 1))

/-- Two counts are to one another as the weights of the records at these positions. -/
def InProportion (servers : List Record) (count : Fin servers.length → Nat) (i j : Fin servers.length) :
    Prop :=
  count i * (servers.get j).weight.toInt = count j * (servers.get i).weight.toInt

/-- The positions before and after a position. -/
lemma finRange_split (n : Nat) (i : Fin n) :
    List.finRange n = (List.finRange n).take i ++ i :: (List.finRange n).drop (i + 1) := by
  have lt : i.val < (List.finRange n).length := by
    rw [List.length_finRange]
    exact i.isLt
  have at_i : (List.finRange n)[i.val] = i := List.getElem_finRange lt
  have halves := List.take_append_drop i.val (List.finRange n)
  rw [List.drop_eq_getElem_cons lt, at_i] at halves
  exact halves.symm

/-- Whatever the weights are, a record is chosen by as many values as its share. -/
lemma card_chosenBy_eq_share (servers : List Record) (i : Fin servers.length) :
    (chosenBy servers i).card = share servers i := by
  have nodup := List.nodup_finRange servers.length
  have records : (List.finRange servers.length).map servers.get = servers := List.map_get_finRange servers
  have before : servers.take i = ((List.finRange servers.length).take i).map servers.get := by
    rw [List.map_take, records]
  have after : servers.drop (i + 1) = ((List.finRange servers.length).drop (i + 1)).map servers.get := by
    rw [List.map_drop, records]
  rw [share, before, after, Machine.share_map]
  unfold chosenBy
  rw [finRange_split servers.length i] at nodup
  rw [← Machine.card_selecting_eq_share nodup, ← finRange_split]

/-- The positions of moderate records, all of them. -/
lemma moderate_finRange {servers : List Record} (moderate : Moderate servers) :
    Machine.Moderate (fun j => (servers.get j).weight) (List.finRange servers.length) := by
  apply moderate_positions
  rwa [List.map_get_finRange]

/-- A record is chosen by as many values as it weighs, the first one by one more. -/
lemma card_chosenBy {servers : List Record} (moderate : Moderate servers) (i : Fin servers.length) :
    ((chosenBy servers i).card : Int) =
      (servers.get i).weight.toInt + if i.val = 0 then 1 else 0 := by
  have first : (List.finRange servers.length).take i = [] ↔ i.val = 0 := by
    rw [← List.length_eq_zero_iff, List.length_take, List.length_finRange]
    omega
  have nodup := List.nodup_finRange servers.length
  have moderate' := moderate_finRange moderate
  unfold chosenBy
  rw [finRange_split servers.length i] at nodup moderate' ⊢
  rw [Machine.card_selecting moderate' nodup]
  simp only [first]

/-- With moderate weights, the choice is proportional to them exactly if the first record is not compared
    with another one that weighs something. -/
lemma inProportion_iff {servers : List Record} (moderate : Moderate servers) (i j : Fin servers.length) :
    InProportion servers (fun i => (chosenBy servers i).card) i j ↔
      i = j ∨ ((i.val = 0 → (servers.get j).weight = 0) ∧ (j.val = 0 → (servers.get i).weight = 0)) := by
  rw [InProportion, card_chosenBy moderate, card_chosenBy moderate]
  -- what one value more or less makes of the products
  have excess : ∀ wi wj a b : Int, (wi + a) * wj = (wj + b) * wi ↔ a * wj = b * wi := by
    intro wi wj a b
    constructor
    · intro h
      linarith
    · intro h
      linarith
  rw [excess]
  by_cases same : i = j
  · subst same
    simp
  · by_cases hi : i.val = 0
    · have hj : j.val ≠ 0 := fun hj => same (Fin.ext (hi.trans hj.symm))
      simp [same, hi, hj, eq_zero_iff_toInt]
    · by_cases hj : j.val = 0
      · simp [same, hi, hj, eq_zero_iff_toInt, eq_comm (a := (0 : Int))]
      · simp [hi, hj]

/-- The choice is proportional to the weights exactly if the shares are, which depend on the partial sums
    alone. With moderate weights, this is so exactly if the first record is not compared with another one
    that weighs something. -/
theorem choice_proportional_iff (servers : List Record) (i j : Fin servers.length) :
    (InProportion servers (fun i => (chosenBy servers i).card) i j ↔
      InProportion servers (share servers) i j) ∧
    (Moderate servers → (InProportion servers (fun i => (chosenBy servers i).card) i j ↔
      i = j ∨ ((i.val = 0 → (servers.get j).weight = 0) ∧ (j.val = 0 → (servers.get i).weight = 0)))) := by
  refine ⟨?_, fun moderate => inProportion_iff moderate i j⟩
  rw [InProportion, InProportion, card_chosenBy_eq_share, card_chosenBy_eq_share]

/-- Two addresses of the same weight: the first one is chosen by two values, the other one by one. -/
theorem equal_weights_unequal :
    let servers := [webRecord, webRecord]
    totalWeight servers = 2 ∧ (chosenBy servers 0).card = 2 ∧ (chosenBy servers 1).card = 1 ∧
      ¬ InProportion servers (fun i => (chosenBy servers i).card) 0 1 := by
  unfold InProportion
  decide +kernel

/-- Two addresses behind another one are chosen by equally many values. -/
theorem later_weights_equal :
    let servers := [webRecord, webRecord, webRecord]
    InProportion servers (fun i => (chosenBy servers i).card) 1 2 := by
  intro servers
  have moderate : Moderate servers := ⟨by decide, by decide⟩
  exact ((choice_proportional_iff servers 1 2).2 moderate).mpr (.inr (by decide))

/-! ## Records without weight -/

/-- A record without weight is drawn only when all records with weights are. -/
theorem weightless_last (geod : Geodesy) (chance : Chance) (k : Nat) (balanced : Balanced l)
    (hrec : l.recordsOf q = some rs) (moderate : Moderate (kept health l rs))
    (weighted : 0 < l.weightOf q) (hmax : 0 ≤ max) (pos : 0 < totalWeight (kept health l rs)) :
    ∃ (ps : List (Fin rs.length)) (k' : Nat),
      picker (reports health) geod chance l q max none k =
        .ok (ps.map (fun i => some (rs.get i)), k') ∧ ps.Nodup ∧
      ((∃ i ∈ ps, (rs.get i).weight = 0) →
        ∀ j, keeps health l (rs.get j) → 0 < (rs.get j).weight → j ∈ ps) := by
  obtain ⟨draws, _⟩ := balanced_draws balanced (Int64.ne_of_lt weighted).symm pos
  obtain ⟨left, begins, hcl, _, enough⟩ := drawingStart_begins geod none k balanced hrec draws
    (pickLimit_nonneg q _ hmax)
  cases hcl
  have sorted : ByWeight rs := balanced.sorted hrec weighted
  obtain ⟨ps, hps, mem, nodup⟩ := kept_positions health l rs
  have desc : Machine.Descending (fun i => (rs.get i).weight) ps := by
    have sorted' : ByWeight (kept health l rs) := sorted.sublist List.filter_sublist
    rw [hps] at sorted'
    exact List.pairwise_map.mp sorted'
  have total : totalWeight (kept health l rs) = (ps.map (fun i => (rs.get i).weight)).sum := by
    rw [hps, totalWeight_positions]
  have moderate' : Machine.Moderate (fun i => (rs.get i).weight) ps :=
    moderate_positions (hps ▸ moderate)
  have length : (kept health l rs).length = ps.length := by rw [hps, List.length_map]
  have tallied : Tallied (fun i => (rs.get i).weight)
      ⟨(pickLimit q max (kept health l rs).length).toNat, k, totalWeight (kept health l rs), ps⟩ :=
    ⟨total, enough.trans_eq length⟩
  obtain ⟨ys, k', h, zs, perm, sub⟩ := Machine.draw_fills chance.draws moderate' tallied
  refine ⟨ys, k', picker_positions balanced hrec ?_ h, perm.nodup_iff.mp (nodup.sublist sub), ?_⟩
  · rw [begins, ← hps]
  · rintro ⟨i, hi, zero⟩ j hj pos
    have drawn := Machine.draw_zero_last desc moderate' total h (List.mem_map_of_mem hi) zero j
      (mem.mpr hj) pos
    simpa using drawn

/-- All three addresses are drawn, the one without weight among them. -/
theorem three_addresses_drawn : ∃ l rs, smallWeights.labels.lookup "www" = some l ∧
    l.recordsOf typeA = some rs ∧ ∃ (ps : List (Fin rs.length)) (k' : Nat),
      picker (reports (fun _ => statusUnknown)) smallGeodesy smallChance l typeA 3 none 0 =
        .ok (ps.map (fun i => some (rs.get i)), k') ∧ ps.Nodup ∧
      ((∃ i ∈ ps, (rs.get i).weight = 0) →
        ∀ j, keeps (fun _ => statusUnknown) l (rs.get j) → 0 < (rs.get j).weight → j ∈ ps) := by
  obtain ⟨l, rs, hl, hrec, weights, moderate, _, all, balanced⟩ := smallWeights_label
  have pos : 0 < totalWeight (kept (fun _ => statusUnknown) l rs) := by
    rw [all, totalWeight, weights]
    decide
  obtain ⟨moderate', le⟩ := moderate_kept (fun _ => statusUnknown) balanced hrec moderate
  obtain ⟨ps, k', h, nodup, last⟩ := weightless_last smallGeodesy smallChance 0 balanced hrec moderate'
    (Int64.lt_of_lt_of_le pos le) (by decide : (0 : Int) ≤ 3) pos
  exact ⟨l, rs, hl, hrec, ps, k', h, nodup, last⟩

/-- The zone `example.com` with three addresses of `www`, of which the first one has no weight and the
    other two weigh more together than a 64-bit integer can hold, and a health reference. -/
def smallOverflow : Zone :=
  smallZone [("www", .obj [("health", .obj [("name", .str "web")]), ("a", .arr [
    .obj [("a", .str "192.0.2.1"), ("health", .str "web/one")],
    .obj [("a", .str "192.0.2.2"), ("weight", .str "4611686018427387904"), ("health", .str "web/two")],
    .obj [("a", .str "192.0.2.3"), ("weight", .str "4611686018427387904"),
      ("health", .str "web/three")]])])]

/-- A total that wraps around leaves the records unsorted, and the address without weight is drawn although
    there is another one. -/
theorem overflow_unsorted : Accepted smallExternals smallOverflow ∧
    ∃ l rs, smallOverflow.labels.lookup "www" = some l ∧ Balanced l ∧ l.recordsOf typeA = some rs ∧
      (∀ r ∈ rs, 0 ≤ r.weight) ∧
      let health := fun n => if n = "web/three" then statusUnhealthy else statusHealthy
      0 < totalWeight (kept health l rs) ∧
      ∃ r0 r1 k', picker (reports health) smallGeodesy smallChance l typeA 1 none 0 =
          .ok ([some r0], k') ∧ r0.weight = 0 ∧
        r1 ∈ rs ∧ keeps health l r1 ∧ 0 < r1.weight := by
  have accepted : Accepted smallExternals smallOverflow := smallZone_accepted rfl
  obtain ⟨l, hl, rest⟩ : ∃ l, smallOverflow.labels.lookup "www" = some l ∧
      ∃ rs, l.recordsOf typeA = some rs ∧ (∀ r ∈ rs, 0 ≤ r.weight) ∧
      let health := fun n => if n = "web/three" then statusUnhealthy else statusHealthy
      0 < totalWeight (kept health l rs) ∧
      ∃ r0 r1 k', picker (reports health) smallGeodesy smallChance l typeA 1 none 0 =
          .ok ([some r0], k') ∧ r0.weight = 0 ∧
        r1 ∈ rs ∧ keeps health l r1 ∧ 0 < r1.weight :=
    ⟨_, rfl, _, rfl, by decide +kernel, by decide +kernel, _, _, _, rfl, rfl,
      List.mem_cons_of_mem _ List.mem_cons_self, by decide +kernel, by decide +kernel⟩
  obtain ⟨rs, hrec, rest⟩ := rest
  exact ⟨accepted, l, rs, hl, (Installed.accepted accepted).balanced hl, hrec, rest⟩

/-! ## The limit -/

/-- Are the records that are kept returned as they are? Their weights are 0 together, or those of all records
    of the type are. -/
lemma unbalanced_iff (balanced : Balanced l) (hrec : l.recordsOf q = some rs) :
    unbalanced l q (totalWeight (kept health l rs)) = true ↔
      totalWeight (kept health l rs) = 0 ∨ l.weightOf q = 0 := by
  unfold unbalanced
  rw [decide_eq_true_iff]
  cases test : l.test with
  | some ref => simp
  | none =>
    have all : kept health l rs = rs := List.filter_eq_self.mpr (fun r _ => by simp [keeps, test])
    have total : totalWeight rs = l.weightOf q := (balanced.weights hrec).symm
    simp [all, total]

/-- Records that weigh nothing together are all returned, and others up to the limit. -/
lemma picker_length {xs : List (Option Record)} {k' : Nat} (balanced : Balanced l)
    (hrec : l.recordsOf q = some rs) (hmax : 0 ≤ max)
    (h : picker (reports health) geod chance l q max location k = .ok (xs, k')) :
    (xs.length : Int) =
      if totalWeight (kept health l rs) = 0 ∨ l.weightOf q = 0 then ((kept health l rs).length : Int)
      else min (if q = typeCNAME then 1 else max) (kept health l rs).length := by
  by_cases zero : totalWeight (kept health l rs) = 0 ∨ l.weightOf q = 0
  · rw [picker_unbalanced balanced hrec ((unbalanced_iff balanced hrec).mpr zero)] at h
    cases h
    rw [if_pos zero, List.length_map]
  · have draws : unbalanced l q (totalWeight (kept health l rs)) = false := by
      rw [← Bool.not_eq_true, unbalanced_iff balanced hrec]
      exact zero
    have notMF : q ≠ typeMF := by
      rintro rfl
      exact zero (.inr balanced.aliases)
    obtain ⟨left, begins, _⟩ := drawingStart_begins geod location k balanced hrec draws
      (pickLimit_nonneg q _ hmax)
    rw [picker_of_ne balanced hrec, pickType_drawing begins] at h
    rw [if_neg zero, draw_length h, ← pickLimit_eq_min notMF]
    exact Int.toNat_of_nonneg (pickLimit_nonneg q _ hmax)

/-- Moderate records are always picked from. -/
lemma picker_of_moderate (geod : Geodesy) (chance : Chance) (location : Option Location) (k : Nat)
    (balanced : Balanced l) (hrec : l.recordsOf q = some rs) (moderate : Moderate (kept health l rs))
    (hmax : 0 ≤ max) :
    ∃ xs k', picker (reports health) geod chance l q max location k = .ok (xs, k') := by
  by_cases zero : totalWeight (kept health l rs) = 0 ∨ l.weightOf q = 0
  · exact ⟨_, k, picker_unbalanced balanced hrec ((unbalanced_iff balanced hrec).mpr zero)⟩
  · obtain ⟨some, weighted⟩ := not_or.mp zero
    have pos : 0 < totalWeight (kept health l rs) := by
      have nonneg : 0 ≤ totalWeight (kept health l rs) := moderate.drawn.1
      exact Int64.lt_of_le_of_ne nonneg (Ne.symm some)
    obtain ⟨ps, k', h, _⟩ :=
      picker_fills geod chance location k balanced hrec moderate weighted hmax pos
    exact ⟨_, k', h⟩

/-- The limit holds for the types that always have weights exactly if the records that are kept weigh
    something together, and at least one may be returned if they are `CNAME` records, or if they are
    no more than the limit in the first place. This is so whatever the weights are, if only `Picker`
    returns, as it does with moderate ones. -/
theorem limit_holds_iff (health : String → StatusType) (geod : Geodesy) (chance : Chance)
    (location : Option Location) (k : Nat) (balanced : Balanced l) (hq : q ∈ alwaysWeighted)
    (hmax : 0 ≤ max) :
    (∀ xs k', picker (reports health) geod chance l q max location k = .ok (xs, k') →
      (((xs.length : Int) ≤ max ∧ (q = typeCNAME → xs.length ≤ 1)) ↔
        let H := kept health l ((l.recordsOf q).getD [])
        if totalWeight H = 0 ∨ l.weightOf q = 0 then
          (H.length : Int) ≤ max ∧ (q = typeCNAME → H.length ≤ 1)
        else q = typeCNAME → 1 ≤ max)) ∧
    (Moderate (kept health l ((l.recordsOf q).getD [])) →
      ∃ xs k', picker (reports health) geod chance l q max location k = .ok (xs, k')) := by
  cases hrec : l.recordsOf q with
  | none =>
    have ne : q ≠ typeANY := by
      rintro rfl
      revert hq
      decide
    have nothing : picker (reports health) geod chance l q max location k = .ok ([], k) := by
      rw [picker, if_neg ne, pickType, hrec]
    rw [nothing]
    refine ⟨fun xs k' h => ?_, fun _ => ⟨_, _, rfl⟩⟩
    cases h
    simp [kept, totalWeight, hmax]
  | some rs =>
    refine ⟨fun xs k' h => ?_, fun moderate =>
      picker_of_moderate geod chance location k balanced hrec moderate hmax⟩
    have length := picker_length balanced hrec hmax h
    dsimp only [Option.getD_some]
    generalize hH : kept health l rs = H at length
    by_cases zero : totalWeight H = 0 ∨ l.weightOf q = 0
    · rw [if_pos zero] at length ⊢
      have same : xs.length = H.length := by omega
      rw [same]
    · rw [if_neg zero] at length ⊢
      have some : 0 < H.length := by
        apply List.length_pos_iff.mpr
        rintro rfl
        exact zero (.inl rfl)
      by_cases cname : q = typeCNAME
      · simp only [cname, if_true, forall_const] at length ⊢
        omega
      · simp only [cname, if_false, false_imp_iff, and_true, iff_true] at length ⊢
        omega

end

/-- The limit of two holds for the three addresses. -/
theorem limit_of_two_holds : ∃ l, smallWeights.labels.lookup "www" = some l ∧
    ∃ xs k', picker (reports (fun _ => statusUnknown)) smallGeodesy smallChance l typeA 2 none 0 =
      .ok (xs, k') ∧ (xs.length : Int) ≤ 2 := by
  obtain ⟨l, rs, hl, hrec, _, moderate, weighted, all, balanced⟩ := smallWeights_label
  have total : totalWeight rs = l.weightOf typeA := (balanced.weights hrec).symm
  obtain ⟨iff, returns⟩ := limit_holds_iff (fun _ => statusUnknown) smallGeodesy smallChance none 0
    balanced (by decide : typeA ∈ alwaysWeighted) (by decide : (0 : Int) ≤ 2)
  rw [hrec, Option.getD_some, all] at iff returns
  obtain ⟨xs, k', h⟩ := returns moderate
  refine ⟨l, hl, xs, k', h, ((iff xs k' h).mpr ?_).1⟩
  have some := (Int64.ne_of_lt weighted).symm
  rw [if_neg (by rw [total]; exact not_or.mpr ⟨some, some⟩)]
  intro e
  exact absurd e (by decide)

/-- The zone `example.com` with a weighted address of `www` and two without weight, and a health
    reference. -/
def smallTested : Zone :=
  smallZone [("www", .obj [("health", .obj [("name", .str "web")]), ("a", .arr [
    .obj [("a", .str "192.0.2.1"), ("weight", .str "10"), ("health", .str "web/one")],
    .obj [("a", .str "192.0.2.2"), ("health", .str "web/two")],
    .obj [("a", .str "192.0.2.3"), ("health", .str "web/three")]])])]

/-- If only the weighted address is not healthy, the other two are returned, whatever the limit. -/
theorem limit_of_one_missed :
    Accepted smallExternals smallTested ∧ ∃ l rs, smallTested.labels.lookup "www" = some l ∧
      Balanced l ∧ l.recordsOf typeA = some rs ∧ (∀ r ∈ rs, 0 ≤ r.weight) ∧
      ∃ xs k', picker (reports (fun n => if n = "web/one" then statusUnhealthy else statusHealthy))
        smallGeodesy smallChance l typeA 1 none 0 = .ok (xs, k') ∧ ¬ (xs.length : Int) ≤ 1 := by
  have accepted : Accepted smallExternals smallTested := smallZone_accepted rfl
  obtain ⟨l, rs, xs, k', hl, hrec, nonneg, h, more⟩ : ∃ l rs xs k',
      smallTested.labels.lookup "www" = some l ∧ l.recordsOf typeA = some rs ∧ (∀ r ∈ rs, 0 ≤ r.weight) ∧
      picker (reports (fun n => if n = "web/one" then statusUnhealthy else statusHealthy))
        smallGeodesy smallChance l typeA 1 none 0 = .ok (xs, k') ∧ ¬ (xs.length : Int) ≤ 1 :=
    ⟨_, _, _, _, rfl, rfl, by decide +kernel, rfl, by decide +kernel⟩
  exact ⟨accepted, l, rs, hl, (Installed.accepted accepted).balanced hl, hrec, nonneg, xs, k', h, more⟩

end GeoDNS.Zones
