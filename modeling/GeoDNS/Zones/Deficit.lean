import GeoDNS.Zones.Drawing

/-!
# Weights of any sign

The loader takes any integer as a weight and as `max_hosts`. A negative limit is the length of a slice
that `Picker` makes, and weights that are negative, or whose sum overflows, can leave a sum below zero for
`rand.Intn` to choose from, or one that cannot be counted one further, at the first draw or after some
records are gone.

`picks_iff` says for which labels neither ever happens: no sum of what may be left is one of these, for every
choice of candidates that the health filter and the choice by distance can leave (`Survives`). As long as
nothing overflows this is a matter of the weights without those of the heaviest records, one less than are
drawn (`TailWeighs`).
-/

namespace GeoDNS.Zones
open GeoDNS.Lib GeoDNS.Dns GeoDNS.Health GeoDNS.Targeting

/-- `Picker` returns, and none of the records is nil. -/
def Picks (status : String → Res StatusType) (geod : Geodesy) (chance : Chance) (l : Label) (q : RRType)
    (max : Int) (location : Option Location) (k : Nat) : Prop :=
  ∃ (ys : List Record) (k' : Nat),
    picker status geod chance l q max location k = .ok (ys.map some, k')

/-- The number of records to draw, if there are enough. -/
def drawLimit (l : Label) (q : RRType) : Int :=
  if q = typeCNAME ∨ q = typeMF then 1 else l.maxHosts

/-- Whatever the health state and the place: when records are drawn, no sum of what may be left of the
    candidates stops the draw. -/
def Survives (geod : Geodesy) (l : Label) (q : RRType) (rs : List Record) : Prop :=
  ∀ health location left sum, unbalanced l q (totalWeight (kept health l rs)) = false →
    closest geod location q (pickLimit q l.maxHosts (kept health l rs).length) (kept health l rs)
      (totalWeight (kept health l rs)) = .ok (left, sum) →
    Machine.Drawable Record.weight (pickLimit q l.maxHosts (kept health l rs).length).toNat left

/-- Whatever the health state and the place: when records are drawn, the weights of the candidates
    without the heaviest of them, one less than are drawn, have a sum that is not negative. -/
def TailWeighs (geod : Geodesy) (l : Label) (q : RRType) (rs : List Record) : Prop :=
  ∀ health location left sum, unbalanced l q (totalWeight (kept health l rs)) = false →
    closest geod location q (pickLimit q l.maxHosts (kept health l rs).length) (kept health l rs)
      (totalWeight (kept health l rs)) = .ok (left, sum) →
    0 ≤ totalWeight (left.drop ((pickLimit q l.maxHosts (kept health l rs).length).toNat - 1))

section
variable {ext : Externals} {z : Zone} {name : String} {geod : Geodesy} {l : Label} {q : RRType}
variable {rs : List Record} {health : String → StatusType} {chance : Chance}
variable {location : Option Location} {k : Nat}

/-- How many records are drawn from `n` candidates. -/
lemma pickLimit_maxHosts (l : Label) (q : RRType) (n : Nat) :
    pickLimit q l.maxHosts n = min (drawLimit l q) n := by
  unfold pickLimit drawLimit
  dsimp only
  split <;> omega

/-- If records are drawn, `Picker` picks whatever the random numbers exactly if no sum that may be left stops
    the draw. -/
lemma picks_drawing (geod : Geodesy) (location : Option Location) (k : Nat) (balanced : Balanced l)
    (hrec : l.recordsOf q = some rs) (limit : 0 ≤ drawLimit l q)
    (draws : unbalanced l q (totalWeight (kept health l rs)) = false) :
    ∃ left, closest geod location q (pickLimit q l.maxHosts (kept health l rs).length) (kept health l rs)
        (totalWeight (kept health l rs)) = .ok (left, totalWeight left) ∧
      left.Sublist (kept health l rs) ∧
      (pickLimit q l.maxHosts (kept health l rs).length).toNat ≤ left.length ∧
      ((∀ chance, Picks (reports health) geod chance l q l.maxHosts location k) ↔
        Machine.Drawable Record.weight (pickLimit q l.maxHosts (kept health l rs).length).toNat left) := by
  have limit' : 0 ≤ pickLimit q l.maxHosts (kept health l rs).length := by
    rw [pickLimit_maxHosts]
    omega
  obtain ⟨left, begins, hcl, sub, enough⟩ :=
    drawingStart_begins geod location k balanced hrec draws limit'
  refine ⟨left, hcl, sub, enough, ?_⟩
  have tallied : Tallied Record.weight
      ⟨(pickLimit q l.maxHosts (kept health l rs).length).toNat, k, totalWeight left, left⟩ := ⟨rfl, enough⟩
  rw [← Machine.draws_iff tallied]
  constructor
  · intro all numbers
    obtain ⟨ys, k', h⟩ := all { smallChance with draws := numbers }
    rw [picker_of_ne balanced hrec, pickType_drawing begins] at h
    exact ⟨ys, k', h⟩
  · intro all chance
    obtain ⟨ys, k', h⟩ := all chance.draws
    refine ⟨ys, k', ?_⟩
    rw [picker_of_ne balanced hrec, pickType_drawing begins]
    exact h

/-- All records are kept if all tests are healthy. -/
lemma kept_healthy (l : Label) (rs : List Record) : kept (fun _ => statusHealthy) l rs = rs :=
  List.filter_eq_self.mpr (fun r _ => by simp [keeps])

/-- If all records are healthy and have a total, they are drawn from. -/
lemma draws_healthy (balanced : Balanced l) (hrec : l.recordsOf q = some rs)
    (weighted : l.weightOf q ≠ 0) :
    unbalanced l q (totalWeight (kept (fun _ => statusHealthy) l rs)) = false := by
  rw [← Bool.not_eq_true, unbalanced_iff balanced hrec, kept_healthy]
  have total : totalWeight rs = l.weightOf q := (balanced.weights hrec).symm
  rw [total, or_self]
  exact weighted

/-- If all records are healthy, drawing from them takes a limit that is not negative. -/
lemma drawLimit_nonneg (balanced : Balanced l) (hrec : l.recordsOf q = some rs)
    (picks : Picks (reports (fun _ => statusHealthy)) geod chance l q l.maxHosts location k)
    (weighted : l.weightOf q ≠ 0) : 0 ≤ drawLimit l q := by
  obtain ⟨ys, k', h⟩ := picks
  rw [picker_of_ne balanced hrec, pickType, hrec] at h
  dsimp only at h
  rw [candidates_reports balanced hrec, Res.ok_bind] at h
  dsimp only at h
  rw [draws_healthy balanced hrec weighted, if_neg Bool.false_ne_true, pickLimit_maxHosts] at h
  split at h
  · cases h
  · omega

/-- `Picker` picks in all circumstances exactly if nothing is drawn, or else the limit is not negative and
    no sum that may be left stops the draw. -/
lemma picks_iff_survives (geod : Geodesy) (balanced : Balanced l) (hrec : l.recordsOf q = some rs) :
    (∀ health location chance k, Picks (reports health) geod chance l q l.maxHosts location k) ↔
      l.weightOf q = 0 ∨ (0 ≤ drawLimit l q ∧ Survives geod l q rs) := by
  constructor
  · intro all
    by_cases weighted : l.weightOf q = 0
    · exact .inl weighted
    · have limit := drawLimit_nonneg balanced hrec (all _ none smallChance 0) weighted
      refine .inr ⟨limit, fun health location left sum draws hcl => ?_⟩
      obtain ⟨left', hcl', _, _, iff⟩ := picks_drawing geod location 0 balanced hrec limit draws
      rw [hcl] at hcl'
      cases hcl'
      exact iff.mp (fun chance => all health location chance 0)
  · intro h health location chance k
    cases draws : unbalanced l q (totalWeight (kept health l rs)) with
    | true => exact ⟨_, k, picker_unbalanced balanced hrec draws⟩
    | false =>
      rcases h with weighted | ⟨limit, survives⟩
      · exact absurd (.inr weighted) (of_decide_eq_false draws)
      · obtain ⟨left, hcl, _, _, iff⟩ := picks_drawing geod location k balanced hrec limit draws
        exact iff.mpr (survives health location left _ draws hcl) chance

/-- What survives has a total that is positive, if records are to be drawn at all. -/
lemma Survives.weight_pos (survives : Survives geod l q rs) (balanced : Balanced l)
    (hrec : l.recordsOf q = some rs) (weighted : l.weightOf q ≠ 0) (limit : 0 < drawLimit l q) :
    0 < l.weightOf q := by
  have total : totalWeight rs = l.weightOf q := (balanced.weights hrec).symm
  have some : 0 < rs.length := by
    apply List.length_pos_iff.mpr
    rintro rfl
    exact weighted total.symm
  have drawable := survives (fun _ => statusHealthy) none _ _ (draws_healthy balanced hrec weighted) rfl
  rw [kept_healthy] at drawable
  obtain ⟨n, hn⟩ : ∃ n, (pickLimit q l.maxHosts rs.length).toNat = n + 1 := by
    apply Nat.exists_eq_succ_of_ne_zero
    rw [pickLimit_maxHosts]
    omega
  rw [hn] at drawable
  have nonneg : 0 ≤ l.weightOf q := total ▸ drawable.1.1
  exact Int64.lt_of_le_of_ne nonneg (Ne.symm weighted)

/-- Without overflow, no sum stops the draws from sorted records exactly if enough weight is behind the
    heaviest of them. -/
lemma survives_iff (geod : Geodesy) (balanced : Balanced l) (hrec : l.recordsOf q = some rs)
    (fits : absSum (rs.map Record.weight) < 2 ^ 63 - 1) (limit : 0 < drawLimit l q)
    (pos : 0 < l.weightOf q) : Survives geod l q rs ↔ TailWeighs geod l q rs := by
  -- the two conditions are one for the candidates of each state and place
  have each : ∀ health location left sum, unbalanced l q (totalWeight (kept health l rs)) = false →
      closest geod location q (pickLimit q l.maxHosts (kept health l rs).length) (kept health l rs)
        (totalWeight (kept health l rs)) = .ok (left, sum) →
      (Machine.Drawable Record.weight (pickLimit q l.maxHosts (kept health l rs).length).toNat left ↔
        0 ≤ totalWeight (left.drop ((pickLimit q l.maxHosts (kept health l rs).length).toNat - 1))) := by
    intro health location left sum draws hcl
    obtain ⟨left', hcl', sub, enough, _⟩ :=
      picks_drawing geod location 0 balanced hrec (le_of_lt limit) draws
    rw [hcl] at hcl'
    cases hcl'
    have sub' : left.Sublist rs := sub.trans List.filter_sublist
    have desc : Machine.Descending Record.weight left := (balanced.sorted hrec pos).sublist sub'
    have fits' : absSum (left.map Record.weight) < 2 ^ 63 - 1 := by
      have fewer := absSum_le_of_sublist (sub'.map Record.weight)
      omega
    rw [Machine.drawable_iff desc fits' enough]
    constructor
    · rintro (zero | le)
      · -- nothing is left to draw from
        rw [pickLimit_maxHosts] at zero
        have none : kept health l rs = [] := List.length_eq_zero_iff.mp (by omega)
        rw [none] at sub
        cases sub
        rw [List.drop_nil]
        exact Int64.le_refl 0
      · exact le
    · exact .inr
  constructor
  · intro survives health location left sum draws hcl
    exact (each health location left sum draws hcl).mp (survives health location left sum draws hcl)
  · intro tail health location left sum draws hcl
    exact (each health location left sum draws hcl).mpr (tail health location left sum draws hcl)

/-- `Picker` picks from a label of a zone in service, in all circumstances, exactly if the type has no
    weight, or the limit is not negative and no sum that may be left stops the draw. If the absolute values
    of the weights do not overflow, this means: the type has no weight, or no records are to be drawn, or
    there is a limit, a positive weight, and enough of it in whatever is left. -/
theorem picks_iff (geod : Geodesy) (installed : Installed ext z) (hl : z.labels.lookup name = some l)
    (hrec : l.recordsOf q = some rs) :
    ((∀ health location chance k, Picks (reports health) geod chance l q l.maxHosts location k) ↔
      l.weightOf q = 0 ∨ (0 ≤ drawLimit l q ∧ Survives geod l q rs)) ∧
    (absSum (rs.map Record.weight) < 2 ^ 63 - 1 →
      ((∀ health location chance k, Picks (reports health) geod chance l q l.maxHosts location k) ↔
        l.weightOf q = 0 ∨ drawLimit l q = 0 ∨
          (0 < drawLimit l q ∧ 0 < l.weightOf q ∧ TailWeighs geod l q rs))) := by
  have balanced := installed.balanced hl
  refine ⟨picks_iff_survives geod balanced hrec, fun fits => ?_⟩
  rw [picks_iff_survives geod balanced hrec]
  by_cases weighted : l.weightOf q = 0
  · exact iff_of_true (.inl weighted) (.inl weighted)
  · rw [or_iff_right weighted, or_iff_right weighted]
    constructor
    · rintro ⟨limit, survives⟩
      by_cases limited : drawLimit l q = 0
      · exact .inl limited
      · have limit' : 0 < drawLimit l q := by omega
        have pos := survives.weight_pos balanced hrec weighted limit'
        exact .inr ⟨limit', pos, (survives_iff geod balanced hrec fits limit' pos).mp survives⟩
    · rintro (limited | ⟨limit, pos, tail⟩)
      · refine ⟨limited.ge, fun health location left sum _ _ => ?_⟩
        have none : (pickLimit q l.maxHosts (kept health l rs).length).toNat = 0 := by
          rw [pickLimit_maxHosts]
          omega
        rw [none]
        exact trivial
      · exact ⟨limit.le, (survives_iff geod balanced hrec fits limit pos).mpr tail⟩

/-- Moderate records and limits that are not negative are safe. -/
lemma tailWeighs_of_moderate (geod : Geodesy) (moderate : Moderate rs) : TailWeighs geod l q rs := by
  intro health location left sum _ hcl
  obtain ⟨left', sum', hcl', sub, _⟩ := closest_returns geod location q
    (totalWeight (kept health l rs)) (pickLimit_le q l.maxHosts (kept health l rs).length)
  rw [hcl] at hcl'
  cases hcl'
  exact (moderate.sublist
    ((List.drop_sublist _ left).trans (sub.trans List.filter_sublist))).drawn.1

end

/-- The three addresses of `www`, whose weights are not negative, are always safe to pick from. -/
theorem small_weights_safe : ∃ l, smallWeights.labels.lookup "www" = some l ∧
    ∀ health location chance k, Picks (reports health) smallGeodesy chance l typeA l.maxHosts location k := by
  obtain ⟨l, rs, hl, hrec, _, moderate, pos, _, balanced⟩ := smallWeights_label
  have installed : Installed smallExternals smallWeights := .accepted (smallZone_accepted rfl)
  refine ⟨l, hl, ((picks_iff smallGeodesy installed hl hrec).2 moderate.absSum_lt).mpr ?_⟩
  have limit : 0 < drawLimit l typeA := by
    cases hl
    decide +kernel
  exact .inr (.inr ⟨limit, pos, tailWeighs_of_moderate smallGeodesy moderate⟩)

/-- The zone `example.com` with addresses of `www` of which one has a negative weight, all three to be
    drawn. -/
def smallDeficit : Zone :=
  smallZone [("www", .obj [("max_hosts", .str "3"), ("a", .arr [.arr [.str "192.0.2.1", .str "10"],
    .arr [.str "192.0.2.2", .str "10"], .arr [.str "192.0.2.3", .str "-1"]])])]

/-- Once the others are drawn, the sum is negative. -/
theorem deficit_panics : Accepted smallExternals smallDeficit ∧
    ∃ l, smallDeficit.labels.lookup "www" = some l ∧
      picker (reports (fun _ => statusUnknown)) smallGeodesy smallChance l typeA l.maxHosts none 0 =
        .panic (.explicit "invalid argument to Intn") ∧
      ¬ Picks (reports (fun _ => statusUnknown)) smallGeodesy smallChance l typeA l.maxHosts none 0 := by
  obtain ⟨l, hl, h⟩ : ∃ l, smallDeficit.labels.lookup "www" = some l ∧
      picker (reports (fun _ => statusUnknown)) smallGeodesy smallChance l typeA l.maxHosts none 0 =
        .panic (.explicit "invalid argument to Intn") := ⟨_, rfl, rfl⟩
  refine ⟨smallZone_accepted rfl, l, hl, h, ?_⟩
  rintro ⟨ys, k', h'⟩
  rw [h] at h'
  cases h'

end GeoDNS.Zones
