import GeoDNS.Zones.Drawing

/-!
# The closest records

For a client whose place is known, `Picker` chooses among the addresses by distance before it draws. What
is chosen is everything within some distance, and that lies between the `max`-th smallest distance and
five percent more (`closest_chosen`, from `nearest_orderStat`).
-/

namespace GeoDNS.Zones
open GeoDNS.Lib GeoDNS.Dns GeoDNS.Health GeoDNS.Targeting

/-- What is asked of the records that are chosen by distance: there are enough of them, nothing nearer is
    left out, and they are about as near as the `max`-th nearest record. -/
structure ClosestChoice (distance : Record → Rat) (max : Int) (servers : List Record)
    (chosen : Record → Bool) : Prop where
  enough : max ≤ (servers.filter chosen).length
  closed : ∀ i ∈ servers, ∀ j ∈ servers, chosen i → distance j ≤ distance i → chosen j
  near : ∀ j ∈ servers, distance j ≤ orderStat (servers.map distance) (max.toNat - 1) → chosen j
  margin : ∀ i ∈ servers, chosen i →
    distance i ≤ 105 / 100 * orderStat (servers.map distance) (max.toNat - 1)

section
variable {q : RRType} {max : Int} {servers : List Record}

/-- The limit for addresses is the one asked for. -/
lemma pickLimit_eq_max {n : Nat} (hq : q = typeA ∨ q = typeAAAA) (le : max ≤ n) :
    pickLimit q max n = max := by
  have ne : ¬ (q = typeCNAME ∨ q = typeMF) := by
    rcases hq with rfl | rfl <;> decide
  unfold pickLimit
  rw [if_neg ne]
  exact if_neg (by omega)

/-- The choice by distance returns, with the total weight of what it has chosen. -/
lemma closest_chosen (geod : Geodesy) (here : Location) (hq : q = typeA ∨ q = typeAAAA) (pos : 1 ≤ max)
    (more : max < servers.length) :
    ∃ chosen, (∀ sum, closest geod (some here) q max servers sum =
        .ok (servers.filter chosen, totalWeight (servers.filter chosen))) ∧
      ClosestChoice (fun r => geod.distance here r.loc) max servers chosen := by
  have bounds : ∀ s ∈ servers, 0 ≤ geod.distance here s.loc ∧ geod.distance here s.loc ≤ maxDistance :=
    fun s _ => ⟨geod.distance_nonneg here s.loc, geod.distance_le here s.loc⟩
  have slack : (1 : Rat) ≤ 21 / 20 := by norm_num
  obtain ⟨θ, h, enough, above, below⟩ := nearest_orderStat slack bounds (by omega) (le_of_lt more)
  refine ⟨fun r => geod.distance here r.loc ≤ θ, ?_, enough, ?_, ?_, ?_⟩
  · intro sum
    unfold closest
    dsimp only
    rw [if_pos ⟨hq, more⟩, h, Res.ok_bind]
    rfl
  · intro i _ j _ hi le
    simp only [decide_eq_true_eq] at hi ⊢
    exact le.trans hi
  · intro j _ le
    simp only [decide_eq_true_eq]
    exact le.trans above
  · intro i _ hi
    simp only [decide_eq_true_eq] at hi
    linarith

/-- The choice by distance among more than `max` records ends, with what is asked of it. `Picker` starts
    to draw with the total weight of what is chosen, and returns only records among it. -/
theorem closest_picked (geod : Geodesy) (here : Location) (hq : q = typeA ∨ q = typeAAAA) (pos : 1 ≤ max)
    (more : max < servers.length) :
    ∃ chosen, ClosestChoice (fun r => geod.distance here r.loc) max servers chosen ∧
      (∀ sum, closest geod (some here) q max servers sum =
        .ok (servers.filter chosen, totalWeight (servers.filter chosen))) ∧
      ∀ status l labelRR sum k, l.recordsOf q = some labelRR →
        candidates status l q labelRR = .ok (servers, sum) → unbalanced l q sum = false →
        drawingStart status geod l q max (some here) k =
          .ok (some ⟨max.toNat, k, totalWeight (servers.filter chosen), servers.filter chosen⟩) ∧
        ∀ chance xs k', picker status geod chance l q max (some here) k = .ok (xs, k') →
          ∀ r, some r ∈ xs → r ∈ servers.filter chosen := by
  obtain ⟨chosen, h, choice⟩ := closest_chosen geod here hq pos more
  refine ⟨chosen, choice, h, ?_⟩
  intro status l labelRR sum k hrec hc draws
  have begins : drawingStart status geod l q max (some here) k =
      .ok (some ⟨max.toNat, k, totalWeight (servers.filter chosen), servers.filter chosen⟩) := by
    unfold drawingStart
    rw [hrec]
    dsimp only
    rw [hc, Res.ok_bind]
    dsimp only
    rw [draws, if_neg (by decide), pickLimit_eq_max hq (le_of_lt more), if_neg (by omega), h, Res.ok_bind]
    rfl
  refine ⟨begins, ?_⟩
  intro chance xs k' hp r hr
  have ne : q ≠ typeANY := by
    rcases hq with rfl | rfl <;> decide
  rw [picker, if_neg ne, pickType_drawing begins] at hp
  exact draw_mem hp hr

end

/-- A place in this country, on this continent. -/
def smallPlace (country continent : String) : Location :=
  ⟨country, continent, "", "", .ofInt 56 (by decide), .ofInt 10 (by decide), 16⟩

/-- Places in one country are near, those on one continent not far, and others far from each other. -/
def smallDegrees (a b : Location) : Rat :=
  if a.country = b.country then 1 else if a.continent = b.continent then 10 else 80

/-- These distances are in range. -/
lemma smallDegrees_range (a b : Location) : 0 ≤ smallDegrees a b ∧ smallDegrees a b ≤ maxDistance := by
  unfold smallDegrees maxDistance
  split_ifs <;> norm_num

/-- A measure with different distances. -/
def smallMeasure : Geodesy where
  degrees := smallDegrees
  nonneg a b := (smallDegrees_range a b).1
  le_max a b := (smallDegrees_range a b).2

/-- A geo database that knows the places of three addresses. -/
def smallPlaces : Provider where
  getCountry _ := ("", "", 0)
  getASN _ := ("", 0, none)
  getLocation ip :=
    match ip.getLast? with
    | some 1 => (some (smallPlace "us" "north-america"), none)
    | some 2 => (some (smallPlace "dk" "europe"), none)
    | some 3 => (some (smallPlace "se" "europe"), none)
    | _ => (none, some "unknown")

/-- The zone `example.com` with three addresses of `www`, in different countries. -/
def smallSpread : Zone :=
  (smallZone [("www", .obj [("closest", .bool true), ("a", .arr [.arr [.str "192.0.2.1", .str "30"],
    .arr [.str "192.0.2.2", .str "20"], .arr [.str "192.0.2.3", .str "10"]])])]).setLocations smallPlaces

/-- Two of the addresses are on the continent of the client, and these are chosen to draw from. -/
theorem three_addresses_near : ∃ l rs, smallSpread.labels.lookup "www" = some l ∧
    l.recordsOf typeA = some rs ∧
    rs.map (fun r => smallMeasure.distance (smallPlace "dk" "europe") r.loc) = [80, 1, 10] ∧
    ∃ chosen : Record → Bool,
      ClosestChoice (fun r => smallMeasure.distance (smallPlace "dk" "europe") r.loc) 2 rs chosen ∧
      rs.map chosen = [false, true, true] ∧ totalWeight (rs.filter chosen) = 30 ∧
      drawingStart (reports (fun _ => statusUnknown)) smallMeasure l typeA 2
          (some (smallPlace "dk" "europe")) 0 =
        .ok (some ⟨2, 0, totalWeight (rs.filter chosen), rs.filter chosen⟩) := by
  obtain ⟨l, far, near, middle, sum, hl, hrec, distances, weights, hc, draws⟩ : ∃ l far near middle sum,
      smallSpread.labels.lookup "www" = some l ∧ l.recordsOf typeA = some [far, near, middle] ∧
      [far, near, middle].map (fun r => smallMeasure.distance (smallPlace "dk" "europe") r.loc) =
        [80, 1, 10] ∧ totalWeight [near, middle] = 30 ∧
      candidates (reports (fun _ => statusUnknown)) l typeA [far, near, middle] =
        .ok ([far, near, middle], sum) ∧ unbalanced l typeA sum = false :=
    ⟨_, _, _, _, _, rfl, rfl, rfl, rfl, rfl, by decide +kernel⟩
  have more : (2 : Int) < [far, near, middle].length := by simp
  obtain ⟨chosen, choice, _, picked⟩ :=
    closest_picked smallMeasure (smallPlace "dk" "europe") (.inl rfl) (by decide : (1 : Int) ≤ 2) more
  have rank : orderStat [80, 1, 10] (Int.toNat 2 - 1) = 10 := by decide +kernel
  obtain ⟨dfar, dnear, dmiddle⟩ : smallMeasure.distance (smallPlace "dk" "europe") far.loc = 80 ∧
      smallMeasure.distance (smallPlace "dk" "europe") near.loc = 1 ∧
      smallMeasure.distance (smallPlace "dk" "europe") middle.loc = 10 := by simpa using distances
  have left_out : chosen far = false := by
    by_contra h
    have le := choice.margin far (by simp) (by simpa using h)
    rw [distances, rank, dfar] at le
    norm_num at le
  have first : chosen near = true := choice.near near (by simp) (by rw [distances, rank, dnear]; norm_num)
  have second : chosen middle = true :=
    choice.near middle (by simp) (by rw [distances, rank, dmiddle])
  have filter : [far, near, middle].filter chosen = [near, middle] := by
    simp [left_out, first, second]
  refine ⟨l, _, hl, hrec, distances, chosen, choice, by simp [left_out, first, second], ?_,
    (picked _ l _ sum 0 hrec hc draws).1⟩
  rw [filter, weights]

end GeoDNS.Zones
