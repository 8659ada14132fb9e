import GeoDNS.Zones.Installed
import GeoDNS.Zones.Representation

/-!
# Balancing by weight

What `Picker` does with the records of a label that is in order, as all labels of zones in service are
(`Installed.balanced`), for any health state. `candidates_reports` says what the health filter keeps;
`drawingStart` is the state in which the drawing loop begins, so that a statement about the loop is one
about the states that follow it. Records are told apart by their positions in `label.Records[t]`: what is
left for the drawing loop are records at different positions (`sublist_positions`).
-/

namespace GeoDNS.Zones
open GeoDNS.Lib GeoDNS.Dns GeoDNS.Health GeoDNS.Targeting

section
variable {ext : Externals} {z : Zone} {k : String} {l l' : Label}

/-- A label stays in order with other places and tests. -/
lemma Retouched.balanced (same : Retouched l l') (balanced : Balanced l) : Balanced l' := by
  have total : ∀ t, l'.weightOf t = l.weightOf t := by
    intro t
    rw [LabelOf.weightOf, same.weight, LabelOf.weightOf]
  have weights : ∀ {t rs'}, l'.recordsOf t = some rs' →
      ∃ rs, l.recordsOf t = some rs ∧ rs'.map Record.weight = rs.map Record.weight := by
    intro t rs' hrec'
    obtain ⟨rs, f, hf, hrec, rfl⟩ := same.of_recordsOf hrec'
    refine ⟨rs, hrec, ?_⟩
    rw [List.map_map]
    exact List.map_congr_left (fun r _ => (hf r).2)
  constructor
  case weights =>
    intro t rs' hrec'
    obtain ⟨rs, hrec, e⟩ := weights hrec'
    rw [total, e]
    exact balanced.weights hrec
  case sorted =>
    intro t rs' hrec' pos
    obtain ⟨rs, hrec, e⟩ := weights hrec'
    rw [total] at pos
    have sorted : (rs.map Record.weight).Pairwise (fun a b => b ≤ a) :=
      List.pairwise_map.mpr (balanced.sorted hrec pos)
    rw [← e] at sorted
    exact List.pairwise_map.mp sorted
  case aliases =>
    rw [total]
    exact balanced.aliases
  case any => exact same.recordsOf_none.mpr balanced.any

/-- Every label of a zone in service is in order. -/
theorem Installed.balanced (h : Installed ext z) (hl : z.labels.lookup k = some l) : Balanced l := by
  induction h generalizing l with
  | accepted h =>
    obtain ⟨data, raw, empty, ok⟩ := h
    exact setupZoneData_balanced empty ok hl
  | located g _ ih =>
    obtain ⟨l0, hl0, rfl⟩ := exists_of_lookup_setLocations hl
    exact (retouched_locate g l0).balanced (ih hl0)
  | tested _ ih =>
    rw [ZoneOf.setupHealthTests, GoMap.lookup_mapVals] at hl
    obtain ⟨l0, hl0, rfl⟩ := Option.map_eq_some_iff.mp hl
    exact (retouched_setupHealthTests l0).balanced (ih hl0)

end

/-! ## What the health filter keeps -/

/-- A health state: every test has a status. -/
def reports (health : String → StatusType) (name : String) : Res StatusType :=
  .ok (health name)

/-- Is a record of this label kept in this health state? -/
def keeps (health : String → StatusType) (l : Label) (r : Record) : Bool :=
  l.test.isNone ∨ r.test = "" ∨ health r.test = statusHealthy

/-- The records that are kept. -/
def kept (health : String → StatusType) (l : Label) (rs : List Record) : List Record :=
  rs.filter (keeps health l)

/-- The weight of records together, as Go sums it up. -/
def totalWeight (rs : List Record) : Int64 :=
  (rs.map Record.weight).sum

section
variable {health : String → StatusType} {geod : Geodesy} {chance : Chance} {l : Label} {q : RRType}
variable {max : Int} {location : Option Location} {k : Nat} {rs : List Record}

/-- What is left when every test has its status. -/
lemma filterHealth_reports (tested : l.test.isNone = false) (rs : List Record) :
    filterHealth (reports health) rs = .ok (kept health l rs, totalWeight (kept health l rs)) := by
  induction rs with
  | nil => rfl
  | cons r rs ih =>
    have passes : passesHealth (reports health) r = .ok (keeps health l r) := by
      unfold passesHealth keeps
      by_cases own : r.test = ""
      · simp [own]
      · simp [own, tested, reports]
        rfl
    have step : kept health l (r :: rs) =
        if keeps health l r then r :: kept health l rs else kept health l rs := List.filter_cons
    rw [filterHealth, passes, ih, step]
    cases keeps health l r <;> rfl

/-- The candidates of `Picker` are the records that are kept. -/
lemma candidates_reports (balanced : Balanced l) (hrec : l.recordsOf q = some rs) :
    candidates (reports health) l q rs = .ok (kept health l rs, totalWeight (kept health l rs)) := by
  unfold candidates
  cases test : l.test with
  | some ref => exact filterHealth_reports (by rw [test]; rfl) rs
  | none =>
    have all : kept health l rs = rs := List.filter_eq_self.mpr (fun r _ => by simp [keeps, test])
    rw [all, totalWeight, ← balanced.weights hrec]

/-- Candidates that weigh nothing together are not drawn from. -/
lemma unbalanced_of_weightless {status : String → Res StatusType} {servers : List Record} {sum : Int64}
    (hc : candidates status l q rs = .ok (servers, sum)) (zero : sum = 0) : unbalanced l q sum = true := by
  apply decide_eq_true
  cases test : l.test with
  | some ref => exact .inl ⟨rfl, zero⟩
  | none =>
    rw [candidates, test] at hc
    cases hc
    exact .inr zero

/-- If the records are moderate, those that are kept are moderate as well and weigh no more than the label
    has on record. -/
lemma moderate_kept (health : String → StatusType) (balanced : Balanced l)
    (hrec : l.recordsOf q = some rs) (moderate : Moderate rs) :
    Moderate (kept health l rs) ∧ totalWeight (kept health l rs) ≤ l.weightOf q := by
  refine ⟨moderate.sublist List.filter_sublist, ?_⟩
  rw [balanced.weights hrec]
  exact moderate.total_le List.filter_sublist

/-! ## The drawing loop -/

/-- The state in which the drawing loop of `Picker` begins, if it does. -/
def drawingStart (status : String → Res StatusType) (geod : Geodesy) (l : Label) (q : RRType)
    (max : Int) (location : Option Location) (k : Nat) : Res (Option (DrawState Record Int64)) :=
  match l.recordsOf q with
  | none => .ok none
  | some labelRR => do
    let (servers, sum) ← candidates status l q labelRR
    if unbalanced l q sum then return none
    else
      let max := pickLimit q max servers.length
      if max < 0 then .panic .range
      else
        let (servers, sum) ← closest geod location q max servers sum
        return some ⟨max.toNat, k, sum, servers⟩

/-- From there on `Picker` draws. -/
lemma pickType_drawing {status : String → Res StatusType} {s : DrawState Record Int64}
    (h : drawingStart status geod l q max location k = .ok (some s)) :
    pickType status geod chance l q max location k =
      draw Record.weight (Machine.intn chance.draws) s.slots s.k s.sum s.left := by
  unfold drawingStart at h
  unfold pickType
  cases hrec : l.recordsOf q with
  | none =>
    rw [hrec] at h
    cases h
  | some labelRR =>
    rw [hrec] at h
    obtain ⟨⟨servers, sum⟩, hc, h⟩ := Res.bind_eq_ok.mp h
    dsimp only at h ⊢
    rw [hc, Res.ok_bind]
    dsimp only
    split_ifs at h ⊢
    · cases h
    · obtain ⟨⟨servers', sum'⟩, hcl, h⟩ := Res.bind_eq_ok.mp h
      cases h
      rw [hcl, Res.ok_bind]

/-- The loop begins with some of the records that are kept, at least as many as are to be drawn, and with
    their total weight. -/
lemma drawingStart_begins (geod : Geodesy) (location : Option Location) (k : Nat) (balanced : Balanced l)
    (hrec : l.recordsOf q = some rs)
    (draws : unbalanced l q (totalWeight (kept health l rs)) = false)
    (limit : 0 ≤ pickLimit q max (kept health l rs).length) :
    ∃ left, drawingStart (reports health) geod l q max location k =
        .ok (some ⟨(pickLimit q max (kept health l rs).length).toNat, k, totalWeight left, left⟩) ∧
      closest geod location q (pickLimit q max (kept health l rs).length) (kept health l rs)
        (totalWeight (kept health l rs)) = .ok (left, totalWeight left) ∧
      left.Sublist (kept health l rs) ∧ (pickLimit q max (kept health l rs).length).toNat ≤ left.length := by
  obtain ⟨left, sum, hcl, sub, enough, hsum⟩ := closest_returns geod location q
    (totalWeight (kept health l rs)) (pickLimit_le q max (kept health l rs).length)
  obtain rfl : sum = totalWeight left := hsum rfl
  refine ⟨left, ?_, hcl, sub, by omega⟩
  unfold drawingStart
  rw [hrec]
  dsimp only
  rw [candidates_reports balanced hrec, Res.ok_bind]
  dsimp only
  rw [draws, if_neg (by decide), if_neg (by omega), hcl, Res.ok_bind]
  rfl

/-- Some of the records are records at different positions. -/
lemma sublist_positions {left : List Record} (sub : left.Sublist rs) :
    ∃ ps : List (Fin rs.length), left = ps.map rs.get ∧ ps.Nodup := by
  obtain ⟨ps, e, increasing⟩ := List.sublist_eq_map_getElem sub
  exact ⟨ps, e, increasing.imp (fun lt => Fin.ne_of_lt lt)⟩

/-- The weight of the records at some positions. -/
lemma totalWeight_positions (ps : List (Fin rs.length)) :
    totalWeight (ps.map rs.get) = (ps.map (fun i => (rs.get i).weight)).sum := by
  rw [totalWeight, List.map_map]
  rfl

end
end GeoDNS.Zones
