import GeoDNS.Lib.GoMap
import GeoDNS.Lib.Window
import Mathlib.Algebra.BigOperators.Group.List.Basic
import Mathlib.Algebra.GroupWithZero.Nat
import Mathlib.Data.List.Sort

/-!
# Statistics of a zone

`zones/zone_stats.go`: the last labels that were asked for, in a ring buffer. `Close` replaces the buffer
by an empty one without touching the position in it.

After any calls of `Add` and `Reset` the counts are those of a sliding window (`counts_window`), and
`TopCounts` cuts them without losing any (`topCounts_topOf`).
-/

namespace GeoDNS.Zones
open GeoDNS.Lib

/-- Go `zoneLabelStats`. -/
structure ZoneLabelStats where
  pos : Nat := 0
  rotated : Bool := false
  log : List String

/-- Go `NewZoneLabelStats`. -/
def newZoneLabelStats (size : Nat) : ZoneLabelStats where
  log := List.replicate size ""

/-- Go `zoneLabelStats.Close`. -/
def ZoneLabelStats.close (zs : ZoneLabelStats) : ZoneLabelStats :=
  { zs with log := [] }

/-- Go `zoneLabelStats.Add`. -/
def ZoneLabelStats.add (zs : ZoneLabelStats) (l : String) : Res ZoneLabelStats :=
  if zs.pos < zs.log.length then
    let log := zs.log.set zs.pos l
    if zs.pos + 1 + 1 > log.length then .ok { pos := 0, rotated := true, log := log }
    else .ok { zs with pos := zs.pos + 1, log := log }
  else .panic .index

/-- Go `zoneLabelStats.Reset`. -/
def ZoneLabelStats.reset (zs : ZoneLabelStats) : ZoneLabelStats :=
  { pos := 0, rotated := false, log := List.replicate zs.log.length "" }

/-- The loop of `Counts`, from position `i` on. -/
def ZoneLabelStats.countsFrom (zs : ZoneLabelStats) :
    Nat → List String → GoMap String Nat → GoMap String Nat
  | _, [], counts => counts
  | i, l :: log, counts =>
    if zs.rotated = false ∧ zs.pos ≤ i then counts
    else zs.countsFrom (i + 1) log (counts.increment l)

/-- Go `zoneLabelStats.Counts`. -/
def ZoneLabelStats.counts (zs : ZoneLabelStats) : GoMap String Nat :=
  zs.countsFrom 0 zs.log ∅

/-- Go `labelStat`. -/
structure LabelStat where
  label : String
  count : Nat
  deriving DecidableEq, Repr

/-- What the source leaves open: the order in which the loop over the counts comes to them, and what
    `sort.Sort` makes of labels with the same count. -/
structure StatsOrder where
  range : List LabelStat → List LabelStat
  range_perm : ∀ l, (range l).Perm l
  sort : List LabelStat → List LabelStat
  sort_perm : ∀ l, (sort l).Perm l
  sort_sorted : ∀ l, (sort l).Pairwise (fun a b => b.count ≤ a.count)

/-- Go `zoneLabelStats.TopCounts`. -/
def ZoneLabelStats.topCounts (ord : StatsOrder) (zs : ZoneLabelStats) (n : Nat) : List LabelStat :=
  let top := ord.range (zs.counts.entries.map (fun e => ⟨e.1, e.2⟩))
  let top := ord.sort top
  if n < top.length then
    let others := ((top.drop n).map LabelStat.count).sum
    top.take n ++ [⟨"Others", others⟩]
  else top

/-- The position is in the buffer. -/
def ZoneLabelStats.Open (zs : ZoneLabelStats) : Prop :=
  zs.pos < zs.log.length

/-- New statistics are open. -/
lemma open_newZoneLabelStats {size : Nat} (h : 0 < size) : (newZoneLabelStats size).Open := by
  simpa [ZoneLabelStats.Open, newZoneLabelStats] using h

/-- An open buffer takes a label and stays open. -/
lemma ZoneLabelStats.Open.add {zs : ZoneLabelStats} (h : zs.Open) (l : String) :
    ∃ zs', zs.add l = .ok zs' ∧ zs'.Open := by
  unfold ZoneLabelStats.Open at h
  unfold ZoneLabelStats.add
  rw [if_pos h]
  dsimp only
  split
  · refine ⟨_, rfl, ?_⟩
    show 0 < (zs.log.set zs.pos l).length
    rw [List.length_set]
    omega
  · refine ⟨_, rfl, ?_⟩
    show zs.pos + 1 < (zs.log.set zs.pos l).length
    omega

/-- A closed buffer takes none. -/
lemma ZoneLabelStats.add_closed {zs : ZoneLabelStats} (h : zs.log = []) (l : String) :
    zs.add l = .panic .index := by
  unfold ZoneLabelStats.add
  rw [if_neg (by simp [h])]

/-! ## The sliding window -/

/-- A call that changes the statistics. -/
inductive StatsCall where
  | add (l : String)
  | reset
  deriving DecidableEq, Repr

/-- One call. -/
def ZoneLabelStats.call (zs : ZoneLabelStats) : StatsCall → Res ZoneLabelStats
  | .add l => zs.add l
  | .reset => .ok zs.reset

/-- The labels since the last reset, one call later. -/
def StatsCall.note (added : List String) : StatsCall → List String
  | .add l => added ++ [l]
  | .reset => []

/-- The labels added since the last reset, or since the creation. -/
def sinceReset (calls : List StatsCall) : List String :=
  calls.foldl StatsCall.note []

/-- The buffer of the statistics holds the last of these labels. -/
def ZoneLabelStats.Holds (size : Nat) (zs : ZoneLabelStats) (added : List String) : Prop :=
  RingHolds size zs.pos zs.rotated zs.log added

section
variable {size : Nat} {zs : ZoneLabelStats} {added : List String}

/-- New statistics hold nothing. -/
lemma holds_newZoneLabelStats (some : 0 < size) : (newZoneLabelStats size).Holds size [] :=
  RingHolds.empty (List.length_replicate ..) some

/-- The statistics hold one more label after it is added. -/
lemma ZoneLabelStats.Holds.add (holds : zs.Holds size added) (l : String) :
    ∃ zs', zs.add l = .ok zs' ∧ zs'.Holds size (added ++ [l]) := by
  obtain ⟨next, wraps⟩ := RingHolds.push holds l
  have length : (zs.log.set zs.pos l).length = size := by
    rw [List.length_set]
    exact holds.length
  have inside : zs.pos < size := holds.inside
  unfold ZoneLabelStats.add
  rw [if_pos (by rw [holds.length]; exact inside)]
  dsimp only
  rw [length]
  split
  · exact ⟨_, rfl, wraps (by omega)⟩
  · exact ⟨_, rfl, next (by omega)⟩

/-- After a reset the statistics hold nothing. -/
lemma ZoneLabelStats.Holds.reset (holds : zs.Holds size added) : zs.reset.Holds size [] :=
  RingHolds.empty ((List.length_replicate ..).trans holds.length) (Nat.zero_lt_of_lt holds.inside)

/-- One call keeps the buffer in step with the labels. -/
lemma ZoneLabelStats.Holds.call (holds : zs.Holds size added) (c : StatsCall) :
    ∃ zs', zs.call c = .ok zs' ∧ zs'.Holds size (c.note added) := by
  cases c with
  | add l => exact holds.add l
  | reset => exact ⟨_, rfl, holds.reset⟩

/-- And so do all calls. -/
lemma ZoneLabelStats.Holds.calls (holds : zs.Holds size added) (calls : List StatsCall) :
    ∃ zs', calls.foldlM ZoneLabelStats.call zs = .ok zs' ∧
      zs'.Holds size (calls.foldl StatsCall.note added) := by
  induction calls generalizing zs added with
  | nil => exact ⟨zs, rfl, holds⟩
  | cons c calls ih =>
    obtain ⟨zs', step, holds'⟩ := holds.call c
    rw [List.foldlM_cons, step]
    exact ih holds'

/-- The loop of `Counts` counts what has been written. -/
lemma countsFrom_eq (zs : ZoneLabelStats) (i : Nat) (log : List String) (counts : GoMap String Nat) :
    zs.countsFrom i log counts =
      (if zs.rotated then log else log.take (zs.pos - i)).foldl GoMap.increment counts := by
  induction log generalizing i counts with
  | nil => simp [ZoneLabelStats.countsFrom]
  | cons l log ih =>
    rw [ZoneLabelStats.countsFrom]
    cases rotated : zs.rotated with
    | true => simp [ih, rotated]
    | false =>
      by_cases beyond : zs.pos ≤ i
      · simp [beyond, Nat.sub_eq_zero_of_le beyond]
      · have more : zs.pos - i = (zs.pos - (i + 1)) + 1 := by omega
        simp [beyond, ih, rotated, more]

/-- The counts are those of the window. -/
lemma ZoneLabelStats.Holds.lookup_counts (holds : zs.Holds size added) (l : String) :
    zs.counts.lookup l = if l ∈ window size added then some ((window size added).count l) else none := by
  have perm := RingHolds.perm holds
  have nothing : (∅ : GoMap String Nat).lookup l = none := rfl
  rw [ZoneLabelStats.counts, countsFrom_eq, Nat.sub_zero, GoMap.lookup_increments, nothing,
    perm.count_eq, Option.getD_none, Nat.zero_add]
  simp only [perm.mem_iff]

end

/-- After any calls of `Add` and `Reset`, the counts are those of the last labels added. -/
theorem counts_window {size : Nat} (some : 0 < size) (calls : List StatsCall) :
    ∃ zs, calls.foldlM ZoneLabelStats.call (newZoneLabelStats size) = .ok zs ∧
      ∀ l, zs.counts.lookup l = if l ∈ window size (sinceReset calls)
        then Option.some ((window size (sinceReset calls)).count l) else none := by
  obtain ⟨zs, run, holds⟩ := (holds_newZoneLabelStats some).calls calls
  exact ⟨zs, run, holds.lookup_counts⟩

/-- Three labels in a buffer of two: the first one is gone. -/
theorem counts_of_three : ∃ zs,
    [StatsCall.add "", .add "www", .add "www"].foldlM ZoneLabelStats.call (newZoneLabelStats 2) = .ok zs ∧
      zs.counts.lookup "www" = some 2 ∧ zs.counts.lookup "" = none := by
  obtain ⟨zs, run, counts⟩ := counts_window (by decide : 0 < 2) [.add "", .add "www", .add "www"]
  refine ⟨zs, run, ?_, ?_⟩
  · rw [counts]
    decide
  · rw [counts]
    decide

/-! ## The largest counts -/

/-- The first `n` entries of `TopCounts`, or all of them if there are fewer labels. -/
def firstEntries (n : Nat) (counts : GoMap String Nat) (top : List LabelStat) : List LabelStat :=
  top.take (min n counts.entries.length)

/-- The counts of the labels that are not among these entries. -/
def leftOut (counts : GoMap String Nat) (entries : List LabelStat) : List Nat :=
  (counts.entries.filter (fun e => e.1 ∉ entries.map LabelStat.label)).map (·.2)

/-- What is asked of the largest `n` counts. -/
structure TopOf (n : Nat) (counts : GoMap String Nat) (top : List LabelStat) : Prop where
  short : top.length ≤ n + 1
  total : (top.map LabelStat.count).sum = (counts.entries.map (·.2)).sum
  length : (firstEntries n counts top).length = min n counts.entries.length
  distinct : ((firstEntries n counts top).map LabelStat.label).Nodup
  exact : ∀ s ∈ firstEntries n counts top, counts.lookup s.label = some s.count
  descending : (firstEntries n counts top).Pairwise (fun a b => b.count ≤ a.count)
  largest : ∀ l c, counts.lookup l = some c → l ∉ (firstEntries n counts top).map LabelStat.label →
    ∀ s ∈ firstEntries n counts top, c ≤ s.count
  others : top.drop (min n counts.entries.length) = if n < counts.entries.length then
    [⟨"Others", (leftOut counts (firstEntries n counts top)).sum⟩] else []

section
variable {n : Nat} {counts : GoMap String Nat} {sorted : List LabelStat}

/-- The counts as a list, in descending order. -/
structure Ranked (counts : GoMap String Nat) (sorted : List LabelStat) : Prop where
  perm : sorted.Perm (counts.entries.map (fun e => ⟨e.1, e.2⟩))
  descending : sorted.Pairwise (fun a b => b.count ≤ a.count)

/-- No label is ranked twice. -/
lemma Ranked.nodup (ranked : Ranked counts sorted) : (sorted.map LabelStat.label).Nodup := by
  have perm := ranked.perm.map LabelStat.label
  rw [List.map_map] at perm
  exact perm.nodup_iff.mpr counts.nodupKeys

/-- What is ranked are the counts. -/
lemma Ranked.mem_iff (ranked : Ranked counts sorted) {s : LabelStat} :
    s ∈ sorted ↔ counts.lookup s.label = some s.count := by
  rw [ranked.perm.mem_iff, List.mem_map, ← GoMap.mem_entries_iff]
  constructor
  · rintro ⟨e, he, rfl⟩
    exact he
  · intro he
    exact ⟨_, he, rfl⟩

/-- As many labels are ranked as there are counts. -/
lemma Ranked.length (ranked : Ranked counts sorted) : sorted.length = counts.entries.length := by
  rw [ranked.perm.length_eq, List.length_map]

/-- The counts that are ranked sum up to all counts. -/
lemma Ranked.sum (ranked : Ranked counts sorted) :
    (sorted.map LabelStat.count).sum = (counts.entries.map (·.2)).sum := by
  rw [(ranked.perm.map LabelStat.count).sum_eq, List.map_map]
  rfl

/-- What is left out behind the first `n` entries. -/
lemma Ranked.sum_leftOut (ranked : Ranked counts sorted) (n : Nat) :
    (leftOut counts (sorted.take n)).sum = ((sorted.drop n).map LabelStat.count).sum := by
  have apart : ∀ s ∈ sorted.drop n, s.label ∉ (sorted.take n).map LabelStat.label := by
    have nodup := ranked.nodup
    rw [← List.take_append_drop n sorted, List.map_append] at nodup
    intro s hs taken
    exact (List.nodup_append.mp nodup).2.2 _ taken _ (List.mem_map_of_mem hs) rfl
  have behind : sorted.filter (fun s => s.label ∉ (sorted.take n).map LabelStat.label) =
      sorted.drop n := by
    conv_lhs =>
      arg 2
      rw [← List.take_append_drop n sorted]
    rw [List.filter_append, List.filter_eq_nil_iff.mpr, List.filter_eq_self.mpr, List.nil_append]
    · intro s hs
      exact decide_eq_true (apart s hs)
    · intro s hs outside
      exact of_decide_eq_true outside (List.mem_map_of_mem hs)
  have perm := (ranked.perm.filter (fun s => s.label ∉ (sorted.take n).map LabelStat.label)).map
    LabelStat.count
  rw [behind, List.filter_map, List.map_map] at perm
  exact perm.symm.sum_eq

/-- The counts in descending order, cut behind the first `n`. -/
def cutTop (n : Nat) (sorted : List LabelStat) : List LabelStat :=
  if n < sorted.length then
    sorted.take n ++ [⟨"Others", ((sorted.drop n).map LabelStat.count).sum⟩]
  else sorted

/-- The entries of the top are the first ones. -/
lemma firstEntries_cutTop (ranked : Ranked counts sorted) (n : Nat) :
    firstEntries n counts (cutTop n sorted) = sorted.take n := by
  unfold firstEntries cutTop
  rw [← ranked.length]
  split
  · next more =>
    rw [Nat.min_eq_left (le_of_lt more), List.take_left' (List.length_take_of_le (le_of_lt more))]
  · next all =>
    rw [Nat.min_eq_right (Nat.le_of_not_lt all), List.take_length,
      List.take_of_length_le (Nat.le_of_not_lt all)]

/-- Cutting the ranked counts loses nothing. -/
lemma Ranked.topOf (ranked : Ranked counts sorted) (n : Nat) : TopOf n counts (cutTop n sorted) := by
  have first := firstEntries_cutTop ranked n
  have taken : (sorted.take n).Sublist sorted := List.take_sublist n sorted
  constructor
  case short =>
    unfold cutTop
    split
    · rw [List.length_append, List.length_take, List.length_singleton]
      omega
    · omega
  case total =>
    rw [← ranked.sum]
    unfold cutTop
    split
    · conv_rhs => rw [← List.take_append_drop n sorted]
      simp
    · rfl
  case length => rw [first, List.length_take, ranked.length]
  case distinct =>
    rw [first]
    exact ranked.nodup.sublist (taken.map _)
  case exact =>
    intro s hs
    rw [first] at hs
    exact ranked.mem_iff.mp (taken.subset hs)
  case descending =>
    rw [first]
    exact ranked.descending.sublist taken
  case largest =>
    rw [first]
    intro l c found outside s hs
    have mem : (⟨l, c⟩ : LabelStat) ∈ sorted := ranked.mem_iff.mpr found
    have order := ranked.descending
    rw [← List.take_append_drop n sorted] at mem order
    -- a label that is not among the first comes behind them
    rcases List.mem_append.mp mem with mem | mem
    · exact (outside (List.mem_map_of_mem mem)).elim
    · exact (List.pairwise_append.mp order).2.2 s hs ⟨l, c⟩ mem
  case others =>
    rw [first, ranked.sum_leftOut, ← ranked.length]
    unfold cutTop
    by_cases more : n < sorted.length
    · rw [if_pos more, if_pos more, Nat.min_eq_left (le_of_lt more),
        List.drop_left' (List.length_take_of_le (le_of_lt more))]
    · rw [if_neg more, if_neg more, Nat.min_eq_right (Nat.le_of_not_lt more), List.drop_length]

end

/-- `TopCounts` returns the largest counts, and the rest in one more entry. -/
theorem topCounts_topOf (ord : StatsOrder) (zs : ZoneLabelStats) (n : Nat) :
    TopOf n zs.counts (zs.topCounts ord n) := by
  have ranked : Ranked zs.counts (ord.sort (ord.range (zs.counts.entries.map (fun e => ⟨e.1, e.2⟩)))) :=
    ⟨(ord.sort_perm _).trans (ord.range_perm _), ord.sort_sorted _⟩
  exact ranked.topOf n

end GeoDNS.Zones
