import GeoDNS.Lib.Res
import Mathlib.Algebra.Order.Field.Rat
import Mathlib.Data.List.GetD
import Mathlib.Data.List.Sort
import Mathlib.Tactic.Linarith

/-!
# Choosing what is near

Choose at least `max` elements of a list by distance: each pass takes the smallest distance among those
not chosen yet and chooses everything up to `slack` times that distance. The search for the smallest
distance starts from `limit`, so a pass makes progress as long as no distance exceeds it
(`marked_lt_pass`), and the loop ends with enough elements chosen (`nearest_returns`).

What is chosen after some passes is everything up to a threshold (`upTo`), so the result is a filter by
distance (`nearest_threshold`). The threshold lies between the `max`-th smallest distance (`orderStat`) and
`slack` times that (`nearest_orderStat`).
-/

namespace GeoDNS.Lib

/-- An element with its distance, and whether it is chosen. -/
structure Spot (α : Type) where
  item : α
  distance : Rat
  chosen : Bool := false

section
variable {α : Type}

/-- The smallest distance not above `limit` of the elements that are not chosen, `limit` if there is
    none. -/
def minDistance (limit : Rat) (cs : List (Spot α)) : Rat :=
  cs.foldl (fun m c => if c.chosen = false ∧ c.distance ≤ m then c.distance else m) limit

/-- Choose what is not farther than `m`. -/
def Spot.mark (m : Rat) (c : Spot α) : Spot α :=
  if c.chosen = false ∧ c.distance ≤ m then { c with chosen := true } else c

/-- One pass of the loop. -/
def choosePass (limit slack : Rat) (cs : List (Spot α)) : List (Spot α) :=
  cs.map (Spot.mark (minDistance limit cs * slack))

/-- How many elements are chosen. -/
def marked (cs : List (Spot α)) : Nat :=
  cs.countP Spot.chosen

/-- Repeat until `max` elements are chosen, with at most this many passes. -/
def chooseLoop (limit slack : Rat) (max : Int) : Nat → List (Spot α) → Res (List (Spot α))
  | 0, cs => if marked cs < max then .diverge else .ok cs
  | n + 1, cs =>
    if marked cs < max then chooseLoop limit slack max n (choosePass limit slack cs) else .ok cs

/-- The elements chosen from a list. A pass that chooses nothing would be repeated forever, and no more
    passes than elements can choose something. -/
def nearest (limit slack : Rat) (distance : α → Rat) (max : Int) (l : List α) : Res (List α) := do
  let cs ← chooseLoop limit slack max l.length (l.map (fun a => ⟨a, distance a, false⟩))
  return (cs.filter Spot.chosen).map Spot.item

/-! ## Progress -/

/-- Something that is not chosen yet and within the limit is within the minimum. -/
lemma minDistance_attained {limit : Rat} {cs : List (Spot α)} {c : Spot α} (hc : c ∈ cs)
    (free : c.chosen = false) (le : c.distance ≤ limit) :
    ∃ c' ∈ cs, c'.chosen = false ∧ c'.distance ≤ minDistance limit cs := by
  -- the fold returns its start value, or the distance of an element it has passed
  have key : ∀ (cs : List (Spot α)) m, minDistance m cs = m ∨
      ∃ c' ∈ cs, c'.chosen = false ∧ c'.distance = minDistance m cs := by
    intro cs
    induction cs with
    | nil => exact fun m => .inl rfl
    | cons b cs ih =>
      intro m
      unfold minDistance
      rw [List.foldl_cons]
      split
      case isTrue hb =>
        rcases ih b.distance with e | ⟨c', hc', free', e⟩
        · exact .inr ⟨b, List.mem_cons_self, hb.1, e.symm⟩
        · exact .inr ⟨c', List.mem_cons_of_mem _ hc', free', e⟩
      case isFalse =>
        rcases ih m with e | ⟨c', hc', free', e⟩
        · exact .inl e
        · exact .inr ⟨c', List.mem_cons_of_mem _ hc', free', e⟩
  rcases key cs limit with e | ⟨c', hc', free', e⟩
  · exact ⟨c, hc, free, e.symm ▸ le⟩
  · exact ⟨c', hc', free', le_of_eq e⟩

/-- The number of marks with one more element. -/
lemma marked_cons (c : Spot α) (cs : List (Spot α)) :
    marked (c :: cs) = marked cs + if c.chosen = true then 1 else 0 :=
  List.countP_cons

/-- A pass leaves the mark of an element that has one. -/
lemma Spot.mark_chosen {m : Rat} {c : Spot α} (h : c.chosen = true) : (c.mark m).chosen = true := by
  rw [Spot.mark, if_neg (by simp [h]), h]

/-- A pass does not remove marks. -/
lemma marked_le_mark (m : Rat) (cs : List (Spot α)) : marked cs ≤ marked (cs.map (Spot.mark m)) := by
  induction cs with
  | nil => exact Nat.le_refl 0
  | cons c cs ih =>
    rw [List.map_cons, marked_cons, marked_cons]
    by_cases h : c.chosen = true
    · rw [if_pos h, if_pos (Spot.mark_chosen h)]
      omega
    · rw [if_neg h]
      omega

/-- A pass adds a mark if there is an element in reach without one. -/
lemma marked_lt_mark {m : Rat} {cs : List (Spot α)} {c : Spot α} (hc : c ∈ cs)
    (free : c.chosen = false) (le : c.distance ≤ m) : marked cs < marked (cs.map (Spot.mark m)) := by
  induction cs with
  | nil => cases hc
  | cons b cs ih =>
    rw [List.map_cons, marked_cons, marked_cons]
    rcases List.mem_cons.mp hc with rfl | hc
    · have rest := marked_le_mark m cs
      have now : (c.mark m).chosen = true := by rw [Spot.mark, if_pos ⟨free, le⟩]
      rw [if_pos now, if_neg (by simp [free])]
      omega
    · have rest := ih hc
      by_cases h : b.chosen = true
      · rw [if_pos h, if_pos (Spot.mark_chosen h)]
        omega
      · rw [if_neg h]
        omega

/-- A pass chooses something as long as there is something left within the limit. -/
lemma marked_lt_pass {limit slack : Rat} (hs : 1 ≤ slack) {cs : List (Spot α)}
    (bounds : ∀ c ∈ cs, 0 ≤ c.distance ∧ c.distance ≤ limit) (left : marked cs < cs.length) :
    marked cs < marked (choosePass limit slack cs) := by
  obtain ⟨c, hc, free⟩ : ∃ c ∈ cs, c.chosen = false := by
    by_contra all
    push Not at all
    have : marked cs = cs.length := List.countP_eq_length.mpr (fun c hc => by simpa using all c hc)
    omega
  obtain ⟨c', hc', free', le'⟩ := minDistance_attained hc free (bounds c hc).2
  refine marked_lt_mark hc' free' ?_
  have pos := (bounds c' hc').1
  nlinarith

/-- The loop ends with enough elements chosen, and has done nothing but choose. -/
lemma chooseLoop_returns {limit slack : Rat} (hs : 1 ≤ slack) {max : Int} {n : Nat}
    {cs : List (Spot α)} (bounds : ∀ c ∈ cs, 0 ≤ c.distance ∧ c.distance ≤ limit)
    (enough : max ≤ cs.length) (fuel : max ≤ marked cs + n) :
    ∃ cs', chooseLoop limit slack max n cs = .ok cs' ∧ max ≤ marked cs' ∧
      cs'.map Spot.item = cs.map Spot.item := by
  induction n generalizing cs with
  | zero => exact ⟨cs, if_neg (by omega), by omega, rfl⟩
  | succ n ih =>
    unfold chooseLoop
    split
    case isFalse h => exact ⟨cs, rfl, by omega, rfl⟩
    case isTrue h =>
      have progress := marked_lt_pass hs bounds (by omega)
      have same : ∀ c : Spot α, ∀ m, (c.mark m).item = c.item ∧ (c.mark m).distance = c.distance := by
        intro c m
        unfold Spot.mark
        split <;> exact ⟨rfl, rfl⟩
      have items : (choosePass limit slack cs).map Spot.item = cs.map Spot.item := by
        rw [choosePass, List.map_map]
        exact List.map_congr_left (fun c _ => (same c _).1)
      have bounds' : ∀ c ∈ choosePass limit slack cs, 0 ≤ c.distance ∧ c.distance ≤ limit := by
        intro c hc
        obtain ⟨b, hb, rfl⟩ := List.mem_map.mp hc
        rw [(same b _).2]
        exact bounds b hb
      have length : (choosePass limit slack cs).length = cs.length := List.length_map _
      obtain ⟨cs', h', hmax, hitems⟩ := ih bounds' (length ▸ enough) (by omega)
      exact ⟨cs', h', hmax, hitems.trans items⟩

/-- With enough elements in reach, the loop ends with as many as are asked for. -/
theorem nearest_returns {limit slack : Rat} (hs : 1 ≤ slack) {distance : α → Rat} {max : Int}
    {l : List α} (bounds : ∀ a ∈ l, 0 ≤ distance a ∧ distance a ≤ limit) (enough : max ≤ l.length) :
    ∃ l', nearest limit slack distance max l = .ok l' ∧ l'.Sublist l ∧ max ≤ l'.length := by
  let start : List (Spot α) := l.map (fun a => ⟨a, distance a, false⟩)
  have length : start.length = l.length := List.length_map _
  have bounds' : ∀ c ∈ start, 0 ≤ c.distance ∧ c.distance ≤ limit := by
    intro c hc
    obtain ⟨a, ha, rfl⟩ := List.mem_map.mp hc
    exact bounds a ha
  obtain ⟨cs, h, hmax, items⟩ :
      ∃ cs, chooseLoop limit slack max l.length start = .ok cs ∧ max ≤ marked cs ∧
        cs.map Spot.item = start.map Spot.item :=
    chooseLoop_returns hs bounds' (by omega) (by omega)
  refine ⟨(cs.filter Spot.chosen).map Spot.item, ?_, ?_, ?_⟩
  · rw [nearest, h]
    rfl
  · have e : l = cs.map Spot.item := by simp [items, start, Function.comp_def]
    rw [e]
    exact List.filter_sublist.map _
  · rw [List.length_map, ← List.countP_eq_length_filter]
    exact hmax

/-! ## The threshold

All passes together choose what is within one threshold: each pass raises it. A pass is made only while
there are fewer than `max` within it, so that it raises it at most to `slack` times the `max`-th smallest
distance. -/

variable {distance : α → Rat} {l : List α} {limit slack θ : Rat} {max : Int}

/-- The elements of a list, those within a threshold chosen. -/
def upTo (distance : α → Rat) (l : List α) (θ : Rat) : List (Spot α) :=
  l.map (fun a => ⟨a, distance a, distance a ≤ θ⟩)

/-- How many elements are within a threshold. -/
def countUpTo (distance : α → Rat) (l : List α) (θ : Rat) : Nat :=
  l.countP (fun a => distance a ≤ θ)

/-- The marks up to a distance are the elements up to it. -/
lemma marked_upTo (distance : α → Rat) (l : List α) (θ : Rat) :
    marked (upTo distance l θ) = countUpTo distance l θ := by
  rw [marked, upTo, List.countP_map]
  rfl

/-- An element is marked up to a distance if and only if it is no farther. -/
lemma mem_upTo {c : Spot α} (hc : c ∈ upTo distance l θ) :
    ∃ a ∈ l, c.distance = distance a ∧ (c.chosen = false ↔ θ < distance a) := by
  obtain ⟨a, ha, rfl⟩ := List.mem_map.mp hc
  exact ⟨a, ha, rfl, by simp⟩

/-- The smallest distance is not larger than any other. -/
lemma minDistance_le {cs : List (Spot α)} {c : Spot α} (hc : c ∈ cs) (free : c.chosen = false)
    (le : c.distance ≤ limit) : minDistance limit cs ≤ c.distance := by
  -- the fold only goes down
  have down : ∀ (cs : List (Spot α)) m, minDistance m cs ≤ m := by
    intro cs
    induction cs with
    | nil => exact fun m => le_refl m
    | cons b cs ih =>
      intro m
      unfold minDistance
      rw [List.foldl_cons]
      split
      case isTrue hb => exact (ih b.distance).trans hb.2
      case isFalse => exact ih m
  induction cs generalizing limit with
  | nil => cases hc
  | cons b cs ih =>
    unfold minDistance
    rw [List.foldl_cons]
    rcases List.mem_cons.mp hc with rfl | hc
    · rw [if_pos ⟨free, le⟩]
      exact down cs c.distance
    · split
      case isFalse => exact ih hc le
      case isTrue hb =>
        by_cases below : c.distance ≤ b.distance
        · exact ih hc below
        · exact (down cs b.distance).trans (le_of_not_ge below)

/-- A pass raises the threshold. -/
lemma choosePass_upTo (le : θ ≤ minDistance limit (upTo distance l θ) * slack) :
    choosePass limit slack (upTo distance l θ) =
      upTo distance l (minDistance limit (upTo distance l θ) * slack) := by
  rw [choosePass]
  generalize minDistance limit (upTo distance l θ) * slack = θ' at le
  rw [upTo, upTo, List.map_map]
  refine List.map_congr_left (fun a _ => ?_)
  simp only [Function.comp_apply, Spot.mark]
  by_cases old : distance a ≤ θ
  · simp [old, old.trans le]
  · by_cases new : distance a ≤ θ'
    · simp [old, new]
    · simp [old, new]

/-- The new threshold is not below the old one, nor above `slack` times a distance within which there are
    `max` elements. -/
lemma minDistance_upTo (hs : 1 ≤ slack) (bounds : ∀ a ∈ l, 0 ≤ distance a ∧ distance a ≤ limit)
    (enough : max ≤ l.length) (more : marked (upTo distance l θ) < max) :
    θ ≤ minDistance limit (upTo distance l θ) * slack ∧
      ∀ d, max ≤ countUpTo distance l d → minDistance limit (upTo distance l θ) * slack ≤ d * slack := by
  -- among those within a distance that reaches `max` of them, some are not chosen
  have free : ∀ d, max ≤ countUpTo distance l d → ∃ a ∈ l, distance a ≤ d ∧ θ < distance a := by
    intro d reaches
    by_contra all
    push Not at all
    have le : countUpTo distance l d ≤ countUpTo distance l θ :=
      List.countP_mono_left (fun a ha h => by
        simp only [decide_eq_true_eq] at h ⊢
        exact all a ha h)
    rw [marked_upTo] at more
    omega
  have spot : ∀ a ∈ l, θ < distance a →
      ∃ c ∈ upTo distance l θ, c.chosen = false ∧ c.distance = distance a := by
    intro a ha gt
    exact ⟨_, List.mem_map_of_mem ha, by simpa using gt, rfl⟩
  constructor
  · have whole : max ≤ countUpTo distance l limit := by
      have all : countUpTo distance l limit = l.length :=
        List.countP_eq_length.mpr (fun a ha => by simpa using (bounds a ha).2)
      omega
    obtain ⟨a, ha, le, gt⟩ := free limit whole
    obtain ⟨c, hc, unchosen, e⟩ := spot a ha gt
    obtain ⟨c', hc', unchosen', le'⟩ := minDistance_attained hc unchosen (e ▸ le)
    obtain ⟨a', ha', e', chosen'⟩ := mem_upTo hc'
    have gt' := chosen'.mp unchosen'
    have pos := (bounds a' ha').1
    rw [e'] at le'
    nlinarith
  · intro d reaches
    obtain ⟨a, ha, le, gt⟩ := free d reaches
    obtain ⟨c, hc, unchosen, e⟩ := spot a ha gt
    have least := minDistance_le hc unchosen (e ▸ (bounds a ha).2)
    rw [e] at least
    nlinarith

/-- The loop only raises the threshold. -/
lemma chooseLoop_upTo {n : Nat} {cs : List (Spot α)} (hs : 1 ≤ slack)
    (bounds : ∀ a ∈ l, 0 ≤ distance a ∧ distance a ≤ limit) (enough : max ≤ l.length)
    (h : chooseLoop limit slack max n (upTo distance l θ) = .ok cs)
    (below : ∀ d, max ≤ countUpTo distance l d → θ ≤ d * slack) :
    ∃ θ', cs = upTo distance l θ' ∧ ∀ d, max ≤ countUpTo distance l d → θ' ≤ d * slack := by
  induction n generalizing θ with
  | zero =>
    unfold chooseLoop at h
    split at h
    · cases h
    · cases h
      exact ⟨θ, rfl, below⟩
  | succ n ih =>
    unfold chooseLoop at h
    split at h
    case isFalse =>
      cases h
      exact ⟨θ, rfl, below⟩
    case isTrue more =>
      obtain ⟨raised, below'⟩ := minDistance_upTo hs bounds enough more
      rw [choosePass_upTo raised] at h
      exact ih h below'

/-- What is chosen is what is within a threshold. This is not above `slack` times a distance within which
    there are `max` elements. -/
theorem nearest_threshold (hs : 1 ≤ slack) (bounds : ∀ a ∈ l, 0 ≤ distance a ∧ distance a ≤ limit)
    (pos : 0 < max) (enough : max ≤ l.length) :
    ∃ θ, nearest limit slack distance max l = .ok (l.filter (fun a => distance a ≤ θ)) ∧
      max ≤ countUpTo distance l θ ∧ ∀ d, max ≤ countUpTo distance l d → θ ≤ d * slack := by
  -- nothing is within a negative threshold
  have start : l.map (fun a => (⟨a, distance a, false⟩ : Spot α)) = upTo distance l (-1) := by
    refine List.map_congr_left (fun a ha => ?_)
    have nonneg := (bounds a ha).1
    have far : ¬ distance a ≤ -1 := by linarith
    simp [far]
  have below : ∀ d, max ≤ countUpTo distance l d → -1 ≤ d * slack := by
    intro d reaches
    obtain ⟨a, ha, le⟩ := List.countP_pos_iff.mp (show 0 < countUpTo distance l d by omega)
    have nonneg := (bounds a ha).1
    have le : distance a ≤ d := by simpa using le
    nlinarith
  obtain ⟨l', h, _, le⟩ := nearest_returns hs bounds enough
  obtain ⟨cs, hcs, e⟩ := Res.bind_eq_ok.mp h
  rw [start] at hcs
  obtain ⟨θ, rfl, below'⟩ := chooseLoop_upTo hs bounds enough hcs below
  have chosen : ((upTo distance l θ).filter Spot.chosen).map Spot.item =
      l.filter (fun a => distance a ≤ θ) := by
    rw [upTo, List.filter_map, List.map_map]
    exact List.map_id _
  cases e
  rw [chosen] at h le
  rw [← List.countP_eq_length_filter] at le
  exact ⟨θ, h, le, below'⟩

/-! ## The `max`-th smallest distance -/

/-- The element of rank `k` of a list of numbers, the smallest having rank 0. -/
def orderStat (l : List Rat) (k : Nat) : Rat :=
  (l.insertionSort (· ≤ ·)).getD k 0

/-- There are enough elements up to the one of rank `k`, and not too many before it. -/
lemma orderStat_count {l : List Rat} {k : Nat} (lt : k < l.length) :
    k < l.countP (fun x => x ≤ orderStat l k) ∧ l.countP (fun x => x < orderStat l k) ≤ k := by
  have perm := List.perm_insertionSort (· ≤ ·) l
  have sorted := List.pairwise_insertionSort (· ≤ ·) l
  unfold orderStat
  rw [← perm.countP_eq, ← perm.countP_eq]
  generalize l.insertionSort (· ≤ ·) = s at perm sorted
  have lt : k < s.length := perm.length_eq ▸ lt
  rw [List.getD_eq_getElem s 0 lt]
  have before : (s.take k).length = k := List.length_take_of_le (le_of_lt lt)
  have split : s = s.take k ++ s[k] :: s.drop (k + 1) := by
    rw [← List.drop_eq_getElem_cons lt, List.take_append_drop]
  generalize s[k] = x at split
  generalize s.take k = pre at before split
  generalize s.drop (k + 1) = post at split
  subst split
  obtain ⟨_, above, cross⟩ := List.pairwise_append.mp sorted
  rw [List.countP_append, List.countP_append]
  constructor
  · have all : pre.countP (fun y => y ≤ x) = pre.length :=
      List.countP_eq_length.mpr (fun y hy => by simpa using cross y hy x List.mem_cons_self)
    rw [all, List.countP_cons_of_pos (by simp)]
    omega
  · have none : (x :: post).countP (fun y => y < x) = 0 := by
      refine List.countP_eq_zero.mpr (fun y hy => ?_)
      rcases List.mem_cons.mp hy with rfl | hy
      · simp
      · simpa using (List.pairwise_cons.mp above).1 y hy
    have le := List.countP_le_length (p := fun y => decide (y < x)) (l := pre)
    omega

/-- The threshold lies between the `max`-th smallest distance and `slack` times that. -/
theorem nearest_orderStat (hs : 1 ≤ slack) (bounds : ∀ a ∈ l, 0 ≤ distance a ∧ distance a ≤ limit)
    (pos : 0 < max) (enough : max ≤ l.length) :
    ∃ θ, nearest limit slack distance max l = .ok (l.filter (fun a => distance a ≤ θ)) ∧
      max ≤ (l.filter (fun a => distance a ≤ θ)).length ∧
      orderStat (l.map distance) (max.toNat - 1) ≤ θ ∧
      θ ≤ orderStat (l.map distance) (max.toNat - 1) * slack := by
  obtain ⟨θ, h, reached, below⟩ := nearest_threshold hs bounds pos enough
  obtain ⟨reaches, before⟩ := orderStat_count (l := l.map distance) (k := max.toNat - 1)
    (by rw [List.length_map]; omega)
  rw [List.countP_map] at reaches before
  refine ⟨θ, h, ?_, ?_, below _ ?_⟩
  · rw [← List.countP_eq_length_filter]
    exact reached
  · by_contra lt
    have le : countUpTo distance l θ ≤
        l.countP ((fun x => x < orderStat (l.map distance) (max.toNat - 1)) ∘ distance) :=
      List.countP_mono_left (fun a _ h => by
        simp only [Function.comp_apply, decide_eq_true_eq] at h ⊢
        exact h.trans_lt (lt_of_not_ge lt))
    omega
  · have : max.toNat - 1 < countUpTo distance l (orderStat (l.map distance) (max.toNat - 1)) := reaches
    omega

end
end GeoDNS.Lib
