import Mathlib.Data.List.Basic

/-!
# Sliding windows

The last elements of a list that grows at its end (`window`), and the ring buffer that holds them: slots that
are written one after the other and, once all of them are written, over again from the first.

`RingHolds` says which elements are in the buffer; writing one more element keeps it (`RingHolds.push`). What
has been written to the slots is the window, in some order (`RingHolds.perm`).
-/

namespace GeoDNS.Lib
section
variable {α : Type} {size pos : Nat} {rotated : Bool} {log added : List α}

/-- The last `size` elements, all of them if there are fewer. -/
def window (size : Nat) (added : List α) : List α :=
  added.drop (added.length - size)

/-- As long as the window is not full, everything is in it. -/
lemma window_of_le (h : added.length ≤ size) : window size added = added := by
  rw [window, Nat.sub_eq_zero_of_le h, List.drop_zero]

/-- One more element pushes the first one out of a full window. -/
lemma window_concat (full : size ≤ added.length) (some : 0 < size) (x : α) :
    window size (added ++ [x]) = (window size added).tail ++ [x] := by
  have later : (added ++ [x]).length - size = (added.length - size) + 1 := by
    rw [List.length_append, List.length_singleton]
    omega
  rw [window, later, List.drop_append_of_le_length (by omega), window, List.tail_drop]

/-- A ring buffer to which these elements have been written: `pos` is the slot to be written next, and
    `rotated` holds once all slots have been written. -/
structure RingHolds (size pos : Nat) (rotated : Bool) (log added : List α) : Prop where
  length : log.length = size
  inside : pos < size
  filling : rotated = false → log.take pos = added
  full : rotated = true → size ≤ added.length ∧ log.drop pos ++ log.take pos = window size added

/-- An empty buffer. -/
lemma RingHolds.empty (length : log.length = size) (some : 0 < size) :
    RingHolds size 0 false log [] :=
  ⟨length, some, fun _ => rfl, nofun⟩

/-- The slots before and behind the one to be written next. -/
lemma RingHolds.slots (ring : RingHolds size pos rotated log added) :
    ∃ before old behind, log = before ++ old :: behind ∧ before.length = pos := by
  have lt : pos < log.length := ring.length ▸ ring.inside
  refine ⟨log.take pos, log[pos], log.drop (pos + 1), ?_, List.length_take_of_le (Nat.le_of_lt lt)⟩
  rw [← List.drop_eq_getElem_cons lt, List.take_append_drop]

/-- Writing an element to the next slot, and going on to the one behind it or back to the first. -/
lemma RingHolds.push (ring : RingHolds size pos rotated log added) (x : α) :
    (pos + 1 < size → RingHolds size (pos + 1) rotated (log.set pos x) (added ++ [x])) ∧
      (pos + 1 = size → RingHolds size 0 true (log.set pos x) (added ++ [x])) := by
  obtain ⟨before, old, behind, rfl, rfl⟩ := ring.slots
  have written : (before ++ old :: behind).set before.length x = before ++ x :: behind := by simp
  have upTo : (before ++ x :: behind).take (before.length + 1) = before ++ [x] := by
    rw [List.take_length_add_append]
    rfl
  have beyond : (before ++ x :: behind).drop (before.length + 1) = behind := by
    rw [List.drop_length_add_append]
    rfl
  have length : (before ++ x :: behind).length = size := by
    rw [← ring.length]
    simp
  have filling : rotated = false → before = added := by
    intro filling
    rw [← ring.filling filling, List.take_left]
  have full : rotated = true → size ≤ added.length ∧ old :: behind ++ before = window size added := by
    intro full
    obtain ⟨enough, same⟩ := ring.full full
    rw [List.drop_left, List.take_left] at same
    exact ⟨enough, same⟩
  have some : 0 < size := Nat.zero_lt_of_lt ring.inside
  rw [written]
  constructor
  · intro lt
    refine ⟨length, lt, fun h => ?_, fun h => ?_⟩
    · rw [upTo, filling h]
    · obtain ⟨enough, same⟩ := full h
      refine ⟨by rw [List.length_append]; omega, ?_⟩
      rw [beyond, upTo, window_concat enough some, ← same, ← List.append_assoc]
      rfl
  · intro last
    have none : behind = [] := by
      rw [List.length_append, List.length_cons] at length
      exact List.length_eq_zero_iff.mp (by omega)
    subst none
    refine ⟨length, some, nofun, fun _ => ?_⟩
    rw [List.drop_zero, List.take_zero, List.append_nil]
    cases h : rotated with
    | false =>
      obtain rfl := filling h
      rw [List.length_append, List.length_singleton] at length ⊢
      exact ⟨by omega, (window_of_le (by simp; omega)).symm⟩
    | true =>
      obtain ⟨enough, same⟩ := full h
      refine ⟨by rw [List.length_append]; omega, ?_⟩
      rw [window_concat enough some, ← same]
      rfl

/-- What has been written to the slots is the window. -/
lemma RingHolds.perm (ring : RingHolds size pos rotated log added) :
    (if rotated then log else log.take pos).Perm (window size added) := by
  cases h : rotated with
  | false =>
    have same := ring.filling h
    have few : added.length ≤ size := by
      rw [← same, List.length_take, ← ring.length]
      exact Nat.min_le_right _ _
    rw [window_of_le few, if_neg (by decide), same]
  | true =>
    rw [if_pos rfl, ← (ring.full h).2]
    have swap : (log.take pos ++ log.drop pos).Perm (log.drop pos ++ log.take pos) :=
      List.perm_append_comm
    rwa [List.take_append_drop] at swap

end
end GeoDNS.Lib
