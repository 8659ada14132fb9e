import GeoDNS.Lib.Strings
import Mathlib.Data.List.Infix
import Mathlib.Data.List.TakeWhile

/-!
# Letter case and the pieces of a text

Two groups of facts about the functions of `Strings.lean`. Lowering a text twice is the same as lowering
it once (`toLower_toLower`), and texts that differ in the case of ASCII letters only have the same lower
case form (`toLower_congr`). The texts that `strings.Join` makes of the last pieces of a split text are
those that stand behind a separator in it (`mem_tailTexts`).
-/

namespace GeoDNS.Lib

/-! ## Letter case -/

/-- The lower-case form of an ASCII letter; other characters stay. -/
def asciiLowerRune (c : Char) : Char :=
  if 'A' ≤ c ∧ c ≤ 'Z' then Char.ofNat (c.toNat + 32) else c

/-- A text with its ASCII letters in lower case. -/
def asciiLower (s : String) : String :=
  String.ofList (s.toList.map asciiLowerRune)

/-- Does this entry of `lowerRanges` hold the code point `n`? -/
def InRange (r : Nat × Nat × Nat × Int) (n : Nat) : Prop :=
  r.1 ≤ n ∧ n ≤ r.2.1 ∧ (n - r.1) % r.2.2.1 = 0

/-- No code point of `r` lies on the way from `a` to `b`, in steps of two if `alternates` holds: all of
    them are below or above, or they are the ones between the steps. -/
def apart (a b : Nat) (alternates : Bool) (r : Nat × Nat × Nat × Int) : Bool :=
  Nat.blt b r.1 || Nat.blt r.2.1 a ||
    (alternates && Nat.beq r.2.2.1 2 && Nat.beq ((a + r.1) % 2) 1)

/-- No code point of `r` is mapped to one that is mapped again. -/
def mappedOnce (r : Nat × Nat × Nat × Int) : Bool :=
  lowerRanges.all (apart (r.1 + r.2.2.2).toNat (r.2.1 + r.2.2.2).toNat
    (Nat.beq r.2.2.1 2 || Nat.beq r.1 r.2.1))

/-- The code points of `r` are mapped to characters that are no upper-case ASCII letters. -/
def Lands (r : Nat × Nat × Nat × Int) : Prop :=
  90 < (r.1 : Int) + r.2.2.2 ∧ ((r.2.1 : Int) + r.2.2.2 < 0xd800 ∨
    (0xdfff < (r.1 : Int) + r.2.2.2 ∧ (r.2.1 : Int) + r.2.2.2 < 0x110000))

instance (r : Nat × Nat × Nat × Int) : Decidable (Lands r) :=
  inferInstanceAs (Decidable (_ ∧ _))

/-- No letter of the table is mapped to another one that is mapped. -/
lemma lowerRanges_mappedOnce : lowerRanges.all mappedOnce = true := by
  decide +kernel

/-- What the table maps to are characters, and no capital letters of ASCII. -/
lemma lowerRanges_lands : ∀ r ∈ lowerRanges, Lands r := by
  decide +kernel

/-- The capital letters by their numbers. -/
lemma upper_iff (c : Char) : ('A' ≤ c ∧ c ≤ 'Z') ↔ 65 ≤ c.toNat ∧ c.toNat ≤ 90 :=
  Iff.rfl

/-- The number of a character that is made from one. -/
lemma toNat_ofNat {n : Nat} (h : n < 0xd800 ∨ (0xdfff < n ∧ n < 0x110000)) :
    (Char.ofNat n).toNat = n := by
  have valid : n.isValidChar := h
  rw [Char.ofNat, dif_pos valid]
  rfl

/-- Go `unicode.ToLower` on the letters of ASCII. -/
lemma toLowerRune_of_ascii {c : Char} (h : c.toNat < 128) : toLowerRune c = asciiLowerRune c :=
  if_pos h

/-- Outside ASCII a character is moved along with its range, or it stays. -/
lemma toLowerRune_cases {c : Char} (h : ¬ c.toNat < 128) :
    ((∀ r ∈ lowerRanges, ¬ InRange r c.toNat) ∧ toLowerRune c = c) ∨
      ∃ r ∈ lowerRanges, InRange r c.toNat ∧
        toLowerRune c = Char.ofNat (c.toNat + r.2.2.2).toNat := by
  unfold toLowerRune
  rw [if_neg h]
  split
  · rename_i lo hi step delta found
    have mem := List.mem_of_find?_eq_some found
    have holds := List.find?_some found
    exact .inr ⟨_, mem, by simpa [InRange] using holds, rfl⟩
  · rename_i missing
    refine .inl ⟨?_, rfl⟩
    intro r hr
    simpa [InRange] using List.find?_eq_none.mp missing r hr

/-- Go `unicode.ToLower` leaves alone what is not in the table. -/
lemma toLowerRune_eq_self {c : Char} (ascii : ¬ (65 ≤ c.toNat ∧ c.toNat ≤ 90))
    (others : ∀ r ∈ lowerRanges, ¬ InRange r c.toNat) : toLowerRune c = c := by
  by_cases h : c.toNat < 128
  · rw [toLowerRune_of_ascii h, asciiLowerRune, if_neg]
    rwa [upper_iff]
  · rcases toLowerRune_cases h with ⟨_, e⟩ | ⟨r, hr, inside, _⟩
    · exact e
    · exact (others r hr inside).elim

/-- No range holds a code point that another one is mapped to. -/
lemma not_inRange_mapped {r r' : Nat × Nat × Nat × Int} {n : Nat} (hr : r ∈ lowerRanges)
    (hr' : r' ∈ lowerRanges) (inside : InRange r n) :
    ¬ InRange r' ((n : Int) + r.2.2.2).toNat := by
  have once := List.all_eq_true.mp (List.all_eq_true.mp lowerRanges_mappedOnce r hr) r' hr'
  obtain ⟨above, _⟩ := lowerRanges_lands r hr
  obtain ⟨lo, hi, step, delta⟩ := r
  obtain ⟨lo', hi', step', delta'⟩ := r'
  obtain ⟨h1, h2, h3⟩ := inside
  rintro ⟨h4, h5, h6⟩
  simp only [apart, Nat.blt_eq, Nat.beq_eq, Bool.or_eq_true, Bool.and_eq_true] at once
  dsimp only at *
  rcases once with (below | beyond) | ⟨⟨alternates, rfl⟩, odd⟩
  · omega
  · omega
  · -- steps of two from starting points of different parity never meet
    rcases alternates with rfl | rfl
    · omega
    · omega

/-- The ranges begin outside ASCII. -/
lemma lowerRanges_ascii : ∀ r ∈ lowerRanges, 128 ≤ r.1 := by
  decide +kernel

/-- A capital letter is 32 before its small one. -/
lemma asciiLowerRune_toNat {c : Char} (h : 65 ≤ c.toNat ∧ c.toNat ≤ 90) :
    (asciiLowerRune c).toNat = c.toNat + 32 := by
  rw [asciiLowerRune, if_pos ((upper_iff c).mpr h), toNat_ofNat]
  omega

/-- What lowering a character gives is in lower case. -/
lemma toLowerRune_lower (c : Char) :
    ¬ (65 ≤ (toLowerRune c).toNat ∧ (toLowerRune c).toNat ≤ 90) ∧
      ∀ r ∈ lowerRanges, ¬ InRange r (toLowerRune c).toNat := by
  by_cases ascii : c.toNat < 128
  · rw [toLowerRune_of_ascii ascii]
    by_cases upper : 65 ≤ c.toNat ∧ c.toNat ≤ 90
    · rw [asciiLowerRune_toNat upper]
      refine ⟨by omega, ?_⟩
      rintro r hr ⟨lo, _⟩
      have start := lowerRanges_ascii r hr
      omega
    · rw [asciiLowerRune, if_neg (by rwa [upper_iff])]
      refine ⟨upper, ?_⟩
      rintro r hr ⟨lo, _⟩
      have start := lowerRanges_ascii r hr
      omega
  · rcases toLowerRune_cases ascii with ⟨outside, e⟩ | ⟨r, hr, inside, e⟩
    · rw [e]
      exact ⟨by omega, outside⟩
    · obtain ⟨above, valid⟩ := lowerRanges_lands r hr
      obtain ⟨lo, hi, _⟩ := id inside
      rw [e, toNat_ofNat (by omega)]
      refine ⟨by omega, ?_⟩
      intro r' hr'
      exact not_inRange_mapped hr hr' inside

/-- Nothing but itself is lowered to a character below the letters. -/
lemma eq_of_toLowerRune {c d : Char} (low : d.toNat < 65) (h : toLowerRune c = d) : c = d := by
  by_cases ascii : c.toNat < 128
  · rw [toLowerRune_of_ascii ascii] at h
    by_cases upper : 65 ≤ c.toNat ∧ c.toNat ≤ 90
    · have lowered := asciiLowerRune_toNat upper
      rw [h] at lowered
      omega
    · rwa [asciiLowerRune, if_neg (by rwa [upper_iff])] at h
  · rcases toLowerRune_cases ascii with ⟨_, e⟩ | ⟨r, hr, inside, e⟩
    · rw [← e, h]
    · obtain ⟨above, valid⟩ := lowerRanges_lands r hr
      obtain ⟨lo, hi, _⟩ := inside
      have moved := congrArg Char.toNat (e.symm.trans h)
      rw [toNat_ofNat (by omega)] at moved
      omega

/-- A small letter stays small. -/
lemma toLowerRune_toLowerRune (c : Char) : toLowerRune (toLowerRune c) = toLowerRune c :=
  toLowerRune_eq_self (toLowerRune_lower c).1 (toLowerRune_lower c).2

/-- The small letters of Unicode are small in ASCII as well. -/
lemma asciiLowerRune_toLowerRune (c : Char) : asciiLowerRune (toLowerRune c) = toLowerRune c := by
  rw [asciiLowerRune, if_neg]
  rw [upper_iff]
  exact (toLowerRune_lower c).1

/-- Lowering in ASCII first makes no difference. -/
lemma toLowerRune_asciiLowerRune (c : Char) : toLowerRune (asciiLowerRune c) = toLowerRune c := by
  by_cases upper : 65 ≤ c.toNat ∧ c.toNat ≤ 90
  · rw [← toLowerRune_of_ascii (by omega), toLowerRune_toLowerRune]
  · rw [asciiLowerRune, if_neg (by rwa [upper_iff])]

/-- A small letter of ASCII stays small. -/
lemma asciiLowerRune_asciiLowerRune (c : Char) :
    asciiLowerRune (asciiLowerRune c) = asciiLowerRune c := by
  by_cases upper : 65 ≤ c.toNat ∧ c.toNat ≤ 90
  · have lower := asciiLowerRune_toNat upper
    rw [asciiLowerRune, if_neg]
    rw [upper_iff]
    omega
  · have same : asciiLowerRune c = c := if_neg (by rwa [upper_iff])
    rw [same, same]

/-- A text in small letters stays so. -/
@[simp] lemma asciiLower_asciiLower (s : String) : asciiLower (asciiLower s) = asciiLower s := by
  simp [asciiLower, Function.comp_def, asciiLowerRune_asciiLowerRune]

/-- Two texts are lowered separately. -/
lemma asciiLower_append (s t : String) : asciiLower (s ++ t) = asciiLower s ++ asciiLower t := by
  apply String.toList_inj.mp
  simp [asciiLower]

/-- Lowering keeps the length. -/
@[simp] lemma length_asciiLower (s : String) : (asciiLower s).length = s.length := by
  simp [asciiLower, String.length_toList]

/-- A mapping of characters that leaves a text alone leaves its parts alone. -/
lemma map_eq_of_subset {f : Char → Char} {s t : String} (sub : t.toList ⊆ s.toList)
    (same : String.ofList (s.toList.map f) = s) : String.ofList (t.toList.map f) = t := by
  have runes : s.toList.map f = s.toList.map id := by simpa using congrArg String.toList same
  have each : t.toList.map f = t.toList.map id :=
    List.map_inj_left.mpr (fun c hc => List.map_inj_left.mp runes c (sub hc))
  rw [each, List.map_id, String.ofList_toList]

/-- A part of a text without upper-case letters is without them. -/
lemma asciiLower_of_suffix {s t : String} (h : t.toList <:+ s.toList) (lower : asciiLower s = s) :
    asciiLower t = t :=
  map_eq_of_subset h.subset lower

/-- The beginning of a text in small letters is in small letters. -/
lemma asciiLower_of_initial {s t : String} (h : t.toList <+: s.toList) (lower : asciiLower s = s) :
    asciiLower t = t :=
  map_eq_of_subset h.subset lower

/-- A text in small letters of Unicode stays so. -/
@[simp] lemma toLower_toLower (s : String) : toLower (toLower s) = toLower s := by
  simp [toLower, Function.comp_def, toLowerRune_toLowerRune]

/-- A text in small letters of Unicode is also in small letters of ASCII. -/
@[simp] lemma asciiLower_toLower (s : String) : asciiLower (toLower s) = toLower s := by
  simp [asciiLower, toLower, Function.comp_def, asciiLowerRune_toLowerRune]

/-- Lowering a text in ASCII first makes no difference. -/
@[simp] lemma toLower_asciiLower (s : String) : toLower (asciiLower s) = toLower s := by
  simp [asciiLower, toLower, Function.comp_def, toLowerRune_asciiLowerRune]

/-- Texts that differ in the case of ASCII letters only have the same lower-case form. -/
lemma toLower_congr {s t : String} (h : asciiLower s = asciiLower t) : toLower s = toLower t := by
  rw [← toLower_asciiLower s, h, toLower_asciiLower]

/-- A part of a text in lower case is in lower case. -/
lemma toLower_of_suffix {s t : String} (h : t.toList <:+ s.toList) (lower : toLower s = s) :
    toLower t = t :=
  map_eq_of_subset h.subset lower

/-! ## The pieces of a text -/

/-- `t` stands behind an occurrence of `sep` in `s`. -/
def Behind (sep : Char) (s t : String) : Prop :=
  sep :: t.toList <:+ s.toList

instance (sep : Char) (s t : String) : Decidable (Behind sep s t) :=
  inferInstanceAs (Decidable (_ <:+ _))

/-- The texts joined from the last pieces of `s`, all of them and none of them left out. -/
def tailTexts (s : String) (sep : Char) : List String :=
  (split s sep).tails.tail.dropLast.map (join · sep)

variable {sep : Char}

/-- What is behind a separator ends the text. -/
lemma Behind.suffix {s t : String} (h : Behind sep s t) : t.toList <:+ s.toList :=
  (List.suffix_cons sep t.toList).trans h

/-- What is behind a separator of that is behind one of the text. -/
lemma Behind.trans {s t u : String} (h1 : Behind sep s t) (h2 : Behind sep t u) : Behind sep s u :=
  List.IsSuffix.trans h2 h1.suffix

/-- A split has one part at least. -/
lemma splitChars_ne_nil (cs : List Char) : splitChars sep cs ≠ [] := by
  induction cs with
  | nil => simp [splitChars]
  | cons c cs ih =>
    rw [splitChars]
    split
    · simp
    · split <;> simp

/-- Joining all pieces gives the text back. -/
lemma intercalate_splitChars (cs : List Char) : [sep].intercalate (splitChars sep cs) = cs := by
  induction cs with
  | nil => rfl
  | cons c cs ih =>
    rw [splitChars]
    cases hs : splitChars sep cs with
    | nil => exact (splitChars_ne_nil cs hs).elim
    | cons w ws =>
      rw [hs] at ih
      by_cases hc : c = sep
      · rw [if_pos hc, hc, List.intercalate_cons_cons, ih]
        rfl
      · rw [if_neg hc, ← ih]
        cases ws with
        | nil => rfl
        | cons w' ws => rw [List.intercalate_cons_cons, List.intercalate_cons_cons]; rfl

/-- The first piece is what stands before the first separator. -/
lemma splitChars_head? (cs : List Char) : (splitChars sep cs).head? = some (cs.takeWhile (· ≠ sep)) := by
  induction cs with
  | nil => rfl
  | cons c cs ih =>
    rw [splitChars]
    by_cases here : c = sep
    · simp [here]
    · cases pieces : splitChars sep cs with
      | nil =>
        rw [pieces] at ih
        cases ih
      | cons w ws =>
        rw [pieces] at ih
        simp [here, Option.some.inj ih]

/-- A piece without a separator in it stays whole. -/
lemma splitChars_append {w : List Char} (whole : sep ∉ w) (cs : List Char) :
    splitChars sep (w ++ sep :: cs) = w :: splitChars sep cs := by
  induction w with
  | nil => simp [splitChars]
  | cons c w ih =>
    obtain ⟨here, rest⟩ := not_or.mp (mt List.mem_cons.mpr whole)
    rw [List.cons_append, splitChars, if_neg (Ne.symm here), ih rest]

/-- A text without a separator is split into one part only. -/
lemma splitChars_whole {w : List Char} (whole : sep ∉ w) : splitChars sep w = [w] := by
  induction w with
  | nil => rfl
  | cons c w ih =>
    obtain ⟨here, rest⟩ := not_or.mp (mt List.mem_cons.mpr whole)
    rw [splitChars, if_neg (Ne.symm here), ih rest]

/-- Splitting undoes joining. -/
lemma split_join {ws : List String} (some_piece : ws ≠ []) (whole : ∀ w ∈ ws, sep ∉ w.toList) :
    split (join ws sep) sep = ws := by
  have pieces : splitChars sep ([sep].intercalate (ws.map String.toList)) = ws.map String.toList := by
    induction ws with
    | nil => exact (some_piece rfl).elim
    | cons w ws ih =>
      have first := whole w List.mem_cons_self
      cases ws with
      | nil => simpa using splitChars_whole first
      | cons w' ws =>
        have rest := ih (List.cons_ne_nil _ _) (fun u hu => whole u (List.mem_cons_of_mem _ hu))
        rw [List.map_cons, List.map_cons, List.intercalate_cons_cons, List.append_assoc,
          List.singleton_append, splitChars_append first]
        rw [List.map_cons] at rest
        rw [rest]
  unfold split join
  rw [String.toList_ofList, pieces, List.map_map]
  simp

/-- Every character is a separator or stands in a piece. -/
lemma eq_or_mem_splitChars {cs : List Char} {c : Char} (mem : c ∈ cs) :
    c = sep ∨ ∃ w ∈ splitChars sep cs, c ∈ w := by
  induction cs with
  | nil => cases mem
  | cons d cs ih =>
    rw [splitChars]
    by_cases here : d = sep
    · rcases List.mem_cons.mp mem with rfl | mem
      · exact .inl here
      · rw [if_pos here]
        exact (ih mem).imp id fun ⟨w, hw, hc⟩ => ⟨w, List.mem_cons_of_mem _ hw, hc⟩
    · rw [if_neg here]
      cases pieces : splitChars sep cs with
      | nil => exact (splitChars_ne_nil cs pieces).elim
      | cons w ws =>
        rw [pieces] at ih
        rcases List.mem_cons.mp mem with rfl | mem
        · exact .inr ⟨c :: w, List.mem_cons_self, List.mem_cons_self⟩
        · rcases ih mem with sep | ⟨w', hw', hc⟩
          · exact .inl sep
          · rcases List.mem_cons.mp hw' with rfl | hw'
            · exact .inr ⟨d :: w', List.mem_cons_self, List.mem_cons_of_mem _ hc⟩
            · exact .inr ⟨w', List.mem_cons_of_mem _ hw', hc⟩

/-- Another separator, which does not occur otherwise, makes the same pieces. -/
lemma splitChars_replace {sep' : Char} {cs : List Char} (fresh : sep' ∉ cs) :
    splitChars sep' (cs.map (fun c => if c = sep then sep' else c)) = splitChars sep cs := by
  induction cs with
  | nil => rfl
  | cons c cs ih =>
    obtain ⟨here, rest⟩ := not_or.mp (mt List.mem_cons.mpr fresh)
    rw [List.map_cons, splitChars, splitChars, ih rest]
    by_cases hc : c = sep
    · simp [hc]
    · simp [hc, Ne.symm here]

/-- The tails of the parts, put together again, are what is behind a separator. -/
lemma mem_tails_splitChars (cs t : List Char) :
    (∃ ws ∈ (splitChars sep cs).tails.tail.dropLast, [sep].intercalate ws = t) ↔ sep :: t <:+ cs := by
  induction cs with
  | nil => simp [splitChars]
  | cons c cs ih =>
    rw [splitChars, List.suffix_cons_iff, ← ih]
    have whole : [sep].intercalate (splitChars sep cs) = cs := intercalate_splitChars cs
    cases hs : splitChars sep cs with
    | nil => exact (splitChars_ne_nil cs hs).elim
    | cons w ws =>
      rw [hs] at whole
      by_cases hc : c = sep
      · -- all pieces of the rest stand behind this separator
        have tails : ([] :: w :: ws).tails.tail.dropLast =
            (w :: ws) :: (w :: ws).tails.tail.dropLast := by
          cases ws <;> simp
        rw [if_pos hc, tails, List.exists_mem_cons_iff, whole, hc]
        simp [eq_comm]
      · rw [if_neg hc]
        simp [Ne.symm hc]

/-- The tail texts of a text are what is behind its separators. -/
lemma mem_tailTexts {s t : String} : t ∈ tailTexts s sep ↔ Behind sep s t := by
  rw [tailTexts, Behind, ← mem_tails_splitChars, split, List.mem_map]
  have tails : ((splitChars sep s.toList).map String.ofList).tails.tail.dropLast =
      (splitChars sep s.toList).tails.tail.dropLast.map (List.map String.ofList) := by
    rw [List.map_dropLast, List.map_tail, List.map_tails]
  rw [tails]
  constructor
  · rintro ⟨texts, htexts, rfl⟩
    obtain ⟨ws, hws, rfl⟩ := List.mem_map.mp htexts
    exact ⟨ws, hws, by simp [join, Function.comp_def]⟩
  · rintro ⟨ws, hws, e⟩
    refine ⟨_, List.mem_map_of_mem hws, ?_⟩
    rw [join, List.map_map]
    simp [Function.comp_def, e]

/-- A text with a separator in it has something behind it, and a text without has not. -/
lemma contains_of_behind {s t : String} (h : Behind sep s t) : contains s sep = true :=
  decide_eq_true (h.subset List.mem_cons_self)

/-- A text without a separator has no tail texts. -/
lemma tailTexts_eq_nil {s : String} (none : ¬ contains s sep = true) : tailTexts s sep = [] := by
  rw [List.eq_nil_iff_forall_not_mem]
  intro t mem
  exact none (contains_of_behind (mem_tailTexts.mp mem))

/-- Two texts are lowered separately in Unicode too. -/
lemma toLower_append (s t : String) : toLower (s ++ t) = toLower s ++ toLower t := by
  rw [toLower, String.toList_append, List.map_append, String.ofList_append]
  rfl

/-- A text ends with what is put behind it. -/
lemma endsWith_append (s t : String) : endsWith (s ++ t) t = true := by
  rw [endsWith, String.toList_append]
  exact List.isSuffixOf_iff_suffix.mpr (List.suffix_append _ _)

/-- A text up to the last separator, and what follows it. -/
lemma beforeLast_eq_some {s t : String} {sep : Char} (h : beforeLast s sep = some t) :
    ∃ rest, s.toList = t.toList ++ sep :: rest := by
  have first : ∀ l : List Char, sep ∈ l → ∃ pre, l = pre ++ sep :: (l.dropWhile (· ≠ sep)).tail := by
    intro l hl
    induction l with
    | nil => cases hl
    | cons c l ih =>
      by_cases hc : c = sep
      · exact ⟨[], by simp [hc]⟩
      · obtain ⟨pre, e⟩ := ih ((List.mem_cons.mp hl).resolve_left (Ne.symm hc))
        refine ⟨c :: pre, ?_⟩
        rw [List.dropWhile_cons_of_pos (by simp [hc]), List.cons_append, ← e]
  unfold beforeLast at h
  split at h
  · rename_i mem
    cases h
    obtain ⟨pre, e⟩ := first s.toList.reverse (List.mem_reverse.mpr mem)
    refine ⟨pre.reverse, ?_⟩
    have back := congrArg List.reverse e
    rw [List.reverse_reverse, List.reverse_append, List.reverse_cons, List.append_assoc] at back
    rw [String.toList_ofList]
    exact back
  · cases h

end GeoDNS.Lib
