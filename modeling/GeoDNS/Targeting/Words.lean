import GeoDNS.Lib.Letters
import GeoDNS.Targeting.Targets
import Mathlib.Data.Nat.Bitwise

/-!
# Options as words

`ParseTargets` and `TargetOptions.String`. A list of words stands for the set of the options that it names, in
whatever order and however often it names them, and it is accepted if it has no other words (`parseWords_has`,
`parseWords_accepts`). Writing a set of options down and reading it gives the set back (`targets_round_trip`),
except for the empty set: its text is empty, and the empty word is not an option.
-/

namespace GeoDNS.Targeting
open GeoDNS.Lib

/-- Go `TargetOptions.String`. -/
def TargetOptions.toText (t : TargetOptions) : String :=
  join ((if t.has targetGlobal then ["@"] else []) ++
    (if t.has targetContinent then ["continent"] else []) ++
    (if t.has targetCountry then ["country"] else []) ++
    (if t.has targetRegionGroup then ["regiongroup"] else []) ++
    (if t.has targetRegion then ["region"] else []) ++
    (if t.has targetASN then ["asn"] else []) ++
    (if t.has targetIP then ["ip"] else [])) ' '

/-- The options with their words, in the order in which they are written. -/
def optionWords : List (TargetOptions × String) :=
  [(targetGlobal, "@"), (targetContinent, "continent"), (targetCountry, "country"),
    (targetRegionGroup, "regiongroup"), (targetRegion, "region"), (targetASN, "asn"), (targetIP, "ip")]

/-- The options that there are. -/
def allOptions : TargetOptions := 127

/-- The body of the loop of `ParseTargets`. -/
def parseWord (st : TargetOptions × Option String) (w : String) : TargetOptions × Option String :=
  match parseTarget w with
  | some x => (st.1 ||| x, st.2)
  | none => (st.1, some ("Unknown targeting option '" ++ w ++ "'"))

section
variable {t o x : TargetOptions} {st : TargetOptions × Option String} {w : String} {ws : List String}

/-- The words are read one after the other. -/
lemma parseTargets_eq (v : String) : parseTargets v = (split v ' ').foldl parseWord (0, none) := rfl

/-- A word that is read is in the table. -/
lemma parseTarget_eq_some : parseTarget w = some o ↔ (o, w) ∈ optionWords := by
  constructor
  · intro h
    unfold parseTarget at h
    split at h <;> cases h <;> decide
  · have all : ∀ e ∈ optionWords, parseTarget e.2 = some e.1 := by decide
    exact fun h => all (o, w) h

/-- An option is one bit. -/
lemma optionWords_bit (mem : (o, w) ∈ optionWords) : ∃ i, o = 2 ^ i := by
  have all : ∀ e ∈ optionWords, ∃ i < 7, e.1 = 2 ^ i := by decide
  obtain ⟨i, -, e⟩ := all (o, w) mem
  exact ⟨i, e⟩

/-- Different words are different options. -/
lemma optionWords_has {w' : String} (mem : (o, w) ∈ optionWords) (mem' : (x, w') ∈ optionWords) :
    x.has o = true ↔ w' = w := by
  have all : ∀ e ∈ optionWords, ∀ e' ∈ optionWords, e'.1.has e.1 = true ↔ e'.2 = e.2 := by decide
  exact all (o, w) mem (x, w') mem'

/-- The union of two option sets has an option if one of them does. -/
lemma has_or : TargetOptions.has (t ||| x) o = (t.has o || x.has o) := by
  unfold TargetOptions.has
  rw [Nat.and_or_distrib_right, ← Bool.decide_or]
  refine decide_eq_decide.2 ?_
  rw [Nat.pos_iff_ne_zero, Nat.pos_iff_ne_zero, Nat.pos_iff_ne_zero, Ne, Nat.or_eq_zero_iff, not_and_or]

/-! ## Reading -/

/-- The option of a word is set exactly if the word is among those that are read, or was set before. -/
lemma parseWords_has (mem : (o, w) ∈ optionWords) :
    (ws.foldl parseWord st).1.has o = true ↔ st.1.has o = true ∨ w ∈ ws := by
  induction ws generalizing st with
  | nil => simp
  | cons w' ws ih =>
    rw [List.foldl_cons, ih, List.mem_cons]
    unfold parseWord
    cases known : parseTarget w' with
    | some x =>
      dsimp only
      rw [has_or, Bool.or_eq_true, optionWords_has mem (parseTarget_eq_some.mp known), or_assoc,
        @eq_comm _ w' w]
    | none =>
      have other : w ≠ w' := by
        rintro rfl
        rw [parseTarget_eq_some.mpr mem] at known
        cases known
      simp [other]

/-- The words are accepted exactly if all of them are options. -/
lemma parseWords_accepts :
    (ws.foldl parseWord st).2 = none ↔ st.2 = none ∧ ∀ w ∈ ws, (parseTarget w).isSome := by
  induction ws generalizing st with
  | nil => simp
  | cons w ws ih =>
    rw [List.foldl_cons, ih, List.forall_mem_cons]
    unfold parseWord
    cases known : parseTarget w with
    | some x => simp
    | none => simp

/-! ## Writing -/

/-- The words of those options of a table that are set. -/
def wordsOf (table : List (TargetOptions × String)) (t : TargetOptions) : List String :=
  table.flatMap fun e => if t.has e.1 then [e.2] else []

/-- The text is the words of the table, in its order. -/
lemma toText_eq (t : TargetOptions) : t.toText = join (wordsOf optionWords t) ' ' := by
  simp [TargetOptions.toText, wordsOf, optionWords]

/-- The words are in the table. -/
lemma mem_wordsOf {table : List (TargetOptions × String)} (hw : w ∈ wordsOf table t) :
    ∃ o, (o, w) ∈ table := by
  obtain ⟨⟨o, w'⟩, he, hw⟩ := List.mem_flatMap.mp hw
  split_ifs at hw
  · cases List.mem_singleton.mp hw
    exact ⟨o, he⟩
  · cases hw

/-- A bit of a set of options. -/
lemma and_option (mem : (o, w) ∈ optionWords) : t &&& o = if t.has o then o else 0 := by
  obtain ⟨i, rfl⟩ := optionWords_bit mem
  unfold TargetOptions.has
  rw [Nat.and_two_pow]
  cases t.testBit i with
  | false => simp
  | true => simp

/-- Reading the words of some options adds these options. -/
lemma parseWords_words {table : List (TargetOptions × String)} (known : table ⊆ optionWords) :
    (wordsOf table t).foldl parseWord st =
      ((table.map Prod.fst).foldl (fun a o => a ||| t &&& o) st.1, st.2) := by
  induction table generalizing st with
  | nil => rfl
  | cons e table ih =>
    obtain ⟨o, w⟩ := e
    have mem : (o, w) ∈ optionWords := known List.mem_cons_self
    have rest := List.subset_of_cons_subset known
    have first : (if t.has o then [w] else []).foldl parseWord st = (st.1 ||| t &&& o, st.2) := by
      rw [and_option mem]
      cases t.has o with
      | false => simp
      | true => simp [parseWord, parseTarget_eq_some.mpr mem]
    unfold wordsOf at ih ⊢
    rw [List.flatMap_cons, List.foldl_append, first, ih rest, List.map_cons, List.foldl_cons]

/-- The words of options are read back as these. -/
lemma parseWords_toText (t : TargetOptions) :
    (wordsOf optionWords t).foldl parseWord (0, none) = (t &&& allOptions, none) := by
  have bits : (optionWords.map Prod.fst).foldl (fun a o => a ||| t &&& o) 0 = t &&& allOptions := by
    simp only [optionWords, List.map_cons, List.map_nil, List.foldl_cons, List.foldl_nil, Nat.zero_or,
      ← Nat.and_or_distrib_left]
    rfl
  rw [parseWords_words (List.Subset.refl _), bits]

/-- Without a known option there are no words. -/
lemma wordsOf_eq_nil : wordsOf optionWords t = [] ↔ t &&& allOptions = 0 := by
  have read := congrArg Prod.fst (parseWords_toText t)
  constructor
  · intro nothing
    rw [nothing] at read
    exact read.symm
  · intro zero
    rw [zero] at read
    rw [List.eq_nil_iff_forall_not_mem]
    intro w hw
    obtain ⟨o, mem⟩ := mem_wordsOf hw
    have set : ((wordsOf optionWords t).foldl parseWord (0, none)).1.has o = true :=
      (parseWords_has mem).mpr (.inr hw)
    rw [read] at set
    simp [TargetOptions.has] at set

/-- For every text and every set of options: the options that `ParseTargets` reads are those whose words stand
    in the text, in any order and any number of times; it accepts the text exactly if all of its words are
    options; and from the text of a set of options it reads that set, without the bits that are no options.
    The exception is the set without options, whose text is not accepted. -/
theorem targets_round_trip (v : String) (t : TargetOptions) :
    (∀ w o, parseTarget w = some o → ((parseTargets v).1.has o = true ↔ w ∈ split v ' ')) ∧
    ((parseTargets v).2 = none ↔ ∀ w ∈ split v ' ', (parseTarget w).isSome) ∧
    parseTargets t.toText = (t &&& allOptions,
      if t &&& allOptions = 0 then some "Unknown targeting option ''" else none) := by
  refine ⟨?_, ?_, ?_⟩
  · intro w o known
    rw [parseTargets_eq, parseWords_has (parseTarget_eq_some.mp known)]
    simp [TargetOptions.has]
  · rw [parseTargets_eq, parseWords_accepts]
    simp
  · rw [toText_eq]
    by_cases zero : t &&& allOptions = 0
    · rw [wordsOf_eq_nil.mpr zero, if_pos zero, zero]
      rfl
    · have given : wordsOf optionWords t ≠ [] := mt wordsOf_eq_nil.mp zero
      have whole : ∀ w ∈ wordsOf optionWords t, ' ' ∉ w.toList := by
        intro w hw
        obtain ⟨o, mem⟩ := mem_wordsOf hw
        have all : ∀ e ∈ optionWords, ' ' ∉ e.2.toList := by decide
        exact all (o, w) mem
      rw [parseTargets_eq, split_join given whole, parseWords_toText, if_neg zero]

end
end GeoDNS.Targeting
