import GeoDNS.Logs.Stats

/-!
# Processing a query log

`processChan` of `geodns-logs/process-stats.go`: the lines of a log are decoded one after the other and
added to the statistics. All lines are decoded into one and the same entry, so that a field that a line does
not have keeps the value of an earlier line, and the first line that cannot be decoded ends the loop.

`expected` is what is meant: every line that can be decoded counts, on its own. `processed_as_expected_iff`
says for which logs that is what the program has counted, after each of their lines.
-/

namespace GeoDNS.Logs
open GeoDNS.Lib

/-- The variables of the loop; the entry is gone once the function has returned. -/
structure Processing where
  entry : Option Entry := some {}
  stats : Stats := {}

/-- One line. -/
def processLine (t : Tables) (p : Processing) (line : Line) : Res Processing :=
  match p.entry with
  | none => .ok p
  | some e =>
    match decodeLine line with
    | .error _ => .ok { p with entry := none }
    | .ok set => do
      let e := (set e).lower
      let stats ← add t p.stats e
      return ⟨some e, stats⟩

/-- The statistics that `processChan` has made of these lines. -/
def processChan (t : Tables) (lines : List Line) : Res Stats :=
  Processing.stats <$> lines.foldlM (processLine t) {}

/-! ## What is meant -/

/-- The entry of a line by itself, if it can be decoded. -/
def ownEntry (line : Line) : Option Entry :=
  match decodeLine line with
  | .error _ => none
  | .ok set => some (set {}).lower

/-- Add the entry of a line to the statistics. -/
def addLine (t : Tables) (stats : Stats) (line : Line) : Res Stats :=
  match ownEntry line with
  | none => .ok stats
  | some e => add t stats e

/-- The statistics of all lines that can be decoded. -/
def expected (t : Tables) (lines : List Line) : Res Stats :=
  lines.foldlM (addLine t) {}

/-! ## When it is done -/

/-- The entry that is left behind by these lines, if all of them can be decoded: every field has its value
    of the last line that has it. -/
def carried (lines : List Line) : Option Entry :=
  lines.foldlM (fun e line =>
    match decodeLine line with
    | .error _ => none
    | .ok set => some (set e).lower) {}

/-- A line adds the same as it does by itself: the same when it is decoded into the entry that is there, or
    nothing if the loop is over. -/
def AddsAlone (t : Tables) (p : Processing) (line : Line) : Prop :=
  ∀ set, decodeLine line = .ok set →
    match p.entry with
    | none => ¬ (set {}).lower.Counted
    | some e => SameContribution t p.stats (set e).lower (set {}).lower

/-- A line that follows these lines counts as it does by itself. (After a panic nothing matters.) -/
def CountsAlone (t : Tables) (before : List Line) (line : Line) : Prop :=
  ∀ stats, expected t before = .ok stats → AddsAlone t ⟨carried before, stats⟩ line

section
variable {t : Tables} {lines before : List Line} {line : Line} {p : Processing}

/-- A loop with one more turn at its end. -/
lemma foldlM_concat {α σ : Type} {m : Type → Type} [Monad m] [LawfulMonad m] (f : σ → α → m σ) (s : σ)
    (l : List α) (a : α) : (l ++ [a]).foldlM f s = l.foldlM f s >>= (f · a) := by
  rw [List.foldlM_append]
  simp only [List.foldlM_cons, List.foldlM_nil, bind_pure]

/-- The entry of the loop is the one that the lines leave behind. -/
lemma entry_eq_carried (h : lines.foldlM (processLine t) {} = .ok p) : p.entry = carried lines := by
  induction lines using List.reverseRecOn generalizing p with
  | nil =>
    cases h
    rfl
  | append_singleton before line ih =>
    rw [foldlM_concat] at h
    obtain ⟨q, hq, h⟩ := Res.bind_eq_ok.mp h
    unfold carried at ih ⊢
    rw [foldlM_concat, ← ih hq]
    unfold processLine at h
    cases entry : q.entry with
    | none =>
      rw [entry] at h
      cases h
      exact entry
    | some e =>
      rw [entry] at h
      dsimp only at h
      cases decoded : decodeLine line with
      | error err =>
        rw [decoded] at h
        cases h
        rfl
      | ok set =>
        rw [decoded] at h
        obtain ⟨stats, -, h⟩ := Res.bind_eq_ok.mp h
        cases h
        rfl

/-- One line: the statistics are those of the line by itself exactly if it adds the same. -/
lemma processLine_iff : Processing.stats <$> processLine t p line = addLine t p.stats line ↔
    AddsAlone t p line := by
  unfold processLine addLine ownEntry AddsAlone
  cases decoded : decodeLine line with
  | error err => cases p.entry <;> simp
  | ok set =>
    cases p.entry with
    | none =>
      -- the line is not looked at any more
      simp only [Except.ok.injEq, forall_eq', Res.map_ok]
      by_cases counted : (set {}).lower.Counted
      · exact iff_of_false (add_ne_of_counted counted).symm (not_not.mpr counted)
      · exact iff_of_true (add_of_not_counted counted).symm counted
    | some e =>
      simp only [Except.ok.injEq, forall_eq']
      rw [← add_eq_iff]
      cases add t p.stats (set e).lower <;> rfl

/-- If all went as expected so far, it does so with one more line exactly if that line counts. -/
lemma processChan_concat (h : processChan t before = expected t before) :
    processChan t (before ++ [line]) = expected t (before ++ [line]) ↔ CountsAlone t before line := by
  unfold processChan expected CountsAlone at *
  rw [foldlM_concat, foldlM_concat]
  cases reached : before.foldlM (processLine t) {} with
  | ok p =>
    rw [reached] at h
    have stats : before.foldlM (addLine t) {} = .ok p.stats := h.symm
    unfold expected
    rw [stats, ← entry_eq_carried reached]
    simp only [Res.ok_bind, Res.ok.injEq, forall_eq']
    exact processLine_iff
  | panic reason =>
    rw [reached] at h
    have stats : before.foldlM (addLine t) {} = .panic reason := h.symm
    unfold expected
    simp [stats]
  | diverge =>
    rw [reached] at h
    have stats : before.foldlM (addLine t) {} = .diverge := h.symm
    unfold expected
    simp [stats]

/-- A log whose lines can all be decoded, and set every field, is counted as it should be. -/
theorem processChan_of_complete
    (complete : ∀ line ∈ lines, ∃ set, decodeLine line = .ok set ∧ ∀ e, set e = set {}) :
    processChan t lines = expected t lines := by
  have decoded : (carried lines).isSome ∧ processChan t lines = expected t lines := by
    induction lines using List.reverseRecOn with
    | nil => exact ⟨rfl, rfl⟩
    | append_singleton before line ih =>
      obtain ⟨left, same⟩ := ih fun l hl => complete l (List.mem_append_left _ hl)
      obtain ⟨set, decodes, all⟩ := complete line (List.mem_append_right _ List.mem_cons_self)
      obtain ⟨e, carries⟩ := Option.isSome_iff_exists.mp left
      constructor
      · unfold carried at carries ⊢
        rw [foldlM_concat, carries]
        simp [decodes]
      · refine (processChan_concat same).mpr fun stats _ set' decodes' => ?_
        cases decodes.symm.trans decodes'
        rw [carries]
        show SameContribution t stats (set e).lower (set {}).lower
        rw [all e, ← add_eq_iff]
  exact decoded.2

/-- For every log: after each of its lines the program has counted what is meant exactly if every line counts
    as it does by itself. -/
theorem processed_as_expected_iff (t : Tables) (lines : List Line) :
    (∀ before, before <+: lines → processChan t before = expected t before) ↔
      ∀ before line, before ++ [line] <+: lines → CountsAlone t before line := by
  constructor
  · intro same before line pre
    exact (processChan_concat (same before ((List.prefix_append _ _).trans pre))).mp (same _ pre)
  · intro alone before pre
    induction before using List.reverseRecOn with
    | nil => rfl
    | append_singleton before line ih =>
      have earlier := ih ((List.prefix_append _ _).trans pre)
      exact (processChan_concat earlier).mpr (alone before line pre)

end

/-- No names of countries, and no names of types. -/
def smallTables : Tables where
  countryContinent _ := false
  continentCountries _ := false
  regionGroupRegions _ := false
  regionGroups _ := false
  typeToString _ := ""

/-- A line with an answer. -/
def answeredLine : Line :=
  .ok (.obj [("Origin", .str "example.com"), ("Name", .str "www.example.com."), ("Qtype", .num "1"),
    ("Answers", .num "1"), ("LabelName", .str "www")])

/-- A line without the number of answers. -/
def shortLine : Line :=
  .ok (.obj [("Origin", .str "example.com"), ("Name", .str "www.example.com."), ("Qtype", .num "1"),
    ("LabelName", .str "www")])

/-- A line that is cut off. -/
def brokenLine : Line :=
  .error "unexpected end of JSON input"

/-- A line without the number of answers is counted if the line before it was, and no line is counted behind
    a broken one. -/
theorem processed_short_and_broken :
    Stats.count <$> processChan smallTables [answeredLine, shortLine] = .ok 2 ∧
    Stats.count <$> expected smallTables [answeredLine, shortLine] = .ok 1 ∧
    Stats.count <$> processChan smallTables [brokenLine, answeredLine] = .ok 0 ∧
    Stats.count <$> expected smallTables [brokenLine, answeredLine] = .ok 1 := by
  decide +kernel

end GeoDNS.Logs
