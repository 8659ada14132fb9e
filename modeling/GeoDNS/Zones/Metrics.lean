import GeoDNS.Lib.Run
import GeoDNS.Zones.Restart
import GeoDNS.Zones.ZoneStats
import Mathlib.Logic.Function.Basic

/-!
# Statistics across reloads

A zone refers to its statistics by pointers. A zone that replaces another one takes over its pointers
(`Zone.SetupMetrics` of `zones/zone.go`), so that the queries which are still at work on the old zone and
those which have found the new one add to the same buffers. A zone that is new has new buffers, and those of
a zone that is removed are closed.

`Shared` has the buffers in a heap. The manager's calls and the steps of any number of queries are taken in
any order, a call and a step of a query being atomic; only a removal waits for the queries of its zone, as
`Removal.lean` shows it has to. In every such run the statistics of a zone are about all queries for its name
since it appeared, however often it was replaced in between (`metrics_across_reloads`).
-/

namespace GeoDNS.Zones
open GeoDNS.Lib

/-- The fields of Go `ZoneMetrics`. -/
inductive Statistic where
  | labelStats
  | clientStats
  deriving DecidableEq

/-- What the pointers in a `ZoneMetrics` lead to. -/
abbrev ZoneMetrics := Statistic → ZoneLabelStats

/-- The metrics of a zone without a predecessor. -/
def newZoneMetrics : ZoneMetrics :=
  fun _ => newZoneLabelStats 10000

/-- Go `Zone.Close`. -/
def ZoneMetrics.close (m : ZoneMetrics) : ZoneMetrics :=
  fun st => (m st).close

/-- How far a query has come: it has found a zone, of this name and with its metrics at this address, and
    what it has yet to add to them. -/
inductive Asking where
  | waiting
  | found (addr : Nat) (zone : String) (todo : List (Statistic × String))
  | panicked

/-- The metrics of the zones that are held, by name, with all metrics there have been; and the queries. -/
structure Shared where
  held : GoMap String Nat := ∅
  heap : Nat → ZoneMetrics := fun _ => newZoneMetrics
  next : Nat := 0
  query : Nat → Asking := fun _ => .waiting

namespace Shared

/-- What a call of the manager does to the metrics: `SetupMetrics`, with the zone held so far as its
    predecessor, or `Close`. -/
def call (s : Shared) : RegCall → Shared
  | .add name _ =>
    match s.held.lookup name with
    | some _ => s
    | none =>
      { s with
        held := s.held.insert name s.next
        heap := Function.update s.heap s.next newZoneMetrics
        next := s.next + 1 }
  | .remove name =>
    match s.held.lookup name with
    | some a =>
      { s with
        held := s.held.erase name
        heap := Function.update s.heap a (s.heap a).close }
    | none => s

/-- What the goroutines do. -/
inductive Act where
  | call (c : RegCall)
  | lookup (q : Nat) (zone label client : String)
  | add (q : Nat)

/-- The steps of the manager and of the queries. -/
inductive Step (s : Shared) : Act → Shared → Prop
  | call {c} : Step s (.call c) (s.call c)
  | lookup {q zone label client a} (idle : s.query q = .waiting) (found : s.held.lookup zone = some a) :
      Step s (.lookup q zone label client)
        { s with
          query := Function.update s.query q
            (.found a zone [(.labelStats, label), (.clientStats, client)]) }
  | add {q a zone st x todo zs} (here : s.query q = .found a zone ((st, x) :: todo))
      (adds : (s.heap a st).add x = .ok zs) :
      Step s (.add q)
        { s with
          heap := Function.update s.heap a (Function.update (s.heap a) st zs)
          query := Function.update s.query q (.found a zone todo) }
  | addPanic {q a zone st x todo p} (here : s.query q = .found a zone ((st, x) :: todo))
      (panics : (s.heap a st).add x = .panic p) :
      Step s (.add q) { s with query := Function.update s.query q .panicked }

/-- A zone is removed only when no query has yet to add to its metrics. -/
def Quiet (s : Shared) : Act → Prop
  | .call (.remove name) => ∀ q a p todo, s.query q ≠ .found a name (p :: todo)
  | _ => True

/-- What an action adds to a statistic of a name. -/
def added (st : Statistic) (n : String) (s : Shared) : Act → Option String
  | .add q =>
    match s.query q with
    | .found _ zone ((st', x) :: _) => if zone = n ∧ st' = st then some x else none
    | _ => none
  | _ => none

/-- Does the zone of a name appear with this action? -/
def appears (n : String) (s : Shared) : Act → Bool
  | .call (.add name _) => name = n ∧ (s.held.lookup n).isNone
  | _ => false

/-- What was added to a statistic of a name, one action later. -/
def note (st : Statistic) (n : String) (earlier : List String) (a : Shared × Act) : List String :=
  if appears n a.1 a.2 then [] else earlier ++ (added st n a.1 a.2).toList

/-- What was added to a statistic of a name since its zone appeared. -/
def sinceAppeared (st : Statistic) (n : String) (trace : List (Shared × Act)) : List String :=
  trace.foldl (note st n) []

/-- The manager's calls in a run. -/
def callsOf (trace : List (Shared × Act)) : List RegCall :=
  trace.filterMap fun a =>
    match a.2 with
    | .call c => some c
    | _ => none

/-- The addresses of the names that are held are all different and in use, the metrics there hold what the
    queries for the name have added, and no query that has yet to add has been left behind. -/
structure Sound (counted : Statistic → String → List String) (s : Shared) : Prop where
  used : ∀ {n a}, s.held.lookup n = some a → a < s.next
  distinct : ∀ {n n' a}, s.held.lookup n = some a → s.held.lookup n' = some a → n = n'
  holds : ∀ {n a}, s.held.lookup n = some a → ∀ st, (s.heap a st).Holds 10000 (counted st n)
  current : ∀ {q a zone p todo}, s.query q = .found a zone (p :: todo) → s.held.lookup zone = some a
  calm : ∀ q, s.query q ≠ .panicked

section
variable {s t : Shared} {counted : Statistic → String → List String}

/-- At the start nothing is counted. -/
lemma sound_start (counted : Statistic → String → List String) : ({} : Shared).Sound counted where
  used := nofun
  distinct := nofun
  holds := nofun
  current := nofun
  calm := nofun

/-- A call adds nothing, but the zone may appear. -/
lemma note_call (st : Statistic) (n : String) (earlier : List String) (c : RegCall) :
    note st n earlier (s, .call c) = if appears n s (.call c) then [] else earlier := by
  unfold note added
  rw [Option.toList_none, List.append_nil]

/-- A zone appears when it is added and not held yet. -/
lemma appears_add (n name : String) (zone : Zone) :
    appears n s (.call (.add name zone)) = true ↔ name = n ∧ s.held.lookup n = none := by
  unfold appears
  simp [Option.isNone_iff_eq_none]

/-- `SetupMetrics`. -/
lemma Sound.add (sound : s.Sound counted) (name : String) (zone : Zone) :
    (s.call (.add name zone)).Sound fun st n => note st n (counted st n) (s, .call (.add name zone)) := by
  have kept : ∀ {st n}, ¬ (name = n ∧ s.held.lookup n = none) →
      note st n (counted st n) (s, .call (.add name zone)) = counted st n := by
    intro st n old
    rw [note_call, if_neg (fun new => old ((appears_add n name zone).mp new))]
  cases hn : s.held.lookup name with
  | some a =>
    have call : s.call (.add name zone) = s := by simp only [call, hn]
    rw [call]
    -- the metrics of the predecessor are taken over
    refine ⟨sound.used, sound.distinct, ?_, sound.current, sound.calm⟩
    intro n b hb st
    have old : ¬ (name = n ∧ s.held.lookup n = none) := by
      rintro ⟨-, none⟩
      cases none.symm.trans hb
    rw [kept old]
    exact sound.holds hb st
  | none =>
    have call : s.call (.add name zone) =
        { s with
          held := s.held.insert name s.next
          heap := Function.update s.heap s.next newZoneMetrics
          next := s.next + 1 } := by
      simp only [call, hn]
    rw [call]
    have lookup : ∀ {n a}, (s.held.insert name s.next).lookup n = some a →
        n = name ∧ a = s.next ∨ n ≠ name ∧ s.held.lookup n = some a := by
      intro n a h
      rw [GoMap.lookup_insert_eq_ite] at h
      split_ifs at h with same
      · exact .inl ⟨same, (Option.some.inj h).symm⟩
      · exact .inr ⟨same, h⟩
    constructor
    · intro n a h
      rcases lookup h with ⟨-, rfl⟩ | ⟨-, h⟩
      · exact Nat.lt_succ_self _
      · exact (sound.used h).trans (Nat.lt_succ_self _)
    · intro n n' a h h'
      rcases lookup h with ⟨rfl, rfl⟩ | ⟨-, h⟩
      · rcases lookup h' with ⟨rfl, -⟩ | ⟨-, h'⟩
        · rfl
        · exact ((sound.used h').false).elim
      · rcases lookup h' with ⟨-, rfl⟩ | ⟨-, h'⟩
        · exact ((sound.used h).false).elim
        · exact sound.distinct h h'
    · intro n a h st
      dsimp only
      rcases lookup h with ⟨rfl, rfl⟩ | ⟨ne, h⟩
      · rw [Function.update_self, note_call, if_pos ((appears_add n n zone).mpr ⟨rfl, hn⟩)]
        exact holds_newZoneLabelStats (by decide)
      · rw [Function.update_of_ne (sound.used h).ne, kept (fun e => ne e.1.symm)]
        exact sound.holds h st
    · intro q a z p todo h
      have found := sound.current h
      have ne : z ≠ name := by
        rintro rfl
        cases hn.symm.trans found
      dsimp only
      rw [AList.lookup_insert_ne ne]
      exact found
    · exact sound.calm

/-- `Close`, when no query has yet to add to the metrics of the zone. -/
lemma Sound.remove (sound : s.Sound counted) {name : String} (quiet : Quiet s (.call (.remove name))) :
    (s.call (.remove name)).Sound fun st n => note st n (counted st n) (s, .call (.remove name)) := by
  have kept : ∀ st n, note st n (counted st n) (s, .call (.remove name)) = counted st n := by
    intro st n
    rw [note_call]
    rfl
  simp only [kept]
  cases hn : s.held.lookup name with
  | none =>
    have call : s.call (.remove name) = s := by simp only [call, hn]
    rw [call]
    exact sound
  | some a =>
    have call : s.call (.remove name) =
        { s with
          held := s.held.erase name
          heap := Function.update s.heap a (s.heap a).close } := by
      simp only [call, hn]
    rw [call]
    have lookup : ∀ {n b}, (s.held.erase name).lookup n = some b → n ≠ name ∧ s.held.lookup n = some b := by
      intro n b h
      rw [GoMap.lookup_erase_eq_ite] at h
      split_ifs at h with same
      exact ⟨same, h⟩
    refine ⟨fun h => sound.used (lookup h).2, fun h h' => sound.distinct (lookup h).2 (lookup h').2, ?_, ?_,
      sound.calm⟩
    · intro n b h st
      dsimp only
      obtain ⟨ne, hb⟩ := lookup h
      have other : b ≠ a := by
        rintro rfl
        exact ne (sound.distinct hb hn)
      rw [Function.update_of_ne other]
      exact sound.holds hb st
    · intro q b z p todo h
      have ne : z ≠ name := by
        rintro rfl
        exact quiet q b p todo h
      dsimp only
      rw [GoMap.lookup_erase_eq_ite, if_neg ne]
      exact sound.current h

/-- A query finds a zone. -/
lemma Sound.lookup (sound : s.Sound counted) (q : Nat) (todo : List (Statistic × String)) {a : Nat}
    {zone : String} (found : s.held.lookup zone = some a) :
    Sound counted { s with query := Function.update s.query q (.found a zone todo) } := by
  refine ⟨sound.used, sound.distinct, sound.holds, ?_, ?_⟩
  · intro q' b z p rest h
    dsimp only at h
    rw [Function.update_apply] at h
    split_ifs at h
    · cases h
      exact found
    · exact sound.current h
  · intro q' h
    dsimp only at h
    rw [Function.update_apply] at h
    split_ifs at h
    exact sound.calm q' h

/-- The metrics of a name, after something is added to a statistic of another one or of the same one. -/
lemma Sound.count (sound : s.Sound counted) {a : Nat} {zone x : String} {st : Statistic}
    {zs : ZoneLabelStats} (found : s.held.lookup zone = some a)
    (holds : zs.Holds 10000 (counted st zone ++ [x])) :
    Sound (fun st' n => if zone = n ∧ st = st' then counted st zone ++ [x] else counted st' n)
      { s with heap := Function.update s.heap a (Function.update (s.heap a) st zs) } := by
  refine ⟨sound.used, sound.distinct, ?_, sound.current, sound.calm⟩
  intro n b h st'
  dsimp only
  by_cases same : zone = n
  · subst same
    cases found.symm.trans h
    rw [Function.update_self]
    by_cases here : st = st'
    · subst here
      rw [Function.update_self, if_pos ⟨rfl, rfl⟩]
      exact holds
    · rw [Function.update_of_ne (Ne.symm here), if_neg (fun e => here e.2)]
      exact sound.holds h st'
  · have other : b ≠ a := by
      rintro rfl
      exact same (sound.distinct found h)
    rw [Function.update_of_ne other, if_neg (fun e => same e.1)]
    exact sound.holds h st'

/-- Every action keeps the metrics sound. -/
lemma Sound.step {act : Act} (sound : s.Sound counted) (quiet : Quiet s act) (step : s.Step act t) :
    t.Sound fun st n => note st n (counted st n) (s, act) := by
  cases step with
  | @call c =>
    cases c with
    | add name zone => exact sound.add name zone
    | remove name => exact sound.remove quiet
  | @lookup q zone label client a idle found =>
    have nothing : ∀ st n, note st n (counted st n) (s, .lookup q zone label client) = counted st n :=
      fun st n => List.append_nil _
    simp only [nothing]
    exact sound.lookup q _ found
  | @add q a zone st x todo zs here adds =>
    have found := sound.current here
    obtain ⟨zs', adds', holds⟩ := (sound.holds found st).add x
    cases adds.symm.trans adds'
    have next := (sound.count found holds).lookup q todo found
    have noted : ∀ st' n, note st' n (counted st' n) (s, .add q) =
        if zone = n ∧ st = st' then counted st zone ++ [x] else counted st' n := by
      intro st' n
      have adds : added st' n s (.add q) = if zone = n ∧ st = st' then some x else none := by
        simp only [added, here]
      show counted st' n ++ (added st' n s (.add q)).toList = _
      rw [adds]
      split_ifs with same
      · obtain ⟨rfl, rfl⟩ := same
        rfl
      · exact List.append_nil _
    simp only [noted]
    exact next
  | @addPanic q a zone st x todo p here panics =>
    -- the buffer is open
    obtain ⟨zs, adds, -⟩ := (sound.holds (sound.current here) st).add x
    cases panics.symm.trans adds

/-- And so does every run. -/
lemma sound_of_run {trace : List (Shared × Act)} (run : Run (Recorded (Guarded Quiet Step)) {} trace s) :
    s.Sound fun st n => sinceAppeared st n trace := by
  induction run with
  | nil => exact sound_start _
  | snoc _ st ih =>
    obtain ⟨rfl, quiet, step⟩ := st
    have next := ih.step quiet step
    unfold sinceAppeared at next ⊢
    simp only [List.foldl_append]
    exact next

/-- The calls of a trace with one more act. -/
lemma callsOf_snoc (trace : List (Shared × Act)) (a : Shared × Act) :
    callsOf (trace ++ [a]) = callsOf trace ++ callsOf [a] :=
  List.filterMap_append

/-- The call of an act that is a call. -/
lemma callsOf_call (s : Shared) (c : RegCall) : callsOf [(s, .call c)] = [c] := rfl

/-- The names that are held are those that are registered. -/
lemma held_of_run {trace : List (Shared × Act)} (run : Run (Recorded (Guarded Quiet Step)) {} trace s)
    (n : String) : (s.held.lookup n).isSome = (registered (callsOf trace) n).isSome := by
  induction run with
  | nil => rfl
  | @snoc trace s act t _ st ih =>
    obtain ⟨rfl, -, step⟩ := st
    obtain ⟨s, act⟩ := act
    dsimp only at step ih
    rw [callsOf_snoc]
    cases step with
    | @call c =>
      rw [callsOf_call, registered_concat]
      cases c with
      | add name zone =>
        dsimp only [Shared.call]
        rw [Function.update_apply]
        split_ifs with same
        · subst same
          cases hn : s.held.lookup n with
          | some a => simp [hn]
          | none => simp
        · cases hn : s.held.lookup name with
          | some a => exact ih
          | none =>
            dsimp only
            rw [AList.lookup_insert_ne same]
            exact ih
      | remove name =>
        dsimp only [Shared.call]
        rw [Function.update_apply]
        split_ifs with same
        · subst same
          cases hn : s.held.lookup n with
          | some a => simp
          | none => simp [hn]
        · cases hn : s.held.lookup name with
          | none => exact ih
          | some a =>
            dsimp only
            rw [GoMap.lookup_erase_eq_ite, if_neg same]
            exact ih
    | lookup _ _ =>
      show _ = (registered (callsOf trace ++ []) n).isSome
      rw [List.append_nil]
      exact ih
    | add _ _ =>
      show _ = (registered (callsOf trace ++ []) n).isSome
      rw [List.append_nil]
      exact ih
    | addPanic _ _ =>
      show _ = (registered (callsOf trace ++ []) n).isSome
      rw [List.append_nil]
      exact ih

/-- In every run of a manager together with any number of queries, taken in any order, in which a zone is
    removed only when no query has yet to add to its metrics: no query panics, and the statistics of every
    zone that the manager holds count the last 10000 labels, or clients, of the queries for its name since it
    appeared, whichever of its versions they have found and whatever the manager has reloaded since. -/
theorem metrics_across_reloads {site : Site} {pgeodns : Zone} {dirs : List Listing}
    {trace : List (Shared × Act)} (run : Run (Recorded (Guarded Quiet Step)) {} trace s)
    (manager : callsOf trace = (reloads site (startManager pgeodns) dirs).reg) :
    (∀ q, s.query q ≠ .panicked) ∧
    ∀ n z, (reloads site (startManager pgeodns) dirs).zonelist.lookup n = some z →
      ∃ a, s.held.lookup n = some a ∧ ∀ st l, (s.heap a st).counts.lookup l =
        if l ∈ window 10000 (sinceAppeared st n trace) then
          some ((window 10000 (sinceAppeared st n trace)).count l) else none := by
  have sound := sound_of_run run
  refine ⟨sound.calm, ?_⟩
  intro n z hz
  have registered := congrFun (reloads_registered site pgeodns dirs) n
  have held := held_of_run run n
  rw [manager, registered, hz] at held
  obtain ⟨a, ha⟩ := Option.isSome_iff_exists.mp held
  exact ⟨a, ha, fun st l => (sound.holds ha st).lookup_counts l⟩

end

/-- A zone file, and the file that replaces it. -/
def replacedFile : List Listing :=
  [.ok [smallFile 1], .ok [{ smallFile 2 with content := .ok [1] }]]

/-- A query finds a zone, the zone is replaced, and then the query is counted: it is found in the statistics
    of the zone that is held. -/
theorem counted_after_replacement : ∃ pgeodns trace s, pgeodnsZone smallSite = .ok pgeodns ∧
    callsOf trace = (reloads smallSite (startManager pgeodns) replacedFile).reg ∧
    Run (Recorded (Guarded Quiet Step)) {} trace s ∧
    ∃ a, s.held.lookup "example.com" = some a ∧ (s.heap a .labelStats).counts.lookup "www" = some 1 := by
  obtain ⟨pgeodns, start⟩ : ∃ pgeodns, pgeodnsZone smallSite = .ok pgeodns := ⟨_, rfl⟩
  obtain ⟨p, z₁, z₂, calls, hz⟩ : ∃ p z₁ z₂, (reloads smallSite (startManager pgeodns) replacedFile).reg =
      [.add "pgeodns" p, .add "example.com" z₁, .add "example.com" z₂] ∧
      (reloads smallSite (startManager pgeodns) replacedFile).zonelist.lookup "example.com" = some z₂ := by
    cases start
    exact ⟨_, _, _, rfl, rfl⟩
  have next : ∀ {trace s t} act, Run (Recorded (Guarded Quiet Step)) {} trace s → s.Quiet act →
      s.Step act t → Run (Recorded (Guarded Quiet Step)) {} (trace ++ [(s, act)]) t :=
    fun act run quiet step => run.snoc ⟨rfl, quiet, step⟩
  have run₁ := next (.call (.add "pgeodns" p)) .nil trivial .call
  have run₂ := next (.call (.add "example.com" z₁)) run₁ trivial .call
  have run₃ := next (.lookup 0 "example.com" "www" "192.0.2.99") run₂ trivial (.lookup rfl rfl)
  have run₄ := next (.call (.add "example.com" z₂)) run₃ trivial .call
  obtain ⟨zs, adds, -⟩ := ((sound_of_run run₄).holds (n := "example.com") (a := 1) rfl .labelStats).add "www"
  have run₅ := next (.add 0) run₄ trivial (.add rfl adds)
  obtain ⟨-, counts⟩ := metrics_across_reloads run₅ calls.symm
  obtain ⟨a, ha, counts⟩ := counts "example.com" z₂ hz
  refine ⟨pgeodns, _, _, start, ?_, run₅, a, ha, ?_⟩
  · rw [calls]
    rfl
  · have few : ["www"].length ≤ 10000 := by decide
    have count := counts .labelStats "www"
    change _ = if "www" ∈ window 10000 ["www"] then some ((window 10000 ["www"]).count "www")
      else none at count
    rw [count, window_of_le few]
    rfl

end Shared
end GeoDNS.Zones
