import GeoDNS.Healthtest.Runner
import GeoDNS.Healthtest.Testers

/-!
# What the runner reports

`HealthTestRunner.isHealthy` of `health/healthtest/healthtest.go`, over runs in which the polls of the tests
in the entries go out and ask (`Polled`). The runner and the life cycle of the tests are those of
`Runner.lean`; a poll that has come to its end has a result, and may leave a map with the test.

An entry that is not global has a flag, which depends on the results so far. A global one has a map, and for
a test that asks a service the map is what the service has said the last time it was asked with success
since the entry was made (`Reported`). Hosts that the service has not mentioned have the flag of the test of
the caller.
-/

namespace GeoDNS.Healthtest
open GeoDNS.Lib

namespace HealthTestRunner

/-- Go `HealthTestRunner.isHealthy`. -/
def isHealthy (htr : HealthTestRunner) (ht : HealthTest) : Bool :=
  match htr.lookup ht.toText with
  | some t =>
    if t.test.global then (t.test.globalMap.lookup ht.ipAddress.toText).getD ht.healthy
    else t.state.healthy
  | none => ht.healthy

/-- What happens: something in the runner, or a poll of a test comes to its end. -/
inductive PollAction where
  | other (a : Action)
  | poll (key : String) (world : Outside)

/-- The runner, with polls that ask. -/
inductive Polled (lib : FileLibrary) (htr : HealthTestRunner) : PollAction → HealthTestRunner → Prop
  | other {a htr'} (st : Step htr a htr') (untested : ∀ key result, a ≠ .work key (.tested result)) :
      Polled lib htr (.other a) htr'
  | poll {key world t result ht s} (found : htr.lookup key = some t)
      (polls : t.test.poll lib world = .ok (result, ht))
      (step : Healthtest.Step t.test.toHealthTestParameters t.state (.tested result) s) :
      Polled lib htr (.poll key world) (htr.insert key { t with test := ht, state := s })

/-- A poll with success. -/
def succeeds (lib : FileLibrary) (world : Outside) (ht : HealthTest) : Bool :=
  match ht.poll lib world with
  | .ok (result, _) => result
  | _ => false

/-- A poll of the entry `k` with success; nothing while the entry has just been made, or has gone. -/
def lastSuccess (lib : FileLibrary) (k : String) (htr : HealthTestRunner) :
    PollAction → Option (Option Outside)
  | .other (.call c) =>
    if (htr.lookup k).isSome = ((htr.call c).entries.lookup k).isSome then none else some none
  | .other (.work _ _) => none
  | .poll key world =>
    if key = k ∧ (htr.lookup k).any (succeeds lib world ·.test) then
      some (some world)
    else none

/-- The flag of an entry is that of the results so far, and the map of a test that asks a service is what
    the service has said with the last success. -/
structure Reported (world : Option Outside) (t : HealthTestRunnerEntry) : Prop where
  judged : Judged t.test.toHealthTestParameters t.test.healthy t.state
  told : t.test.tester.Remote → ∀ host,
    t.test.globalMap.lookup host = world.bind (·.tells t.test.tester host)

section
variable {lib : FileLibrary} {htr htr' : HealthTestRunner} {k : String} {world : Option Outside}
variable {t : HealthTestRunnerEntry} {a : Action} {v : Option (Option Outside)}

/-- A new entry reports what it was made with. -/
lemma reported_new (ht : HealthTest) (ref : String) (now : Int) :
    Reported none (HealthTestRunnerEntry.new ht ref now) where
  judged := rfl
  told := fun _ _ => rfl

/-- Whatever runs for a test, its flag is that of the results. -/
lemma Reported.step {act : Healthtest.Action} {s : State} (old : Reported world t)
    (st : Healthtest.Step t.test.toHealthTestParameters t.state act s) :
    Reported world { t with state := s } where
  judged := old.judged.step st
  told := old.told

/-- A poll of a service with success has it say something new. -/
lemma Reported.poll {world' : Outside} {result : Bool} {ht : HealthTest} {s : State} (old : Reported world t)
    (polls : t.test.poll lib world' = .ok (result, ht))
    (st : Healthtest.Step t.test.toHealthTestParameters t.state (.tested result) s) :
    Reported (if result then some world' else world) { t with test := ht, state := s } := by
  have told := fun remote => poll_remote polls remote
  obtain ⟨g, rfl⟩ := poll_setGlobal polls
  refine ⟨old.judged.step st, fun remote host => ?_⟩
  obtain ⟨kept, new⟩ := told remote
  cases result with
  | false =>
    have same : g = t.test.globalMap := kept rfl
    subst same
    exact old.told remote host
  | true => exact new rfl host

/-- A call makes an entry, drops it or leaves its test alone. -/
lemma call_reported {c : Call} (visits : c.Visits htr)
    (before : ∀ t, htr.lookup k = some t → Reported v.join t) :
    ∀ t, (htr.call c).entries.lookup k = some t →
      Reported ((lastSuccess lib k htr (.other (.call c))).or v).join t := by
  intro t' after
  -- nothing is written if the entry was there and is there
  have kept : ∀ t, htr.lookup k = some t →
      (lastSuccess lib k htr (.other (.call c))).or v = v := by
    intro t found
    rw [lastSuccess, found, after]
    rfl
  cases call_turn visits k with
  | keeps _ same _ =>
    have found := same ▸ after
    rw [kept t' found]
    exact before t' found
  | works _ found _ step moved _ =>
    obtain rfl := Option.some.inj (moved.symm.trans after)
    rw [kept _ found]
    exact (before _ found).step step
  | misses _ _ same _ => cases same.symm.trans after
  | @creates ht ref now _ _ absent new _ =>
    obtain rfl := Option.some.inj (new.symm.trans after)
    rw [lastSuccess, absent, after]
    exact reported_new ht ref now
  | adds _ found more _ =>
    obtain rfl := Option.some.inj (more.symm.trans after)
    rw [kept _ found]
    have old := before _ found
    exact ⟨old.judged, old.told⟩
  | removes _ found _ fewer _ =>
    obtain rfl := Option.some.inj (fewer.symm.trans after)
    rw [kept _ found]
    have old := before _ found
    exact ⟨old.judged, old.told⟩
  | stops _ _ _ gone _ => cases gone.symm.trans after

/-- Every action keeps the entries as they are reported. -/
lemma Polled.reported {a : PollAction} (st : Polled lib htr a htr')
    (before : ∀ t, htr.lookup k = some t → Reported v.join t) :
    ∀ t, htr'.lookup k = some t → Reported ((lastSuccess lib k htr a).or v).join t := by
  intro t' after
  cases st with
  | other st _ =>
    cases st with
    | call visits _ => exact call_reported visits before t' after
    | @work key t act s found _ step =>
      have same : (lastSuccess lib k htr (.other (.work key act))).or v = v := rfl
      rw [same]
      rw [GoMap.lookup_insert_eq_ite] at after
      split_ifs at after with here
      · subst here
        cases after
        exact (before t found).step step
      · exact before t' after
  | @poll key world t result ht s found polls step =>
    rw [GoMap.lookup_insert_eq_ite] at after
    dsimp only [lastSuccess]
    split_ifs at after with here
    · subst here
      cases after
      have old := (before t found).poll polls step
      cases result with
      | true => simpa [found, succeeds, polls] using old
      | false => simpa [found, succeeds, polls] using old
    · have other : ¬ key = k := fun e => here e.symm
      rw [if_neg (fun h => other h.1), Option.none_or]
      exact before t' after

/-- For every run of the runner, its tests and their polls, and for every test that is asked about: without
    an entry it is its own flag that is reported. With an entry that is not global, it is whether the results
    so far, beginning with the flag of the test for which the entry was made, end in fewer failures than the
    test allows, and what they were before those. With a global entry that asks a service, it is what the
    service has said about the address the last time that it was asked with success since the entry was made;
    if it has said nothing, then it is the flag of the test that is asked about, not of the entry. -/
theorem runner_reports {trace : List (HealthTestRunner × PollAction)}
    (run : Run (Recorded (Polled lib)) ∅ trace htr) (ht : HealthTest) :
    (htr.lookup ht.toText = none → htr.isHealthy ht = ht.healthy) ∧
    ∀ t, htr.lookup ht.toText = some t →
      (t.test.global = false → htr.isHealthy ht =
        if threshold t.test.toHealthTestParameters ≤ failures t.state.received then false
        else ((beforeFailures t.state.received).foldl (judge t.test.toHealthTestParameters)
          (t.test.healthy, 0)).1) ∧
      (t.test.global = true → t.test.tester.Remote → htr.isHealthy ht =
        ((lastWrite (lastSuccess lib ht.toText) trace).join.bind
          (·.tells t.test.tester ht.ipAddress.toText)).getD ht.healthy) := by
  have reported : ∀ t, htr.lookup ht.toText = some t →
      Reported (lastWrite (lastSuccess lib ht.toText) trace).join t :=
    run.follows (fun htr v => ∀ t, htr.lookup ht.toText = some t → Reported v.join t)
      (fun t found => by cases found) (fun before st => st.reported before)
  constructor
  · intro absent
    rw [isHealthy, absent]
  · intro t found
    obtain ⟨judged, told⟩ := reported t found
    rw [isHealthy, found]
    dsimp only
    constructor
    · intro own
      rw [if_neg (by rw [own]; exact Bool.false_ne_true), ← foldl_judge_flag]
      exact congrArg Prod.fst judged
    · intro global remote
      rw [if_pos global, told remote]

end

/-- A world in which Nodeping reports one host. -/
def smallOutside : Outside where
  connects _ _ := true
  ntp _ := none
  runs _ := true
  file _ := .missing
  remembers path := ⟨path, "", none⟩
  nodeping _ := some (.obj [("1", .obj [("label", .str "192.0.2.1"), ("type", .str "down")])])
  pingdom _ _ _ _ := none

/-- A test of an address that asks Nodeping; it takes the address to be up if it hears nothing else. -/
def nodepingTest : HealthTest :=
  .newTest [192, 0, 2, 1]
    { defaultParameters with testName := "nodeping", global := true, healthyInitially := true }
    (.nodeping "token")

/-- The test is added, its first poll asks Nodeping, and the address is reported down. -/
theorem reported_down : ∃ trace htr, Run (Recorded (Polled smallFiles)) ∅ trace htr ∧
    nodepingTest.healthy = true ∧ htr.isHealthy nodepingTest = false := by
  obtain ⟨htr₁, added, found₁⟩ : ∃ htr₁,
      Polled smallFiles ∅ (.other (.call (.addTest nodepingTest "example.com" 0))) htr₁ ∧
      htr₁.lookup nodepingTest.toText = some (.new nodepingTest "example.com" 0) :=
    ⟨_, .other (.call trivial fun key t stopped => by cases stopped) nofun, AList.lookup_insert ∅⟩
  -- the loop starts a poll
  obtain ⟨htr₂, delayed, found₂⟩ : ∃ htr₂,
      Polled smallFiles htr₁ (.other (.work nodepingTest.toText (.delay 0))) htr₂ ∧
      htr₂.lookup nodepingTest.toText = some { HealthTestRunnerEntry.new nodepingTest "example.com" 0 with
        state := { State.started 0 true with loop := .top, nextPoll := 0 } } :=
    ⟨_, .other (.work found₁ nofun (.delay rfl (by decide))) nofun, AList.lookup_insert htr₁⟩
  obtain ⟨htr₃, entered, found₃⟩ : ∃ htr₃,
      Polled smallFiles htr₂ (.other (.work nodepingTest.toText .enter)) htr₃ ∧
      htr₃.lookup nodepingTest.toText = some { HealthTestRunnerEntry.new nodepingTest "example.com" 0 with
        state := { State.started 0 true with loop := .select true (some 0) true, nextPoll := 0 } } :=
    ⟨_, .other (.work found₂ nofun (.enter rfl)) nofun, AList.lookup_insert htr₂⟩
  obtain ⟨htr₄, started, found₄⟩ : ∃ htr₄,
      Polled smallFiles htr₃ (.other (.work nodepingTest.toText .startPoll)) htr₄ ∧
      htr₄.lookup nodepingTest.toText = some { HealthTestRunnerEntry.new nodepingTest "example.com" 0 with
        state := { State.started 0 true with
          loop := .top, nextPoll := 0, pollStart := some 0, polls := [.testing] } } :=
    ⟨_, .other (.work found₃ nofun (.startPoll rfl (le_refl 0))) nofun, AList.lookup_insert htr₃⟩
  obtain ⟨ht, polls⟩ : ∃ ht, (HealthTestRunnerEntry.new nodepingTest "example.com" 0).test.poll
      smallFiles smallOutside = .ok (true, ht) := ⟨_, rfl⟩
  obtain ⟨htr₅, polled, t, found₅, global, tester⟩ : ∃ htr₅,
      Polled smallFiles htr₄ (.poll nodepingTest.toText smallOutside) htr₅ ∧
      ∃ t, htr₅.lookup nodepingTest.toText = some t ∧ t.test.global = true ∧
        t.test.tester = .nodeping "token" := by
    have testing : [Poll.testing] = [] ++ .testing :: [] := rfl
    refine ⟨_, .poll found₄ polls (.tested testing), _, AList.lookup_insert htr₄, ?_⟩
    obtain ⟨g, rfl⟩ := poll_setGlobal polls
    exact ⟨rfl, rfl⟩
  have next : ∀ {trace htr a htr'}, Run (Recorded (Polled smallFiles)) ∅ trace htr →
      Polled smallFiles htr a htr' → Run (Recorded (Polled smallFiles)) ∅ (trace ++ [(htr, a)]) htr' :=
    fun run st => run.snoc ⟨rfl, st⟩
  have run := next (next (next (next (next .nil added) delayed) entered) started) polled
  refine ⟨_, htr₅, run, rfl, ?_⟩
  rw [((runner_reports run nodepingTest).2 t found₅).2 global (by rw [tester]; trivial), tester]
  have last : lastSuccess smallFiles nodepingTest.toText htr₄
      (.poll nodepingTest.toText smallOutside) = some (some smallOutside) := by
    simp [lastSuccess, found₄, succeeds, polls]
  have down : smallOutside.tells (.nodeping "token") nodepingTest.ipAddress.toText = some false := by
    decide +kernel
  rw [lastWrite_snoc, last, Option.some_or, Option.join_some, Option.bind_some, down]
  rfl

end HealthTestRunner
end GeoDNS.Healthtest
