import GeoDNS.Health.Shared

/-!
# Lookups in the middle of a reload

Nothing is seen of the steps of a reload (`status_atomic`): every call of `GetStatus` gives the status after
one of the reloads of `Health/Registry.lean`, the one that was last completed at a moment of the call or the
one that was under way then.

`Seen` follows a call. As long as its file is registered, the answer is that of the moment it is given. Once
the file has been removed, it is closed for good, even if there is another one of its name, and the answer is
that of the moment before the removal.
-/

namespace GeoDNS.Health.Shared
open GeoDNS.Lib

section
variable {e : Setting} {s t : Process} {a : Act} {acts : List Act} {q : Nat} {file check : String}
variable {st : Res StatusType}

/-- The call was under way at a moment of the run at which the registry gave this status. -/
def Moment (e : Setting) (acts : List Act) (s : Process) (q : Nat) (st : Res StatusType) : Prop :=
  ∃ pre post u, acts = pre ++ post ∧ Run (Step e) {} pre u ∧ Run (Step e) u post s ∧
    (∃ p, u.query q = .found p) ∧ getStatus u.view (e.test q) = st

/-- The moment stays one of the run. -/
lemma Moment.snoc (moment : Moment e acts s q st) (step : Step e s a t) : Moment e (acts ++ [a]) t q st := by
  obtain ⟨pre, post, u, rfl, before, after, here⟩ := moment
  exact ⟨pre, post ++ [a], u, List.append_assoc _ _ _, before, after.snoc step, here⟩

/-- The present state is a moment of the run. -/
lemma Moment.now {p : Option Nat} (run : Run (Step e) {} acts s) (here : s.query q = .found p)
    (status : getStatus s.view (e.test q) = st) : Moment e acts s q st :=
  ⟨acts, [], s, (List.append_nil _).symm, run, .nil, ⟨p, here⟩, status⟩

/-- What a call has seen: the file is registered, or it has been closed and removed while the call was under
    way. -/
def Seen (e : Setting) (file : String) (acts : List Act) (s : Process) (q : Nat) : Prop :=
  match s.query q with
  | .calling => True
  | .found none => Moment e acts s q (.ok statusUnknown)
  | .found (some p) => s.registry.lookup file = some p ∨
      ((∀ n, s.registry.lookup n ≠ some p) ∧ (s.heap p).m = none ∧ Moment e acts s q (.ok statusUnknown))
  | .done st => Moment e acts s q st

/-- A call is in the state that it goes on to. -/
lemma query_go (s : Process) (q : Nat) (next : Query) : (s.go q next).query q = next :=
  Function.update_self _ _ _

/-- The status in a file that is registered. -/
lemma getStatus_view {p : Nat} (test : splitN2 (e.test q) '/' = [file, check])
    (registered : s.registry.lookup file = some p) :
    getStatus s.view (e.test q) = (s.heap p).getStatus check := by
  rw [getStatus, test]
  dsimp only
  rw [lookup_view, registered]
  rfl

/-- A file that is not in the registry has no status. -/
lemma getStatus_absent (test : splitN2 (e.test q) '/' = [file, check])
    (absent : s.registry.lookup file = none) : getStatus s.view (e.test q) = .ok statusUnknown := by
  rw [getStatus, test]
  dsimp only
  rw [lookup_view, absent]
  rfl

/-- A step that is not one of this call. -/
lemma Seen.frame (seen : Seen e file acts s q) (run : Run (Step e) {} acts s) (step : Step e s a t)
    (same : t.query q = s.query q)
    (registered : ∀ p, s.registry.lookup file = some p → t.registry.lookup file = some p ∨
      ((∀ n, t.registry.lookup n ≠ some p) ∧ (t.heap p).m = none ∧
        getStatus s.view (e.test q) = .ok statusUnknown))
    (removed : ∀ p, s.query q = .found (some p) → (∀ n, s.registry.lookup n ≠ some p) → (s.heap p).m = none →
      (∀ n, t.registry.lookup n ≠ some p) ∧ (t.heap p).m = none) :
    Seen e file (acts ++ [a]) t q := by
  unfold Seen at seen ⊢
  rw [same]
  cases here : s.query q with
  | calling => trivial
  | done st =>
    rw [here] at seen
    exact seen.snoc step
  | found p =>
    rw [here] at seen
    cases p with
    | none => exact seen.snoc step
    | some p =>
      rcases seen with there | ⟨gone, nil, moment⟩
      · exact (registered p there).imp id fun ⟨gone, nil, unknown⟩ =>
          ⟨gone, nil, (Moment.now run here unknown).snoc step⟩
      · obtain ⟨gone, nil⟩ := removed p here gone nil
        exact .inr ⟨gone, nil, moment.snoc step⟩

/-- The steps of the reader keep in order what a call has seen. -/
lemma Seen.reader {old new : Registry} (seen : Seen e file acts s q) (run : Run (Step e) {} acts s)
    (test : splitN2 (e.test q) '/' = [file, check]) (sound : Sound s) (between : Between e.dir old new s)
    (step : Step e s a t) (same : t.query q = s.query q) : Seen e file (acts ++ [a]) t q := by
  have still : t.registry = s.registry → t.heap = s.heap → Seen e file (acts ++ [a]) t q := by
    intro registry heap
    apply seen.frame run step same
    · intro p there
      rw [registry]
      exact .inl there
    · intro p _ gone nil
      rw [registry, heap]
      exact ⟨gone, nil⟩
  -- writing a file that is none of the removed ones
  have writes : ∀ {p f}, t.registry = s.registry → t.heap = Function.update s.heap p f →
      (∀ p', s.query q = .found (some p') → (∀ n, s.registry.lookup n ≠ some p') → p' ≠ p) →
      Seen e file (acts ++ [a]) t q := by
    intro p f registry heap other
    apply seen.frame run step same
    · intro p' there
      rw [registry]
      exact .inl there
    · intro p' here gone nil
      rw [registry, heap, Function.update_of_ne (other p' here gone)]
      exact ⟨gone, nil⟩
  cases step with
  | unlisted _ _ => exact still rfl rfl
  | list _ _ => exact still rfl rfl
  | skip _ _ => exact still rfl rfl
  | find _ _ => exact still rfl rfl
  | reload here =>
    rw [Between, here] at between
    obtain ⟨-, registered, -⟩ := between
    refine writes rfl rfl ?_
    rintro p' _ gone rfl
    exact gone _ registered
  | make here =>
    exact writes rfl rfl fun p' found _ => (sound.found found).ne
  | @add d files seen' name p here =>
    rw [Between, here] at between
    obtain ⟨-, absent, -⟩ := between
    obtain ⟨-, -, unseen⟩ := sound.new here
    apply seen.frame run (.add here) same
    · intro p' there
      left
      have ne : file ≠ name := by
        rintro rfl
        rw [absent] at there
        cases there
      rw [lookup_register, if_neg ne]
      exact there
    · intro p' found gone nil
      refine ⟨fun n there => ?_, nil⟩
      rw [lookup_register] at there
      split_ifs at there
      · cases there
        exact unseen q found
      · exact gone n there
  | lock _ _ => exact still rfl rfl
  | keep _ _ => exact still rfl rfl
  | close here _ registered =>
    refine writes rfl rfl ?_
    rintro p' _ gone rfl
    exact gone _ registered
  | @delete seen' names name here =>
    rw [Between, here] at between
    obtain ⟨-, -, ⟨p, registered, closed⟩, -⟩ := between
    apply seen.frame run (.delete here) same
    · intro p' there
      by_cases e : file = name
      · -- the file of the call is the one that goes: it answers like a registry without it
        subst e
        cases registered.symm.trans there
        refine .inr ⟨fun n there' => ?_, closed,
          (getStatus_view test registered).trans (getStatus_closed closed)⟩
        rw [lookup_unregister] at there'
        split_ifs at there' with ne
        exact ne (sound.one there' registered)
      · left
        rw [lookup_unregister, if_neg e]
        exact there
    · intro p' _ gone nil
      refine ⟨fun n there => ?_, nil⟩
      rw [lookup_unregister] at there
      split_ifs at there
      exact gone n there
  | unlock _ => exact still rfl rfl
  | look _ _ _ => exact still rfl rfl
  | unnamed _ _ => exact still rfl rfl
  | missing _ => exact still rfl rfl
  | answer _ _ => exact still rfl rfl

/-- The steps of a call itself keep what it has seen. -/
lemma Seen.step {old new : Registry} (seen : Seen e file acts s q) (run : Run (Step e) {} acts s)
    (test : splitN2 (e.test q) '/' = [file, check]) (sound : Sound s) (between : Between e.dir old new s)
    (step : Step e s a t) : Seen e file (acts ++ [a]) t q := by
  by_cases same : t.query q = s.query q
  · exact seen.reader run test sound between step same
  have own : ∀ {q' next}, (s.go q' next).query q ≠ s.query q → q' = q := by
    intro q' next moved
    by_contra ne
    exact moved (Function.update_of_ne (Ne.symm ne) _ _)
  cases step with
  | @look q' file' check' here test' free =>
    obtain rfl := own same
    cases test.symm.trans test'
    have next := run.snoc (.look here test free)
    unfold Seen
    rw [query_go]
    cases found : s.registry.lookup file with
    | none =>
      rw [found] at next
      exact Moment.now next (query_go s q' _) (getStatus_absent test found)
    | some p => exact .inl found
  | @unnamed q' here strange =>
    obtain rfl := own same
    exact (strange file check test).elim
  | @missing q' here =>
    obtain rfl := own same
    unfold Seen at seen ⊢
    rw [here] at seen
    rw [query_go]
    exact seen.snoc (.missing here)
  | @answer q' p file' check' here test' =>
    obtain rfl := own same
    cases test.symm.trans test'
    unfold Seen at seen ⊢
    rw [here] at seen
    rw [query_go]
    rcases seen with there | ⟨-, nil, moment⟩
    · exact (Moment.now run here (getStatus_view test there)).snoc (.answer here test)
    · have step := Step.answer here test
      rw [getStatus_closed nil] at step ⊢
      exact moment.snoc step
  | _ => exact (same rfl).elim

/-- In every run, a call that has returned has seen the registry at some moment. -/
theorem seen_of_run (run : Run (Step e) {} acts s) (test : splitN2 (e.test q) '/' = [file, check]) :
    Seen e file acts s q := by
  induction run with
  | nil => trivial
  | snoc run st ih =>
    obtain ⟨sound, between⟩ := between_of_run run
    exact ih.step run test sound between st

/-- In every run of `DirectoryReader` and of any number of calls of `GetStatus`, in any order of their steps:
    whenever the reader sleeps, the registry is that of the reloads of the directories it has found, each in
    one piece; and every call that has returned was under way at a moment at which its status was the one
    after all the reloads that had begun, or, if one of them was not complete at that moment, the one before
    it. -/
theorem status_atomic (run : Run (Step e) {} acts s) :
    (s.reader = .sleeping → ∀ n, s.view.lookup n = (loaded e.dir (passes acts)).lookup n) ∧
    ∀ q file check st, splitN2 (e.test q) '/' = [file, check] → s.query q = .done st →
      ∃ pre post u, acts = pre ++ post ∧ Run (Step e) {} pre u ∧ Run (Step e) u post s ∧
        (∃ p, u.query q = .found p) ∧
        (st = getStatus (loaded e.dir (passes pre)) (e.test q) ∨
          u.reader ≠ .sleeping ∧ st = getStatus (loaded e.dir (passes pre).dropLast) (e.test q)) := by
  constructor
  · intro asleep
    obtain ⟨-, between⟩ := between_of_run run
    rw [Between, asleep] at between
    exact between
  · intro q file check st test done
    have seen := seen_of_run run test
    rw [Seen, done] at seen
    obtain ⟨pre, post, u, split, before, after, under, status⟩ := seen
    obtain ⟨-, between⟩ := between_of_run before
    refine ⟨pre, post, u, split, before, after, under, ?_⟩
    rw [← status]
    exact (between.getStatus (e.test q)).symm

end

/-- A directory with one status file, whose only check is healthy. -/
def smallDirectory : Directory :=
  (smallHealth "web").directory "health"

/-- A lookup that comes between the registration of a file and the end of the reload. -/
theorem early_lookup_healthy : ∃ acts s, Run (Step ⟨"health", fun _ => "web/1"⟩) {} acts s ∧
    s.query 0 = .done (.ok statusHealthy) ∧ s.reader ≠ .sleeping ∧
    ∃ pre post u, acts = pre ++ post ∧ Run (Step ⟨"health", fun _ => "web/1"⟩) {} pre u ∧
      Run (Step ⟨"health", fun _ => "web/1"⟩) u post s ∧ (∃ p, u.query 0 = .found p) ∧
      (.ok statusHealthy = getStatus (loaded "health" (passes pre)) "web/1" ∨
        u.reader ≠ .sleeping ∧
          .ok statusHealthy = getStatus (loaded "health" (passes pre).dropLast) "web/1") := by
  obtain ⟨acts, s, run, done, awake⟩ : ∃ acts s, Run (Step ⟨"health", fun _ => "web/1"⟩) {} acts s ∧
      s.query 0 = .done (.ok statusHealthy) ∧ s.reader ≠ .sleeping := by
    have next : ∀ {acts s t} a, Run (Step ⟨"health", fun _ => "web/1"⟩) {} acts s →
        Step ⟨"health", fun _ => "web/1"⟩ s a t →
        Run (Step ⟨"health", fun _ => "web/1"⟩) {} (acts ++ [a]) t :=
      fun a run st => run.snoc st
    have healthy : ((newStatusFile "health/web.json").reload smallDirectory).1.getStatus "1" =
        .ok statusHealthy := by decide +kernel
    have run₁ := next (.list smallDirectory) .nil (.list rfl rfl)
    have run₂ := next .find run₁ (.find rfl (by decide +kernel : statusFile ⟨"web.json", false⟩ = some "web"))
    have run₃ := next .make run₂ (.make rfl)
    have run₄ := next .add run₃ (.add rfl)
    have run₅ := next (.look 0) run₄ (.look rfl (by decide : splitN2 "web/1" '/' = ["web", "1"]) id)
    have run₆ := next (.answer 0) run₅ (.answer rfl (by decide : splitN2 "web/1" '/' = ["web", "1"]))
    exact ⟨_, _, run₆, congrArg Query.done healthy, nofun⟩
  obtain ⟨-, calls⟩ := status_atomic run
  exact ⟨acts, s, run, done, awake, calls 0 "web" "1" _ (by decide) done⟩

end GeoDNS.Health.Shared
