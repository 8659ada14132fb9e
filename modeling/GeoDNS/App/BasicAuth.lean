import GeoDNS.App.Config

/-!
# Who is served

`basicauth.ServeHTTP` reads the user and the password from `Config` in two steps, and the settings may be
replaced at any time. Since it holds the lock for both, a request is judged by one version of the settings,
the one that is in force when it takes the lock (`requests_judged`). The user of one version never comes
together with the password of another.
-/

namespace GeoDNS.App
open GeoDNS.Lib

/-- A request is served if no user is asked for, or if it gives the user and the password. -/
lemma admits_iff {user password : String} {auth : Option (String × String)} :
    admits user password auth = true ↔ user = "" ∨ auth = some (user, password) := by
  unfold admits
  split_ifs with none
  · simp [none]
  · cases auth with
    | none => simp [none]
    | some given => simp [none, Prod.ext_iff]

/-- What the request has found out agrees with these settings. -/
def Request.Saw (auth : Option (String × String)) (c : AppConfig) : Request → Prop
  | .arriving => False
  | .locked => True
  | .hasUser user => user = c.user
  | .hasBoth user password => user = c.user ∧ password = c.password
  | .unlocked user password => user = c.user ∧ password = c.password
  | .done served => served = admits c.user c.password auth

section
variable {e : Setting} {s t : Process} {a : Act} {c config : AppConfig} {q : Nat}
variable {trace : List (Process × Act)}

/-- A request goes on with the settings that it has found when it took the lock. -/
lemma Request.Saw.step (saw : (s.request q).Saw (e.auth q) c) (held : (s.request q).Holds → s.config = c)
    (sound : Sound config s) (st : Step e s a t) :
    (t.request q).Saw (e.auth q) c ∧ ((t.request q).Holds → t.config = c) := by
  -- a step of a request, this one or another
  have go : ∀ {q' r}, (q' = q → r.Saw (e.auth q) c ∧ (r.Holds → (s.request q).Holds)) →
      ((s.go q' r).request q).Saw (e.auth q) c ∧ (((s.go q' r).request q).Holds → s.config = c) := by
    intro q' r own
    show (Function.update s.request q' r q).Saw _ c ∧ ((Function.update s.request q' r q).Holds → _)
    rw [Function.update_apply]
    split_ifs with same
    · obtain ⟨saw', holds⟩ := own same.symm
      exact ⟨saw', fun h => held (holds h)⟩
    · exact ⟨saw, held⟩
  cases st with
  | write => exact ⟨saw, held⟩
  | event here => exact ⟨saw, held⟩
  | stat here =>
    rw [stat_frame]
    exact ⟨saw, held⟩
  | mark here => exact ⟨saw, held⟩
  | read here =>
    rw [read_frame]
    exact ⟨saw, held⟩
  | lock here free => exact ⟨saw, held⟩
  | copy here => exact ⟨saw, fun h => (sound.alone here h).elim⟩
  | unlock here => exact ⟨saw, fun h => (sound.alone here h).elim⟩
  | rlock here free =>
    apply go
    rintro rfl
    rw [here] at saw
    exact saw.elim
  | readUser here =>
    apply go
    rintro rfl
    rw [here] at held ⊢
    rw [held trivial]
    exact ⟨rfl, fun _ => trivial⟩
  | readPassword here =>
    apply go
    rintro rfl
    rw [here] at saw held ⊢
    rw [held trivial]
    exact ⟨⟨saw, rfl⟩, fun _ => trivial⟩
  | runlock here =>
    apply go
    rintro rfl
    rw [here] at saw
    exact ⟨saw, nofun⟩
  | decide here =>
    apply go
    rintro rfl
    rw [here] at saw
    obtain ⟨rfl, rfl⟩ := saw
    exact ⟨rfl, nofun⟩

/-- Only taking the lock makes a request go on. -/
lemma arriving_of_step (st : Step e s a t) (here : s.request q = .arriving) (other : a ≠ .rlock q) :
    t.request q = .arriving := by
  have go : ∀ {q' r}, s.request q' ≠ .arriving → (s.go q' r).request q = .arriving := by
    intro q' r gone
    have ne : q ≠ q' := by
      rintro rfl
      exact gone here
    exact (Function.update_of_ne ne _ _).trans here
  cases st with
  | stat _ =>
    rw [stat_frame]
    exact here
  | read _ =>
    rw [read_frame]
    exact here
  | @rlock q' _ _ =>
    have ne : q ≠ q' := by
      rintro rfl
      exact other rfl
    exact (Function.update_of_ne ne _ _).trans here
  | readUser h => exact go (by rw [h]; nofun)
  | readPassword h => exact go (by rw [h]; nofun)
  | runlock h => exact go (by rw [h]; nofun)
  | decide h => exact go (by rw [h]; nofun)
  | write => exact here
  | event _ => exact here
  | mark _ => exact here
  | lock _ _ => exact here
  | copy _ => exact here
  | unlock _ => exact here

/-- A request that has gone on has taken the lock, and goes on with the settings of that moment. -/
lemma saw_of_run (run : Run (Recorded (Step e)) {} trace s) (gone : s.request q ≠ .arriving) :
    ∃ before t after, trace = before ++ (t, Act.rlock q) :: after ∧
      FromFile e.parse before (inForce before) ∧ (s.request q).Saw (e.auth q) (inForce before) ∧
      ((s.request q).Holds → s.config = inForce before) := by
  induction run with
  | nil => exact (gone rfl).elim
  | @snoc trace s a t run st ih =>
    obtain ⟨rfl, st⟩ := st
    obtain ⟨s, a⟩ := a
    dsimp only at st run ih
    have sound := sound_of_run run
    by_cases first : s.request q = .arriving
    · by_cases own : a = .rlock q
      · -- the request takes the lock
        subst own
        refine ⟨trace, s, [], rfl, inForce_fromFile run, ?_⟩
        cases st with
        | rlock here free =>
          have locked : (s.go q .locked).request q = .locked := Function.update_self _ _ _
          rw [locked]
          exact ⟨trivial, fun _ => sound.config_eq free⟩
      · exact (gone (arriving_of_step st first own)).elim
    · obtain ⟨before, u, after, rfl, file, saw, held⟩ := ih first
      exact ⟨before, u, after ++ [(s, a)], by simp, file, saw.step held sound st⟩

/-- Every request that has been decided upon, in any order of its steps and those of other requests, of the
    watcher and of whoever writes the file: it is served if the settings in force when it took the lock ask
    for no user, or for the user and the password that it has given, and only then. These settings have been
    in the file as a whole, unless none have been loaded yet. -/
theorem requests_judged (run : Run (Recorded (Step e)) {} trace s) {served : Bool}
    (done : s.request q = .done served) :
    ∃ before t after, trace = before ++ (t, Act.rlock q) :: after ∧
      FromFile e.parse before (inForce before) ∧
      (served = true ↔ (inForce before).user = "" ∨
        e.auth q = some ((inForce before).user, (inForce before).password)) := by
  obtain ⟨before, t, after, split, file, saw, -⟩ := saw_of_run run (q := q) (by rw [done]; nofun)
  refine ⟨before, t, after, split, file, ?_⟩
  rw [done] at saw
  rw [← admits_iff, ← saw]

end

/-- The file is loaded, and then a request with its user and password is served. -/
theorem visitor_served : ∃ trace s, Run (Recorded (Step smallSetting)) {} trace s ∧
    s.request 7 = .done true ∧ ∃ before t after, trace = before ++ (t, Act.rlock 7) :: after ∧
      ((inForce before).user = "" ∨
        some ("stats", "secret") = some ((inForce before).user, (inForce before).password)) := by
  have next : ∀ {trace s t} a, Run (Recorded (Step smallSetting)) {} trace s → Step smallSetting s a t →
      Run (Recorded (Step smallSetting)) {} (trace ++ [(s, a)]) t := fun a run st => run.snoc ⟨rfl, st⟩
  obtain ⟨trace, s, run, served⟩ : ∃ trace s, Run (Recorded (Step smallSetting)) {} trace s ∧
      s.request 7 = .done true := by
    have run₁ := next (.write (some guardedFile)) .nil .write
    have run₂ := next .stat run₁ (.stat rfl)
    have run₃ := next (.mark 2) run₂ (.mark rfl)
    have run₄ := next .read run₃ (.read rfl)
    have run₅ := next .lock run₄ (.lock rfl (fun _ => id))
    have run₆ := next .unlock run₅ (.unlock rfl)
    have run₇ := next (.rlock 7) run₆ (.rlock rfl nofun)
    have run₈ := next (.readUser 7) run₇ (.readUser rfl)
    have run₉ := next (.readPassword 7) run₈ (.readPassword rfl)
    have run₁₀ := next (.runlock 7) run₉ (.runlock rfl)
    exact ⟨_, _, next (.decide 7) run₁₀ (.decide rfl), rfl⟩
  obtain ⟨before, t, after, split, -, judged⟩ := requests_judged run served
  exact ⟨trace, s, run, served, before, t, after, split, judged.mp rfl⟩

end GeoDNS.App
