import GeoDNS.Lib.Run

/-!
# The configuration, its file and its readers

`config.go` and the authentication of `http.go`. One goroutine, first `main` and then `configWatcher`, calls
`configReader`, which loads the file if its modification time is after the last time it was tried, and copies
the settings into the variable `Config` under a lock. Requests read the user and the password from it, one
after the other, under the same lock as readers.

The process is a transition system in which all of these, and whoever writes the file, take their steps in any
order. What `Config` holds in the middle of the copy is left open. The parser of the vendored `gcfg` is a
parameter, and so is what `Request.BasicAuth` finds in a request. The file is read in one step; the settings
that only `main` looks at are left out.

What is in force is what was copied last (`config_inForce`), and that is the content of the file whenever the
watcher has looked at it since it was written (`config_follows_file`).
-/

namespace GeoDNS.App
open GeoDNS.Lib

/-- Go `AppConfig`. -/
structure AppConfig where
  apiKey : String := ""
  hasStatHat : Bool := false
  user : String := ""
  password : String := ""
  deriving DecidableEq, Repr

/-- The flag that `configReader` sets in what it has parsed. -/
def AppConfig.setFlags (cfg : AppConfig) : AppConfig :=
  { cfg with hasStatHat := cfg.apiKey ≠ "" }

/-- The file. -/
structure ConfigFile where
  modTime : Int
  content : String
  deriving DecidableEq

/-- What the file is parsed as. -/
abbrev Parser := String → Except String AppConfig

/-- The zero value of Go `time.Time`, in nanoseconds. -/
def zeroTime : Int := -62135596800000000000

/-- An event of the directory (`fsnotify.Event`). -/
structure FsEvent where
  name : String
  create : Bool := false
  write : Bool := false
  rename : Bool := false
  chmod : Bool := false

/-- The events after which `configWatcher` calls `configReader`. -/
def FsEvent.heeded (fileName : String) (ev : FsEvent) : Bool :=
  ev.name = fileName && (ev.write || ev.rename || ev.chmod)

/-- Where the goroutine is that reads the configuration. -/
inductive Watcher where
  | waiting
  -- `configReader` is to be called
  | calling
  -- the file is newer than the last attempt, and the time of this one is to be noted
  | newer
  | reading
  -- the settings are parsed, and the lock is asked for
  | loaded (cfg : AppConfig)
  | copying (cfg : AppConfig)
  deriving DecidableEq

/-- Where a request is in `basicauth.ServeHTTP`. -/
inductive Request where
  | arriving
  | locked
  | hasUser (user : String)
  | hasBoth (user password : String)
  | unlocked (user password : String)
  | done (served : Bool)
  deriving DecidableEq

/-- The request is a reader of the lock. -/
def Request.Holds : Request → Prop
  | .locked => True
  | .hasUser _ => True
  | .hasBoth _ _ => True
  | _ => False

/-- The end of `basicauth.ServeHTTP`: whether the request is served, or answered with a 401. -/
def admits (user password : String) (auth : Option (String × String)) : Bool :=
  if user = "" then true
  else
    match auth with
    | none => false
    | some (ruser, rpass) => ruser = user && rpass = password

/-- The process, and the file. -/
structure Process where
  file : Option ConfigFile := none
  config : AppConfig := {}
  lastReadConfig : Int := zeroTime
  watcher : Watcher := .calling
  request : Nat → Request := fun _ => .arriving

/-- The first part of `configReader`: the modification time is looked at. -/
def Process.stat (s : Process) : Process :=
  match s.file with
  | none => { s with watcher := .waiting }
  | some f => { s with watcher := if f.modTime > s.lastReadConfig then .newer else .waiting }

/-- The last part outside the lock: the file is read and parsed. -/
def Process.read (parse : Parser) (s : Process) : Process :=
  match s.file with
  | none => { s with watcher := .waiting }
  | some f =>
    match parse f.content with
    | .error _ => { s with watcher := .waiting }
    | .ok cfg => { s with watcher := .loaded cfg.setFlags }

/-- A request takes a step. -/
def Process.go (s : Process) (q : Nat) (r : Request) : Process :=
  { s with request := Function.update s.request q r }

/-- The steps. -/
inductive Act where
  -- the file is written, or removed
  | write (file : Option ConfigFile)
  | event (ev : FsEvent)
  | stat
  -- the time is noted
  | mark (now : Int)
  | read
  | lock
  -- a part of the settings is copied
  | copy (config : AppConfig)
  | unlock
  | rlock (q : Nat)
  | readUser (q : Nat)
  | readPassword (q : Nat)
  | runlock (q : Nat)
  | decide (q : Nat)

/-- What the program runs on: the name of the file, the parser, and the credentials of the requests. -/
structure Setting where
  fileName : String
  parse : Parser
  auth : Nat → Option (String × String)

/-- The steps of the process and of whoever writes the file. -/
inductive Step (e : Setting) (s : Process) : Act → Process → Prop
  | write {file} : Step e s (.write file) { s with file := file }
  | event {ev} (here : s.watcher = .waiting) :
      Step e s (.event ev) { s with watcher := if ev.heeded e.fileName then .calling else .waiting }
  | stat (here : s.watcher = .calling) : Step e s .stat s.stat
  | mark {now} (here : s.watcher = .newer) :
      Step e s (.mark now) { s with lastReadConfig := now, watcher := .reading }
  | read (here : s.watcher = .reading) : Step e s .read (s.read e.parse)
  | lock {cfg} (here : s.watcher = .loaded cfg) (free : ∀ q, ¬ (s.request q).Holds) :
      Step e s .lock { s with watcher := .copying cfg }
  | copy {cfg config} (here : s.watcher = .copying cfg) : Step e s (.copy config) { s with config := config }
  | unlock {cfg} (here : s.watcher = .copying cfg) :
      Step e s .unlock { s with config := cfg, watcher := .waiting }
  | rlock {q} (here : s.request q = .arriving) (free : ∀ cfg, s.watcher ≠ .copying cfg) :
      Step e s (.rlock q) (s.go q .locked)
  | readUser {q} (here : s.request q = .locked) :
      Step e s (.readUser q) (s.go q (.hasUser s.config.user))
  | readPassword {q user} (here : s.request q = .hasUser user) :
      Step e s (.readPassword q) (s.go q (.hasBoth user s.config.password))
  | runlock {q user password} (here : s.request q = .hasBoth user password) :
      Step e s (.runlock q) (s.go q (.unlocked user password))
  | decide {q user password} (here : s.request q = .unlocked user password) :
      Step e s (.decide q) (s.go q (.done (admits user password (e.auth q))))

/-- Looking at the file changes nothing but where the watcher is. -/
lemma stat_frame (s : Process) : s.stat = { s with watcher := s.stat.watcher } := by
  unfold Process.stat
  split <;> rfl

/-- Reading the file does not change the other parts of the state. -/
lemma read_frame (parse : Parser) (s : Process) :
    s.read parse = { s with watcher := (s.read parse).watcher } := by
  unfold Process.read
  split
  · rfl
  · split <;> rfl

/-- Where the watcher is when it has looked at the file. -/
lemma stat_watcher (s : Process) : s.stat.watcher = .waiting ∨ s.stat.watcher = .newer := by
  unfold Process.stat
  split
  · exact .inl rfl
  · dsimp only
    split_ifs
    · exact .inr rfl
    · exact .inl rfl

/-- And when it has read it: it has the settings that were there. -/
lemma read_watcher (parse : Parser) (s : Process) :
    (s.read parse).watcher = .waiting ∨ ∃ f cfg, s.file = some f ∧ parse f.content = .ok cfg ∧
      (s.read parse).watcher = .loaded cfg.setFlags := by
  unfold Process.read
  split
  · exact .inl rfl
  · rename_i f file
    split
    · exact .inl rfl
    · rename_i cfg ok
      exact .inr ⟨f, cfg, file, ok, rfl⟩

/-! ## What is in force -/

/-- The settings that a step puts in force. -/
def loads (s : Process) : Act → Option AppConfig
  | .unlock =>
    match s.watcher with
    | .copying cfg => some cfg
    | _ => none
  | _ => none

/-- The settings that were put in force last; at first there are none. -/
def inForce (trace : List (Process × Act)) : AppConfig :=
  (lastWrite loads trace).getD {}

/-- The lock is held by the one who copies, or by readers, and without a copy going on `Config` is as it
    should be. -/
structure Sound (config : AppConfig) (s : Process) : Prop where
  config_eq : (∀ cfg, s.watcher ≠ .copying cfg) → s.config = config
  alone : ∀ {cfg q}, s.watcher = .copying cfg → ¬ (s.request q).Holds

section
variable {e : Setting} {s t : Process} {a : Act} {config : AppConfig} {trace : List (Process × Act)}

/-- What happens to the watcher outside the lock does not matter. -/
lemma Sound.watch (sound : Sound config s) (outside : ∀ cfg, s.watcher ≠ .copying cfg) (w : Watcher)
    (still : ∀ cfg, w ≠ .copying cfg) (last : Int) :
    Sound config { s with watcher := w, lastReadConfig := last } :=
  ⟨fun _ => sound.config_eq outside, fun here => (still _ here).elim⟩

/-- A request that does not take the lock. -/
lemma Sound.go (sound : Sound config s) {q : Nat} {r : Request}
    (stays : r.Holds → (s.request q).Holds) : Sound config (s.go q r) := by
  refine ⟨sound.config_eq, ?_⟩
  intro cfg q' here holds
  have holds : (Function.update s.request q r q').Holds := holds
  rw [Function.update_apply] at holds
  split_ifs at holds with same
  · exact sound.alone here (stays holds)
  · exact sound.alone here holds

/-- Every step keeps the state sound. -/
lemma Sound.step (sound : Sound config s) (st : Step e s a t) : Sound ((loads s a).getD config) t := by
  cases st with
  | write => exact ⟨sound.config_eq, sound.alone⟩
  | @event ev here =>
    refine sound.watch (by simp [here]) _ ?_ _
    intro cfg
    split_ifs <;> simp
  | stat here =>
    show Sound config s.stat
    rw [stat_frame]
    refine sound.watch (by simp [here]) _ ?_ _
    rcases stat_watcher s with h | h <;> simp [h]
  | mark here => exact sound.watch (by simp [here]) _ (by simp) _
  | read here =>
    show Sound config (s.read e.parse)
    rw [read_frame]
    refine sound.watch (by simp [here]) _ ?_ _
    rcases read_watcher e.parse s with h | ⟨f, cfg, -, -, h⟩ <;> simp [h]
  | lock here free => exact ⟨fun outside => (outside _ rfl).elim, fun _ => free _⟩
  | copy here => exact ⟨fun outside => (outside _ here).elim, sound.alone⟩
  | @unlock cfg here =>
    have put : loads s .unlock = some cfg := by
      unfold loads
      rw [here]
    rw [put]
    exact ⟨fun _ => rfl, nofun⟩
  | rlock _ free => exact ⟨sound.config_eq, fun here => (free _ here).elim⟩
  | readUser here => exact sound.go (fun _ => by rw [here]; trivial)
  | readPassword here => exact sound.go (fun _ => by rw [here]; trivial)
  | runlock here => exact sound.go nofun
  | decide here => exact sound.go nofun

/-- Outside the lock `Config` is what is in force, in every run. -/
theorem sound_of_run (run : Run (Recorded (Step e)) {} trace s) : Sound (inForce trace) s := by
  refine run.follows (fun s config => Sound (config.getD {}) s) ⟨fun _ => rfl, nofun⟩ ?_
  intro s a t config sound st
  have next := sound.step st
  cases put : loads s a with
  | none => simpa [put] using next
  | some cfg => simpa [put] using next

end

/-! ## Where the settings come from -/

/-- The settings are the ones at the start, or the file has held them when it was read. -/
def FromFile (parse : Parser) (trace : List (Process × Act)) (config : AppConfig) : Prop :=
  config = {} ∨ ∃ t f cfg, (t, Act.read) ∈ trace ∧ t.file = some f ∧ parse f.content = .ok cfg ∧
    config = cfg.setFlags

section
variable {e : Setting} {s t : Process} {config : AppConfig} {trace : List (Process × Act)}

/-- They stay so. -/
lemma FromFile.append (from_file : FromFile e.parse trace config) (a : Process × Act) :
    FromFile e.parse (trace ++ [a]) config := by
  rcases from_file with rfl | ⟨t, f, cfg, mem, file, ok, rfl⟩
  · exact .inl rfl
  · exact .inr ⟨t, f, cfg, List.mem_append_left _ mem, file, ok, rfl⟩

/-- The settings that the watcher has in hand. -/
def Watcher.config? : Watcher → Option AppConfig
  | .loaded cfg => some cfg
  | .copying cfg => some cfg
  | _ => none

/-- The settings in hand have been in the file. -/
lemma watcher_fromFile (run : Run (Recorded (Step e)) {} trace s) {config : AppConfig}
    (has : s.watcher.config? = some config) : FromFile e.parse trace config := by
  induction run generalizing config with
  | nil => cases has
  | @snoc trace s a t _ st ih =>
    obtain ⟨rfl, st⟩ := st
    obtain ⟨s, a⟩ := a
    dsimp only at st ih
    cases st with
    | event here =>
      dsimp only at has
      split_ifs at has <;> cases has
    | stat here => rcases stat_watcher s with h | h <;> rw [h] at has <;> cases has
    | mark here => cases has
    | read here =>
      rcases read_watcher e.parse s with h | ⟨f, cfg, file, ok, h⟩
      · rw [h] at has
        cases has
      · rw [h] at has
        cases has
        exact .inr ⟨s, f, cfg, by simp, file, ok, rfl⟩
    | lock here free =>
      cases has
      exact (ih (by rw [here]; rfl)).append _
    | unlock here => cases has
    | write => exact (ih has).append _
    | copy here => exact (ih has).append _
    | rlock here free => exact (ih has).append _
    | readUser here => exact (ih has).append _
    | readPassword here => exact (ih has).append _
    | runlock here => exact (ih has).append _
    | decide here => exact (ih has).append _

/-- What is in force has been in the file, as a whole. -/
theorem inForce_fromFile (run : Run (Recorded (Step e)) {} trace s) :
    FromFile e.parse trace (inForce trace) := by
  induction run with
  | nil => exact .inl rfl
  | @snoc trace s a t run st ih =>
    obtain ⟨rfl, st⟩ := st
    obtain ⟨s, a⟩ := a
    dsimp only at st run ih
    unfold inForce at ih ⊢
    rw [lastWrite_snoc]
    cases put : loads s a with
    | none => simpa using ih.append _
    | some cfg =>
      have here : s.watcher.config? = some cfg := by
        unfold loads at put
        split at put
        · split at put
          · rename_i here
            rw [here]
            exact put
          · cases put
        · cases put
      simpa using (watcher_fromFile run here).append (s, a)

end

/-! ## The file is followed -/

/-- A step that writes the file, or looks at it: has it been looked at since it was written? -/
def looks (_ : Process) : Act → Option Bool
  | .write _ => some false
  | .stat => some true
  | _ => none

/-- The modification time of the file is after the time at which the process last tried to read it. -/
def Dated (s : Process) : Act → Prop
  | .write (some f) => s.lastReadConfig < f.modTime
  | _ => True

/-- The file will be read, or its settings are on their way, or in place. -/
def Taken (parse : Parser) (s : Process) (f : ConfigFile) : Prop :=
  ∀ cfg, parse f.content = .ok cfg →
    (s.watcher = .newer ∨ s.watcher = .reading) ∨ s.watcher.config? = some cfg.setFlags ∨
      ((s.watcher = .waiting ∨ s.watcher = .calling) ∧ s.config = cfg.setFlags)

/-- A file that is not taken has not been looked at, and is newer than the last attempt to read it. -/
def Followed (parse : Parser) (looked : Bool) (s : Process) : Prop :=
  ∀ f, s.file = some f → (looked = false ∧ s.lastReadConfig < f.modTime) ∨ Taken parse s f

section
variable {e : Setting} {s t : Process} {a : Act} {trace : List (Process × Act)} {looked : Bool}

/-- Where a file is taken while the watcher is between two attempts, its settings are in place. -/
lemma Taken.in_place {parse : Parser} {f : ConfigFile} {cfg : AppConfig} (taken : Taken parse s f)
    (idle : s.watcher = .waiting ∨ s.watcher = .calling) (ok : parse f.content = .ok cfg) :
    s.config = cfg.setFlags := by
  rcases taken _ ok with (h | h) | h | ⟨-, h⟩
  · rcases idle with idle | idle <;> simp [idle] at h
  · rcases idle with idle | idle <;> simp [idle] at h
  · rcases idle with idle | idle <;> simp [idle, Watcher.config?] at h
  · exact h

/-- Where it is while the watcher has settings in hand, it is those. -/
lemma Taken.in_hand {parse : Parser} {f : ConfigFile} {cfg cfg' : AppConfig} (taken : Taken parse s f)
    (here : s.watcher = .loaded cfg' ∨ s.watcher = .copying cfg') (ok : parse f.content = .ok cfg) :
    cfg' = cfg.setFlags := by
  rcases taken _ ok with (h | h) | h | ⟨h, -⟩
  · rcases here with here | here <;> simp [here] at h
  · rcases here with here | here <;> simp [here] at h
  · rcases here with here | here <;> simpa [here, Watcher.config?] using h
  · rcases here with here | here <;> simp [here] at h

/-- Every step keeps the configuration following the file. -/
lemma Followed.step (followed : Followed e.parse looked s) (dated : Dated s a) (st : Step e s a t) :
    Followed e.parse ((looks s a).getD looked) t := by
  intro f file
  cases st with
  | write =>
    obtain rfl := file
    exact .inl ⟨rfl, dated⟩
  | @event ev here =>
    refine (followed f file).imp_right (fun taken cfg ok => .inr (.inr ⟨?_, taken.in_place (.inl here) ok⟩))
    dsimp only
    split_ifs
    · exact .inr rfl
    · exact .inl rfl
  | stat here =>
    rw [stat_frame] at file
    refine .inr (fun cfg ok => ?_)
    unfold Process.stat
    rw [file]
    dsimp only
    split_ifs with newer
    · exact .inl (.inl rfl)
    · -- it is not read again, so it has been taken
      rcases followed f file with ⟨-, due⟩ | taken
      · exact (newer due).elim
      · exact .inr (.inr ⟨.inl rfl, taken.in_place (.inr here) ok⟩)
  | mark here => exact .inr (fun _ _ => .inl (.inr rfl))
  | read here =>
    rw [read_frame] at file
    refine .inr (fun cfg ok => .inr (.inl ?_))
    unfold Process.read
    rw [file]
    dsimp only
    rw [ok]
    rfl
  | lock here free =>
    refine (followed f file).imp_right (fun taken cfg ok => .inr (.inl ?_))
    exact congrArg some (taken.in_hand (.inl here) ok)
  | copy here =>
    refine (followed f file).imp_right (fun taken cfg ok => .inr (.inl ?_))
    show s.watcher.config? = _
    rw [here]
    exact congrArg some (taken.in_hand (.inr here) ok)
  | unlock here =>
    refine (followed f file).imp_right (fun taken cfg ok => .inr (.inr ⟨.inl rfl, ?_⟩))
    exact taken.in_hand (.inr here) ok
  | rlock here free => exact followed f file
  | readUser here => exact followed f file
  | readPassword here => exact followed f file
  | runlock here => exact followed f file
  | decide here => exact followed f file

/-- A run in which the file is always dated after the last attempt. -/
lemma followed_of_run (run : Run (Recorded (Guarded Dated (Step e))) {} trace s) :
    Followed e.parse ((lastWrite looks trace).getD false) s := by
  refine run.follows (fun s looked => Followed e.parse (looked.getD false) s) nofun ?_
  intro s a t looked followed st
  have next := followed.step st.1 st.2
  cases seen : looks s a with
  | none => simpa [seen] using next
  | some b => simpa [seen] using next

/-- In every run in which the file is dated after the last attempt to read it whenever it is written: once the
    watcher waits for events again and has looked at the file since it was written, the settings in force are
    those of the file, if it can be parsed, however the steps of the requests and of other writes came in
    between. -/
theorem config_follows_file (run : Run (Recorded (Guarded Dated (Step e))) {} trace s)
    (waits : s.watcher = .waiting) (looked : lastWrite looks trace = some true) {f : ConfigFile}
    {cfg : AppConfig} (file : s.file = some f) (ok : e.parse f.content = .ok cfg) :
    s.config = cfg.setFlags := by
  rcases followed_of_run run f file with ⟨unseen, -⟩ | taken
  · simp [looked] at unseen
  · exact taken.in_place (.inl waits) ok

end

/-- A file that asks for a password. -/
def guardedFile : ConfigFile := { modTime := 1, content := "[http]" }

/-- A process with this file, and a request with the right credentials. -/
def smallSetting : Setting where
  fileName := "geodns.conf"
  parse _ := .ok { user := "stats", password := "secret", apiKey := "key" }
  auth _ := some ("stats", "secret")

/-- The file is written and loaded. -/
theorem file_loaded : ∃ trace s, Run (Recorded (Guarded Dated (Step smallSetting))) {} trace s ∧
    s.config = { user := "stats", password := "secret", apiKey := "key", hasStatHat := true } := by
  have next : ∀ {trace s t} a, Run (Recorded (Guarded Dated (Step smallSetting))) {} trace s → Dated s a →
      Step smallSetting s a t → Run (Recorded (Guarded Dated (Step smallSetting))) {} (trace ++ [(s, a)]) t :=
    fun a run dated st => run.snoc ⟨rfl, dated, st⟩
  have early : zeroTime < guardedFile.modTime := by decide
  have run₁ := next (.write (some guardedFile)) .nil early .write
  have run₂ := next .stat run₁ trivial (.stat rfl)
  have run₃ := next (.mark 2) run₂ trivial (.mark rfl)
  have run₄ := next .read run₃ trivial (.read rfl)
  have run₅ := next .lock run₄ trivial (.lock rfl (fun _ => id))
  have run₆ := next (.copy { user := "stats" }) run₅ trivial (.copy rfl)
  have run₇ := next .unlock run₆ trivial (.unlock rfl)
  exact ⟨_, _, run₇, config_follows_file run₇ rfl rfl (f := guardedFile) rfl rfl⟩

end GeoDNS.App
