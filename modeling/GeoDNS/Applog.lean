import GeoDNS.Lib.Run
import Mathlib.Data.Finset.Card
import Mathlib.Data.Finset.Insert

/-!
# The log file and its rotation

`applog/log.go`. The lines of all goroutines go to one output, the log file. A monitor looks at the file every
few seconds; if it is gone or empty, somebody has rotated it, and the monitor opens it anew, redirects the
output and closes the old file. `FileClose` hands a channel to the monitor and waits for it to redirect the
output to the standard error, to close the file and to return.

Writing to a file that has been closed fails, and nobody notices. `log_kept` says that this never happens,
however the monitor, `FileClose`, the goroutines that log and the ones who rotate the file come in between
each other: the output is always open when a line is written. Nor does the monitor ever use the variable
`ltf` after `FileClose` has cleared it, keep an old file open, or keep `FileClose` waiting for good.
-/

namespace GeoDNS.Applog
open GeoDNS.Lib

/-- Where `log` writes to. -/
inductive Output where
  | stderr
  | file (fd : Nat)
  deriving DecidableEq

/-- Go `logToFile`; its name and its channel do not change. -/
structure LogToFile where
  file : Option Nat

/-- Where `logToFileMonitor` is. -/
inductive Monitor where
  | selecting
  -- the file has been rotated
  | rotated
  | opened (fd : Nat)
  | redirected (fd : Nat)
  | announced (fd : Nat)
  | closedOld (fd : Nat)
  -- a close has been requested
  | asked
  | restored
  | closedFile
  | replying
  | returned
  -- `ltf` was nil
  | crashed

/-- Where the call of `FileClose` is. -/
inductive Closer where
  | idle
  | sending
  | waiting
  | confirmed
  | done
  deriving DecidableEq

/-- The process, and the file system as far as it matters. A descriptor is of a file, and the name of the log
    file is of a file or of none. -/
structure Process where
  path : Option Nat
  size : Nat → Nat
  nextFile : Nat
  fileOf : Nat → Nat
  nextFd : Nat
  opens : Finset Nat
  out : Output
  ltf : Option LogToFile
  monitor : Monitor := .selecting
  closer : Closer := .idle
  -- the lines that were handed to `log`, and those that came out of it
  logged : List String
  written : List String

/-- Go `log.Printf`. -/
def Process.print (s : Process) (line : String) : Process :=
  match s.out with
  | .stderr => { s with logged := s.logged ++ [line], written := s.written ++ [line] }
  | .file fd =>
    if fd ∈ s.opens then
      { s with
        logged := s.logged ++ [line]
        written := s.written ++ [line]
        size := Function.update s.size (s.fileOf fd) (s.size (s.fileOf fd) + 1) }
    else { s with logged := s.logged ++ [line] }

/-- Go `os.OpenFile` of the log file, which makes the file if it is not there. -/
def Process.openFile (s : Process) : Process :=
  let file := s.path.getD s.nextFile
  { s with
    path := some file
    size := if s.path = none then Function.update s.size s.nextFile 0 else s.size
    nextFile := if s.path = none then s.nextFile + 1 else s.nextFile
    fileOf := Function.update s.fileOf s.nextFd file
    opens := insert s.nextFd s.opens
    nextFd := s.nextFd + 1 }

/-- Go `File.Close`; a nil file is not closed. -/
def Process.close (s : Process) : Option Nat → Process
  | none => s
  | some fd => { s with opens := s.opens.erase fd }

/-- What the monitor looks for: is the file gone, or empty? -/
def Process.hasRotated (s : Process) : Bool :=
  match s.path with
  | none => true
  | some file => s.size file = 0

/-- After `FileOpen`, on a file of some lines. -/
def fileOpen (lines : Nat) : Process :=
  Process.print
    { path := some 0, size := fun _ => lines, nextFile := 1, fileOf := fun _ => 0, nextFd := 1, opens := {0},
      out := .file 0, ltf := some ⟨some 0⟩, logged := [], written := [] } "Opening log file"

/-- The steps. -/
inductive Act where
  | print (line : String)
  | remove
  | truncate
  | replace
  | stat
  | openFails
  | openFile
  | redirect
  | announce
  | closeOld
  | store
  | callClose
  | handOver
  | restore
  | closeFile
  | clear
  | reply
  | finish
  | crash

/-- Does the monitor use `ltf` next? -/
def Monitor.uses : Monitor → Bool
  | .opened _ => false
  | .redirected _ => false
  | .replying => false
  | .returned => false
  | .crashed => false
  | _ => true

/-- The steps of the process and of others who rotate the file. -/
inductive Step (s : Process) : Act → Process → Prop
  | print {line} : Step s (.print line) (s.print line)
  -- the file is renamed or removed, truncated, or replaced by an empty one
  | remove : Step s .remove { s with path := none }
  | truncate {file} (here : s.path = some file) :
      Step s .truncate { s with size := Function.update s.size file 0 }
  | replace :
      Step s .replace
        { s with
          path := some s.nextFile
          size := Function.update s.size s.nextFile 0
          nextFile := s.nextFile + 1 }
  -- the monitor
  | stat (here : s.monitor = .selecting) (known : s.ltf.isSome) :
      Step s .stat { s with monitor := if s.hasRotated then .rotated else .selecting }
  | openFails (here : s.monitor = .rotated) (known : s.ltf.isSome) :
      Step s .openFails { s.print "Could not open new log file" with monitor := .selecting }
  | openFile (here : s.monitor = .rotated) (known : s.ltf.isSome) :
      Step s .openFile { s.openFile with monitor := .opened s.nextFd }
  | redirect {fd} (here : s.monitor = .opened fd) :
      Step s .redirect { s with out := .file fd, monitor := .redirected fd }
  | announce {fd} (here : s.monitor = .redirected fd) :
      Step s .announce { s.print "Rotating log file" with monitor := .announced fd }
  | closeOld {fd l} (here : s.monitor = .announced fd) (known : s.ltf = some l) :
      Step s .closeOld { s.close l.file with monitor := .closedOld fd }
  | store {fd l} (here : s.monitor = .closedOld fd) (known : s.ltf = some l) :
      Step s .store { s with ltf := some ⟨some fd⟩, monitor := .selecting }
  | restore {l} (here : s.monitor = .asked) (known : s.ltf = some l) :
      Step s .restore
        (if l.file = none then { s with monitor := .replying }
        else { s with out := .stderr, monitor := .restored })
  | closeFile {l} (here : s.monitor = .restored) (known : s.ltf = some l) :
      Step s .closeFile { s.close l.file with monitor := .closedFile }
  | clear {l} (here : s.monitor = .closedFile) (known : s.ltf = some l) :
      Step s .clear { s with ltf := some ⟨none⟩, monitor := .replying }
  | crash (here : s.monitor.uses) (gone : s.ltf = none) : Step s .crash { s with monitor := .crashed }
  -- `FileClose`, and where it meets the monitor
  | callClose (here : s.closer = .idle) :
      Step s .callClose
        (if s.ltf = none then { s with closer := .done }
        else { s.print "Closing log file" with closer := .sending })
  | handOver (here : s.closer = .sending) (there : s.monitor = .selecting) (known : s.ltf.isSome) :
      Step s .handOver { s with closer := .waiting, monitor := .asked }
  | reply (here : s.closer = .waiting) (there : s.monitor = .replying) :
      Step s .reply { s with closer := .confirmed, monitor := .returned }
  | finish (here : s.closer = .confirmed) : Step s .finish { s with closer := .done, ltf := none }

/-! ## Where everything is -/

/-- The files that are open at each place of the monitor, if `old` is the log file before a rotation. -/
def Monitor.files (old : Nat) : Monitor → Finset Nat
  | .selecting => {old}
  | .rotated => {old}
  | .opened fd => {fd, old}
  | .redirected fd => {fd, old}
  | .announced fd => {fd, old}
  | .closedOld fd => {fd}
  | .asked => {old}
  | .restored => {old}
  | _ => ∅

/-- The output. -/
def Monitor.output (old : Nat) : Monitor → Output
  | .selecting => .file old
  | .rotated => .file old
  | .opened _ => .file old
  | .redirected fd => .file fd
  | .announced fd => .file fd
  | .closedOld fd => .file fd
  | .asked => .file old
  | _ => .stderr

/-- What `ltf` is. -/
def Monitor.Has (old : Nat) (ltf : Option LogToFile) : Monitor → Prop
  | .closedOld _ => ltf.isSome
  | .closedFile => ltf.isSome
  | .replying => ltf.isSome
  | .returned => True
  | _ => ltf = some ⟨some old⟩

/-- How far `FileClose` has come. -/
def Monitor.Meets (closer : Closer) : Monitor → Prop
  | .asked => closer = .waiting
  | .restored => closer = .waiting
  | .closedFile => closer = .waiting
  | .replying => closer = .waiting
  | .returned => closer = .confirmed ∨ closer = .done
  | .crashed => False
  | _ => closer = .idle ∨ closer = .sending

/-- No line is lost, and everything is in its place. -/
structure Sound (old : Nat) (s : Process) : Prop where
  kept : s.written = s.logged
  below : ∀ f ∈ s.opens, f < s.nextFd
  opens_eq : s.opens = s.monitor.files old
  out_eq : s.out = s.monitor.output old
  ltf_eq : s.monitor.Has old s.ltf
  closer_eq : s.monitor.Meets s.closer
  new : ∀ {fd}, s.monitor = .opened fd ∨ s.monitor = .redirected fd ∨ s.monitor = .announced fd → fd ≠ old

section
variable {s t : Process} {a : Act} {m : Monitor} {old : Nat} {ltf : Option LogToFile} {closer : Closer}

/-- The output is one of the files that are open. -/
lemma Monitor.output_mem {f : Nat} (out : m.output old = .file f) : f ∈ m.files old := by
  cases m <;> simp_all [output, files]

/-- While the monitor uses the record of the log file, the record is there. -/
lemma Monitor.Has.known (has : m.Has old ltf) (uses : m.uses) : ltf.isSome := by
  cases m <;> simp_all [Has, Monitor.uses]

/-- Before `FileClose` is called the monitor is at work. -/
lemma Monitor.Meets.of_idle (meets : m.Meets .idle) (has : m.Has old ltf) :
    m.Meets .sending ∧ ltf.isSome := by
  cases m <;> simp_all [Meets, Has]

/-- When the monitor has replied, it has returned. -/
lemma Monitor.Meets.of_confirmed (meets : m.Meets .confirmed) : m = .returned := by
  cases m <;> simp_all [Meets]

/-- A line that is printed is written, and nothing else changes. -/
lemma Sound.prints (sound : Sound old s) (line : String) : ∃ size, s.print line =
    { s with logged := s.logged ++ [line], written := s.written ++ [line], size := size } := by
  unfold Process.print
  cases out : s.out with
  | stderr => exact ⟨s.size, rfl⟩
  | file fd =>
    have mem : fd ∈ s.opens := by
      rw [sound.opens_eq]
      exact Monitor.output_mem (sound.out_eq.symm.trans out)
    dsimp only
    rw [if_pos mem]
    exact ⟨_, rfl⟩

/-- A line that is logged changes nothing else. -/
lemma Sound.print (sound : Sound old s) (line : String) : Sound old (s.print line) := by
  obtain ⟨size, e⟩ := sound.prints line
  rw [e]
  exact { sound with kept := congrArg (· ++ [line]) sound.kept }

/-- What is in place where the monitor is. -/
lemma Sound.here (sound : Sound old s) (here : s.monitor = m) :
    s.opens = m.files old ∧ s.out = m.output old ∧ m.Has old s.ltf ∧ m.Meets s.closer := by
  subst here
  exact ⟨sound.opens_eq, sound.out_eq, sound.ltf_eq, sound.closer_eq⟩

/-- Every step of the monitor, of `FileClose` and of the others keeps everything in its place; after a
    rotation the new file takes the place of the old one. -/
lemma Sound.step (sound : Sound old s) (st : Step s a t) : ∃ old, Sound old t := by
  cases st with
  | print => exact ⟨old, sound.print _⟩
  | remove => exact ⟨old, { sound with }⟩
  | truncate here => exact ⟨old, { sound with }⟩
  | replace => exact ⟨old, { sound with }⟩
  | stat here known =>
    obtain ⟨opens, out, has, meets⟩ := sound.here here
    split_ifs
    · exact ⟨old, sound.kept, sound.below, opens, out, has, meets, by simp⟩
    · exact ⟨old, sound.kept, sound.below, opens, out, has, meets, by simp⟩
  | openFails here known =>
    obtain ⟨opens, out, has, meets⟩ := sound.here here
    obtain ⟨size, e⟩ := sound.prints "Could not open new log file"
    rw [e]
    exact ⟨old, congrArg (· ++ _) sound.kept, sound.below, opens, out, has, meets, by simp⟩
  | openFile here known =>
    obtain ⟨opens, out, has, meets⟩ := sound.here here
    have less : old < s.nextFd := sound.below old (by rw [opens]; exact Finset.mem_singleton_self old)
    refine ⟨old, sound.kept, ?_, congrArg (insert s.nextFd) opens, out, has, meets, ?_⟩
    · intro f hf
      rcases Finset.mem_insert.mp hf with rfl | hf
      · exact Nat.lt_succ_self _
      · exact Nat.lt_succ_of_lt (sound.below f hf)
    · intro fd at_fd
      have same : s.nextFd = fd := by simpa using at_fd
      omega
  | redirect here =>
    obtain ⟨opens, out, has, meets⟩ := sound.here here
    have ne := sound.new (.inl here)
    exact ⟨old, sound.kept, sound.below, opens, rfl, has, meets, by simpa using ne⟩
  | announce here =>
    obtain ⟨opens, out, has, meets⟩ := sound.here here
    have ne := sound.new (.inr (.inl here))
    obtain ⟨size, e⟩ := sound.prints "Rotating log file"
    rw [e]
    exact ⟨old, congrArg (· ++ _) sound.kept, sound.below, opens, out, has, meets, by simpa using ne⟩
  | @closeOld fd l here known =>
    obtain ⟨opens, out, has, meets⟩ := sound.here here
    have ne := sound.new (.inr (.inr here))
    cases known.symm.trans has
    refine ⟨old, sound.kept, fun f hf => sound.below f (Finset.mem_of_mem_erase hf), ?_, out, ?_, meets,
      by simp⟩
    · show s.opens.erase old = {fd}
      rw [opens]
      show (insert fd {old} : Finset Nat).erase old = {fd}
      rw [Finset.erase_insert_of_ne ne]
      simp
    · show s.ltf.isSome
      simp [known]
  | @store fd l here known =>
    -- from now on the new file is the log file
    obtain ⟨opens, out, has, meets⟩ := sound.here here
    exact ⟨fd, sound.kept, sound.below, opens, out, rfl, meets, by simp⟩
  | restore here known =>
    obtain ⟨opens, out, has, meets⟩ := sound.here here
    cases known.symm.trans has
    exact ⟨old, sound.kept, sound.below, opens, rfl, has, meets, by simp⟩
  | closeFile here known =>
    obtain ⟨opens, out, has, meets⟩ := sound.here here
    cases known.symm.trans has
    refine ⟨old, sound.kept, fun f hf => sound.below f (Finset.mem_of_mem_erase hf), ?_, out, ?_, meets,
      by simp⟩
    · show s.opens.erase old = ∅
      rw [opens]
      exact Finset.erase_singleton old
    · show s.ltf.isSome
      simp [known]
  | clear here known =>
    obtain ⟨opens, out, has, meets⟩ := sound.here here
    exact ⟨old, sound.kept, sound.below, opens, out, rfl, meets, by simp⟩
  | crash here gone =>
    have known := sound.ltf_eq.known here
    rw [gone] at known
    cases known
  | callClose here =>
    have meets := sound.closer_eq
    rw [here] at meets
    obtain ⟨sending, known⟩ := meets.of_idle sound.ltf_eq
    obtain ⟨size, e⟩ := sound.prints "Closing log file"
    rw [if_neg (by rintro gone; simp [gone] at known), e]
    exact ⟨old, { sound with kept := congrArg (· ++ _) sound.kept, closer_eq := sending }⟩
  | handOver here there known =>
    obtain ⟨opens, out, has, -⟩ := sound.here there
    exact ⟨old, sound.kept, sound.below, opens, out, has, rfl, by simp⟩
  | reply here there =>
    obtain ⟨opens, out, -, -⟩ := sound.here there
    exact ⟨old, sound.kept, sound.below, opens, out, trivial, .inl rfl, by simp⟩
  | finish here =>
    have meets := sound.closer_eq
    rw [here] at meets
    have returned := meets.of_confirmed
    obtain ⟨opens, out, -, -⟩ := sound.here returned
    refine ⟨old, sound.kept, sound.below, sound.opens_eq, sound.out_eq, ?_, ?_, sound.new⟩
    · show s.monitor.Has old none
      rw [returned]
      trivial
    · show s.monitor.Meets .done
      rw [returned]
      exact .inr rfl

/-- After `FileOpen` all is as it should be. -/
lemma sound_fileOpen (lines : Nat) : Sound 0 (fileOpen lines) := by
  unfold fileOpen
  refine Sound.print ?_ _
  exact ⟨rfl, by simp, rfl, rfl, rfl, .inl rfl, by simp⟩

/-- So it is in every run. -/
lemma sound_of_run {lines : Nat} {acts : List Act} (run : Run Step (fileOpen lines) acts s) :
    ∃ old, Sound old s := by
  induction run with
  | nil => exact ⟨0, sound_fileOpen lines⟩
  | snoc _ st ih =>
    obtain ⟨old, sound⟩ := ih
    exact sound.step st

/-! ## `FileClose` comes to its end -/

/-- The process can get to the end of `FileClose`. -/
def Ends (s : Process) : Prop :=
  ∃ t, Reaches Step s t ∧ t.closer = .done

/-- What comes to its end after a step comes to its end before it. -/
lemma Ends.of_step (st : Step s a t) (ends : Ends t) : Ends s := by
  obtain ⟨u, reaches, done⟩ := ends
  exact ⟨u, (Reaches.refl.tail st).trans reaches, done⟩

/-- `FileClose` has its answer. -/
lemma ends_of_confirmed (here : s.closer = .confirmed) : Ends s :=
  Ends.of_step (.finish here) ⟨_, .refl, rfl⟩

/-- The monitor has its answer ready. -/
lemma ends_of_replying (here : s.closer = .waiting) (there : s.monitor = .replying) : Ends s :=
  Ends.of_step (.reply here there) (ends_of_confirmed rfl)

/-- The monitor has closed the file. -/
lemma ends_of_closedFile (sound : Sound old s) (there : s.monitor = .closedFile) : Ends s := by
  obtain ⟨-, -, has, meets⟩ := sound.here there
  obtain ⟨l, known⟩ := Option.isSome_iff_exists.mp has
  exact Ends.of_step (.clear there known) (ends_of_replying meets rfl)

/-- The monitor has redirected the output. -/
lemma ends_of_restored (sound : Sound old s) (there : s.monitor = .restored) : Ends s := by
  obtain ⟨-, -, has, -⟩ := sound.here there
  have st : Step s .closeFile { s.close (some old) with monitor := .closedFile } := .closeFile there has
  obtain ⟨old', sound'⟩ := sound.step st
  exact Ends.of_step st (ends_of_closedFile sound' rfl)

/-- The monitor has taken the request. -/
lemma ends_of_asked (sound : Sound old s) (there : s.monitor = .asked) : Ends s := by
  obtain ⟨-, -, has, -⟩ := sound.here there
  have st : Step s .restore { s with out := .stderr, monitor := .restored } := .restore there has
  obtain ⟨old', sound'⟩ := sound.step st
  exact Ends.of_step st (ends_of_restored sound' rfl)

/-- The monitor can take the request. -/
lemma ends_of_selecting (sound : Sound old s) (here : s.closer = .sending) (there : s.monitor = .selecting) :
    Ends s := by
  obtain ⟨-, -, has, -⟩ := sound.here there
  have known : s.ltf.isSome := Monitor.Has.known (m := .selecting) has rfl
  have st : Step s .handOver { s with closer := .waiting, monitor := .asked } := .handOver here there known
  obtain ⟨old', sound'⟩ := sound.step st
  exact Ends.of_step st (ends_of_asked sound' rfl)

/-- The monitor is behind the close of the old file. -/
lemma ends_of_closedOld {fd : Nat} (sound : Sound old s) (here : s.closer = .sending)
    (there : s.monitor = .closedOld fd) : Ends s := by
  obtain ⟨-, -, has, -⟩ := sound.here there
  obtain ⟨l, known⟩ := Option.isSome_iff_exists.mp has
  obtain ⟨old', sound'⟩ := sound.step (.store there known)
  exact Ends.of_step (.store there known) (ends_of_selecting sound' here rfl)

/-- The monitor has announced the rotation. -/
lemma ends_of_announced {fd : Nat} (sound : Sound old s) (here : s.closer = .sending)
    (there : s.monitor = .announced fd) : Ends s := by
  obtain ⟨-, -, has, -⟩ := sound.here there
  have st : Step s .closeOld { s.close (some old) with monitor := .closedOld fd } := .closeOld there has
  obtain ⟨old', sound'⟩ := sound.step st
  exact Ends.of_step st (ends_of_closedOld sound' here rfl)

/-- Printing a line leaves `FileClose` where it is. -/
lemma Sound.print_closer (sound : Sound old s) (line : String) : (s.print line).closer = s.closer := by
  obtain ⟨size, e⟩ := sound.prints line
  rw [e]

/-- The monitor has redirected the output to the new file. -/
lemma ends_of_redirected {fd : Nat} (sound : Sound old s) (here : s.closer = .sending)
    (there : s.monitor = .redirected fd) : Ends s := by
  obtain ⟨old', sound'⟩ := sound.step (.announce there)
  exact Ends.of_step (.announce there)
    (ends_of_announced sound' ((sound.print_closer _).trans here) rfl)

/-- The monitor has opened the new file. -/
lemma ends_of_opened {fd : Nat} (sound : Sound old s) (here : s.closer = .sending)
    (there : s.monitor = .opened fd) : Ends s := by
  obtain ⟨old', sound'⟩ := sound.step (.redirect there)
  exact Ends.of_step (.redirect there) (ends_of_redirected sound' here rfl)

/-- The monitor has found that the file has been rotated. -/
lemma ends_of_rotated (sound : Sound old s) (here : s.closer = .sending) (there : s.monitor = .rotated) :
    Ends s := by
  obtain ⟨-, -, has, -⟩ := sound.here there
  have known : s.ltf.isSome := by rw [show s.ltf = _ from has]; rfl
  obtain ⟨old', sound'⟩ := sound.step (.openFails there known)
  exact Ends.of_step (.openFails there known)
    (ends_of_selecting sound' ((sound.print_closer _).trans here) rfl)

/-- Wherever the monitor is, `FileClose` is not kept waiting for good. -/
lemma Sound.ends (sound : Sound old s) (called : s.closer ≠ .idle) : Ends s := by
  have meets := sound.closer_eq
  cases here : s.closer with
  | idle => exact (called here).elim
  | sending =>
    rw [here] at meets
    cases there : s.monitor with
    | selecting => exact ends_of_selecting sound here there
    | rotated => exact ends_of_rotated sound here there
    | opened fd => exact ends_of_opened sound here there
    | redirected fd => exact ends_of_redirected sound here there
    | announced fd => exact ends_of_announced sound here there
    | closedOld fd => exact ends_of_closedOld sound here there
    | _ => simp [there, Monitor.Meets] at meets
  | waiting =>
    rw [here] at meets
    cases there : s.monitor with
    | asked => exact ends_of_asked sound there
    | restored => exact ends_of_restored sound there
    | closedFile => exact ends_of_closedFile sound there
    | replying => exact ends_of_replying here there
    | _ => simp [there, Monitor.Meets] at meets
  | confirmed => exact ends_of_confirmed here
  | done => exact ⟨s, .refl, here⟩

/-- In every run after `FileOpen`, with any lines logged by any goroutines, any rotations, and a call of
    `FileClose`, in any order: every line that is logged is written, once and in order, to a file that is open
    or to the standard error; the monitor never uses `ltf` when it is nil; one file is open while nothing is
    going on, and never more than two; `FileClose` can always come to its end, and when it has, the monitor
    has returned, no file is open and the output is the standard error. -/
theorem log_kept {lines : Nat} {acts : List Act} (run : Run Step (fileOpen lines) acts s) :
    s.written = s.logged ∧ s.monitor ≠ .crashed ∧
    (s.monitor = .selecting → ∃ fd, s.opens = {fd} ∧ s.out = .file fd) ∧ s.opens.card ≤ 2 ∧
    (s.closer ≠ .idle → ∃ t, Reaches Step s t ∧ t.closer = .done) ∧
    (s.closer = .done → s.monitor = .returned ∧ s.opens = ∅ ∧ s.out = .stderr) := by
  obtain ⟨old, sound⟩ := sound_of_run run
  refine ⟨sound.kept, ?_, ?_, ?_, sound.ends, ?_⟩
  · intro crashed
    obtain ⟨-, -, -, meets⟩ := sound.here crashed
    exact meets
  · intro there
    obtain ⟨opens, out, -, -⟩ := sound.here there
    exact ⟨old, opens, out⟩
  · rw [sound.opens_eq]
    cases s.monitor <;> simp [Monitor.files, Finset.card_le_two]
  · intro done
    have meets := sound.closer_eq
    rw [done] at meets
    have returned : s.monitor = .returned := by
      cases there : s.monitor <;> simp [there, Monitor.Meets] at meets ⊢
    obtain ⟨opens, out, -, -⟩ := sound.here returned
    exact ⟨returned, opens, out⟩

end

/-- The log file is removed, a line is logged, the monitor notices, and then `FileClose` is called. -/
theorem line_kept_across_rotation : ∃ acts s, Run Step (fileOpen 0) acts s ∧
    s.written = ["Opening log file", "a line", "Rotating log file", "Closing log file"] ∧
    s.written = s.logged ∧ s.opens.card ≤ 2 := by
  have next : ∀ {acts s t} a, Run Step (fileOpen 0) acts s → Step s a t →
      Run Step (fileOpen 0) (acts ++ [a]) t := fun a run st => run.snoc st
  obtain ⟨acts, s, run, lines⟩ : ∃ acts s, Run Step (fileOpen 0) acts s ∧
      s.written = ["Opening log file", "a line", "Rotating log file", "Closing log file"] := by
    have run₁ := next .remove .nil .remove
    have run₂ := next (.print "a line") run₁ .print
    have run₃ := next .stat run₂ (.stat rfl rfl)
    have run₄ := next .openFile run₃ (.openFile rfl rfl)
    have run₅ := next .redirect run₄ (.redirect rfl)
    have run₆ := next .announce run₅ (.announce rfl)
    exact ⟨_, _, next .callClose run₆ (.callClose rfl), rfl⟩
  obtain ⟨kept, -, -, few, -⟩ := log_kept run
  exact ⟨acts, s, run, lines, kept, few⟩

end GeoDNS.Applog
