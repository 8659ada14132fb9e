import GeoDNS.Lib.Run
import GeoDNS.Logs.ProcessChan

/-!
# Who reads and who counts

`processFile` and `main` of `geodns-logs/process-stats.go` read the lines of a log and send them, over an
unbuffered channel, to a goroutine that runs `processChan`. `processFile` then closes the channel and waits
for the goroutine to be done, while `main` goes on waiting for lines.

The goroutine returns when it cannot decode a line, and neither empties the channel nor says that it is
done. `reading_ends` says what that comes to: no matter how the two are interleaved, a log ends in one way
only, and a log with a broken line, followed by others or not, leaves the reader stuck for good.
-/

namespace GeoDNS.Logs
open GeoDNS.Lib

/-- Where the reader is: in the loop, with these lines to send, in `wg.Wait`, with the channel closed, or
    behind it. -/
inductive Reader where
  | sending (rest : List Line)
  | waiting
  | returned

/-- Where the goroutine is: at the channel, or with a line in hand. When it has returned, it was with an
    error or with all lines counted; a panic in it is the end of the process. -/
inductive Worker where
  | receiving (e : Entry) (stats : Stats)
  | decoding (e : Entry) (stats : Stats) (line : Line)
  | failed (stats : Stats)
  | done (stats : Stats)
  | crashed

/-- The two of them. -/
structure Reading where
  reader : Reader
  worker : Worker

/-- Before the first line. -/
def Reading.start (lines : List Line) : Reading :=
  ⟨.sending lines, .receiving {} {}⟩

/-- The goroutine after it has dealt with a line. -/
def Worker.after : Res Processing → Worker
  | .ok ⟨some e, stats⟩ => .receiving e stats
  | .ok ⟨none, stats⟩ => .failed stats
  | _ => .crashed

/-- What happens next. -/
inductive ReadAction where
  | handOver
  | decode
  | close
  | finish
  | wait

/-- The steps of a reader that closes the channel (`processFile`) or does not (`main`). -/
inductive ReadStep (t : Tables) (closes : Bool) : Reading → ReadAction → Reading → Prop
  | handOver {line rest e stats} :
      ReadStep t closes ⟨.sending (line :: rest), .receiving e stats⟩ .handOver
        ⟨.sending rest, .decoding e stats line⟩
  | decode {reader e stats line} :
      ReadStep t closes ⟨reader, .decoding e stats line⟩ .decode
        ⟨reader, .after (processLine t ⟨some e, stats⟩ line)⟩
  | close {worker} (closing : closes = true) (alive : worker ≠ .crashed) :
      ReadStep t closes ⟨.sending [], worker⟩ .close ⟨.waiting, worker⟩
  | finish {e stats} :
      ReadStep t closes ⟨.waiting, .receiving e stats⟩ .finish ⟨.waiting, .done stats⟩
  | wait {stats} :
      ReadStep t closes ⟨.waiting, .done stats⟩ .wait ⟨.returned, .done stats⟩

/-! ## What the lines so far have come to -/

/-- The line cannot be decoded. -/
def Broken (line : Line) : Prop :=
  ∃ err, decodeLine line = .error err

/-- The reader has these lines left. -/
inductive Left (closes : Bool) : List Line → Reader → Prop
  | sending {rest} : Left closes rest (.sending rest)
  | waiting (closing : closes = true) : Left closes [] .waiting

/-- The goroutine has dealt with the lines that it was given, one after the other. -/
inductive InStep (t : Tables) (closes : Bool) (lines : List Line) : Reading → Prop
  | receiving {sent rest reader e stats} (split : lines = sent ++ rest)
      (ran : sent.foldlM (processLine t) {} = .ok ⟨some e, stats⟩) (left : Left closes rest reader) :
      InStep t closes lines ⟨reader, .receiving e stats⟩
  | decoding {sent line rest reader e stats} (split : lines = sent ++ line :: rest)
      (ran : sent.foldlM (processLine t) {} = .ok ⟨some e, stats⟩) (left : Left closes rest reader) :
      InStep t closes lines ⟨reader, .decoding e stats line⟩
  | failed {sent line rest reader e stats} (split : lines = sent ++ line :: rest)
      (ran : sent.foldlM (processLine t) {} = .ok ⟨some e, stats⟩) (broken : Broken line)
      (left : Left closes rest reader) : InStep t closes lines ⟨reader, .failed stats⟩
  | crashed {reader panic} (ran : lines.foldlM (processLine t) {} = .panic panic) :
      InStep t closes lines ⟨reader, .crashed⟩
  | done {reader e stats} (ran : lines.foldlM (processLine t) {} = .ok ⟨some e, stats⟩)
      (closing : closes = true) (closed : reader = .waiting ∨ reader = .returned) :
      InStep t closes lines ⟨reader, .done stats⟩

/-- The end of a log: all lines are counted, and the reader has returned if it ever does, or waits for more.
    Or else the goroutine has returned at the first line that cannot be decoded, and the reader waits for it
    to take the next one or to say that it is done. Or the process is gone. -/
def Ended (t : Tables) (closes : Bool) (lines : List Line) (s : Reading) : Prop :=
  match lines.foldlM (processLine t) {} with
  | .ok ⟨some e, stats⟩ =>
    s = if closes then ⟨.returned, .done stats⟩ else ⟨.sending [], .receiving e stats⟩
  | .ok ⟨none, stats⟩ =>
    ∃ before line rest, lines = before ++ line :: rest ∧ (∀ l ∈ before, ¬ Broken l) ∧ Broken line ∧
      s = ⟨if rest = [] ∧ closes = true then .waiting else .sending rest, .failed stats⟩
  | .panic _ => s.worker = .crashed
  | .diverge => False

section
variable {t : Tables} {closes : Bool} {lines sent rest : List Line} {s s' : Reading} {a : ReadAction}
variable {stats stats' : Stats} {line : Line} {e : Entry} {reader : Reader}

/-- A line is dealt with, or it is the end of the process. -/
lemma processLine_cases (t : Tables) (p : Processing) (line : Line) :
    (∃ p', processLine t p line = .ok p') ∨ processLine t p line = .panic .index := by
  unfold processLine
  cases p.entry with
  | none => exact .inl ⟨_, rfl⟩
  | some e =>
    cases decodeLine line with
    | error err => exact .inl ⟨_, rfl⟩
    | ok set =>
      dsimp only
      by_cases counted : (set e).lower.Counted
      · rw [add_of_counted counted]
        rcases vendor_cases (set e).lower with (panics : _ = _) | ⟨v, vendor⟩
        · rw [panics]
          exact .inr rfl
        · rw [vendor]
          exact .inl ⟨_, rfl⟩
      · rw [add_of_not_counted counted]
        exact .inl ⟨_, rfl⟩

/-- Once the goroutine has returned, the other lines make no difference. -/
lemma ignores_rest (ran : sent.foldlM (processLine t) {} = .ok ⟨none, stats⟩) :
    (sent ++ rest).foldlM (processLine t) {} = .ok ⟨none, stats⟩ := by
  rw [List.foldlM_append, ran, Res.ok_bind]
  induction rest with
  | nil => rfl
  | cons line rest ih => exact ih

/-- A broken line is the end of the loop. -/
lemma processLine_broken (broken : Broken line) (e : Entry) (stats : Stats) :
    processLine t ⟨some e, stats⟩ line = .ok ⟨none, stats⟩ := by
  obtain ⟨err, decoded⟩ := broken
  unfold processLine
  rw [decoded]

/-- Nothing else is. -/
lemma broken_of_processLine (h : processLine t ⟨some e, stats⟩ line = .ok ⟨none, stats'⟩) :
    Broken line ∧ stats' = stats := by
  unfold processLine at h
  cases decoded : decodeLine line with
  | error err =>
    rw [decoded] at h
    cases h
    exact ⟨⟨err, decoded⟩, rfl⟩
  | ok set =>
    rw [decoded] at h
    obtain ⟨_, _, h⟩ := Res.bind_eq_ok.mp h
    cases h

/-- What `processChan` has come to after one more line. -/
lemma ran_concat (ran : sent.foldlM (processLine t) {} = .ok ⟨some e, stats⟩) :
    (sent ++ [line]).foldlM (processLine t) {} = processLine t ⟨some e, stats⟩ line := by
  rw [foldlM_concat, ran, Res.ok_bind]

/-- As long as the goroutine goes on, there has been no broken line. -/
lemma not_broken_of_ran (ran : sent.foldlM (processLine t) {} = .ok ⟨some e, stats⟩) :
    ∀ l ∈ sent, ¬ Broken l := by
  intro l hl broken
  obtain ⟨before, after, rfl⟩ := List.append_of_mem hl
  rw [← List.singleton_append, ← List.append_assoc, List.foldlM_append] at ran
  obtain ⟨_, ran0, -⟩ := Res.bind_eq_ok.mp ran
  rw [foldlM_concat] at ran0
  obtain ⟨⟨entry1, stats1⟩, ran1, -⟩ := Res.bind_eq_ok.mp ran0
  -- the loop is over behind the line at the latest
  have stopped : (before ++ [l]).foldlM (processLine t) {} = .ok ⟨none, stats1⟩ := by
    rw [foldlM_concat, ran1, Res.ok_bind]
    cases entry1 with
    | none => rfl
    | some e1 => exact processLine_broken broken e1 stats1
  have ran : (before ++ [l] ++ after).foldlM (processLine t) {} = .ok ⟨some e, stats⟩ := by
    rw [List.foldlM_append]
    exact ran
  cases ran.symm.trans (ignores_rest stopped)

/-- The line in hand is dealt with. -/
lemma inStep_after (split : lines = sent ++ line :: rest)
    (ran : sent.foldlM (processLine t) {} = .ok ⟨some e, stats⟩) (left : Left closes rest reader) :
    InStep t closes lines ⟨reader, .after (processLine t ⟨some e, stats⟩ line)⟩ := by
  have split' : lines = (sent ++ [line]) ++ rest := by rw [split, List.append_assoc, List.singleton_append]
  have next : (sent ++ [line]).foldlM (processLine t) {} = processLine t ⟨some e, stats⟩ line :=
    ran_concat ran
  rcases processLine_cases t ⟨some e, stats⟩ line with ⟨⟨entry, stats'⟩, ok⟩ | panics
  · rw [ok] at next ⊢
    cases entry with
    | none =>
      obtain ⟨broken, rfl⟩ := broken_of_processLine ok
      exact .failed split ran broken left
    | some e' => exact .receiving split' next left
  · rw [panics] at next ⊢
    have gone : lines.foldlM (processLine t) {} = .panic .index := by
      rw [split', List.foldlM_append, next, Res.panic_bind]
    exact .crashed gone

/-- Every step keeps the worker in step with the lines. -/
lemma InStep.step (sync : InStep t closes lines s) (st : ReadStep t closes s a s') :
    InStep t closes lines s' := by
  cases st with
  | handOver =>
    cases sync with
    | receiving split ran left =>
      cases left with
      | sending => exact .decoding split ran .sending
  | decode =>
    cases sync with
    | decoding split ran left => exact inStep_after split ran left
  | close closing alive =>
    -- the channel is closed behind the last line, whatever the goroutine does
    cases sync with
    | receiving split ran left =>
      cases left with
      | sending => exact .receiving split ran (.waiting closing)
    | decoding split ran left =>
      cases left with
      | sending => exact .decoding split ran (.waiting closing)
    | failed split ran broken left =>
      cases left with
      | sending => exact .failed split ran broken (.waiting closing)
    | crashed ran => exact .crashed ran
    | done ran closing closed => exact .done ran closing (.inl rfl)
  | finish =>
    cases sync with
    | receiving split ran left =>
      cases left with
      | waiting closing =>
        rw [List.append_nil] at split
        subst split
        exact .done ran closing (.inl rfl)
  | wait =>
    cases sync with
    | done ran closing closed => exact .done ran closing (.inr rfl)

/-- The two can go on, or the log has come to its end. -/
lemma InStep.goes_on (sync : InStep t closes lines s) :
    (∃ a s', ReadStep t closes s a s') ∨ Ended t closes lines s := by
  unfold Ended
  cases sync with
  | @receiving sent rest reader e stats split ran left =>
    cases left with
    | waiting closing => exact .inl ⟨_, _, .finish⟩
    | sending =>
      cases rest with
      | cons line rest => exact .inl ⟨_, _, .handOver⟩
      | nil =>
        cases closes with
        | true => exact .inl ⟨_, _, .close rfl nofun⟩
        | false =>
          rw [List.append_nil] at split
          rw [split, ran]
          exact .inr rfl
  | decoding split ran left => exact .inl ⟨_, _, .decode⟩
  | @failed sent line rest reader e stats split ran broken left =>
    have all : lines.foldlM (processLine t) {} = .ok ⟨none, stats⟩ := by
      rw [split, ← List.singleton_append, ← List.append_assoc]
      apply ignores_rest
      rw [ran_concat ran, processLine_broken broken]
    rw [all]
    have first := not_broken_of_ran ran
    cases left with
    | waiting closing =>
      exact .inr ⟨sent, line, [], split, first, broken, by rw [if_pos ⟨rfl, closing⟩]⟩
    | sending =>
      by_cases last : rest = [] ∧ closes = true
      · obtain ⟨rfl, closing⟩ := last
        exact .inl ⟨_, _, .close closing nofun⟩
      · exact .inr ⟨sent, line, rest, split, first, broken, by rw [if_neg last]⟩
  | crashed ran =>
    rw [ran]
    exact .inr rfl
  | @done reader e stats ran closing closed =>
    rcases closed with rfl | rfl
    · exact .inl ⟨_, _, .wait⟩
    · rw [ran, closing]
      exact .inr rfl

/-- How much the reader has left to do. -/
def Reader.left : Reader → Nat
  | .sending rest => 2 * rest.length + 2
  | .waiting => 1
  | .returned => 0

/-- How much the goroutine has left to do with the line in hand, and then. -/
def Worker.left : Worker → Nat
  | .receiving _ _ => 1
  | .decoding _ _ _ => 2
  | .failed _ | .done _ | .crashed => 0

/-- Once a line is decoded, one receive is left at most. -/
lemma Worker.left_after (r : Res Processing) : (Worker.after r).left ≤ 1 := by
  unfold Worker.after
  split <;> simp [Worker.left]

/-- Every step leaves less to do. -/
lemma ReadStep.less_left (st : ReadStep t closes s a s') :
    s'.reader.left + s'.worker.left < s.reader.left + s.worker.left := by
  cases st with
  | handOver =>
    simp only [Reader.left, Worker.left, List.length_cons]
    omega
  | @decode reader e stats line =>
    have after := Worker.left_after (processLine t ⟨some e, stats⟩ line)
    simp only [Worker.left] at after ⊢
    omega
  | close closing alive => simp [Reader.left]
  | finish => simp [Worker.left]
  | wait => simp [Reader.left]

/-- A reader that waits for a goroutine that has returned with an error waits for good. -/
lemma stuck_of_failed : ¬ ReadStep t closes ⟨.waiting, .failed stats⟩ a s' := by
  intro st
  cases st

/-- For every log and every interleaving of the reader and the goroutine: there are no more than so many
    steps, and when none is left, the log has ended in the one way that its lines determine. -/
theorem reading_ends {acts : List ReadAction} (run : Run (ReadStep t closes) (.start lines) acts s) :
    acts.length ≤ 2 * lines.length + 3 ∧
      ((∃ a s', ReadStep t closes s a s') ∨ Ended t closes lines s) := by
  constructor
  · have bound := run.bounded ReadStep.less_left
    simp only [Reading.start, Reader.left, Worker.left] at bound
    omega
  · have nothing : lines = [] ++ lines := rfl
    have sync : InStep t closes lines s := run.invariant (.receiving nothing rfl .sending) InStep.step
    exact sync.goes_on

end

/-- A log that consists of a broken line: `processFile` closes the channel and waits for good. -/
theorem broken_line_waited_for : ∃ acts s,
    Run (ReadStep smallTables true) (.start [brokenLine]) acts s ∧ s.reader = .waiting ∧
      (∀ a s', ¬ ReadStep smallTables true s a s') ∧ Ended smallTables true [brokenLine] s := by
  have run : Run (ReadStep smallTables true) (.start [brokenLine]) [.handOver, .decode, .close]
      ⟨.waiting, .failed {}⟩ :=
    ((Run.nil.snoc .handOver).snoc .decode).snoc (.close rfl nofun)
  refine ⟨_, _, run, rfl, fun _ _ => stuck_of_failed, ?_⟩
  rcases (reading_ends run).2 with ⟨a, s', st⟩ | ended
  · exact (stuck_of_failed st).elim
  · exact ended

end GeoDNS.Logs
