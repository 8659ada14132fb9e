import GeoDNS.Lib.Run
import Mathlib.Data.List.Basic
import Mathlib.Order.Lattice

/-!
# The life cycle of a health test

`run`, `poll`, `start` and `Stop` of `health/healthtest/healthtest.go`: a loop that starts a poll whenever
one is due and waits for its result, the polls, each a goroutine of its own, and one call of `Stop`. They
talk over the unbuffered channels `closing` and `health`, so that a send and the receive of it are one step.
The fields that hold the channels are read when a channel operation begins; `Stop` closes the channels and
sets the fields to nil.

Time passes at will, and a poll may take as long as it likes and have any result. The steps that the code
takes on a closed channel are part of the model; that they are never taken is a consequence of `Phase`,
which says what the three parties may be doing at the same time.
-/

namespace GeoDNS.Healthtest
open GeoDNS.Lib

/-- The parameters that the loop reads, durations in nanoseconds. -/
structure HealthTestParameters where
  frequency : Int
  retryTime : Int
  retries : Int64

/-- Go `time.Second`. -/
def second : Int := 1000000000

/-- The parameters of a test (Go `NewTest`). -/
def newTest (htp : HealthTestParameters) : HealthTestParameters :=
  { htp with
    frequency := if htp.frequency < second then second else htp.frequency
    retryTime := if htp.retryTime < second then second else htp.retryTime }

/-- A poll goroutine: it tests, and then sends the result to what the field `health` holds by then. -/
inductive Poll where
  | testing
  | sending (result : Bool) (health : Bool)

/-- Where the loop is. In the select it waits on the channels that it has found in the fields, a channel
    being present or nil, and on a timer. -/
inductive Loop where
  | none
  | starting
  | top
  | select (closing : Bool) (timer : Option Int) (health : Bool)
  | sendErr
  -- sending to a nil channel
  | blocked
  | returned

/-- Where the call of `Stop` is: before the statement of this name. -/
inductive Stop where
  | notCalled
  | sendErrc
  | recvErr
  | closeClosing
  | forgetClosing
  | closeHealth
  | forgetHealth
  | done

/-- A health test and all who work on it. -/
structure State where
  now : Int
  -- do the fields hold a channel?
  closing : Bool
  health : Bool
  -- has it been closed?
  closingClosed : Bool := false
  healthClosed : Bool := false
  healthy : Bool
  loop : Loop
  -- nothing is the zero time
  pollStart : Option Int := .none
  nextPoll : Int := 0
  failCount : Int64 := 0
  polls : List Poll := []
  stop : Stop := .notCalled
  -- all results that the loop has received, for the statements below only
  received : List Bool := []

/-- A test that has not been started, at the time `now`. -/
def State.unstarted (now : Int) (healthy : Bool) : State where
  now := now
  closing := false
  health := false
  healthy := healthy
  loop := .none

/-- A test after Go `start`. -/
def State.started (now : Int) (healthy : Bool) : State where
  now := now
  closing := true
  health := true
  healthy := healthy
  loop := .starting

/-- The flag and the number of failures after another result. -/
def judge (ht : HealthTestParameters) (flag : Bool × Int64) (h : Bool) : Bool × Int64 :=
  if h then (true, 0)
  else (if ht.retries ≤ flag.2 + 1 then false else flag.1, flag.2 + 1)

/-- The loop takes a result. -/
def State.take (ht : HealthTestParameters) (s : State) (h : Bool) : State :=
  let (healthy, failCount) := judge ht (s.healthy, s.failCount) h
  let delay := if h = false ∧ ht.retries ≤ failCount then ht.retryTime else ht.frequency
  { s with
    healthy, failCount
    nextPoll := s.pollStart.getD 0 + delay
    pollStart := .none
    loop := .top
    received := s.received ++ [h] }

/-- What happens next. -/
inductive Action where
  | tick (d : Nat)
  | delay (d : Int)
  | enter
  | startPoll
  | tested (result : Bool)
  | result (h : Bool)
  | closedResult
  | callStop
  | handOver
  | closedClosing
  | confirm
  | stop

/-- The steps of the loop, the polls and `Stop`. -/
inductive Step (ht : HealthTestParameters) : State → Action → State → Prop
  | tick {s d} : Step ht s (.tick d) { s with now := s.now + d }
  -- the loop
  | delay {s d} (here : s.loop = .starting)
      (random : 0 ≤ d ∧ d < if s.healthy then ht.frequency else ht.retryTime) :
      Step ht s (.delay d) { s with loop := .top, nextPoll := s.now + d }
  | enter {s} (here : s.loop = .top) :
      Step ht s .enter
        { s with
          loop := .select (s.pollStart.isNone && s.closing)
            (if s.pollStart.isNone then some (max s.now s.nextPoll) else .none) s.health }
  | startPoll {s c t h} (here : s.loop = .select c (some t) h) (due : t ≤ s.now) :
      Step ht s .startPoll
        { s with loop := .top, pollStart := some s.now, polls := s.polls ++ [.testing] }
  -- the polls
  | tested {s before after result} (here : s.polls = before ++ .testing :: after) :
      Step ht s (.tested result) { s with polls := before ++ .sending result s.health :: after }
  | result {s c t before after h} (here : s.loop = .select c t true)
      (poll : s.polls = before ++ .sending h true :: after) (closed : s.healthClosed = false) :
      Step ht s (.result h) { s.take ht h with polls := before ++ after }
  | closedResult {s c t} (here : s.loop = .select c t true) (closed : s.healthClosed = true) :
      Step ht s .closedResult (s.take ht false)
  -- `Stop`
  | callStop {s} (here : s.stop = .notCalled) :
      Step ht s .callStop { s with stop := if s.closing then .sendErrc else .done }
  | handOver {s t h} (here : s.loop = .select true t h) (there : s.stop = .sendErrc)
      (closed : s.closingClosed = false) :
      Step ht s .handOver { s with loop := .sendErr, stop := .recvErr }
  | closedClosing {s t h} (here : s.loop = .select true t h) (closed : s.closingClosed = true) :
      Step ht s .closedClosing { s with loop := .blocked }
  | confirm {s} (here : s.loop = .sendErr) (there : s.stop = .recvErr) :
      Step ht s .confirm { s with loop := .returned, stop := .closeClosing }
  | closeClosing {s} (here : s.stop = .closeClosing) (isOpen : s.closing = true ∧ s.closingClosed = false) :
      Step ht s .stop { s with closingClosed := true, stop := .forgetClosing }
  | forgetClosing {s} (here : s.stop = .forgetClosing) :
      Step ht s .stop { s with closing := false, stop := .closeHealth }
  | closeHealth {s} (here : s.stop = .closeHealth) (isOpen : s.health = true ∧ s.healthClosed = false) :
      Step ht s .stop { s with healthClosed := true, stop := .forgetHealth }
  | forgetHealth {s} (here : s.stop = .forgetHealth) :
      Step ht s .stop { s with health := false, stop := .done }

/-- The ways in which one of the parties panics. -/
inductive Panics (ht : HealthTestParameters) (s : State) : Prop
  | delay (here : s.loop = .starting)
      (bound : ht.frequency ≤ 0 ∨ s.healthy = false ∧ ht.retryTime ≤ 0)
  | send {result} (poll : .sending result true ∈ s.polls) (closed : s.healthClosed = true)
  | closeClosing (here : s.stop = .closeClosing) (closed : s.closing = false ∨ s.closingClosed = true)
  | closeHealth (here : s.stop = .closeHealth) (closed : s.health = false ∨ s.healthClosed = true)

/-! ## Who does what at the same time -/

/-- A poll is in flight while the loop remembers its start. -/
inductive Polling : Option Int → List Poll → Prop
  | idle : Polling .none []
  | testing {t} : Polling (some t) [.testing]
  | sending {t result} : Polling (some t) [.sending result true]

/-- The loop offers to start another poll, or to return, only while there is no poll. -/
inductive Offers : Loop → Option Int → Prop
  | starting : Offers .starting .none
  | top {p} : Offers .top p
  | idle {c t} : Offers (.select c t true) .none
  | polling {t} : Offers (.select false .none true) (some t)

/-- The channels are there and open. -/
def State.Open (s : State) : Prop :=
  (s.closing = true ∧ s.closingClosed = false) ∧ (s.health = true ∧ s.healthClosed = false)

/-- What the parties may be doing at the same time. -/
inductive Phase (s : State) : Prop
  | unstarted (loop : s.loop = .none) (closing : s.closing = false) (polls : s.polls = [])
      (stop : s.stop = .notCalled ∨ s.stop = .done)
  | running (channels : s.Open) (offers : Offers s.loop s.pollStart) (polls : Polling s.pollStart s.polls)
      (stop : s.stop = .notCalled ∨ s.stop = .sendErrc)
  | confirming (channels : s.Open) (loop : s.loop = .sendErr) (polls : s.polls = [])
      (stop : s.stop = .recvErr)
  | stopping (loop : s.loop = .returned) (polls : s.polls = [])
      (stop : (s.stop = .closeClosing ∧ s.Open) ∨
        ((s.stop = .forgetClosing ∨ s.stop = .closeHealth) ∧ s.health = true ∧ s.healthClosed = false) ∨
        s.stop = .forgetHealth ∨ s.stop = .done)

section
variable {ht : HealthTestParameters} {s t : State} {a : Action}

/-- With the timer running there is no poll. -/
lemma Offers.of_timer {c h : Bool} {due : Int} {p : Option Int} (offers : Offers (.select c (some due) h) p) :
    p = .none := by
  cases offers
  rfl

/-- With a close under way there is none that is waited for. -/
lemma Offers.of_closing {timer : Option Int} {h : Bool} {p : Option Int}
    (offers : Offers (.select true timer h) p) : p = .none := by
  cases offers
  rfl

/-- Where none is expected, there is none. -/
lemma Polling.eq_nil {polls : List Poll} (polling : Polling .none polls) : polls = [] := by
  cases polling
  rfl

/-- The poll has its result, and is about to send it. -/
lemma Polling.tested {p : Option Int} {before after : List Poll} {result : Bool}
    (polling : Polling p (before ++ .testing :: after)) :
    Polling p (before ++ .sending result true :: after) := by
  generalize e : before ++ .testing :: after = polls at polling
  cases polling with
  | idle => simp at e
  | testing =>
    obtain ⟨rfl, rfl⟩ : before = [] ∧ after = [] := by
      simpa [List.append_eq_cons_iff] using e
    exact .sending
  | sending => simp [List.append_eq_cons_iff] at e

/-- When its result is taken, no other poll is left. -/
lemma Polling.taken {p : Option Int} {before after : List Poll} {result : Bool}
    (polling : Polling p (before ++ .sending result true :: after)) : before ++ after = [] := by
  generalize e : before ++ .sending result true :: after = polls at polling
  cases polling with
  | idle => simp at e
  | testing => simp [List.append_eq_cons_iff] at e
  | sending =>
    obtain ⟨rfl, -, rfl⟩ : before = [] ∧ _ ∧ after = [] := by
      simpa [List.append_eq_cons_iff] using e
    rfl

/-- A loop has one poll at most. -/
lemma Polling.length_le {p : Option Int} {polls : List Poll} (polling : Polling p polls) :
    polls.length ≤ 1 := by
  cases polling <;> simp

/-- A poll sends to an open channel. -/
lemma Polling.sends {p : Option Int} {polls : List Poll} {result health : Bool} (polling : Polling p polls)
    (mem : .sending result health ∈ polls) : health = true := by
  cases polling with
  | idle => cases mem
  | testing => simp at mem
  | sending =>
    simp at mem
    exact mem.2

/-- While the loop is running, a step keeps it so or hands it the request to stop. -/
lemma Phase.step_running (channels : s.Open) (offers : Offers s.loop s.pollStart)
    (polls : Polling s.pollStart s.polls) (stop : s.stop = .notCalled ∨ s.stop = .sendErrc)
    (st : Step ht s a t) : Phase t := by
  have unstoppable : ∀ {pc}, s.stop = pc → pc = .notCalled ∨ pc = .sendErrc := fun h => h ▸ stop
  cases st with
  | tick => exact .running channels offers polls stop
  | delay here _ => exact .running channels .top polls stop
  | enter here =>
    refine .running channels ?_ polls stop
    change Offers (.select (s.pollStart.isNone && s.closing) _ s.health) s.pollStart
    rw [channels.2.1]
    cases s.pollStart with
    | none => exact .idle
    | some start => exact .polling
  | startPoll here due =>
    rw [here] at offers
    rw [offers.of_timer] at polls
    refine .running channels .top ?_ stop
    change Polling (some s.now) (s.polls ++ [.testing])
    rw [polls.eq_nil]
    exact .testing
  | tested here =>
    rw [here] at polls
    refine .running channels offers ?_ stop
    change Polling s.pollStart (_ ++ .sending _ s.health :: _)
    rw [channels.2.1]
    exact polls.tested
  | result here poll closed =>
    rw [poll] at polls
    refine .running channels .top ?_ stop
    change Polling .none _
    rw [polls.taken]
    exact .idle
  | closedResult here closed => exact absurd (channels.2.2.symm.trans closed) nofun
  | callStop here =>
    refine .running channels offers polls (.inr ?_)
    exact if_pos channels.1.1
  | handOver here there closed =>
    rw [here] at offers
    rw [offers.of_closing] at polls
    exact .confirming channels rfl polls.eq_nil rfl
  | closedClosing here closed => exact absurd (channels.1.2.symm.trans closed) nofun
  | confirm here there => exact absurd (unstoppable there) (by simp)
  | closeClosing here _ => exact absurd (unstoppable here) (by simp)
  | forgetClosing here => exact absurd (unstoppable here) (by simp)
  | closeHealth here _ => exact absurd (unstoppable here) (by simp)
  | forgetHealth here => exact absurd (unstoppable here) (by simp)

/-- Without a poll, and with the loop before its first or behind its last select, what is left to do is
    the rest of `Stop`. -/
lemma Step.of_idle (polls : s.polls = []) (loop : s.loop = .none ∨ s.loop = .sendErr ∨ s.loop = .returned)
    (st : Step ht s a t) : (∃ d, a = .tick d) ∨ a = .callStop ∨ a = .confirm ∨ a = .stop := by
  cases st with
  | tick => exact .inl ⟨_, rfl⟩
  | delay here _ => simp [here] at loop
  | enter here => simp [here] at loop
  | startPoll here _ => simp [here] at loop
  | tested here => simp [here] at polls
  | result here _ _ => simp [here] at loop
  | closedResult here _ => simp [here] at loop
  | callStop _ => exact .inr (.inl rfl)
  | handOver here _ _ => simp [here] at loop
  | closedClosing here _ => simp [here] at loop
  | confirm _ _ => exact .inr (.inr (.inl rfl))
  | closeClosing _ _ => exact .inr (.inr (.inr rfl))
  | forgetClosing _ => exact .inr (.inr (.inr rfl))
  | closeHealth _ _ => exact .inr (.inr (.inr rfl))
  | forgetHealth _ => exact .inr (.inr (.inr rfl))

/-- A step of a test that is not started. -/
lemma Phase.step_unstarted (loop : s.loop = .none) (closing : s.closing = false) (polls : s.polls = [])
    (stop : s.stop = .notCalled ∨ s.stop = .done) (st : Step ht s a t) : Phase t := by
  rcases st.of_idle polls (.inl loop) with ⟨d, rfl⟩ | rfl | rfl | rfl
  · cases st
    exact .unstarted loop closing polls stop
  · cases st with
    | callStop here =>
      refine .unstarted loop closing polls (.inr ?_)
      exact if_neg (by simp [closing])
  · cases st with
    | confirm here _ => cases loop.symm.trans here
  · cases st <;> simp_all

/-- A step while the loop confirms its end. -/
lemma Phase.step_confirming (channels : s.Open) (loop : s.loop = .sendErr) (polls : s.polls = [])
    (stop : s.stop = .recvErr) (st : Step ht s a t) : Phase t := by
  rcases st.of_idle polls (.inr (.inl loop)) with ⟨d, rfl⟩ | rfl | rfl | rfl
  · cases st
    exact .confirming channels loop polls stop
  · cases st with
    | callStop here => cases stop.symm.trans here
  · cases st
    exact .stopping rfl polls (.inl ⟨rfl, channels⟩)
  · cases st <;> simp_all

/-- A step of `Stop` after the loop has returned. -/
lemma Phase.step_stopping (loop : s.loop = .returned) (polls : s.polls = [])
    (stop : (s.stop = .closeClosing ∧ s.Open) ∨
      ((s.stop = .forgetClosing ∨ s.stop = .closeHealth) ∧ s.health = true ∧ s.healthClosed = false) ∨
      s.stop = .forgetHealth ∨ s.stop = .done) (st : Step ht s a t) : Phase t := by
  rcases st.of_idle polls (.inr (.inr loop)) with ⟨d, rfl⟩ | rfl | rfl | rfl
  · cases st
    exact .stopping loop polls stop
  · cases st with
    | callStop here => simp [here] at stop
  · cases st with
    | confirm here _ => cases loop.symm.trans here
  · cases st with
    | closeClosing here _ =>
      have channels : s.Open := by simpa [here] using stop
      exact .stopping loop polls (.inr (.inl ⟨.inl rfl, channels.2⟩))
    | forgetClosing here =>
      have health : s.health = true ∧ s.healthClosed = false := by simpa [here] using stop
      exact .stopping loop polls (.inr (.inl ⟨.inr rfl, health⟩))
    | closeHealth here _ => exact .stopping loop polls (.inr (.inr (.inl rfl)))
    | forgetHealth here => exact .stopping loop polls (.inr (.inr (.inr rfl)))

/-- What the parties may be doing at the same time is kept by every step. -/
lemma Phase.step (phase : Phase s) (st : Step ht s a t) : Phase t := by
  cases phase with
  | unstarted loop closing polls stop => exact step_unstarted loop closing polls stop st
  | running channels offers polls stop => exact step_running channels offers polls stop st
  | confirming channels loop polls stop => exact step_confirming channels loop polls stop st
  | stopping loop polls stop => exact step_stopping loop polls stop st

/-! ## The flag -/

/-- The number of failures at the end of the results. -/
def failures (results : List Bool) : Nat :=
  (results.reverse.takeWhile (· = false)).length

/-- The results before those failures. -/
def beforeFailures (results : List Bool) : List Bool :=
  (results.reverse.dropWhile (· = false)).reverse

/-- The results are those before the failures, and the failures. -/
lemma append_failures (results : List Bool) :
    beforeFailures results ++ List.replicate (failures results) false = results := by
  have all : results.reverse.takeWhile (· = false) = List.replicate (failures results) false :=
    List.eq_replicate_iff.mpr ⟨rfl, fun b hb => by simpa using List.all_eq_true.mp List.all_takeWhile b hb⟩
  rw [beforeFailures, ← List.reverse_replicate, ← all, ← List.reverse_append, List.takeWhile_append_dropWhile,
    List.reverse_reverse]

/-- Before the failures there is nothing or a success. -/
lemma beforeFailures_eq (results : List Bool) :
    beforeFailures results = [] ∨ ∃ pre, beforeFailures results = pre ++ [true] := by
  unfold beforeFailures
  cases h : results.reverse.dropWhile (· = false) with
  | nil => exact .inl rfl
  | cons b rest =>
    have success := List.head?_dropWhile_not (· = false) results.reverse
    rw [h] at success
    obtain rfl : b = true := by simpa using success
    exact .inr ⟨rest.reverse, List.reverse_cons⟩

/-- A number of failures in a row after which the flag is down. -/
def threshold (ht : HealthTestParameters) : Int :=
  max ht.retries.toInt 1

/-- Failures in a row, counted from zero. The count may overflow, but not before the flag is down. -/
lemma foldl_judge_failures (b : Bool) (n : Nat) :
    (List.replicate n false).foldl (judge ht) (b, 0) =
      (if threshold ht ≤ n then false else b, Int64.ofNat n) := by
  induction n with
  | zero =>
    have above : ¬ threshold ht ≤ (0 : Nat) := by
      unfold threshold
      omega
    rw [if_neg above]
    rfl
  | succ n ih =>
    have last : List.replicate (n + 1) false = List.replicate n false ++ [false] := List.replicate_succ'
    have count : Int64.ofNat n + 1 = Int64.ofNat (n + 1) := (Int64.ofNat_add n 1).symm
    rw [last, List.foldl_append, ih, List.foldl_cons, List.foldl_nil]
    refine Prod.ext ?_ count
    show (if ht.retries ≤ Int64.ofNat n + 1 then false else if threshold ht ≤ n then false else b) =
      if threshold ht ≤ (n + 1 : Nat) then false else b
    have bound := ht.retries.toInt_lt
    by_cases down : threshold ht ≤ n
    · have down' : threshold ht ≤ (n + 1 : Nat) := by omega
      rw [if_pos down, if_pos down', ite_self]
    · have same : ht.retries ≤ Int64.ofNat n + 1 ↔ threshold ht ≤ (n + 1 : Nat) := by
        unfold threshold at down ⊢
        rw [count, Int64.le_iff_toInt_le, Int64.toInt_ofNat_of_lt (by omega)]
        omega
      simp only [same, down, if_false]

/-- The flag after any results: down after as many failures in a row as the test allows, and as it was
    before them otherwise. -/
lemma foldl_judge_flag (ht : HealthTestParameters) (b : Bool) (results : List Bool) :
    (results.foldl (judge ht) (b, 0)).1 =
      if threshold ht ≤ failures results then false
      else ((beforeFailures results).foldl (judge ht) (b, 0)).1 := by
  have count : ((beforeFailures results).foldl (judge ht) (b, 0)).2 = 0 := by
    rcases beforeFailures_eq results with nil | ⟨pre, success⟩
    · rw [nil]
      rfl
    · rw [success, List.foldl_append]
      rfl
  conv_lhs => rw [← append_failures results]
  rw [List.foldl_append]
  generalize before : (beforeFailures results).foldl (judge ht) (b, 0) = flag at count ⊢
  obtain ⟨up, n⟩ := flag
  obtain rfl : n = 0 := count
  rw [foldl_judge_failures]

/-- The flag and the count are those of the results so far. -/
def Judged (ht : HealthTestParameters) (healthy : Bool) (s : State) : Prop :=
  (s.healthy, s.failCount) = s.received.foldl (judge ht) (healthy, 0)

/-- One more result is judged together with those before. -/
lemma Judged.take {healthy : Bool} (judged : Judged ht healthy s) (h : Bool) :
    Judged ht healthy (s.take ht h) := by
  unfold Judged at judged ⊢
  show judge ht (s.healthy, s.failCount) h = (s.received ++ [h]).foldl (judge ht) (healthy, 0)
  rw [List.foldl_append, ← judged]
  rfl

/-- Every step keeps the flag the judgement on the results. -/
lemma Judged.step {healthy : Bool} (judged : Judged ht healthy s) (st : Step ht s a t) :
    Judged ht healthy t := by
  cases st with
  | result here poll closed => exact judged.take _
  | closedResult here closed => exact judged.take false
  | _ => exact judged

/-! ## Runs -/

/-- A test that is started, or that is not. -/
def Initial (s : State) : Prop :=
  ∃ now healthy, s = .started now healthy ∨ s = .unstarted now healthy

/-- A test at its start is in one of the phases. -/
lemma Initial.phase (initial : Initial s) : Phase s := by
  obtain ⟨now, healthy, rfl | rfl⟩ := initial
  · exact .running ⟨⟨rfl, rfl⟩, rfl, rfl⟩ .starting .idle (.inl rfl)
  · exact .unstarted rfl rfl rfl (.inl rfl)

/-- The flag of a test at its start is the one it began with. -/
lemma Initial.judged (initial : Initial s) : Judged ht s.healthy s := by
  obtain ⟨now, healthy, rfl | rfl⟩ := initial
  · rfl
  · rfl

/-- A test at its start has received nothing. -/
lemma Initial.received (initial : Initial s) : s.received = [] := by
  obtain ⟨now, healthy, rfl | rfl⟩ := initial
  · rfl
  · rfl

/-- A test in any phase has one poll at most. -/
lemma Phase.polls_length (phase : Phase s) : s.polls.length ≤ 1 := by
  cases phase with
  | unstarted _ _ polls _ => simp [polls]
  | running _ _ polls _ => exact polls.length_le
  | confirming _ _ polls _ => simp [polls]
  | stopping _ polls _ => simp [polls]

/-- A poll of a test in any phase sends to an open channel. -/
lemma Phase.sends (phase : Phase s) {result health : Bool} (mem : .sending result health ∈ s.polls) :
    health = true ∧ s.healthClosed = false := by
  cases phase with
  | unstarted _ _ polls _ => simp [polls] at mem
  | running channels _ polls _ => exact ⟨polls.sends mem, channels.2.2⟩
  | confirming _ _ polls _ => simp [polls] at mem
  | stopping _ polls _ => simp [polls] at mem

/-- No poll is left when `Stop` is done. -/
lemma Phase.polls_of_done (phase : Phase s) (done : s.stop = .done) : s.polls = [] := by
  cases phase with
  | unstarted _ _ polls _ => exact polls
  | running _ _ _ stop => simp [done] at stop
  | confirming _ _ polls _ => exact polls
  | stopping _ polls _ => exact polls

/-- The durations of a test are positive. -/
lemma newTest_pos (htp : HealthTestParameters) :
    0 < (newTest htp).frequency ∧ 0 < (newTest htp).retryTime := by
  unfold newTest second
  dsimp only
  omega

/-- `Stop` closes a channel only if it is there and open. -/
lemma Phase.closes (phase : Phase s) :
    (s.stop = .closeClosing → s.Open) ∧
      (s.stop = .closeHealth → s.health = true ∧ s.healthClosed = false) := by
  cases phase with
  | unstarted _ _ _ stop => constructor <;> intro here <;> simp [here] at stop
  | running _ _ _ stop => constructor <;> intro here <;> simp [here] at stop
  | confirming _ _ _ stop => constructor <;> intro here <;> simp [here] at stop
  | stopping _ _ stop =>
    constructor
    · intro here
      simpa [here] using stop
    · intro here
      simpa [here] using stop

/-- None of the parties panics. -/
lemma Phase.not_panics (phase : Phase s) (htp : HealthTestParameters) : ¬ Panics (newTest htp) s := by
  have ⟨frequency, retryTime⟩ := newTest_pos htp
  intro panics
  cases panics with
  | delay here bound => omega
  | send poll closed => exact absurd ((phase.sends poll).2.symm.trans closed) nofun
  | closeClosing here closed =>
    simp [(phase.closes.1 here).1] at closed
  | closeHealth here closed =>
    simp [phase.closes.2 here] at closed

/-- A step receives one result or none. -/
lemma received_step (st : Step ht s a t) : t.received = s.received ∨ ∃ h, t.received = s.received ++ [h] := by
  cases st with
  | result here poll closed => exact .inr ⟨_, rfl⟩
  | closedResult here closed => exact .inr ⟨false, rfl⟩
  | _ => exact .inl rfl

/-- Whatever has been received at some time, there was a state in which it was all that had been received. -/
lemma exists_received {acts : List Action} (run : Run (Step ht) s acts t) (start : s.received = [])
    {results : List Bool} (pre : results <+: t.received) :
    ∃ acts₁ r acts₂, acts = acts₁ ++ acts₂ ∧ Run (Step ht) s acts₁ r ∧ Run (Step ht) r acts₂ t ∧
      r.received = results := by
  induction run with
  | nil =>
    rw [start, List.prefix_nil] at pre
    exact ⟨[], s, [], rfl, .nil, .nil, start.trans pre.symm⟩
  | @snoc acts t a u run st ih =>
    by_cases earlier : results <+: t.received
    · obtain ⟨acts₁, r, acts₂, split, run₁, run₂, here⟩ := ih earlier
      exact ⟨acts₁, r, acts₂ ++ [a], by rw [split, List.append_assoc], run₁, run₂.snoc st, here⟩
    · refine ⟨acts ++ [a], u, [], (List.append_nil _).symm, run.snoc st, .nil, ?_⟩
      rcases received_step st with same | ⟨h, more⟩
      · exact absurd (same ▸ pre) earlier
      · rw [more, List.prefix_concat_iff] at pre
        rcases pre with all | pre
        · rw [all, more]
        · exact absurd pre earlier

/-- For every health test, all results of its polls and every interleaving of the loop, the polls and one
    call of `Stop`: in every state that is reached there is at most one poll, a poll sends to an open channel
    only, none is left when `Stop` is done, nobody panics, and the flag is up after a success, down after as
    many failures in a row as the test allows, and what it was before them after fewer. -/
theorem health_test_life_cycle (htp : HealthTestParameters) (s : State) (initial : Initial s)
    (acts : List Action) (t : State) (run : Run (Step (newTest htp)) s acts t) :
    t.polls.length ≤ 1 ∧
    (∀ result health, .sending result health ∈ t.polls → health = true ∧ t.healthClosed = false) ∧
    (t.stop = .done → t.polls = []) ∧
    ¬ Panics (newTest htp) t ∧
    (t.received.getLast? = some true → t.healthy = true) ∧
    (max (newTest htp).retries.toInt 1 ≤ failures t.received → t.healthy = false) ∧
    (failures t.received < max (newTest htp).retries.toInt 1 →
      ∃ acts₁ r acts₂, acts = acts₁ ++ acts₂ ∧ Run (Step (newTest htp)) s acts₁ r ∧
        Run (Step (newTest htp)) r acts₂ t ∧ r.received = beforeFailures t.received ∧
        t.healthy = r.healthy) := by
  have phase : Phase t := run.invariant initial.phase fun phase st => phase.step st
  have judged : ∀ {acts t}, Run (Step (newTest htp)) s acts t → Judged (newTest htp) s.healthy t :=
    fun run => run.invariant initial.judged fun judged st => judged.step st
  have flag := foldl_judge_flag (newTest htp) s.healthy t.received
  rw [← judged run] at flag
  refine ⟨phase.polls_length, fun _ _ mem => phase.sends mem, phase.polls_of_done, phase.not_panics htp, ?_,
    fun down => flag.trans (if_pos down), fun up => ?_⟩
  · intro success
    obtain ⟨pre, received⟩ := List.getLast?_eq_some_iff.mp success
    have last := congrArg Prod.fst (judged run)
    rw [received, List.foldl_append] at last
    exact last
  · have pre : beforeFailures t.received <+: t.received := ⟨_, append_failures t.received⟩
    obtain ⟨acts₁, r, acts₂, split, run₁, run₂, received⟩ := exists_received run initial.received pre
    refine ⟨acts₁, r, acts₂, split, run₁, run₂, received, ?_⟩
    have fewer : ¬ threshold (newTest htp) ≤ failures t.received := not_le.mpr up
    rw [← received, ← judged run₁, if_neg fewer] at flag
    exact flag

end

/-- Go `defaultHealthTestParameters`. -/
def defaultHealthTestParameters : HealthTestParameters :=
  ⟨30 * second, 5 * second, 3⟩

/-- A test that is polled once, with success, and then stopped. -/
theorem life_cycle_of_one_poll : ∃ acts t,
    Run (Step (newTest defaultHealthTestParameters)) (.started 0 false) acts t ∧ t.stop = .done ∧
      t.received = [true] ∧ t.polls = [] ∧ t.healthy = true := by
  let start : State := .started 0 false
  -- the poll has its result, and the loop waits for it
  obtain ⟨acts, polled⟩ : ∃ acts, Run (Step (newTest defaultHealthTestParameters)) start acts
      { start with
        loop := .select false .none true, pollStart := some 0, polls := [.sending true true] } :=
    ⟨_, ((((Run.nil.snoc (.delay (d := 0) rfl (by decide))).snoc (.enter rfl)).snoc
      (.startPoll rfl (by decide))).snoc (.enter rfl)).snoc
      (@Step.tested _ _ [] [] true rfl)⟩
  -- it has received it, and `Stop` is called
  obtain ⟨acts, stopping⟩ : ∃ acts, Run (Step (newTest defaultHealthTestParameters)) start acts
      { start.take (newTest defaultHealthTestParameters) true with
        nextPoll := 30 * second, loop := .sendErr, stop := .recvErr } :=
    ⟨_, (((polled.snoc (@Step.result _ _ _ _ [] [] true rfl rfl rfl)).snoc (.callStop rfl)).snoc
      (.enter rfl)).snoc (.handOver rfl rfl rfl)⟩
  have stopped := ((((stopping.snoc (.confirm rfl rfl)).snoc (.closeClosing rfl ⟨rfl, rfl⟩)).snoc
    (.forgetClosing rfl)).snoc (.closeHealth rfl ⟨rfl, rfl⟩)).snoc (.forgetHealth rfl)
  obtain ⟨-, -, polls, -, success, -⟩ := health_test_life_cycle defaultHealthTestParameters start
    ⟨0, false, .inl rfl⟩ _ _ stopped
  exact ⟨_, _, stopped, rfl, rfl, polls rfl, success rfl⟩

/-! ## Running tests -/

/-- The loop of the test is running, and `Stop` has not been called. Whenever no poll is in flight, it
    listens to a call of `Stop`. -/
structure State.Running (s : State) : Prop where
  channels : s.Open
  offers : Offers s.loop s.pollStart
  polls : Polling s.pollStart s.polls
  stop : s.stop = .notCalled
  listens : ∀ {c timer h}, s.loop = .select c timer h → s.pollStart = .none → c = true

section
variable {ht : HealthTestParameters} {s t : State} {a : Action}

/-- A loop that offers something has begun. -/
lemma Offers.ne_none {l : Loop} {p : Option Int} (offers : Offers l p) : l ≠ .none := by
  cases offers <;> simp

/-- A test that is started is running. -/
lemma State.started_running (now : Int) (healthy : Bool) : (State.started now healthy).Running where
  channels := ⟨⟨rfl, rfl⟩, rfl, rfl⟩
  offers := .starting
  polls := .idle
  stop := rfl
  listens := nofun

/-- A test that is running is in one of the phases. -/
lemma State.Running.phase (running : s.Running) : Phase s :=
  .running running.channels running.offers running.polls (.inl running.stop)

/-- A loop that has begun stays so. -/
lemma Step.loop_ne_none (st : Step ht s a t) (loop : s.loop ≠ .none) : t.loop ≠ .none := by
  cases st <;> first | exact loop | simp [State.take]

/-- Until `Stop` is called, a test keeps running. -/
lemma State.Running.step (running : s.Running) (st : Step ht s a t) (own : a ≠ .callStop) : t.Running := by
  have stop : t.stop = .notCalled := by
    have none := running.stop
    cases st with
    | callStop => exact absurd rfl own
    | handOver _ there => exact absurd (none.symm.trans there) nofun
    | confirm _ there => exact absurd (none.symm.trans there) nofun
    | closeClosing here => exact absurd (none.symm.trans here) nofun
    | forgetClosing here => exact absurd (none.symm.trans here) nofun
    | closeHealth here => exact absurd (none.symm.trans here) nofun
    | forgetHealth here => exact absurd (none.symm.trans here) nofun
    | _ => exact none
  have listens : ∀ {c timer h}, t.loop = .select c timer h → t.pollStart = .none → c = true := by
    intro c timer h loop idle
    cases st with
    | tick => exact running.listens loop idle
    | enter =>
      cases loop
      rw [show s.pollStart = .none from idle, running.channels.1.1]
      rfl
    | tested => exact running.listens loop idle
    | callStop => exact absurd rfl own
    | closeClosing here => exact running.listens loop idle
    | forgetClosing here => exact running.listens loop idle
    | closeHealth here => exact running.listens loop idle
    | forgetHealth here => exact running.listens loop idle
    | _ => cases loop
  have loop := st.loop_ne_none running.offers.ne_none
  cases running.phase.step st with
  | unstarted none => exact absurd none loop
  | running channels offers polls _ => exact ⟨channels, offers, polls, stop, listens⟩
  | confirming _ _ _ other => exact absurd (stop.symm.trans other) nofun
  | stopping _ _ other => simp [stop] at other

/-- The way from a state that waits for nothing, at the top of the loop, to one that listens to `Stop`. -/
lemma State.Running.listens_of_top (ht : HealthTestParameters) (running : s.Running) (loop : s.loop = .top)
    (idle : s.pollStart = .none) :
    ∃ t, Reaches (Step ht) s t ∧ t.Running ∧ ∃ timer h, t.loop = .select true timer h := by
  have st : Step ht s .enter _ := .enter loop
  have here : (s.pollStart.isNone && s.closing) = true := by rw [idle, running.channels.1.1]; rfl
  refine ⟨_, Reaches.refl.tail st, running.step st nofun, ?_⟩
  rw [here]
  exact ⟨_, _, rfl⟩

/-- The way from a state that waits for a poll: the poll comes to its end. -/
lemma State.Running.listens_of_poll (ht : HealthTestParameters) (running : s.Running) {start : Int}
    (loop : s.loop = .select false .none true) (polling : s.pollStart = some start) :
    ∃ t, Reaches (Step ht) s t ∧ t.Running ∧ ∃ timer h, t.loop = .select true timer h := by
  have taken : ∀ {s : State} {result : Bool}, s.Running → s.loop = .select false .none true →
      s.polls = [.sending result true] →
      ∃ t, Reaches (Step ht) s t ∧ t.Running ∧ ∃ timer h, t.loop = .select true timer h := by
    intro s result running loop polls
    have st : Step ht s (.result result) { s.take ht result with polls := [] } :=
      @Step.result ht s false .none [] [] result loop polls running.channels.2.2
    obtain ⟨t, reaches, listens⟩ := (running.step st nofun).listens_of_top ht rfl rfl
    exact ⟨t, (Reaches.refl.tail st).trans reaches, listens⟩
  have polls := running.polls
  rw [polling] at polls
  cases found : s.polls with
  | nil =>
    rw [found] at polls
    cases polls
  | cons poll rest =>
    rw [found] at polls
    cases polls with
    | testing =>
      have st : Step ht s (.tested true) { s with polls := [.sending true s.health] } :=
        @Step.tested ht s [] [] true found
      obtain ⟨t, reaches, listens⟩ := taken (running.step st nofun) loop
        (show [Poll.sending true s.health] = [.sending true true] by rw [running.channels.2.1])
      exact ⟨t, (Reaches.refl.tail st).trans reaches, listens⟩
    | sending => exact taken running loop found

/-- A running test comes to listen to `Stop`, whatever it is doing. -/
lemma State.Running.reaches_listening (running : s.Running)
    (positive : 0 < ht.frequency ∧ 0 < ht.retryTime) :
    ∃ t, Reaches (Step ht) s t ∧ t.Running ∧ ∃ timer h, t.loop = .select true timer h := by
  have offers := running.offers
  cases loop : s.loop with
  | starting =>
    rw [loop] at offers
    generalize start : s.pollStart = p at offers
    cases offers
    have st : Step ht s (.delay 0) { s with loop := .top, nextPoll := s.now + 0 } := by
      refine .delay loop ⟨le_refl 0, ?_⟩
      split
      · exact positive.1
      · exact positive.2
    obtain ⟨t, reaches, listens⟩ := (running.step st nofun).listens_of_top ht rfl start
    exact ⟨t, (Reaches.refl.tail st).trans reaches, listens⟩
  | top =>
    cases start : s.pollStart with
    | none => exact running.listens_of_top ht loop start
    | some p =>
      have st : Step ht s .enter _ := .enter loop
      have waits : Loop.select (s.pollStart.isNone && s.closing)
          (if s.pollStart.isNone then some (max s.now s.nextPoll) else .none) s.health =
            .select false .none true := by
        rw [start, running.channels.2.1]
        rfl
      obtain ⟨t, reaches, listens⟩ := (running.step st nofun).listens_of_poll ht waits start
      exact ⟨t, (Reaches.refl.tail st).trans reaches, listens⟩
  | select c timer h =>
    cases start : s.pollStart with
    | none =>
      obtain rfl := running.listens loop start
      exact ⟨s, .refl, running, timer, h, loop⟩
    | some p =>
      rw [loop, start] at offers
      cases offers
      exact running.listens_of_poll ht loop start
  | _ =>
    rw [loop] at offers
    cases offers

/-- `Stop` can come to its end on every running test. -/
lemma State.Running.exists_done (running : s.Running) (positive : 0 < ht.frequency ∧ 0 < ht.retryTime) :
    ∃ t, Reaches (Step ht) s t ∧ t.stop = .done := by
  obtain ⟨u, reaches, running, timer, h, loop⟩ := running.reaches_listening positive
  have ⟨⟨closing, closingClosed⟩, health, healthClosed⟩ := running.channels
  have called : Step ht u .callStop { u with stop := .sendErrc } := by
    have st := @Step.callStop ht u running.stop
    rwa [if_pos closing] at st
  have confirmed := ((reaches.tail called).tail (.handOver loop rfl closingClosed)).tail (.confirm rfl rfl)
  have closed := (confirmed.tail (.closeClosing rfl ⟨closing, closingClosed⟩)).tail (.forgetClosing rfl)
  exact ⟨_, (closed.tail (.closeHealth rfl ⟨health, healthClosed⟩)).tail (.forgetHealth rfl), rfl⟩

/-- When it has come to its end, the loop has returned and no poll is left. -/
lemma State.Running.of_done (running : s.Running) (reaches : Reaches (Step ht) s t) (done : t.stop = .done) :
    t.loop = .returned ∧ t.polls = [] := by
  obtain ⟨acts, run⟩ := reaches
  have phase : Phase t := run.invariant running.phase fun phase st => phase.step st
  have loop : t.loop ≠ .none :=
    @Run.invariant _ _ _ (fun s => s.loop ≠ .none) _ _ _ run running.offers.ne_none
      fun ne st => st.loop_ne_none ne
  cases phase with
  | unstarted none => exact absurd none loop
  | running _ _ _ stop => simp [done] at stop
  | confirming _ _ _ stop => exact absurd (done.symm.trans stop) nofun
  | stopping returned polls => exact ⟨returned, polls⟩

end

end GeoDNS.Healthtest
