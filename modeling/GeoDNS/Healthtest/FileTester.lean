import GeoDNS.Healthtest.Test
import GeoDNS.Lib.RawJson

/-!
# The file tester

`FileHealthTester.Test` of `health/healthtest/healthtesters.go`: the health of all addresses is read from a
JSON file. The tester remembers the modification time and the hash of the file that it has read last, and
does not look at a file again that has one of the two; the map it finds goes to the test that has called.

`Memory` says what is remembered in terms of the files themselves: the time and the contents that were read
last, by a call of any test, and the map that each test has loaded. The code follows it as long as different
contents have different hashes (`Tracks`), and `file_tests_reflect_iff` says for which sequences of files and
calls every successful call leaves the test with the map in the file.
-/

namespace GeoDNS.Healthtest
open GeoDNS.Lib

/-- The library code that the tester calls: the JSON parser, and the hash in hexadecimal digits. -/
structure FileLibrary where
  parse : Bytes → Except String RawJson
  sha256 : Bytes → String
  sha256_ne : ∀ b, sha256 b ≠ ""

/-- Among these contents, different ones have different hashes. -/
def FileLibrary.Distinguishes (lib : FileLibrary) (all : List Bytes) : Prop :=
  ∀ b ∈ all, ∀ b' ∈ all, lib.sha256 b = lib.sha256 b' → b = b'

/-- Decode a value into a `bool`, which a `null` leaves at its zero value. -/
def decodeBool : RawJson → Except String Bool
  | .bool b => .ok b
  | .null => .ok false
  | j => .error (j.typeError "bool")

/-- Decode the fields of an object; the first error is the one that is returned. -/
def decodeBools : List (String × RawJson) → Except String (List (String × Bool))
  | [] => .ok []
  | (k, v) :: fields => do
    let b ← decodeBool v
    let bs ← decodeBools fields
    return (k, b) :: bs

/-- Decode a document into a `map[string]bool`; a `null` makes it nil. -/
def decodeMap : RawJson → Except String (GoMap String Bool)
  | .null => .ok ∅
  | .obj fields => do
    let bs ← decodeBools fields
    return GoMap.ofPairs bs
  | j => .error (j.typeError "map[string]bool")

/-- Go `json.Unmarshal` into a `map[string]bool`. -/
def FileLibrary.unmarshal (lib : FileLibrary) (b : Bytes) : Except String (GoMap String Bool) := do
  let j ← lib.parse b
  decodeMap j

/-- What the path of the tester leads to. -/
inductive FileState where
  -- it cannot be opened
  | missing
  -- it is open, but has no information
  | noStat
  -- the contents are missing if they cannot be read
  | present (modTime : Int) (contents : Option Bytes)

/-- Go `FileHealthTester`. No file has the zero time as its modification time, since it has a location. -/
structure FileHealthTester where
  path : String
  lastHash : String := ""
  lastReadTime : Option Int := none

/-- Go `FileHealthTester.Test`, with the tester and the test afterwards. -/
def FileHealthTester.test (lib : FileLibrary) (t : FileHealthTester) (file : FileState) (ht : HealthTest) :
    Bool × FileHealthTester × HealthTest :=
  if t.path = "" then (false, t, ht)
  else
    match file with
    | .missing => (false, t, ht)
    | .noStat => (false, t, ht)
    | .present modTime contents =>
      if some modTime = t.lastReadTime then (true, t, ht)
      else
        match contents with
        | none => (false, t, ht)
        | some bytes =>
          let t := { t with lastReadTime := some modTime }
          let hash := lib.sha256 bytes
          if hash = t.lastHash then (true, t, ht)
          else
            let t := { t with lastHash := hash }
            match lib.unmarshal bytes with
            | .error _ => (false, t, ht)
            | .ok m => (true, t, ht.setGlobal m)

/-- What happens: the file changes, or a test calls the tester. -/
inductive Event (ι : Type) where
  | write (file : FileState)
  | test (i : ι)

/-- The file, the tester and the tests that share it. -/
structure World (ι : Type) where
  file : FileState
  tester : FileHealthTester
  tests : ι → HealthTest

section
variable {ι : Type}

/-- The result of a call of `Test` by a test. -/
def World.call (lib : FileLibrary) (w : World ι) (i : ι) : Bool × FileHealthTester × HealthTest :=
  w.tester.test lib w.file (w.tests i)

/-- One event: the file is written, or a test calls the tester. -/
def World.step [DecidableEq ι] (lib : FileLibrary) (w : World ι) : Event ι → World ι
  | .write file => { w with file := file }
  | .test i =>
    let (_, tester, ht) := w.call lib i
    { w with tester := tester, tests := Function.update w.tests i ht }

/-! ## What a file holds -/

/-- The map in a document: an object whose values are all truth values. -/
def mapOf : RawJson → Option (GoMap String Bool)
  | .obj fields => do
    let bs ← fields.mapM (fun e => match e.2 with
      | .bool b => some (e.1, b)
      | _ => none)
    return GoMap.ofPairs bs
  | _ => none

/-- The map in a file, if it can be read and holds one. -/
def FileLibrary.mapIn (lib : FileLibrary) : FileState → Option (GoMap String Bool)
  | .present _ (some b) => (lib.parse b).toOption.bind mapOf
  | _ => none

/-- A call is successful only if the file holds a map, and this is then the map of the test. -/
structure Reflects (lib : FileLibrary) (w : World ι) (i : ι) : Prop where
  current : (w.call lib i).1 = true →
    ∃ m, lib.mapIn w.file = some m ∧ ∀ k, (w.call lib i).2.2.globalMap.lookup k = m.lookup k
  rejects : lib.mapIn w.file = none → (w.call lib i).1 = false

/-! ## What is remembered -/

/-- The file, the time and the contents that were read last, and the map that each test has loaded. -/
structure Memory (ι : Type) where
  file : FileState
  lastRead : Option (Int × Bytes) := none
  loaded : ι → GoMap String Bool

/-- What a call finds. -/
inductive Finding where
  -- no file, or one that cannot be read
  | nothing
  -- a file with the time or the contents that were read last
  | known
  -- other contents
  | new (b : Bytes)

/-- What a call finds the file to be. -/
def Memory.finding (m : Memory ι) : Finding :=
  match m.file with
  | .present t contents =>
    if m.lastRead.any (·.1 = t) then .known
    else
      match contents with
      | none => .nothing
      | some b => if m.lastRead.any (·.2 = b) then .known else .new b
  | _ => .nothing

/-- The time and the contents that were read last, after another call. -/
def Memory.readNow (m : Memory ι) : Option (Int × Bytes) :=
  match m.file with
  | .present t (some b) => if m.lastRead.any (·.1 = t) then m.lastRead else some (t, b)
  | _ => m.lastRead

/-- One event in terms of what is remembered. -/
def Memory.step [DecidableEq ι] (lib : FileLibrary) (m : Memory ι) : Event ι → Memory ι
  | .write file => { m with file := file }
  | .test i =>
    { m with
      lastRead := m.readNow
      loaded :=
        match m.finding with
        | .new b =>
          match lib.unmarshal b with
          | .ok g => Function.update m.loaded i g
          | .error _ => m.loaded
        | _ => m.loaded }

/-- What a call finds is no reason to report another map than that in the file: a file that is known holds
    the map that the test has loaded itself, and new contents that are decoded are a map. -/
def Fresh (lib : FileLibrary) (m : Memory ι) (i : ι) : Prop :=
  match m.finding with
  | .nothing => True
  | .known => ∃ g, lib.mapIn m.file = some g ∧ ∀ k, (m.loaded i).lookup k = g.lookup k
  | .new b => ∀ g, lib.unmarshal b = .ok g → (lib.mapIn m.file).isSome

/-- The contents of a file that can be read. -/
def FileState.contents : FileState → List Bytes
  | .present _ (some b) => [b]
  | _ => []

/-- The files that events bring. -/
def filesIn (events : List (Event ι)) : List FileState :=
  events.filterMap (fun
    | .write file => some file
    | .test _ => none)

/-- Their contents. -/
def contentsIn (events : List (Event ι)) : List Bytes :=
  (filesIn events).flatMap FileState.contents

/-- The files of one sequence of events after another. -/
lemma filesIn_append (events events' : List (Event ι)) :
    filesIn (events ++ events') = filesIn events ++ filesIn events' :=
  List.filterMap_append

/-- The contents of one sequence of events after another. -/
lemma contentsIn_append (events events' : List (Event ι)) :
    contentsIn (events ++ events') = contentsIn events ++ contentsIn events' := by
  rw [contentsIn, filesIn_append, List.flatMap_append]
  rfl

/-! ## The code follows it -/

variable {lib : FileLibrary} {all : List Bytes} {w : World ι} {m : Memory ι}

/-- The code is where the memory is; all contents so far are among these. -/
structure Tracks (lib : FileLibrary) (all : List Bytes) (w : World ι) (m : Memory ι) : Prop where
  path : w.tester.path ≠ ""
  file : w.file = m.file
  time : w.tester.lastReadTime = m.lastRead.map Prod.fst
  hash : w.tester.lastHash = (m.lastRead.map (fun r => lib.sha256 r.2)).getD ""
  loaded : ∀ i, (w.tests i).globalMap = m.loaded i
  contents : ∀ b ∈ m.file.contents, b ∈ all
  read : ∀ r, m.lastRead = some r → r.2 ∈ all

/-- The answer of a call, and the test afterwards. -/
def Memory.answer (lib : FileLibrary) (m : Memory ι) (ht : HealthTest) : Bool × HealthTest :=
  match m.finding with
  | .nothing => (false, ht)
  | .known => (true, ht)
  | .new b =>
    match lib.unmarshal b with
    | .ok g => (true, ht.setGlobal g)
    | .error _ => (false, ht)

/-- The tester compares the modification time with the one that was read last. -/
lemma Tracks.time_iff (tracks : Tracks lib all w m) (t : Int) :
    some t = w.tester.lastReadTime ↔ m.lastRead.any (·.1 = t) := by
  rw [tracks.time]
  cases m.lastRead with
  | none => simp
  | some r => simp [eq_comm]

/-- It compares the contents with those that were read last, as different contents have different hashes. -/
lemma Tracks.hash_iff (tracks : Tracks lib all w m)
    (distinct : lib.Distinguishes all) {b : Bytes} (mem : b ∈ all) :
    lib.sha256 b = w.tester.lastHash ↔ m.lastRead.any (·.2 = b) := by
  rw [tracks.hash]
  cases read : m.lastRead with
  | none => simp [lib.sha256_ne b]
  | some r =>
    constructor
    · intro same
      simpa using (distinct b mem r.2 (tracks.read r read) same).symm
    · intro same
      obtain rfl : r.2 = b := by simpa using same
      rfl

/-- What a call answers, and what the tester remembers after it. -/
lemma Tracks.call_eq (tracks : Tracks lib all w m)
    (distinct : lib.Distinguishes all) (i : ι) :
    w.call lib i = ((m.answer lib (w.tests i)).1,
      ⟨w.tester.path, (m.readNow.map (fun r => lib.sha256 r.2)).getD "", m.readNow.map Prod.fst⟩,
      (m.answer lib (w.tests i)).2) := by
  have kept : w.tester = ⟨w.tester.path, (m.lastRead.map (fun r => lib.sha256 r.2)).getD "",
      m.lastRead.map Prod.fst⟩ := by
    rw [← tracks.hash, ← tracks.time]
  unfold World.call FileHealthTester.test Memory.answer Memory.finding Memory.readNow
  rw [if_neg tracks.path, tracks.file]
  cases file : m.file with
  | missing => rw [← kept]
  | noStat => rw [← kept]
  | present t contents =>
    dsimp only
    by_cases time : m.lastRead.any (·.1 = t)
    · rw [if_pos ((tracks.time_iff t).mpr time), if_pos time]
      cases contents with
      | none => rw [← kept]
      | some b =>
        dsimp only
        rw [if_pos time, ← kept]
    · rw [if_neg (fun same => time ((tracks.time_iff t).mp same)), if_neg time]
      cases contents with
      | none => rw [← kept]
      | some b =>
        have mem : b ∈ all := tracks.contents b (by simp [file, FileState.contents])
        dsimp only
        rw [if_neg time]
        by_cases hash : m.lastRead.any (·.2 = b)
        · have same := (tracks.hash_iff distinct mem).mpr hash
          rw [if_pos same, if_pos hash, ← same]
          rfl
        · rw [if_neg (fun same => hash ((tracks.hash_iff distinct mem).mp same)), if_neg hash]
          dsimp only
          cases lib.unmarshal b <;> rfl

/-! ## When a call reflects the file -/

/-- Fields that are all truth values are decoded to these. -/
lemma decodeBools_of_mapM {fields : List (String × RawJson)} {bs : List (String × Bool)}
    (h : fields.mapM (fun e => match e.2 with
      | .bool b => some (e.1, b)
      | _ => none) = some bs) : decodeBools fields = .ok bs := by
  induction fields generalizing bs with
  | nil =>
    cases h
    rfl
  | cons e fields ih =>
    obtain ⟨k, v⟩ := e
    rw [List.mapM_cons] at h
    obtain ⟨kb, here, h⟩ := Option.bind_eq_some_iff.mp h
    obtain ⟨rest, later, h⟩ := Option.bind_eq_some_iff.mp h
    cases h
    cases v with
    | bool b =>
      cases here
      rw [decodeBools, ih later]
      rfl
    | _ => cases here

/-- A map in a document is what the decoder finds. -/
lemma decodeMap_of_mapOf {j : RawJson} {g : GoMap String Bool} (h : mapOf j = some g) :
    decodeMap j = .ok g := by
  cases j with
  | obj fields =>
    obtain ⟨bs, read, h⟩ := Option.bind_eq_some_iff.mp h
    cases h
    rw [decodeMap, decodeBools_of_mapM read]
    rfl
  | _ => cases h

/-- The map in a file is the one that is unmarshalled. -/
lemma unmarshal_of_mapIn {t : Int} {b : Bytes} {g : GoMap String Bool}
    (h : lib.mapIn (.present t (some b)) = some g) : lib.unmarshal b = .ok g := by
  change (lib.parse b).toOption.bind mapOf = some g at h
  unfold FileLibrary.unmarshal
  cases parsed : lib.parse b with
  | error err =>
    rw [parsed] at h
    cases h
  | ok j =>
    rw [parsed] at h
    exact decodeMap_of_mapOf h

/-- New contents are those of the file, and are read now. -/
lemma new_cases {b : Bytes} (h : m.finding = .new b) :
    ∃ t, m.file = .present t (some b) ∧ m.readNow = some (t, b) := by
  unfold Memory.finding at h
  unfold Memory.readNow
  cases file : m.file with
  | present t contents =>
    rw [file] at h
    dsimp only at h
    split at h
    · cases h
    · next time =>
      cases contents with
      | none => cases h
      | some c =>
        dsimp only at h
        split at h
        · cases h
        · cases h
          exact ⟨t, rfl, if_neg time⟩
  | _ =>
    rw [file] at h
    cases h

/-- What was read last is what had been read before, or the file itself. -/
lemma readNow_cases {r : Int × Bytes} (h : m.readNow = some r) :
    m.lastRead = some r ∨ m.file = .present r.1 (some r.2) ∧ m.finding ≠ .nothing := by
  unfold Memory.readNow at h
  unfold Memory.finding
  split at h
  · next t b file =>
    split at h
    · exact .inl h
    · next time =>
      cases h
      refine .inr ⟨file, ?_⟩
      rw [file]
      dsimp only
      rw [if_neg time]
      split <;> simp
  · exact .inl h

/-- What a call finds is known: the time or the contents are those that were read last. -/
lemma known_cases (h : m.finding = .known) : ∃ r t contents, m.lastRead = some r ∧
    m.file = .present t contents ∧ (r.1 = t ∨ contents = some r.2) := by
  unfold Memory.finding at h
  cases file : m.file with
  | present t contents =>
    rw [file] at h
    dsimp only at h
    split at h
    · next time =>
      obtain ⟨r, read, same⟩ := (Option.any_eq_true _ _).mp time
      exact ⟨r, t, contents, read, rfl, .inl (of_decide_eq_true same)⟩
    · cases contents with
      | none => cases h
      | some b =>
        dsimp only at h
        split at h
        · next hash =>
          obtain ⟨r, read, same⟩ := (Option.any_eq_true _ _).mp hash
          exact ⟨r, t, some b, read, rfl, .inr (congrArg some (of_decide_eq_true same).symm)⟩
        · cases h
  | _ =>
    rw [file] at h
    cases h

/-- A call that fails says nothing. -/
lemma reflects_of_failed {i : ι} (failed : (w.call lib i).1 = false) : Reflects lib w i :=
  ⟨fun success => absurd (failed.symm.trans success) nofun, fun _ => failed⟩

/-- A call that leaves the test with the map in the file reflects it. -/
lemma reflects_of_map {i : ι} {g : GoMap String Bool} (holds : lib.mapIn w.file = some g)
    (same : ∀ k, (w.call lib i).2.2.globalMap.lookup k = g.lookup k) : Reflects lib w i := by
  refine ⟨fun _ => ⟨g, holds, same⟩, fun none => ?_⟩
  cases holds.symm.trans none

/-- A call reflects the file exactly if what it finds is fresh. -/
lemma Tracks.reflects_iff (tracks : Tracks lib all w m)
    (distinct : lib.Distinguishes all) (i : ι) :
    Reflects lib w i ↔ Fresh lib m i := by
  have called := tracks.call_eq distinct i
  have result : (w.call lib i).1 = (m.answer lib (w.tests i)).1 := by rw [called]
  have test : (w.call lib i).2.2 = (m.answer lib (w.tests i)).2 := by rw [called]
  unfold Memory.answer at result test
  unfold Fresh
  cases found : m.finding with
  | nothing =>
    rw [found] at result
    exact iff_of_true (reflects_of_failed result) trivial
  | known =>
    rw [found] at result test
    have map : (w.call lib i).2.2.globalMap = m.loaded i := by
      rw [test]
      exact tracks.loaded i
    constructor
    · intro reflects
      have current := reflects.current result
      rwa [map, tracks.file] at current
    · rintro ⟨g, holds, same⟩
      exact reflects_of_map (tracks.file ▸ holds) (fun k => map ▸ same k)
  | new b =>
    obtain ⟨t, file, -⟩ := new_cases found
    rw [found] at result test
    dsimp only at result test
    cases decoded : lib.unmarshal b with
    | error err =>
      rw [decoded] at result
      refine iff_of_true (reflects_of_failed result) ?_
      intro g ok
      cases decoded.symm.trans ok
    | ok g =>
      rw [decoded] at result test
      constructor
      · intro reflects g' _
        obtain ⟨g', holds, _⟩ := reflects.current result
        rw [← tracks.file, holds]
        rfl
      · intro fresh
        obtain ⟨g', holds⟩ := Option.isSome_iff_exists.mp (fresh g decoded)
        have same : lib.unmarshal b = .ok g' := unmarshal_of_mapIn (file ▸ holds)
        obtain rfl : g = g' := Except.ok.inj (decoded.symm.trans same)
        refine reflects_of_map (tracks.file ▸ holds) (fun k => ?_)
        rw [test]
        rfl

/-! ## One test -/

/-- Files that hold maps whenever they are there, and whose modification times tell their contents. -/
structure Orderly (lib : FileLibrary) (files : List FileState) : Prop where
  holds : ∀ t contents, .present t contents ∈ files → (lib.mapIn (.present t contents)).isSome
  times : ∀ t contents contents', .present t contents ∈ files → .present t contents' ∈ files →
    contents = contents'

/-- With one test only, the map that it has loaded is the one that was read last. -/
structure Steady (lib : FileLibrary) (files : List FileState) (m : Memory ι) : Prop where
  file : m.file ∈ files
  read : ∀ r, m.lastRead = some r → .present r.1 (some r.2) ∈ files ∧
    ∀ i, lib.mapIn (.present r.1 (some r.2)) = some (m.loaded i)

variable {files : List FileState}

/-- If the file is known, all tests have the map in it. -/
lemma Steady.known (steady : Steady lib files m) (orderly : Orderly lib files) (h : m.finding = .known)
    (i : ι) : lib.mapIn m.file = some (m.loaded i) := by
  obtain ⟨r, t, contents, read, file, same⟩ := known_cases h
  obtain ⟨mem, loaded⟩ := steady.read r read
  have here := steady.file
  rw [file] at here ⊢
  rcases same with rfl | rfl
  · rw [orderly.times _ _ _ here mem]
    exact loaded i
  · exact loaded i

/-- In a steady state a call leaves the test with the map in the file. -/
lemma Steady.fresh (steady : Steady lib files m) (orderly : Orderly lib files) (i : ι) : Fresh lib m i := by
  unfold Fresh
  cases found : m.finding with
  | nothing => trivial
  | known => exact ⟨_, steady.known orderly found i, fun _ => rfl⟩
  | new b =>
    obtain ⟨t, file, -⟩ := new_cases found
    have here := steady.file
    rw [file] at here ⊢
    exact fun _ _ => orderly.holds t (some b) here

/-! ## Whole runs -/

/-- A tester that has read nothing yet (Go `newFileHealthTester`), and the tests that share it. -/
def World.start (path : String) (file : FileState) (tests : ι → HealthTest) : World ι :=
  ⟨file, { path := path }, tests⟩

/-- What is remembered before the first call. -/
def Memory.start (file : FileState) (tests : ι → HealthTest) : Memory ι where
  file := file
  loaded i := (tests i).globalMap

/-- Without a path every call fails. -/
lemma reflects_of_no_path (path : w.tester.path = "") (i : ι) : Reflects lib w i := by
  apply reflects_of_failed
  unfold World.call FileHealthTester.test
  rw [if_pos path]

variable [DecidableEq ι]

/-- Every event keeps the code where the memory is. -/
lemma Tracks.step (tracks : Tracks lib all w m)
    (distinct : lib.Distinguishes all) (e : Event ι)
    (new : ∀ b ∈ contentsIn [e], b ∈ all) : Tracks lib all (w.step lib e) (m.step lib e) := by
  cases e with
  | write file =>
    have among : ∀ b ∈ file.contents, b ∈ all := fun b mem => new b (by simpa [contentsIn, filesIn] using mem)
    exact ⟨tracks.path, rfl, tracks.time, tracks.hash, tracks.loaded, among, tracks.read⟩
  | test i =>
    have called := tracks.call_eq distinct i
    unfold World.step Memory.step
    dsimp only
    rw [called]
    refine ⟨tracks.path, tracks.file, rfl, rfl, ?loaded, tracks.contents, ?read⟩
    case loaded =>
      intro j
      have others := tracks.loaded j
      dsimp only
      unfold Memory.answer
      cases m.finding with
      | nothing => rwa [Function.update_eq_self]
      | known => rwa [Function.update_eq_self]
      | new b =>
        dsimp only
        cases lib.unmarshal b with
        | error err => rwa [Function.update_eq_self]
        | ok g =>
          by_cases same : j = i
          · subst same
            simp [HealthTest.setGlobal]
          · simpa [same] using others
    case read =>
      intro r read
      rcases readNow_cases read with before | ⟨file, _⟩
      · exact tracks.read r before
      · exact tracks.contents r.2 (by simp [file, FileState.contents])

/-- The code follows what is remembered through all events. -/
lemma Tracks.run (tracks : Tracks lib all w m)
    (distinct : lib.Distinguishes all) (events : List (Event ι))
    (new : ∀ b ∈ contentsIn events, b ∈ all) :
    Tracks lib all (events.foldl (World.step lib) w) (events.foldl (Memory.step lib) m) := by
  induction events generalizing w m with
  | nil => exact tracks
  | cons e events ih =>
    rw [← List.singleton_append, contentsIn_append] at new
    exact ih (tracks.step distinct e fun b mem => new b (List.mem_append_left _ mem))
      fun b mem => new b (List.mem_append_right _ mem)

/-- The tester of a run keeps its path. -/
lemma run_path (events : List (Event ι)) (path : w.tester.path = "") :
    (events.foldl (World.step lib) w).tester.path = "" := by
  induction events generalizing w with
  | nil => exact path
  | cons e events ih =>
    apply ih
    cases e with
    | write file => exact path
    | test i =>
      show (w.call lib i).2.1.path = ""
      unfold World.call FileHealthTester.test
      rwa [if_pos path]

/-- For all files and all calls of the tests that share a tester, whatever the modification times are: every
    call that is successful leaves its test with the map in the file, and a file that holds none makes every
    call fail, exactly if all that is found is fresh. -/
theorem file_tests_reflect_iff (lib : FileLibrary) (path : String) (file : FileState) (tests : ι → HealthTest)
    (events : List (Event ι))
    (distinct : lib.Distinguishes (file.contents ++ contentsIn events)) :
    (∀ before i later, events = before ++ .test i :: later →
      Reflects lib (before.foldl (World.step lib) (.start path file tests)) i) ↔
    (path ≠ "" → ∀ before i later, events = before ++ .test i :: later →
      Fresh lib (before.foldl (Memory.step lib) (.start file tests)) i) := by
  by_cases empty : path = ""
  · refine iff_of_true ?_ (fun ne => absurd empty ne)
    intro before i later _
    exact reflects_of_no_path (run_path before empty) i
  have start : Tracks lib (file.contents ++ contentsIn events) (World.start path file tests)
      (Memory.start file tests) :=
    ⟨empty, rfl, rfl, rfl, fun _ => rfl, fun b mem => List.mem_append_left _ mem, nofun⟩
  have each : ∀ before i later, events = before ++ .test i :: later →
      (Reflects lib (before.foldl (World.step lib) (.start path file tests)) i ↔
        Fresh lib (before.foldl (Memory.step lib) (.start file tests)) i) := by
    intro before i later split
    refine (start.run distinct before fun b mem => List.mem_append_right _ ?_).reflects_iff distinct i
    rw [split, contentsIn_append]
    exact List.mem_append_left _ mem
  constructor
  · intro reflects _ before i later split
    exact (each before i later split).mp (reflects before i later split)
  · intro fresh before i later split
    exact (each before i later split).mpr (fresh empty before i later split)

/-- One event with a single test keeps the state steady. -/
lemma Steady.step [Subsingleton ι] (steady : Steady lib files m) (orderly : Orderly lib files) (e : Event ι)
    (new : ∀ f ∈ filesIn [e], f ∈ files) : Steady lib files (m.step lib e) := by
  cases e with
  | write file => exact ⟨new file (by simp [filesIn]), steady.read⟩
  | test i =>
    refine ⟨steady.file, fun r read => ?_⟩
    change m.readNow = some r at read
    have here : m.file = .present r.1 (some r.2) → .present r.1 (some r.2) ∈ files :=
      fun file => file ▸ steady.file
    unfold Memory.step
    dsimp only
    cases found : m.finding with
    | nothing =>
      rcases readNow_cases read with before | ⟨_, other⟩
      · exact steady.read r before
      · exact absurd found other
    | known =>
      rcases readNow_cases read with before | ⟨file, _⟩
      · exact steady.read r before
      · exact ⟨here file, fun j => file ▸ steady.known orderly found j⟩
    | new b =>
      obtain ⟨t, file, now⟩ := new_cases found
      cases now.symm.trans read
      obtain ⟨g, holds⟩ := Option.isSome_iff_exists.mp (orderly.holds t (some b) (here file))
      refine ⟨here file, fun j => ?_⟩
      dsimp only
      rw [unmarshal_of_mapIn holds, Subsingleton.elim j i]
      dsimp only
      rw [Function.update_self]
      exact holds

/-- All events of a run with a single test keep the state steady. -/
lemma Steady.run [Subsingleton ι] (steady : Steady lib files m) (orderly : Orderly lib files)
    (events : List (Event ι)) (new : ∀ f ∈ filesIn events, f ∈ files) :
    Steady lib files (events.foldl (Memory.step lib) m) := by
  induction events generalizing m with
  | nil => exact steady
  | cons e events ih =>
    rw [← List.singleton_append, filesIn_append] at new
    exact ih (steady.step orderly e fun f mem => new f (List.mem_append_left _ mem))
      fun f mem => new f (List.mem_append_right _ mem)

/-- One test that shares its tester with nobody, and orderly files: all that is found is fresh. -/
theorem fresh_of_orderly [Subsingleton ι] (file : FileState) (tests : ι → HealthTest)
    (events : List (Event ι)) (orderly : Orderly lib (file :: filesIn events)) (before : List (Event ι))
    (i : ι) (later : List (Event ι)) (split : events = before ++ .test i :: later) :
    Fresh lib (before.foldl (Memory.step lib) (.start file tests)) i := by
  have start : Steady lib (file :: filesIn events) (Memory.start file tests) :=
    ⟨List.mem_cons_self, fun r read => by cases read⟩
  refine (start.run orderly before fun f mem => List.mem_cons_of_mem _ ?_).fresh orderly i
  rw [split, filesIn_append]
  exact List.mem_append_left _ mem

end

/-! ## A file that is rewritten -/

/-- A library that knows two documents. -/
def smallFiles : FileLibrary where
  parse b :=
    if b = [1] then .ok (.obj [("192.0.2.1", .bool true)])
    else if b = [2] then .ok (.obj [("192.0.2.1", .bool false)])
    else .error "unexpected end of JSON input"
  sha256 b := String.ofList ('#' :: b.map (fun u => Char.ofNat u.toNat))
  sha256_ne b := by simp

/-- A test of the health file. -/
def fileTest : HealthTest :=
  .newTest [] { defaultParameters with global := true } (.file "health.json")

/-- One test: the file is read, and read again when it has changed. -/
theorem rewritten_file_reflected : Reflects smallFiles
    ([Event.test (), .test (), .write (.present 20 (some [2]))].foldl (World.step smallFiles)
      (.start "health.json" (.present 10 (some [1])) fun _ => fileTest)) () := by
  have distinct : smallFiles.Distinguishes [[1], [2]] := by
    unfold FileLibrary.Distinguishes
    decide
  have orderly : Orderly smallFiles [.present 10 (some [1]), .present 20 (some [2])] := by
    constructor
    · intro t contents mem
      simp only [List.mem_cons, FileState.present.injEq, List.not_mem_nil, or_false] at mem
      rcases mem with ⟨rfl, rfl⟩ | ⟨rfl, rfl⟩
      · rfl
      · rfl
    · intro t contents contents' mem mem'
      simp only [List.mem_cons, FileState.present.injEq, List.not_mem_nil, or_false] at mem mem'
      rcases mem with ⟨rfl, rfl⟩ | ⟨rfl, rfl⟩ <;> rcases mem' with ⟨e, rfl⟩ | ⟨e, rfl⟩ <;> first
        | rfl
        | exact absurd e (by decide)
  let events : List (Event Unit) :=
    [.test (), .test (), .write (.present 20 (some [2])), .test ()]
  exact (file_tests_reflect_iff smallFiles "health.json" (.present 10 (some [1])) (fun _ => fileTest) events
    distinct).mpr (fun _ => fresh_of_orderly _ _ events orderly) _ () [] rfl

/-- Two tests that share a tester: the second one is told that all is well, without a map. When the file is
    replaced by one that is cut off, the first one is told so once, and then that all is well again. -/
theorem stale_success :
    let world (before : List (Event (Fin 2))) := before.foldl (World.step smallFiles)
      (.start "health.json" (.present 10 (some [1])) fun _ => fileTest)
    let cut := Event.write (.present 20 (some []))
    ((world [.test 0]).call smallFiles 1).1 = true ∧
      ((world [.test 0]).call smallFiles 1).2.2.globalMap.lookup "192.0.2.1" = none ∧
      ¬ Reflects smallFiles (world [.test 0]) 1 ∧
      ((world [.test 0, cut]).call smallFiles 0).1 = false ∧
      ((world [.test 0, cut, .test 0]).call smallFiles 0).1 = true ∧
      ¬ Reflects smallFiles (world [.test 0, cut, .test 0]) 0 := by
  intro world cut
  refine ⟨rfl, rfl, ?_, rfl, rfl, ?_⟩
  · intro reflects
    obtain ⟨m, holds, same⟩ := reflects.current rfl
    obtain rfl : GoMap.ofPairs [("192.0.2.1", true)] = m := Option.some.inj holds
    exact absurd (same "192.0.2.1") nofun
  · intro reflects
    exact absurd (reflects.rejects rfl) nofun

end GeoDNS.Healthtest
