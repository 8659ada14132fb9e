import GeoDNS.Healthtest.Test

/-!
# Shared health tests

The `HealthTestRunner` of `health/healthtest/healthtest.go`: tests with the same text share one entry, which
runs a copy of the test as long as somebody refers to it. References are added and removed test by test, and
for all global entries at once, in a loop that deletes entries of the map it ranges over.

The calls hold the runner's lock, so one of them comes after the other; between them, and while a call waits
for the end of a `Stop`, the tests in the entries run on (`HealthTestRunner.Step`). `Turn` says once what a
call does to one entry, and `shared_tests_counted` is what follows for every run.
-/

namespace GeoDNS.Healthtest
open GeoDNS.Lib

/-- Go `HealthTestRunnerEntry`: a copy of a test, with what is running for it. The flag `healthy` of the
    running test is that of its state. -/
structure HealthTestRunnerEntry where
  test : HealthTest
  references : GoMap String Bool
  state : State

/-- Go `HealthTestRunner`. -/
abbrev HealthTestRunner := GoMap String HealthTestRunnerEntry

namespace HealthTestRunnerEntry

/-- A new entry, whose test is started at the time `now`. -/
def new (ht : HealthTest) (ref : String) (now : Int) : HealthTestRunnerEntry where
  test :=
    { ht.copy ht.ipAddress with
      ipAddress := if ht.global then [] else ht.ipAddress
      healthy := ht.healthy }
  references := AList.insert ref true ∅
  state := .started now ht.healthy

/-- Go `HealthTestRunnerEntry`, with one more reference. -/
def addReference (t : HealthTestRunnerEntry) (ref : String) : HealthTestRunnerEntry :=
  { t with references := t.references.insert ref true }

/-- Go `HealthTestRunnerEntry`, with one reference less. -/
def removeReference (t : HealthTestRunnerEntry) (ref : String) : HealthTestRunnerEntry :=
  { t with references := t.references.erase ref }

end HealthTestRunnerEntry

/-- The entries after a call, or a part of it, and those on which it has called `Stop`. -/
structure Outcome where
  entries : HealthTestRunner
  stopped : HealthTestRunner := ∅

/-- Remove a reference, and the entry with it if it was the last one. -/
def Outcome.release (o : Outcome) (key : String) (t : HealthTestRunnerEntry) (ref : String) : Outcome :=
  let t := t.removeReference ref
  if t.references.entries.length = 0 then
    { entries := o.entries.erase key, stopped := o.stopped.insert key t }
  else { o with entries := o.entries.insert key t }

namespace HealthTestRunner

/-- Go `HealthTestRunner.addTest`. -/
def addTest (htr : HealthTestRunner) (ht : HealthTest) (ref : String) (now : Int) : Outcome :=
  let key := ht.toText
  match htr.lookup key with
  | some t => { entries := htr.insert key (t.addReference ref) }
  | none => { entries := htr.insert key (.new ht ref now) }

/-- Go `HealthTestRunner.removeTest`, with the test of the caller, which is told the last state of health. -/
def removeTest (htr : HealthTestRunner) (ht : HealthTest) (ref : String) : Outcome × HealthTest :=
  let key := ht.toText
  match htr.lookup key with
  | some t => (Outcome.release ⟨htr, ∅⟩ key t ref, { ht with healthy := t.state.healthy })
  | none => (⟨htr, ∅⟩, ht)

/-- One turn of the loop over the entries. -/
def refGlobal (ref : String) (add : Bool) (o : Outcome) (key : String) : Outcome :=
  match o.entries.lookup key with
  | some t =>
    if t.test.global then
      if add then { o with entries := o.entries.insert key (t.addReference ref) }
      else o.release key t ref
    else o
  | none => o

/-- Go `HealthTestRunner.refAllGlobalHealthChecks`. The loop comes to the keys in this order; it deletes no
    entry but the one it is at. -/
def refAllGlobalHealthChecks (htr : HealthTestRunner) (ref : String) (add : Bool) (keys : List String) :
    Outcome :=
  keys.foldl (refGlobal ref add) ⟨htr, ∅⟩

/-- The calls of the runner. -/
inductive Call where
  | addTest (ht : HealthTest) (ref : String) (now : Int)
  | removeTest (ht : HealthTest) (ref : String)
  | refAllGlobalHealthChecks (ref : String) (add : Bool) (keys : List String)

/-- What a call does. -/
def call (htr : HealthTestRunner) : Call → Outcome
  | .addTest ht ref now => htr.addTest ht ref now
  | .removeTest ht ref => (htr.removeTest ht ref).1
  | .refAllGlobalHealthChecks ref add keys => htr.refAllGlobalHealthChecks ref add keys

/-- The loop of a call comes to each entry once. -/
def Call.Visits (htr : HealthTestRunner) : Call → Prop
  | .refAllGlobalHealthChecks _ _ keys => keys.Perm htr.keys
  | _ => True

/-- `Stop` of the test of an entry has come to its end. -/
def Stops (t : HealthTestRunnerEntry) (s : State) : Prop :=
  Reaches (Healthtest.Step t.test.toHealthTestParameters) t.state s ∧ s.stop = .done

/-- What happens: a call, or something in a running test. -/
inductive Action where
  | call (c : Call)
  | work (key : String) (a : Healthtest.Action)

/-- The runner and the tests in its entries. A call returns when every `Stop` in it has. -/
inductive Step (htr : HealthTestRunner) : Action → HealthTestRunner → Prop
  | call {c} (visits : c.Visits htr)
      (stops : ∀ key t, (htr.call c).stopped.lookup key = some t → ∃ s, Stops t s) :
      Step htr (.call c) (htr.call c).entries
  | work {key t a s} (found : htr.lookup key = some t) (own : a ≠ .callStop)
      (step : Healthtest.Step t.test.toHealthTestParameters t.state a s) :
      Step htr (.work key a) (htr.insert key { t with state := s })

/-- What an action does with the reference `r` to the entry `k`: it adds it, removes it or neither. -/
def effect (k r : String) (htr : HealthTestRunner) : Action → Option Bool
  | .call (.addTest ht ref _) => if ht.toText = k ∧ ref = r then some true else none
  | .call (.removeTest ht ref) => if ht.toText = k ∧ ref = r then some false else none
  | .call (.refAllGlobalHealthChecks ref add _) =>
    if (htr.lookup k).any (·.test.global) ∧ ref = r then some add else none
  | .work _ _ => none

/-- Is `r` among the references of the entry, if it is there? -/
def refers (r : String) (o : Option HealthTestRunnerEntry) : Bool :=
  o.any (fun t => (t.references.lookup r).isSome)

/-- The entries on which an action calls `Stop`. -/
def stoppedBy (htr : HealthTestRunner) : Action → HealthTestRunner
  | .call c => (htr.call c).stopped
  | .work _ _ => ∅

/-! ## One entry -/

/-- One reference is added or removed, and no other one. -/
def Affects (eff : String → Option Bool) (ref : String) (b : Bool) : Prop :=
  ∀ r, eff r = if ref = r then some b else none

/-- What an action does under one key: with these effects on the references, to the entry `before`, so that it
    is `after`, and `stopped` is what `Stop` is called on. -/
inductive Turn (k : String) (eff : String → Option Bool)
    (before after stopped : Option HealthTestRunnerEntry) : Prop
  | keeps (nothing : ∀ r, eff r = none) (same : after = before) (quiet : stopped = none)
  | works {t a s} (nothing : ∀ r, eff r = none) (found : before = some t) (own : a ≠ .callStop)
      (step : Healthtest.Step t.test.toHealthTestParameters t.state a s)
      (moved : after = some { t with state := s }) (quiet : stopped = none)
  | misses {ref} (removes : Affects eff ref false) (absent : before = none) (same : after = none)
      (quiet : stopped = none)
  | creates {ht ref now} (key : ht.toText = k) (adds : Affects eff ref true) (absent : before = none)
      (new : after = some (.new ht ref now)) (quiet : stopped = none)
  | adds {t ref} (adds : Affects eff ref true) (found : before = some t)
      (more : after = some (t.addReference ref)) (quiet : stopped = none)
  | removes {t ref} (removes : Affects eff ref false) (found : before = some t)
      (left : (t.removeReference ref).references ≠ ∅) (fewer : after = some (t.removeReference ref))
      (quiet : stopped = none)
  | stops {t ref} (removes : Affects eff ref false) (found : before = some t)
      (last : (t.removeReference ref).references = ∅) (gone : after = none)
      (stop : stopped = some (t.removeReference ref))

section
variable {htr htr' : HealthTestRunner} {a : Action} {k key ref : String} {t : HealthTestRunnerEntry}

/-- A map without entries is the empty one. -/
lemma length_eq_zero_iff {m : GoMap String Bool} : m.entries.length = 0 ↔ m = ∅ := by
  rw [List.length_eq_zero_iff, AList.ext_iff]
  rfl

/-- An entry, if it is there, and the entry on which `Stop` has been called, if it has been. -/
abbrev Slot := Option HealthTestRunnerEntry × Option HealthTestRunnerEntry

/-- The part of an outcome that belongs to a key. -/
def slot (k : String) (o : Outcome) : Slot :=
  (o.entries.lookup k, o.stopped.lookup k)

/-- An entry after one of its references is removed. -/
def released (ref : String) (t : HealthTestRunnerEntry) (stopped : Option HealthTestRunnerEntry) : Slot :=
  if (t.removeReference ref).references = ∅ then (none, some (t.removeReference ref))
  else (some (t.removeReference ref), stopped)

/-- A release in the slot of its key. -/
lemma release_here (o : Outcome) (t : HealthTestRunnerEntry) (ref : String) :
    slot k (o.release k t ref) = released ref t (o.stopped.lookup k) := by
  unfold slot Outcome.release released
  simp only [length_eq_zero_iff]
  split
  · simp
  · simp

/-- A release leaves the other slots alone. -/
lemma release_skips (o : Outcome) (t : HealthTestRunnerEntry) (ref : String) (ne : key ≠ k) :
    slot k (o.release key t ref) = slot k o := by
  unfold slot Outcome.release
  dsimp only
  split
  · simp [Ne.symm ne]
  · simp [Ne.symm ne]

/-- A turn of the loop over the entries, under the key it comes to. -/
def refSlot (ref : String) (add : Bool) : Slot → Slot
  | (some t, stopped) =>
    if t.test.global then
      if add then (some (t.addReference ref), stopped) else released ref t stopped
    else (some t, stopped)
  | (none, stopped) => (none, stopped)

/-- One turn of the loop in the slot of its key. -/
lemma refGlobal_here (ref : String) (add : Bool) (o : Outcome) (k : String) :
    slot k (refGlobal ref add o k) = refSlot ref add (slot k o) := by
  unfold refGlobal
  cases found : o.entries.lookup k with
  | none => simp [slot, found, refSlot]
  | some t =>
    dsimp only
    by_cases global : t.test.global
    · cases add with
      | true => simp [slot, found, refSlot, global]
      | false =>
        rw [if_pos global, if_neg Bool.false_ne_true, release_here]
        simp [slot, found, refSlot, global]
    · simp [slot, found, refSlot, global]

/-- One turn leaves the other slots alone. -/
lemma refGlobal_skips (ref : String) (add : Bool) (o : Outcome) (ne : key ≠ k) :
    slot k (refGlobal ref add o key) = slot k o := by
  unfold refGlobal
  cases o.entries.lookup key with
  | none => rfl
  | some t =>
    dsimp only
    split
    · split
      · simp [slot, Ne.symm ne]
      · exact release_skips o t ref ne
    · rfl

/-! ## Every action, entry by entry -/

/-- The effects of an action under a key, if it affects one reference there. -/
lemma affects_of_iff {eff : String → Option Bool} {p : Prop} [Decidable p] {b : Bool} (holds : p)
    (eq : ∀ r, eff r = if p ∧ ref = r then some b else none) : Affects eff ref b := by
  intro r
  rw [eq r]
  simp only [holds, true_and]

/-- A release is one of the turns. -/
lemma turn_of_released {eff : String → Option Bool} {before after stopped : Option HealthTestRunnerEntry}
    (found : before = some t) (removes : Affects eff ref false)
    (eq : (after, stopped) = released ref t none) : Turn k eff before after stopped := by
  unfold released at eq
  split at eq
  · next last =>
    cases eq
    exact .stops removes found last rfl rfl
  · next left =>
    cases eq
    exact .removes removes found left rfl rfl

/-- What `addTest` does under a key is one of the turns. -/
lemma addTest_turn (htr : HealthTestRunner) (ht : HealthTest) (ref : String) (now : Int) (k : String) :
    Turn k (fun r => effect k r htr (.call (.addTest ht ref now))) (htr.lookup k)
      ((htr.addTest ht ref now).entries.lookup k) ((htr.addTest ht ref now).stopped.lookup k) := by
  -- an entry is put under the key of the test, with the reference added
  obtain ⟨t, eq, changed⟩ : ∃ t, htr.addTest ht ref now = { entries := htr.insert ht.toText t } ∧
      (htr.lookup ht.toText = none ∧ t = .new ht ref now ∨
        ∃ t', htr.lookup ht.toText = some t' ∧ t = t'.addReference ref) := by
    unfold addTest
    cases found : htr.lookup ht.toText with
    | none => exact ⟨_, by simp only [found], .inl ⟨rfl, rfl⟩⟩
    | some t' => exact ⟨_, by simp only [found], .inr ⟨t', rfl, rfl⟩⟩
  rw [eq]
  by_cases key : ht.toText = k
  · have adds : Affects (fun r => effect k r htr (.call (.addTest ht ref now))) ref true :=
      affects_of_iff key fun _ => rfl
    subst key
    rw [AList.lookup_insert]
    rcases changed with ⟨absent, rfl⟩ | ⟨t', found, rfl⟩
    · exact .creates rfl adds absent rfl rfl
    · exact .adds adds found rfl rfl
  · exact .keeps (fun r => if_neg fun h => key h.1) (AList.lookup_insert_ne (Ne.symm key)) rfl

/-- What `removeTest` does under a key is one of the turns. -/
lemma removeTest_turn (htr : HealthTestRunner) (ht : HealthTest) (ref : String) (k : String) :
    Turn k (fun r => effect k r htr (.call (.removeTest ht ref))) (htr.lookup k)
      ((htr.removeTest ht ref).1.entries.lookup k) ((htr.removeTest ht ref).1.stopped.lookup k) := by
  have effects : ht.toText = k → Affects (fun r => effect k r htr (.call (.removeTest ht ref))) ref false :=
    fun key => affects_of_iff key fun _ => rfl
  have nothing : ht.toText ≠ k → ∀ r, effect k r htr (.call (.removeTest ht ref)) = none :=
    fun key r => if_neg fun h => key h.1
  cases found : htr.lookup ht.toText with
  | none =>
    have eq : (htr.removeTest ht ref).1 = ⟨htr, ∅⟩ := by
      unfold removeTest
      simp only [found]
    rw [eq]
    by_cases key : ht.toText = k
    · have absent : htr.lookup k = none := key ▸ found
      exact .misses (effects key) absent absent rfl
    · exact .keeps (nothing key) rfl rfl
  | some t =>
    have eq : (htr.removeTest ht ref).1 = Outcome.release ⟨htr, ∅⟩ ht.toText t ref := by
      unfold removeTest
      simp only [found]
    rw [eq]
    by_cases key : ht.toText = k
    · subst key
      exact turn_of_released found (effects rfl) (release_here ⟨htr, ∅⟩ t ref)
    · have skipped := release_skips ⟨htr, ∅⟩ t ref key
      exact .keeps (nothing key) (congrArg Prod.fst skipped) (congrArg Prod.snd skipped)

/-- What `refAllGlobalHealthChecks` does under a key is one of the turns, as it comes to each key once. -/
lemma refAll_turn {keys : List String} (visits : keys.Perm htr.keys) (ref : String) (add : Bool)
    (k : String) :
    Turn k (fun r => effect k r htr (.call (.refAllGlobalHealthChecks ref add keys))) (htr.lookup k)
      ((htr.refAllGlobalHealthChecks ref add keys).entries.lookup k)
      ((htr.refAllGlobalHealthChecks ref add keys).stopped.lookup k) := by
  have nodup : keys.Nodup := visits.nodup_iff.mpr htr.keys_nodup
  have loop := GoMap.foldl_keys (slot k) k (fun o => refGlobal_here ref add o k)
    (fun o key ne => refGlobal_skips ref add o ne) nodup ⟨htr, ∅⟩
  have after := congrArg Prod.fst loop
  have stopped := congrArg Prod.snd loop
  change (htr.refAllGlobalHealthChecks ref add keys).entries.lookup k = _ at after
  change (htr.refAllGlobalHealthChecks ref add keys).stopped.lookup k = _ at stopped
  rw [after, stopped]
  cases found : htr.lookup k with
  | none =>
    have start : slot k ⟨htr, ∅⟩ = (none, none) := by simp [slot, found]
    rw [start]
    refine .keeps (fun r => ?_) (by simp [refSlot]) (by simp [refSlot])
    simp [effect, found]
  | some t =>
    have start : slot k ⟨htr, ∅⟩ = (some t, none) := by simp [slot, found]
    have mem : k ∈ keys := visits.mem_iff.mpr (AList.lookup_isSome.mp (by rw [found]; rfl))
    rw [start, if_pos mem]
    unfold refSlot
    by_cases global : t.test.global
    · have holds : (htr.lookup k).any (·.test.global) := by simpa [found] using global
      have affects : Affects (fun r => effect k r htr (.call (.refAllGlobalHealthChecks ref add keys)))
          ref add := affects_of_iff holds fun _ => rfl
      cases add with
      | true =>
        simp only [global, if_true]
        exact .adds affects rfl rfl rfl
      | false =>
        simp only [global, if_true, Bool.false_eq_true, if_false]
        exact turn_of_released rfl affects rfl
    · simp only [global]
      refine .keeps (fun r => ?_) rfl rfl
      simp [effect, found, global]

/-- What a call does under a key. -/
lemma call_turn {c : Call} (visits : c.Visits htr) (k : String) :
    Turn k (fun r => effect k r htr (.call c)) (htr.lookup k) ((htr.call c).entries.lookup k)
      ((htr.call c).stopped.lookup k) := by
  cases c with
  | addTest ht ref now => exact addTest_turn htr ht ref now k
  | removeTest ht ref => exact removeTest_turn htr ht ref k
  | refAllGlobalHealthChecks ref add keys => exact refAll_turn visits ref add k

/-- What an action does under a key. -/
lemma Step.turn (st : Step htr a htr') (k : String) :
    Turn k (fun r => effect k r htr a) (htr.lookup k) (htr'.lookup k) ((htr.stoppedBy a).lookup k) := by
  cases st with
  | call visits _ => exact call_turn visits k
  | @work key t a s found own step =>
    by_cases here : k = key
    · subst here
      exact .works (fun _ => rfl) found own step (AList.lookup_insert _) rfl
    · exact .keeps (fun _ => rfl) (AList.lookup_insert_ne here) rfl

/-! ## What follows -/

/-- An entry is under the text of its test, it is running, and somebody refers to it. -/
structure Sound (k : String) (t : HealthTestRunnerEntry) : Prop where
  key : t.test.toText = k
  running : t.state.Running
  referred : t.references ≠ ∅

/-- The entry of a test has the key of the test. -/
lemma new_toText (ht : HealthTest) (ref : String) (now : Int) :
    (HealthTestRunnerEntry.new ht ref now).test.toText = ht.toText := by
  have parameters : (HealthTestRunnerEntry.new ht ref now).test.toParameters = ht.toParameters :=
    ht.copy_toParameters ht.ipAddress
  unfold HealthTest.toText
  rw [parameters]
  by_cases global : ht.global
  · simp only [global, if_true]
    rfl
  · simp only [global]
    simp only [HealthTestRunnerEntry.new, global]
    rfl

/-- With a reference more there is one. -/
lemma insert_ne_empty (m : GoMap String Bool) (ref : String) : m.insert ref true ≠ ∅ := by
  intro empty
  have found : (m.insert ref true).lookup ref = some true := AList.lookup_insert m
  rw [empty] at found
  cases found

variable {eff : String → Option Bool} {before after stopped : Option HealthTestRunnerEntry}

/-- Every turn keeps an entry sound. -/
lemma Turn.sound (turn : Turn k eff before after stopped) (sound : ∀ t, before = some t → Sound k t) :
    ∀ t, after = some t → Sound k t := by
  intro t' after
  cases turn with
  | keeps _ same _ => exact sound t' (same ▸ after)
  | works _ found own step moved _ =>
    have old := sound _ found
    obtain rfl := Option.some.inj (moved.symm.trans after)
    exact ⟨old.key, old.running.step step own, old.referred⟩
  | misses _ _ same _ => cases same.symm.trans after
  | @creates ht ref now key _ _ new _ =>
    obtain rfl := Option.some.inj (new.symm.trans after)
    exact ⟨(new_toText ht ref now).trans key, State.started_running now ht.healthy, insert_ne_empty ∅ ref⟩
  | adds _ found more _ =>
    have old := sound _ found
    obtain rfl := Option.some.inj (more.symm.trans after)
    exact ⟨old.key, old.running, insert_ne_empty _ _⟩
  | removes _ found left fewer _ =>
    have old := sound _ found
    obtain rfl := Option.some.inj (fewer.symm.trans after)
    exact ⟨old.key, old.running, left⟩
  | stops _ _ _ gone _ => cases gone.symm.trans after

/-- A new entry has one reference. -/
lemma refers_new (ht : HealthTest) (ref : String) (now : Int) (r : String) :
    refers r (some (.new ht ref now)) = decide (ref = r) := by
  show ((AList.insert ref true (∅ : GoMap String Bool)).lookup r).isSome = _
  rw [GoMap.lookup_insert_eq_ite]
  by_cases same : ref = r
  · simp [same]
  · simp [same, Ne.symm same]

/-- With one more reference, an entry refers to it and to all from before. -/
lemma refers_addReference (t : HealthTestRunnerEntry) (ref r : String) :
    refers r (some (t.addReference ref)) = if ref = r then true else refers r (some t) := by
  show ((t.references.insert ref true).lookup r).isSome = _
  rw [GoMap.lookup_insert_eq_ite]
  by_cases same : ref = r
  · simp [same]
  · simp [same, Ne.symm same, refers]

/-- With one reference less, an entry refers to the others from before. -/
lemma refers_removeReference (t : HealthTestRunnerEntry) (ref r : String) :
    refers r (some (t.removeReference ref)) = if ref = r then false else refers r (some t) := by
  show ((t.references.erase ref).lookup r).isSome = _
  rw [GoMap.lookup_erase_eq_ite]
  by_cases same : ref = r
  · simp [same]
  · simp [same, Ne.symm same, refers]

/-- An entry without references refers to nothing. -/
lemma refers_of_empty {t : HealthTestRunnerEntry} (empty : t.references = ∅) (r : String) :
    refers r (some t) = false := by
  show (t.references.lookup r).isSome = false
  rw [empty]
  rfl

/-- If nothing is left after a reference is removed, there was no other one. -/
lemma eq_of_last (last : (t.removeReference ref).references = ∅) {r : String}
    (refers : refers r (some t) = true) : ref = r := by
  by_contra other
  have empty := refers_of_empty last r
  rw [refers_removeReference, if_neg other, refers] at empty
  cases empty

/-- An entry with references refers to something. -/
lemma exists_refers {t : HealthTestRunnerEntry} (referred : t.references ≠ ∅) :
    ∃ r, refers r (some t) = true := by
  by_contra none
  apply referred
  rw [AList.ext_iff]
  cases entries : t.references.entries with
  | nil => rfl
  | cons e rest =>
    have mem : (⟨e.1, e.2⟩ : Σ _ : String, Bool) ∈ t.references.entries := by simp [entries]
    refine absurd ⟨e.1, ?_⟩ none
    show (t.references.lookup e.1).isSome = true
    rw [GoMap.mem_entries_iff.mp mem]
    rfl

/-- A reference is there afterwards if the action has added it, or has left it alone and it was there. -/
lemma Turn.refers (turn : Turn k eff before after stopped) (r : String) :
    refers r after = (eff r).getD (refers r before) := by
  cases turn with
  | keeps nothing same _ =>
    rw [nothing, same]
    rfl
  | works nothing found _ _ moved _ =>
    rw [nothing, moved, found]
    rfl
  | misses removes absent same _ =>
    rw [removes, absent, same]
    split <;> rfl
  | creates _ adds absent new _ =>
    rw [adds, absent, new, refers_new]
    split <;> simp_all [HealthTestRunner.refers]
  | adds adds found more _ =>
    rw [adds, found, more, refers_addReference]
    split <;> rfl
  | removes removes found _ fewer _ =>
    rw [removes, found, fewer, refers_removeReference]
    split <;> rfl
  | @stops t ref removes found last gone _ =>
    rw [removes, found, gone]
    split
    · rfl
    · next other => exact (Bool.eq_false_iff.mpr fun refers => other (eq_of_last last refers)).symm

/-- An entry is dropped exactly if all its references go, and then it is stopped. -/
lemma Turn.dropped_iff (turn : Turn k eff (some t) after stopped) (referred : t.references ≠ ∅) :
    (after = none ↔ ∀ r, HealthTestRunner.refers r (some t) = true → eff r = some false) ∧
      (stopped = none ↔ after ≠ none) := by
  -- a reference that stays
  have stays : ∀ r, HealthTestRunner.refers r (some t) = true → eff r ≠ some false →
      ¬ ∀ r, HealthTestRunner.refers r (some t) = true → eff r = some false :=
    fun r refers ne all => ne (all r refers)
  obtain ⟨r, refers⟩ := exists_refers referred
  cases turn with
  | keeps nothing same quiet =>
    subst same quiet
    exact ⟨iff_of_false nofun (stays r refers (by rw [nothing]; nofun)), by simp⟩
  | works nothing found _ _ moved quiet =>
    subst moved quiet
    exact ⟨iff_of_false nofun (stays r refers (by rw [nothing]; nofun)), by simp⟩
  | misses _ absent => cases absent
  | creates _ _ absent => cases absent
  | adds adds found more quiet =>
    subst more quiet
    refine ⟨iff_of_false nofun (stays r refers ?_), by simp⟩
    rw [adds]
    split <;> nofun
  | @removes t' ref removes found left fewer quiet =>
    cases found
    subst fewer quiet
    obtain ⟨r', refers'⟩ := exists_refers left
    rw [refers_removeReference] at refers'
    refine ⟨iff_of_false nofun ?_, by simp⟩
    by_cases same : ref = r'
    · simp [same] at refers'
    · rw [if_neg same] at refers'
      exact stays r' refers' (by rw [removes, if_neg same]; nofun)
  | @stops t' ref removes found last gone stop =>
    cases found
    subst gone stop
    refine ⟨iff_of_true rfl ?_, by simp⟩
    intro r' refers'
    rw [removes, if_pos (eq_of_last last refers')]

/-- What is stopped is an entry that was running. -/
lemma Turn.stopped_running (turn : Turn k eff before after (some t))
    (sound : ∀ t, before = some t → Sound k t) :
    t.state.Running ∧ ∃ t', before = some t' ∧ t.test = t'.test ∧ t.state = t'.state := by
  cases turn with
  | stops removes found last gone stop =>
    cases stop
    exact ⟨(sound _ found).running, _, found, rfl, rfl⟩
  | keeps _ _ quiet => cases quiet
  | works _ _ _ _ _ quiet => cases quiet
  | misses _ _ _ quiet => cases quiet
  | creates _ _ _ _ quiet => cases quiet
  | adds _ _ _ quiet => cases quiet
  | removes _ _ _ _ quiet => cases quiet

/-! ## Runs -/

/-- All entries are sound in every run. -/
lemma sound_of_run {trace : List (HealthTestRunner × Action)} (run : Run (Recorded Step) ∅ trace htr) :
    ∀ k t, htr.lookup k = some t → Sound k t := by
  refine @Run.invariant _ _ _ (fun htr => ∀ k t, htr.lookup k = some t → Sound k t) _ _ _ run ?_ ?_
  · intro k t found
    cases found
  · rintro htr₁ ⟨_, a⟩ htr₂ sound ⟨rfl, st⟩ k
    exact (st.turn k).sound (sound k)

/-- An action that has called `Stop` on an entry has waited until nothing of its test runs. -/
lemma Step.stopped_done (st : Step htr a htr') (found : htr.lookup k = some t) (here : Sound k t)
    {t' : HealthTestRunnerEntry} (stopped : (htr.stoppedBy a).lookup k = some t') :
    t'.test = t.test ∧ t'.state = t.state ∧ ∃ s, Stops t' s ∧ s.loop = .returned ∧ s.polls = [] := by
  have turn := st.turn k
  rw [found, stopped] at turn
  obtain ⟨running, t₀, eq, test, state⟩ := turn.stopped_running fun _ eq => Option.some.inj eq ▸ here
  cases eq
  cases st with
  | call _ stops =>
    obtain ⟨s, reaches, done⟩ := stops k t' stopped
    have ⟨returned, polls⟩ := running.of_done reaches done
    exact ⟨test, state, s, ⟨reaches, done⟩, returned, polls⟩
  | work => cases stopped

/-- `Stop` can come to its end on every entry that is stopped, so that every call can return. -/
lemma exists_step (sound : ∀ k t, htr.lookup k = some t → Sound k t) (c : Call) (visits : c.Visits htr) :
    ∃ htr', Step htr (.call c) htr' := by
  refine ⟨_, .call visits fun key t stopped => ?_⟩
  have turn := call_turn visits key
  rw [stopped] at turn
  have running := (turn.stopped_running (sound key)).1
  have ⟨frequency, retryTime, _⟩ := t.test.raised
  have positive : 0 < t.test.frequency ∧ 0 < t.test.retryTime := by
    unfold second at frequency retryTime
    omega
  exact running.exists_done positive

/-- For every run of the runner and its tests: every entry is under the text of its test, is running and has
    references; a reference is there exactly if it was added last; an entry is dropped, and its test stopped
    until nothing of it runs, exactly by an action with which all its references go; and every call can
    return. -/
theorem shared_tests_counted (trace : List (HealthTestRunner × Action)) (htr : HealthTestRunner)
    (run : Run (Recorded Step) ∅ trace htr) :
    (∀ k t, htr.lookup k = some t →
      t.test.toText = k ∧ t.state.Running ∧ ∃ r, refers r (htr.lookup k) = true) ∧
    (∀ k r, refers r (htr.lookup k) = true ↔ lastWrite (effect k r) trace = some true) ∧
    (∀ a htr', Step htr a htr' → ∀ k t, htr.lookup k = some t →
      (htr'.lookup k = none ↔ ∀ r, refers r (htr.lookup k) = true → effect k r htr a = some false) ∧
      ((∃ t' s, (htr.stoppedBy a).lookup k = some t' ∧ t'.test = t.test ∧ t'.state = t.state ∧ Stops t' s ∧
          s.loop = .returned ∧ s.polls = []) ↔
        ∀ r, refers r (htr.lookup k) = true → effect k r htr a = some false)) ∧
    ∀ c : Call, c.Visits htr → ∃ htr', Step htr (.call c) htr' := by
  have sound := sound_of_run run
  refine ⟨?_, ?_, ?_, fun c visits => exists_step sound c visits⟩
  · intro k t found
    rw [found]
    have here := sound k t found
    exact ⟨here.key, here.running, exists_refers here.referred⟩
  · intro k r
    have register : refers r (htr.lookup k) = (lastWrite (effect k r) trace).getD false :=
      run.register (fun st => (st.turn k).refers r)
    rw [register]
    cases lastWrite (effect k r) trace <;> simp
  · intro a htr' st k t found
    have turn := st.turn k
    have here := sound k t found
    rw [found] at turn
    have ⟨dropped, quiet⟩ := turn.dropped_iff here.referred
    rw [found]
    refine ⟨dropped, ?_⟩
    rw [← dropped]
    constructor
    · rintro ⟨t', s, stopped, _⟩
      by_contra kept
      rw [quiet.mpr kept] at stopped
      cases stopped
    · intro gone
      cases stopped : (htr.stoppedBy a).lookup k with
      | none => exact absurd gone (quiet.mp stopped)
      | some t' =>
        obtain ⟨test, state, s, stops, returned, polls⟩ := st.stopped_done found here stopped
        exact ⟨t', s, rfl, test, state, stops, returned, polls⟩

end

/-- A test that two zones refer to. -/
def webTest : HealthTest :=
  .newTest [192, 0, 2, 1] { defaultParameters with testName := "tcp" } (.tcp 80)

/-- The runner with that test. -/
def webRunner : HealthTestRunner :=
  AList.insert webTest.toText (.new webTest "example.com" 0) ∅

/-- The test of two zones is kept when one of its references is removed, and goes with the other. -/
theorem last_reference_goes : ∃ trace htr htr₁ htr₂, Run (Recorded Step) ∅ trace htr ∧
    refers "example.com" (htr.lookup webTest.toText) = true ∧
    refers "example.org" (htr.lookup webTest.toText) = true ∧
    Step htr (.call (.removeTest webTest "example.com")) htr₁ ∧ htr₁.lookup webTest.toText ≠ none ∧
    Step htr₁ (.call (.removeTest webTest "example.org")) htr₂ ∧ htr₂.lookup webTest.toText = none := by
  have added : Step ∅ (.call (.addTest webTest "example.com" 0)) webRunner :=
    .call trivial fun key t stopped => by cases stopped
  have run₁ : Run (Recorded Step) ∅ [(∅, .call (.addTest webTest "example.com" 0))] webRunner :=
    Run.nil.snoc ⟨rfl, added⟩
  obtain ⟨htr, shared⟩ := (shared_tests_counted _ _ run₁).2.2.2 (.addTest webTest "example.org" 0) trivial
  have run₂ := run₁.snoc (a := (webRunner, _)) ⟨rfl, shared⟩
  obtain ⟨_, counted, drops, returns⟩ := shared_tests_counted _ _ run₂
  have com : refers "example.com" (htr.lookup webTest.toText) = true := by
    rw [counted]
    simp [lastWrite, effect]
  have org : refers "example.org" (htr.lookup webTest.toText) = true := by
    rw [counted]
    simp [lastWrite, effect]
  obtain ⟨t, found⟩ : ∃ t, htr.lookup webTest.toText = some t := by
    cases found : htr.lookup webTest.toText with
    | none =>
      rw [found] at com
      cases com
    | some t => exact ⟨t, rfl⟩
  obtain ⟨htr₁, removed⟩ := returns (.removeTest webTest "example.com") trivial
  have kept : htr₁.lookup webTest.toText ≠ none := by
    intro gone
    have all := (drops _ _ removed _ _ found).1.mp gone "example.org" org
    simp [effect] at all
  have run₃ := run₂.snoc (a := (htr, _)) ⟨rfl, removed⟩
  obtain ⟨_, counted₁, drops₁, returns₁⟩ := shared_tests_counted _ _ run₃
  obtain ⟨t₁, found₁⟩ := Option.ne_none_iff_exists'.mp kept
  obtain ⟨htr₂, removed₁⟩ := returns₁ (.removeTest webTest "example.org") trivial
  refine ⟨_, htr, htr₁, htr₂, run₂, com, org, removed, kept, removed₁,
    (drops₁ _ _ removed₁ _ _ found₁).1.mpr ?_⟩
  intro r refers
  have last := (counted₁ _ _).mp refers
  -- the only other one was removed last
  by_cases other : "example.org" = r
  · simp [effect, other]
  · by_cases first : "example.com" = r
    · subst first
      simp [lastWrite, effect] at last
    · simp [lastWrite, effect, first, other] at last

end HealthTestRunner

end GeoDNS.Healthtest
