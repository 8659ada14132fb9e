import GeoDNS.Zones.Loaded
import GeoDNS.Zones.Picker

/-!
# Health tests of records

`Zone.setupHealthTests` of `zones/zone.go` gives every address and mail server of a label with a health
reference a test name, which `Picker` looks up with `health.GetStatus`. The lookup expects the name of
the status and the name of the check with a slash between them, the form that `HealthReference.Name`
makes; the test name written is the data of the record alone.

So the reference of the label plays no part in what the filter keeps: a test of a record is healthy if its
name is of the form `status/check` and that check is reported healthy (`getStatus_healthy`). What this makes
of the records of a zone in service is said in `Installed.lean`.
-/

namespace GeoDNS.Zones
open GeoDNS.Lib GeoDNS.Dns GeoDNS.Health

/-- The data of a record under which it is tested: an address or the name of a mail server. -/
def testData (rr : RR) : Option String :=
  match rr.data with
  | .a ip => some (IP.toText ip)
  | .aaaa ip => some (IP.toText ip)
  | .mx _ mx => some mx
  | _ => none

/-- Give a record a test, unless it has one of its own. -/
def setupTest (r : Record) : Record :=
  if r.test ≠ "" then r
  else
    match testData r.rr with
    | some t => { r with test := t }
    | none => r

/-- Set up the health tests of a label that has a health reference. -/
def LabelOf.setupHealthTests (l : Label) : Label :=
  match l.test with
  | none => l
  | some _ => { l with records := l.records.mapVals (fun _ rs => rs.map setupTest) }

/-- Go `Zone.setupHealthTests`. -/
def ZoneOf.setupHealthTests (z : Zone) : Zone :=
  { z with labels := z.labels.mapVals (fun _ l => l.setupHealthTests) }

/-- The status registered under a name reports a check as healthy. -/
def Reports (registry : Registry) (name check : String) : Prop :=
  ∃ status, registry.lookup name = some status ∧ status.getStatus check = .ok statusHealthy

/-- A test name stands for a check for which its status file has a JSON `null`; looking it up panics. -/
def Nulled (registry : Registry) (name : String) : Prop :=
  ∃ file check status m, splitN2 name '/' = [file, check] ∧ registry.lookup file = some status ∧
    status.m = some m ∧ m.lookup check = some none

section
variable {registry : Registry} {l : Label} {r : Record} {rs : List Record}

/-- A test is healthy if its file reports the check so. -/
lemma getStatus_healthy {name : String} : getStatus registry name = .ok statusHealthy ↔
    ∃ file check, splitN2 name '/' = [file, check] ∧ Reports registry file check := by
  have unknown : statusUnknown ≠ statusHealthy := by decide
  unfold getStatus Reports
  rcases splitN2 name '/' with _ | ⟨file, _ | ⟨check, _ | ⟨c, cs⟩⟩⟩
  · simp [unknown]
  · simp [unknown]
  · cases h : registry.lookup file <;> simp [h, unknown]
  · simp [unknown]

/-- A lookup returns unless it meets a JSON `null`. -/
lemma getStatus_returns_iff {name : String} :
    (∃ st, getStatus registry name = .ok st) ↔ ¬ Nulled registry name := by
  unfold getStatus Nulled
  rcases splitN2 name '/' with _ | ⟨file, _ | ⟨check, _ | ⟨c, cs⟩⟩⟩
  · simp
  · simp
  · cases h : registry.lookup file with
    | none => simp [h]
    | some status =>
      obtain ⟨filename, _ | m⟩ := status
      · simp [StatusFile.getStatus, h]
      · rcases hst : m.lookup check with _ | _ | st <;> simp [StatusFile.getStatus, h, hst, Res.get]
  · simp

/-- The health of a record can be told unless its test meets a JSON `null`. -/
lemma passesHealth_returns_iff :
    (∃ keep, passesHealth (getStatus registry) r = .ok keep) ↔ ¬ Nulled registry r.test := by
  rw [← getStatus_returns_iff, passesHealth]
  by_cases test : r.test = ""
  · rw [if_pos test, test]
    exact iff_of_true ⟨true, rfl⟩ ⟨statusUnknown, rfl⟩
  · rw [if_neg test]
    cases getStatus registry r.test with
    | ok st => exact iff_of_true ⟨_, rfl⟩ ⟨st, rfl⟩
    | panic p => simp
    | diverge => simp

/-- A record with a test is kept if the test is healthy. -/
lemma passesHealth_iff (test : r.test ≠ "") :
    passesHealth (getStatus registry) r = .ok true ↔ getStatus registry r.test = .ok statusHealthy := by
  rw [passesHealth, if_neg test]
  cases getStatus registry r.test with
  | ok st => simp
  | panic p => simp
  | diverge => simp

/-- The records of a label with a test after the health tests are set up. -/
lemma recordsOf_setupHealthTests {ref : HealthReference} (test : l.test = some ref) (t : RRType) :
    l.setupHealthTests.recordsOf t = (l.recordsOf t).map (List.map setupTest) := by
  rw [LabelOf.setupHealthTests, test]
  exact GoMap.lookup_mapVals _ _ _

/-- A label keeps its test when health tests are set up. -/
lemma test_setupHealthTests (l : Label) : l.setupHealthTests.test = l.test := by
  unfold LabelOf.setupHealthTests
  cases h : l.test with
  | none => exact h
  | some ref => rfl

/-- The data of a test is not empty. -/
lemma testData_ne_empty {t : RRType} {d : String} (type : OfType t r.rr) (hd : testData r.rr = some d) :
    d ≠ "" := by
  have named := type.named
  unfold testData at hd
  split at hd
  · cases hd
    exact IP.toText_ne_empty _
  · cases hd
    exact IP.toText_ne_empty _
  · rename_i e
    cases hd
    rw [e] at named
    exact named
  · cases hd

end

/-- An address. -/
def webRecord : Record where
  rr := ⟨⟨"www.example.com.", typeA, classINET, 120⟩, .a (IP.v4InV6 ++ [192, 0, 2, 1])⟩
  weight := 1

end GeoDNS.Zones
