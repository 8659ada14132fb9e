import GeoDNS.Healthtest.LifeCycle
import GeoDNS.Lib.GoMap
import GeoDNS.Lib.IP

/-!
# Health tests

The health test as `health/healthtest/healthtest.go` builds, copies and prints it, with the six testers of
`health/healthtest/healthtesters.go`. The text of a test is the key under which it is shared. A test holds
the proof that its durations have been raised to a second, which `NewTest` does and which makes a copy of a
test have its parameters.

What is running while a test is started is the subject of `LifeCycle.lean`.
-/

namespace GeoDNS.Healthtest
open GeoDNS.Lib

/-- All parameters of a test (Go `HealthTestParameters`), of which the loop reads the first part. -/
@[ext] structure Parameters extends HealthTestParameters where
  timeout : Int
  healthyInitially : Bool
  testName : String := ""
  global : Bool := false

/-- Go `defaultHealthTestParameters`. -/
def defaultParameters : Parameters where
  toHealthTestParameters := defaultHealthTestParameters
  timeout := 5 * second
  healthyInitially := false

/-- The parameters as `%v` prints them. The fields are not exported, so a duration is printed as a number. -/
def Parameters.toText (htp : Parameters) : String :=
  "\x7b" ++ " ".intercalate [toString htp.frequency, toString htp.retryTime, toString htp.timeout,
    toString htp.retries.toInt, toString htp.healthyInitially, htp.testName, toString htp.global] ++ "\x7d"

/-- The testers, without what they remember between two tests. -/
inductive HealthTester where
  | tcp (port : Int)
  | ntp (maxStratum : Int)
  | exec (cmd : String)
  | file (path : String)
  | nodeping (token : String)
  | pingdom (username password accountEmail appKey : String) (stateMap : Option (GoMap String Bool))

/-- A map as `%v` prints it, in the order of the keys (as of Go 1.12). -/
def mapText (m : GoMap String Bool) : String :=
  let sorted := m.entries.mergeSort (fun e e' => decide (e.1 ≤ e'.1))
  "map[" ++ " ".intercalate (sorted.map (fun e => e.1 ++ ":" ++ toString e.2)) ++ "]"

/-- The `String` methods of the testers. -/
def HealthTester.toText : HealthTester → String
  | tcp port => toString port
  | ntp maxStratum => toString maxStratum
  | exec cmd => cmd
  | file path => path
  | nodeping token => token
  | pingdom username password accountEmail appKey stateMap =>
    "/".intercalate [username, password, accountEmail, appKey, mapText (stateMap.getD ∅)]

/-- A health test (Go `HealthTest`). A nil map of results is read as an empty one. -/
structure HealthTest extends Parameters where
  ipAddress : IP
  healthy : Bool
  tester : HealthTester
  globalMap : GoMap String Bool := ∅
  raised : second ≤ frequency ∧ second ≤ retryTime ∧ second ≤ timeout

/-- The parameters with all durations raised to a second. -/
def Parameters.raise (htp : Parameters) : Parameters :=
  { htp with
    toHealthTestParameters := newTest htp.toHealthTestParameters
    timeout := if htp.timeout < second then second else htp.timeout }

/-- A duration that is raised is a second or more. -/
lemma le_raise (d : Int) : second ≤ if d < second then second else d := by
  split <;> omega

/-- A duration that is long enough is not raised. -/
lemma raise_of_le {d : Int} (le : second ≤ d) : (if d < second then second else d) = d :=
  if_neg (by omega)

/-- Parameters that are large enough stay as they are. -/
lemma Parameters.raise_eq {htp : Parameters}
    (raised : second ≤ htp.frequency ∧ second ≤ htp.retryTime ∧ second ≤ htp.timeout) : htp.raise = htp := by
  unfold raise newTest
  rw [raise_of_le raised.1, raise_of_le raised.2.1, raise_of_le raised.2.2]

namespace HealthTest

/-- Go `NewTest`. -/
def newTest (ipAddress : IP) (htp : Parameters) (tester : HealthTester) : HealthTest where
  toParameters := htp.raise
  ipAddress := ipAddress
  healthy := htp.healthyInitially
  tester := tester
  raised := ⟨le_raise htp.frequency, le_raise htp.retryTime, le_raise htp.timeout⟩

/-- The text of a test, by which tests are compared (Go `HealthTest.String`). -/
def toText (ht : HealthTest) : String :=
  let ip := if ht.global then "" else ht.ipAddress.toText
  "/".intercalate [ip, ht.toParameters.toText, ht.tester.toText]

/-- Go `HealthTest.copy`. -/
def copy (ht : HealthTest) (ipAddress : IP) : HealthTest :=
  newTest ipAddress ht.toParameters ht.tester

/-- Go `HealthTest.setGlobal`. -/
def setGlobal (ht : HealthTest) (g : GoMap String Bool) : HealthTest :=
  { ht with globalMap := g }

/-- A copy has the parameters of the test. -/
@[simp] lemma copy_toParameters (ht : HealthTest) (ipAddress : IP) :
    (ht.copy ipAddress).toParameters = ht.toParameters :=
  Parameters.raise_eq ht.raised

end HealthTest
end GeoDNS.Healthtest
