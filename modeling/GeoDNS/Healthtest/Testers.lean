import GeoDNS.Healthtest.FileTester
import GeoDNS.Typeutil

/-!
# The testers

The `Test` methods of `health/healthtest/healthtesters.go`, which a poll calls. What a tester finds outside
at that time is in `Outside`. Three testers are about the address of the test alone. The other ones learn
about all addresses at once, and leave a map of them with the test: the file tester, which has a module of
its own, and the two that ask a service. The services answer with a list of items, and both testers go
through it in the same way (`stateOf`), the last item about a host being the one that counts.
-/

namespace GeoDNS.Healthtest
open GeoDNS.Lib

/-- What the testers find outside. A service answers with a JSON document; there is none if it cannot be
    reached or if its answer cannot be read or parsed. -/
structure Outside where
  connects : IP → Int → Bool
  -- the datagram that an NTP server answers with
  ntp : IP → Option (List UInt8)
  -- does this command, with its arguments, end with exit code zero?
  runs : List String → Bool
  file : String → FileState
  -- what the tester of a file remembers at that time
  remembers : String → FileHealthTester
  nodeping : String → Option Json
  pingdom : String → String → String → String → Option Json

/-! ## One address -/

/-- The request of the NTP tester: version 4, client mode. -/
def ntpRequest : List UInt8 :=
  ((4 : UInt8) <<< 3 ||| 3) :: List.replicate 47 0

/-- Go `NtpHealthTester.Test`. The answer overwrites the request, as far as it goes. -/
def ntpTest (maxStratum : Int) : Option (List UInt8) → Bool
  | none => false
  | some datagram =>
    let data := datagram.take 48 ++ ntpRequest.drop datagram.length
    let stratum := data.getD 1 0
    !(stratum = 0 ∨ UInt8.ofInt maxStratum < stratum)

/-- The characters of a command, with the address put in for every pair of braces
    (Go `strings.Replace`). -/
def insertAddress (ip : List Char) : List Char → List Char
  | [] => []
  | [c] => [c]
  | c :: c' :: cs =>
    if c = '\x7b' ∧ c' = '\x7d' then ip ++ insertAddress ip cs else c :: insertAddress ip (c' :: cs)

/-- The command that `ExecHealthTester.Test` runs, with its arguments. -/
def command (cmd : String) (ip : IP) : List String :=
  split (String.ofList (insertAddress ip.toText.toList cmd.toList)) ' '

/-! ## The services -/

/-- Decode a document into a `map[string]interface{}`, which a `null` leaves nil. -/
def asMap : Json → Option (GoMap String Json)
  | .obj fields => some (Json.fields fields)
  | .null => some ∅
  | _ => none

/-- What an item of the answer of Nodeping says: a host that is named is down. -/
def nodepingItem : Json → Res (Option (String × Bool))
  | .obj fields =>
    match (Json.fields fields).lookup "label" with
    | some ip => do
      let host ← Typeutil.toString ip
      return some (host, false)
    | none => .ok none
  | _ => .ok none

/-- What a check in the answer of Pingdom says, if its status is one of the map. -/
def pingdomCheck (stateMap : GoMap String Bool) : Json → Res (Option (String × Bool))
  | .obj fields =>
    match (Json.fields fields).lookup "name", (Json.fields fields).lookup "status" with
    | some ip, some status => do
      let s ← Typeutil.toString status
      match stateMap.lookup s with
      | some updown => do
        let host ← Typeutil.toString ip
        return some (host, updown)
      | none => return none
    | _, _ => .ok none
  | _ => .ok none

/-- The loop over the items of an answer. -/
def stateOf (tells : Json → Res (Option (String × Bool))) (items : List Json) (state : GoMap String Bool) :
    Res (GoMap String Bool) :=
  items.foldlM (fun state item => do
    match ← tells item with
    | some (host, healthy) => return state.insert host healthy
    | none => return state) state

/-- Go `defaultPingdomStateMap`. -/
def defaultPingdomStateMap : GoMap String Bool :=
  GoMap.ofPairs [("up", true), ("down", false), ("paused", false)]

/-- The items in an answer of Nodeping, in the order in which the loop comes to them. -/
def nodepingItems (answer : Option Json) : Option (List Json) :=
  (answer.bind asMap).map (fun m => m.entries.map (·.2))

/-- The checks in an answer of Pingdom. -/
def pingdomChecks (answer : Option Json) : Option (List Json) :=
  match (answer.bind asMap).bind (fun m => m.lookup "checks") with
  | some (.arr checks) => some checks
  | _ => none

/-- What a tester that asks a service does with the items of the answer. -/
def remoteTest (tells : Json → Res (Option (String × Bool))) (items : Option (List Json)) (ht : HealthTest) :
    Res (Bool × HealthTest) :=
  match items with
  | none => .ok (false, ht)
  | some items => do
    let state ← stateOf tells items ∅
    return (true, ht.setGlobal state)

/-- The `Test` method of the tester of a test, with the test afterwards. -/
def HealthTest.poll (lib : FileLibrary) (world : Outside) (ht : HealthTest) : Res (Bool × HealthTest) :=
  match ht.tester with
  | .tcp port => .ok (world.connects ht.ipAddress port, ht)
  | .ntp maxStratum => .ok (ntpTest maxStratum (world.ntp ht.ipAddress), ht)
  | .exec cmd => .ok (world.runs (command cmd ht.ipAddress), ht)
  | .file path =>
    let (result, _, ht) := FileHealthTester.test lib { world.remembers path with path } (world.file path) ht
    .ok (result, ht)
  | .nodeping token =>
    if token = "" then .ok (false, ht)
    else remoteTest nodepingItem (nodepingItems (world.nodeping token)) ht
  | .pingdom username password accountEmail appKey stateMap =>
    if username = "" ∨ password = "" then .ok (false, ht)
    else remoteTest (pingdomCheck (stateMap.getD defaultPingdomStateMap))
      (pingdomChecks (world.pingdom username password accountEmail appKey)) ht

/-! ## What a poll leaves -/

/-- The last item about a host, and what it says. -/
def lastTold (tells : Json → Res (Option (String × Bool))) (items : List Json) (host : String) :
    Option Bool :=
  items.reverse.findSome? fun item =>
    match tells item with
    | .ok (some (host', healthy)) => if host' = host then some healthy else none
    | _ => none

/-- Does the tester ask a service? -/
def HealthTester.Remote : HealthTester → Prop
  | .nodeping _ => True
  | .pingdom _ _ _ _ _ => True
  | _ => False

/-- What a service says about a host. -/
def Outside.tells (world : Outside) : HealthTester → String → Option Bool
  | .nodeping token, host =>
    (nodepingItems (world.nodeping token)).bind (lastTold nodepingItem · host)
  | .pingdom username password accountEmail appKey stateMap, host =>
    (pingdomChecks (world.pingdom username password accountEmail appKey)).bind
      (lastTold (pingdomCheck (stateMap.getD defaultPingdomStateMap)) · host)
  | _, _ => none

section
variable {tells : Json → Res (Option (String × Bool))} {items : List Json} {state state' : GoMap String Bool}
variable {lib : FileLibrary} {world : Outside} {ht ht' : HealthTest} {result : Bool}

/-- The loop leaves, for every host, what the last item about it says. -/
lemma stateOf_lookup (h : stateOf tells items state = .ok state') (host : String) :
    state'.lookup host = (lastTold tells items host).or (state.lookup host) := by
  induction items generalizing state with
  | nil =>
    cases h
    rfl
  | cons item items ih =>
    obtain ⟨state₁, turn, h⟩ := Res.bind_eq_ok.mp h
    obtain ⟨said, hsaid, turn⟩ := Res.bind_eq_ok.mp turn
    have later : lastTold tells (item :: items) host =
        (lastTold tells items host).or (lastTold tells [item] host) := by
      rw [lastTold, List.reverse_cons, List.findSome?_append]
      rfl
    have here : state₁.lookup host = (lastTold tells [item] host).or (state.lookup host) := by
      unfold lastTold
      rw [List.reverse_singleton, List.findSome?_singleton, hsaid]
      cases said with
      | none =>
        cases turn
        rfl
      | some said =>
        cases turn
        rw [GoMap.lookup_insert_eq_ite]
        by_cases same : said.1 = host
        · simp [same]
        · simp [same, Ne.symm same]
    rw [ih h, here, later, Option.or_assoc]

/-- A service is believed if its answer can be read; if not, the test stays as it is. -/
lemma remoteTest_eq_ok {items : Option (List Json)} (h : remoteTest tells items ht = .ok (result, ht')) :
    ∃ g, ht' = ht.setGlobal g ∧ (result = false → g = ht.globalMap) ∧
      (result = true → ∀ host, g.lookup host = items.bind (lastTold tells · host)) := by
  cases items with
  | none =>
    cases h
    exact ⟨ht.globalMap, rfl, fun _ => rfl, nofun⟩
  | some items =>
    obtain ⟨state, hstate, h⟩ := Res.bind_eq_ok.mp h
    cases h
    refine ⟨state, rfl, nofun, fun _ host => ?_⟩
    rw [stateOf_lookup hstate, AList.lookup_empty, Option.or_none]
    rfl

/-- A call of the file tester changes nothing of the test but its map. -/
lemma fileTest_setGlobal (t : FileHealthTester) (file : FileState) :
    ∃ g, (t.test lib file ht).2.2 = ht.setGlobal g := by
  have same : ∃ g, ht = ht.setGlobal g := ⟨ht.globalMap, rfl⟩
  unfold FileHealthTester.test
  split_ifs
  · exact same
  cases file with
  | missing => exact same
  | noStat => exact same
  | present modTime contents =>
    dsimp only
    split_ifs
    · exact same
    cases contents with
    | none => exact same
    | some bytes =>
      dsimp only
      split_ifs
      · exact same
      cases lib.unmarshal bytes with
      | error err => exact same
      | ok m => exact ⟨m, rfl⟩

/-- A poll changes nothing of the test but its map. -/
lemma poll_setGlobal (h : ht.poll lib world = .ok (result, ht')) : ∃ g, ht' = ht.setGlobal g := by
  have same : ∃ g, ht = ht.setGlobal g := ⟨ht.globalMap, rfl⟩
  unfold HealthTest.poll at h
  split at h
  · cases h
    exact same
  · cases h
    exact same
  · cases h
    exact same
  · cases h
    exact fileTest_setGlobal _ _
  · split_ifs at h
    · cases h
      exact same
    · obtain ⟨g, e, _⟩ := remoteTest_eq_ok h
      exact ⟨g, e⟩
  · split_ifs at h
    · cases h
      exact same
    · obtain ⟨g, e, _⟩ := remoteTest_eq_ok h
      exact ⟨g, e⟩

/-- A poll of a service leaves what the service says if it is successful, and the map as it was if not. -/
lemma poll_remote (h : ht.poll lib world = .ok (result, ht')) (remote : ht.tester.Remote) :
    (result = false → ht'.globalMap = ht.globalMap) ∧
      (result = true → ∀ host, ht'.globalMap.lookup host = world.tells ht.tester host) := by
  unfold HealthTest.poll at h
  cases tester : ht.tester with
  | nodeping token =>
    rw [tester] at h
    dsimp only at h
    split_ifs at h
    · cases h
      exact ⟨fun _ => rfl, nofun⟩
    · obtain ⟨g, rfl, kept, told⟩ := remoteTest_eq_ok h
      exact ⟨kept, told⟩
  | pingdom username password accountEmail appKey stateMap =>
    rw [tester] at h
    dsimp only at h
    split_ifs at h
    · cases h
      exact ⟨fun _ => rfl, nofun⟩
    · obtain ⟨g, rfl, kept, told⟩ := remoteTest_eq_ok h
      exact ⟨kept, told⟩
  | _ =>
    rw [tester] at remote
    exact remote.elim

end
end GeoDNS.Healthtest
