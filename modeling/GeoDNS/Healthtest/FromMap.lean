import GeoDNS.Healthtest.Test
import GeoDNS.Typeutil

/-!
# Health tests from parameter maps

`NewFromMap` of `health/healthtest/healthtest.go` and the builders of the testers in
`health/healthtest/healthtesters.go`. The builder of the tester may adjust the default parameters; then a
loop over the map, in any order, sets the parameters that have a key of their own.

The key `timeout` sets the field of `retry_time`, and a number of seconds that is too large for a
`time.Duration` wraps around. `parameters_as_given_iff` says for which maps every parameter is what the map
gives nevertheless.
-/

namespace GeoDNS.Healthtest
open GeoDNS.Lib

/-! ## The builders -/

/-- A number among the parameters, or its default. -/
def intParam (params : GoMap String Json) (k : String) (default : Int) : Res Int :=
  (params.lookup k).elim (.ok default) Typeutil.toInt

/-- A text among the parameters, or its default. -/
def stringParam (params : GoMap String Json) (k : String) (default : String) : Res String :=
  (params.lookup k).elim (.ok default) Typeutil.toString

/-- A tester of the parameters, and the parameters of its test (Go `healthTesterBuilder`). -/
abbrev HealthTesterBuilder := GoMap String Json → Parameters → Res (HealthTester × Parameters)

/-- Go `newTcpHealthTester`. -/
def newTcpHealthTester : HealthTesterBuilder := fun params htp => do
  let port ← intParam params "port" 80
  return (.tcp port, htp)

/-- Go `newNtpHealthTester`. -/
def newNtpHealthTester : HealthTesterBuilder := fun params htp => do
  let maxStratum ← intParam params "max_stratum" 3
  return (.ntp maxStratum, htp)

/-- Go `newExecHealthTester`. -/
def newExecHealthTester : HealthTesterBuilder := fun params htp => do
  let cmd ← stringParam params "cmd" "echo '%s'"
  return (.exec cmd, htp)

/-- Go `newFileHealthTester`. -/
def newFileHealthTester : HealthTesterBuilder := fun params htp => do
  let path ← stringParam params "path" ""
  return (.file path, { htp with global := true })

/-- Go `newNodepingHealthTester`. Only nodes that are down are reported, so the others are taken to be up. -/
def newNodepingHealthTester : HealthTesterBuilder := fun params htp => do
  let token ← stringParam params "token" ""
  return (.nodeping token, { htp with healthyInitially := true, global := true })

/-- The parameter `state_map`, which is ignored if it is no object. -/
def readStateMap : Json → Res (Option (GoMap String Bool))
  | .obj l => do
    let m ← (Json.fields l).entries.foldlM (fun m e => do
      let b ← Typeutil.toBool e.2
      return m.insert e.1 b) (∅ : GoMap String Bool)
    return some m
  | _ => .ok none

/-- Go `newPingdomHealthTester`. -/
def newPingdomHealthTester : HealthTesterBuilder := fun params htp => do
  let username ← stringParam params "username" ""
  let password ← stringParam params "password" ""
  let accountEmail ← stringParam params "account_email" ""
  let appKey ← stringParam params "app_key" ""
  let stateMap ← (params.lookup "state_map").elim (.ok none) readStateMap
  return (.pingdom username password accountEmail appKey stateMap, { htp with global := true })

/-- Go `HealthTesterMap`. -/
def healthTesterMap : GoMap String HealthTesterBuilder :=
  GoMap.ofPairs [("tcp", newTcpHealthTester), ("ntp", newNtpHealthTester), ("exec", newExecHealthTester),
    ("file", newFileHealthTester), ("nodeping", newNodepingHealthTester),
    ("pingdom", newPingdomHealthTester)]

/-! ## The parameters -/

/-- The duration `time.Duration(n) * time.Second`, a product of 64-bit integers. -/
def durationOf (n : Int) : Int :=
  (Int64.ofInt n * Int64.ofInt second).toInt

/-- One turn of the loop over the map. -/
def setParameter (htp : Parameters) (e : Σ _ : String, Json) : Res Parameters :=
  if e.1 = "frequency" then do
    let n ← Typeutil.toInt e.2
    return { htp with frequency := durationOf n }
  else if e.1 = "retry_time" then do
    let n ← Typeutil.toInt e.2
    return { htp with retryTime := durationOf n }
  else if e.1 = "timeout" then do
    let n ← Typeutil.toInt e.2
    return { htp with retryTime := durationOf n }
  else if e.1 = "retries" then do
    let n ← Typeutil.toInt e.2
    return { htp with retries := Int64.ofInt n }
  else if e.1 = "healthy_initially" then do
    let b ← Typeutil.toBool e.2
    return { htp with healthyInitially := b }
  else return htp

/-- Go `NewFromMap`. The order of the map is the order in which the loop comes to its entries. -/
def newFromMap (i : GoMap String Json) : Res (Except String HealthTest) := do
  let ts ← Typeutil.toString (Json.getKey i "type")
  if ts = "" then return .error "type required"
  match healthTesterMap.lookup ts with
  | none => return .error ("Bad health test type '" ++ ts ++ "'")
  | some nh =>
    let (h, htp) ← nh i { defaultParameters with testName := ts }
    let htp ← i.entries.foldlM setParameter htp
    return .ok (.newTest [] htp h)

/-! ## What the map gives -/

/-- The map gives this number under the key. -/
def GivesInt (i : GoMap String Json) (key : String) (n : Int) : Prop :=
  ∃ v, i.lookup key = some v ∧ Typeutil.toInt v = .ok n

/-- A parameter is what the map gives under its key, or else its default. -/
def Given {α : Type} (i : GoMap String Json) (key : String) (gives : Json → α → Prop) (default value : α) :
    Prop :=
  (i.lookup key = none ∧ value = default) ∨ ∃ v, i.lookup key = some v ∧ gives v value

/-- A number of seconds, raised to one. -/
def GivesSeconds (v : Json) (d : Int) : Prop :=
  ∃ n, Typeutil.toInt v = .ok n ∧ d = max n 1 * second

/-- The parameters of the test are those of the map. -/
structure AsGiven (i : GoMap String Json) (ht : HealthTest) : Prop where
  frequency : Given i "frequency" GivesSeconds (30 * second) ht.frequency
  retryTime : Given i "retry_time" GivesSeconds (5 * second) ht.retryTime
  timeout : Given i "timeout" GivesSeconds (5 * second) ht.timeout
  retries : Given i "retries" (fun v n => Typeutil.toInt v = .ok n) 3 ht.retries.toInt
  -- a nodeping test is healthy by default
  healthyInitially : Given i "healthy_initially" (fun v b => Typeutil.toBool v = .ok b)
    (Typeutil.toString (Json.getKey i "type") = .ok "nodeping") ht.healthyInitially

/-- The number of seconds is none that becomes another one by wrapping around. -/
def Fits (n : Int) : Prop :=
  n ≤ 9223372036 ∧ (n ≤ 0 → (n * second).bmod (2 ^ 64) ≤ second)

/-- The numbers of seconds fit, and if there is a timeout, it is the default one, and so is the retry
    time. -/
structure Unmixed (i : GoMap String Json) : Prop where
  frequency : ∀ n, GivesInt i "frequency" n → Fits n
  retryTime : ∀ n, GivesInt i "retry_time" n → Fits n
  timeout : ∀ n, GivesInt i "timeout" n → n = 5 ∧ ∀ m, GivesInt i "retry_time" m → m = 5

section
variable {i i' : GoMap String Json} {ht : HealthTest} {htp htp' : Parameters} {e : Σ _ : String, Json}

/-! ## The arithmetic of seconds -/

/-- A number of seconds in nanoseconds, in 64 bits. -/
lemma durationOf_eq (n : Int) : durationOf n = (n * second).bmod (2 ^ 64) := by
  unfold durationOf
  rw [← Int64.ofInt_mul, Int64.toInt_ofInt]
  rfl

/-- A duration is the number of seconds, raised to one, exactly if the number fits. -/
lemma raise_durationOf_iff (n : Int) :
    (if durationOf n < second then second else durationOf n) = max n 1 * second ↔ Fits n := by
  rw [durationOf_eq]
  unfold Fits second
  have wraps : (n * 1000000000).bmod (2 ^ 64) = n * 1000000000 ↔
      -2 ^ 63 ≤ n * 1000000000 ∧ n * 1000000000 < 2 ^ 63 := by
    rw [Int.bmod_def]
    omega
  have bounds : -2 ^ 63 ≤ (n * 1000000000).bmod (2 ^ 64) ∧ (n * 1000000000).bmod (2 ^ 64) < 2 ^ 63 := by
    rw [Int.bmod_def]
    omega
  generalize (n * 1000000000).bmod (2 ^ 64) = d at *
  omega

/-! ## The loop -/

/-- A value is read as this duration. -/
def ReadsDuration (v : Json) (d : Int) : Prop :=
  ∃ n, Typeutil.toInt v = .ok n ∧ d = durationOf n

/-- What a turn of the loop does. -/
inductive Sets (htp : Parameters) (e : Σ _ : String, Json) (htp' : Parameters) : Prop
  | frequency {d} (key : e.1 = "frequency") (reads : ReadsDuration e.2 d)
      (eq : htp' = { htp with frequency := d })
  | retryTime {d} (key : e.1 = "retry_time" ∨ e.1 = "timeout") (reads : ReadsDuration e.2 d)
      (eq : htp' = { htp with retryTime := d })
  | retries {n} (key : e.1 = "retries") (reads : Typeutil.toInt e.2 = .ok n)
      (eq : htp' = { htp with retries := Int64.ofInt n })
  | healthyInitially {b} (key : e.1 = "healthy_initially") (reads : Typeutil.toBool e.2 = .ok b)
      (eq : htp' = { htp with healthyInitially := b })
  | nothing (other : e.1 ∉ ["frequency", "retry_time", "timeout", "retries", "healthy_initially"])
      (eq : htp' = htp)

/-- One turn of the loop sets the parameter of its key. -/
lemma setParameter_sets (h : setParameter htp e = .ok htp') : Sets htp e htp' := by
  unfold setParameter at h
  split_ifs at h with hfrequency hretry htimeout hretries hhealthy
  · obtain ⟨n, reads, h⟩ := Res.bind_eq_ok.mp h
    cases h
    exact .frequency hfrequency ⟨n, reads, rfl⟩ rfl
  · obtain ⟨n, reads, h⟩ := Res.bind_eq_ok.mp h
    cases h
    exact .retryTime (.inl hretry) ⟨n, reads, rfl⟩ rfl
  · obtain ⟨n, reads, h⟩ := Res.bind_eq_ok.mp h
    cases h
    exact .retryTime (.inr htimeout) ⟨n, reads, rfl⟩ rfl
  · obtain ⟨n, reads, h⟩ := Res.bind_eq_ok.mp h
    cases h
    exact .retries hretries reads rfl
  · obtain ⟨b, reads, h⟩ := Res.bind_eq_ok.mp h
    cases h
    exact .healthyInitially hhealthy reads rfl
  · cases h
    exact .nothing (by simp [*]) rfl

/-- Whether a turn returns does not depend on what has been set before. -/
lemma setParameter_returns (htp htp' : Parameters) (e : Σ _ : String, Json) :
    (∃ r, setParameter htp e = .ok r) ↔ ∃ r, setParameter htp' e = .ok r := by
  have plain : ∀ {α : Type} (x : Res α) (f g : α → Parameters),
      (∃ r, (x >>= fun a => pure (f a)) = .ok r) ↔ ∃ r, (x >>= fun a => pure (g a)) = .ok r := by
    intro α x f g
    cases x <;> simp
  unfold setParameter
  split_ifs
  · exact plain _ _ _
  · exact plain _ _ _
  · exact plain _ _ _
  · exact plain _ _ _
  · exact plain _ _ _
  · simp

/-- Whether the loop returns depends neither on the order nor on what has been set before. -/
lemma setParameters_returns {es es' : List (Σ _ : String, Json)} (perm : es'.Perm es)
    (h : es.foldlM setParameter htp = .ok htp') (start : Parameters) :
    ∃ r, es'.foldlM setParameter start = .ok r := by
  have returns := fun s a => setParameter_returns s htp a
  have all := (Res.foldlM_returns_iff returns).mp ⟨htp', h⟩
  exact (Res.foldlM_returns_iff returns).mpr fun a mem => all a (perm.mem_iff.mp mem)

section
variable (h : i.entries.foldlM setParameter htp = .ok htp')
include h

/-- The parameters that the loop leaves alone. -/
lemma loop_rest : htp'.timeout = htp.timeout ∧ htp'.testName = htp.testName ∧ htp'.global = htp.global := by
  refine Res.foldlM_invariant
    (fun s => s.timeout = htp.timeout ∧ s.testName = htp.testName ∧ s.global = htp.global)
    (fun s e s' _ kept turn => ?_) ⟨rfl, rfl, rfl⟩ h
  cases setParameter_sets turn <;> simp_all

/-- A parameter that is set under one key only. -/
lemma loop_part {α : Type} (part : Parameters → α) (key : String) {gives : Json → α → Prop}
    (here : ∀ {s v s'}, Sets s ⟨key, v⟩ s' → gives v (part s'))
    (skips : ∀ {s e s'}, e ∈ i.entries → e.1 ≠ key → Sets s e s' → part s' = part s) :
    Given i key gives (part htp) (part htp') :=
  GoMap.foldlM_part part key gives (fun _ _ _ turn => here (setParameter_sets turn))
    (fun _ _ _ mem ne turn => skips mem ne (setParameter_sets turn)) i.nodupKeys h

/-- The frequency after the loop is the one of its key, or else that from before. -/
lemma loop_frequency :
    Given i "frequency" ReadsDuration htp.frequency htp'.frequency := by
  refine loop_part h (·.frequency) "frequency" ?_ ?_
  · intro s v s' sets
    cases sets with
    | frequency _ reads eq => exact eq ▸ reads
    | _ => simp_all
  · intro s e s' _ ne sets
    cases sets <;> simp_all

/-- The retries after the loop are those of their key, or else those from before. -/
lemma loop_retries :
    Given i "retries" (fun v n => ∃ m, Typeutil.toInt v = .ok m ∧ n = Int64.ofInt m) htp.retries
      htp'.retries := by
  refine loop_part h (·.retries) "retries" ?_ ?_
  · intro s v s' sets
    cases sets with
    | retries _ reads eq => exact ⟨_, reads, eq ▸ rfl⟩
    | _ => simp_all
  · intro s e s' _ ne sets
    cases sets <;> simp_all

/-- The initial health after the loop is that of its key, or else that from before. -/
lemma loop_healthyInitially :
    Given i "healthy_initially" (fun v b => Typeutil.toBool v = .ok b) htp.healthyInitially
      htp'.healthyInitially := by
  refine loop_part h (·.healthyInitially) "healthy_initially" ?_ ?_
  · intro s v s' sets
    cases sets with
    | healthyInitially _ reads eq => rw [reads, eq]
    | _ => simp_all
  · intro s e s' _ ne sets
    cases sets <;> simp_all

/-- Of the two keys that set the retry time, one may not be in the map. -/
lemma loop_retryTime {key other : String}
    (keys : key = "retry_time" ∧ other = "timeout" ∨ key = "timeout" ∧ other = "retry_time")
    (absent : i.lookup other = none) :
    Given i key ReadsDuration htp.retryTime htp'.retryTime := by
  refine loop_part h (·.retryTime) key ?_ ?_
  · intro s v s' sets
    cases sets with
    | retryTime _ reads eq => exact eq ▸ reads
    | _ => rcases keys with ⟨rfl, rfl⟩ | ⟨rfl, rfl⟩ <;> simp_all
  · intro s e s' mem ne sets
    have ne' : e.1 ≠ other := by
      rintro rfl
      rw [GoMap.mem_entries_iff.mp mem] at absent
      cases absent
    cases sets <;> rcases keys with ⟨rfl, rfl⟩ | ⟨rfl, rfl⟩ <;> simp_all

/-- The retry time does not change if all that may set it is the same. -/
lemma loop_retryTime_of_same {d : Int}
    (same : ∀ k v d', k = "retry_time" ∨ k = "timeout" → i.lookup k = some v → ReadsDuration v d' → d' = d)
    (start : htp.retryTime = d) : htp'.retryTime = d := by
  refine Res.foldlM_invariant (fun s => s.retryTime = d) (fun s e s' mem kept turn => ?_) start h
  cases setParameter_sets turn with
  | retryTime key reads eq => exact eq ▸ same e.1 e.2 _ key (GoMap.mem_entries_iff.mp mem) reads
  | frequency _ _ eq => exact eq ▸ kept
  | retries _ _ eq => exact eq ▸ kept
  | healthyInitially _ _ eq => exact eq ▸ kept
  | nothing _ eq => exact eq ▸ kept

end

/-! ## The tester -/

section
variable {ts : String} {nh : HealthTesterBuilder} {h : HealthTester}

/-- The types of testers and their builders. -/
lemma healthTesterMap_cases (found : healthTesterMap.lookup ts = some nh) :
    (ts = "pingdom" ∧ nh = newPingdomHealthTester) ∨ (ts = "nodeping" ∧ nh = newNodepingHealthTester) ∨
      (ts = "file" ∧ nh = newFileHealthTester) ∨ (ts = "exec" ∧ nh = newExecHealthTester) ∨
      (ts = "ntp" ∧ nh = newNtpHealthTester) ∨ (ts = "tcp" ∧ nh = newTcpHealthTester) := by
  simp only [healthTesterMap, GoMap.ofPairs, List.foldl_cons, List.foldl_nil,
    GoMap.lookup_insert_eq_ite] at found
  split_ifs at found with hpingdom hnodeping hfile hexec hntp htcp <;> cases found <;> simp [*]

/-- A builder sets two flags at most. -/
lemma built_parameters (found : healthTesterMap.lookup ts = some nh) (built : nh i htp = .ok (h, htp')) :
    htp' = { htp with
      healthyInitially := htp.healthyInitially || ts = "nodeping"
      global := htp'.global } := by
  rcases healthTesterMap_cases found with
    ⟨rfl, rfl⟩ | ⟨rfl, rfl⟩ | ⟨rfl, rfl⟩ | ⟨rfl, rfl⟩ | ⟨rfl, rfl⟩ | ⟨rfl, rfl⟩
  · obtain ⟨_, _, built⟩ := Res.bind_eq_ok.mp built
    obtain ⟨_, _, built⟩ := Res.bind_eq_ok.mp built
    obtain ⟨_, _, built⟩ := Res.bind_eq_ok.mp built
    obtain ⟨_, _, built⟩ := Res.bind_eq_ok.mp built
    obtain ⟨_, _, built⟩ := Res.bind_eq_ok.mp built
    cases built
    simp
  all_goals
    obtain ⟨_, _, built⟩ := Res.bind_eq_ok.mp built
    cases built
    simp

/-- A builder looks the parameters up, in whatever order they are. -/
lemma build_congr (found : healthTesterMap.lookup ts = some nh) (same : ∀ k, i'.lookup k = i.lookup k) :
    nh i' htp = nh i htp := by
  rcases healthTesterMap_cases found with
    ⟨rfl, rfl⟩ | ⟨rfl, rfl⟩ | ⟨rfl, rfl⟩ | ⟨rfl, rfl⟩ | ⟨rfl, rfl⟩ | ⟨rfl, rfl⟩
  · simp only [newPingdomHealthTester, stringParam, same]
  · simp only [newNodepingHealthTester, stringParam, same]
  · simp only [newFileHealthTester, stringParam, same]
  · simp only [newExecHealthTester, stringParam, same]
  · simp only [newNtpHealthTester, intParam, same]
  · simp only [newTcpHealthTester, intParam, same]

end

/-- How a test is made from a map. -/
structure MadeFrom (i : GoMap String Json) (htp htp' : Parameters) : Prop where
  start : htp = { defaultParameters with
    healthyInitially := Typeutil.toString (Json.getKey i "type") = .ok "nodeping"
    testName := htp.testName
    global := htp.global }
  loop : i.entries.foldlM setParameter htp = .ok htp'

/-- What a test is made from, in whatever order the map is gone through. -/
lemma newFromMap_eq_ok (accepted : newFromMap i = .ok (.ok ht)) :
    ∃ h htp htp', MadeFrom i htp htp' ∧ ht = .newTest [] htp' h ∧
      ∀ i' htp'', i'.entries.Perm i.entries → i'.entries.foldlM setParameter htp = .ok htp'' →
        newFromMap i' = .ok (.ok (.newTest [] htp'' h)) := by
  unfold newFromMap at accepted
  obtain ⟨ts, type, accepted⟩ := Res.bind_eq_ok.mp accepted
  by_cases empty : ts = ""
  · rw [if_pos empty] at accepted
    cases accepted
  rw [if_neg empty] at accepted
  cases found : healthTesterMap.lookup ts with
  | none =>
    rw [found] at accepted
    cases accepted
  | some nh =>
    rw [found] at accepted
    obtain ⟨⟨h, htp⟩, built, accepted⟩ := Res.bind_eq_ok.mp accepted
    obtain ⟨htp', loop, accepted⟩ := Res.bind_eq_ok.mp accepted
    cases accepted
    refine ⟨h, htp, htp', ⟨?_, loop⟩, rfl, ?_⟩
    · have flags := built_parameters found built
      simp only [type, Res.ok.injEq]
      rw [flags]
      rfl
    · intro i' htp'' perm loop'
      have same : ∀ k, i'.lookup k = i.lookup k := fun k => AList.perm_lookup perm
      unfold newFromMap
      rw [Json.getKey, same, ← Json.getKey, type, Res.ok_bind, if_neg empty, found]
      dsimp only
      rw [build_congr found same, built, Res.ok_bind]
      dsimp only
      rw [loop']
      rfl

/-! ## What the loop makes of the map -/

/-- A key gives one value. -/
lemma Given.unique {α : Type} {key : String} {gives : Json → α → Prop} {default x y : α}
    (given : Given i key gives default x) (given' : Given i key gives default y)
    (functional : ∀ v a b, gives v a → gives v b → a = b) : x = y := by
  rcases given with ⟨absent, rfl⟩ | ⟨v, found, hx⟩
  · rcases given' with ⟨_, rfl⟩ | ⟨v, found, _⟩
    · rfl
    · cases absent.symm.trans found
  · rcases given' with ⟨absent, _⟩ | ⟨v', found', hy⟩
    · cases absent.symm.trans found
    · cases found.symm.trans found'
      exact functional v x y hx hy

/-- Only the value of the key matters. -/
lemma Given.congr {α : Type} {key : String} {gives : Json → α → Prop} {default x : α}
    (given : Given i key gives default x) (same : i'.lookup key = i.lookup key) :
    Given i' key gives default x := by
  unfold Given
  rw [same]
  exact given

/-- A value is read as one duration. -/
lemma readsDuration_unique (v : Json) (a b : Int) (ha : ReadsDuration v a) (hb : ReadsDuration v b) :
    a = b := by
  obtain ⟨n, hn, rfl⟩ := ha
  obtain ⟨m, hm, rfl⟩ := hb
  cases hn.symm.trans hm
  rfl

/-- A key gives one number. -/
lemma GivesInt.unique {key : String} {n m : Int} (gives : GivesInt i key n) (gives' : GivesInt i key m) :
    n = m := by
  obtain ⟨v, found, reads⟩ := gives
  obtain ⟨v', found', reads'⟩ := gives'
  cases found.symm.trans found'
  cases reads.symm.trans reads'
  rfl

/-- Only the value of the key matters for a number. -/
lemma GivesInt.congr {key : String} {n : Int} (gives : GivesInt i key n)
    (same : i'.lookup key = i.lookup key) : GivesInt i' key n := by
  unfold GivesInt
  rw [same]
  exact gives

/-- Whether a map is unmixed depends on the values of its keys only. -/
lemma Unmixed.congr (unmixed : Unmixed i) (same : ∀ k, i'.lookup k = i.lookup k) : Unmixed i' := by
  have gives : ∀ {k n}, GivesInt i' k n → GivesInt i k n := fun gives => gives.congr (same _).symm
  exact ⟨fun n h => unmixed.frequency n (gives h), fun n h => unmixed.retryTime n (gives h),
    fun n h => (unmixed.timeout n (gives h)).imp_right fun all m h' => all m (gives h')⟩

/-- What a map asks for depends on the values of its keys only. -/
lemma AsGiven.congr (asGiven : AsGiven i ht) (same : ∀ k, i'.lookup k = i.lookup k) : AsGiven i' ht := by
  refine ⟨asGiven.frequency.congr (same _), asGiven.retryTime.congr (same _),
    asGiven.timeout.congr (same _), asGiven.retries.congr (same _), ?_⟩
  rw [Json.getKey, same, ← Json.getKey]
  exact asGiven.healthyInitially.congr (same _)

/-- A key that is absent gives no number. -/
lemma not_givesInt {key : String} {n : Int} (absent : i.lookup key = none) : ¬ GivesInt i key n := by
  rintro ⟨v, found, _⟩
  cases absent.symm.trans found

/-- What a number of seconds in the map makes of a duration of the test. -/
lemma GivesInt.given_seconds_iff {key : String} {n default d : Int} (gives : GivesInt i key n) :
    Given i key GivesSeconds default d ↔ d = max n 1 * second := by
  obtain ⟨v, found, reads⟩ := gives
  constructor
  · rintro (⟨absent, _⟩ | ⟨v', found', m, reads', eq⟩)
    · cases absent.symm.trans found
    · cases found.symm.trans found'
      cases reads.symm.trans reads'
      exact eq
  · exact fun eq => .inr ⟨v, found, n, reads, eq⟩

/-- A duration of the test is that of the map exactly if the number of seconds fits. -/
lemma given_raise_iff {key : String} {default d : Int} (le : second ≤ default)
    (given : Given i key ReadsDuration default d) :
    Given i key GivesSeconds default (if d < second then second else d) ↔
      ∀ n, GivesInt i key n → Fits n := by
  rcases given with ⟨absent, rfl⟩ | ⟨v, found, n, reads, rfl⟩
  · rw [raise_of_le le]
    exact iff_of_true (.inl ⟨absent, rfl⟩) (fun n gives => absurd gives (not_givesInt absent))
  · have gives : GivesInt i key n := ⟨v, found, reads⟩
    rw [gives.given_seconds_iff, raise_durationOf_iff]
    exact ⟨fun fits m gives' => gives.unique gives' ▸ fits, fun fits => fits n gives⟩

/-- The number under a key that sets the retry time. -/
lemma givesInt_of_loop (h : i.entries.foldlM setParameter htp = .ok htp') {key : String} {v : Json}
    (found : i.lookup key = some v) (sets : key = "retry_time" ∨ key = "timeout") :
    ∃ n, GivesInt i key n := by
  have all := (Res.foldlM_returns_iff fun s a => setParameter_returns s htp a).mp ⟨htp', h⟩
  obtain ⟨r, turn⟩ := all _ (GoMap.mem_entries_iff.mpr found)
  cases setParameter_sets turn with
  | retryTime _ reads _ =>
    obtain ⟨n, reads, _⟩ := reads
    exact ⟨n, v, found, reads⟩
  | _ => rcases sets with rfl | rfl <;> simp_all

/-- Five seconds in nanoseconds. -/
lemma durationOf_five : durationOf 5 = 5 * second := by
  rw [durationOf_eq]
  decide

namespace MadeFrom

variable (made : MadeFrom i htp htp')
include made

/-- The test has the frequency that the map gives, or else the default. -/
lemma frequency : Given i "frequency" ReadsDuration (30 * second) htp'.frequency := by
  have given := loop_frequency made.loop
  rwa [made.start] at given

/-- The timeout of the test, which is always the default. -/
lemma timeout : htp'.timeout = 5 * second := by
  rw [(loop_rest made.loop).1, made.start]
  rfl

/-- The test has the retries that the map gives, or else the default. -/
lemma retries : Given i "retries" (fun v n => Typeutil.toInt v = .ok n) 3 htp'.retries.toInt := by
  have given := loop_retries made.loop
  rw [made.start] at given
  rcases given with ⟨absent, eq⟩ | ⟨v, found, n, reads, eq⟩
  · exact .inl ⟨absent, eq ▸ rfl⟩
  · have range := Typeutil.toInt_range reads
    rw [eq, Int64.toInt_ofInt_of_le range.1 range.2]
    exact .inr ⟨v, found, reads⟩

/-- The test has the initial health that the map gives, or else the default. -/
lemma healthyInitially : Given i "healthy_initially" (fun v b => Typeutil.toBool v = .ok b)
    (Typeutil.toString (Json.getKey i "type") = .ok "nodeping") htp'.healthyInitially := by
  have given := loop_healthyInitially made.loop
  rwa [made.start] at given

/-- Without a timeout the retry time has a key of its own. -/
lemma retryTime_of_no_timeout (absent : i.lookup "timeout" = none) :
    Given i "retry_time" ReadsDuration (5 * second) htp'.retryTime := by
  have given := loop_retryTime made.loop (.inl ⟨rfl, rfl⟩) absent
  rwa [made.start] at given

/-- The test has the retry time that the map gives, or else the default. -/
lemma retryTime (unmixed : Unmixed i) :
    Given i "retry_time" ReadsDuration (5 * second) htp'.retryTime := by
  cases timeout : i.lookup "timeout" with
  | none => exact made.retryTime_of_no_timeout timeout
  | some v =>
    obtain ⟨n, gives⟩ := givesInt_of_loop made.loop timeout (.inr rfl)
    have five : ∀ k m, k = "retry_time" ∨ k = "timeout" → GivesInt i k m → m = 5 := by
      rintro k m (rfl | rfl) gives'
      · exact (unmixed.timeout n gives).2 m gives'
      · exact (unmixed.timeout m gives').1
    have kept : htp'.retryTime = 5 * second := by
      refine loop_retryTime_of_same made.loop ?_ (made.start ▸ rfl)
      rintro k v d key found ⟨m, reads, rfl⟩
      rw [five k m key ⟨v, found, reads⟩, durationOf_five]
    rw [kept]
    cases retry : i.lookup "retry_time" with
    | none => exact .inl ⟨retry, rfl⟩
    | some w =>
      obtain ⟨m, w', found, reads⟩ := givesInt_of_loop made.loop retry (.inl rfl)
      refine .inr ⟨w', found, m, reads, ?_⟩
      rw [five _ m (.inl rfl) ⟨w', found, reads⟩, durationOf_five]

/-- The order in which the loop comes to the parameters makes no difference then. -/
lemma of_perm (unmixed : Unmixed i) (perm : i'.entries.Perm i.entries) {r : Parameters}
    (loop : i'.entries.foldlM setParameter htp = .ok r) : r = htp' := by
  have same : ∀ k, i.lookup k = i'.lookup k := fun k => AList.perm_lookup perm.symm
  have unmixed' : Unmixed i' := unmixed.congr fun k => (same k).symm
  have made' : MadeFrom i' htp r := by
    refine ⟨?_, loop⟩
    have start := made.start
    rwa [Json.getKey, same] at start
  have rest := loop_rest loop
  have rest' := loop_rest made.loop
  apply Parameters.ext
  · exact (made'.frequency.congr (same _)).unique made.frequency readsDuration_unique
  · exact ((made'.retryTime unmixed').congr (same _)).unique (made.retryTime unmixed) readsDuration_unique
  · refine Int64.toInt_inj.mp ((made'.retries.congr (same _)).unique made.retries ?_)
    exact fun v a b ha hb => Res.ok.inj (ha.symm.trans hb)
  · rw [rest.1, rest'.1]
  · have given := made'.healthyInitially
    rw [Json.getKey, ← same, ← Json.getKey] at given
    exact (given.congr (same _)).unique made.healthyInitially
      fun v a b ha hb => Res.ok.inj (ha.symm.trans hb)
  · rw [rest.2.1, rest'.2.1]
  · rw [rest.2.2, rest'.2.2]

/-- `NewTest` does not raise the timeout. -/
lemma newTest_timeout (h : HealthTester) : (HealthTest.newTest [] htp' h).timeout = 5 * second := by
  show (if htp'.timeout < second then second else htp'.timeout) = 5 * second
  rw [made.timeout]
  rfl

/-- All parameters are what the map gives then. -/
lemma asGiven (unmixed : Unmixed i) (h : HealthTester) : AsGiven i (.newTest [] htp' h) := by
  refine ⟨(given_raise_iff (by decide) made.frequency).mpr unmixed.frequency,
    (given_raise_iff (by decide) (made.retryTime unmixed)).mpr unmixed.retryTime, ?_, made.retries,
    made.healthyInitially⟩
  rw [made.newTest_timeout]
  cases found : i.lookup "timeout" with
  | none => exact .inl ⟨found, rfl⟩
  | some v =>
    obtain ⟨n, w, found, reads⟩ := givesInt_of_loop made.loop found (.inr rfl)
    obtain ⟨rfl, -⟩ := unmixed.timeout n ⟨w, found, reads⟩
    exact .inr ⟨w, found, 5, reads, rfl⟩

/-- A timeout that the test has is the default one. -/
lemma timeout_five {h : HealthTester} {n : Int} (asGiven : AsGiven i (.newTest [] htp' h))
    (gives : GivesInt i "timeout" n) : n = 5 := by
  have eq := gives.given_seconds_iff.mp asGiven.timeout
  rw [made.newTest_timeout] at eq
  unfold second at eq
  omega

end MadeFrom

/-- If the loop comes to the retry time first, the timeout replaces it. -/
lemma loop_timeout_last {v : Json} {n : Int} (gives : GivesInt i "timeout" n)
    (loop : (i.insert "retry_time" v).entries.foldlM setParameter htp = .ok htp') :
    htp'.retryTime = durationOf n := by
  rw [AList.entries_insert] at loop
  obtain ⟨s, _, loop⟩ := Res.bind_eq_ok.mp loop
  have given := @loop_retryTime (i.erase "retry_time") _ _ loop "timeout" "retry_time" (.inr ⟨rfl, rfl⟩)
    (AList.lookup_erase "retry_time" i)
  obtain ⟨w, found, reads⟩ := gives
  have kept : (i.erase "retry_time").lookup "timeout" = some w := by
    rw [GoMap.lookup_erase_eq_ite, if_neg (by decide), found]
  rcases given with ⟨absent, _⟩ | ⟨w', found', m, reads', eq⟩
  · cases absent.symm.trans kept
  · cases kept.symm.trans found'
    cases reads.symm.trans reads'
    exact eq

/-- In the order in which the timeout comes after the retry time, the test has the retry time of the map only
    if both are the default. -/
lemma retryTime_five {v : Json} {m : Int} (timeout : GivesInt i "timeout" 5)
    (gives : GivesInt (i.insert "retry_time" v) "retry_time" m)
    (accepted : newFromMap (i.insert "retry_time" v) = .ok (.ok ht))
    (asGiven : AsGiven (i.insert "retry_time" v) ht) : m = 5 := by
  obtain ⟨h, htp, r, made, rfl, -⟩ := newFromMap_eq_ok accepted
  have last := loop_timeout_last timeout made.loop
  have seconds := gives.given_seconds_iff.mp asGiven.retryTime
  change (if r.retryTime < second then second else r.retryTime) = _ at seconds
  rw [last, durationOf_five] at seconds
  unfold second at seconds
  omega

/-- For every map that is accepted: whatever the order in which the loop comes to the entries, the test is
    the same and its parameters are what the map gives, or else the defaults, exactly if all numbers of
    seconds fit and the timeout and the retry time beside it are not given or given as their defaults. -/
theorem parameters_as_given_iff (i : GoMap String Json) (ht : HealthTest)
    (accepted : newFromMap i = .ok (.ok ht)) :
    (∀ i' : GoMap String Json, i'.entries.Perm i.entries →
      newFromMap i' = .ok (.ok ht) ∧ AsGiven i' ht) ↔ Unmixed i := by
  obtain ⟨h, htp, htp', made, rfl, reordered⟩ := newFromMap_eq_ok accepted
  constructor
  · intro all
    obtain ⟨-, asGiven⟩ := all i (.refl _)
    have five : ∀ n, GivesInt i "timeout" n → n = 5 := fun n => made.timeout_five asGiven
    have fiveToo : ∀ n m, GivesInt i "timeout" n → GivesInt i "retry_time" m → m = 5 := by
      rintro n m gives ⟨v, found, reads⟩
      have same : ∀ k, (i.insert "retry_time" v).lookup k = i.lookup k := by
        intro k
        rw [GoMap.lookup_insert_eq_ite]
        split
        · next eq => rw [eq, found]
        · rfl
      obtain ⟨accepted', asGiven'⟩ := all _ (GoMap.perm_of_lookup same)
      exact retryTime_five (five n gives ▸ gives) ⟨v, (same _).trans found, reads⟩ accepted' asGiven'
    refine ⟨(given_raise_iff (by decide) made.frequency).mp asGiven.frequency, ?_,
      fun n gives => ⟨five n gives, fun m => fiveToo n m gives⟩⟩
    cases absent : i.lookup "timeout" with
    | none => exact (given_raise_iff (by decide) (made.retryTime_of_no_timeout absent)).mp asGiven.retryTime
    | some v =>
      intro m gives
      obtain ⟨n, gives'⟩ := givesInt_of_loop made.loop absent (.inr rfl)
      rw [fiveToo n m gives' gives]
      exact ⟨by decide, by decide⟩
  · intro unmixed i' perm
    obtain ⟨r, loop⟩ := setParameters_returns perm made.loop htp
    obtain rfl : r = htp' := made.of_perm unmixed perm loop
    exact ⟨reordered i' r perm loop, (made.asGiven unmixed h).congr fun k => AList.perm_lookup perm⟩

end

/-- A TCP test every ten seconds, with the timeout that is the default one. -/
def smallParameters : GoMap String Json :=
  GoMap.ofPairs [("type", .str "tcp"), ("frequency", .str "10"), ("timeout", .str "5")]

/-- The values of the keys in the example. -/
lemma lookup_smallParameters (k : String) : smallParameters.lookup k =
    if k = "timeout" then some (.str "5") else if k = "frequency" then some (.str "10")
    else if k = "type" then some (.str "tcp") else none := by
  simp only [smallParameters, GoMap.ofPairs, List.foldl_cons, List.foldl_nil, GoMap.lookup_insert_eq_ite]
  rfl

/-- The parameters of that test are those of the map. -/
theorem small_parameters_given :
    ∃ ht, newFromMap smallParameters = .ok (.ok ht) ∧ AsGiven smallParameters ht := by
  have five : Typeutil.toInt (.str "5") = .ok 5 := by decide
  have ten : Typeutil.toInt (.str "10") = .ok 10 := by decide
  have unmixed : Unmixed smallParameters := by
    refine ⟨?_, ?_, ?_⟩
    · rintro n ⟨v, found, reads⟩
      rw [lookup_smallParameters] at found
      cases found
      cases ten.symm.trans reads
      exact ⟨by decide, by decide⟩
    · rintro n ⟨v, found, _⟩
      rw [lookup_smallParameters] at found
      cases found
    · rintro n ⟨v, found, reads⟩
      rw [lookup_smallParameters] at found
      cases found
      cases five.symm.trans reads
      refine ⟨rfl, ?_⟩
      rintro m ⟨v, found, _⟩
      rw [lookup_smallParameters] at found
      cases found
  obtain ⟨ht, accepted⟩ : ∃ ht, newFromMap smallParameters = .ok (.ok ht) := ⟨_, rfl⟩
  exact ⟨ht, accepted, ((parameters_as_given_iff smallParameters ht accepted).mpr unmixed _ (.refl _)).2⟩

/-- A retry time and a timeout, the timeout first. -/
def mixedParameters : GoMap String Json :=
  GoMap.ofPairs [("type", .str "tcp"), ("retry_time", .str "7"), ("timeout", .str "2")]

/-- The same map, the retry time first. -/
def mixedParameters' : GoMap String Json :=
  GoMap.ofPairs [("type", .str "tcp"), ("timeout", .str "2"), ("retry_time", .str "7")]

/-- The timeout is the default one although the map gives another, and the retry time is the one or the other
    number, depending on the order. -/
theorem timeout_sets_retryTime : mixedParameters'.entries.Perm mixedParameters.entries ∧
    ∃ ht ht', newFromMap mixedParameters = .ok (.ok ht) ∧ newFromMap mixedParameters' = .ok (.ok ht') ∧
      ht.retryTime = 7 * second ∧ ht'.retryTime = 2 * second ∧ ht.timeout = 5 * second ∧
      ¬ AsGiven mixedParameters ht := by
  refine ⟨?_, _, _, rfl, rfl, rfl, rfl, rfl, ?_⟩
  · exact .swap _ _ _
  · intro asGiven
    have two : GivesInt mixedParameters "timeout" 2 := ⟨.str "2", rfl, by decide⟩
    exact absurd (two.given_seconds_iff.mp asGiven.timeout) (by decide)

end GeoDNS.Healthtest
