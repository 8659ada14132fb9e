import GeoDNS.Health.Registry
import GeoDNS.Lib.RawJson

/-!
# The values of status files

The decoding of a status file: `encoding/json` and `Service.UnmarshalJSON` of `health/status_file.go`. A
check is given a number, which is narrowed to the eight bits of a `StatusType` without a look at its size; a
`null` makes no `Service` at all and leaves a nil pointer in the map.

`status_read_iff` says for which values `GetStatus` reports what the file says.
-/

namespace GeoDNS.Health
open GeoDNS.Lib

/-- Decode the value of a check. The decoder sets a pointer to nil for a `null`, and calls
    `Service.UnmarshalJSON` for anything else. -/
def decodeService : RawJson → Except String (Option StatusType)
  | .null => .ok none
  | .num literal =>
    match atoi literal with
    | some i => .ok (some (UInt8.ofInt i))
    | none => .error ((RawJson.num literal).typeError "int64")
  | j => .error (j.typeError "int64")

/-- Decode the fields of a status file; the first error is the one that is returned. -/
def decodeServices : List (String × RawJson) → Except String (List (String × Option StatusType))
  | [] => .ok []
  | (check, value) :: fields => do
    let service ← decodeService value
    let services ← decodeServices fields
    return (check, service) :: services

/-- Decode a status file into an empty `StatusFileData`; a `null` makes the map nil. -/
def decodeStatusFile : RawJson → Content
  | .null => .ok none
  | .obj fields => do
    let services ← decodeServices fields
    return some (GoMap.ofPairs services)
  | j => .error (j.typeError "health.StatusFileData")

/-- The health directory whose files have these contents, or cannot be read or parsed. -/
def Directory.ofDocuments (list : Except String (List FileInfo)) (doc : String → Except String RawJson) :
    Directory where
  list := list
  content filename := do
    let j ← doc filename
    decodeStatusFile j

/-- The value of a check in a document; of two fields with the same name the later one counts. -/
def checkValue (j : RawJson) (check : String) : Option RawJson :=
  match j with
  | .obj fields => (GoMap.ofPairs fields).lookup check
  | _ => none

/-- The document maps the check to this number. -/
def MapsTo (j : RawJson) (check : String) (n : Int) : Prop :=
  ∃ literal, checkValue j check = some (.num literal) ∧ atoi literal = some n

section
variable {j : RawJson} {check : String}

/-- The services are decoded one by one. -/
lemma decodeServices_forall₂ {fields : List (String × RawJson)}
    {services : List (String × Option StatusType)} (h : decodeServices fields = .ok services) :
    List.Forall₂ (fun e e' => e.1 = e'.1 ∧ decodeService e.2 = .ok e'.2) fields services := by
  induction fields generalizing services with
  | nil =>
    cases h
    exact .nil
  | cons e fields ih =>
    obtain ⟨key, value⟩ := e
    unfold decodeServices at h
    cases here : decodeService value with
    | error err =>
      rw [here] at h
      cases h
    | ok service =>
      cases rest : decodeServices fields with
      | error err =>
        rw [here, rest] at h
        cases h
      | ok services' =>
        rw [here, rest] at h
        cases h
        exact .cons ⟨rfl, here⟩ (ih rest)

/-- The status that is reported for a value, once it is decoded. -/
def statusOf : Option (Option StatusType) → Res StatusType
  | none => .ok statusUnknown
  | some service => Res.get service .nilDeref

/-- A file that has been loaded looks up the check. -/
lemma getStatus_of_some (filename : String) (m : StatusFileData) (check : String) :
    StatusFile.getStatus ⟨filename, some m⟩ check = statusOf (m.lookup check) := by
  change (match m.lookup check with | none => _ | some st => _) = _
  cases m.lookup check <;> rfl

/-- Looking up a check in the decoded document is decoding the value that the document has for it. -/
lemma getStatus_decoded {m : Option StatusFileData} (h : decodeStatusFile j = .ok m)
    (filename check : String) : ∃ service,
      Option.Rel (fun value service => decodeService value = .ok service) (checkValue j check) service ∧
      StatusFile.getStatus ⟨filename, m⟩ check = statusOf service := by
  cases j with
  | null =>
    cases h
    exact ⟨none, .none, rfl⟩
  | obj fields =>
    change (decodeServices fields >>= fun services => .ok (some (GoMap.ofPairs services))) = _ at h
    cases decoded : decodeServices fields with
    | error err =>
      rw [decoded] at h
      cases h
    | ok services =>
      rw [decoded] at h
      cases h
      exact ⟨_, GoMap.rel_ofPairs (decodeServices_forall₂ decoded) check, getStatus_of_some ..⟩
  | bool _ => cases h
  | num _ => cases h
  | str _ => cases h
  | arr _ => cases h

/-! ## Which values are read as they are written -/

/-- The file reports the check as the document has it. -/
def ReadsExactly (s : StatusFile) (j : RawJson) (check : String) : Prop :=
  ∃ st, s.getStatus check = .ok st ∧
    (st = statusHealthy ↔ MapsTo j check 2) ∧ (st = statusUnhealthy ↔ MapsTo j check 1)

/-- The value is not `null`, and its number is not one that only becomes a 1 or a 2 by losing all but its
    last eight bits. -/
def Narrow : RawJson → Prop
  | .null => False
  | .num literal => ∀ i, atoi literal = some i → i % 256 = 1 ∨ i % 256 = 2 → i = i % 256
  | _ => True

/-- A status of 8 bits is the number without its upper bits. -/
lemma ofInt_eq_iff (i : Int) (n : Nat) (small : n < 256) : UInt8.ofInt i = UInt8.ofNat n ↔ i % 256 = n := by
  rw [← UInt8.toNat_inj]
  have : (UInt8.ofInt i).toNat = (i % 256).toNat := by
    have : i % 256 < 256 := by omega
    simpa [UInt8.ofInt] using this
  rw [this, UInt8.toNat_ofNat_of_lt' small]
  omega

/-- A number as a value is the number that the check is mapped to. -/
lemma mapsTo_num {literal : String} {i : Int} (value : checkValue j check = some (.num literal))
    (number : atoi literal = some i) (n : Int) : MapsTo j check n ↔ i = n := by
  constructor
  · rintro ⟨literal', value', number'⟩
    cases value.symm.trans value'
    exact Option.some.inj (number.symm.trans number')
  · rintro rfl
    exact ⟨literal, value, number⟩

/-- A check without a value is not mapped to a number. -/
lemma not_mapsTo_of_none (value : checkValue j check = none) (n : Int) : ¬ MapsTo j check n := by
  rintro ⟨literal, value', -⟩
  cases value.symm.trans value'

/-- A number is read as it is written if none of the bits that are lost matter. -/
lemma readsExactly_num {s : StatusFile} {literal : String} {i : Int}
    (value : checkValue j check = some (.num literal)) (number : atoi literal = some i)
    (reported : s.getStatus check = .ok (UInt8.ofInt i)) :
    ReadsExactly s j check ↔ (i % 256 = 1 ∨ i % 256 = 2 → i = i % 256) := by
  have healthy := ofInt_eq_iff i 2 (by decide)
  have unhealthy := ofInt_eq_iff i 1 (by decide)
  constructor
  · rintro ⟨st, reported', two, one⟩
    cases reported.symm.trans reported'
    rw [mapsTo_num value number] at two one
    have two := healthy.symm.trans two
    have one := unhealthy.symm.trans one
    omega
  · intro narrow
    refine ⟨_, reported, ?_, ?_⟩
    · rw [mapsTo_num value number]
      refine healthy.trans ?_
      omega
    · rw [mapsTo_num value number]
      refine unhealthy.trans ?_
      omega

/-- A value that is decoded is reported as it is written if it is narrow. -/
lemma readsExactly_iff_narrow {s : StatusFile} {value : RawJson} {service : Option StatusType}
    (has : checkValue j check = some value) (decoded : decodeService value = .ok service)
    (reported : s.getStatus check = statusOf (some service)) : ReadsExactly s j check ↔ Narrow value := by
  cases value with
  | null =>
    cases decoded
    refine iff_of_false ?_ id
    rintro ⟨st, reported', -⟩
    cases reported.symm.trans reported'
  | num literal =>
    change (match atoi literal with | some i => _ | none => _) = _ at decoded
    cases number : atoi literal with
    | none =>
      rw [number] at decoded
      cases decoded
    | some i =>
      rw [number] at decoded
      cases decoded
      rw [readsExactly_num has number reported]
      simp [Narrow, number]
  | bool _ => cases decoded
  | str _ => cases decoded
  | arr _ => cases decoded
  | obj _ => cases decoded

/-- A check that the document does not have is reported as unknown. -/
lemma readsExactly_of_none {s : StatusFile} (has : checkValue j check = none)
    (reported : s.getStatus check = statusOf none) : ReadsExactly s j check := by
  refine ⟨statusUnknown, reported, ?_, ?_⟩
  · exact iff_of_false (by decide) (not_mapsTo_of_none has 2)
  · exact iff_of_false (by decide) (not_mapsTo_of_none has 1)

/-- For every document that `Load` accepts: the status of a check is reported as the document has it exactly
    if the value of the check, where there is one, is not `null` and fits a `StatusType` as far as it can be
    mistaken for one. -/
theorem status_read_iff (list : Except String (List FileInfo)) (doc : String → Except String RawJson)
    (s : StatusFile) (filename : String) (j : RawJson) (check : String) (document : doc filename = .ok j)
    (accepted : (s.load (.ofDocuments list doc) filename).2 = none) :
    ReadsExactly (s.load (.ofDocuments list doc) filename).1 j check ↔
      ∀ value, checkValue j check = some value → Narrow value := by
  have content : (Directory.ofDocuments list doc).content filename = decodeStatusFile j := by
    change (doc filename >>= decodeStatusFile) = _
    rw [document]
    rfl
  unfold StatusFile.load at accepted ⊢
  rw [content] at accepted ⊢
  cases decoded : decodeStatusFile j with
  | error err =>
    rw [decoded] at accepted
    cases accepted
  | ok m =>
    change ReadsExactly ⟨s.filename, m⟩ j check ↔ _
    obtain ⟨service, rel, reported⟩ := getStatus_decoded decoded s.filename check
    cases has : checkValue j check with
    | none =>
      rw [has] at rel
      cases rel
      exact iff_of_true (readsExactly_of_none has reported) (by simp)
    | some value =>
      rw [has] at rel
      cases rel with
      | some decodes =>
        rw [readsExactly_iff_narrow has decodes reported]
        simp

end

/-- A status file with two checks. -/
def smallStatus : RawJson := .obj [("good", .num "2"), ("bad", .num "1")]

/-- A status in the range of the type is read exactly. -/
theorem status_read_good :
    ReadsExactly ((newStatusFile "test.json").load (.ofDocuments (.ok []) fun _ => .ok smallStatus)
      "test.json").1 smallStatus "good" :=
  (status_read_iff (.ok []) (fun _ => .ok smallStatus) (newStatusFile "test.json") "test.json" smallStatus
    "good" rfl rfl).2 (by
      intro value h
      cases h
      intro i number _
      have two : atoi "2" = some 2 := by decide
      cases two.symm.trans number
      rfl)

/-- A status file whose values are not read as they are written. -/
def wideStatus : RawJson := .obj [("wide", .num "258"), ("none", .null)]

/-- The number 258 is reported as healthy, and asking for a check that is `null` panics. -/
theorem status_read_wide :
    let s := ((newStatusFile "test.json").load (.ofDocuments (.ok []) fun _ => .ok wideStatus) "test.json")
    s.2 = none ∧ s.1.getStatus "wide" = .ok statusHealthy ∧ ¬ MapsTo wideStatus "wide" 2 ∧
      s.1.getStatus "none" = .panic .nilDeref := by
  refine ⟨rfl, by rfl, ?_, by rfl⟩
  rintro ⟨literal, value, number⟩
  cases value
  revert number
  decide

end GeoDNS.Health
