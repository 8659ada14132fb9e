import GeoDNS.Typeutil

/-!
# Health status

`health/health.go`, `health/status.go` and the lookup of `health/status_file.go`: a label of a zone may
refer to a health status by name, and a record's test is looked up as `name/check` in the registry of
the loaded status files.
-/

namespace GeoDNS.Health
open GeoDNS.Lib

/-- The result of a health check (Go `StatusType`). -/
abbrev StatusType := UInt8

abbrev statusUnknown : StatusType := 0
abbrev statusUnhealthy : StatusType := 1
abbrev statusHealthy : StatusType := 2

/-- A reference to a registered status by name (Go `HealthReference`). -/
structure HealthReference where
  name : String
  deriving DecidableEq, Repr

/-- The name under which a record is tested (Go `HealthReference.Name`). -/
def HealthReference.testName (hr : HealthReference) (record : String) : String :=
  if record = "" then hr.name else hr.name ++ "/" ++ record

/-- Read a health reference of a zone file (Go `NewReferenceFromMap`): its name is the field `name`
    or else the field `type`. The outer result is the panic of a conversion, the inner one the error
    that the function returns. -/
def newReferenceFromMap (i : GoMap String Json) : Res (Except String HealthReference) := do
  let ts ← (i.lookup "type").elim (.ok "") Typeutil.toString
  let name ← (i.lookup "name").elim (.ok "") Typeutil.toString
  let name := if name = "" then ts else name
  if name = "" then return .error "name or type required"
  else return .ok ⟨name⟩

/-- The content of a status file: for each check its status, or nil for a JSON `null`
    (Go `StatusFileData`). -/
abbrev StatusFileData := GoMap String (Option StatusType)

/-- A loaded status file (Go `StatusFile`); its data is nil once it is closed. -/
structure StatusFile where
  filename : String
  m : Option StatusFileData

/-- The status of one check (Go `StatusFile.GetStatus`). -/
def StatusFile.getStatus (s : StatusFile) (check : String) : Res StatusType :=
  match s.m with
  | none => .ok statusUnknown
  | some m =>
    match m.lookup check with
    | none => .ok statusUnknown
    | some st => Res.get st .nilDeref

/-- The registry of loaded status files (Go `statusRegistry`). -/
abbrev Registry := GoMap String StatusFile

/-- The status of a test name (Go `GetStatus`): the part before the first slash names the status
    file, the rest the check in it. -/
def getStatus (registry : Registry) (name : String) : Res StatusType :=
  match splitN2 name '/' with
  | [file, check] =>
    match registry.lookup file with
    | none => .ok statusUnknown
    | some status => status.getStatus check
  | _ => .ok statusUnknown

end GeoDNS.Health
