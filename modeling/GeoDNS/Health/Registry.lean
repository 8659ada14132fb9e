import GeoDNS.Health.Status
import GeoDNS.Lib.Letters

/-!
# The registry of status files

`reloadDirectory` of `health/status_file.go`, which is called every second: every status file of the
directory is loaded anew, those that are new are added to the registry, and those that are gone are removed
from it. A file that cannot be read or decoded keeps the data it had.

The directory is a sequence of snapshots, one for each call. `status_law` says what the registry reports
after any such sequence, in terms of the snapshots alone (`expected`).
-/

namespace GeoDNS.Health
open GeoDNS.Lib

/-- An entry of the directory (Go `os.FileInfo`). -/
structure FileInfo where
  name : String
  isDir : Bool

/-- What reading and decoding a file gives: its data, nil if it is a JSON `null`, or an error. -/
abbrev Content := Except String (Option StatusFileData)

/-- The health directory, as it is found by one call of `reloadDirectory`. -/
structure Directory where
  list : Except String (List FileInfo)
  content : String → Content

/-- Go `NewStatusFile`. -/
def newStatusFile (filename : String) : StatusFile :=
  ⟨filename, some ∅⟩

/-- Go `StatusFile.Load`. -/
def StatusFile.load (d : Directory) (s : StatusFile) (filename : String) : StatusFile × Option String :=
  match d.content filename with
  | .error err => (s, some err)
  | .ok n => ({ s with m := n }, none)

/-- Go `StatusFile.Reload`. -/
def StatusFile.reload (d : Directory) (s : StatusFile) : StatusFile × Option String :=
  if s.filename ≠ "" then s.load d s.filename else (s, none)

/-- The status that a directory entry is for, if it is a status file. (A name that ends in `.json` has a
    dot, so the slice expression of the source does not panic.) -/
def statusFile (f : FileInfo) : Option String :=
  if !endsWith (toLower f.name) ".json" || startsWith f.name "." || f.isDir then none
  else beforeLast f.name '.'

/-- The state of the loop over the files of `reloadDirectory`. -/
structure Reloading where
  registry : Registry
  seen : List String := []
  parseErr : Option String := none

/-- One file of the directory. -/
def reloadFile (dir : String) (d : Directory) (p : Reloading) (f : FileInfo) : Reloading :=
  match statusFile f with
  | none => p
  | some statusName =>
    let p := { p with seen := statusName :: p.seen }
    match p.registry.lookup statusName with
    | some s => { p with registry := p.registry.insert statusName (s.reload d).1 }
    | none =>
      let (s, err) := (newStatusFile (dir ++ "/" ++ f.name)).reload d
      { p with registry := p.registry.insert statusName s, parseErr := err <|> p.parseErr }

/-- Remove the files that are gone; what closing them does to them is seen by nobody. -/
def removeUnseen (seen : List String) (r : Registry) : Registry :=
  r.keys.foldl (fun r n => if n ∈ seen then r else r.erase n) r

/-- Go `reloadDirectory`. -/
def reloadDirectory (dir : String) (d : Directory) (r : Registry) : Registry × Option String :=
  match d.list with
  | .error err => (r, some ("could not read '" ++ dir ++ "': " ++ err))
  | .ok dirlist =>
    let p := dirlist.foldl (reloadFile dir d) { registry := r }
    (removeUnseen p.seen p.registry, p.parseErr)

/-! ## Snapshots -/

/-- The status files of the directory and their contents, by the names before `.json`; nothing if the
    directory cannot be listed. -/
abbrev Snapshot := Option (GoMap String Content)

/-- The path of a status file. -/
def statusPath (dir name : String) : String :=
  dir ++ "/" ++ (name ++ ".json")

/-- The directory with these files. -/
def Snapshot.directory (dir : String) : Snapshot → Directory
  | none => ⟨.error "permission denied", fun _ => .error "permission denied"⟩
  | some files =>
    { list := .ok (files.keys.map (fun n => ⟨n ++ ".json", false⟩))
      content := fun path =>
        match (files.keys.find? (fun n => statusPath dir n = path)).bind files.lookup with
        | some content => content
        | none => .error "no such file or directory" }

/-- The registry after reloading once for each of these snapshots. -/
def registryAfter (dir : String) (history : List Snapshot) : Registry :=
  history.foldl (fun r s => (reloadDirectory dir (s.directory dir) r).1) ∅

/-- The data of a file, if it can be decoded. -/
def parsed (name : String) (files : GoMap String Content) : Option (Option StatusFileData) :=
  match files.lookup name with
  | some (.ok m) => some m
  | _ => none

/-- The snapshots since the file last appeared, the last one first. -/
def since (history : List Snapshot) (name : String) : List (GoMap String Content) :=
  (history.filterMap id).reverse.takeWhile (fun files => name ∈ files)

/-- What data say about a check; a JSON `null` is a nil pointer. -/
def statusIn (m : Option StatusFileData) (check : String) : Res StatusType :=
  match m.bind (fun m => m.lookup check) with
  | none => .ok statusUnknown
  | some none => .panic .nilDeref
  | some (some status) => .ok status

/-- What the last content that could be decoded since the file last appeared says about a check. -/
def expected (history : List Snapshot) (name check : String) : Res StatusType :=
  match (since history name).findSome? (parsed name) with
  | none => .ok statusUnknown
  | some m => statusIn m check

section
variable {dir name : String} {d : Directory} {r : Registry} {files : GoMap String Content}

/-! ## Names of status files -/

/-- A name whose file is not hidden. -/
def Visible (name : String) : Prop :=
  startsWith (name ++ ".json") "." = false

/-- A file with the right ending is for the name before it, unless it is hidden. -/
lemma statusFile_json (name : String) :
    statusFile ⟨name ++ ".json", false⟩ =
      if startsWith (name ++ ".json") "." then none else some name := by
  have lower : endsWith (toLower (name ++ ".json")) ".json" = true := by
    have ending : toLower ".json" = ".json" := by decide +kernel
    rw [toLower_append, ending]
    exact endsWith_append _ _
  have before : beforeLast (name ++ ".json") '.' = some name := by
    have rev : (name ++ ".json").toList.reverse = ['n', 'o', 's', 'j', '.'] ++ name.toList.reverse := by
      rw [String.toList_append, List.reverse_append]
      rfl
    have mem : '.' ∈ (name ++ ".json").toList := by
      rw [← List.mem_reverse, rev]
      simp
    rw [beforeLast, if_pos mem, rev]
    simp
  unfold statusFile
  dsimp only
  rw [lower, before]
  cases startsWith (name ++ ".json") "." <;> rfl

/-- Different names have different paths. -/
lemma statusPath_inj {n n' : String} (h : statusPath dir n = statusPath dir n') : n = n' := by
  have chars := congrArg String.toList h
  simp only [statusPath, String.toList_append] at chars
  exact String.toList_inj.mp (List.append_cancel_right (List.append_cancel_left chars))

/-- The content found at the path of a file is its content. -/
lemma directory_content {content : Content} (h : files.lookup name = some content) :
    (Snapshot.directory dir (some files)).content (statusPath dir name) = content := by
  have mem : name ∈ files.keys := AList.lookup_isSome.mp (by simp [h])
  have found : files.keys.find? (fun n => statusPath dir n = statusPath dir name) = some name := by
    cases hn : files.keys.find? (fun n => statusPath dir n = statusPath dir name) with
    | none =>
      have bad := List.find?_eq_none.mp hn name mem
      simp at bad
    | some n =>
      have path : statusPath dir n = statusPath dir name := by simpa using List.find?_some hn
      rw [statusPath_inj path]
  dsimp only [Snapshot.directory]
  rw [found, Option.bind_some, h]

/-! ## One name -/

/-- The file of a name, after its content is loaded. -/
def reloaded (dir name : String) (d : Directory) (old : Option StatusFile) : StatusFile :=
  ((old.getD (newStatusFile (statusPath dir name))).reload d).1

/-- A file of the directory is that of one name. -/
lemma reloadFile_json (dir : String) (d : Directory) (visible : Visible name) (p : Reloading) (n : String) :
    (reloadFile dir d p ⟨n ++ ".json", false⟩).registry.lookup name =
        (if n = name then some (reloaded dir name d (p.registry.lookup name))
          else p.registry.lookup name) ∧
      (name ∈ (reloadFile dir d p ⟨n ++ ".json", false⟩).seen ↔ n = name ∨ name ∈ p.seen) := by
  unfold reloadFile
  rw [statusFile_json]
  by_cases same : n = name
  · subst same
    have shown : ¬ startsWith (n ++ ".json") "." = true := by
      rw [visible]
      decide
    rw [if_neg shown, if_pos rfl]
    dsimp only
    cases p.registry.lookup n with
    | some s => exact ⟨AList.lookup_insert _, by simp⟩
    | none => exact ⟨AList.lookup_insert _, by simp⟩
  · rw [if_neg same]
    have other : ¬ name = n := fun e => same e.symm
    by_cases hidden : startsWith (n ++ ".json") "." = true
    · rw [if_pos hidden]
      exact ⟨rfl, by simp [same]⟩
    · rw [if_neg hidden]
      dsimp only
      cases p.registry.lookup n with
      | some s => exact ⟨AList.lookup_insert_ne other, by simp [same, other]⟩
      | none => exact ⟨AList.lookup_insert_ne other, by simp [same, other]⟩

/-- Every visible name is reloaded once. -/
lemma foldl_reloadFile (dir : String) (d : Directory) (visible : Visible name) {names : List String}
    (nodup : names.Nodup) (p : Reloading) :
    let p' := (names.map (fun n => (⟨n ++ ".json", false⟩ : FileInfo))).foldl (reloadFile dir d) p
    (name ∈ p'.seen ↔ name ∈ names ∨ name ∈ p.seen) ∧
      p'.registry.lookup name = if name ∈ names then some (reloaded dir name d (p.registry.lookup name))
        else p.registry.lookup name := by
  induction names generalizing p with
  | nil => simp
  | cons n names ih =>
    obtain ⟨absent, nodup⟩ := List.nodup_cons.mp nodup
    obtain ⟨lookup, seen⟩ := reloadFile_json dir d visible p n
    obtain ⟨seen', lookup'⟩ := ih nodup (reloadFile dir d p ⟨n ++ ".json", false⟩)
    dsimp only
    rw [List.map_cons, List.foldl_cons, seen', lookup', seen, lookup]
    by_cases same : n = name
    · subst same
      rw [if_neg absent, if_pos rfl, if_pos List.mem_cons_self]
      simp
    · have other : ¬ name = n := fun e => same e.symm
      simp [same, other]

/-- What is not seen is removed. -/
lemma lookup_removeUnseen (seen : List String) (r : Registry) :
    (removeUnseen seen r).lookup name = if name ∈ seen then r.lookup name else none := by
  -- the loop over some of the keys
  have loop : ∀ (names : List String) (r : Registry),
      (names.foldl (fun r n => if n ∈ seen then r else r.erase n) r).lookup name =
        if name ∈ names ∧ name ∉ seen then none else r.lookup name := by
    intro names
    induction names with
    | nil => simp
    | cons n names ih =>
      intro r
      rw [List.foldl_cons, ih]
      by_cases same : n = name
      · subst same
        by_cases hs : n ∈ seen
        · simp [hs]
        · simp [hs]
      · have other : ¬ name = n := fun e => same e.symm
        by_cases hs : n ∈ seen
        · simp [hs, other]
        · simp [hs, other]
  rw [removeUnseen, loop]
  by_cases hs : name ∈ seen
  · simp [hs]
  · by_cases mem : name ∈ r.keys
    · simp [hs, mem]
    · have none : r.lookup name = none := AList.lookup_eq_none.mpr mem
      simp [hs, none]

/-- What a reload makes of the file of a name. -/
lemma lookup_reloadDirectory (visible : Visible name) (r : Registry) (s : Snapshot) :
    (reloadDirectory dir (s.directory dir) r).1.lookup name =
      match s with
      | none => r.lookup name
      | some files => if name ∈ files then
          some (reloaded dir name (s.directory dir) (r.lookup name)) else none := by
  cases s with
  | none => rfl
  | some files =>
    obtain ⟨seen, lookup⟩ := foldl_reloadFile dir (Snapshot.directory dir (some files)) visible
      files.nodupKeys { registry := r }
    dsimp only
    by_cases mem : name ∈ files
    · rw [if_pos mem]
      exact (lookup_removeUnseen _ _).trans ((if_pos (seen.mpr (.inl mem))).trans (lookup.trans (if_pos mem)))
    · rw [if_neg mem]
      refine (lookup_removeUnseen _ _).trans (if_neg (fun h => ?_))
      rcases seen.mp h with h | h
      · exact mem h
      · cases h

/-- The status file after its file has been read: the new content if it can be parsed, or else the old one.
    -/
lemma reloaded_eq {content : Content} (h : files.lookup name = some content)
    (old : Option (Option StatusFileData)) :
    reloaded dir name (Snapshot.directory dir (some files))
        (old.map (fun m => ⟨statusPath dir name, m⟩)) =
      ⟨statusPath dir name, (parsed name files).getD (old.getD (some ∅))⟩ := by
  have path : statusPath dir name ≠ "" := by
    intro e
    have chars := congrArg String.toList e
    simp [statusPath] at chars
  have file : (old.map (fun m => (⟨statusPath dir name, m⟩ : StatusFile))).getD
      (newStatusFile (statusPath dir name)) = ⟨statusPath dir name, old.getD (some ∅)⟩ := by
    cases old <;> rfl
  rw [reloaded, file, StatusFile.reload, if_pos path, StatusFile.load, directory_content h, parsed, h]
  cases content <;> rfl

/-! ## Runs -/

variable {history : List Snapshot}

/-- A directory that cannot be listed does not count. -/
lemma since_append_none (history : List Snapshot) (name : String) :
    since (history ++ [none]) name = since history name := by
  simp [since]

/-- In one that can be listed, the file is there once more, or gone. -/
lemma since_append_some (history : List Snapshot) (files : GoMap String Content) (name : String) :
    since (history ++ [some files]) name =
      if name ∈ files then files :: since history name else [] := by
  unfold since
  rw [List.filterMap_append, List.reverse_append]
  by_cases mem : name ∈ files
  · simp [mem]
  · simp [mem]

/-- The data that the registry holds for a name, if it holds any. -/
def held (history : List Snapshot) (name : String) : Option (Option StatusFileData) :=
  match since history name with
  | [] => none
  | present => some ((present.findSome? (parsed name)).getD (some ∅))

/-- What is held of a file after one more pass. -/
lemma held_append_some (history : List Snapshot) (files : GoMap String Content) (name : String) :
    held (history ++ [some files]) name = if name ∈ files then
      some ((parsed name files).getD ((held history name).getD (some ∅))) else none := by
  rw [held, since_append_some]
  by_cases mem : name ∈ files
  · rw [if_pos mem, if_pos mem, held]
    dsimp only
    rw [List.findSome?_cons]
    cases parsed name files with
    | some m => rfl
    | none =>
      cases since history name with
      | nil => rfl
      | cons first rest => rfl
  · rw [if_neg mem, if_neg mem]

/-- What the registry holds after a run. -/
theorem lookup_registryAfter (dir : String) (visible : Visible name) (history : List Snapshot) :
    (registryAfter dir history).lookup name =
      (held history name).map (fun m => ⟨statusPath dir name, m⟩) := by
  induction history using List.reverseRecOn with
  | nil => rfl
  | append_singleton history s ih =>
    have step : registryAfter dir (history ++ [s]) =
        (reloadDirectory dir (s.directory dir) (registryAfter dir history)).1 := by
      rw [registryAfter, List.foldl_append]
      rfl
    rw [step, lookup_reloadDirectory visible, ih]
    cases s with
    | none =>
      have same : held (history ++ [none]) name = held history name := by
        rw [held, held, since_append_none]
      rw [same]
    | some files =>
      rw [held_append_some]
      dsimp only
      by_cases mem : name ∈ files
      · obtain ⟨content, h⟩ := Option.isSome_iff_exists.mp (AList.lookup_isSome.mpr mem)
        rw [if_pos mem, if_pos mem, reloaded_eq h]
        rfl
      · rw [if_neg mem, if_neg mem]
        rfl

/-- The lookup of a name without a slash. -/
lemma getStatus_name (r : Registry) (plain : '/' ∉ name.toList) (check : String) :
    getStatus r (name ++ "/" ++ check) =
      match r.lookup name with
      | none => .ok statusUnknown
      | some status => status.getStatus check := by
  have chars : (name ++ "/" ++ check).toList = name.toList ++ '/' :: check.toList := by
    simp [String.toList_append]
  have before : ∀ c ∈ name.toList, decide (c ≠ '/') = true := by
    intro c hc
    simp only [decide_eq_true_eq]
    rintro rfl
    exact plain hc
  have split : splitN2 (name ++ "/" ++ check) '/' = [name, check] := by
    rw [splitN2, chars, if_pos (by simp), List.takeWhile_append_of_pos before,
      List.dropWhile_append_of_pos before]
    simp
  cases found : r.lookup name with
  | none => simp only [getStatus, split, found]
  | some status => simp only [getStatus, split, found]

/-- The status of a check in what is held. -/
lemma getStatus_held (m : Option StatusFileData) (filename check : String) :
    (⟨filename, m⟩ : StatusFile).getStatus check = statusIn m check := by
  unfold StatusFile.getStatus statusIn
  cases m with
  | none => rfl
  | some m =>
    dsimp only [Option.bind_some]
    cases m.lookup check with
    | none => rfl
    | some status => cases status <;> rfl

/-- What the registry reports about a check after a run. -/
lemma getStatus_registryAfter (dir : String) (visible : Visible name) (plain : '/' ∉ name.toList)
    (history : List Snapshot) (check : String) :
    getStatus (registryAfter dir history) (name ++ "/" ++ check) = expected history name check := by
  rw [getStatus_name _ plain, lookup_registryAfter dir visible, held, expected]
  cases since history name with
  | nil => rfl
  | cons first rest =>
    dsimp only [Option.map_some]
    rw [getStatus_held]
    cases (first :: rest).findSome? (parsed name) <;> rfl

/-- The law of the registry: after any sequence of snapshots, it reports about a check what the last content
    says that could be decoded since the file last appeared. A directory that cannot be listed, and a file
    that cannot be read or decoded, change nothing. -/
theorem status_law (dir : String) (visible : Visible name) (plain : '/' ∉ name.toList)
    (history : List Snapshot) (check : String) :
    getStatus (registryAfter dir history) (name ++ "/" ++ check) = expected history name check ∧
      registryAfter dir (history ++ [none]) = registryAfter dir history ∧
      ∀ files err, files.lookup name = some (.error err) →
        getStatus (registryAfter dir (history ++ [some files])) (name ++ "/" ++ check) =
          getStatus (registryAfter dir history) (name ++ "/" ++ check) := by
  refine ⟨getStatus_registryAfter dir visible plain history check, ?_, ?_⟩
  · rw [registryAfter, List.foldl_append]
    rfl
  · intro files err h
    have mem : name ∈ files := AList.lookup_isSome.mp (by simp [h])
    have undecoded : parsed name files = none := by rw [parsed, h]
    rw [getStatus_registryAfter dir visible plain, getStatus_registryAfter dir visible plain, expected,
      since_append_some, if_pos mem, List.findSome?_cons, undecoded]
    rfl

end

/-- A status file of this name, which reports the check `1` healthy. -/
def smallHealth (name : String) : Snapshot :=
  some (GoMap.ofPairs [(name, .ok (some (GoMap.ofPairs [("1", some statusHealthy)])))])

/-- The file is read, and its statuses stay when the directory cannot be listed. -/
theorem small_status_law :
    getStatus (registryAfter "health" [smallHealth "web", none]) ("web" ++ "/" ++ "1") =
      expected [smallHealth "web", none] "web" "1" ∧
    expected [smallHealth "web", none] "web" "1" = .ok statusHealthy :=
  ⟨(status_law "health" (by decide : startsWith ("web" ++ ".json") "." = false) (by decide)
    [smallHealth "web", none] "1").1, by decide +kernel⟩

/-- A file whose name begins with a dot is not read. -/
theorem hidden_file_unread :
    getStatus (registryAfter "health" [smallHealth ".web"]) (".web" ++ "/" ++ "1") = .ok statusUnknown ∧
      expected [smallHealth ".web"] ".web" "1" = .ok statusHealthy := by
  decide +kernel

end GeoDNS.Health
