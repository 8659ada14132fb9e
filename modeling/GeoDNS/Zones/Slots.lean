import GeoDNS.Zones.MuxManager

/-!
# The manager name by name

What the manager holds under one zone name is a `Slot`: the zone served, and the record of when it was
read. `reload` treats the names independently of each other. A file acts on the slot of its own name
(`slot_processFile`), and a whole `reload` on each slot as `Slot.reload` does, which sees of the directory
only the files of that name (`slot_reload`). What holds in every run is therefore proved for one slot.

The registrations follow along: what is registered under a name is the zone in its slot
(`registered_reloads`).
-/

namespace GeoDNS.Zones
open GeoDNS.Lib

/-- What the manager holds under one name. -/
structure Slot where
  zone : Option Zone := none
  record : Option ZoneReadRecord := none

/-- Read a file into the slot of the name `n`, with the record updated to its modification time. -/
def Slot.read (site : Site) (n : String) (s : Slot) (f : DirEntry) (record : ZoneReadRecord) : Slot :=
  if record.hash = sha256File site f then { s with record := some record }
  else
    match readZone site n f with
    | .error _ => { s with record := some record }
    | .ok zone => ⟨some zone.setupHealthTests, some { record with hash := sha256File site f }⟩

/-- Read a file of the name `n` if it is new or newer. -/
def Slot.process (site : Site) (n : String) (s : Slot) (f : DirEntry) : Slot :=
  match s.record with
  | none => s.read site n f { time := f.modTime }
  | some record =>
    if f.modTime > record.time then s.read site n f { record with time := f.modTime } else s

/-- The files of a name. -/
def filesOf (n : String) (dir : List DirEntry) : List DirEntry :=
  dir.filter (fun f => zoneFile f = some n)

/-- One `reload` as the slot of the name `n` sees it. -/
def Slot.reload (site : Site) (n : String) (s : Slot) (dir : List DirEntry) : Slot :=
  if filesOf n dir = [] then
    -- a zone without a file is removed; a name that is not served keeps its record
    if n ≠ "pgeodns" ∧ s.zone.isSome then {} else s
  else (filesOf n dir).foldl (Slot.process site n) s

/-- The slot of a name. -/
def MuxManager.slot (mm : MuxManager) (n : String) : Slot :=
  ⟨mm.zonelist.lookup n, mm.lastRead.lookup n⟩

section
variable {site : Site} {mm : MuxManager} {p : Pass} {f : DirEntry} {n name : String}

/-! ## One file -/

/-- Reading a file changes the slot of its zone only. -/
lemma slot_readFile (record : ZoneReadRecord) :
    (readFile site p name f record).mm.slot n =
      if n = name then (p.mm.slot name).read site name f record else p.mm.slot n := by
  unfold readFile Slot.read MuxManager.slot
  by_cases h : record.hash = sha256File site f
  · simp only [if_pos h]
    by_cases hn : n = name
    · subst hn
      simp
    · simp [hn]
  · simp only [if_neg h]
    cases readZone site name f with
    | error err =>
      by_cases hn : n = name
      · subst hn
        simp
      · simp [hn]
    | ok zone =>
      by_cases hn : n = name
      · subst hn
        simp [MuxManager.addHandler]
      · simp [MuxManager.addHandler, hn]

/-- A file acts on the slot of its own name, and on no other. -/
theorem slot_processFile (site : Site) (p : Pass) (f : DirEntry) (n : String) :
    (processFile site p f).mm.slot n =
      if zoneFile f = some n then (p.mm.slot n).process site n f else p.mm.slot n := by
  unfold processFile
  cases hf : zoneFile f with
  | none => simp
  | some name =>
    have record : (p.mm.slot name).record = p.mm.lastRead.lookup name := rfl
    by_cases hn : name = n
    · subst hn
      rw [if_pos rfl]
      unfold Slot.process
      rw [record]
      cases hr : p.mm.lastRead.lookup name with
      | none => simp only [hr, slot_readFile, if_true]
      | some r =>
        simp only [hr]
        split
        · rw [slot_readFile, if_pos rfl]
        · rfl
    · rw [if_neg (by simp [hn])]
      have hn' : n ≠ name := fun e => hn e.symm
      cases hr : p.mm.lastRead.lookup name with
      | none => simp only [hr, slot_readFile, if_neg hn']
      | some r =>
        simp only [hr]
        split
        · rw [slot_readFile, if_neg hn']
        · rfl

/-- A file of a zone is noted. -/
lemma seenZones_processFile (site : Site) (p : Pass) (f : DirEntry) :
    (processFile site p f).seenZones = (zoneFile f).toList ++ p.seenZones := by
  have read : ∀ (p : Pass) name record,
      (readFile site p name f record).seenZones = p.seenZones := by
    intro p name record
    unfold readFile
    dsimp only
    split
    · rfl
    · split <;> rfl
  unfold processFile
  cases zoneFile f with
  | none => rfl
  | some name =>
    dsimp only
    split
    · rw [read]
      rfl
    · split
      · rw [read]
        rfl
      · rfl

/-! ## One reload -/

/-- The files of a zone with one more file. -/
lemma filesOf_cons (n : String) (f : DirEntry) (dir : List DirEntry) :
    filesOf n (f :: dir) = if zoneFile f = some n then f :: filesOf n dir else filesOf n dir := by
  unfold filesOf
  rw [List.filter_cons]
  by_cases hf : zoneFile f = some n <;> simp [hf]

/-- The files of a zone are those with its name. -/
lemma mem_filesOf {dir : List DirEntry} : f ∈ filesOf n dir ↔ f ∈ dir ∧ zoneFile f = some n := by
  simp [filesOf]

/-- A pass over the files goes over those of the zone. -/
lemma slot_files (dir : List DirEntry) (n : String) :
    (dir.foldl (processFile site) p).mm.slot n =
      (filesOf n dir).foldl (Slot.process site n) (p.mm.slot n) := by
  induction dir generalizing p with
  | nil => rfl
  | cons f dir ih =>
    rw [List.foldl_cons, ih, slot_processFile, filesOf_cons]
    split
    · rw [List.foldl_cons]
    · rfl

/-- A zone is seen if it has a file. -/
lemma mem_seenZones {dir : List DirEntry} :
    n ∈ (dir.foldl (processFile site) p).seenZones ↔ filesOf n dir ≠ [] ∨ n ∈ p.seenZones := by
  induction dir generalizing p with
  | nil => simp [filesOf]
  | cons f dir ih =>
    rw [List.foldl_cons, ih, seenZones_processFile, filesOf_cons]
    by_cases hf : zoneFile f = some n
    · simp [hf]
    · have ne : n ∉ (zoneFile f).toList := by simpa using fun h => hf h
      simp [hf, ne]

/-- Removing handlers empties slots, those of the names in the list that are not kept. -/
lemma slot_remove (keep : String → Prop) [DecidablePred keep] (names : List String) :
    (names.foldl (fun mm name => if keep name then mm else mm.removeHandler name) mm).slot n =
      if n ∈ names ∧ ¬ keep n then {} else mm.slot n := by
  induction names generalizing mm with
  | nil => simp
  | cons name names ih =>
    rw [List.foldl_cons, ih]
    by_cases hk : keep name
    · rw [if_pos hk]
      by_cases hn : n = name
      · subst hn
        simp [hk]
      · simp [hn]
    · rw [if_neg hk]
      by_cases hn : n = name
      · subst hn
        simp [hk, MuxManager.slot, MuxManager.removeHandler]
      · simp [hn, MuxManager.slot, MuxManager.removeHandler]

/-- `reload` acts on each slot by itself. -/
theorem slot_reload (site : Site) (mm : MuxManager) (dir : List DirEntry) (n : String) :
    (reload site mm (.ok dir)).1.slot n = (mm.slot n).reload site n dir := by
  unfold reload removeUnseen Slot.reload
  dsimp only
  rw [slot_remove, slot_files]
  have seen : n ∈ (dir.foldl (processFile site) { mm := mm }).seenZones ↔ filesOf n dir ≠ [] := by
    rw [mem_seenZones]
    simp
  by_cases hf : filesOf n dir = []
  · have same : (dir.foldl (processFile site) { mm := mm }).mm.slot n = mm.slot n := by
      rw [slot_files, hf]
      rfl
    have served : n ∈ (dir.foldl (processFile site) { mm := mm }).mm.zonelist.keys ↔
        (mm.slot n).zone.isSome = true := by
      rw [← AList.mem_keys, ← AList.lookup_isSome]
      exact iff_of_eq (congrArg (fun s : Slot => s.zone.isSome = true) same)
    simp only [seen, served, hf, ne_eq, not_true_eq_false, or_false, List.foldl_nil, if_true]
    by_cases hs : (mm.slot n).zone.isSome = true
    · simp [hs]
    · simp [hs]
  · simp [seen, hf]

/-! ## Registrations -/

/-- What is registered is what the manager holds. -/
def Registered (mm : MuxManager) : Prop :=
  registered mm.reg = fun n => mm.zonelist.lookup n

/-- What is registered after one more call. -/
lemma registered_concat (calls : List RegCall) (call : RegCall) :
    registered (calls ++ [call]) =
      match call with
      | .add name zone => Function.update (registered calls) name (some zone)
      | .remove name => Function.update (registered calls) name none := by
  unfold registered
  rw [List.foldl_append]
  rfl

/-- Adding a handler keeps what is held registered. -/
lemma Registered.addHandler (h : Registered mm) (name : String) (zone : Zone) :
    Registered (mm.addHandler name zone) := by
  refine (registered_concat mm.reg _).trans ?_
  dsimp only
  rw [h]
  funext n
  simp only [Function.update_apply, MuxManager.addHandler, GoMap.lookup_insert_eq_ite]

/-- Removing a handler keeps what is held registered. -/
lemma Registered.removeHandler (h : Registered mm) (name : String) :
    Registered (mm.removeHandler name) := by
  refine (registered_concat mm.reg _).trans ?_
  dsimp only
  rw [h]
  funext n
  simp only [Function.update_apply, MuxManager.removeHandler, GoMap.lookup_erase_eq_ite]

/-- Reading a file keeps what is held registered. -/
lemma Registered.readFile (h : Registered p.mm) (record : ZoneReadRecord) :
    Registered (readFile site p name f record).mm := by
  unfold Zones.readFile
  dsimp only
  split
  · exact h
  · split
    · exact h
    · apply Registered.addHandler
      exact h

/-- Processing a file of the directory keeps what is held registered. -/
lemma Registered.processFile (h : Registered p.mm) (f : DirEntry) :
    Registered (processFile site p f).mm := by
  unfold Zones.processFile
  split
  · exact h
  · dsimp only
    split
    · apply Registered.readFile
      exact h
    · split
      · apply Registered.readFile
        exact h
      · exact h

/-- Processing all files of the directory keeps what is held registered. -/
lemma Registered.processFiles (dir : List DirEntry) (h : Registered p.mm) :
    Registered (dir.foldl (Zones.processFile site) p).mm := by
  induction dir generalizing p with
  | nil => exact h
  | cons f dir ih =>
    rw [List.foldl_cons]
    exact ih (h.processFile f)

/-- Removing the zones without a file keeps what is held registered. -/
lemma Registered.removeUnseen (seen : List String) (h : Registered mm) :
    Registered (removeUnseen seen mm) := by
  unfold Zones.removeUnseen
  generalize mm.zonelist.keys = names
  induction names generalizing mm with
  | nil => exact h
  | cons name names ih =>
    rw [List.foldl_cons]
    apply ih
    split
    · exact h
    · exact h.removeHandler name

/-- One pass keeps what is held registered. -/
theorem Registered.reload (h : Registered mm) (dir : Listing) :
    Registered (reload site mm dir).1 := by
  cases dir with
  | error err => exact h
  | ok dir =>
    have files : Registered (dir.foldl (Zones.processFile site) { mm := mm }).mm :=
      Registered.processFiles dir h
    exact files.removeUnseen _

end
end GeoDNS.Zones
