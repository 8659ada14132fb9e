import GeoDNS.Zones.Slots
import Mathlib.Data.List.Induction

/-!
# Reloading keeps the last good configuration

What holds of the manager after every sequence of `reload` calls, on arbitrary directories. The invariant
of a slot is `Slot.Sound`: the hash on record is that of the file the zone was read from, and a zone that
is served has such a record. One file keeps it (`Slot.Sound.process`), so one `reload` does
(`Slot.Sound.reload`), so every run does (`reloads_sound`).
-/

namespace GeoDNS.Zones
open GeoDNS.Lib

/-- The file has been in one of the listings. -/
def Listed (dirs : List Listing) (f : DirEntry) : Prop :=
  ∃ dir, .ok dir ∈ dirs ∧ f ∈ dir

/-- The manager before its first `reload`, with the zone of `setupPgeodnsZone`. -/
def startManager (pgeodns : Zone) : MuxManager :=
  ({} : MuxManager).addHandler "pgeodns" pgeodns

/-- The zone in a slot, and the hash on record, come from a file of that name that was seen. -/
structure Slot.Sound (site : Site) (seen : DirEntry → Prop) (n : String) (s : Slot) : Prop where
  hashed : ∀ {r}, s.record = some r → r.hash ≠ "" → ∃ f zone, seen f ∧ zoneFile f = some n ∧
    sha256File site f = r.hash ∧ readZone site n f = .ok zone ∧ s.zone = some zone.setupHealthTests
  recorded : s.zone.isSome = true → n ≠ "pgeodns" → ∃ r, s.record = some r ∧ r.hash ≠ ""

section
variable {site : Site} {seen : DirEntry → Prop} {n : String} {s : Slot} {f : DirEntry}
variable {dir : List DirEntry} {zone : Zone}

/-- A file that is accepted can be read. -/
lemma readZone_content (h : readZone site n f = .ok zone) : ∃ b, f.content = .ok b := by
  cases hc : f.content with
  | ok b => exact ⟨b, rfl⟩
  | error err =>
    rw [readZone, hc] at h
    cases h

/-- A file that can be read has a hash. -/
lemma sha256File_ne (h : readZone site n f = .ok zone) : sha256File site f ≠ "" := by
  obtain ⟨b, hb⟩ := readZone_content h
  rw [sha256File, hb]
  exact site.sha256_ne b

/-- Reading a file into a slot, with a record that keeps the hash the slot had. -/
lemma Slot.Sound.read {record : ZoneReadRecord} (sound : s.Sound site seen n) (hf : seen f)
    (hn : zoneFile f = some n) (hash : record.hash = (s.record.map ZoneReadRecord.hash).getD "") :
    (s.read site n f record).Sound site seen n := by
  -- as long as the zone stays the same, so does the hash on record
  have kept : Slot.Sound site seen n { s with record := some record } := by
    constructor
    · rintro r ⟨⟩ ne
      cases hr : s.record with
      | none =>
        rw [hr] at hash
        exact (ne hash).elim
      | some r' =>
        rw [hr, Option.map_some, Option.getD_some] at hash
        obtain ⟨g, zone, hg⟩ := sound.hashed hr (hash ▸ ne)
        exact ⟨g, zone, hash.symm ▸ hg⟩
    · intro served ne
      obtain ⟨r, hr, hne⟩ := sound.recorded served ne
      rw [hr, Option.map_some, Option.getD_some] at hash
      exact ⟨record, rfl, hash.symm ▸ hne⟩
  unfold Slot.read
  split
  · exact kept
  · cases hz : readZone site n f with
    | error err => exact kept
    | ok zone =>
      constructor
      · rintro r ⟨⟩ _
        exact ⟨f, zone, hf, hn, rfl, hz, rfl⟩
      · intro _ _
        exact ⟨_, rfl, sha256File_ne hz⟩

/-- Processing one file keeps the slot of its zone sound. -/
lemma Slot.Sound.process (sound : s.Sound site seen n) (hf : seen f) (hn : zoneFile f = some n) :
    (s.process site n f).Sound site seen n := by
  unfold Slot.process
  cases hr : s.record with
  | none => exact sound.read hf hn (by rw [hr]; rfl)
  | some r =>
    dsimp only
    split
    · exact sound.read hf hn (by rw [hr]; rfl)
    · exact sound

/-- Processing all files of a zone keeps its slot sound. -/
lemma Slot.Sound.files (sound : s.Sound site seen n) {fs : List DirEntry}
    (hfs : ∀ f ∈ fs, seen f ∧ zoneFile f = some n) :
    (fs.foldl (Slot.process site n) s).Sound site seen n := by
  induction fs generalizing s with
  | nil => exact sound
  | cons f fs ih =>
    obtain ⟨hf, hn⟩ := hfs f List.mem_cons_self
    exact ih (sound.process hf hn) (fun g hg => hfs g (List.mem_cons_of_mem _ hg))

/-- A slot is sound at the start. -/
lemma slot_empty_sound (site : Site) (seen : DirEntry → Prop) (n : String) :
    ({} : Slot).Sound site seen n where
  hashed := nofun
  recorded := nofun

/-- One pass over the directory keeps a slot sound. -/
lemma Slot.Sound.reload (sound : s.Sound site seen n) (hdir : ∀ f ∈ dir, seen f) :
    (s.reload site n dir).Sound site seen n := by
  unfold Slot.reload
  split
  · split
    · exact slot_empty_sound site seen n
    · exact sound
  · apply sound.files
    intro f hf
    obtain ⟨mem, hn⟩ := mem_filesOf.mp hf
    exact ⟨hdir f mem, hn⟩

/-- A slot stays sound when more files have been seen. -/
lemma Slot.Sound.mono {seen' : DirEntry → Prop} (sound : s.Sound site seen n)
    (sub : ∀ f, seen f → seen' f) : s.Sound site seen' n where
  hashed := by
    intro r hr ne
    obtain ⟨f, zone, hf, rest⟩ := sound.hashed hr ne
    exact ⟨f, zone, sub f hf, rest⟩
  recorded := sound.recorded

end

/-! ## Runs -/

section
variable {site : Site}

/-- A history with one more pass. -/
lemma reloads_append (mm : MuxManager) (dirs : List Listing) (dir : Listing) :
    reloads site mm (dirs ++ [dir]) = (reload site (reloads site mm dirs) dir).1 := by
  unfold reloads
  rw [List.foldl_append]
  rfl

/-- All slots are sound in every history. -/
theorem reloads_sound (site : Site) (pgeodns : Zone) (dirs : List Listing) (n : String) :
    ((reloads site (startManager pgeodns) dirs).slot n).Sound site (Listed dirs) n := by
  -- by induction over the run from its end
  induction dirs using List.reverseRecOn with
  | nil =>
    constructor
    · nofun
    · intro served ne
      have zone : ((startManager pgeodns).slot n).zone = none := by
        show (AList.insert "pgeodns" _ ∅).lookup n = none
        rw [AList.lookup_insert_ne ne]
        rfl
      rw [show reloads site (startManager pgeodns) [] = startManager pgeodns from rfl, zone] at served
      cases served
  | append_singleton dirs dir ih =>
    rw [reloads_append]
    have earlier : ∀ f, Listed dirs f → Listed (dirs ++ [dir]) f := by
      rintro f ⟨files, hd, hf⟩
      exact ⟨files, List.mem_append_left _ hd, hf⟩
    cases dir with
    | error err => exact ih.mono earlier
    | ok files =>
      rw [slot_reload]
      apply (ih.mono earlier).reload
      intro f hf
      exact ⟨files, by simp, hf⟩

/-- Every zone held was read from a file of its name. -/
lemma reloads_provenance {pgeodns z : Zone} {dirs : List Listing} {n : String} (ne : n ≠ "pgeodns")
    (hz : (reloads site (startManager pgeodns) dirs).zonelist.lookup n = some z) :
    ∃ f zone, Listed dirs f ∧ zoneFile f = some n ∧ readZone site n f = .ok zone ∧
      z = zone.setupHealthTests := by
  have sound := reloads_sound site pgeodns dirs n
  obtain ⟨r, hr, hne⟩ := sound.recorded (Option.isSome_iff_exists.mpr ⟨z, hz⟩) ne
  obtain ⟨f, zone, hf, hn, _, hread, e⟩ := sound.hashed hr hne
  exact ⟨f, zone, hf, hn, hread, Option.some.inj (hz.symm.trans e)⟩

/-- What a `reload` leaves in a slot: nothing, the zone that was there, or one that has been read. -/
lemma Slot.reload_zone {s : Slot} {dir : List DirEntry} {n : String} {z : Zone}
    (hz : (s.reload site n dir).zone = some z) :
    s.zone = some z ∨ ∃ f ∈ dir, zoneFile f = some n ∧ ∃ zone, readZone site n f = .ok zone ∧
      z = zone.setupHealthTests := by
  have read : ∀ {s : Slot} {f record}, (s.read site n f record).zone = some z →
      s.zone = some z ∨ ∃ zone, readZone site n f = .ok zone ∧ z = zone.setupHealthTests := by
    intro s f record hz
    unfold Slot.read at hz
    split at hz
    · exact .inl hz
    · cases hread : readZone site n f with
      | error err =>
        rw [hread] at hz
        exact .inl hz
      | ok zone =>
        rw [hread] at hz
        exact .inr ⟨zone, rfl, (Option.some.inj hz).symm⟩
  have process : ∀ {s : Slot} {f}, (s.process site n f).zone = some z →
      s.zone = some z ∨ ∃ zone, readZone site n f = .ok zone ∧ z = zone.setupHealthTests := by
    intro s f hz
    unfold Slot.process at hz
    split at hz
    · exact read hz
    · split at hz
      · exact read hz
      · exact .inl hz
  have files : ∀ (fs : List DirEntry) (s : Slot), (fs.foldl (Slot.process site n) s).zone = some z →
      s.zone = some z ∨ ∃ f ∈ fs, ∃ zone, readZone site n f = .ok zone ∧ z = zone.setupHealthTests := by
    intro fs
    induction fs with
    | nil => exact fun s hz => .inl hz
    | cons f fs ih =>
      intro s hz
      rcases ih _ hz with hz | ⟨g, hg, later⟩
      · rcases process hz with hz | here
        · exact .inl hz
        · exact .inr ⟨f, List.mem_cons_self, here⟩
      · exact .inr ⟨g, List.mem_cons_of_mem _ hg, later⟩
  unfold Slot.reload at hz
  split at hz
  · split at hz
    · cases hz
    · exact .inl hz
  · rcases files _ _ hz with hz | ⟨f, hf, here⟩
    · exact .inl hz
    · obtain ⟨mem, hn⟩ := mem_filesOf.mp hf
      exact .inr ⟨f, mem, hn, here⟩

/-- What holds of the manager's own zone and of every zone that is read holds of every zone held. -/
theorem reloads_zones {pgeodns : Zone} {dirs : List Listing} {P : String → Zone → Prop}
    (own : P "pgeodns" pgeodns.setupHealthTests)
    (read : ∀ f n zone, Listed dirs f → zoneFile f = some n → readZone site n f = .ok zone →
      P n zone.setupHealthTests) {n : String} {z : Zone}
    (hz : (reloads site (startManager pgeodns) dirs).zonelist.lookup n = some z) : P n z := by
  induction dirs using List.reverseRecOn generalizing z with
  | nil =>
    have hz : ((∅ : GoMap String Zone).insert "pgeodns" pgeodns.setupHealthTests).lookup n = some z := hz
    rw [GoMap.lookup_insert_eq_ite] at hz
    split at hz
    · rename_i same
      cases hz
      rw [same]
      exact own
    · cases hz
  | append_singleton dirs dir ih =>
    have earlier : ∀ f, Listed dirs f → Listed (dirs ++ [dir]) f := by
      rintro f ⟨files, hd, hf⟩
      exact ⟨files, List.mem_append_left _ hd, hf⟩
    have ih := @ih (fun f n zone hf => read f n zone (earlier f hf))
    rw [reloads_append] at hz
    cases dir with
    | error err => exact ih hz
    | ok files =>
      have slot := congrArg Slot.zone (slot_reload site (reloads site (startManager pgeodns) dirs) files n)
      rcases Slot.reload_zone (slot.symm.trans hz) with hz | ⟨f, hf, hn, zone, hread, rfl⟩
      · exact ih hz
      · exact read f n zone ⟨files, by simp, hf⟩ hn hread

/-- After a reload only names with a file are served. -/
lemma reload_listed {mm : MuxManager} {files : List DirEntry} {n : String} (ne : n ≠ "pgeodns")
    (served : ((reload site mm (.ok files)).1.slot n).zone.isSome = true) :
    ∃ f ∈ files, zoneFile f = some n := by
  rw [slot_reload, Slot.reload] at served
  split at served
  case isFalse has =>
    obtain ⟨f, hf⟩ := List.exists_mem_of_ne_nil _ has
    exact ⟨f, mem_filesOf.mp hf⟩
  case isTrue =>
    -- a name without a file is emptied if it was served
    split at served
    · cases served
    · rename_i h
      exact (h ⟨ne, served⟩).elim

/-- What is registered is what is held, in every history. -/
theorem reloads_registered (site : Site) (pgeodns : Zone) (dirs : List Listing) :
    Registered (reloads site (startManager pgeodns) dirs) := by
  induction dirs using List.reverseRecOn with
  | nil =>
    have empty : Registered {} := rfl
    exact empty.addHandler "pgeodns" pgeodns
  | append_singleton dirs dir ih =>
    rw [reloads_append]
    exact ih.reload dir

/-! ## Rejected files -/

/-- A file that is rejected changes neither the zones nor the registrations. -/
lemma processFile_rejected {f : DirEntry} {name err : String} (hn : zoneFile f = some name)
    (hz : readZone site name f = .error err) (p : Pass) :
    (processFile site p f).mm.zonelist = p.mm.zonelist ∧ (processFile site p f).mm.reg = p.mm.reg := by
  have read : ∀ (p : Pass) record, (readFile site p name f record).mm.zonelist = p.mm.zonelist ∧
      (readFile site p name f record).mm.reg = p.mm.reg := by
    intro p record
    unfold readFile
    rw [hz]
    dsimp only
    split <;> exact ⟨rfl, rfl⟩
  unfold processFile
  rw [hn]
  dsimp only
  split
  · exact read _ _
  · split
    · exact read _ _
    · exact ⟨rfl, rfl⟩

/-- A file that is rejected leaves the zone as it is. -/
lemma Slot.process_rejected {n err : String} {s : Slot} {f : DirEntry}
    (hz : readZone site n f = .error err) : (s.process site n f).zone = s.zone := by
  have read : ∀ record, (s.read site n f record).zone = s.zone := by
    intro record
    unfold Slot.read
    rw [hz]
    dsimp only
    split <;> rfl
  unfold Slot.process
  split
  · exact read _
  · split
    · exact read _
    · rfl

/-- A zone all of whose files are rejected stays as it is. -/
lemma reload_rejected {mm : MuxManager} {dir : List DirEntry} {n : String} (has : filesOf n dir ≠ [])
    (rejected : ∀ f ∈ filesOf n dir, ∃ err, readZone site n f = .error err) :
    (reload site mm (.ok dir)).1.zonelist.lookup n = mm.zonelist.lookup n := by
  have files : ∀ (fs : List DirEntry) (s : Slot), (∀ f ∈ fs, ∃ err, readZone site n f = .error err) →
      (fs.foldl (Slot.process site n) s).zone = s.zone := by
    intro fs
    induction fs with
    | nil => exact fun s _ => rfl
    | cons f fs ih =>
      intro s h
      obtain ⟨err, herr⟩ := h f List.mem_cons_self
      rw [List.foldl_cons, ih _ (fun g hg => h g (List.mem_cons_of_mem _ hg)),
        Slot.process_rejected herr]
  have slot := congrArg Slot.zone (slot_reload site mm dir n)
  rw [Slot.reload, if_neg has, files _ _ rejected] at slot
  exact slot

/-! ## The invariants of every run -/

/-- After every run of `reload` calls and one more: (1) a directory that cannot be listed changes nothing;
    (2) every zone held or registered has its file in the listing; (3) a rejected file changes neither
    zones nor registrations, and a zone whose files are rejected is kept; (4) every zone held was read
    from a file of that name in this or an earlier listing; (5) what is registered is what is held. -/
theorem reload_keeps_last_good (site : Site) (pgeodns : Zone) (past : List Listing) (dir : Listing) :
    let mm := reloads site (startManager pgeodns) past
    let mm' := (reload site mm dir).1
    (∀ err, dir = .error err → mm' = mm) ∧
    (∀ files, dir = .ok files → ∀ n, n ≠ "pgeodns" →
      (n ∈ mm'.zonelist ∨ (registered mm'.reg n).isSome) → ∃ f ∈ files, zoneFile f = some n) ∧
    ((∀ p f n err, zoneFile f = some n → readZone site n f = .error err →
        (processFile site p f).mm.zonelist = p.mm.zonelist ∧
        (processFile site p f).mm.reg = p.mm.reg) ∧
      (∀ files n, dir = .ok files → filesOf n files ≠ [] →
        (∀ f ∈ filesOf n files, ∃ err, readZone site n f = .error err) →
        mm'.zonelist.lookup n = mm.zonelist.lookup n)) ∧
    (∀ n z, n ≠ "pgeodns" → mm'.zonelist.lookup n = some z → ∃ f zone, Listed (past ++ [dir]) f ∧
      zoneFile f = some n ∧ readZone site n f = .ok zone ∧ z = zone.setupHealthTests) ∧
    (∀ n, registered mm'.reg n = mm'.zonelist.lookup n) := by
  intro mm mm'
  have reg : ∀ n, registered mm'.reg n = mm'.zonelist.lookup n := by
    intro n
    rw [show Registered mm' from (reloads_registered site pgeodns past).reload dir]
  refine ⟨?_, ?_, ?_, ?_, reg⟩
  · rintro err rfl
    rfl
  · rintro files rfl n ne held
    apply reload_listed ne
    rcases held with mem | isreg
    · exact AList.lookup_isSome.mpr mem
    · rw [reg] at isreg
      exact isreg
  · constructor
    · intro p f n err hn hz
      exact processFile_rejected hn hz p
    · rintro files n rfl has rejected
      exact reload_rejected has rejected
  · intro n z ne hz
    apply reloads_provenance ne
    rw [reloads_append]
    exact hz

end
end GeoDNS.Zones
