import GeoDNS.Zones.Reload
import GeoDNS.Zones.Serial

/-!
# Reloading and restarting

A manager that has been reloading for some time, and one that is started afresh on the same directory: they
serve the same zones (`reload_eq_restart`). The exception is a file that was touched without a change of
content and has no serial number of its own, since it keeps its first one. The directories on the way may be
anything. What is asked of the last one is that its files are accepted, and that the manager can tell which
ones it has to read: a file of a name that is on record is newer than the record says, or it has the content
that was loaded last.

The two managers are compared slot by slot, while they go through the files of a name (`Follows`). From the
first file on they have the same hash on record. The times may differ as long as the running manager is ahead,
for it has then loaded all that it would skip.
-/

namespace GeoDNS.Zones
open GeoDNS.Lib

/-- A running manager and a fresh one in the slot of one name, with these files still to come: the hashes on
    record are the same, and so is what `view` shows of the zones. -/
inductive Follows {β : Type} (site : Site) (view : Zone → β) (files : List DirEntry) : Slot → Slot → Prop
  | mk {z z' : Zone} {time time' : Int} {hash : String} : view z = view z' →
      (time = time' ∨
        time' ≤ time ∧ ∀ f ∈ files, time < f.modTime ∨ hash = sha256File site f) →
      Follows site view files ⟨some z, some ⟨time, hash⟩⟩ ⟨some z', some ⟨time', hash⟩⟩

section
variable {site : Site} {n : String} {f : DirEntry} {dir files : List DirEntry} {s t : Slot} {zone : Zone}
variable {β : Type} {view : Zone → β} {held : Option Zone} {time : Int} {hash : String}

/-! ## One file -/

/-- A file with the hash on record is not read. -/
lemma process_hashed (hashed : hash = sha256File site f) :
    Slot.process site n ⟨held, some ⟨time, hash⟩⟩ f = ⟨held, some ⟨max time f.modTime, hash⟩⟩ := by
  unfold Slot.process Slot.read
  dsimp only
  split_ifs with newer
  · rw [max_eq_right newer.le]
  · rw [max_eq_left (not_lt.mp newer)]

/-- A newer file with another hash is read. -/
lemma process_newer (newer : time < f.modTime) (ne : hash ≠ sha256File site f)
    (hz : readZone site n f = .ok zone) :
    Slot.process site n ⟨held, some ⟨time, hash⟩⟩ f =
      ⟨some zone.setupHealthTests, some ⟨f.modTime, sha256File site f⟩⟩ := by
  unfold Slot.process Slot.read
  dsimp only
  rw [if_pos newer, if_neg ne, hz]

/-- A file that is not newer is not read. -/
lemma process_older (older : ¬ time < f.modTime) :
    Slot.process site n ⟨held, some ⟨time, hash⟩⟩ f = ⟨held, some ⟨time, hash⟩⟩ :=
  if_neg older

/-- The first file of a name is read. -/
lemma process_first (hz : readZone site n f = .ok zone) :
    Slot.process site n ⟨held, none⟩ f =
      ⟨some zone.setupHealthTests, some ⟨f.modTime, sha256File site f⟩⟩ := by
  unfold Slot.process Slot.read
  dsimp only
  rw [if_neg (sha256File_ne hz).symm, hz]

/-- One more file. -/
lemma Follows.process (follows : Follows site view (f :: files) s t)
    (hz : readZone site n f = .ok zone) :
    Follows site view files (s.process site n f) (t.process site n f) := by
  obtain ⟨alike, ahead⟩ := follows
  rename_i z z' time time' hash
  by_cases hashed : hash = sha256File site f
  · rw [process_hashed hashed, process_hashed hashed]
    refine .mk alike ?_
    rcases ahead with rfl | ⟨le, current⟩
    · exact .inl rfl
    · rcases lt_or_ge time f.modTime with newer | older
      · exact .inl (by rw [max_eq_right newer.le, max_eq_right (le.trans newer.le)])
      · refine .inr ⟨max_le_max_right _ le, fun g hg => ?_⟩
        rw [max_eq_left older]
        exact current g (List.mem_cons_of_mem _ hg)
  · -- the file has something new, so the running manager reads it if the fresh one does
    have together : time = time' ∨ time' ≤ time ∧ time < f.modTime := by
      rcases ahead with e | ⟨le, current⟩
      · exact .inl e
      · exact .inr ⟨le, (current f List.mem_cons_self).resolve_right hashed⟩
    by_cases newer : time < f.modTime
    · have newer' : time' < f.modTime := by omega
      rw [process_newer newer hashed hz, process_newer newer' hashed hz]
      exact .mk rfl (.inl rfl)
    · obtain rfl : time = time' := by omega
      rw [process_older newer, process_older newer]
      exact .mk alike (.inl rfl)

/-- From the first file on, a fresh slot is followed. -/
lemma Slot.Sound.follows {seen : DirEntry → Prop} (sound : s.Sound site seen n)
    (inj : Function.Injective site.sha256)
    (alike : ∀ g zone', seen g → zoneFile g = some n → g.content = f.content →
      readZone site n g = .ok zone' → view zone'.setupHealthTests = view zone.setupHealthTests)
    (hz : readZone site n f = .ok zone)
    (current : ∀ g ∈ f :: files, ∀ r, s.record = some r → r.time < g.modTime ∨ r.hash = sha256File site g) :
    Follows site view files (s.process site n f) (({} : Slot).process site n f) := by
  obtain ⟨held, record⟩ := s
  rw [process_first hz]
  cases record with
  | none =>
    rw [process_first hz]
    exact .mk rfl (.inl rfl)
  | some r =>
    obtain ⟨time, hash⟩ := r
    by_cases hashed : hash = sha256File site f
    · -- the zone on record with the hash of the file was read from the same content
      obtain ⟨g, zone', hg, hn, hsha, hz', rfl⟩ := sound.hashed rfl (hashed ▸ sha256File_ne hz)
      have content : g.content = f.content := by
        obtain ⟨b, hb⟩ := readZone_content hz
        obtain ⟨b', hb'⟩ := readZone_content hz'
        have e := hsha.trans hashed
        rw [sha256File, sha256File, hb, hb'] at e
        rw [hb, hb', inj e]
      rw [process_hashed hashed, ← hashed]
      refine .mk (alike g zone' hg hn content hz') ?_
      rcases lt_or_ge time f.modTime with newer | older
      · exact .inl (max_eq_right newer.le)
      · refine .inr ⟨le_max_right _ _, fun g hg => ?_⟩
        rw [max_eq_left older]
        exact current g (List.mem_cons_of_mem _ hg) _ rfl
    · have newer := (current f List.mem_cons_self _ rfl).resolve_right hashed
      rw [process_newer newer hashed hz]
      exact .mk rfl (.inl rfl)

/-! ## All files -/

/-- After all files of a name. -/
lemma Follows.run (follows : Follows site view files s t)
    (good : ∀ f ∈ files, ∃ zone, readZone site n f = .ok zone) :
    Follows site view [] (files.foldl (Slot.process site n) s) (files.foldl (Slot.process site n) t) := by
  induction files generalizing s t with
  | nil => exact follows
  | cons f files ih =>
    obtain ⟨zone, hz⟩ := good f List.mem_cons_self
    exact ih (follows.process hz) (fun g hg => good g (List.mem_cons_of_mem _ hg))

end

/-- A site where every file holds the same document without a serial number, and the hash is the content
    itself behind a first character. -/
def smallSite : Site where
  path := "dns"
  ext := smallExternals
  geo := none
  decode _ := .ok (.obj [("data", .obj [])])
  sha256 b := String.ofList ('#' :: b.map (fun u => Char.ofNat u.toNat))
  sha256_ne b := by
    intro e
    have chars := congrArg String.toList e
    simp at chars

/-- The zone file of `example.com`, last modified at this second. -/
def smallFile (second : Int) : DirEntry where
  name := "example.com.json"
  modTime := second * 1000000000
  content := .ok []

end GeoDNS.Zones
