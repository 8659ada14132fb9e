import GeoDNS.Health.Registry
import GeoDNS.Lib.Run

/-!
# Looking up a status while the directory is reloaded

`DirectoryReader` reloads the health directory in a goroutine of its own, and queries call `GetStatus` at any
time. The registry has a lock, and so has each status file; neither is held for the whole of a reload or of a
lookup. A lookup takes a pointer from the registry in one step and asks the file behind it in another, and in
between the file may have been reloaded, or closed and removed, and another one of its name may have come.

The steps of the process are what is done under one lock, so that the removal at the end of a reload, which
holds the lock of the registry, is a sequence of steps during which no pointer can be taken. In every run, the
registry is between the one before and the one after the reload that is under way (`between_of_run`), for each
name by itself: it is loaded once in a reload, or removed at its end, and to load it twice changes nothing.
What this means for the lookups is in `Health/Lookup.lean`.
-/

namespace GeoDNS.Health.Shared
open GeoDNS.Lib

/-- Where `reloadDirectory` is. -/
inductive Reader where
  | sleeping
  -- the loop over the files, of which these names have been seen
  | looping (d : Directory) (files : List FileInfo) (seen : List String)
  -- the name of a file has been looked up, and it is registered or not
  | reloading (d : Directory) (files : List FileInfo) (seen : List String) (name : String) (p : Nat)
  | making (d : Directory) (files : List FileInfo) (seen : List String) (name : String) (f : FileInfo)
  | adding (d : Directory) (files : List FileInfo) (seen : List String) (name : String) (p : Nat)
  -- the loop over the registry, which is locked
  | removing (seen names : List String)
  | closed (seen names : List String) (name : String)

/-- The registry is locked for longer than one step. -/
def Reader.Locks : Reader → Prop
  | .removing _ _ => True
  | .closed _ _ _ => True
  | _ => False

/-- Where a call of `GetStatus` is. -/
inductive Query where
  | calling
  | found (p : Option Nat)
  | done (status : Res StatusType)

/-- The process: the status files are behind pointers. -/
structure Process where
  registry : GoMap String Nat := ∅
  heap : Nat → StatusFile := fun _ => ⟨"", none⟩
  next : Nat := 0
  reader : Reader := .sleeping
  query : Nat → Query := fun _ => .calling

/-- The registry with the status files themselves. -/
def Process.view (s : Process) : Registry :=
  s.registry.mapVals (fun _ p => s.heap p)

/-- A status file is written. -/
def Process.write (s : Process) (p : Nat) (file : StatusFile) : Process :=
  { s with heap := Function.update s.heap p file }

/-- A status file is made. -/
def Process.alloc (s : Process) (file : StatusFile) : Process :=
  { s with heap := Function.update s.heap s.next file, next := s.next + 1 }

/-- The reader takes a step. -/
def Process.turn (s : Process) (next : Reader) : Process :=
  { s with reader := next }

/-- A query takes a step. -/
def Process.go (s : Process) (q : Nat) (next : Query) : Process :=
  { s with query := Function.update s.query q next }

/-- The steps. -/
inductive Act where
  | list (d : Directory)
  | skip
  | find
  | reload
  | make
  | add
  | lock
  | keep
  | close
  | delete
  | unlock
  | look (q : Nat)
  | answer (q : Nat)

/-- What the process runs on: the directory, and the tests that the queries ask for. -/
structure Setting where
  dir : String
  test : Nat → String

/-- The steps of the process. -/
inductive Step (e : Setting) (s : Process) : Act → Process → Prop
  | unlisted {d err} (here : s.reader = .sleeping) (list : d.list = .error err) : Step e s (.list d) s
  | list {d files} (here : s.reader = .sleeping) (list : d.list = .ok files) :
      Step e s (.list d) (s.turn (.looping d files []))
  | skip {d f files seen} (here : s.reader = .looping d (f :: files) seen) (other : statusFile f = none) :
      Step e s .skip (s.turn (.looping d files seen))
  | find {d f files seen name} (here : s.reader = .looping d (f :: files) seen)
      (file : statusFile f = some name) :
      Step e s .find
        (s.turn
          (match s.registry.lookup name with
          | some p => .reloading d files seen name p
          | none => .making d files seen name f))
  | reload {d files seen name p} (here : s.reader = .reloading d files seen name p) :
      Step e s .reload ((s.write p ((s.heap p).reload d).1).turn (.looping d files (name :: seen)))
  | make {d files seen name f} (here : s.reader = .making d files seen name f) :
      Step e s .make
        ((s.alloc ((newStatusFile (e.dir ++ "/" ++ f.name)).reload d).1).turn
          (.adding d files seen name s.next))
  | add {d files seen name p} (here : s.reader = .adding d files seen name p) :
      Step e s .add
        (({ s with registry := s.registry.insert name p } : Process).turn (.looping d files (name :: seen)))
  -- the names come in any order
  | lock {d seen names} (here : s.reader = .looping d [] seen) (order : names.Perm s.registry.keys) :
      Step e s .lock (s.turn (.removing seen names))
  | keep {seen name names} (here : s.reader = .removing seen (name :: names)) (known : name ∈ seen) :
      Step e s .keep (s.turn (.removing seen names))
  | close {seen name names p} (here : s.reader = .removing seen (name :: names)) (gone : name ∉ seen)
      (registered : s.registry.lookup name = some p) :
      Step e s .close ((s.write p { s.heap p with m := none }).turn (.closed seen names name))
  | delete {seen names name} (here : s.reader = .closed seen names name) :
      Step e s .delete
        (({ s with registry := s.registry.erase name } : Process).turn (.removing seen names))
  | unlock {seen} (here : s.reader = .removing seen []) : Step e s .unlock (s.turn .sleeping)
  | look {q file check} (here : s.query q = .calling) (test : splitN2 (e.test q) '/' = [file, check])
      (free : ¬ s.reader.Locks) : Step e s (.look q) (s.go q (.found (s.registry.lookup file)))
  | unnamed {q} (here : s.query q = .calling)
      (test : ∀ file check, splitN2 (e.test q) '/' ≠ [file, check]) :
      Step e s (.look q) (s.go q (.done (.ok statusUnknown)))
  | missing {q} (here : s.query q = .found none) :
      Step e s (.answer q) (s.go q (.done (.ok statusUnknown)))
  | answer {q p file check} (here : s.query q = .found (some p))
      (test : splitN2 (e.test q) '/' = [file, check]) :
      Step e s (.answer q) (s.go q (.done ((s.heap p).getStatus check)))

/-! ## A reload, from any place on -/

/-- The rest of a reload, from the loop over these files on. -/
def finish (dir : String) (d : Directory) (files : List FileInfo) (p : Reloading) : Registry :=
  removeUnseen (files.foldl (reloadFile dir d) p).seen (files.foldl (reloadFile dir d) p).registry

/-- The file has the content of the directory. -/
def Fresh (d : Directory) (r : Registry) (n : String) : Prop :=
  ∃ s, r.lookup n = some s ∧ (s.reload d).1 = s

section
variable {dir n name : String} {d : Directory} {f : FileInfo} {files : List FileInfo} {p p' : Reloading}
variable {r r' : Registry} {seen : List String}

/-- To reload a file twice is to reload it once. -/
lemma reload_reload (d : Directory) (s : StatusFile) : ((s.reload d).1.reload d).1 = (s.reload d).1 := by
  by_cases named : s.filename = ""
  · have same : (s.reload d).1 = s := by
      rw [StatusFile.reload, if_neg (not_not.mpr named)]
    rw [same, same]
  · cases read : d.content s.filename with
    | error err =>
      have same : (s.reload d).1 = s := by
        rw [StatusFile.reload, if_pos named, StatusFile.load, read]
      rw [same, same]
    | ok m =>
      have loaded : ∀ old, ((⟨s.filename, old⟩ : StatusFile).reload d).1 = ⟨s.filename, m⟩ := by
        intro old
        rw [StatusFile.reload, if_pos named, StatusFile.load, read]
      have once : (s.reload d).1 = ⟨s.filename, m⟩ := loaded s.m
      rw [once]
      exact loaded m

/-- Two states of the loop that hold the same files. -/
structure Alike (p p' : Reloading) : Prop where
  seen : p.seen = p'.seen
  registry : ∀ n, p.registry.lookup n = p'.registry.lookup n

/-- What one file of the directory does. -/
lemma reloadFile_lookup (file : statusFile f = some name) (n : String) :
    (reloadFile dir d p f).registry.lookup n =
      if n = name then
        some (((p.registry.lookup name).getD (newStatusFile (dir ++ "/" ++ f.name))).reload d).1
      else p.registry.lookup n := by
  unfold reloadFile
  rw [file]
  dsimp only
  cases p.registry.lookup name with
  | some s => exact GoMap.lookup_insert_eq_ite _ _ _ _
  | none => exact GoMap.lookup_insert_eq_ite _ _ _ _

/-- A status file is marked as seen. -/
lemma reloadFile_seen (file : statusFile f = some name) :
    (reloadFile dir d p f).seen = name :: p.seen := by
  unfold reloadFile
  rw [file]
  dsimp only
  cases p.registry.lookup name <;> rfl

/-- Other files are passed over. -/
lemma reloadFile_skip (other : statusFile f = none) : reloadFile dir d p f = p := by
  unfold reloadFile
  rw [other]

/-- Registries that agree still agree after one more file. -/
lemma Alike.reloadFile (alike : Alike p p') (dir : String) (d : Directory) (f : FileInfo) :
    Alike (reloadFile dir d p f) (reloadFile dir d p' f) := by
  cases file : statusFile f with
  | none =>
    rw [reloadFile_skip file, reloadFile_skip file]
    exact alike
  | some name =>
    constructor
    · rw [reloadFile_seen file, reloadFile_seen file, alike.seen]
    · intro n
      rw [reloadFile_lookup file, reloadFile_lookup file, alike.registry, alike.registry]

/-- Behind the last file only the names seen are left. -/
lemma finish_nil (dir : String) (d : Directory) (p : Reloading) (n : String) :
    (finish dir d [] p).lookup n = if n ∈ p.seen then p.registry.lookup n else none := by
  rw [finish, List.foldl_nil, lookup_removeUnseen]

/-- The rest of a pass over a listing takes one file after the other. -/
lemma finish_cons (dir : String) (d : Directory) (f : FileInfo) (files : List FileInfo) (p : Reloading) :
    finish dir d (f :: files) p = finish dir d files (reloadFile dir d p f) := by
  rw [finish, List.foldl_cons, finish]

/-- Registries that agree still agree at the end. -/
lemma Alike.finish (alike : Alike p p') (dir : String) (d : Directory) (files : List FileInfo) (n : String) :
    (finish dir d files p).lookup n = (finish dir d files p').lookup n := by
  induction files generalizing p p' with
  | nil => rw [finish_nil, finish_nil, alike.seen, alike.registry]
  | cons f files ih =>
    rw [finish_cons, finish_cons]
    exact ih (alike.reloadFile dir d f)

/-- A file that has been loaded stays as it is. -/
lemma finish_fresh (files : List FileInfo) (known : n ∈ p.seen) (fresh : Fresh d p.registry n) :
    (finish dir d files p).lookup n = p.registry.lookup n := by
  induction files generalizing p with
  | nil => rw [finish_nil, if_pos known]
  | cons f files ih =>
    rw [finish_cons]
    cases file : statusFile f with
    | none =>
      rw [reloadFile_skip file]
      exact ih known fresh
    | some name =>
      have same : (reloadFile dir d p f).registry.lookup n = p.registry.lookup n := by
        rw [reloadFile_lookup file]
        split_ifs with e
        · subst e
          obtain ⟨s, hs, again⟩ := fresh
          rw [hs, Option.getD_some, again]
        · rfl
      obtain ⟨s, hs, again⟩ := fresh
      rw [ih (by rw [reloadFile_seen file]; exact List.mem_cons_of_mem _ known)
        ⟨s, same.trans hs, again⟩, same]

end

/-! ## What is registered in the middle of a reload -/

/-- The rest of a reload leads to this registry. -/
def Leads (dir : String) (d : Directory) (files : List FileInfo) (seen : List String) (r new : Registry) :
    Prop :=
  ∀ n, (finish dir d files { registry := r, seen := seen }).lookup n = new.lookup n

/-- The names that have been seen are loaded, the others are as before the reload. -/
structure Partly (d : Directory) (old : Registry) (seen : List String) (r : Registry) : Prop where
  kept : ∀ n ∉ seen, r.lookup n = old.lookup n
  fresh : ∀ n ∈ seen, Fresh d r n

/-- The names that have been seen are as after the reload. The others are gone after it; before that, they
    are as before the reload as long as the loop has not come to them. -/
structure Removing (old new : Registry) (seen names : List String) (r : Registry) : Prop where
  here : ∀ n ∈ seen, r.lookup n = new.lookup n
  gone : ∀ n ∉ seen, new.lookup n = none
  left : ∀ n ∉ seen, r.lookup n = if n ∈ names then old.lookup n else none

/-- The process is between the registry before a reload and the one after it. -/
def Between (dir : String) (old new : Registry) (s : Process) : Prop :=
  match s.reader with
  | .sleeping => ∀ n, s.view.lookup n = new.lookup n
  | .looping d files seen => Partly d old seen s.view ∧ Leads dir d files seen s.view new
  | .reloading d files seen name p => Partly d old seen s.view ∧ s.registry.lookup name = some p ∧
      Leads dir d files (name :: seen) (s.view.insert name ((s.heap p).reload d).1) new
  | .making d files seen name f => Partly d old seen s.view ∧ s.registry.lookup name = none ∧
      Leads dir d files (name :: seen)
        (s.view.insert name ((newStatusFile (dir ++ "/" ++ f.name)).reload d).1) new
  | .adding d files seen name p => Partly d old seen s.view ∧ s.registry.lookup name = none ∧
      ((s.heap p).reload d).1 = s.heap p ∧
      Leads dir d files (name :: seen) (s.view.insert name (s.heap p)) new
  | .removing seen names => names.Nodup ∧ Removing old new seen names s.view
  | .closed seen names name => name ∉ seen ∧ (name :: names).Nodup ∧
      (∃ p, s.registry.lookup name = some p ∧ (s.heap p).m = none) ∧
      Removing old new seen names (s.view.erase name)

/-- The pointers: each is registered under one name, and one that is to be added is new to everybody. -/
structure Sound (s : Process) : Prop where
  below : ∀ {n p}, s.registry.lookup n = some p → p < s.next
  one : ∀ {n n' p}, s.registry.lookup n = some p → s.registry.lookup n' = some p → n = n'
  found : ∀ {q p}, s.query q = .found (some p) → p < s.next
  new : ∀ {d files seen name p}, s.reader = .adding d files seen name p →
    p < s.next ∧ (∀ n, s.registry.lookup n ≠ some p) ∧ ∀ q, s.query q ≠ .found (some p)

section
variable {e : Setting} {s t : Process} {a : Act} {dir n name : String} {d : Directory} {f : FileInfo}
variable {files : List FileInfo} {old new r r' : Registry} {seen names : List String} {p q : Nat}
variable {file : StatusFile}

/-- A name in the registry as it is seen. -/
lemma lookup_view (s : Process) (n : String) : s.view.lookup n = (s.registry.lookup n).map s.heap :=
  GoMap.lookup_mapVals _ _ _

/-- Registries that agree still agree after an insertion. -/
lemma lookup_insert_congr (same : ∀ n, r'.lookup n = r.lookup n) (n : String) :
    (r'.insert name file).lookup n = (r.insert name file).lookup n := by
  rw [GoMap.lookup_insert_eq_ite, GoMap.lookup_insert_eq_ite, same]

/-- Only the lookups matter for where a pass leads to. -/
lemma Leads.congr (leads : Leads dir d files seen r new) (same : ∀ n, r'.lookup n = r.lookup n) :
    Leads dir d files seen r' new := by
  intro n
  have alike : Alike { registry := r', seen := seen } { registry := r, seen := seen } := ⟨rfl, same⟩
  rw [← leads n]
  exact alike.finish dir d files n

/-- Only the lookups matter for how far a pass has come. -/
lemma Partly.congr (partly : Partly d old seen r) (same : ∀ n, r'.lookup n = r.lookup n) :
    Partly d old seen r' := by
  constructor
  · intro n other
    rw [same, partly.kept n other]
  · intro n known
    unfold Fresh
    rw [same]
    exact partly.fresh n known

/-- Only the lookups matter for how far the removal has come. -/
lemma Removing.congr (removing : Removing old new seen names r) (same : ∀ n, r'.lookup n = r.lookup n) :
    Removing old new seen names r' := by
  refine ⟨?_, removing.gone, ?_⟩
  · intro n known
    rw [same, removing.here n known]
  · intro n other
    rw [same, removing.left n other]

/-- When a name is loaded, the registry is between the old one and the new one. -/
lemma Partly.load (partly : Partly d old seen r) (again : (file.reload d).1 = file) :
    Partly d old (name :: seen) (r.insert name file) := by
  constructor
  · intro n other
    obtain ⟨ne, other⟩ := not_or.mp (List.mem_cons.not.mp other)
    rw [GoMap.lookup_insert_eq_ite, if_neg ne, partly.kept n other]
  · intro n known
    unfold Fresh
    rw [GoMap.lookup_insert_eq_ite]
    split_ifs with e
    · exact ⟨file, rfl, again⟩
    · exact partly.fresh n ((List.mem_cons.mp known).resolve_left e)

/-- To write a registered file is to replace it in the registry. -/
lemma Sound.view_write (sound : Sound s) (registered : s.registry.lookup name = some p) (n : String) :
    (s.write p file).view.lookup n = (s.view.insert name file).lookup n := by
  rw [lookup_view, GoMap.lookup_insert_eq_ite, lookup_view]
  show (s.registry.lookup n).map (Function.update s.heap p file) = _
  split_ifs with e
  · rw [e, registered, Option.map_some, Function.update_self]
  · cases found : s.registry.lookup n with
    | none => rfl
    | some p' =>
      have ne : p' ≠ p := by
        rintro rfl
        exact e (sound.one found registered)
      rw [Option.map_some, Option.map_some, Function.update_of_ne ne]

/-- A file that is made is not registered yet. -/
lemma Sound.view_alloc (sound : Sound s) (n : String) :
    (s.alloc file).view.lookup n = s.view.lookup n := by
  rw [lookup_view, lookup_view]
  show (s.registry.lookup n).map (Function.update s.heap s.next file) = _
  cases found : s.registry.lookup n with
  | none => rfl
  | some p => rw [Option.map_some, Option.map_some, Function.update_of_ne (sound.below found).ne]

/-- The registry after a file has been added. -/
lemma lookup_register (s : Process) (name : String) (p : Nat) (next : Reader) (n : String) :
    (({ s with registry := s.registry.insert name p } : Process).turn next).registry.lookup n =
      if n = name then some p else s.registry.lookup n :=
  GoMap.lookup_insert_eq_ite _ _ _ _

/-- The registry after a file has been deleted. -/
lemma lookup_unregister (s : Process) (name : String) (next : Reader) (n : String) :
    (({ s with registry := s.registry.erase name } : Process).turn next).registry.lookup n =
      if n = name then none else s.registry.lookup n :=
  GoMap.lookup_erase_eq_ite _ _ _

/-- The files as they are seen after one has been added. -/
lemma view_register (s : Process) (name : String) (p : Nat) (n : String) :
    ({ s with registry := s.registry.insert name p } : Process).view.lookup n =
      (s.view.insert name (s.heap p)).lookup n := by
  rw [lookup_view, GoMap.lookup_insert_eq_ite, GoMap.lookup_insert_eq_ite, lookup_view]
  split_ifs <;> rfl

/-- The files as they are seen after one has been deleted. -/
lemma view_unregister (s : Process) (name n : String) :
    ({ s with registry := s.registry.erase name } : Process).view.lookup n =
      (s.view.erase name).lookup n := by
  rw [lookup_view, GoMap.lookup_erase_eq_ite, GoMap.lookup_erase_eq_ite, lookup_view]
  split_ifs <;> rfl

/-- The steps of the loop over the files. -/
lemma Leads.find (leads : Leads dir d (f :: files) seen r new) (here : statusFile f = some name) :
    Leads dir d files (name :: seen)
      (r.insert name (((r.lookup name).getD (newStatusFile (dir ++ "/" ++ f.name))).reload d).1) new := by
  intro n
  rw [← leads n, finish_cons]
  have alike : Alike
      { registry := r.insert name (((r.lookup name).getD (newStatusFile (dir ++ "/" ++ f.name))).reload d).1,
        seen := name :: seen }
      (reloadFile dir d { registry := r, seen := seen } f) := by
    constructor
    · rw [reloadFile_seen here]
    · intro n
      rw [reloadFile_lookup here]
      exact GoMap.lookup_insert_eq_ite _ _ _ _
  exact alike.finish dir d files n

/-- A file that is no status file is passed over. -/
lemma Leads.skip (leads : Leads dir d (f :: files) seen r new) (other : statusFile f = none) :
    Leads dir d files seen r new := by
  intro n
  rw [← leads n, finish_cons, reloadFile_skip other]

/-- The loop over the registry begins. -/
lemma Partly.lock (partly : Partly d old seen r) (leads : Leads dir d [] seen r new)
    (order : ∀ n, n ∈ names ↔ (r.lookup n).isSome) : Removing old new seen names r := by
  have final : ∀ n, (if n ∈ seen then r.lookup n else none) = new.lookup n := by
    intro n
    rw [← leads n, finish_nil]
  refine ⟨?_, ?_, ?_⟩
  · intro n known
    rw [← final, if_pos known]
  · intro n other
    rw [← final, if_neg other]
  · intro n other
    split_ifs with named
    · exact partly.kept n other
    · cases found : r.lookup n with
      | none => rfl
      | some file =>
        rw [order, found] at named
        exact (named rfl).elim

/-- A name that was seen is kept. -/
lemma Removing.keep (removing : Removing old new seen (name :: names) r) (known : name ∈ seen) :
    Removing old new seen names r := by
  refine ⟨removing.here, removing.gone, ?_⟩
  intro n other
  have ne : n ≠ name := by
    rintro rfl
    exact other known
  rw [removing.left n other]
  simp [ne]

/-- A name that was not seen is deleted. -/
lemma Removing.delete (removing : Removing old new seen (name :: names) r) (gone : name ∉ seen)
    (once : name ∉ names) : Removing old new seen names (r.erase name) := by
  refine ⟨?_, removing.gone, ?_⟩
  · intro n known
    have ne : n ≠ name := by
      rintro rfl
      exact gone known
    rw [GoMap.lookup_erase_eq_ite, if_neg ne, removing.here n known]
  · intro n other
    rw [GoMap.lookup_erase_eq_ite]
    split_ifs with e named named
    · subst e
      exact (once named).elim
    · rfl
    · rw [removing.left n other, if_pos (List.mem_cons_of_mem _ named)]
    · rw [removing.left n other, if_neg (by simp [e, named])]

/-- In the loop over the files, the registry is between the old one and the new one. -/
lemma between_looping : Between dir old new (s.turn (.looping d files seen)) ↔
    Partly d old seen s.view ∧ Leads dir d files seen s.view new := Iff.rfl

/-- It is so before a new file is added. -/
lemma between_adding : Between dir old new (s.turn (.adding d files seen name p)) ↔
    Partly d old seen s.view ∧ s.registry.lookup name = none ∧ ((s.heap p).reload d).1 = s.heap p ∧
      Leads dir d files (name :: seen) (s.view.insert name (s.heap p)) new := Iff.rfl

/-- It is so in the loop over the registry. -/
lemma between_removing : Between dir old new (s.turn (.removing seen names)) ↔
    names.Nodup ∧ Removing old new seen names s.view := Iff.rfl

/-- Between the close of a file and its deletion. -/
lemma between_closed : Between dir old new (s.turn (.closed seen names name)) ↔
    name ∉ seen ∧ (name :: names).Nodup ∧ (∃ p, s.registry.lookup name = some p ∧ (s.heap p).m = none) ∧
      Removing old new seen names (s.view.erase name) := Iff.rfl

/-- When a reload begins, the registry is between the old one and the new one. -/
lemma Between.list (between : Between dir old new s) (here : s.reader = .sleeping)
    (list : d.list = .ok files) :
    Between dir new (reloadDirectory dir d new).1 (s.turn (.looping d files [])) := by
  have view : ∀ n, s.view.lookup n = new.lookup n := by
    rw [Between, here] at between
    exact between
  refine ⟨⟨fun n _ => view n, fun n known => by cases known⟩, ?_⟩
  have leads : Leads dir d files [] new (reloadDirectory dir d new).1 := by
    intro n
    rw [reloadDirectory, list]
    rfl
  exact leads.congr view

/-- Every other step stays between the two registries. -/
lemma Between.step (between : Between e.dir old new s) (sound : Sound s) (st : Step e s a t)
    (other : ∀ d, a ≠ .list d) : Between e.dir old new t := by
  cases st with
  | unlisted _ _ => exact (other _ rfl).elim
  | list _ _ => exact (other _ rfl).elim
  | skip here foreign =>
    rw [Between, here] at between
    exact ⟨between.1, between.2.skip foreign⟩
  | @find d f files seen name here file =>
    rw [Between, here] at between
    obtain ⟨partly, leads⟩ := between
    have leads := leads.find file
    rw [lookup_view] at leads
    cases found : s.registry.lookup name with
    | some p =>
      rw [found] at leads
      exact ⟨partly, found, leads⟩
    | none =>
      rw [found] at leads
      exact ⟨partly, found, leads⟩
  | @reload d files seen name p here =>
    rw [Between, here] at between
    obtain ⟨partly, registered, leads⟩ := between
    rw [between_looping]
    exact ⟨(partly.load (reload_reload _ _)).congr (sound.view_write registered),
      leads.congr (sound.view_write registered)⟩
  | @make d files seen name f here =>
    rw [Between, here] at between
    obtain ⟨partly, absent, leads⟩ := between
    have made : ∀ file, (s.alloc file).heap s.next = file := fun file => Function.update_self _ _ _
    rw [between_adding, made]
    exact ⟨partly.congr sound.view_alloc, absent, reload_reload _ _,
      leads.congr (lookup_insert_congr sound.view_alloc)⟩
  | @add d files seen name p here =>
    rw [Between, here] at between
    obtain ⟨partly, -, again, leads⟩ := between
    rw [between_looping]
    exact ⟨(partly.load again).congr (view_register s name p), leads.congr (view_register s name p)⟩
  | lock here order =>
    rw [Between, here] at between
    obtain ⟨partly, leads⟩ := between
    refine ⟨order.nodup_iff.mpr s.registry.nodupKeys, partly.lock leads ?_⟩
    intro n
    rw [order.mem_iff, lookup_view, Option.isSome_map]
    exact AList.lookup_isSome.symm
  | keep here known =>
    rw [Between, here] at between
    exact ⟨(List.nodup_cons.mp between.1).2, between.2.keep known⟩
  | @close seen name names p here gone registered =>
    rw [Between, here] at between
    obtain ⟨nodup, removing⟩ := between
    have written : ∀ file, (s.write p file).heap p = file := fun file => Function.update_self _ _ _
    rw [between_closed]
    refine ⟨gone, nodup, ⟨p, registered, by rw [written]⟩, ?_⟩
    apply (removing.delete gone (List.nodup_cons.mp nodup).1).congr
    intro n
    rw [GoMap.lookup_erase_eq_ite, GoMap.lookup_erase_eq_ite, sound.view_write registered,
      GoMap.lookup_insert_eq_ite]
    split_ifs <;> rfl
  | @delete seen names name here =>
    rw [Between, here] at between
    obtain ⟨-, nodup, -, removing⟩ := between
    rw [between_removing]
    exact ⟨(List.nodup_cons.mp nodup).2, removing.congr (view_unregister s name)⟩
  | @unlock seen here =>
    rw [Between, here] at between
    obtain ⟨-, removing⟩ := between
    intro n
    by_cases known : n ∈ seen
    · exact removing.here n known
    · have left := removing.left n known
      rw [if_neg (List.not_mem_nil)] at left
      exact left.trans (removing.gone n known).symm
  | look _ _ _ => exact between
  | unnamed _ _ => exact between
  | missing _ => exact between
  | answer _ _ => exact between

/-- In the loop over the files, every name is as before or as after the reload. -/
lemma Partly.either {seen' : List String} (partly : Partly d old seen r)
    (leads : Leads dir d files seen' r' new)
    (more : n ∈ seen → n ∈ seen' ∧ r'.lookup n = r.lookup n) :
    r.lookup n = old.lookup n ∨ r.lookup n = new.lookup n := by
  by_cases known : n ∈ seen
  · obtain ⟨known', same⟩ := more known
    obtain ⟨file, hfile, again⟩ := partly.fresh n known
    rw [← leads n, finish_fresh files known' ⟨file, same.trans hfile, again⟩, same]
    exact .inr rfl
  · exact .inl (partly.kept n known)

/-- Every file is as before the pass or as after it. -/
lemma Removing.either (removing : Removing old new seen names r) (n : String) :
    r.lookup n = old.lookup n ∨ r.lookup n = new.lookup n := by
  by_cases known : n ∈ seen
  · exact .inr (removing.here n known)
  · have left := removing.left n known
    split_ifs at left
    · exact .inl left
    · exact .inr (left.trans (removing.gone n known).symm)

/-- Every file that is registered is as before the reload, or as after it, or closed and gone after it. -/
lemma Between.view (between : Between dir old new s) (n : String) :
    (s.reader ≠ .sleeping ∧ s.view.lookup n = old.lookup n) ∨ s.view.lookup n = new.lookup n ∨
      ∃ file, s.view.lookup n = some file ∧ file.m = none ∧ new.lookup n = none := by
  have absent_other : ∀ {name file}, s.registry.lookup name = none → (s.view.lookup n).isSome →
      (s.view.insert name file).lookup n = s.view.lookup n := by
    intro name file absent some
    rw [GoMap.lookup_insert_eq_ite]
    split_ifs with e
    · rw [e, lookup_view, absent] at some
      cases some
    · rfl
  unfold Between at between
  cases here : s.reader with
  | sleeping =>
    rw [here] at between
    exact .inr (.inl (between n))
  | looping d files seen =>
    rw [here] at between
    exact (between.1.either between.2 (fun known => ⟨known, rfl⟩)).imp (fun h => ⟨nofun, h⟩) .inl
  | reloading d files seen name p =>
    rw [here] at between
    obtain ⟨partly, registered, leads⟩ := between
    refine (partly.either leads fun known => ⟨List.mem_cons_of_mem _ known, ?_⟩).imp
      (fun h => ⟨nofun, h⟩) .inl
    rw [GoMap.lookup_insert_eq_ite]
    split_ifs with e
    · subst e
      obtain ⟨file, hfile, again⟩ := partly.fresh n known
      rw [lookup_view, registered, Option.map_some] at hfile
      rw [lookup_view, registered, Option.map_some, Option.some.inj hfile, again]
    · rfl
  | making d files seen name f =>
    rw [here] at between
    obtain ⟨partly, absent, leads⟩ := between
    refine (partly.either leads fun known => ⟨List.mem_cons_of_mem _ known, absent_other absent ?_⟩).imp
      (fun h => ⟨nofun, h⟩) .inl
    obtain ⟨file, hfile, -⟩ := partly.fresh n known
    rw [hfile]
    rfl
  | adding d files seen name p =>
    rw [here] at between
    obtain ⟨partly, absent, -, leads⟩ := between
    refine (partly.either leads fun known => ⟨List.mem_cons_of_mem _ known, absent_other absent ?_⟩).imp
      (fun h => ⟨nofun, h⟩) .inl
    obtain ⟨file, hfile, -⟩ := partly.fresh n known
    rw [hfile]
    rfl
  | removing seen names =>
    rw [here] at between
    exact (between.2.either n).imp (fun h => ⟨nofun, h⟩) .inl
  | closed seen names name =>
    rw [here] at between
    obtain ⟨gone, -, ⟨p, registered, nil⟩, removing⟩ := between
    by_cases e : n = name
    · subst e
      refine .inr (.inr ⟨s.heap p, ?_, nil, removing.gone n gone⟩)
      rw [lookup_view, registered]
      rfl
    · have either := removing.either n
      rw [GoMap.lookup_erase_eq_ite, if_neg e] at either
      exact either.imp (fun h => ⟨nofun, h⟩) .inl

/-- A file that is closed has no status. -/
lemma getStatus_closed {check : String} (nil : file.m = none) :
    file.getStatus check = .ok statusUnknown := by
  rw [StatusFile.getStatus, nil]

/-- So a status is one before or after the reload. -/
lemma Between.getStatus (between : Between dir old new s) (test : String) :
    (s.reader ≠ .sleeping ∧ getStatus s.view test = getStatus old test) ∨
      getStatus s.view test = getStatus new test := by
  unfold Health.getStatus
  split
  case h_1 file check split =>
    rcases between.view file with ⟨awake, same⟩ | same | ⟨closed, found, nil, gone⟩
    · rw [same]
      exact .inl ⟨awake, rfl⟩
    · rw [same]
      exact .inr rfl
    · rw [found, gone]
      exact .inr (getStatus_closed nil)
  case h_2 => exact .inr rfl

/-! ## Pointers -/

/-- A call takes a step; a pointer that it finds is registered. -/
lemma Sound.go {next : Query} (sound : Sound s)
    (known : ∀ p, next = .found (some p) → ∃ n, s.registry.lookup n = some p) : Sound (s.go q next) := by
  have query : ∀ {q' p}, (s.go q next).query q' = .found (some p) →
      s.query q' = .found (some p) ∨ ∃ n, s.registry.lookup n = some p := by
    intro q' p found
    by_cases e : q' = q
    · subst e
      exact .inr (known p ((Function.update_self _ _ _).symm.trans found))
    · exact .inl ((Function.update_of_ne e _ _).symm.trans found)
  refine ⟨sound.below, sound.one, ?_, ?_⟩
  · intro q' p found
    rcases query found with found | ⟨n, found⟩
    · exact sound.found found
    · exact sound.below found
  · intro d files seen name p adding
    obtain ⟨below, fresh, unseen⟩ := sound.new adding
    refine ⟨below, fresh, ?_⟩
    intro q' found
    rcases query found with found | ⟨n, found⟩
    · exact unseen q' found
    · exact fresh n found

/-- Every step keeps the state sound. -/
lemma Sound.step (sound : Sound s) (st : Step e s a t) : Sound t := by
  cases st with
  | unlisted _ _ => exact sound
  | list _ _ => exact ⟨sound.below, sound.one, sound.found, nofun⟩
  | skip _ _ => exact ⟨sound.below, sound.one, sound.found, nofun⟩
  | @find d f files seen name here file =>
    refine ⟨sound.below, sound.one, sound.found, ?_⟩
    intro d files seen name' p adding
    unfold Process.turn at adding
    dsimp only at adding
    split at adding <;> cases adding
  | reload _ => exact ⟨sound.below, sound.one, sound.found, nofun⟩
  | make here =>
    refine ⟨fun found => Nat.lt_succ_of_lt (sound.below found), sound.one,
      fun found => Nat.lt_succ_of_lt (sound.found found), ?_⟩
    rintro _ _ _ _ _ ⟨⟩
    exact ⟨Nat.lt_succ_self _, fun n found => (sound.below found).ne rfl,
      fun q found => (sound.found found).ne rfl⟩
  | @add d files seen name p here =>
    obtain ⟨below, fresh, -⟩ := sound.new here
    refine ⟨?_, ?_, sound.found, nofun⟩
    · intro n p' found
      rw [lookup_register] at found
      split_ifs at found
      · cases found
        exact below
      · exact sound.below found
    · intro n n' p' found found'
      rw [lookup_register] at found found'
      split_ifs at found found' with e e' e'
      · rw [e, e']
      · cases found
        exact (fresh n' found').elim
      · cases found'
        exact (fresh n found).elim
      · exact sound.one found found'
  | lock _ _ => exact ⟨sound.below, sound.one, sound.found, nofun⟩
  | keep _ _ => exact ⟨sound.below, sound.one, sound.found, nofun⟩
  | close _ _ _ => exact ⟨sound.below, sound.one, sound.found, nofun⟩
  | @delete seen names name here =>
    have kept : ∀ {n p}, (({ s with registry := s.registry.erase name } : Process).turn
        (.removing seen names)).registry.lookup n = some p → s.registry.lookup n = some p := by
      intro n p found
      rw [lookup_unregister] at found
      split_ifs at found
      exact found
    exact ⟨fun found => sound.below (kept found), fun found found' => sound.one (kept found) (kept found'),
      sound.found, nofun⟩
  | unlock _ => exact ⟨sound.below, sound.one, sound.found, nofun⟩
  | look _ _ _ => exact sound.go fun p found => ⟨_, Query.found.inj found⟩
  | unnamed _ _ => exact sound.go nofun
  | missing _ => exact sound.go nofun
  | answer _ _ => exact sound.go nofun

end

/-! ## Runs -/

/-- The directories that have been reloaded, one after the other. -/
def passes (acts : List Act) : List Directory :=
  acts.filterMap fun
    | .list d => some d
    | _ => none

/-- The registry after these reloads. -/
def loaded (dir : String) (ds : List Directory) : Registry :=
  ds.foldl (fun r d => (reloadDirectory dir d r).1) ∅

section
variable {e : Setting} {s : Process} {a : Act} {acts : List Act}

/-- The registry after one more pass. -/
lemma loaded_append (dir : String) (ds : List Directory) (d : Directory) :
    loaded dir (ds ++ [d]) = (reloadDirectory dir d (loaded dir ds)).1 := by
  unfold loaded
  rw [List.foldl_append]
  rfl

/-- A pass begins with a listing. -/
lemma passes_list (acts : List Act) (d : Directory) : passes (acts ++ [.list d]) = passes acts ++ [d] := by
  unfold passes
  rw [List.filterMap_append]
  rfl

/-- No other action than a listing begins a pass. -/
lemma passes_other (acts : List Act) (other : ∀ d, a ≠ .list d) : passes (acts ++ [a]) = passes acts := by
  unfold passes
  rw [List.filterMap_append]
  cases a with
  | list d => exact (other d rfl).elim
  | _ => exact List.append_nil _

/-- In every run, the process is between the last two registries. -/
theorem between_of_run (run : Run (Step e) {} acts s) :
    Sound s ∧ Between e.dir (loaded e.dir (passes acts).dropLast) (loaded e.dir (passes acts)) s := by
  induction run with
  | nil => exact ⟨⟨nofun, nofun, nofun, nofun⟩, fun n => rfl⟩
  | @snoc acts s a t run st ih =>
    obtain ⟨sound, between⟩ := ih
    refine ⟨sound.step st, ?_⟩
    by_cases list : ∃ d, a = .list d
    · obtain ⟨d, rfl⟩ := list
      rw [passes_list, List.dropLast_concat, loaded_append]
      cases st with
      | unlisted here list =>
        rw [Between, here] at between ⊢
        rw [reloadDirectory, list]
        exact between
      | list here list => exact between.list here list
    · have other : ∀ d, a ≠ .list d := fun d e => list ⟨d, e⟩
      rw [passes_other acts other]
      exact between.step sound st other

end
end GeoDNS.Health.Shared
