import GeoDNS.Dns.ServeMux
import GeoDNS.Server.Serve
import GeoDNS.Zones.Restart
import GeoDNS.Zones.SecondPass

/-!
# From queries to zones

`server.go` with the zone manager as its client: `Server` hands its registrations over to a multiplexer of
its own and lets that one dispatch the queries. The manager's catch-all handler, which refuses, goes to the
multiplexer of the package instead.

The calls of the manager are replayed on the multiplexer (`muxesAfter`). A pattern in it is the fully
qualified name of a zone that the manager holds (`Mirrors`), and the zones the manager holds are named after
the files it has seen (`Named`). Which queries reach a zone follows from both.
-/

namespace GeoDNS.Server
open GeoDNS.Lib GeoDNS.Dns GeoDNS.Zones

/-- What a multiplexer calls: `serve` with a zone, or the function that `setupRootZone` registers. -/
inductive Handler where
  | zone (z : Zone)
  | refuse

/-- The multiplexers of a process: that of its `Server`, and `dns.DefaultServeMux`. -/
structure Muxes where
  mux : ServeMux Handler := {}
  defaultServeMux : ServeMux Handler := {}

namespace Muxes

/-- Go `Server.Add`. -/
def add (m : Muxes) (name : String) (zone : Zone) : Res Muxes := do
  let mux ← m.mux.handle name (.zone zone)
  return { m with mux := mux }

/-- Go `Server.Remove`. -/
def remove (m : Muxes) (name : String) : Res Muxes := do
  let mux ← m.mux.handleRemove name
  return { m with mux := mux }

/-- Go `MuxManager.setupRootZone`. -/
def setupRootZone (m : Muxes) : Res Muxes := do
  let mux ← m.defaultServeMux.handle "." .refuse
  return { m with defaultServeMux := mux }

/-- A call of the registration interface. -/
def call (m : Muxes) : RegCall → Res Muxes
  | .add name zone => m.add name zone
  | .remove name => m.remove name

end Muxes

/-- The multiplexers after a manager has been started and has made these calls. -/
def muxesAfter (calls : List RegCall) : Res Muxes := do
  let m ← ({} : Muxes).setupRootZone
  calls.foldlM Muxes.call m

/-- The messages that a handler writes. -/
def Handler.serveDNS (env : Env) (srv : ServerConfig) (fuel : Nat) (w : RemoteAddr) (req : Msg) :
    Handler → Res (List Msg)
  | .zone z => serve env srv fuel w req z
  | .refuse => .ok [({} : Msg).setRcode req rcodeRefused]

/-- Go `Server.ServeDNS`. -/
def serveDNS (env : Env) (srv : ServerConfig) (fuel : Nat) (w : RemoteAddr) (m : Muxes) (req : Msg) :
    Res (List Msg) :=
  match m.mux.handlerFor req with
  | some h => h.serveDNS env srv fuel w req
  | none => .ok [Msg.handleFailed req]

/-- The query name is that of the zone or ends in a dot and that of the zone, whatever the case of ASCII
    letters. Both are meant in fully qualified form. -/
def AtOrBelow (q n : String) : Prop :=
  asciiLower q = asciiLower (fqdn n) ∨ Behind '.' (asciiLower q) (asciiLower (fqdn n))

instance (q n : String) : Decidable (AtOrBelow q n) :=
  inferInstanceAs (Decidable (_ ∨ _))

/-- Likewise, and the dot is not an escaped one, which would be a part of a label. -/
def Separated (q n : String) : Prop :=
  asciiLower q = asciiLower (fqdn n) ∨ ∃ head,
    (asciiLower q).toList = head ++ '.' :: (asciiLower (fqdn n)).toList ∧ escaped false head = false

/-! ## The names of the zones -/

/-- The name that a call is about. -/
def callName : RegCall → String
  | .add name _ => name
  | .remove name => name

/-- The manager holds zones and has made calls under names in `S` only; every zone knows its name. -/
structure Named (S : Set String) (mm : MuxManager) : Prop where
  calls : ∀ call ∈ mm.reg, callName call ∈ S
  zones : ∀ {n z}, mm.zonelist.lookup n = some z → n ∈ S ∧ z.origin = n

section
variable {site : Site} {S : Set String} {mm : MuxManager} {p : Pass} {n : String} {f : DirEntry}
variable {zone : Zone}

/-- Reading a zone keeps its origin. -/
lemma setupZoneData_origin {ext : Externals} {data : GoMap String Json} {start : RawZone}
    (empty : start.labels = ∅) (ok : setupZoneData ext data start = .ok zone) :
    zone.origin = start.origin := by
  obtain ⟨raw, z, reads, fin, soa⟩ := setupZoneData_eq_ok empty ok
  rw [(addSOA_lookup soa).1, fin.rest, reads.rest]

/-- A zone that is read is given the name it is read for. -/
lemma readZone_origin (h : readZone site n f = .ok zone) : zone.origin = n := by
  obtain ⟨b, hb⟩ := readZone_content h
  rw [readZone, hb] at h
  dsimp only at h
  cases hdoc : site.decode b with
  | error err =>
    rw [hdoc] at h
    cases h
  | ok doc =>
    rw [hdoc] at h
    obtain ⟨raw, z0, empty, origin, setup, e⟩ := readZoneFile_setup h
    rw [← origin, ← setupZoneData_origin empty setup]
    rcases e with rfl | ⟨g, rfl⟩
    · rfl
    · rfl

/-- The origin of the zone of the server itself. -/
lemma pgeodnsZone_origin (h : pgeodnsZone site = .ok zone) : zone.origin = "pgeodns" := by
  rw [(addSOA_lookup h).1]
  rfl

/-- One more call about a known name keeps all calls about known names. -/
lemma Named.concat_calls (named : Named S mm) {call : RegCall} (hcall : callName call ∈ S) :
    ∀ c ∈ mm.reg ++ [call], callName c ∈ S := by
  intro c hc
  rcases List.mem_append.mp hc with hc | hc
  · exact named.calls c hc
  · cases List.mem_singleton.mp hc
    exact hcall

/-- Adding a handler under a known name keeps the manager named. -/
lemma Named.addHandler (named : Named S mm) (hn : n ∈ S) (origin : zone.origin = n) :
    Named S (mm.addHandler n zone) := by
  refine ⟨named.concat_calls hn, ?_⟩
  · intro n' z hz
    have hz : (mm.zonelist.insert n zone.setupHealthTests).lookup n' = some z := hz
    rw [GoMap.lookup_insert_eq_ite] at hz
    split at hz
    · rename_i same
      cases hz
      rw [same]
      exact ⟨hn, origin⟩
    · exact named.zones hz

/-- Removing a handler under a known name keeps the manager named. -/
lemma Named.removeHandler (named : Named S mm) (hn : n ∈ S) : Named S (mm.removeHandler n) := by
  refine ⟨named.concat_calls hn, ?_⟩
  · intro n' z hz
    have hz : (mm.zonelist.erase n).lookup n' = some z := hz
    rw [GoMap.lookup_erase_eq_ite] at hz
    split at hz
    · cases hz
    · exact named.zones hz

/-- Reading a file with a known name keeps the manager named. -/
lemma Named.readFile (named : Named S p.mm) (hn : n ∈ S) (record : ZoneReadRecord) :
    Named S (readFile site p n f record).mm := by
  have kept : ∀ lastRead, Named S { p.mm with lastRead := lastRead } :=
    fun _ => ⟨named.calls, named.zones⟩
  unfold Zones.readFile
  dsimp only
  split
  · exact kept _
  · split
    · exact kept _
    · rename_i zone hread
      exact Named.addHandler (kept _) hn (readZone_origin hread)

/-- Processing a file of the directory keeps the manager named. -/
lemma Named.processFile (named : Named S p.mm) (hf : ∀ n, zoneFile f = some n → n ∈ S) :
    Named S (processFile site p f).mm := by
  unfold Zones.processFile
  split
  · exact named
  · rename_i n hn
    dsimp only
    split
    · apply Named.readFile
      · exact named
      · exact hf n hn
    · split
      · apply Named.readFile
        · exact named
        · exact hf n hn
      · exact named

/-- Processing all files of the directory keeps the manager named. -/
lemma Named.processFiles {dir : List DirEntry} (named : Named S p.mm)
    (hdir : ∀ f ∈ dir, ∀ n, zoneFile f = some n → n ∈ S) :
    Named S (dir.foldl (Zones.processFile site) p).mm := by
  induction dir generalizing p with
  | nil => exact named
  | cons f dir ih =>
    rw [List.foldl_cons]
    have here := hdir f List.mem_cons_self
    exact ih (named.processFile here) (fun f hf => hdir f (List.mem_cons_of_mem _ hf))

/-- Removing the zones without a file keeps the manager named. -/
lemma Named.removeUnseen (named : Named S mm) (seen : List String) :
    Named S (removeUnseen seen mm) := by
  have keys : ∀ n ∈ mm.zonelist.keys, n ∈ S := by
    intro n hn
    obtain ⟨z, hz⟩ := Option.isSome_iff_exists.mp (AList.lookup_isSome.mpr hn)
    exact (named.zones hz).1
  unfold Zones.removeUnseen
  generalize mm.zonelist.keys = names at keys
  induction names generalizing mm with
  | nil => exact named
  | cons n names ih =>
    rw [List.foldl_cons]
    refine ih ?_ (fun n hn => keys n (List.mem_cons_of_mem _ hn))
    split
    · exact named
    · exact named.removeHandler (keys n List.mem_cons_self)

/-- Reloading keeps to the names of the files that are listed. -/
theorem Named.reload (named : Named S mm) {dir : Listing}
    (hdir : ∀ files, dir = .ok files → ∀ f ∈ files, ∀ n, zoneFile f = some n → n ∈ S) :
    Named S (reload site mm dir).1 := by
  cases dir with
  | error err => exact named
  | ok files =>
    have read : Named S (files.foldl (Zones.processFile site) { mm := mm }).mm :=
      Named.processFiles named (hdir files rfl)
    exact read.removeUnseen _

/-- All calls in a history are about the names of its files. -/
theorem reloads_named {pgeodns : Zone} {dirs : List Listing} (start : pgeodnsZone site = .ok pgeodns)
    (own : "pgeodns" ∈ S) (hS : ∀ f n, Listed dirs f → zoneFile f = some n → n ∈ S) :
    Named S (reloads site (startManager pgeodns) dirs) := by
  induction dirs using List.reverseRecOn with
  | nil =>
    have empty : Named S {} := ⟨by simp, by simp⟩
    exact empty.addHandler own (pgeodnsZone_origin start)
  | append_singleton dirs dir ih =>
    rw [reloads_append]
    have before := ih (fun f n ⟨files, hd, hf⟩ => hS f n ⟨files, List.mem_append_left _ hd, hf⟩)
    refine before.reload ?_
    rintro files rfl f hf n hn
    exact hS f n ⟨files, by simp, hf⟩ hn

/-- The name of a zone file is not empty, and its zone is not the root. -/
lemma zoneFile_name (h : zoneFile f = some n) : n ≠ "" ∧ n ≠ "." := by
  unfold zoneFile at h
  split at h
  · cases h
  · rename_i plain
    have start : startsWith f.name "." = false := by simp_all
    obtain ⟨rest, e⟩ := beforeLast_eq_some h
    rw [startsWith, e] at start
    constructor
    · rintro rfl
      simp at start
    · rintro rfl
      simp at start

end

/-! ## The patterns of the multiplexer -/

/-- The zone that a call leaves under its name. -/
def callZone : RegCall → Option Zone
  | .add _ zone => some zone
  | .remove _ => none

/-- Every pattern is the fully qualified name of a zone that is registered, with a handler for that
    zone. -/
def Mirrors (calls : List RegCall) (m : Muxes) : Prop :=
  ∀ {p h}, m.mux.z.lookup p = some h → ∃ n z, fqdn n = p ∧ h = .zone z ∧ registered calls n = some z

/-- Every zone that is registered has its pattern. -/
def Patterned (calls : List RegCall) (m : Muxes) : Prop :=
  ∀ {n z}, registered calls n = some z → m.mux.z.lookup (fqdn n) = some (.zone z)

section
variable {calls : List RegCall} {c : RegCall} {m m' : Muxes} {S : Set String}

/-- What is registered after one more call. -/
lemma registered_append (calls : List RegCall) (c : RegCall) : registered (calls ++ [c]) =
    Function.update (registered calls) (callName c) (callZone c) := by
  unfold registered
  rw [List.foldl_append]
  cases c <;> rfl

/-- What one call changes in the multiplexer. -/
lemma call_eq (ne : callName c ≠ "") : ∃ m', m.call c = .ok m' ∧ ∀ p, m'.mux.z.lookup p =
    if p = fqdn (callName c) then (callZone c).map .zone else m.mux.z.lookup p := by
  cases c with
  | add n zone =>
    refine ⟨{ m with mux := ⟨m.mux.z.insert (fqdn n) (.zone zone)⟩ }, ?_, ?_⟩
    · have ne : n ≠ "" := ne
      simp [Muxes.call, Muxes.add, ServeMux.handle, ne]
    · exact fun p => GoMap.lookup_insert_eq_ite _ _ p _
  | remove n =>
    refine ⟨{ m with mux := ⟨m.mux.z.erase (fqdn n)⟩ }, ?_, ?_⟩
    · have ne : n ≠ "" := ne
      simp [Muxes.call, Muxes.remove, ServeMux.handleRemove, ne]
    · exact fun p => GoMap.lookup_erase_eq_ite _ _ p

/-- One more call keeps the multiplexer what the calls have registered. -/
lemma Mirrors.call (mirrors : Mirrors calls m) (lookup : ∀ p, m'.mux.z.lookup p =
      if p = fqdn (callName c) then (callZone c).map .zone else m.mux.z.lookup p) :
    Mirrors (calls ++ [c]) m' := by
  intro p h hp
  rw [lookup] at hp
  rw [registered_append]
  split at hp
  · rename_i same
    obtain ⟨z, hz, rfl⟩ := Option.map_eq_some_iff.mp hp
    exact ⟨callName c, z, same.symm, rfl, by rw [Function.update_self, hz]⟩
  · rename_i other
    obtain ⟨n, z, rfl, rfl, hz⟩ := mirrors hp
    have ne : n ≠ callName c := fun e => other (by rw [e])
    exact ⟨n, z, rfl, rfl, by rwa [Function.update_of_ne ne]⟩

/-- A call changes the pattern of its own zone only, if no other zone has the same one. -/
lemma Patterned.call (patterned : Patterned calls m) (lookup : ∀ p, m'.mux.z.lookup p =
      if p = fqdn (callName c) then (callZone c).map .zone else m.mux.z.lookup p)
    (own : ∀ n, (registered calls n).isSome → fqdn n = fqdn (callName c) → n = callName c) :
    Patterned (calls ++ [c]) m' := by
  intro n z hz
  rw [registered_append] at hz
  rw [lookup]
  by_cases hn : n = callName c
  · rw [hn, Function.update_self] at hz
    rw [hn, if_pos rfl, hz]
    rfl
  · rw [Function.update_of_ne hn] at hz
    have other : fqdn n ≠ fqdn (callName c) := fun e => hn (own n (by rw [hz]; rfl) e)
    rw [if_neg other]
    exact patterned hz

/-- Only what was called for is registered. -/
lemma registered_name (h : (registered calls n).isSome) : ∃ c ∈ calls, callName c = n := by
  induction calls using List.reverseRecOn with
  | nil => cases h
  | append_singleton calls c ih =>
    rw [registered_append] at h
    by_cases hn : n = callName c
    · exact ⟨c, by simp, hn.symm⟩
    · rw [Function.update_of_ne hn] at h
      obtain ⟨c', hc', e⟩ := ih h
      exact ⟨c', List.mem_append_left _ hc', e⟩

/-- The multiplexers after the calls of a manager. -/
theorem muxesAfter_mirrors (names : ∀ c ∈ calls, callName c ∈ S) (ne : ∀ n ∈ S, n ≠ "") :
    ∃ m, muxesAfter calls = .ok m ∧ Mirrors calls m ∧ (Set.InjOn fqdn S → Patterned calls m) := by
  induction calls using List.reverseRecOn with
  | nil => exact ⟨_, rfl, nofun, fun _ => nofun⟩
  | append_singleton calls c ih =>
    have before : ∀ c ∈ calls, callName c ∈ S := fun c hc => names c (List.mem_append_left _ hc)
    have here : callName c ∈ S := names c (by simp)
    obtain ⟨m, hm, mirrors, patterned⟩ := ih before
    obtain ⟨m', hm', lookup⟩ := call_eq (ne _ here)
    refine ⟨m', ?_, mirrors.call lookup, ?_⟩
    · have run : muxesAfter (calls ++ [c]) = muxesAfter calls >>= (·.call c) := by
        unfold muxesAfter
        rw [bind_assoc]
        congr 1
        funext m
        rw [List.foldlM_append]
        congr 1
        funext m
        exact bind_pure (m.call c)
      rw [run, hm]
      exact hm'
    · intro inj
      refine Patterned.call (patterned inj) lookup ?_
      intro n hn e
      obtain ⟨c', hc', rfl⟩ := registered_name hn
      exact inj (before c' hc') here e

end

/-! ## The names of a query -/

section
variable {q s n : String}

/-- A name that is looked up has no upper-case letters. -/
lemma lookupNames_lower (h : s ∈ lookupNames q) :
    asciiLower s = s ∧ (s = asciiLower q ∨ Behind '.' (asciiLower q) s) := by
  rcases mem_lookupNames.mp h with rfl | ⟨head, e, _, _⟩
  · exact ⟨asciiLower_asciiLower q, .inl rfl⟩
  · have behind : Behind '.' (asciiLower q) s := ⟨head, e.symm⟩
    exact ⟨asciiLower_of_suffix behind.suffix (asciiLower_asciiLower q), .inr behind⟩

/-- A query for a pattern is one at or below its zone. -/
lemma atOrBelow_of_mem (h : fqdn n ∈ lookupNames q) : AtOrBelow q n := by
  obtain ⟨lower, at_or_behind⟩ := lookupNames_lower h
  unfold AtOrBelow
  rw [lower]
  exact at_or_behind.imp Eq.symm id

/-- The full form of a name that is not the root is not the root. -/
lemma fqdn_ne_root (ne : n ≠ "") (ne' : n ≠ ".") : fqdn n ≠ "." := by
  unfold fqdn
  split
  · exact ne'
  · intro e
    apply ne
    have chars := congrArg String.toList e
    rw [String.toList_append] at chars
    have none : n.toList ++ ['.'] = [] ++ ['.'] := chars
    exact String.toList_inj.mp (List.append_cancel_right none)

/-- A name is in small letters if its full form is. -/
lemma asciiLower_fqdn : asciiLower (fqdn n) = fqdn n ↔ asciiLower n = n := by
  unfold fqdn
  split
  · rfl
  · have dot : asciiLower "." = "." := by decide
    rw [asciiLower_append, dot]
    constructor
    · intro e
      have chars := congrArg String.toList e
      rw [String.toList_append, String.toList_append] at chars
      exact String.toList_inj.mp (List.append_cancel_right chars)
    · intro e
      rw [e]

/-- The full form of a name is not empty. -/
lemma fqdn_ne_empty : fqdn n ≠ "" := by
  unfold fqdn
  split
  · rintro rfl
    contradiction
  · intro e
    have chars := congrArg String.toList e
    simp at chars

/-- The pattern of a zone without upper-case letters is looked up if it is separated from the labels
    before it. -/
lemma fqdn_mem_lookupNames (lower : asciiLower n = n) : fqdn n ∈ lookupNames q ↔ Separated q n := by
  have same := asciiLower_fqdn.mpr lower
  rw [mem_lookupNames, Separated, same]
  constructor
  · rintro (e | ⟨head, e, _, open_dot⟩)
    · exact .inl e.symm
    · exact .inr ⟨head, e, open_dot⟩
  · rintro (e | ⟨head, e, open_dot⟩)
    · exact .inl e.symm
    · exact .inr ⟨head, e, fqdn_ne_empty, open_dot⟩

end

/-- A query for the addresses of a name. -/
def addressQuery (name : String) : Msg :=
  { question := [⟨name, typeA, classINET⟩] }

/-- A run with one directory that holds one zone file of this name. -/
def smallRun (pgeodns : Zone) (fileName : String) : MuxManager :=
  reloads smallSite (startManager pgeodns) [.ok [{ smallFile 1 with name := fileName }]]

/-! ## Names outside all zones -/

section
variable {site : Site} {pgeodns : Zone} {dirs : List Listing}

/-- A query that is not for a zone is answered with `SERVFAIL`: the handler that refuses is never asked,
    since the server has a multiplexer of its own. -/
theorem outside_zones_servfail (start : pgeodnsZone site = .ok pgeodns) {req : Msg} {question : Question}
    {rest : List Question} (asks : req.question = question :: rest)
    (outside : ∀ n ∈ (reloads site (startManager pgeodns) dirs).zonelist, ¬ AtOrBelow question.name n) :
    ∃ m, muxesAfter (reloads site (startManager pgeodns) dirs).reg = .ok m ∧
      ∀ env srv fuel w, serveDNS env srv fuel w m req = .ok [Msg.handleFailed req] ∧
        (Msg.handleFailed req).rcode = rcodeServerFailure := by
  let S : Set String := {n | n ≠ "" ∧ n ≠ "."}
  have named : Named S (reloads site (startManager pgeodns) dirs) :=
    reloads_named start (by decide) (fun _ _ _ hn => zoneFile_name hn)
  have registered := reloads_registered site pgeodns dirs
  generalize reloads site (startManager pgeodns) dirs = mm at outside named registered ⊢
  obtain ⟨m, hm, mirrors, _⟩ := muxesAfter_mirrors named.calls (fun n hn => hn.1)
  refine ⟨m, hm, ?_⟩
  intro env srv fuel w
  have none : m.mux.handlerFor req = none := by
    rw [ServeMux.handlerFor, asks]
    dsimp only
    cases found : m.mux.matchName question.name question.qtype with
    | none => rfl
    | some h =>
      rcases ServeMux.of_matchName found with ⟨s, hs, hz⟩ | root
      · obtain ⟨n, z, rfl, _, hn⟩ := mirrors hz
        rw [registered] at hn
        exact (outside n (AList.lookup_isSome.mp (by simp [hn])) (atOrBelow_of_mem hs)).elim
      · -- no zone is the root
        obtain ⟨n, z, e, _, hn⟩ := mirrors root
        rw [registered] at hn
        obtain ⟨ne, ne'⟩ := (named.zones hn).1
        exact (fqdn_ne_root ne ne' e).elim
  rw [serveDNS, none]
  exact ⟨rfl, rfl⟩

/-- With the zone `example.com` loaded, a query for `www.example.net` is outside of all zones. -/
theorem other_domain_servfail : ∃ pgeodns, pgeodnsZone smallSite = .ok pgeodns ∧
    ∃ m, muxesAfter (smallRun pgeodns "example.com.json").reg = .ok m ∧ ∀ env srv fuel w,
      serveDNS env srv fuel w m (addressQuery "www.example.net.") =
        .ok [Msg.handleFailed (addressQuery "www.example.net.")] ∧
      (Msg.handleFailed (addressQuery "www.example.net.")).rcode = rcodeServerFailure := by
  obtain ⟨pgeodns, start⟩ : ∃ pgeodns, pgeodnsZone smallSite = .ok pgeodns := ⟨_, rfl⟩
  refine ⟨pgeodns, start, ?_⟩
  have outside : ∀ n ∈ (smallRun pgeodns "example.com.json").zonelist,
      ¬ AtOrBelow "www.example.net." n := by
    intro n hn
    have known : ∀ n ∈ ["example.com", "pgeodns"], ¬ AtOrBelow "www.example.net." n := by decide
    exact known n hn
  unfold smallRun at outside ⊢
  have asks : (addressQuery "www.example.net.").question = [⟨"www.example.net.", typeA, classINET⟩] := rfl
  exact outside_zones_servfail start asks outside

/-- The one reply to that query is not the refusal of the catch-all handler. -/
theorem other_domain_not_refused : ∃ pgeodns m reply, pgeodnsZone smallSite = .ok pgeodns ∧
    (∀ n ∈ (smallRun pgeodns "example.com.json").zonelist, ¬ AtOrBelow "www.example.net." n) ∧
    muxesAfter (smallRun pgeodns "example.com.json").reg = .ok m ∧
    serveDNS smallEnv smallServer 1 smallClient m (addressQuery "www.example.net.") = .ok [reply] ∧
    reply.rcode ≠ rcodeRefused := by
  refine ⟨_, _, _, rfl, ?_, rfl, rfl, by decide⟩
  decide

/-! ## Names of a zone -/

/-- The names of the zones in a run: those of the files that are listed, and the manager's own. -/
def zoneNames (dirs : List Listing) : Set String :=
  {n | n = "pgeodns" ∨ ∃ f, Listed dirs f ∧ zoneFile f = some n}

/-- A zone is not named like the root. -/
lemma zoneNames_ne {n : String} (h : n ∈ zoneNames dirs) : n ≠ "" ∧ n ≠ "." := by
  rcases h with rfl | ⟨f, _, hn⟩
  · decide
  · exact zoneFile_name hn

/-- In every run in which the names of the zones have different fully qualified forms: a query for a zone
    that the manager holds, and for no longer one, is dispatched to it if the zone's name has no upper-case
    letters and is separated from the labels before it, and only then. -/
theorem zone_reached_iff (start : pgeodnsZone site = .ok pgeodns)
    (distinct : Set.InjOn fqdn (zoneNames dirs)) {n : String} {z : Zone}
    (loaded : (reloads site (startManager pgeodns) dirs).zonelist.lookup n = some z) {req : Msg}
    {question : Question} {rest : List Question} (asks : req.question = question :: rest)
    (longest : ∀ n' ∈ (reloads site (startManager pgeodns) dirs).zonelist,
      AtOrBelow question.name n' → (fqdn n').length ≤ (fqdn n).length)
    (ht : question.qtype ≠ typeDS) :
    ∃ m, muxesAfter (reloads site (startManager pgeodns) dirs).reg = .ok m ∧
      (m.mux.handlerFor req = some (.zone z) ↔ asciiLower n = n ∧ Separated question.name n) := by
  have named : Named (zoneNames dirs) (reloads site (startManager pgeodns) dirs) :=
    reloads_named start (.inl rfl) (fun f _ hf hn => .inr ⟨f, hf, hn⟩)
  have registered := reloads_registered site pgeodns dirs
  generalize reloads site (startManager pgeodns) dirs = mm at loaded longest named registered ⊢
  obtain ⟨m, hm, mirrors, patterned⟩ :=
    muxesAfter_mirrors named.calls (fun n hn => (zoneNames_ne hn).1)
  refine ⟨m, hm, ?_⟩
  rw [ServeMux.handlerFor, asks]
  dsimp only
  constructor
  · intro found
    rcases ServeMux.of_matchName found with ⟨s, hs, hz⟩ | root
    · -- the zone that was found knows its name
      obtain ⟨n', z', rfl, e, hn'⟩ := mirrors hz
      cases e
      rw [registered] at hn'
      obtain rfl : n' = n := (named.zones hn').2.symm.trans (named.zones loaded).2
      have lower := asciiLower_fqdn.mp (lookupNames_lower hs).1
      exact ⟨lower, (fqdn_mem_lookupNames lower).mp hs⟩
    · obtain ⟨n', z', e, _, hn'⟩ := mirrors root
      rw [registered] at hn'
      obtain ⟨ne, ne'⟩ := zoneNames_ne (named.zones hn').1
      exact (fqdn_ne_root ne ne' e).elim
  · rintro ⟨lower, separated⟩
    have hz : m.mux.z.lookup (fqdn n) = some (.zone z) := by
      apply patterned distinct
      rw [registered]
      exact loaded
    refine ServeMux.matchName_longest ((fqdn_mem_lookupNames lower).mpr separated) hz ?_ ht
    intro s hs hmem
    obtain ⟨h, hh⟩ := Option.isSome_iff_exists.mp (AList.lookup_isSome.mpr hmem)
    obtain ⟨n', z', rfl, _, hn'⟩ := mirrors hh
    rw [registered] at hn'
    exact longest n' (AList.lookup_isSome.mp (by simp [hn'])) (atOrBelow_of_mem hs)

/-- A query in mixed case for a name in the zone `example.com`. -/
theorem small_zone_reached : ∃ pgeodns z, pgeodnsZone smallSite = .ok pgeodns ∧
    (smallRun pgeodns "example.com.json").zonelist.lookup "example.com" = some z ∧
    ∃ m, muxesAfter (smallRun pgeodns "example.com.json").reg = .ok m ∧
      m.mux.handlerFor (addressQuery "WWW.Example.com.") = some (.zone z) := by
  obtain ⟨pgeodns, start⟩ : ∃ pgeodns, pgeodnsZone smallSite = .ok pgeodns := ⟨_, rfl⟩
  obtain ⟨z, loaded⟩ : ∃ z, (smallRun pgeodns "example.com.json").zonelist.lookup "example.com" = some z :=
    ⟨_, rfl⟩
  refine ⟨pgeodns, z, start, loaded, ?_⟩
  have longest : ∀ n ∈ (smallRun pgeodns "example.com.json").zonelist,
      AtOrBelow "WWW.Example.com." n → (fqdn n).length ≤ (fqdn "example.com").length := by
    intro n hn
    have known : ∀ n ∈ ["example.com", "pgeodns"],
        AtOrBelow "WWW.Example.com." n → (fqdn n).length ≤ (fqdn "example.com").length := by decide
    exact known n hn
  have distinct : Set.InjOn fqdn
      (zoneNames [.ok [{ smallFile 1 with name := "example.com.json" }]]) := by
    have known : ∀ n ∈ zoneNames [.ok [{ smallFile 1 with name := "example.com.json" }]],
        n ∈ ["example.com", "pgeodns"] := by
      rintro n (rfl | ⟨f, ⟨files, hfiles, hf⟩, hn⟩)
      · decide
      · cases List.mem_singleton.mp hfiles
        cases List.mem_singleton.mp hf
        have name : zoneFile { smallFile 1 with name := "example.com.json" } = some "example.com" := by
          decide
        cases hn.symm.trans name
        decide
    have apart : ∀ n ∈ ["example.com", "pgeodns"], ∀ n' ∈ ["example.com", "pgeodns"],
        fqdn n = fqdn n' → n = n' := by decide
    exact fun n hn n' hn' => apart n (known n hn) n' (known n' hn')
  have asks : (addressQuery "WWW.Example.com.").question = [⟨"WWW.Example.com.", typeA, classINET⟩] := rfl
  have separated : Separated "WWW.Example.com." "example.com" := .inr ⟨"www".toList, by decide, by decide⟩
  unfold smallRun at loaded longest ⊢
  obtain ⟨m, hm, reached⟩ := zone_reached_iff start distinct loaded asks longest (by decide)
  exact ⟨m, hm, reached.mpr ⟨by decide, separated⟩⟩

/-- The zone of the file `Example.com.json` is held, and a query for a name in it is dispatched to no
    zone. -/
theorem capital_zone_unreached : ∃ pgeodns z m, pgeodnsZone smallSite = .ok pgeodns ∧
    (smallRun pgeodns "Example.com.json").zonelist.lookup "Example.com" = some z ∧
    AtOrBelow "www.example.com." "Example.com" ∧
    (∀ n ∈ (smallRun pgeodns "Example.com.json").zonelist, AtOrBelow "www.example.com." n →
      (fqdn n).length ≤ (fqdn "Example.com").length) ∧
    muxesAfter (smallRun pgeodns "Example.com.json").reg = .ok m ∧
    m.mux.handlerFor (addressQuery "www.example.com.") = none := by
  refine ⟨_, _, _, rfl, rfl, by decide, ?_, rfl, rfl⟩
  decide

end
end GeoDNS.Server
