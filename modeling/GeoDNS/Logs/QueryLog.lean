import GeoDNS.Lib.Decimal
import GeoDNS.Logs.ProcessChan

/-!
# The query log, written and read

`FileLogger.Write` of `querylog/querylog.go` writes one line for every entry, with all of its fields, so
that nothing is left over from the line before when `processChan` reads it (`processChan_lines`). What it
has then made of the entries is told by `Tallied`: every entry that is counted is counted once, under its
key, and the first one under a key is the one that is kept.
-/

namespace GeoDNS.Logs
open GeoDNS.Lib GeoDNS.Dns

/-! ## The statistics of some entries -/

/-- The entries under a key that are counted. -/
def underKey (entries : List Entry) (k : String) : List Entry :=
  entries.filter fun e => e.Counted ∧ key e = k

/-- The statistics are those of the entries. -/
structure Tallied (t : Tables) (entries : List Entry) (stats : Stats) : Prop where
  count : stats.count = entries.countP fun e => e.Counted
  missing : ∀ k, underKey entries k = [] → stats.map.lookup k = none
  present : ∀ k e rest, underKey entries k = e :: rest →
    ∃ v, e.vendor = .ok v ∧ stats.map.lookup k = some { firstOf t e v with count := rest.length + 1 }

section
variable {t : Tables} {stats stats' : Stats} {entries : List Entry} {e : Entry} {k : String}

/-- The entries under a key with one more. -/
lemma underKey_concat : underKey (entries ++ [e]) k =
    underKey entries k ++ if e.Counted ∧ key e = k then [e] else [] := by
  unfold underKey
  rw [List.filter_append, List.filter_singleton]
  by_cases counted : e.Counted ∧ key e = k <;> simp [counted]

/-- What is recorded under the key of another entry. -/
lemma Tallied.recorded (tallied : Tallied t entries stats) {v : String} (vendor : e.vendor = .ok v) :
    ∃ e' rest v', underKey entries (key e) ++ [e] = e' :: rest ∧ e'.vendor = .ok v' ∧
      recorded t stats e v = { firstOf t e' v' with count := rest.length + 1 } := by
  unfold Logs.recorded
  cases h : underKey entries (key e) with
  | nil =>
    rw [tallied.missing _ h]
    exact ⟨e, [], v, rfl, vendor, rfl⟩
  | cons e' rest =>
    obtain ⟨v', vendor', found⟩ := tallied.present _ e' rest h
    rw [found]
    refine ⟨e', rest ++ [e], v', rfl, vendor', ?_⟩
    rw [List.length_append]
    rfl

/-- One more entry is tallied. -/
lemma Tallied.add (tallied : Tallied t entries stats) (adds : add t stats e = .ok stats') :
    Tallied t (entries ++ [e]) stats' := by
  by_cases counted : e.Counted
  · rw [add_of_counted counted] at adds
    obtain ⟨v, vendor, rfl⟩ := Res.map_eq_ok.mp adds
    obtain ⟨e', rest, v', under, vendor', records⟩ := tallied.recorded vendor
    have here : underKey (entries ++ [e]) (key e) = e' :: rest := by
      rw [underKey_concat, if_pos ⟨counted, rfl⟩, under]
    have elsewhere : ∀ {k}, k ≠ key e → underKey (entries ++ [e]) k = underKey entries k := by
      intro k other
      rw [underKey_concat, if_neg fun same => other same.2.symm, List.append_nil]
    constructor
    case count =>
      rw [List.countP_append, ← tallied.count, List.countP_singleton, if_pos (decide_eq_true counted)]
    case missing =>
      intro k none
      have other : k ≠ key e := by
        rintro rfl
        exact List.cons_ne_nil _ _ (here.symm.trans none)
      rw [AList.lookup_insert_ne other]
      exact tallied.missing k (elsewhere other ▸ none)
    case present =>
      intro k first more some
      by_cases other : k = key e
      · subst other
        cases here.symm.trans some
        exact ⟨v', vendor', by rw [AList.lookup_insert, records]⟩
      · obtain ⟨v, vendor, found⟩ := tallied.present k first more (elsewhere other ▸ some)
        exact ⟨v, vendor, by rw [AList.lookup_insert_ne other, found]⟩
  · rw [add_of_not_counted counted] at adds
    cases adds
    have same : ∀ k, underKey (entries ++ [e]) k = underKey entries k := by
      intro k
      rw [underKey_concat, if_neg fun same => counted same.1, List.append_nil]
    constructor
    case count =>
      rw [List.countP_append, ← tallied.count, List.countP_singleton, if_neg (by simpa using counted)]
      rfl
    case missing =>
      intro k none
      exact tallied.missing k (same k ▸ none)
    case present =>
      intro k first more some
      exact tallied.present k first more (same k ▸ some)

/-- The statistics that all entries have been added to are those of the entries. -/
theorem tallied_of_adds (adds : entries.foldlM (add t) {} = .ok stats) : Tallied t entries stats := by
  induction entries using List.reverseRecOn generalizing stats with
  | nil =>
    cases adds
    exact ⟨rfl, fun _ _ => rfl, nofun⟩
  | append_singleton before e ih =>
    rw [foldlM_concat] at adds
    obtain ⟨stats', earlier, last⟩ := Res.bind_eq_ok.mp adds
    exact (ih earlier).add last

/-- The number of entries that are counted under a key. -/
lemma Tallied.count_under (tallied : Tallied t entries stats) (k : String) :
    ((stats.map.lookup k).map StatsEntry.count).getD 0 =
      entries.countP fun e => e.Counted ∧ key e = k := by
  rw [List.countP_eq_length_filter]
  show _ = (underKey entries k).length
  cases h : underKey entries k with
  | nil =>
    rw [tallied.missing k h]
    rfl
  | cons e rest =>
    obtain ⟨v, -, found⟩ := tallied.present k e rest h
    rw [found]
    rfl

/-- All entries can be added if the vendor of those that are counted can be told. -/
lemma adds_of_not_panics (told : ∀ e ∈ entries, ¬ e.Panics) :
    ∃ stats, entries.foldlM (add t) {} = .ok stats := by
  rw [Res.foldlM_returns_iff (P := fun e => ¬ e.Counted ∨ ∃ v, e.vendor = .ok v)]
  · intro e he
    exact .inr ((vendor_cases e).resolve_left (told e he))
  · intro stats e
    by_cases counted : e.Counted
    · rw [add_of_counted counted]
      cases e.vendor <;> simp [counted]
    · rw [add_of_not_counted counted]
      simp [counted]

/-! ## Vendors -/

/-- What is before the first occurrence of a text. -/
lemma beforeFirst_eq_some {t cs pre : List Char} (h : beforeFirst t cs = some pre) :
    ∃ rest, cs = pre ++ t ++ rest := by
  induction cs generalizing pre with
  | nil =>
    unfold beforeFirst at h
    split_ifs at h with empty
    cases h
    exact ⟨[], by simp [empty]⟩
  | cons c cs ih =>
    unfold beforeFirst at h
    split_ifs at h with here
    · cases h
      obtain ⟨rest, h⟩ := List.isPrefixOf_iff_prefix.mp here
      exact ⟨rest, h.symm⟩
    · obtain ⟨pre, later, rfl⟩ := Option.map_eq_some_iff.mp h
      obtain ⟨rest, rfl⟩ := ih later
      exact ⟨rest, rfl⟩

/-- Only the root and the empty name have no labels. -/
lemma splitDomainName_eq_nil {s : String} (h : splitDomainName s = []) : s = "" ∨ s = "." := by
  unfold splitDomainName at h
  split_ifs at h with root
  · exact root
  all_goals simp at h

/-- Only a name that starts with two dots has a vendor that cannot be told. -/
lemma Entry.Panics.two_dots (panics : e.Panics) : startsWith e.name ".." = true := by
  unfold Entry.Panics Entry.vendor vendorName at panics
  split at panics
  · split at panics
    · cases panics
    · cases panics
    · rename_i cs nonempty before
      split at panics
      · rename_i last
        rcases splitDomainName_eq_nil (List.getLast?_eq_none_iff.mp last) with empty | root
        · exact (nonempty (by simpa using congrArg String.toList empty)).elim
        · obtain rfl : cs = ['.'] := by simpa using congrArg String.toList root
          obtain ⟨rest, name⟩ := beforeFirst_eq_some before
          unfold startsWith
          rw [name]
          rfl
      · split_ifs at panics
  · cases panics

/-! ## Lines -/

/-- Every field of an entry (Go `querylog.Entry`). -/
structure FullEntry extends Entry where
  targets : List String
  remoteAddr : String
  clientAddr : String
  hasECS : Bool
  deriving DecidableEq

/-- The integers of an entry are of 64 bits. -/
structure FullEntry.Fits (e : FullEntry) : Prop where
  time : -2 ^ 63 ≤ e.time ∧ e.time < 2 ^ 63
  rcode : -2 ^ 63 ≤ e.rcode ∧ e.rcode < 2 ^ 63
  answers : -2 ^ 63 ≤ e.answers ∧ e.answers < 2 ^ 63

/-- The line that `FileLogger.Write` writes. -/
def FullEntry.line (e : FullEntry) : Line :=
  .ok (.obj [
    ("Time", .num (itoa e.time)),
    ("Origin", .str e.origin),
    ("Name", .str e.name),
    ("Qtype", .num e.qtype.toNat.repr),
    ("Rcode", .num (itoa e.rcode)),
    ("Answers", .num (itoa e.answers)),
    ("Targets", .arr (e.targets.map .str)),
    ("LabelName", .str e.labelName),
    ("RemoteAddr", .str e.remoteAddr),
    ("ClientAddr", .str e.clientAddr),
    ("HasECS", .bool e.hasECS)])

/-- The text of a number that fits is decoded to it. -/
lemma decodeInt_itoa {i : Int} (fits : -2 ^ 63 ≤ i ∧ i < 2 ^ 63) (set : Int → Entry → Entry) :
    decodeInt (.num (itoa i)) set = .ok (set i) := by
  unfold decodeInt
  dsimp only
  rw [atoi_itoa fits.1 fits.2]

/-- The text of a 16-bit number is decoded to it. -/
lemma decodeUint16_repr (n : UInt16) (set : UInt16 → Entry → Entry) :
    decodeUint16 (.num n.toNat.repr) set = .ok (set n) := by
  unfold decodeUint16
  dsimp only
  rw [digitsValue_repr]
  dsimp only
  rw [if_pos n.toNat_lt]
  simp

/-- A list of texts is skipped. -/
lemma decodeUnused_texts (texts : List String) :
    decodeUnused (.arr (texts.map .str)) "[]string" isTexts = .ok id := by
  unfold decodeUnused
  rw [if_pos]
  simp [isTexts, isText]

/-- A line of the log sets every field, to what it was in the entry. -/
lemma FullEntry.decode_line {e : FullEntry} (fits : e.Fits) :
    ∃ set, decodeLine e.line = .ok set ∧ ∀ e', set e' = e.toEntry := by
  have time : decodeField "Time" (.num (itoa e.time)) = .ok (fun e' => { e' with time := e.time }) :=
    decodeInt_itoa fits.time _
  have qtype : decodeField "Qtype" (.num e.qtype.toNat.repr) =
      .ok (fun e' => { e' with qtype := e.qtype }) :=
    decodeUint16_repr e.qtype fun n e' => { e' with qtype := n }
  have rcode : decodeField "Rcode" (.num (itoa e.rcode)) = .ok (fun e' => { e' with rcode := e.rcode }) :=
    decodeInt_itoa fits.rcode _
  have answers : decodeField "Answers" (.num (itoa e.answers)) =
      .ok (fun e' => { e' with answers := e.answers }) :=
    decodeInt_itoa fits.answers _
  have targets : decodeField "Targets" (.arr (e.targets.map .str)) = .ok id :=
    decodeUnused_texts e.targets
  have origin : decodeField "Origin" (.str e.origin) = .ok (fun e' => { e' with origin := e.origin }) := rfl
  have name : decodeField "Name" (.str e.name) = .ok (fun e' => { e' with name := e.name }) := rfl
  have label : decodeField "LabelName" (.str e.labelName) =
      .ok (fun e' => { e' with labelName := e.labelName }) := rfl
  have remote : decodeField "RemoteAddr" (.str e.remoteAddr) = .ok id := rfl
  have client : decodeField "ClientAddr" (.str e.clientAddr) = .ok id := rfl
  have ecs : decodeField "HasECS" (.bool e.hasECS) = .ok id := rfl
  unfold FullEntry.line decodeLine
  simp only [decodeFields, time, origin, name, qtype, rcode, answers, targets, label, remote, client, ecs]
  exact ⟨_, rfl, fun e' => rfl⟩

/-- What is written for these entries is read as these entries. -/
theorem processChan_lines {written : List FullEntry} (fits : ∀ e ∈ written, e.Fits)
    (lower : ∀ e ∈ written, toLower e.name = e.name) :
    processChan t (written.map FullEntry.line) = (written.map FullEntry.toEntry).foldlM (add t) {} := by
  rw [processChan_of_complete]
  · unfold expected
    generalize ({} : Stats) = stats
    induction written generalizing stats with
    | nil => rfl
    | cons e written ih =>
      obtain ⟨set, decodes, all⟩ := FullEntry.decode_line (fits e List.mem_cons_self)
      have own : ownEntry e.line = some e.toEntry := by
        unfold ownEntry
        rw [decodes]
        dsimp only
        rw [all, Entry.lower, lower e List.mem_cons_self]
      have rest := ih (fun e' he => fits e' (List.mem_cons_of_mem _ he))
        (fun e' he => lower e' (List.mem_cons_of_mem _ he))
      simp only [List.map_cons, List.foldlM_cons, addLine, own]
      exact bind_congr rest
  · intro line hline
    obtain ⟨e, he, rfl⟩ := List.mem_map.mp hline
    obtain ⟨set, decodes, all⟩ := FullEntry.decode_line (fits e he)
    exact ⟨set, decodes, fun e' => (all e').trans (all {}).symm⟩

end
end GeoDNS.Logs
