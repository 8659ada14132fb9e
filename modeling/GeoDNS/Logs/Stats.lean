import GeoDNS.Dns.Name
import GeoDNS.Lib.Letters
import GeoDNS.Lib.RawJson
import GeoDNS.Lib.Res

/-!
# Statistics of a query log

The entries of the query log (`querylog/querylog.go`) and the statistics that `geodns-logs` makes of them
(`stats.go` and `getPoolCC` of `process-stats.go`). The Prometheus counters are left out, and with them the
fields of an entry that only they are made of.

Decoding a line into an entry sets those of its fields that the line has. So a line is an update of the entry
that it is decoded into (`decodeLine`), and what it adds to the statistics depends on that entry.
`add_eq_iff` says when two entries add the same.
-/

namespace GeoDNS.Logs
open GeoDNS.Lib GeoDNS.Dns

/-- The tables that the program looks things up in: the keys of those of the package `countries`, and
    `dns.TypeToString`. -/
structure Tables where
  countryContinent : String → Bool
  continentCountries : String → Bool
  regionGroupRegions : String → Bool
  regionGroups : String → Bool
  typeToString : UInt16 → String

/-! ## Entries -/

/-- An entry of the query log (Go `querylog.Entry`). -/
structure Entry where
  time : Int := 0
  origin : String := ""
  name : String := ""
  qtype : UInt16 := 0
  rcode : Int := 0
  answers : Int := 0
  labelName : String := ""
  deriving DecidableEq

/-- A line of the log: a JSON document, or what the decoder says about a text that is none. -/
abbrev Line := Except String RawJson

/-- The name of a field as the decoder compares it: without regard to case. (The long s is the one letter
    outside ASCII that folds to a letter of one of the names.) -/
def foldKey (key : String) : String :=
  String.ofList (key.toList.map (fun c => if c = 'ſ' then 's' else asciiLowerRune c))

/-- A signed integer of 64 bits; `null` sets nothing. -/
def decodeInt (j : RawJson) (set : Int → Entry → Entry) : Except String (Entry → Entry) :=
  match j with
  | .null => .ok id
  | .num literal =>
    match atoi literal with
    | some i => .ok (set i)
    | none => .error (j.typeError "int64")
  | _ => .error (j.typeError "int64")

/-- An unsigned integer of 16 bits. -/
def decodeUint16 (j : RawJson) (set : UInt16 → Entry → Entry) : Except String (Entry → Entry) :=
  match j with
  | .null => .ok id
  | .num literal =>
    match digitsValue literal.toList with
    | some n => if n < 65536 then .ok (set n.toUInt16) else .error (j.typeError "uint16")
    | none => .error (j.typeError "uint16")
  | _ => .error (j.typeError "uint16")

/-- A text. -/
def decodeString (j : RawJson) (set : String → Entry → Entry) : Except String (Entry → Entry) :=
  match j with
  | .null => .ok id
  | .str s => .ok (set s)
  | _ => .error (j.typeError "string")

/-- A field that the statistics do not use only has to be of its type. -/
def decodeUnused (j : RawJson) (type : String) (fits : RawJson → Bool) : Except String (Entry → Entry) :=
  if fits j then .ok id else .error (j.typeError type)

/-- Is this a text or `null`? -/
def isText : RawJson → Bool
  | .null | .str _ => true
  | _ => false

/-- Is this an array of texts or `null`? -/
def isTexts : RawJson → Bool
  | .null => true
  | .arr items => items.all isText
  | _ => false

/-- Is this a truth value or `null`? -/
def isBool : RawJson → Bool
  | .null | .bool _ => true
  | _ => false

/-- What a field of a line does to the entry; unknown fields are skipped. -/
def decodeField (key : String) (value : RawJson) : Except String (Entry → Entry) :=
  match foldKey key with
  | "time" => decodeInt value (fun i e => { e with time := i })
  | "origin" => decodeString value (fun s e => { e with origin := s })
  | "name" => decodeString value (fun s e => { e with name := s })
  | "qtype" => decodeUint16 value (fun n e => { e with qtype := n })
  | "rcode" => decodeInt value (fun i e => { e with rcode := i })
  | "answers" => decodeInt value (fun i e => { e with answers := i })
  | "targets" => decodeUnused value "[]string" isTexts
  | "labelname" => decodeString value (fun s e => { e with labelName := s })
  | "remoteaddr" => decodeUnused value "string" isText
  | "clientaddr" => decodeUnused value "string" isText
  | "hasecs" => decodeUnused value "bool" isBool
  | _ => .ok id

/-- What the fields of a line do to the entry, one after the other. -/
def decodeFields : List (String × RawJson) → Except String (Entry → Entry)
  | [] => .ok id
  | (key, value) :: fields => do
    let set ← decodeField key value
    let rest ← decodeFields fields
    return rest ∘ set

/-- What `json.Unmarshal` of a line does to the entry that it is given, or its error. -/
def decodeLine : Line → Except String (Entry → Entry)
  | .error err => .error err
  | .ok .null => .ok id
  | .ok (.obj fields) => decodeFields fields
  | .ok j => .error (j.typeError "querylog.Entry")

/-- The entry with its name in lower case. -/
def Entry.lower (e : Entry) : Entry :=
  { e with name := toLower e.name }

/-! ## Names -/

/-- What stands before the first occurrence of `t`. -/
def beforeFirst (t : List Char) : List Char → Option (List Char)
  | [] => if t = [] then some [] else none
  | c :: cs => if t.isPrefixOf (c :: cs) then some [] else (beforeFirst t cs).map (c :: ·)

/-- Is this one of the digits that stand for a part of a zone? -/
def isPart (label : String) : Bool :=
  label ∈ ["0", "1", "2", "3", "4"]

/-- Go `vendorName`. -/
def vendorName (n : String) : Res String :=
  match beforeFirst ".pool.ntp.org.".toList n.toList with
  | none | some [] => .ok ""
  | some cs =>
    match (splitDomainName (String.ofList cs)).getLast? with
    | none => .panic .index
    | some v =>
      if isPart v then .ok ""
      else if v.utf8ByteSize = 2 then .ok "_country"
      else if v ∈ ["asia", "north-america", "europe", "south-america", "oceania", "africa"] then
        .ok "_continent"
      else .ok v

/-- Go `validCC`. -/
def validCC (t : Tables) (label : String) : Bool :=
  t.countryContinent label || t.continentCountries label || t.regionGroupRegions label ||
    t.regionGroups label || label ∈ ["uk", "_status", "_country", "www", "nag-test"]

/-- Go `getPoolCC`. -/
def getPoolCC (t : Tables) (label : String) : String × Bool :=
  let l := splitDomainName label
  match l.find? (validCC t) with
  | some cc => (cc, true)
  | none => ("", l = [] || (l.length = 1 && isPart (l.headD "")))

/-! ## Statistics -/

/-- Go `statsEntry`. -/
structure StatsEntry where
  time : Int
  origin : String
  name : String
  vendor : String
  label : String
  qtype : String
  poolCC : String
  count : Nat
  deriving DecidableEq

/-- Go `Stats`. -/
structure Stats where
  count : Nat := 0
  map : GoMap String StatsEntry := ∅

/-- Go `Stats.Key`. -/
def key (e : Entry) : String :=
  e.origin ++ " " ++ e.name ++ " " ++ e.labelName ++ " " ++ toString e.qtype.toNat

/-- Is this an entry of the NTP pool? -/
def Entry.ofPool (e : Entry) : Bool :=
  e.origin = "pool.ntp.org" || endsWith e.origin "ntppool.org"

/-- The vendor of an entry. -/
def Entry.vendor (e : Entry) : Res String :=
  if e.ofPool then vendorName e.name else .ok ""

/-- The pool of an entry. -/
def Entry.poolCC (t : Tables) (e : Entry) : String :=
  if e.ofPool then (getPoolCC t e.labelName).1 else ""

/-- An entry that is counted: one without an error, and with an answer. -/
def Entry.Counted (e : Entry) : Prop :=
  ¬ 0 < e.rcode ∧ e.answers ≠ 0

instance (e : Entry) : Decidable e.Counted := inferInstanceAs (Decidable (_ ∧ _))

/-- What is recorded of the first entry of its key. -/
def firstOf (t : Tables) (e : Entry) (vendor : String) : StatsEntry where
  time := e.time
  origin := e.origin
  name := e.name
  vendor := vendor
  label := e.labelName
  qtype := t.typeToString e.qtype
  poolCC := e.poolCC t
  count := 1

/-- Another entry of a key. -/
def StatsEntry.more (s : StatsEntry) : StatsEntry :=
  { s with count := s.count + 1 }

/-- What is recorded under the key of an entry. -/
def recorded (t : Tables) (stats : Stats) (e : Entry) (vendor : String) : StatsEntry :=
  match stats.map.lookup (key e) with
  | some s => s.more
  | none => firstOf t e vendor

/-- Go `Stats.Add`. -/
def add (t : Tables) (stats : Stats) (e : Entry) : Res Stats :=
  if 0 < e.rcode then .ok stats
  else if e.answers = 0 then .ok stats
  else do
    let vendor ← e.vendor
    return { count := stats.count + 1, map := stats.map.insert (key e) (recorded t stats e vendor) }

/-- The vendor of the entry cannot be told. -/
def Entry.Panics (e : Entry) : Prop :=
  e.vendor = .panic .index

/-- All that is recorded of the two entries is the same. -/
def SameRecord (t : Tables) (a b : Entry) : Prop :=
  a.time = b.time ∧ a.origin = b.origin ∧ a.name = b.name ∧ a.labelName = b.labelName ∧
    t.typeToString a.qtype = t.typeToString b.qtype

/-- The two entries add the same: neither is counted, or both are, under the same key, and if it is a new
    one, with the same record. -/
def SameContribution (t : Tables) (stats : Stats) (a b : Entry) : Prop :=
  (a.Counted ↔ b.Counted) ∧ (a.Counted → (a.Panics ↔ b.Panics) ∧
    (¬ a.Panics → key a = key b ∧ (key a ∈ stats.map ∨ SameRecord t a b)))

section
variable {t : Tables} {stats : Stats} {a b e : Entry}

/-- An entry that is not counted changes nothing. -/
lemma add_of_not_counted (h : ¬ e.Counted) : add t stats e = .ok stats := by
  unfold add
  by_cases failed : 0 < e.rcode
  · rw [if_pos failed]
  · have empty : e.answers = 0 := by
      by_contra some
      exact h ⟨failed, some⟩
    rw [if_neg failed, if_pos empty]

/-- One that is counted is recorded under its key, with its vendor. -/
lemma add_of_counted (h : e.Counted) :
    add t stats e =
      (fun v => ⟨stats.count + 1, stats.map.insert (key e) (recorded t stats e v)⟩) <$> e.vendor := by
  unfold add
  rw [if_neg h.1, if_neg h.2]
  cases e.vendor <;> rfl

/-- An entry that is counted changes the statistics. -/
lemma add_ne_of_counted (h : e.Counted) : add t stats e ≠ .ok stats := by
  rw [add_of_counted h]
  intro same
  obtain ⟨vendor, -, same⟩ := Res.map_eq_ok.mp same
  have := congrArg Stats.count same
  simp at this

/-- An entry has a vendor, or there is a panic. -/
lemma vendor_cases (e : Entry) : e.Panics ∨ ∃ v, e.vendor = .ok v := by
  unfold Entry.Panics Entry.vendor vendorName
  split
  · split
    · exact .inr ⟨_, rfl⟩
    · exact .inr ⟨_, rfl⟩
    · split
      · exact .inl rfl
      · split_ifs <;> exact .inr ⟨_, rfl⟩
  · exact .inr ⟨_, rfl⟩

/-- Entries with the same record have the same vendor. -/
lemma SameRecord.vendor_eq (same : SameRecord t a b) : a.vendor = b.vendor := by
  obtain ⟨-, origin, name, -, -⟩ := same
  unfold Entry.vendor Entry.ofPool
  rw [origin, name]

/-- Two first entries make the same record. -/
lemma firstOf_eq_iff {v w : String} (hv : a.vendor = .ok v) (hw : b.vendor = .ok w) :
    firstOf t a v = firstOf t b w ↔ SameRecord t a b := by
  constructor
  · intro same
    exact ⟨congrArg StatsEntry.time same, congrArg StatsEntry.origin same, congrArg StatsEntry.name same,
      congrArg StatsEntry.label same, congrArg StatsEntry.qtype same⟩
  · intro same
    obtain rfl : v = w := Res.ok.inj (hv.symm.trans (same.vendor_eq.trans hw))
    obtain ⟨time, origin, name, label, qtype⟩ := same
    unfold firstOf Entry.poolCC Entry.ofPool
    rw [time, origin, name, label, qtype]

/-- Under a key that has a record, only its count goes up, whatever the entry. -/
lemma recorded_of_mem {v w : String} (keys : key a = key b) (mem : key a ∈ stats.map) :
    recorded t stats a v = recorded t stats b w := by
  obtain ⟨s, found⟩ := Option.isSome_iff_exists.mp (AList.lookup_isSome.mpr mem)
  unfold recorded
  rw [← keys, found]

/-- The first entry under a key makes the record. -/
lemma recorded_of_not_mem {v : String} (new : key a ∉ stats.map) : recorded t stats a v = firstOf t a v := by
  unfold recorded
  rw [AList.lookup_eq_none.mpr new]

/-- What is recorded differs from what was there. -/
lemma recorded_ne (v : String) : stats.map.lookup (key a) ≠ some (recorded t stats a v) := by
  unfold recorded
  cases found : stats.map.lookup (key a) with
  | none => exact nofun
  | some s =>
    intro same
    have := congrArg StatsEntry.count (Option.some.inj same)
    simp [StatsEntry.more] at this

/-- The same change of the map is one of the same key to the same record. -/
lemma insert_recorded_iff {v w : String} :
    stats.map.insert (key a) (recorded t stats a v) = stats.map.insert (key b) (recorded t stats b w) ↔
      key a = key b ∧ recorded t stats a v = recorded t stats b w := by
  constructor
  · intro same
    have look := congrArg (fun m : GoMap String StatsEntry => m.lookup (key a)) same
    simp only [AList.lookup_insert] at look
    by_cases keys : key a = key b
    · rw [← keys, AList.lookup_insert] at look
      exact ⟨keys, Option.some.inj look⟩
    · rw [AList.lookup_insert_ne keys] at look
      exact (recorded_ne v look.symm).elim
  · rintro ⟨keys, same⟩
    rw [keys, same]

/-- Under the same key, the same is recorded if the key is there already or the entries are the same as
    far as they are recorded. -/
lemma recorded_eq_iff {v w : String} (hv : a.vendor = .ok v) (hw : b.vendor = .ok w) (keys : key a = key b) :
    recorded t stats a v = recorded t stats b w ↔ key a ∈ stats.map ∨ SameRecord t a b := by
  by_cases mem : key a ∈ stats.map
  · exact iff_of_true (recorded_of_mem keys mem) (.inl mem)
  · rw [recorded_of_not_mem mem, recorded_of_not_mem (keys ▸ mem), firstOf_eq_iff hv hw]
    simp [mem]

/-- Two entries that are both counted. -/
lemma add_eq_iff_of_counted (ca : a.Counted) (cb : b.Counted) :
    add t stats a = add t stats b ↔ (a.Panics ↔ b.Panics) ∧
      (¬ a.Panics → key a = key b ∧ (key a ∈ stats.map ∨ SameRecord t a b)) := by
  rw [add_of_counted ca, add_of_counted cb]
  unfold Entry.Panics
  rcases vendor_cases a with (ha : a.vendor = _) | ⟨v, ha⟩
  · rcases vendor_cases b with (hb : b.vendor = _) | ⟨w, hb⟩ <;> simp [ha, hb]
  · rcases vendor_cases b with (hb : b.vendor = _) | ⟨w, hb⟩
    · simp [ha, hb]
    · simp only [ha, hb, Res.map_ok, Res.ok.injEq, Stats.mk.injEq, true_and, insert_recorded_iff,
        reduceCtorEq, not_false_eq_true, forall_const]
      exact and_congr_right fun keys => recorded_eq_iff ha hb keys

/-- When two entries add the same to the statistics. -/
lemma add_eq_iff : add t stats a = add t stats b ↔ SameContribution t stats a b := by
  unfold SameContribution
  by_cases ca : a.Counted
  · by_cases cb : b.Counted
    · rw [add_eq_iff_of_counted ca cb]
      simp [ca, cb]
    · rw [add_of_not_counted cb]
      exact iff_of_false (add_ne_of_counted ca) fun same => cb (same.1.mp ca)
  · by_cases cb : b.Counted
    · rw [add_of_not_counted ca]
      exact iff_of_false (add_ne_of_counted cb).symm fun same => ca (same.1.mpr cb)
    · rw [add_of_not_counted ca, add_of_not_counted cb]
      simp [ca, cb]

end
end GeoDNS.Logs
