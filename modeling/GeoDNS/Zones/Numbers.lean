import GeoDNS.Zones.Qualified

/-!
# The numbers of a zone file

A number of a zone file is converted twice: to an `int` when its field is read, where a text that is no
number rejects the file, and to the 16 or 32 bits of the field of the record, where nothing is checked. So
a preference, a priority or a port above 65535 ends up as another one that looks as good, and a TTL of
more than 32 bits does too.

`readRecord_numbers` and `defaultTtl` are the two places of the second conversion. `numbers_kept_iff` says
that the records of a type have the numbers of the file exactly if these fit.
-/

namespace GeoDNS.Zones
open GeoDNS.Lib GeoDNS.Dns GeoDNS.Targeting

/-- The value is this integer, written as a number that a `float64` holds exactly or as a decimal text. -/
inductive Denotes : Json → Int → Prop
  | number (n : Int) (small : n.natAbs < 2 ^ 53) : Denotes (.num (.ofInt n small)) n
  | text {s n} : atoi s = some n → Denotes (.str s) n

/-- The field has this integer as its value. -/
def Configured (fields : GoMap String Json) (key : String) (n : Int) : Prop :=
  ∃ v, fields.lookup key = some v ∧ Denotes v n

/-- The numbers in the data of a record, with the names of the fields they are configured by. -/
def numbers : RData → List (String × UInt16)
  | .mx preference _ => [("preference", preference)]
  | .srv priority weight port _ => [("priority", priority), ("srv_weight", weight), ("port", port)]
  | _ => []

/-- The names of the fields that configure numbers of a record of type `t`. -/
def numberKeys (t : RRType) : List String :=
  if t = typeMX then ["preference"]
  else if t = typeSRV then ["priority", "srv_weight", "port"]
  else []

/-- Every number that the entry configures is in the data of its record. -/
def KeepsNumbers (e : Entry) (d : RData) : Prop :=
  ∀ fs, e = .json (.obj fs) → ∀ p ∈ numbers d, ∀ n, Configured (Json.fields fs) p.1 n →
    (p.2.toNat : Int) = n

/-- Every number that the entry configures for a record of type `t` has at most 16 bits. -/
def NumbersFit (t : RRType) (e : Entry) : Prop :=
  ∀ fs, e = .json (.obj fs) → ∀ key ∈ numberKeys t, ∀ n, Configured (Json.fields fs) key n →
    0 ≤ n ∧ n < 2 ^ 16

/-- The top-level fields of a document. -/
def topFields : Json → GoMap String Json
  | .obj l => Json.fields l
  | _ => ∅

/-- The zone's TTL is the one for records of type `t` of a label with these fields. -/
def TakesZoneTtl (fields : GoMap String Json) (t : RRType) : Prop :=
  ¬ 0 < ttlOf fields ∧ t ≠ typeNS

/-- The TTL is the one configured for records of type `t`: that of the label if it is positive, or else
    that of the zone. -/
def KeepsTtl (top fields : GoMap String Json) (t : RRType) (ttl : UInt32) : Prop :=
  (∀ n, 0 < n → Configured fields "ttl" n → (ttl.toNat : Int) = n) ∧
    (TakesZoneTtl fields t → ∀ n, Configured top "ttl" n → (ttl.toNat : Int) = n)

/-- The TTL configured for records of type `t` has at most 32 bits. -/
def TtlFits (top fields : GoMap String Json) (t : RRType) : Prop :=
  (∀ n, 0 < n → Configured fields "ttl" n → n < 2 ^ 32) ∧
    (TakesZoneTtl fields t → ∀ n, Configured top "ttl" n → 0 ≤ n ∧ n < 2 ^ 32)

/-! ## One number -/

section
variable {v : Json} {n m : Int} {fields : GoMap String Json} {key : String}

/-- A value that is an integer is read as that integer. -/
lemma Denotes.toInt (h : Denotes v n) : Typeutil.toInt v = .ok n := by
  cases h with
  | number _ small => exact congrArg Res.ok (Float64.toInt_ofInt n small)
  | text number => exact Res.get_eq_ok.mpr number

/-- A number that is configured is read. -/
lemma Configured.toInt (h : Configured fields key n) :
    ∃ v, fields.lookup key = some v ∧ Typeutil.toInt v = .ok n := by
  obtain ⟨v, hv, denotes⟩ := h
  exact ⟨v, hv, denotes.toInt⟩

/-- An optional number that is configured. -/
lemma Configured.optionalInt (h : Configured fields key n) : optionalInt fields key = .ok n := by
  obtain ⟨v, hv, denotes⟩ := h
  have value : Json.getKey fields key = v := by rw [Json.getKey, hv, Option.getD_some]
  unfold Zones.optionalInt
  rw [value]
  cases denotes with
  | number _ small => exact (Denotes.number n small).toInt
  | text number => exact (Denotes.text number).toInt

/-- The time to live of a label is the configured one. -/
lemma Configured.ttlOf (h : Configured fields "ttl" n) : ttlOf fields = n := by
  obtain ⟨v, hv, hint⟩ := h.toInt
  rw [Zones.ttlOf, hv, Option.map_some, hint]

/-- A field of 16 bits holds exactly the numbers below `2 ^ 16`. -/
lemma uint16_ofInt_eq_iff (n : Int) : ((UInt16.ofInt n).toNat : Int) = n ↔ 0 ≤ n ∧ n < 2 ^ 16 := by
  have wraps : (UInt16.ofInt n).toNat = (n % 65536).toNat := by
    have : n % 65536 < 65536 := by omega
    simpa [UInt16.ofInt] using this
  rw [wraps]
  omega

/-- A field of 32 bits holds exactly the numbers below `2 ^ 32`. -/
lemma uint32_ofInt_eq_iff (n : Int) : ((UInt32.ofInt n).toNat : Int) = n ↔ 0 ≤ n ∧ n < 2 ^ 32 := by
  have wraps : (UInt32.ofInt n).toNat = (n % 4294967296).toNat := by
    have : n % 4294967296 < 4294967296 := by omega
    simpa [UInt32.ofInt] using this
  rw [wraps]
  omega

end

/-! ## The numbers of a record -/

section
variable {origin label dk : String} {t : RRType} {h : Header} {test : String} {e : Entry} {r : Record}

/-- The numbers of a record are those of the fields of its entry, without their upper bits. -/
def Narrowed (e : Entry) (d : RData) : Prop :=
  ∀ p ∈ numbers d, ∃ fs n, e = .json (.obj fs) ∧ optionalInt (Json.fields fs) p.1 = .ok n ∧
    p.2 = UInt16.ofInt n

/-- An entry that is an object. -/
lemma Entry.asObj_eq_ok {fields : GoMap String Json} (ok : e.asObj = .ok fields) :
    ∃ fs, e = .json (.obj fs) ∧ fields = Json.fields fs := by
  cases e with
  | pair k v => cases ok
  | json j =>
    cases j with
    | obj fs =>
      cases ok
      exact ⟨fs, rfl, rfl⟩
    | _ => cases ok

/-- The number of a mail server is that of its entry, cut to 16 bits. -/
lemma readMX_numbers (ok : readMX h test e = .ok r) : Narrowed e r.rr.data := by
  obtain ⟨fields, mx, pref, hf, _, hpref, rr⟩ := readMX_fields ok
  obtain ⟨fs, rfl, rfl⟩ := Entry.asObj_eq_ok hf
  rw [rr]
  intro p hp
  obtain rfl := List.mem_singleton.mp hp
  exact ⟨fs, pref, rfl, hpref, rfl⟩

/-- The numbers of a service are those of its entry, cut to 16 bits. -/
lemma readSRV_numbers (ok : readSRV origin h test e = .ok r) : Narrowed e r.rr.data := by
  obtain ⟨fields, target, weight, port, priority, hf, _, hweight, hport, hpriority, rr⟩ :=
    readSRV_fields ok
  obtain ⟨fs, rfl, rfl⟩ := Entry.asObj_eq_ok hf
  rw [rr]
  intro p hp
  simp only [numbers, List.mem_cons, List.not_mem_nil, or_false] at hp
  rcases hp with rfl | rfl | rfl
  · exact ⟨fs, priority, rfl, hpriority, rfl⟩
  · exact ⟨fs, weight, rfl, hweight, rfl⟩
  · exact ⟨fs, port, rfl, hport, rfl⟩

/-- The loader cuts off what does not fit. -/
lemma readRecord_numbers (ok : readRecord origin label dk t e = .ok (some r)) : Narrowed e r.rr.data := by
  have type := (readRecord_rr ok).2
  obtain ⟨d, hd⟩ : ∃ d, r.rr.data = d := ⟨_, rfl⟩
  rw [hd] at type
  cases d with
  | mx pref name =>
    obtain rfl : t = typeMX := type.symm
    exact readMX_numbers (Res.map_some_eq_ok.mp ok)
  | srv p w q name =>
    obtain rfl : t = typeSRV := type.symm
    exact readSRV_numbers (Res.map_some_eq_ok.mp ok)
  | _ =>
    rw [hd]
    intro p hp
    cases hp

/-- The numbers of a record are those of its type. -/
lemma numbers_keys (d : RData) : (numbers d).map Prod.fst = numberKeys (RData.type d) := by
  cases d <;> rfl

/-- A record has the numbers of its entry if these fit, and not otherwise. -/
lemma keepsNumbers_iff (ok : readRecord origin label dk t e = .ok (some r)) :
    KeepsNumbers e r.rr.data ↔ NumbersFit t e := by
  have narrowed := readRecord_numbers ok
  have keys : (numbers r.rr.data).map Prod.fst = numberKeys t := by
    rw [numbers_keys, (readRecord_rr ok).2]
  -- a number that is configured, and what is in the record
  have stored : ∀ fs, e = .json (.obj fs) → ∀ p ∈ numbers r.rr.data, ∀ n,
      Configured (Json.fields fs) p.1 n → p.2 = UInt16.ofInt n := by
    rintro fs rfl p hp n configured
    obtain ⟨fs', m, same, hm, narrow⟩ := narrowed p hp
    cases same
    cases hm.symm.trans configured.optionalInt
    exact narrow
  constructor
  · intro keeps fs he key hkey n configured
    rw [← keys] at hkey
    obtain ⟨p, hp, rfl⟩ := List.mem_map.mp hkey
    rw [← uint16_ofInt_eq_iff, ← stored fs he p hp n configured]
    exact keeps fs he p hp n configured
  · intro fit fs he p hp n configured
    have hkey : p.1 ∈ numberKeys t := keys ▸ List.mem_map_of_mem hp
    rw [stored fs he p hp n configured, uint16_ofInt_eq_iff]
    exact fit fs he p.1 hkey n configured

/-- All records keep their numbers if and only if all numbers fit. -/
lemma forall₂_keepsNumbers_iff {entries : List Entry} {read : List Record}
    (each : List.Forall₂ (fun e r => readRecord origin label dk t e = .ok (some r)) entries read) :
    List.Forall₂ (fun e r => KeepsNumbers e r.rr.data) entries read ↔ ∀ e ∈ entries, NumbersFit t e := by
  induction each with
  | nil => simp
  | cons ok _ ih => rw [List.forall₂_cons, List.forall_mem_cons, ih, keepsNumbers_iff ok]

end

/-! ## The TTL -/

section
variable {top : GoMap String Json} {zoneTtl : Int}

/-- The TTL of a record is the configured one if that fits, and not otherwise. -/
lemma keepsTtl_iff (zone : ∀ n, Configured top "ttl" n → zoneTtl = n) (fields : GoMap String Json)
    (t : RRType) :
    KeepsTtl top fields t (defaultTtl zoneTtl (ttlOf fields) t) ↔ TtlFits top fields t := by
  unfold KeepsTtl TtlFits
  apply and_congr
  · refine forall_congr' (fun n => forall_congr' (fun pos => forall_congr' (fun configured => ?_)))
    rw [defaultTtl, configured.ttlOf, if_pos pos, uint32_ofInt_eq_iff]
    omega
  · refine forall_congr' (fun takes => forall_congr' (fun n => forall_congr' (fun configured => ?_)))
    rw [defaultTtl, if_neg takes.1, if_neg takes.2, zone n configured, uint32_ofInt_eq_iff]

end

section
variable {ext : Externals} {geo : Option Provider} {name fileName k : String} {mtime : Int} {doc : Json}
variable {z : Zone} {l : Label} {t : RRType} {rs : List Record}

/-- The top level of a zone file are its fields. -/
lemma topLevel_fields {m : GoMap String Json} (h : topLevel fileName doc = .ok m) : m = topFields doc := by
  cases doc with
  | obj l =>
    cases h
    rfl
  | null =>
    cases h
    rfl
  | _ => cases h

/-- A zone has the TTL that its file configures. -/
lemma readZoneFile_ttl (h : readZoneFile ext geo name fileName mtime (.ok doc) = .ok z) {n : Int}
    (configured : Configured (topFields doc) "ttl" n) : z.options.ttl = n := by
  obtain ⟨m, start, raw, z0, htop, empty, _, hoptions, setup, located⟩ := readZoneFile_options h
  obtain rfl := topLevel_fields htop
  obtain ⟨⟨labels, _⟩, _⟩ := readOptions_data (topFields doc).nodupKeys hoptions
  have kept : z.options.ttl = raw.options.ttl := by
    have options := (setupZoneData_options (labels.trans empty) setup).2
    rcases located with rfl | ⟨g, rfl⟩
    · rw [options]
    · exact congrArg ZoneOptions.ttl options
  obtain ⟨v, hv, hint⟩ := configured.toInt
  rcases readOptions_ttl (topFields doc).nodupKeys hoptions with ⟨none, _⟩ | ⟨v', hv', hint'⟩
  · cases hv.symm.trans none
  · cases hv.symm.trans hv'
    rw [kept]
    exact Res.ok.inj (hint'.symm.trans hint)

/-- The records of a type in a zone file have the numbers that the file gives for them, exactly if these fit
    in their fields. -/
theorem numbers_kept_iff (h : readZoneFile ext geo name fileName mtime (.ok doc) = .ok z)
    (hl : z.labels.lookup k = some l) (hrec : l.recordsOf t = some rs) (ht : t ≠ typeSOA) :
    ∃ dk fs entries read, (dataOf doc).lookup dk = some (.obj fs) ∧ Lists (dataOf doc) k t dk entries ∧
      List.Forall₂ (fun e r => readRecord name k dk t e = .ok (some r)) entries read ∧
      (rs.map (fun r => r.rr.data)).Perm (read.map (fun r => r.rr.data)) ∧
      ((List.Forall₂ (fun e r => KeepsNumbers e r.rr.data) entries read ∧
          ∀ r ∈ rs, KeepsTtl (topFields doc) (Json.fields fs) t r.rr.hdr.ttl) ↔
        (∀ e ∈ entries, NumbersFit t e) ∧
          (entries = [] ∨ TtlFits (topFields doc) (Json.fields fs) t)) := by
  obtain ⟨dk, fs, entries, read, hdv, lists, each, perm, ttls⟩ := readZoneFile_list h hl hrec ht
  refine ⟨dk, fs, entries, read, hdv, lists, each, perm, ?_⟩
  rw [forall₂_keepsNumbers_iff each]
  apply and_congr_right
  intro _
  have keeps := keepsTtl_iff (fun n => readZoneFile_ttl h) (Json.fields fs) t
  have same : rs = [] ↔ entries = [] := by
    have length := perm.length_eq
    rw [List.length_map, List.length_map, ← each.length_eq] at length
    rw [← List.length_eq_zero_iff, ← List.length_eq_zero_iff, length]
  rw [← same]
  cases rs with
  | nil => simp
  | cons r rs =>
    constructor
    · intro all
      have first := all r List.mem_cons_self
      rw [ttls r List.mem_cons_self] at first
      exact .inr (keeps.mp first)
    · rintro (nil | fits) r' hr'
      · cases nil
      · rw [ttls r' hr']
        exact keeps.mpr fits

end

/-- The fields of a mail server with a preference. -/
def smallServerFields (preference : String) : List (String × Json) :=
  [("mx", .str "mail.example.com."), ("preference", .str preference)]

/-- The file of a zone with a TTL and a mail server. -/
def smallMail (preference ttl : String) : Json :=
  .obj [("ttl", .str ttl),
    ("data", .obj [("", .obj [("mx", .arr [.obj (smallServerFields preference)])])])]

/-- A preference and a TTL that fit are in the record. -/
theorem small_numbers_kept : ∃ z l rs,
    readZoneFile smallExternals none "example.com" "example.com.json" 0 (.ok (smallMail "10" "300")) = .ok z ∧
      z.labels.lookup "" = some l ∧ l.recordsOf typeMX = some rs ∧
      Configured (topFields (smallMail "10" "300")) "ttl" 300 ∧
      ∀ r ∈ rs, (r.rr.hdr.ttl.toNat : Int) = 300 := by
  obtain ⟨z, l, rs, hz, hl, hrec⟩ : ∃ z l rs, readZoneFile smallExternals none "example.com"
      "example.com.json" 0 (.ok (smallMail "10" "300")) = .ok z ∧
      z.labels.lookup "" = some l ∧ l.recordsOf typeMX = some rs := ⟨_, _, _, rfl, rfl, rfl⟩
  have configured : Configured (topFields (smallMail "10" "300")) "ttl" 300 :=
    ⟨_, rfl, .text (by decide +kernel)⟩
  refine ⟨z, l, rs, hz, hl, hrec, configured, ?_⟩
  obtain ⟨dk, fs, entries, read, hdv, lists, _, _, iff⟩ := numbers_kept_iff hz hl hrec (by decide)
  have listed : Lists (dataOf (smallMail "10" "300")) "" typeMX "" [.json (.obj (smallServerFields "10"))] :=
    ⟨rfl, _, "mx", _, rfl, rfl, rfl, by simp, rfl⟩
  obtain ⟨rfl, rfl⟩ := lists.unique (by decide +kernel) listed
  obtain rfl : fs = [("mx", .arr [.obj (smallServerFields "10")])] := by
    cases hdv
    rfl
  have takes : TakesZoneTtl (Json.fields [("mx", .arr [.obj (smallServerFields "10")])]) typeMX :=
    ⟨by decide +kernel, by decide⟩
  have kept := iff.mpr ⟨?_, .inr ⟨?_, ?_⟩⟩
  · intro r hr
    exact (kept.2 r hr).2 takes 300 configured
  · intro e he fs' same key hkey n preference
    obtain rfl := List.mem_singleton.mp he
    cases same
    obtain rfl := List.mem_singleton.mp hkey
    have ten : optionalInt (Json.fields (smallServerFields "10")) "preference" = .ok 10 := by rfl
    cases ten.symm.trans preference.optionalInt
    decide
  · rintro n _ ⟨v, hv, _⟩
    cases hv
  · intro _ n ttl
    have whole : ttlOf (topFields (smallMail "10" "300")) = 300 := by rfl
    rw [← ttl.ttlOf, whole]
    decide

/-- A preference of more than 16 bits and a TTL of more than 32 are accepted, and become others. -/
theorem numbers_cut_off : ∃ z l r,
    readZoneFile smallExternals none "example.com" "example.com.json" 0
        (.ok (smallMail "65546" "4294967596")) = .ok z ∧
      z.labels.lookup "" = some l ∧ l.recordsOf typeMX = some [r] ∧
      Configured (Json.fields (smallServerFields "65546")) "preference" 65546 ∧
      Configured (topFields (smallMail "65546" "4294967596")) "ttl" 4294967596 ∧
      r.rr.data = .mx 10 "mail.example.com." ∧ r.rr.hdr.ttl = 300 :=
  ⟨_, _, _, rfl, rfl, rfl, ⟨_, rfl, .text (by decide +kernel)⟩, ⟨_, rfl, .text (by decide +kernel)⟩,
    rfl, rfl⟩

end GeoDNS.Zones
