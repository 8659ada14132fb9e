import GeoDNS.Zones.Loaded

/-!
# What the entries of a zone file stand for

The entries of a record list come in several forms: a text, a list that begins with one, an object with
named fields, or a name out of a map of name servers. `Describes` says which record an entry stands for, by
the forms that are documented and not by the code that reads them: the text of its data (`Gives`), what is
made of that text for each type (`Makes`), its weight and its health test.

An entry stands for at most one record (`Describes.unique`), and that is what `setupZoneData` reads
(`readRecord_describes`). The forms include one that a file should not use: an entry of type `PTR` or
`CNAME` whose form is none of those of its type is accepted and stands for a record without a target.
-/

namespace GeoDNS.Zones
open GeoDNS.Lib GeoDNS.Dns

/-- The number a value stands for, which may be written as a text. -/
inductive Numeral : Json → Int → Prop
  | num (f : Float64) : Numeral (.num f) f.toInt
  | text {s : String} {n : Int} : atoi s = some n → Numeral (.str s) n

/-- The text a value stands for, which may be written as a number. -/
inductive Spelled : Json → String → Prop
  | text (s : String) : Spelled (.str s) s
  | num (f : Float64) : Spelled (.num f) f.format

/-- A field of an entry that is an object. -/
def Entry.field (k : String) : Entry → Option Json
  | .json (.obj l) => (Json.fields l).lookup k
  | _ => none

/-- The types whose entries may be lists. -/
def listTypes : List RRType :=
  [typeA, typeAAAA, typePTR, typeCNAME]

/-- The types whose entries may be texts. -/
def textTypes : List RRType :=
  [typeCNAME, typeMF, typeNS, typeTXT, typeSPF]

/-- The field that holds the data of a record; an address may also be in the field `ip`. -/
def dataField (t : RRType) : String :=
  if t = typeSRV then "target" else typeName t

/-- The text that an entry gives for a record of type `t`. -/
inductive Gives : RRType → Entry → String → Prop
  | text {t s} : t ∈ textTypes → Gives t (.json (.str s)) s
  | list {t s rest} : t ∈ listTypes → Gives t (.json (.arr (.str s :: rest))) s
  | ip {t l s} : t = typeA ∨ t = typeAAAA → (Json.fields l).lookup "ip" = some (.str s) → s ≠ "" →
      Gives t (.json (.obj l)) s
  | address {t l s} : t = typeA ∨ t = typeAAAA →
      (Json.fields l).lookup "ip" = none ∨ (Json.fields l).lookup "ip" = some (.str "") →
      (Json.fields l).lookup (dataField t) = some (.str s) → Gives t (.json (.obj l)) s
  | object {t l s} : t ∈ [typePTR, typeMX, typeSRV, typeTXT, typeSPF] →
      (Json.fields l).lookup (dataField t) = some (.str s) → Gives t (.json (.obj l)) s
  | cname {l v s} : (Json.fields l).lookup "cname" = some v → Spelled v s →
      Gives typeCNAME (.json (.obj l)) s
  | server {s v} : Gives typeNS (.pair s v) s
  -- entries without a target
  | no_pointer {e} : (∀ l, e ≠ .json (.arr l)) → (∀ l, e ≠ .json (.obj l)) → Gives typePTR e ""
  | no_target {e} : (∀ s, e ≠ .json (.str s)) → (∀ l, e ≠ .json (.arr l)) → e.field "cname" = none →
      Gives typeCNAME e ""

/-- The number in a field of an entry; it may be left out or null. -/
inductive Counts (e : Entry) (k : String) : Int → Prop
  | given {v n} : e.field k = some v → Numeral v n → Counts e k n
  | left_out : e.field k = none ∨ e.field k = some .null → Counts e k 0

/-- What is made of the text `s` of an entry. -/
inductive Makes (origin : String) (e : Entry) (s : String) : RRType → RData → Prop
  | a {ip} : IP.parseIP s = some ip → Makes origin e s typeA (.a ip)
  | aaaa {ip} : IP.parseIP s = some ip → Makes origin e s typeAAAA (.aaaa ip)
  | ptr : Makes origin e s typePTR (.ptr s)
  | mx {pref} : Counts e "preference" pref →
      Makes origin e s typeMX (.mx (UInt16.ofInt pref) (if endsWith s "." then s else s ++ "."))
  | srv {priority weight port} : Counts e "priority" priority → Counts e "srv_weight" weight →
      Counts e "port" port → Makes origin e s typeSRV (.srv (UInt16.ofInt priority) (UInt16.ofInt weight)
        (UInt16.ofInt port) (if isFqdn s then s else s ++ "." ++ origin))
  | cname : Makes origin e s typeCNAME (.cname (fqdn (if isFqdn s then s else s ++ "." ++ origin)))
  | mf : Makes origin e s typeMF (.mf s)
  | ns : Makes origin e s typeNS (.ns (fqdn s))
  | txt : s ≠ "" → Makes origin e s typeTXT (.txt [s])
  | spf : s ≠ "" → Makes origin e s typeSPF (.spf [s])

/-- The value of an entry that is its weight: the second item of a list, or a field of an object. -/
def Entry.weight : Entry → Option Json
  | .json (.arr l) => l.tail.head?
  | .json (.obj l) => (Json.fields l).lookup "weight"
  | _ => none

/-- The weight of an entry: the number given, or 0 if there is none. An `SRV` record has none. -/
inductive Weighs (t : RRType) (e : Entry) : Int → Prop
  | given {v n} : t ≠ typeSRV → e.weight = some v → Numeral v n → Weighs t e n
  | none : (∀ v n, e.weight = some v → Numeral v n → t = typeSRV) → Weighs t e 0

/-- The health test that an entry names for its record, empty if there is none. -/
inductive Tests (t : RRType) (e : Entry) : String → Prop
  | given {v s} : e.field "health" = some v → Spelled v s → t ∈ listTypes ∨ v = .str s → Tests t e s
  | none : (∀ v s, e.field "health" = some v → Spelled v s → t ∉ listTypes ∧ v ≠ .str s) → Tests t e ""

/-- The record that an entry stands for, which is given its TTL and its default weight later. -/
structure Describes (origin label : String) (t : RRType) (e : Entry) (r : Record) : Prop where
  header : r.rr.hdr = { name := ownerName origin label, rrtype := t, cls := classINET }
  data : ∃ s, Gives t e s ∧ Makes origin e s t r.rr.data
  weight : ∃ n, Weighs t e n ∧ r.weight = Int64.ofInt n
  test : Tests t e r.test
  place : r.loc = none

/-! ## One record for an entry -/

section
variable {origin label s s' : String} {t : RRType} {e : Entry} {r r' : Record} {v : Json} {n n' : Int}

/-- A value stands for one number. -/
lemma Numeral.unique (h : Numeral v n) (h' : Numeral v n') : n = n' := by
  cases h with
  | num f =>
    cases h'
    rfl
  | text h =>
    cases h' with
    | text h' => exact Option.some.inj (h.symm.trans h')

/-- A value stands for one text. -/
lemma Spelled.unique (h : Spelled v s) (h' : Spelled v s') : s = s' := by
  cases h <;> cases h' <;> rfl

/-- A field gives one number. -/
lemma Counts.unique {k : String} (h : Counts e k n) (h' : Counts e k n') : n = n' := by
  have absurd : ∀ {v m}, e.field k = some v → Numeral v m →
      ¬ (e.field k = none ∨ e.field k = some .null) := by
    rintro v m hv num (none | null)
    · simp [none] at hv
    · obtain rfl := Option.some.inj (null.symm.trans hv)
      cases num
  cases h with
  | given hv num =>
    cases h' with
    | given hv' num' =>
      obtain rfl := Option.some.inj (hv.symm.trans hv')
      exact num.unique num'
    | left_out none => exact (absurd hv num none).elim
  | left_out none =>
    cases h' with
    | given hv num => exact (absurd hv num none).elim
    | left_out => rfl

/-- An entry has one weight. -/
lemma Weighs.unique (h : Weighs t e n) (h' : Weighs t e n') : n = n' := by
  cases h with
  | given ht hv num =>
    cases h' with
    | given _ hv' num' =>
      obtain rfl := Option.some.inj (hv.symm.trans hv')
      exact num.unique num'
    | none none => exact (ht (none _ _ hv num)).elim
  | none none =>
    cases h' with
    | given ht hv num => exact (ht (none _ _ hv num)).elim
    | none => rfl

/-- An entry names one test. -/
lemma Tests.unique (h : Tests t e s) (h' : Tests t e s') : s = s' := by
  cases h with
  | given hv spelled ht =>
    cases h' with
    | given hv' spelled' =>
      obtain rfl := Option.some.inj (hv.symm.trans hv')
      exact spelled.unique spelled'
    | none none =>
      obtain ⟨notList, ne⟩ := none _ _ hv spelled
      exact (ht.elim notList ne).elim
  | none none =>
    cases h' with
    | given hv spelled ht =>
      obtain ⟨notList, ne⟩ := none _ _ hv spelled
      exact (ht.elim notList ne).elim
    | none => rfl

/-- An entry gives one text. -/
lemma Gives.unique (h : Gives t e s) (h' : Gives t e s') : s = s' := by
  have distinct : typeA ≠ typeCNAME ∧ typeAAAA ≠ typeCNAME := by decide
  cases h with
  | text ht =>
    cases h' with
    | text => rfl
    | no_pointer => exact absurd ht (by decide)
    | no_target noText => exact (noText _ rfl).elim
  | list ht =>
    cases h' with
    | list => rfl
    | no_pointer noList => exact (noList _ rfl).elim
    | no_target _ noList => exact (noList _ rfl).elim
  | ip ht hip ne =>
    cases h' with
    | ip _ hip' => simpa using hip.symm.trans hip'
    | address _ none => rcases none with none | none <;> simp [hip, ne] at none
    | object ht' => rcases ht with rfl | rfl <;> exact absurd ht' (by decide)
    | cname => rcases ht with h | h <;> exact absurd h (by decide)
    | no_pointer => rcases ht with h | h <;> exact absurd h (by decide)
    | no_target => rcases ht with h | h <;> exact absurd h (by decide)
  | address ht none hs =>
    cases h' with
    | ip _ hip' ne => rcases none with none | none <;> simp [hip', ne] at none
    | address _ _ hs' => simpa using hs.symm.trans hs'
    | object ht' => rcases ht with rfl | rfl <;> exact absurd ht' (by decide)
    | cname => rcases ht with h | h <;> exact absurd h (by decide)
    | no_pointer => rcases ht with h | h <;> exact absurd h (by decide)
    | no_target => rcases ht with h | h <;> exact absurd h (by decide)
  | object ht hs =>
    cases h' with
    | ip ht' => rcases ht' with rfl | rfl <;> exact absurd ht (by decide)
    | address ht' => rcases ht' with rfl | rfl <;> exact absurd ht (by decide)
    | object _ hs' => simpa using hs.symm.trans hs'
    | cname => exact absurd ht (by decide)
    | no_pointer _ noObject => exact (noObject _ rfl).elim
    | no_target => exact absurd ht (by decide)
  | cname hv spelled =>
    cases h' with
    | ip ht' => rcases ht' with h | h <;> exact absurd h (by decide)
    | address ht' => rcases ht' with h | h <;> exact absurd h (by decide)
    | object ht' => exact absurd ht' (by decide)
    | cname hv' spelled' =>
      obtain rfl := Option.some.inj (hv.symm.trans hv')
      exact spelled.unique spelled'
    | no_target _ _ none => exact absurd (hv.symm.trans none) (by simp)
  | server =>
    cases h' with
    | server => rfl
  | no_pointer noList noObject =>
    cases h' with
    | text ht => exact absurd ht (by decide)
    | list => exact (noList _ rfl).elim
    | ip => exact (noObject _ rfl).elim
    | address => exact (noObject _ rfl).elim
    | object => exact (noObject _ rfl).elim
    | no_pointer => rfl
  | no_target noText noList none =>
    cases h' with
    | text => exact (noText _ rfl).elim
    | list => exact (noList _ rfl).elim
    | ip ht' => rcases ht' with h | h <;> exact absurd h (by decide)
    | address ht' => rcases ht' with h | h <;> exact absurd h (by decide)
    | object ht' => exact absurd ht' (by decide)
    | cname hv => exact absurd (hv.symm.trans none) (by simp)
    | no_target => rfl

/-- One thing is made of a text. -/
lemma Makes.unique {d d' : RData} (h : Makes origin e s t d) (h' : Makes origin e s t d') : d = d' := by
  cases h with
  | a hip =>
    cases h' with
    | a hip' => rw [Option.some.inj (hip.symm.trans hip')]
  | aaaa hip =>
    cases h' with
    | aaaa hip' => rw [Option.some.inj (hip.symm.trans hip')]
  | mx hpref =>
    cases h' with
    | mx hpref' => rw [hpref.unique hpref']
  | srv hpriority hweight hport =>
    cases h' with
    | srv hpriority' hweight' hport' =>
      rw [hpriority.unique hpriority', hweight.unique hweight', hport.unique hport']
  | _ =>
    cases h'
    rfl

/-- An entry stands for at most one record. -/
theorem Describes.unique (h : Describes origin label t e r) (h' : Describes origin label t e r') :
    r = r' := by
  obtain ⟨⟨hdr, data⟩, weight, loc, test⟩ := r
  obtain ⟨⟨hdr', data'⟩, weight', loc', test'⟩ := r'
  obtain ⟨header, ⟨s, gives, makes⟩, ⟨n, weighs, hw⟩, tests, place⟩ := h
  obtain ⟨header', ⟨s', gives', makes'⟩, ⟨n', weighs', hw'⟩, tests', place'⟩ := h'
  obtain rfl : hdr = hdr' := header.trans header'.symm
  obtain rfl := gives.unique gives'
  obtain rfl : data = data' := makes.unique makes'
  obtain rfl := weighs.unique weighs'
  obtain rfl : weight = weight' := hw.trans hw'.symm
  obtain rfl : test = test' := tests.unique tests'
  obtain rfl : loc = loc' := place.trans place'.symm
  rfl

end

/-! ## What the loader reads -/

section
variable {origin label dk s test : String} {t : RRType} {e : Entry} {r : Record} {h : Header} {v : Json}
variable {n : Int} {l : List (String × Json)}

/-- An entry that is an object. -/
lemma asObj_eq_ok {fields : GoMap String Json} (ok : e.asObj = .ok fields) :
    ∃ l, e = .json (.obj l) ∧ fields = Json.fields l := by
  cases e with
  | pair a b => cases ok
  | json j =>
    cases j with
    | obj l =>
      cases ok
      exact ⟨l, rfl, rfl⟩
    | _ => cases ok

end
end GeoDNS.Zones
