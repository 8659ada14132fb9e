import GeoDNS.Server.Serve

/-!
# The scope of an answer

With the client-subnet option a resolver asks for a part of its clients, and the scope in the reply tells
it for which of them it may use the answer again: all that agree with the address asked for on that many
bits. So the targets must be the same for all of them.

`GetTargets` keeps the prefix length of the country lookup only. The names of the address itself, of its
network number and of its place hold for longer prefixes than the scope says, and `scopeSound_iff` says
that the options without any of these are the sound ones.
-/

namespace GeoDNS.Server
open GeoDNS.Lib GeoDNS.Dns GeoDNS.Targeting GeoDNS.Zones

/-- A geo database whose results hold for the prefix lengths that it reports. -/
structure Lawful (g : Provider) : Prop where
  country : ∀ a : IP, a.Valid → 0 ≤ (g.getCountry a).2.2 ∧ (g.getCountry a).2.2 ≤ a.bits.length ∧
    ∀ b, IP.SamePrefix (g.getCountry a).2.2.toNat a b → g.getCountry b = g.getCountry a
  asn : ∀ a : IP, a.Valid → 0 ≤ (g.getASN a).2.1 ∧ (g.getASN a).2.1 ≤ a.bits.length ∧
    ∀ b, IP.SamePrefix (g.getASN a).2.1.toNat a b → g.getASN b = g.getASN a
  location : ∀ (a : IP) l err, a.Valid → g.getLocation a = (some l, err) →
    0 ≤ l.netmask ∧ l.netmask ≤ a.bits.length ∧
      ∀ b, IP.SamePrefix l.netmask.toNat a b → g.getLocation b = g.getLocation a

/-- The target names of an address. -/
def targetsOf (g : Provider) (t : TargetOptions) (hasClosest : Bool) (ip : IP) : List String :=
  (getTargets (some g) t ip hasClosest).1.1

/-- The scope that `serve` returns for an address. -/
def scopeOf (g : Provider) (t : TargetOptions) (hasClosest : Bool) (ip : IP) : Nat :=
  (sourceScope (getTargets (some g) t ip hasClosest).1.2.1).toNat

/-- Whatever the database, all addresses within the scope have the same targets. -/
def ScopeSound (t : TargetOptions) (hasClosest : Bool) : Prop :=
  ∀ g, Lawful g → ∀ a b, IP.SamePrefix (scopeOf g t hasClosest a) a b →
    targetsOf g t hasClosest a = targetsOf g t hasClosest b

/-- The options that ask for the number of a network or for a place. -/
def FinerNames (t : TargetOptions) (hasClosest : Bool) : Prop :=
  t.has targetASN = true ∨ t.has targetRegion = true ∨ t.has targetRegionGroup = true ∨
    (hasClosest = true ∧ (t.has targetCountry = true ∨ t.has targetContinent = true))

/-- No names of the address itself, of its network number or of its place. -/
def CountryOnly (t : TargetOptions) (hasClosest : Bool) : Prop :=
  t.has targetIP = false ∧ ¬ FinerNames t hasClosest

section
variable {g : Provider} {t : TargetOptions} {hasClosest : Bool} {a b ip : IP}

/-- These are the targets that `serve` uses for a request with a client subnet, and the scope in its
    reply. -/
theorem reply_scope {env : Env} {w : RemoteAddr} {req : Msg} {z : Zone} {hdr : Header} {e : Subnet}
    (geo : env.geo = some g) (hreq : req.extra = [⟨hdr, .opt [.subnet e]⟩]) (family : e.family ≠ 0)
    (address : e.address ≠ []) :
    (askerOf env w req z).targets = targetsOf g z.options.targeting z.hasClosest e.address ∧
      ∃ e', (newReply req (askerOf env w req z)).extra = [⟨hdr, .opt [.subnet e']⟩] ∧
        e'.sourceScope.toNat = scopeOf g z.options.targeting z.hasClosest e.address := by
  have found : scanExtra req.extra = ⟨some 0, some (0, 0, e)⟩ := by
    simp [hreq, scanExtra, scanOption, address]
  have asker : askerOf env w req z =
      { realIP := w.ip.getD []
        ip := (getTargets (some g) z.options.targeting e.address z.hasClosest).2
        targets := targetsOf g z.options.targeting z.hasClosest e.address
        netmask := (getTargets (some g) z.options.targeting e.address z.hasClosest).1.2.1
        location := (getTargets (some g) z.options.targeting e.address z.hasClosest).1.2.2
        found := ⟨some 0, some (0, 0, e)⟩ } := by
    simp [askerOf, found, geo, address, targetsOf]
  rw [asker]
  refine ⟨rfl, { e with
    sourceScope := sourceScope (getTargets (some g) z.options.targeting e.address z.hasClosest).1.2.1
    address := (getTargets (some g) z.options.targeting e.address z.hasClosest).2 }, ?_, rfl⟩
  show [] ++ replyOpt req _ = _
  simp only [replyOpt, family, ne_eq, not_false_eq_true, if_true, hreq]
  rfl

/-- The scope is the prefix length, but at least 16. -/
lemma toNat_sourceScope {n : Int} (nonneg : 0 ≤ n) (le : n ≤ 128) :
    (sourceScope n).toNat = max n.toNat 16 := by
  rw [sourceScope, UInt8.ofInt, UInt8.toNat_ofNat']
  split_ifs <;> omega

/-! ## Sound options -/

/-- With countries and continents only, the other options are not set. -/
lemma CountryOnly.flags (only : CountryOnly t hasClosest) :
    t.has targetASN = false ∧ t.has targetRegion = false ∧ t.has targetRegionGroup = false ∧
      (hasClosest = true → t.has targetCountry = false ∧ t.has targetContinent = false) := by
  simpa only [FinerNames, not_or, not_and, Bool.not_eq_true] using only.2

/-- The targets and the scope without names of the address. -/
lemma getTargets_without_ip (g : Provider) (hasClosest : Bool) (ip : IP) (h : t.has targetIP = false) :
    targetsOf g t hasClosest ip = (getGeoTargets g t ip hasClosest).1 ++
        (if t.has targetGlobal then ["@"] else []) ∧
      scopeOf g t hasClosest ip = (sourceScope (getGeoTargets g t ip hasClosest).2.1).toNat := by
  simp [targetsOf, scopeOf, getTargets, h]

/-- With `closest` and none of the options about places, the place gives no name. -/
lemma getGeoTargets_closest (only : CountryOnly t true) : (getGeoTargets g t ip true).1 = [] := by
  obtain ⟨asn, region, regionGroup, place⟩ := only.flags
  obtain ⟨country, continent⟩ := place rfl
  simp only [getGeoTargets, asn, region, regionGroup, country, continent]
  rcases g.getLocation ip with ⟨_ | l, _ | err⟩ <;> rfl

/-- Without `closest` the names are those of the country lookup, and the prefix is its prefix. -/
lemma getGeoTargets_country (only : CountryOnly t false)
    (used : t.has targetCountry = true ∨ t.has targetContinent = true) :
    getGeoTargets g t ip false =
      ((if t.has targetCountry then nonempty (g.getCountry ip).1 else []) ++
        (if t.has targetContinent then nonempty (g.getCountry ip).2.1 else []),
        (g.getCountry ip).2.2, none) := by
  obtain ⟨asn, region, regionGroup, _⟩ := only.flags
  simp [getGeoTargets, asn, region, regionGroup, used]

/-- If neither countries nor continents are asked for, there are no targets. -/
lemma getGeoTargets_unused (only : CountryOnly t false)
    (unused : ¬ (t.has targetCountry = true ∨ t.has targetContinent = true)) :
    getGeoTargets g t ip false = ([], 0, none) := by
  obtain ⟨asn, region, regionGroup, _⟩ := only.flags
  simp only [not_or, Bool.not_eq_true] at unused
  simp [getGeoTargets, asn, region, regionGroup, unused.1, unused.2]

/-- With countries and continents only, the scope is sound. -/
lemma scopeSound_of_countryOnly (only : CountryOnly t hasClosest) : ScopeSound t hasClosest := by
  intro g lawful a b same
  obtain ⟨targetsA, scope⟩ := getTargets_without_ip g hasClosest a only.1
  obtain ⟨targetsB, _⟩ := getTargets_without_ip g hasClosest b only.1
  rw [targetsA, targetsB]
  cases hasClosest with
  | true => rw [getGeoTargets_closest only, getGeoTargets_closest only]
  | false =>
    by_cases used : t.has targetCountry = true ∨ t.has targetContinent = true
    · obtain ⟨nonneg, le, constant⟩ := lawful.country a same.valid.1
      have within : (g.getCountry a).2.2.toNat ≤ scopeOf g t false a := by
        have bits := same.valid.1.bits_length
        rw [scope, getGeoTargets_country only used, toNat_sourceScope nonneg (by omega)]
        exact le_max_left _ _
      rw [getGeoTargets_country only used, getGeoTargets_country only used,
        constant b (same.mono within)]
    · rw [getGeoTargets_unused only used, getGeoTargets_unused only used]

/-! ## Options that are not sound -/

/-- Two addresses that agree on 16 bits. -/
def hostA : IP := IP.v4InV6 ++ [192, 0, 2, 1]

/-- Another address, which agrees with the first one on 16 bits. -/
def hostB : IP := IP.v4InV6 ++ [192, 0, 2, 2]

/-- The name that a database with a network of its own for `hostA` gives an address. -/
def hostName (ip : IP) : String :=
  if ip.bits = hostA.bits then "first" else "other"

/-- A database that tells addresses apart to the last bit, but for their countries. -/
def exactProvider : Provider where
  getCountry _ := ("", "", 0)
  getASN ip := (hostName ip, ip.bits.length, none)
  getLocation ip := (some
    { country := hostName ip
      continent := hostName ip
      regionGroup := hostName ip
      region := hostName ip
      latitude := .ofInt 0 (by decide)
      longitude := .ofInt 0 (by decide)
      netmask := ip.bits.length }, none)

/-- What this database says of an address, it says of the network that it reports. -/
lemma exactProvider_lawful : Lawful exactProvider where
  country := by
    intro a _
    exact ⟨le_refl _, Int.natCast_nonneg _, fun _ _ => rfl⟩
  asn := by
    intro a _
    refine ⟨Int.natCast_nonneg _, le_refl _, fun b same => ?_⟩
    have e : a.bits = b.bits := IP.SamePrefix.bits_eq same
    simp [exactProvider, hostName, e]
  location := by
    intro a l err _ h
    cases h
    refine ⟨Int.natCast_nonneg _, le_refl _, fun b same => ?_⟩
    have e : a.bits = b.bits := IP.SamePrefix.bits_eq same
    simp [exactProvider, hostName, e]

/-- The names that this database gives are not empty. -/
lemma hostName_ne_empty (ip : IP) : hostName ip ≠ "" := by
  unfold hostName
  split <;> decide

/-- This database reports no network for a country. -/
lemma exact_netmask (t : TargetOptions) (ip : IP) (hasClosest : Bool) :
    (getGeoTargets exactProvider t ip hasClosest).2.1 = 0 := by
  unfold getGeoTargets
  dsimp only
  split_ifs <;> rfl

/-- The only targets from this database are the names of places and networks. -/
lemma mem_exact {s : String} : s ∈ (getGeoTargets exactProvider t ip hasClosest).1 ↔
    s = hostName ip ∧ FinerNames t hasClosest := by
  have name : ∀ p : Bool, s ∈ (if p then nonempty (hostName ip) else []) ↔ p = true ∧ s = hostName ip := by
    intro p
    cases p <;> simp [nonempty, hostName_ne_empty]
  have blank : ∀ p : Bool, ¬ s ∈ (if p then nonempty "" else []) := by
    intro p
    cases p <;> simp [nonempty]
  unfold FinerNames
  by_cases located : t.has targetRegion = true ∨ t.has targetRegionGroup = true ∨ hasClosest = true
  · -- every name is used, and it is the same one
    have all : (t.has targetASN = true ∨ t.has targetRegion = true ∨ t.has targetRegionGroup = true ∨
        (hasClosest = true ∧ (t.has targetCountry = true ∨ t.has targetContinent = true))) ↔
        (((t.has targetASN = true ∨ t.has targetRegion = true) ∨ t.has targetRegionGroup = true) ∨
          t.has targetCountry = true) ∨ t.has targetContinent = true := by
      rcases located with h | h | h <;> simp [h, or_assoc]
    simp only [getGeoTargets, if_pos located, exactProvider, List.mem_append, name, ← or_and_right]
    rw [all, and_comm]
  · have asnOnly : (t.has targetASN = true ∨ t.has targetRegion = true ∨ t.has targetRegionGroup = true ∨
        (hasClosest = true ∧ (t.has targetCountry = true ∨ t.has targetContinent = true))) ↔
        t.has targetASN = true := by
      simp only [not_or] at located
      simp [located]
    rw [asnOnly, and_comm]
    by_cases country : t.has targetCountry = true ∨ t.has targetContinent = true
    · simp only [getGeoTargets, if_neg located, if_pos country, exactProvider, List.mem_append, name,
        blank, or_false]
    · simp only [getGeoTargets, if_neg located, if_neg country, exactProvider, List.mem_append, name,
        blank, or_false]

/-- The two addresses are in one scope, whatever the options are. -/
lemma hosts_in_scope (t : TargetOptions) (hasClosest : Bool) :
    IP.SamePrefix (scopeOf exactProvider t hasClosest hostA) hostA hostB := by
  have scope : scopeOf exactProvider t hasClosest hostA = 16 := by
    unfold scopeOf getTargets
    simp only [exact_netmask]
    rfl
  rw [scope]
  exact ⟨⟨.inr rfl, .inr rfl⟩, by decide, by decide⟩

/-- Targets by address tell the hosts apart. -/
lemma ip_targets_differ (h : t.has targetIP = true) :
    targetsOf exactProvider t hasClosest hostA ≠ targetsOf exactProvider t hasClosest hostB := by
  have own : ∀ ip, ∃ rest, targetsOf exactProvider t hasClosest ip = ("[" ++ ip.toText ++ "]") :: rest := by
    intro ip
    have first : (ipTargets ip).1.head? = some ("[" ++ ip.toText ++ "]") := by
      unfold ipTargets
      dsimp only
      split
      · split_ifs <;> rfl
      · rfl
    obtain ⟨rest, e⟩ := List.head?_eq_some_iff.mp first
    simp [targetsOf, getTargets, h, e]
  obtain ⟨restA, eA⟩ := own hostA
  obtain ⟨restB, eB⟩ := own hostB
  rw [eA, eB]
  intro e
  have texts : "[" ++ hostA.toText ++ "]" ≠ "[" ++ hostB.toText ++ "]" := by decide +kernel
  exact texts (List.cons.inj e).1

/-- Names of places and networks tell the hosts apart. -/
lemma name_targets_differ (noIP : t.has targetIP = false) (finer : FinerNames t hasClosest) :
    targetsOf exactProvider t hasClosest hostA ≠ targetsOf exactProvider t hasClosest hostB := by
  intro e
  rw [(getTargets_without_ip _ _ _ noIP).1, (getTargets_without_ip _ _ _ noIP).1] at e
  have same := List.append_cancel_right e
  have first : hostName hostA ∈ (getGeoTargets exactProvider t hostA hasClosest).1 :=
    mem_exact.mpr ⟨rfl, finer⟩
  rw [same] at first
  have names : hostName hostA ≠ hostName hostB := by decide
  exact names (mem_exact.mp first).1

/-- The scope is sound for the options without names of the address itself, of its network number or of
    its place, and for no others. -/
theorem scopeSound_iff (t : TargetOptions) (hasClosest : Bool) :
    ScopeSound t hasClosest ↔ CountryOnly t hasClosest := by
  refine ⟨fun sound => ?_, scopeSound_of_countryOnly⟩
  have same := sound exactProvider exactProvider_lawful hostA hostB (hosts_in_scope t hasClosest)
  have noIP : t.has targetIP = false := by
    cases ip : t.has targetIP with
    | false => rfl
    | true => exact (ip_targets_differ ip same).elim
  exact ⟨noIP, fun finer => name_targets_differ noIP finer same⟩

end

/-- Two clients of one network are in the scope of each other's answers, which are for addresses of
    their own in the first case, and for different regions in the second. -/
theorem scope_too_wide :
    Lawful exactProvider ∧
    (scopeOf exactProvider (targetGlobal + targetIP) false hostA = 16 ∧
      IP.SamePrefix 16 hostA hostB ∧
      targetsOf exactProvider (targetGlobal + targetIP) false hostA =
        ["[192.0.2.1]", "[192.0.2.0]", "@"] ∧
      targetsOf exactProvider (targetGlobal + targetIP) false hostB =
        ["[192.0.2.2]", "[192.0.2.0]", "@"]) ∧
    (scopeOf exactProvider (targetGlobal + targetRegion) false hostA = 16 ∧
      targetsOf exactProvider (targetGlobal + targetRegion) false hostA = ["first", "@"] ∧
      targetsOf exactProvider (targetGlobal + targetRegion) false hostB = ["other", "@"]) :=
  ⟨exactProvider_lawful,
    ⟨by decide +kernel, ⟨⟨.inr rfl, .inr rfl⟩, by decide, by decide⟩, by decide +kernel,
      by decide +kernel⟩,
    ⟨by decide +kernel, by decide +kernel, by decide +kernel⟩⟩

end GeoDNS.Server
