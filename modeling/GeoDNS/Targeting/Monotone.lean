import GeoDNS.Targeting.Targets
import Mathlib.Data.List.Forall2

/-!
# More options, more targets

Asking for more of the targets of a client should add names to its target list and take none away. There are
two ways in which `targeting.go` takes names away. Country and continent are taken from `GetLocation` once a
region or the place is asked for, and a failure of that lookup returns early, without the country that
`GetCountry` knows. And the names of the address itself clear the last byte of the address that the lookups
are then made for.

`targets_monotone_iff` says for which providers and addresses neither makes a difference. What the lookups
add is said once, by `geoTargets_eq_chosen`: a choice among the five names of the address.
-/

namespace GeoDNS.Targeting
open GeoDNS.Lib

/-- The options `t` are among the options `t'`. -/
def TargetOptions.Within (t t' : TargetOptions) : Prop :=
  t &&& t' = t

/-- More options, or the wish for the place, only add targets for this address. -/
def TargetsMonotone (g : Provider) (ip : IP) : Prop :=
  ∀ t t' : TargetOptions, t.Within t' → ∀ h h' : Bool, (h = true → h' = true) →
    (getTargets (some g) t ip h).1.1.Sublist (getTargets (some g) t' ip h').1.1

/-- What `GetLocation` says about country and continent is what `GetCountry` says. -/
def Provider.Agrees (g : Provider) : Prop :=
  ∀ ip l, g.getLocation ip = (some l, none) →
    l.country = (g.getCountry ip).1 ∧ l.continent = (g.getCountry ip).2.1

/-- The place of an address, if the lookup succeeds. -/
def Provider.located (g : Provider) (ip : IP) : Option Location :=
  match g.getLocation ip with
  | (some l, none) => some l
  | _ => none

/-- An address without a place has no country and no continent. -/
def Provider.Covers (g : Provider) (ip : IP) : Prop :=
  g.located ip = none → (g.getCountry ip).1 = "" ∧ (g.getCountry ip).2.1 = ""

/-- The names of an address and the options that ask for them, in the order of target lists. -/
def Provider.names (g : Provider) (ip : IP) : List (TargetOptions × String) :=
  [(targetASN, (g.getASN ip).1),
    (targetRegion, (g.located ip).elim "" (·.region)),
    (targetRegionGroup, (g.located ip).elim "" (·.regionGroup)),
    (targetCountry, (g.getCountry ip).1),
    (targetContinent, (g.getCountry ip).2.1)]

/-- Those of the names that are asked for and not empty. -/
def chosen (t : TargetOptions) (names : List (TargetOptions × String)) : List String :=
  names.flatMap (fun e => if t.has e.1 then nonempty e.2 else [])

/-- The name of an address as a target. -/
def bracketed (ip : IP) : String :=
  "[" ++ ip.toText ++ "]"

/-- The address of the /24 or /48 network. -/
def network (ip : IP) : IP :=
  match ip.to4 with
  | some ip4 => ip4.dropLast ++ [0]
  | none => IP.mask ip cidr48Mask

/-- The address with the last byte cleared if it is an IPv4 address. -/
def cleared (ip : IP) : IP :=
  if ip.to4.isSome then ip.dropLast ++ [0] else ip

/-- Whatever is chosen among the names of the address is found among its own names and those that are
    chosen for the cleared address. -/
def Provider.KeepsNames (g : Provider) (ip : IP) : Prop :=
  ∀ t, (chosen t (g.names ip)).Sublist
    (bracketed ip :: bracketed (network ip) :: chosen t (g.names (cleared ip)))

section
variable {g : Provider} {t t' : TargetOptions} {ip : IP} {h : Bool}

/-! ## Options -/

/-- More options have the option too. -/
lemma has_of_within (within : t.Within t') {o : TargetOptions} (has : t.has o = true) : t'.has o = true := by
  have pos : 0 < t &&& o := of_decide_eq_true has
  refine decide_eq_true (Nat.pos_of_ne_zero fun zero => ?_)
  rw [← within, Nat.and_assoc, zero, Nat.and_zero] at pos
  exact absurd pos (lt_irrefl 0)

/-- More options choose more names. -/
lemma chosen_sublist (within : t.Within t') (names : List (TargetOptions × String)) :
    (chosen t names).Sublist (chosen t' names) := by
  induction names with
  | nil => exact .slnil
  | cons e names ih =>
    refine List.Sublist.append ?_ ih
    show (if t.has e.1 then nonempty e.2 else []).Sublist (if t'.has e.1 then nonempty e.2 else [])
    split
    next has =>
      rw [if_pos (has_of_within within has)]
    next => exact List.nil_sublist _

/-- Only the options of the names matter. -/
lemma chosen_congr {names : List (TargetOptions × String)} (same : ∀ e ∈ names, t.has e.1 = t'.has e.1) :
    chosen t names = chosen t' names := by
  unfold chosen
  induction names with
  | nil => rfl
  | cons e names ih =>
    rw [List.flatMap_cons, List.flatMap_cons, same e List.mem_cons_self,
      ih fun e' he' => same e' (List.mem_cons_of_mem e he')]

/-- Names that are not empty any more are chosen in addition. -/
lemma chosen_sublist_of_forall₂ {names names' : List (TargetOptions × String)}
    (same : List.Forall₂ (fun e e' => e.1 = e'.1 ∧ (e.2 = "" ∨ e.2 = e'.2)) names names') :
    (chosen t names).Sublist (chosen t names') := by
  induction same with
  | nil => exact .slnil
  | @cons e e' names names' here _ ih =>
    refine List.Sublist.append ?_ ih
    obtain ⟨option, empty | name⟩ := here
    · simp [empty, nonempty]
    · simp [option, name]

/-- The names of an address are kept if each of them is empty or also that of the cleared address. -/
lemma keepsNames_of_forall₂ (same : List.Forall₂ (fun e e' => e.1 = e'.1 ∧ (e.2 = "" ∨ e.2 = e'.2))
    (g.names ip) (g.names (cleared ip))) : g.KeepsNames ip :=
  fun _ => .cons _ (.cons _ (chosen_sublist_of_forall₂ same))

/-! ## The lookups -/

/-- What the geo lookups add, if the country is known only where the place is. -/
lemma geoTargets_eq_chosen (agrees : g.Agrees) (covers : g.Covers ip) :
    (getGeoTargets g t ip h).1 = chosen t (g.names ip) := by
  unfold getGeoTargets
  by_cases place : t.has targetRegion ∨ t.has targetRegionGroup ∨ h
  · rw [if_pos place]
    unfold Provider.Covers at covers
    unfold Provider.names
    split
    next l found =>
      have located : g.located ip = some l := by
        unfold Provider.located
        rw [found]
      obtain ⟨country, continent⟩ := agrees ip l found
      rw [located, ← country, ← continent]
      simp [chosen]
    next failed =>
      have located : g.located ip = none := by
        unfold Provider.located
        split
        next l found => exact (failed l found).elim
        next => rfl
      obtain ⟨country, continent⟩ := covers located
      rw [located, country, continent]
      simp [chosen, nonempty]
  · rw [if_neg place]
    obtain ⟨region, regionGroup, -⟩ := by simpa using place
    by_cases country : t.has targetCountry ∨ t.has targetContinent
    · rw [if_pos country]
      simp [chosen, Provider.names, region, regionGroup]
    · rw [if_neg country]
      obtain ⟨country, continent⟩ := by simpa using country
      simp [chosen, Provider.names, region, regionGroup, country, continent]

/-- A failed lookup of the place leaves the name of the network only. -/
lemma geoTargets_unlocated (failed : g.located ip = none) (country : t.has targetASN = false) :
    (getGeoTargets g t ip true).1 = [] := by
  have place : ∀ l, g.getLocation ip ≠ (some l, none) := by
    intro l found
    unfold Provider.located at failed
    rw [found] at failed
    cases failed
  unfold getGeoTargets
  rw [if_pos (by simp)]
  split
  next l found => exact (place l found).elim
  next => simp [country]

/-! ## The names of the address itself -/

/-- The address for the geo lookups is the one with the last byte cleared. -/
lemma ipTargets_cleared (ip : IP) : (ipTargets ip).2 = cleared ip := by
  unfold ipTargets cleared
  cases form : ip.to4 with
  | none => rfl
  | some ip4 =>
    by_cases zero : ip4.getLast? = some 0
    · rw [IP.to4_getLast? form] at zero
      have kept : ip.dropLast ++ [0] = ip := List.dropLast_append_getLast? 0 zero
      simp [IP.to4_getLast? form, zero, kept]
    · simp [zero]

/-- The names of an address are the address itself and its network. -/
lemma ipTargets_names (ip : IP) : (ipTargets ip).1.Sublist [bracketed ip, bracketed (network ip)] := by
  unfold ipTargets network
  cases form : ip.to4 with
  | none => exact List.Sublist.refl _
  | some ip4 =>
    by_cases zero : ip4.getLast? = some 0
    · simp [zero, bracketed]
    · simp [zero, bracketed]

/-- If the address is not cleared, the network has a name of its own. -/
lemma ipTargets_names_of_cleared (changed : cleared ip ≠ ip) :
    (ipTargets ip).1 = [bracketed ip, bracketed (network ip)] := by
  rw [← ipTargets_cleared] at changed
  unfold ipTargets at changed ⊢
  unfold network
  cases form : ip.to4 with
  | none =>
    rw [form] at changed
    exact (changed rfl).elim
  | some ip4 =>
    rw [form] at changed
    by_cases zero : ip4.getLast? = some 0
    · simp [zero] at changed
    · simp [zero, bracketed]

/-! ## Target lists -/

/-- The global target. -/
def globalTargets (t : TargetOptions) : List String :=
  if t.has targetGlobal then ["@"] else []

/-- The global target with more options. -/
lemma globalTargets_sublist (within : t.Within t') : (globalTargets t).Sublist (globalTargets t') := by
  unfold globalTargets
  split
  next has =>
    rw [if_pos (has_of_within within has)]
  next => exact List.nil_sublist _

/-- The targets without names of the address. -/
lemma getTargets_plain (off : t.has targetIP = false) :
    (getTargets (some g) t ip h).1.1 = (getGeoTargets g t ip h).1 ++ globalTargets t := by
  simp [getTargets, off, globalTargets]

/-- The targets with names of the address. -/
lemma getTargets_ip (on : t.has targetIP = true) :
    (getTargets (some g) t ip h).1.1 =
      (ipTargets ip).1 ++ ((getGeoTargets g t (cleared ip) h).1 ++ globalTargets t) := by
  simp [getTargets, on, globalTargets, ipTargets_cleared]

/-- The names are kept among those the code lists before the lookups. -/
lemma chosen_sublist_ipTargets (keeps : g.KeepsNames ip) (t : TargetOptions) :
    (chosen t (g.names ip)).Sublist ((ipTargets ip).1 ++ chosen t (g.names (cleared ip))) := by
  by_cases changed : cleared ip = ip
  · rw [changed]
    exact List.sublist_append_right _ _
  · rw [ipTargets_names_of_cleared changed]
    exact keeps t

/-- Enough for every option set. -/
lemma targetsMonotone_of_names (agrees : g.Agrees) (here : g.Covers ip) (there : g.Covers (cleared ip))
    (keeps : g.KeepsNames ip) : TargetsMonotone g ip := by
  intro t t' within h h' _
  cases on : t.has targetIP with
  | true =>
    rw [getTargets_ip on, getTargets_ip (has_of_within within on), geoTargets_eq_chosen agrees there,
      geoTargets_eq_chosen agrees there]
    exact (List.Sublist.refl _).append
      ((chosen_sublist within _).append (globalTargets_sublist within))
  | false =>
    rw [getTargets_plain on, geoTargets_eq_chosen agrees here]
    cases on' : t'.has targetIP with
    | false =>
      rw [getTargets_plain on', geoTargets_eq_chosen agrees here]
      exact (chosen_sublist within _).append (globalTargets_sublist within)
    | true =>
      rw [getTargets_ip on', geoTargets_eq_chosen agrees there, ← List.append_assoc]
      refine List.Sublist.append ?_ (globalTargets_sublist within)
      exact (chosen_sublist_ipTargets keeps t).trans
        ((List.Sublist.refl _).append (chosen_sublist within _))

/-- Country and continent, asked for with and without the place. -/
lemma covers_of_sublist {ip : IP}
    (sub : (getGeoTargets g t ip false).1.Sublist (getGeoTargets g t ip true).1)
    (only : t = targetCountry ||| targetContinent ∨ t = targetCountry ||| targetContinent ||| targetIP) :
    g.Covers ip := by
  intro failed
  have asn : t.has targetASN = false := by
    rcases only with rfl | rfl <;> decide
  have names : (getGeoTargets g t ip false).1 =
      nonempty (g.getCountry ip).1 ++ nonempty (g.getCountry ip).2.1 := by
    rcases only with rfl | rfl
    · rfl
    · rfl
  rw [geoTargets_unlocated failed asn, names, List.sublist_nil, List.append_eq_nil_iff] at sub
  simpa [nonempty] using sub

/-- The options that ask for the names of a place. -/
def placeOptions : TargetOptions :=
  targetASN ||| targetRegion ||| targetRegionGroup ||| targetCountry ||| targetContinent

/-- The options for a place among others. -/
lemma has_place_or (t s o : TargetOptions) :
    TargetOptions.has (t &&& placeOptions ||| s) o = (t.has (placeOptions &&& o) || s.has o) := by
  unfold TargetOptions.has
  rw [Nat.and_or_distrib_right, Nat.and_assoc, ← Bool.decide_or]
  refine decide_eq_decide.2 ?_
  rw [Nat.pos_iff_ne_zero, Nat.pos_iff_ne_zero, Nat.pos_iff_ne_zero, Ne, Nat.or_eq_zero_iff,
    not_and_or]

/-- Other options do not matter for the names of a place. -/
lemma chosen_place_or {s : TargetOptions} (away : s = 0 ∨ s = targetIP) (t : TargetOptions) :
    chosen (t &&& placeOptions ||| s) (g.names ip) = chosen t (g.names ip) := by
  refine chosen_congr fun e he => ?_
  have option : e.1 ∈ (g.names ip).map Prod.fst := List.mem_map_of_mem he
  have place : ∀ o ∈ (g.names ip).map Prod.fst,
      placeOptions &&& o = o ∧ TargetOptions.has 0 o = false ∧ targetIP.has o = false := by
    change ∀ o ∈ [targetASN, targetRegion, targetRegionGroup, targetCountry, targetContinent], _
    decide
  obtain ⟨kept, zero, own⟩ := place e.1 option
  have off : s.has e.1 = false := by
    rcases away with rfl | rfl
    · exact zero
    · exact own
  rw [has_place_or, kept, off, Bool.or_false]

/-- For every provider whose lookups agree and every address: the targets are monotone in the options exactly
    if the country is unknown wherever the lookup of the place fails, and clearing the last byte of the
    address loses none of its names. -/
theorem targets_monotone_iff (g : Provider) (agrees : g.Agrees) (ip : IP) :
    TargetsMonotone g ip ↔ g.Covers ip ∧ g.Covers (cleared ip) ∧ g.KeepsNames ip := by
  constructor
  · intro mono
    have here : g.Covers ip := by
      have sub := mono (targetCountry ||| targetContinent) _ (Nat.and_self _) false true (by simp)
      rw [getTargets_plain (by decide), getTargets_plain (by decide),
        List.append_sublist_append_right] at sub
      exact covers_of_sublist sub (.inl rfl)
    have there : g.Covers (cleared ip) := by
      have sub :=
        mono (targetCountry ||| targetContinent ||| targetIP) _ (Nat.and_self _) false true (by simp)
      rw [getTargets_ip (by decide), getTargets_ip (by decide), List.append_sublist_append_left,
        List.append_sublist_append_right] at sub
      exact covers_of_sublist sub (.inr rfl)
    refine ⟨here, there, fun t => ?_⟩
    have within : TargetOptions.Within (t &&& placeOptions ||| 0) (t &&& placeOptions ||| targetIP) := by
      refine Nat.eq_of_testBit_eq fun i => ?_
      simp only [Nat.testBit_and, Nat.testBit_or, Nat.zero_testBit]
      grind
    have sub := mono _ _ within false false id
    have none : ∀ o, placeOptions &&& o = 0 → t.has (placeOptions &&& o) = false := by
      intro o away
      simp [TargetOptions.has, away]
    rw [getTargets_plain (by rw [has_place_or, none _ rfl]; rfl),
      getTargets_ip (by rw [has_place_or, none _ rfl]; rfl), geoTargets_eq_chosen agrees here,
      geoTargets_eq_chosen agrees there, chosen_place_or (.inl rfl), chosen_place_or (.inr rfl)] at sub
    have noGlobal : globalTargets (t &&& placeOptions ||| targetIP) = [] := by
      unfold globalTargets
      rw [has_place_or, none _ rfl]
      rfl
    rw [noGlobal, List.append_nil] at sub
    exact ((List.sublist_append_left _ _).trans sub).trans
      ((ipTargets_names ip).append (List.Sublist.refl _))
  · rintro ⟨here, there, keeps⟩
    exact targetsMonotone_of_names agrees here there keeps

end

/-- A client address. -/
def clientAddress : IP := [10, 0, 0, 1]

/-- A place in California. -/
def california : Location where
  country := "us"
  continent := "north-america"
  regionGroup := "us-west"
  region := "us-ca"
  latitude := .ofInt 37 (by decide)
  longitude := .ofInt (-122) (by decide)
  netmask := 0

/-- A database for which every address is in California. -/
def oneState : Provider where
  getCountry _ := ("us", "north-america", 8)
  getASN _ := ("as7012", 16, none)
  getLocation _ := (some california, none)

/-- A client in a state of its country. -/
theorem targets_monotone_in_california : oneState.Agrees ∧ TargetsMonotone oneState clientAddress := by
  have agrees : oneState.Agrees := by
    intro ip l found
    cases found
    exact ⟨rfl, rfl⟩
  refine ⟨agrees, (targets_monotone_iff oneState agrees clientAddress).2 ⟨nofun, nofun, ?_⟩⟩
  exact keepsNames_of_forall₂ (List.forall₂_same.2 fun e _ => ⟨rfl, .inr rfl⟩)

/-- A database without places, in which the first address of a network belongs to another country. -/
def twoCountries : Provider where
  getCountry ip := (if ip.getLast? = some 0 then "ca" else "us", "north-america", 8)
  getASN _ := ("", 0, none)
  getLocation _ := (none, some "no location database")

/-- Asking for the region as well, or for the address itself, loses the country. -/
theorem targets_lose_country :
    twoCountries.Agrees ∧
    (getTargets (some twoCountries) targetCountry clientAddress false).1.1 = ["us"] ∧
    (getTargets (some twoCountries) (targetCountry ||| targetRegion) clientAddress false).1.1 = [] ∧
    (getTargets (some twoCountries) targetCountry clientAddress true).1.1 = [] ∧
    (getTargets (some twoCountries) (targetCountry ||| targetIP) clientAddress false).1.1 =
      ["[10.0.0.1]", "[10.0.0.0]", "ca"] ∧
    ¬ TargetsMonotone twoCountries clientAddress := by
  have agrees : twoCountries.Agrees := by
    intro ip l found
    cases (congrArg Prod.fst found : none = some l)
  have plain : (getTargets (some twoCountries) targetCountry clientAddress false).1.1 = ["us"] := by decide
  have region :
      (getTargets (some twoCountries) (targetCountry ||| targetRegion) clientAddress false).1.1 = [] := by
    decide
  refine ⟨agrees, plain, region, by decide, by decide +kernel, fun mono => ?_⟩
  have sub := mono targetCountry (targetCountry ||| targetRegion) rfl false false id
  rw [plain, region] at sub
  cases sub

end GeoDNS.Targeting
