import GeoDNS.Server.Edns

/-!
# The address of the client

The address of the client is one slice of bytes for the whole of `serve`: `GetTargets` computes names from
it, the geo database is asked about it, the answer about the client itself asks once more, and the client
subnet of the reply is that of the request. All of them rest on `GetTargets` leaving the bytes alone
(`AddressKept`). It does not: for the name of the /24 network of an IPv4 address it clears the last byte
of the slice that `To4` returns, which is the last byte of the address itself. `addressKept_iff` says
that nothing else disturbs the address.
-/

namespace GeoDNS.Server
open GeoDNS.Lib GeoDNS.Dns GeoDNS.Targeting GeoDNS.Zones

/-- Two geo databases say the same about an address. -/
structure SameAt (ip : IP) (g g' : Provider) : Prop where
  country : g'.getCountry ip = g.getCountry ip
  asn : g'.getASN ip = g.getASN ip
  location : g'.getLocation ip = g.getLocation ip

/-- The addresses of the client subnets of a record. -/
def subnetAddresses (rr : RR) : List IP :=
  (optionsOf rr).filterMap (fun o =>
    match o with
    | .subnet e => some e.address
    | _ => none)

/-- With these options and this geo database, `GetTargets` does not disturb the address `ip`. -/
structure AddressKept (g : Option Provider) (t : TargetOptions) (hasClosest : Bool) (ip : IP) : Prop where
  bytes : (getTargets g t ip hasClosest).2 = ip
  -- a second call with the same address
  again : (getTargets g t (getTargets g t ip hasClosest).2 hasClosest).1 = (getTargets g t ip hasClosest).1
  -- what a database says about other addresses does not matter
  asked : ∀ g1 g2, g = some g1 → SameAt ip g1 g2 →
    (getTargets (some g2) t ip hasClosest).1 = (getTargets (some g1) t ip hasClosest).1
  -- the client subnets of a reply are those of a record of the request
  echoed : ∀ env srv fuel w req z msgs m, env.geo = g → z.options.targeting = t →
    z.hasClosest = hasClosest → z.parseIP = false →
    (clientSubnets req.extra).getLast?.map Subnet.address = some ip →
    serve env srv fuel w req z = .ok msgs → msgs.head? = some m →
    ∀ rr ∈ m.extra, ∃ rr' ∈ req.extra, subnetAddresses rr = subnetAddresses rr'

/-- The names of the address itself are asked for, and it has a 4-byte form that does not end in 0. -/
def ClearsLastByte (t : TargetOptions) (ip : IP) : Prop :=
  t.has targetIP = true ∧ ∃ ip4, ip.to4 = some ip4 ∧ ip4.getLast? ≠ some 0

section
variable {g g' : Provider} {t : TargetOptions} {hasClosest : Bool} {ip ip4 : IP}

/-! ## The bytes -/

/-- An address that stays when its last byte is cleared ends in zero. -/
lemma clear_last {l : List UInt8} (h : l.dropLast ++ [0] = l) : l.getLast? = some 0 := by
  rw [← h, List.getLast?_concat]

/-- The address stays unless it is one of version 4 with a last byte to clear. -/
lemma ipTargets_bytes (ip : IP) :
    (ipTargets ip).2 = ip ↔ ¬ ∃ ip4, ip.to4 = some ip4 ∧ ip4.getLast? ≠ some 0 := by
  unfold ipTargets
  cases h : ip.to4 with
  | none => simp
  | some ip4 =>
    by_cases zero : ip4.getLast? = some 0
    · simp [zero]
    · simp only [zero, if_false, Option.some.injEq, exists_eq_left', ne_eq, not_false_eq_true,
        not_true_eq_false, iff_false]
      intro same
      rw [IP.to4_getLast? h] at zero
      exact zero (clear_last same)

/-- The address for the geo lookups is that of the client unless its last byte is cleared. -/
lemma getTargets_bytes (g : Option Provider) (t : TargetOptions) (hasClosest : Bool) (ip : IP) :
    (getTargets g t ip hasClosest).2 = ip ↔ ¬ ClearsLastByte t ip := by
  unfold ClearsLastByte
  cases names : t.has targetIP with
  | false => simp [getTargets, names]
  | true =>
    have bytes : (getTargets g t ip hasClosest).2 = (ipTargets ip).2 := by simp [getTargets, names]
    rw [bytes, ipTargets_bytes]
    simp

/-! ## What follows from it -/

/-- Only what the provider says about the address matters. -/
lemma getGeoTargets_sameAt (same : SameAt ip g g') :
    getGeoTargets g' t ip hasClosest = getGeoTargets g t ip hasClosest := by
  unfold getGeoTargets
  rw [same.country, same.asn, same.location]

/-- The targets are computed from the address as it is before the geo lookups. -/
lemma getTargets_asked (bytes : (getTargets (some g) t ip hasClosest).2 = ip) (same : SameAt ip g g') :
    (getTargets (some g') t ip hasClosest).1 = (getTargets (some g) t ip hasClosest).1 := by
  cases names : t.has targetIP with
  | false => simp [getTargets, names, getGeoTargets_sameAt same]
  | true =>
    have own : (ipTargets ip).2 = ip := by simpa [getTargets, names] using bytes
    simp [getTargets, names, own, getGeoTargets_sameAt same]

/-- Replacing a client subnet by one with the same address. -/
lemma subnetAddresses_setOption {rr : RR} {j : Nat} {e e' : Subnet}
    (he : (optionsOf rr)[j]? = some (.subnet e)) (same : e'.address = e.address) :
    subnetAddresses (setOption rr j (.subnet e')) = subnetAddresses rr := by
  rcases rr with ⟨hdr, data⟩
  cases data with
  | opt options =>
    have he : options[j]? = some (.subnet e) := he
    have split : options = options.take j ++ .subnet e :: options.drop (j + 1) := by
      obtain ⟨lt, here⟩ := List.getElem?_eq_some_iff.mp he
      rw [← here, List.getElem_cons_drop, List.take_append_drop]
    have lt : j < options.length := (List.getElem?_eq_some_iff.mp he).1
    have set : options.set j (.subnet e') = options.take j ++ .subnet e' :: options.drop (j + 1) :=
      List.set_eq_take_append_cons_drop.trans (if_pos lt)
    show (options.set j (.subnet e')).filterMap _ = options.filterMap _
    rw [set]
    conv_rhs => rw [split]
    simp only [List.filterMap_append, List.filterMap_cons, same]
  | _ => cases he

/-- The addresses of the reply are those of the question. -/
lemma replyOpt_echoes {req : Msg} {asker : Asker} (hfound : asker.found = scanExtra req.extra)
    (hip : ∀ e, (clientSubnets req.extra).getLast? = some e → asker.ip = e.address) :
    ∀ rr ∈ replyOpt req asker, ∃ rr' ∈ req.extra, subnetAddresses rr = subnetAddresses rr' := by
  have scan := scanExtra_found req.extra
  have last := scanExtra_edns req.extra
  unfold replyOpt
  rw [hfound]
  rcases hedns : (scanExtra req.extra).edns with _ | ⟨i, j, e⟩
  · simp
  · rw [hedns] at last
    obtain ⟨some', _, rr, hrr, he⟩ := scan.edns hedns
    obtain ⟨o, ho⟩ := Option.ne_none_iff_exists'.mp some'
    obtain ⟨rrO, hrrO, _⟩ := scan.optRR ho
    simp only [ho]
    by_cases family : e.family = 0
    · simp [family]
    · rw [if_pos family, hrrO, Option.map_some, Option.toList_some]
      intro rr' mem
      rw [List.mem_singleton.mp mem]
      refine ⟨rrO, List.mem_of_getElem? hrrO, ?_⟩
      by_cases here : o = i
      · rw [if_pos here]
        subst here
        rw [hrr] at hrrO
        cases hrrO
        exact subnetAddresses_setOption he (hip e last.symm)
      · rw [if_neg here]

/-- The address is kept unless the names of the address itself are asked for and it has a 4-byte form
    that does not end in 0. -/
theorem addressKept_iff (g : Option Provider) (t : TargetOptions) (hasClosest : Bool) (ip : IP) :
    AddressKept g t hasClosest ip ↔ ¬ ClearsLastByte t ip := by
  constructor
  · intro kept
    exact (getTargets_bytes g t hasClosest ip).mp kept.bytes
  · intro keeps
    have bytes := (getTargets_bytes g t hasClosest ip).mpr keeps
    refine ⟨bytes, by rw [bytes], ?_, ?_⟩
    · rintro g1 g2 rfl same
      exact getTargets_asked bytes same
    · rintro env srv fuel w req z msgs m rfl rfl rfl noParse address h hm
      rw [serve_extra noParse h hm]
      apply replyOpt_echoes (askerOf_found env w req z)
      intro e he
      rw [he] at address
      cases address
      -- the address of the last client subnet is the one that the targets are computed for
      have found : ((scanExtra req.extra).edns.map (fun e => e.2.2.address)).getD [] = e.address := by
        have last := congrArg (Option.map Subnet.address) (scanExtra_edns req.extra)
        rw [he, Option.map_map] at last
        exact congrArg (·.getD []) last
      have nonempty : e.address ≠ [] := by
        obtain ⟨o, _, ho⟩ := List.mem_filterMap.mp (List.mem_of_getLast? he)
        cases o with
        | subnet e' =>
          by_cases empty : e'.address = []
          · simp [addressed, empty] at ho
          · simp only [addressed, empty, ne_eq, not_false_eq_true, if_true, Option.some.injEq] at ho
            rwa [← ho]
        | nsid nsid => cases ho
        | other code data => cases ho
      have ip : (askerOf env w req z).ip =
          (getTargets env.geo z.options.targeting e.address z.hasClosest).2 := by
        simp only [askerOf, found, if_neg nonempty]
      rw [ip, bytes]

end

/-- A client with an address of its own in a /24 network: the call leaves the address of the network
    behind, and with it a second call no longer finds the name of the client. -/
theorem address_cleared :
    let ip : IP := IP.v4InV6 ++ [192, 0, 2, 77]
    let t := targetGlobal + targetIP
    (getTargets smallEnv.geo t ip false).2 = IP.v4InV6 ++ [192, 0, 2, 0] ∧
    (getTargets smallEnv.geo t ip false).1.1 = ["[192.0.2.77]", "[192.0.2.0]", "@"] ∧
    (getTargets smallEnv.geo t (getTargets smallEnv.geo t ip false).2 false).1.1 = ["[192.0.2.0]", "@"] := by
  decide +kernel

end GeoDNS.Server
