import GeoDNS.Server.Serve

/-!
# EDNS in the reply

A request with an `OPT` record is to be answered with one. `serve` has two places that add it. The first
asks the reply under construction for its `OPT` record, which has none yet, so it never adds one; the
second returns the record of the request, if the loop over its options has come to a client subnet with
an address, and the last such subnet has an address family.

`optCount_reply` says what the reply holds for every request, and `ednsAnswered_iff` for which requests
that is right.
-/

namespace GeoDNS.Server
open GeoDNS.Lib GeoDNS.Dns GeoDNS.Targeting GeoDNS.Zones

/-- Is this an `OPT` record? -/
def isOpt (rr : RR) : Bool :=
  match rr.data with
  | .opt _ => true
  | _ => false

/-- The number of `OPT` records of a section. -/
def optCount (extra : List RR) : Nat :=
  extra.countP isOpt

/-- The options of an `OPT` record. -/
def optionsOf (rr : RR) : List EDNS0 :=
  match rr.data with
  | .opt options => options
  | _ => []

/-- A client subnet with an address. -/
def addressed : EDNS0 → Option Subnet
  | .subnet e => if e.address ≠ [] then some e else none
  | _ => none

/-- The client subnets with an address in a section, in order. -/
def clientSubnets (extra : List RR) : List Subnet :=
  (extra.flatMap optionsOf).filterMap addressed

/-- A request with one `OPT` record is answered with one, and a request without with none. -/
structure EdnsAnswered (req m : Msg) : Prop where
  one : optCount req.extra = 1 → optCount m.extra = 1
  none : optCount req.extra = 0 → optCount m.extra = 0

/-- What `scanExtra` has found stands where it says: `opt_rr` is an `OPT` record, and `edns` an option of
    one, with an address. -/
structure EdnsScan.Found (extra : List RR) (found : EdnsScan) : Prop where
  optRR : ∀ {o}, found.optRR = some o → ∃ rr, extra[o]? = some rr ∧ isOpt rr = true
  edns : ∀ {i j e}, found.edns = some (i, j, e) → found.optRR ≠ none ∧ e.address ≠ [] ∧
    ∃ rr, extra[i]? = some rr ∧ (optionsOf rr)[j]? = some (.subnet e)

section
variable {extra : List RR} {found : EdnsScan} {rr : RR} {i : Nat}

/-! ## The loop over the options -/

/-- The record of an option is the one found last. -/
lemma scanOption_optRR (option : EDNS0 × Nat) : (scanOption i found option).optRR = some i := by
  unfold scanOption
  split
  · split <;> rfl
  · rfl

/-- An option with an address is found. -/
lemma scanOption_edns (option : EDNS0 × Nat) : (scanOption i found option).edns =
    match addressed option.1 with
    | some e => some (i, option.2, e)
    | none => found.edns := by
  obtain ⟨o, j⟩ := option
  cases o with
  | subnet e => by_cases h : e.address = [] <;> simp [scanOption, addressed, h]
  | nsid nsid => rfl
  | other code data => rfl

/-- One option keeps what has been found in its place. -/
lemma EdnsScan.Found.option {o : EDNS0} {j : Nat} (h : found.Found extra) (hrr : extra[i]? = some rr)
    (hopt : isOpt rr = true) (ho : (optionsOf rr)[j]? = some o) :
    (scanOption i found (o, j)).Found extra where
  optRR := by
    intro o' ho'
    rw [scanOption_optRR] at ho'
    cases ho'
    exact ⟨rr, hrr, hopt⟩
  edns := by
    intro i' j' e he
    rw [scanOption_edns] at he
    refine ⟨by simp [scanOption_optRR], ?_⟩
    cases o with
    | subnet e' =>
      by_cases address : e'.address = []
      · simp only [addressed, address, ne_eq, not_true_eq_false, if_false] at he
        exact (h.edns he).2
      · simp only [addressed, address, ne_eq, not_false_eq_true, if_true] at he
        cases he
        exact ⟨address, rr, hrr, ho⟩
    | nsid nsid => exact (h.edns he).2
    | other code data => exact (h.edns he).2

/-- The loop over the options keeps what is found. -/
lemma EdnsScan.Found.options (h : found.Found extra) (hrr : extra[i]? = some rr)
    (hopt : isOpt rr = true) {options : List (EDNS0 × Nat)}
    (ho : ∀ o ∈ options, (optionsOf rr)[o.2]? = some o.1) :
    (options.foldl (scanOption i) found).Found extra := by
  induction options generalizing found with
  | nil => exact h
  | cons o options ih =>
    rw [List.foldl_cons]
    apply ih
    · exact h.option hrr hopt (ho o List.mem_cons_self)
    · intro o' ho'
      exact ho o' (List.mem_cons_of_mem _ ho')

/-- The last option with an address is the one found. -/
lemma edns_options (options : List (EDNS0 × Nat)) :
    ((options.foldl (scanOption i) found).edns.map (fun e => e.2.2)) =
      ((options.map Prod.fst).filterMap addressed).getLast?.or (found.edns.map (fun e => e.2.2)) := by
  induction options generalizing found with
  | nil => rfl
  | cons o options ih =>
    rw [List.foldl_cons, ih, scanOption_edns, List.map_cons, List.filterMap_cons]
    cases addressed o.1 with
    | none => rfl
    | some e =>
      rw [List.getLast?_cons]
      cases ((options.map Prod.fst).filterMap addressed).getLast? <;> rfl

/-! ## The loop over the records -/

/-- The body of the loop over the additional section. -/
def scanRecord (found : EdnsScan) (record : RR × Nat) : EdnsScan :=
  match record.1.data with
  | .opt options => options.zipIdx.foldl (scanOption record.2) found
  | _ => found

/-- The scan as a loop over the records. -/
lemma scanExtra_eq (extra : List RR) : scanExtra extra = extra.zipIdx.foldl scanRecord {} := rfl

/-- A record with options is scanned. -/
lemma scanRecord_of_opt (h : isOpt rr = true) :
    scanRecord found (rr, i) = (optionsOf rr).zipIdx.foldl (scanOption i) found := by
  rcases rr with ⟨hdr, data⟩
  cases data with
  | opt options => rfl
  | _ => cases h

/-- Records that are not `OPT` records have no options. -/
lemma optionsOf_of_not_opt (h : isOpt rr = false) : optionsOf rr = [] := by
  rcases rr with ⟨hdr, data⟩
  cases data with
  | opt options => cases h
  | _ => rfl

/-- Records that are not `OPT` records are skipped. -/
lemma scanRecord_of_not_opt (h : isOpt rr = false) : scanRecord found (rr, i) = found := by
  rcases rr with ⟨hdr, data⟩
  cases data with
  | opt options => cases h
  | _ => rfl

/-- Scanning one record keeps what is found among the records. -/
lemma EdnsScan.Found.record (h : found.Found extra) (hrr : extra[i]? = some rr) :
    (scanRecord found (rr, i)).Found extra := by
  cases hopt : isOpt rr with
  | false =>
    rw [scanRecord_of_not_opt hopt]
    exact h
  | true =>
    rw [scanRecord_of_opt hopt]
    apply h.options hrr hopt
    intro o ho
    exact List.mk_mem_zipIdx_iff_getElem?.mp ho

/-- Scanning all records keeps what is found among them. -/
lemma EdnsScan.Found.records {records : List (RR × Nat)} (h : found.Found extra)
    (hrr : ∀ r ∈ records, extra[r.2]? = some r.1) :
    (records.foldl scanRecord found).Found extra := by
  induction records generalizing found with
  | nil => exact h
  | cons r records ih =>
    rw [List.foldl_cons]
    apply ih
    · exact h.record (hrr r List.mem_cons_self)
    · intro r' hr'
      exact hrr r' (List.mem_cons_of_mem _ hr')

/-- What the scan finds is there. -/
lemma scanExtra_found (extra : List RR) : (scanExtra extra).Found extra := by
  rw [scanExtra_eq]
  apply EdnsScan.Found.records
  · exact ⟨nofun, nofun⟩
  · intro r hr
    exact List.mk_mem_zipIdx_iff_getElem?.mp hr

/-- What is found is the last of all options with an address. -/
lemma edns_records (records : List (RR × Nat)) :
    ((records.foldl scanRecord found).edns.map (fun e => e.2.2)) =
      (clientSubnets (records.map Prod.fst)).getLast?.or (found.edns.map (fun e => e.2.2)) := by
  induction records generalizing found with
  | nil => rfl
  | cons r records ih =>
    obtain ⟨rr, i⟩ := r
    have here : (scanRecord found (rr, i)).edns.map (fun e => e.2.2) =
        ((optionsOf rr).filterMap addressed).getLast?.or (found.edns.map (fun e => e.2.2)) := by
      cases hopt : isOpt rr with
      | true => rw [scanRecord_of_opt hopt, edns_options, List.zipIdx_map_fst]
      | false =>
        rw [scanRecord_of_not_opt hopt, optionsOf_of_not_opt hopt]
        rfl
    have split : clientSubnets (((rr, i) :: records).map Prod.fst) =
        (optionsOf rr).filterMap addressed ++ clientSubnets (records.map Prod.fst) := by
      simp [clientSubnets]
    rw [List.foldl_cons, ih, here, split, List.getLast?_append, Option.or_assoc]

/-- The client subnet that `serve` uses is the last one with an address. -/
theorem scanExtra_edns (extra : List RR) :
    (scanExtra extra).edns.map (fun e => e.2.2) = (clientSubnets extra).getLast? := by
  rw [scanExtra_eq, edns_records, List.zipIdx_map_fst]
  exact Option.or_none

end

section
variable {env : Env} {srv : ServerConfig} {fuel : Nat} {w : RemoteAddr} {req m : Msg} {z : Zone}
variable {msgs : List Msg} {asker : Asker}

/-- What the server has found is what the scan of the request finds. -/
lemma askerOf_found (env : Env) (w : RemoteAddr) (req : Msg) (z : Zone) :
    (askerOf env w req z).found = scanExtra req.extra := rfl

/-- A record whose option is replaced stays an `OPT` record or none. -/
lemma isOpt_setOption (rr : RR) (j : Nat) (o : EDNS0) : isOpt (setOption rr j o) = isOpt rr := by
  rcases rr with ⟨hdr, data⟩
  cases data <;> rfl

/-- The `OPT` records of the reply: one if the last client subnet has a family, and none if not. -/
lemma optCount_reply (hfound : asker.found = scanExtra req.extra) :
    optCount (replyOpt req asker) =
      if ∃ e, (clientSubnets req.extra).getLast? = some e ∧ e.family ≠ 0 then 1 else 0 := by
  have scan := scanExtra_found req.extra
  rw [← scanExtra_edns]
  unfold replyOpt
  rw [hfound]
  rcases hedns : (scanExtra req.extra).edns with _ | ⟨i, j, e⟩
  · simp [optCount]
  · obtain ⟨some', _⟩ := scan.edns hedns
    obtain ⟨o, ho⟩ := Option.ne_none_iff_exists'.mp some'
    obtain ⟨rr, hrr, hopt⟩ := scan.optRR ho
    simp only [ho]
    by_cases family : e.family = 0
    · simp [family, optCount]
    · -- the record of the request is returned, whichever of its options is changed
      have one : ∀ rr' : RR, isOpt rr' = true → optCount [rr'] = 1 := by
        intro rr' h
        simp [optCount, h]
      simp only [family, ne_eq, not_false_eq_true, if_true, hrr, Option.map_some, Option.toList_some,
        exists_eq_left', Option.some.injEq]
      apply one
      split
      · rw [isOpt_setOption]
        exact hopt
      · exact hopt

/-- In a zone whose names are not addresses, a reply answers EDNS with EDNS unless the request has one
    `OPT` record, and in it no client subnet with an address or a last one without a family. -/
theorem ednsAnswered_iff (noParse : z.parseIP = false) (h : serve env srv fuel w req z = .ok msgs)
    (hm : msgs.head? = some m) :
    EdnsAnswered req m ↔ (optCount req.extra = 1 →
      ∃ e, (clientSubnets req.extra).getLast? = some e ∧ e.family ≠ 0) := by
  have count : optCount m.extra =
      if ∃ e, (clientSubnets req.extra).getLast? = some e ∧ e.family ≠ 0 then 1 else 0 := by
    rw [serve_extra noParse h hm]
    exact optCount_reply (askerOf_found env w req z)
  constructor
  · intro answered one
    by_contra none
    rw [if_neg none] at count
    rw [answered.one one] at count
    cases count
  · intro subnet
    constructor
    · intro one
      rw [count, if_pos (subnet one)]
    · intro zero
      -- without an `OPT` record there is no option at all
      have empty : clientSubnets req.extra = [] := by
        have options : req.extra.flatMap optionsOf = [] := by
          rw [List.flatMap_eq_nil_iff]
          intro rr hrr
          have notOpt : isOpt rr = false := by
            simpa using List.countP_eq_zero.mp zero rr hrr
          exact optionsOf_of_not_opt notOpt
        rw [clientSubnets, options]
        rfl
      rw [count, empty]
      rfl

end

/-- A request with an `OPT` record without options, as a validating resolver sends it, is answered
    without one. -/
theorem edns_not_answered :
    let req : Msg :=
      { question := [⟨"www.example.com.", typeA, classINET⟩]
        extra := [⟨⟨".", typeOPT, 4096, 0x8000⟩, .opt []⟩] }
    smallWeb.parseIP = false ∧ optCount req.extra = 1 ∧
      ∃ m, serve smallEnv smallServer 1 smallClient req smallWeb = .ok [m] ∧ optCount m.extra = 0 :=
  ⟨rfl, rfl, _, rfl, rfl⟩

/-- A request with a client subnet is answered with one. -/
theorem subnet_answered :
    let req : Msg :=
      { question := [⟨"www.example.com.", typeA, classINET⟩]
        extra := [⟨⟨".", typeOPT, 4096, 0⟩, .opt [.subnet ⟨1, 24, 0, IP.v4InV6 ++ [192, 0, 2, 0]⟩]⟩] }
    ∃ m, serve smallEnv smallServer 1 smallClient req smallWeb = .ok [m] ∧ EdnsAnswered req m := by
  intro req
  obtain ⟨m, hm⟩ : ∃ m, serve smallEnv smallServer 1 smallClient req smallWeb = .ok [m] := ⟨_, rfl⟩
  refine ⟨m, hm, (ednsAnswered_iff rfl hm rfl).mpr fun _ => ?_⟩
  exact ⟨⟨1, 24, 0, IP.v4InV6 ++ [192, 0, 2, 0]⟩, rfl, by decide⟩

end GeoDNS.Server
