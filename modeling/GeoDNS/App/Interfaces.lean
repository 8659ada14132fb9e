import GeoDNS.Lib.HostPort
import GeoDNS.Lib.Res

/-!
# The addresses to listen on

`getInterfaces` (`util.go`) reads the flag `-interface`, a list of addresses with or without a port, and
`main` writes that flag itself if it is `*`. An address in one of the usual forms is listened on once, at its
own port or at the default one (`interfaces_as_written`). The exception is an IPv6 address in brackets
without a port: there is a case for it, but `SplitHostPort` does not give the error that the case asks for,
and the address ends up in two pairs of brackets (`interface_boxed`).

With `*` the server listens on the loopback and the global unicast addresses of the host, or on all of them if
there are none (`star_listens`).
-/

namespace GeoDNS.App
open GeoDNS.Lib

/-- The fields of `monitor.ServerInfo` that `getInterfaces` sets. -/
structure ServerInfo where
  id : String := ""
  ip : String := ""

/-- Does `t` occur in `s`? (Go `strings.Contains`) -/
def containsText (s t : String) : Bool :=
  decide (t.toList <:+: s.toList)

/-- The address and the port of an entry, or the message of `log.Fatalf`. (The slice expression of the source
    cuts off one byte at either end.) -/
def interfaceOf (host : String) : Except String (String × String) :=
  match splitHostPort host with
  | .ok (ip, port) => .ok (ip, port)
  | .error e =>
    let err := e.text host
    if containsText err "missing port in address" then .ok (host, "")
    else if containsText err "too many colons in address" && host.toList.getLast? = some ']' then
      .ok (String.ofList host.toList.tail.dropLast, "")
    else if containsText err "too many colons in address" then .ok (host, "")
    else .error ("Could not parse " ++ host ++ ": " ++ err ++ "\n")

/-- The address of the host becomes the identity of the server, unless it has one. -/
def ServerInfo.note (info : ServerInfo) (ip : String) : ServerInfo :=
  if ip = "127.0.0.1" then info
  else
    { id := if info.id = "" then ip else info.id
      ip := if info.ip = "" then ip else info.ip }

/-- One entry. The map `uniq` of the source has the addresses in `inter`. -/
def addInterface (flagport : String) (st : List String × ServerInfo) (host : String) :
    Except String (List String × ServerInfo) := do
  let (ip, port) ← interfaceOf host
  let host := joinHostPort ip (if port = "" then flagport else port)
  if host ∈ st.1 then return st
  else return (st.1 ++ [host], st.2.note ip)

/-- Go `getInterfaces`. -/
def getInterfaces (flaginter flagport : String) (info : ServerInfo) :
    Except String (List String × ServerInfo) :=
  (split flaginter ',').foldlM (addInterface flagport) ([], info)

/-! ## Entries -/

/-- The usual forms of an entry, with the address and the port that are meant. -/
inductive Written : String → String × String → Prop
  | host {ip} (plain : Plain ip) : Written ip (ip, "")
  | hostPort {ip port} (plain : Plain ip) (plain' : Plain port) : Written (ip ++ ":" ++ port) (ip, port)
  | colons {ip} (unboxed : Unboxed ip) (colons : 2 ≤ ip.toList.count ':') : Written ip (ip, "")
  | boxed {ip port} (unboxed : Unboxed ip) (plain : Plain port) :
      Written ("[" ++ ip ++ "]:" ++ port) (ip, port)

/-- The address and the port to listen on. -/
def endpoint (flagport : String) (meant : String × String) : String × String :=
  (meant.1, if meant.2 = "" then flagport else meant.2)

/-- The address to listen on for an entry, which may leave the port to the flag. -/
def address (flagport : String) (meant : String × String) : String :=
  joinHostPort (endpoint flagport meant).1 (endpoint flagport meant).2

section
variable {host port flagport : String} {meant : String × String} {st : List String × ServerInfo}

/-- The text of an address error contains its reason. -/
lemma containsText_why (host : String) (e : AddrError) : containsText (e.text host) e.why = true := by
  unfold containsText AddrError.text
  rw [decide_eq_true_eq]
  split
  · exact List.infix_rfl
  · rw [String.toList_append]
    exact (List.suffix_append _ _).isInfix

/-- An entry without a port is a host. -/
lemma interfaceOf_portless (err : splitHostPort host = .error .missingPort) :
    interfaceOf host = .ok (host, "") := by
  unfold interfaceOf
  rw [err]
  exact if_pos (containsText_why host .missingPort)

/-- An entry in one of the usual forms is taken as it is meant. -/
lemma Written.interfaceOf (written : Written host meant) : interfaceOf host = .ok meant := by
  cases written with
  | host plain => exact interfaceOf_portless (splitHostPort_portless plain.colon)
  | hostPort plain plain' =>
    unfold App.interfaceOf
    rw [splitHostPort_colon plain plain']
  | colons unboxed colons =>
    -- the error may quote the host, but what comes of it is the same
    have last : host.toList.getLast? ≠ some ']' := fun h => unboxed.closing (List.mem_of_getLast? h)
    unfold App.interfaceOf
    rw [splitHostPort_colons unboxed colons]
    dsimp only
    split
    · rfl
    · rw [if_neg (by simp [last])]
      exact if_pos (containsText_why host .tooManyColons)
  | boxed unboxed plain =>
    unfold App.interfaceOf
    rw [splitHostPort_bracketed unboxed plain]

/-- The host of an entry has no brackets left. -/
lemma Written.unboxed (written : Written host meant) : Unboxed meant.1 := by
  cases written with
  | host plain => exact plain.unboxed
  | hostPort plain plain' => exact plain.unboxed
  | colons unboxed colons => exact unboxed
  | boxed unboxed plain => exact unboxed

/-- The port to listen on is a plain text. -/
lemma Written.plain (written : Written host meant) (flag : Plain flagport) :
    Plain (endpoint flagport meant).2 := by
  unfold endpoint
  dsimp only
  split_ifs with none
  · exact flag
  · cases written with
    | host plain => exact (none rfl).elim
    | hostPort plain plain' => exact plain'
    | colons unboxed colons => exact (none rfl).elim
    | boxed unboxed plain => exact plain

/-- The address to listen on stands for what is meant. -/
lemma Written.splits (written : Written host meant) (flag : Plain flagport) :
    splitHostPort (address flagport meant) = .ok (endpoint flagport meant) :=
  splitHostPort_joinHostPort written.unboxed (written.plain flag)

/-- One turn of the loop over the entries: the address is added if it is new. -/
lemma addInterface_of (flagport : String) (st : List String × ServerInfo)
    (taken : interfaceOf host = .ok meant) :
    ∃ info, addInterface flagport st host =
      .ok (if address flagport meant ∈ st.1 then st.1 else st.1 ++ [address flagport meant], info) := by
  unfold addInterface
  rw [taken]
  show ∃ info, (if address flagport meant ∈ st.1 then .ok st
    else .ok (st.1 ++ [address flagport meant], st.2.note meant.1) : Except String _) = _
  by_cases known : address flagport meant ∈ st.1
  · rw [if_pos known, if_pos known]
    exact ⟨st.2, rfl⟩
  · rw [if_neg known, if_neg known]
    exact ⟨_, rfl⟩

/-- Every entry gives its address, the first time it comes up. -/
lemma interfaces_written (flag : Plain flagport) {hosts : List String} {meant : List (String × String)}
    (written : List.Forall₂ Written hosts meant) (st : List String × ServerInfo) :
    ∃ new info, hosts.foldlM (addInterface flagport) st = .ok (st.1 ++ new, info) ∧
      (st.1.Nodup → (st.1 ++ new).Nodup) ∧ new.Sublist (meant.map (address flagport)) ∧
      ∀ m ∈ meant, address flagport m ∈ st.1 ++ new ∧
        splitHostPort (address flagport m) = .ok (endpoint flagport m) := by
  induction written generalizing st with
  | nil => exact ⟨[], st.2, by simp [pure, Except.pure], by simp, .slnil, nofun⟩
  | @cons host m hosts meant first rest ih =>
    obtain ⟨info, added⟩ := addInterface_of flagport st first.interfaceOf
    rw [List.foldlM_cons, added]
    by_cases known : address flagport m ∈ st.1
    · rw [if_pos known]
      obtain ⟨new, info', ok, nodup, sub, all⟩ := ih (st.1, info)
      refine ⟨new, info', ok, nodup, sub.cons _, ?_⟩
      intro m' hm'
      rcases List.mem_cons.mp hm' with rfl | hm'
      · exact ⟨List.mem_append_left _ known, first.splits flag⟩
      · exact all m' hm'
    · rw [if_neg known]
      obtain ⟨new, info', ok, nodup, sub, all⟩ := ih (st.1 ++ [address flagport m], info)
      dsimp only at ok nodup all
      rw [List.append_assoc, List.singleton_append] at ok nodup all
      refine ⟨address flagport m :: new, info', ok, ?_, sub.cons_cons _, ?_⟩
      · intro before
        apply nodup
        rw [List.nodup_append]
        refine ⟨before, by simp, ?_⟩
        intro a ha b hb
        cases List.mem_singleton.mp hb
        rintro rfl
        exact known ha
      · intro m' hm'
        rcases List.mem_cons.mp hm' with rfl | hm'
        · exact ⟨by simp, first.splits flag⟩
        · exact all m' hm'

/-- The flag has these entries. -/
lemma getInterfaces_written (flag : Plain flagport) {hosts : List String}
    {meant : List (String × String)} (info : ServerInfo) (given : hosts ≠ [])
    (separate : ∀ host ∈ hosts, ',' ∉ host.toList) (written : List.Forall₂ Written hosts meant) :
    ∃ inter info', getInterfaces (join hosts ',') flagport info = .ok (inter, info') ∧ inter.Nodup ∧
      inter.Sublist (meant.map (address flagport)) ∧
      ∀ m ∈ meant, address flagport m ∈ inter ∧
        splitHostPort (address flagport m) = .ok (endpoint flagport m) := by
  obtain ⟨inter, info', ok, nodup, sub, all⟩ := interfaces_written flag written ([], info)
  refine ⟨inter, info', ?_, nodup List.nodup_nil, sub, all⟩
  unfold getInterfaces
  rw [split_join given separate]
  exact ok

/-- The flag is one entry. -/
lemma getInterfaces_single (comma : ',' ∉ host.toList) (taken : interfaceOf host = .ok meant)
    (info : ServerInfo) :
    ∃ info', getInterfaces host flagport info = .ok ([address flagport meant], info') := by
  have one : split host ',' = [host] := by
    unfold split
    rw [splitChars_whole comma, List.map_singleton, String.ofList_toList]
  obtain ⟨info', added⟩ := addInterface_of flagport ([], info) taken
  refine ⟨info', ?_⟩
  unfold getInterfaces
  rw [one, List.foldlM_cons, added, if_neg List.not_mem_nil]
  rfl

/-- An IPv6 address in brackets without a port gets a second pair of brackets. -/
lemma getInterfaces_boxed {ip : String} (unboxed : Unboxed ip) (colon : ':' ∈ ip.toList)
    (comma : ',' ∉ ip.toList) (info : ServerInfo) :
    ∃ info', getInterfaces ("[" ++ ip ++ "]") flagport info =
      .ok (["[[" ++ ip ++ "]]:" ++ flagport], info') := by
  have chars : ("[" ++ ip ++ "]").toList = '[' :: (ip.toList ++ [']']) := by simp
  have joined : address flagport ("[" ++ ip ++ "]", "") = "[[" ++ ip ++ "]]:" ++ flagport := by
    have inside : contains ("[" ++ ip ++ "]") ':' = true := by simp [contains, colon]
    show joinHostPort ("[" ++ ip ++ "]") flagport = _
    unfold joinHostPort
    rw [if_pos inside]
    apply String.toList_inj.mp
    simp
  rw [← joined]
  refine getInterfaces_single ?_ (interfaceOf_portless (splitHostPort_boxed unboxed)) info
  rw [chars]
  simp [comma]

/-- The flag with entries in the usual forms, separated by commas: each address is listened on once, in the
    order of the entries, and it stands for the host and the port of the entry, the default port if it has
    none. An IPv6 address in brackets without a port is not among these forms: it becomes an address that
    cannot be listened on. -/
theorem interfaces_as_written {hosts : List String} {meant : List (String × String)} (info : ServerInfo)
    (flag : Plain flagport) (given : hosts ≠ []) (separate : ∀ host ∈ hosts, ',' ∉ host.toList)
    (written : List.Forall₂ Written hosts meant) :
    (∃ inter info', getInterfaces (join hosts ',') flagport info = .ok (inter, info') ∧ inter.Nodup ∧
      inter.Sublist (meant.map (address flagport)) ∧
      ∀ m ∈ meant, address flagport m ∈ inter ∧
        splitHostPort (address flagport m) = .ok (endpoint flagport m)) ∧
    ∀ ip, Unboxed ip → ':' ∈ ip.toList → ',' ∉ ip.toList →
      (∃ info', getInterfaces ("[" ++ ip ++ "]") flagport info =
        .ok (["[[" ++ ip ++ "]]:" ++ flagport], info')) ∧
      splitHostPort ("[[" ++ ip ++ "]]:" ++ flagport) = .error .missingPort :=
  ⟨getInterfaces_written flag info given separate written,
    fun _ unboxed colon comma =>
      ⟨getInterfaces_boxed unboxed colon comma info, splitHostPort_boxed_twice unboxed⟩⟩

end

/-- Five entries, the last of them once more the first. -/
def someHosts : List String :=
  ["127.0.0.1", "192.0.2.1:5353", "2001:db8::1", "[2001:db8::2]:5353", "127.0.0.1"]

/-- No more addresses come of them than there are entries, and none twice. -/
theorem some_hosts_listened : ∃ inter info', getInterfaces (join someHosts ',') "53" {} = .ok (inter, info') ∧
    inter.Nodup ∧ inter.length ≤ 5 ∧
    splitHostPort "[2001:db8::1]:53" = .ok ("2001:db8::1", "53") ∧ "[2001:db8::1]:53" ∈ inter := by
  have plain : Plain "127.0.0.1" := ⟨by decide, by decide, by decide⟩
  have flag : Plain "53" := ⟨by decide, by decide, by decide⟩
  have withPort : Written ("192.0.2.1" ++ ":" ++ "5353") ("192.0.2.1", "5353") :=
    .hostPort ⟨by decide, by decide, by decide⟩ ⟨by decide, by decide, by decide⟩
  have boxed : Written ("[" ++ "2001:db8::2" ++ "]:" ++ "5353") ("2001:db8::2", "5353") :=
    .boxed ⟨by decide, by decide⟩ ⟨by decide, by decide, by decide⟩
  have written : List.Forall₂ Written someHosts
      [("127.0.0.1", ""), ("192.0.2.1", "5353"), ("2001:db8::1", ""), ("2001:db8::2", "5353"),
        ("127.0.0.1", "")] :=
    .cons (.host plain) (.cons withPort (.cons (.colons ⟨by decide, by decide⟩ (by decide))
      (.cons boxed (.cons (.host plain) .nil))))
  obtain ⟨⟨inter, info', ok, nodup, sub, all⟩, -⟩ :=
    interfaces_as_written {} flag (List.cons_ne_nil _ _) (by decide) written
  obtain ⟨mem, splits⟩ := all ("2001:db8::1", "") (by simp)
  exact ⟨inter, info', ok, nodup, sub.length_le, splits, mem⟩

/-! ## All addresses of the host -/

/-- The addresses that `main` takes for `*`, from those of the interfaces as `net.ParseCIDR` reads them. -/
def selected (addrs : List (Option IP)) : List IP :=
  (addrs.filterMap id).filter fun ip => ip.isLoopback || ip.isGlobalUnicast

/-- The flag that `main` writes for `*`. -/
def starInterfaces (addrs : List (Option IP)) : String :=
  join ((selected addrs).map IP.toText) ','

section
variable {addrs : List (Option IP)} {flagport : String}

/-- The text of an address is one of the usual forms. -/
lemma written_toText {ip : IP} (valid : ip.Valid) : Written ip.toText (ip.toText, "") := by
  obtain ⟨others, colons⟩ := IP.toText_shape valid
  have unboxed : Unboxed ip.toText := ⟨others '[' (by decide), others ']' (by decide)⟩
  rcases colons with none | two
  · exact .host ⟨none, unboxed.opening, unboxed.closing⟩
  · exact .colons unboxed two

/-- With `*` the server listens on every loopback and global unicast address of the host, once, at the default
    port, and on nothing else; if the host has none, on the port of all addresses. -/
theorem star_listens (info : ServerInfo) (flag : Plain flagport) (valid : ∀ ip, some ip ∈ addrs → ip.Valid) :
    ∃ inter info', getInterfaces (starInterfaces addrs) flagport info = .ok (inter, info') ∧
      inter.Nodup ∧
      if selected addrs = [] then inter = [":" ++ flagport]
      else ∀ a, a ∈ inter ↔ ∃ ip ∈ selected addrs, splitHostPort a = .ok (ip.toText, flagport) ∧
        a = joinHostPort ip.toText flagport := by
  by_cases nothing : selected addrs = []
  · have flag_empty : starInterfaces addrs = "" := by
      unfold starInterfaces
      rw [nothing]
      rfl
    have written : Written "" ("", "") := .host ⟨by simp, by simp, by simp⟩
    obtain ⟨info', ok⟩ : ∃ info', getInterfaces "" flagport info = .ok ([":" ++ flagport], info') :=
      getInterfaces_single (by simp) written.interfaceOf info
    refine ⟨[":" ++ flagport], info', ?_, by simp, ?_⟩
    · rw [flag_empty, ok]
    · rw [if_pos nothing]
  · have each : ∀ ip ∈ selected addrs, ip.Valid := by
      intro ip hip
      obtain ⟨hip, -⟩ := List.mem_filter.mp hip
      obtain ⟨a, ha, rfl⟩ := List.mem_filterMap.mp hip
      exact valid ip ha
    have separate : ∀ host ∈ (selected addrs).map IP.toText, ',' ∉ host.toList := by
      intro host hh
      obtain ⟨ip, hip, rfl⟩ := List.mem_map.mp hh
      exact (IP.toText_shape (each ip hip)).1 ',' (by decide)
    have written : List.Forall₂ Written ((selected addrs).map IP.toText)
        ((selected addrs).map fun ip => (ip.toText, "")) := by
      rw [List.forall₂_map_left_iff, List.forall₂_map_right_iff, List.forall₂_same]
      exact fun ip hip => written_toText (each ip hip)
    obtain ⟨inter, info', ok, nodup, sub, all⟩ :=
      getInterfaces_written flag info (by simpa using nothing) separate written
    have known : ∀ ip ∈ selected addrs, joinHostPort ip.toText flagport ∈ inter ∧
        splitHostPort (joinHostPort ip.toText flagport) = .ok (ip.toText, flagport) :=
      fun ip hip => all (ip.toText, "") (List.mem_map.mpr ⟨ip, hip, rfl⟩)
    refine ⟨inter, info', ok, nodup, ?_⟩
    rw [if_neg nothing]
    intro a
    constructor
    · intro ha
      have ha := sub.subset ha
      rw [List.map_map, List.mem_map] at ha
      obtain ⟨ip, hip, rfl⟩ := ha
      exact ⟨ip, hip, (known ip hip).2, rfl⟩
    · rintro ⟨ip, hip, -, rfl⟩
      exact (known ip hip).1

end

/-- A host with the addresses `127.0.0.1`, `192.0.2.1` and `fe80::1`, the last of which is link-local. -/
def hostAddresses : List (Option IP) :=
  [some [127, 0, 0, 1], none, some [192, 0, 2, 1],
    some [0xfe, 0x80, 0, 0, 0, 0, 0, 0, 0, 0, 0, 0, 0, 0, 0, 1]]

/-- The addresses of a host with a loopback interface, none of them twice. -/
theorem host_addresses_listened : ∃ inter info',
    getInterfaces (starInterfaces hostAddresses) "53" {} = .ok (inter, info') ∧ inter.Nodup ∧
    ∀ a, a ∈ inter ↔ ∃ ip ∈ [[127, 0, 0, 1], [192, 0, 2, 1]],
      splitHostPort a = .ok (IP.toText ip, "53") ∧ a = joinHostPort (IP.toText ip) "53" := by
  have taken : selected hostAddresses = [[127, 0, 0, 1], [192, 0, 2, 1]] := by decide
  have valid : ∀ ip, some ip ∈ hostAddresses → ip.Valid := by
    intro ip hip
    simp only [hostAddresses, List.mem_cons, Option.some.injEq, reduceCtorEq, List.not_mem_nil, or_false,
      false_or] at hip
    rcases hip with rfl | rfl | rfl
    · exact .inl rfl
    · exact .inl rfl
    · exact .inr rfl
  have flag : Plain "53" := ⟨by decide, by decide, by decide⟩
  obtain ⟨inter, info', ok, nodup, listens⟩ := star_listens {} flag valid
  rw [taken, if_neg (List.cons_ne_nil _ _)] at listens
  exact ⟨inter, info', ok, nodup, listens⟩

end GeoDNS.App
