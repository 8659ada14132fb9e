import GeoDNS.Zones.FindLabels
import GeoDNS.Zones.Loaded
import GeoDNS.Zones.Picker

/-!
# Answering a query

`Server.serve` of `server/serve.go`: from a request and the zone it is for to the messages that are
written back. What the outside decides is in `Env`. The query log, the counters and the statistics of
names and clients are left out; the statistics come with the activities that share them.

The reply shares memory with the request: its `OPT` record is that of the request, and `getTargets`
writes to the bytes of the address it is given. `EdnsScan` therefore keeps positions in the request, and
`Asker` the address bytes as they are after that call.
-/

namespace GeoDNS.Server
open GeoDNS.Lib GeoDNS.Dns GeoDNS.Health GeoDNS.Targeting GeoDNS.Zones

/-- The settings that `serve` reads (Go `Server` and its `ServerInfo`). -/
structure ServerConfig where
  publicDebugQueries : Bool
  id : String
  ip : String

/-- What `serve` gets from outside. -/
structure Env where
  geo : Option Provider
  geod : Geodesy
  status : String → Res StatusType
  chance : Chance
  /-- can this message be written? -/
  writes : Msg → Bool
  /-- version, identity, host name and age of the server as the text of an object -/
  statusText : String
  /-- latitude and longitude with three digits each -/
  placeText : Location → String

/-- The other end of a connection (Go `net.Addr`); only a UDP or TCP address has an IP address. -/
structure RemoteAddr where
  ip : Option IP
  text : String

/-- The query name without the zone's own name (Go `getQuestionName`). -/
def getQuestionName (z : Zone) (fqdn : String) : Res String :=
  let lx := splitDomainName fqdn
  if lx.length < z.labelCount then .panic .index
  else .ok (toLower (join (lx.take (lx.length - z.labelCount)) '.'))

/-- The address that a name begins with, written with dashes (Go `getIPFromDomain`). -/
def getIPFromDomain (domain : String) : Option IP :=
  let dashedIP := (split domain '.').headD ""
  IP.parseIP (String.ofList (dashedIP.toList.map (fun c => if c = '-' then '.' else c)))

/-- The answer to a query for an address in a zone whose names are addresses. A name that is none is
    answered with the nil address. -/
def parseIPReply (req : Msg) (qname : String) : Msg :=
  { ({} : Msg).setReply req with
    answer := [⟨⟨qname, typeA, classINET, 86400⟩, .a ((getIPFromDomain qname).getD [])⟩] }

/-! ## The client -/

/-- What the loop over the additional section finds: the position of `opt_rr`, and `edns` with the
    position of its record and its position in it. -/
structure EdnsScan where
  optRR : Option Nat := none
  edns : Option (Nat × Nat × Subnet) := none

/-- One option of the `OPT` record at position `i`. -/
def scanOption (i : Nat) (found : EdnsScan) (option : EDNS0 × Nat) : EdnsScan :=
  match option.1 with
  | .subnet e =>
    if e.address ≠ [] then ⟨some i, some (i, option.2, e)⟩ else { found with optRR := some i }
  | _ => { found with optRR := some i }

/-- The loop over the additional section of a request. -/
def scanExtra (extra : List RR) : EdnsScan :=
  extra.zipIdx.foldl (fun found (rr, i) =>
    match rr.data with
    | .opt options => options.zipIdx.foldl (scanOption i) found
    | _ => found) {}

/-- What `serve` knows of the client once it has its targets. -/
structure Asker where
  realIP : IP
  ip : IP
  targets : List String
  netmask : Int
  location : Option Location
  found : EdnsScan

/-- The client of a request: the client subnet if there is one, and the other end if not. -/
def askerOf (env : Env) (w : RemoteAddr) (req : Msg) (z : Zone) : Asker :=
  let realIP := w.ip.getD []
  let found := scanExtra req.extra
  let subnet := (found.edns.map (fun e => e.2.2.address)).getD []
  let ip := if subnet = [] then realIP else subnet
  let ((targets, netmask, location), ip) :=
    getTargets env.geo z.options.targeting ip z.hasClosest
  -- without a client subnet `ip` and `realIP` are the same bytes
  { realIP := if subnet = [] then ip else realIP, ip, targets, netmask, location, found }

/-- The scope of an answer whose targets hold for a prefix of this length. -/
def sourceScope (netmask : Int) : UInt8 :=
  UInt8.ofInt (if netmask < 16 then 16 else netmask)

/-- An `OPT` record with another option at position `j`. -/
def setOption (rr : RR) (j : Nat) (o : EDNS0) : RR :=
  match rr.data with
  | .opt options => { rr with data := .opt (options.set j o) }
  | _ => rr

/-- The `OPT` record of the reply: that of the request, with the scope of the answer. -/
def replyOpt (req : Msg) (asker : Asker) : List RR :=
  match asker.found.edns, asker.found.optRR with
  | some (i, j, e), some o =>
    if e.family ≠ 0 then
      let e := { e with sourceScope := sourceScope asker.netmask, address := asker.ip }
      (req.extra[o]?.map (fun rr => if o = i then setOption rr j (.subnet e) else rr)).toList
    else []
  | _, _ => []

/-- The reply before there is an answer. It is asked for its own `OPT` record, not the request. -/
def newReply (req : Msg) (asker : Asker) : Msg :=
  let m := ({} : Msg).setReply req
  let m := match m.isEdns0 with
    | some e => m.setEdns0 4096 (e.hdr.ttl &&& 0x8000 = 0x8000)
    | none => m
  { m with authoritative := true, extra := m.extra ++ replyOpt req asker }

/-- A new reply has no answers. -/
@[simp] lemma newReply_answer (req : Msg) (asker : Asker) : (newReply req asker).answer = [] := rfl

/-- A new reply has nothing in its authority section. -/
@[simp] lemma newReply_ns (req : Msg) (asker : Asker) : (newReply req asker).ns = [] := rfl

/-- A new reply has no error. -/
@[simp] lemma newReply_rcode (req : Msg) (asker : Asker) :
    (newReply req asker).rcode = rcodeSuccess := rfl

/-- A new reply has the options of the request. -/
@[simp] lemma newReply_extra (req : Msg) (asker : Asker) :
    (newReply req asker).extra = replyOpt req asker := rfl

/-! ## Names without a match -/

/-- A text record of the server about itself. -/
def debugRR (name : String) (txt : List String) : RR :=
  ⟨⟨name, typeTXT, classINET, 1⟩, .txt txt⟩

/-- Go `Server.statusRR`. -/
def statusRR (env : Env) (label : String) : List RR :=
  [debugRR label [env.statusText]]

/-- Go `Zone.HealthRR`, which always reports an empty object. -/
def healthRR (label : String) : List RR :=
  [debugRR label ["\x7b\x7d"]]

/-- The texts of the answer about the client itself. The targets are computed once more, with the
    address as the first computation has left it. -/
def countryRR (env : Env) (srv : ServerConfig) (w : RemoteAddr) (z : Zone) (asker : Asker)
    (qname : String) : List RR :=
  let ((targets, netmask, location), _) :=
    getTargets env.geo z.options.targeting asker.ip z.hasClosest
  [debugRR qname
    [w.text, asker.ip.toText, join targets ' ', "/" ++ itoa netmask, srv.id, srv.ip,
      match location with
      | some l => env.placeText l
      | none => "()"]]

/-- The reply to a query for a name of the server's own: `answer` for texts, and nothing else. -/
def debugReply (z : Zone) (m : Msg) (qtype : RRType) (answer : List RR) : Res Msg :=
  if qtype = typeANY ∨ qtype = typeTXT then .ok { m with answer }
  else do
    let soa ← z.soaRR
    return { m with ns := m.ns ++ [soa] }

/-- The first label of a name. -/
def firstLabel (qlabel : String) : String :=
  (split qlabel '.').headD ""

/-- May this client ask for the server's own names? -/
def permitDebug (srv : ServerConfig) (asker : Asker) : Bool :=
  srv.publicDebugQueries || asker.realIP.isLoopback

/-- The reply when no label matches. -/
def noMatch (env : Env) (srv : ServerConfig) (w : RemoteAddr) (req : Msg) (z : Zone) (asker : Asker)
    (question : Question) (qlabel : String) : Res Msg :=
  let m := newReply req asker
  let own := qlabel ++ "." ++ z.origin ++ "."
  if permitDebug srv asker ∧ firstLabel qlabel = "_status" then
    debugReply z m question.qtype (statusRR env own)
  else if permitDebug srv asker ∧ firstLabel qlabel = "_health" then
    debugReply z m question.qtype (healthRR own)
  else if firstLabel qlabel = "_country" then
    debugReply z m question.qtype (countryRR env srv w z asker question.name)
  else do
    let soa ← z.soaRR
    return { m.setRcode req rcodeNameError with authoritative := true, ns := [soa] }

/-! ## Names with a match -/

/-- The loop over the matches, up to the first one with records to serve. A label without `closest`
    makes `serve` forget where the client is, for the labels after it as well. -/
def answerLoop (env : Env) (qname : String) :
    List LabelMatch → Option Location → Nat → Res (List RR)
  | [], _, _ => .ok []
  | found :: rest, location, k => do
    let label ← Res.get found.label .nilDeref
    let location := if label.closest then location else none
    let (servers, k) ←
      picker env.status env.geod env.chance label found.type label.maxHosts location k
    let rrs ← servers.mapM (fun server => do
      let record ← Res.get server .nilDeref
      return record.rr.setName qname)
    if rrs = [] then answerLoop env qname rest location k else return rrs

/-- The reply when some label matches. -/
def matched (env : Env) (req : Msg) (z : Zone) (asker : Asker) (question : Question)
    (labelMatches : List LabelMatch) : Res Msg := do
  let answer ← answerLoop env question.name labelMatches asker.location 0
  let m := { newReply req asker with answer }
  if answer = [] then
    let soa ← z.soaRR
    return { m with ns := m.ns ++ [soa] }
  else return m

/-- The messages that `Server.serve` writes, with alias recursion at most `fuel` deep. -/
def serve (env : Env) (srv : ServerConfig) (fuel : Nat) (w : RemoteAddr) (req : Msg) (z : Zone) :
    Res (List Msg) :=
  match req.question with
  | [] => .panic .index
  | question :: _ =>
    if question.qtype = typeA ∧ z.parseIP then .ok [parseIPReply req question.name]
    else do
      let qlabel ← getQuestionName z question.name
      let asker := askerOf env w req z
      let labelMatches ←
        findLabels z asker.targets [typeMF, typeCNAME, question.qtype] fuel qlabel
      match labelMatches with
      | [] => do
        let m ← noMatch env srv w req z asker question qlabel
        return [m]
      | _ => do
        let m ← matched env req z asker question labelMatches
        return if env.writes m then [m] else [m, Msg.handleFailed req]

/-! ## The replies -/

/-- Does the server answer for this name itself if no label matches? -/
def ownName (srv : ServerConfig) (asker : Asker) (qlabel : String) : Prop :=
  (permitDebug srv asker ∧ (firstLabel qlabel = "_status" ∨ firstLabel qlabel = "_health")) ∨
    firstLabel qlabel = "_country"

/-- The records of a match, under the name that was asked for, answer a query: what the loop over the
    matches does with one of them. -/
def AnswersWith (env : Env) (qname : String) (found : LabelMatch) (answer : List RR) : Prop :=
  ∃ l location k servers k', found.label = some l ∧
    picker env.status env.geod env.chance l found.type l.maxHosts location k = .ok (servers, k') ∧
    servers.mapM (fun server => do
      let record ← Res.get server .nilDeref
      return record.rr.setName qname) = .ok answer

section
variable {env : Env} {srv : ServerConfig} {w : RemoteAddr} {req : Msg} {z : Zone} {asker : Asker}
variable {qname : String} {location : Option Location} {k : Nat}
variable {question : Question} {qlabel : String} {fuel : Nat} {m m' : Msg} {msgs : List Msg}
variable {answer : List RR} {labelMatches : List LabelMatch} {soa : RR}

/-- A debug reply keeps the code. -/
lemma debugReply_rcode {qtype : RRType} (h : debugReply z m qtype answer = .ok m') :
    m'.rcode = m.rcode := by
  unfold debugReply at h
  split_ifs at h with text
  · cases h
    rfl
  · obtain ⟨soa, _, h⟩ := Res.bind_eq_ok.mp h
    cases h
    rfl

/-- There is a debug reply if the zone has an `SOA` record. -/
lemma debugReply_returns {qtype : RRType} (hsoa : z.soaRR = .ok soa) :
    ∃ m', debugReply z m qtype answer = .ok m' := by
  unfold debugReply
  split_ifs with text
  · exact ⟨_, rfl⟩
  · rw [hsoa]
    exact ⟨_, rfl⟩

/-- The replies if no label matches: one of the server's own names, or the name is denied. -/
lemma noMatch_eq_ok (h : noMatch env srv w req z asker question qlabel = .ok m) :
    (ownName srv asker qlabel ∧ m.rcode = rcodeSuccess) ∨
      (¬ ownName srv asker qlabel ∧ m.rcode = rcodeNameError ∧ m.answer = [] ∧
        ∃ soa, z.soaRR = .ok soa ∧ m.ns = [soa]) := by
  unfold noMatch at h
  dsimp only at h
  split_ifs at h with status health country
  · exact .inl ⟨.inl ⟨status.1, .inl status.2⟩, debugReply_rcode h⟩
  · exact .inl ⟨.inl ⟨health.1, .inr health.2⟩, debugReply_rcode h⟩
  · exact .inl ⟨.inr country, debugReply_rcode h⟩
  · obtain ⟨soa, hsoa, h⟩ := Res.bind_eq_ok.mp h
    cases h
    refine .inr ⟨?_, rfl, rfl, soa, hsoa, rfl⟩
    rintro (⟨permit, first | first⟩ | first)
    · exact status ⟨permit, first⟩
    · exact health ⟨permit, first⟩
    · exact country first

/-- If no label matches, there is a reply as soon as the zone has an `SOA` record. -/
lemma noMatch_returns (hsoa : z.soaRR = .ok soa) :
    ∃ m, noMatch env srv w req z asker question qlabel = .ok m := by
  unfold noMatch
  dsimp only
  split_ifs with status health country
  · exact debugReply_returns hsoa
  · exact debugReply_returns hsoa
  · exact debugReply_returns hsoa
  · rw [hsoa]
    exact ⟨_, rfl⟩

/-- The loop takes its answer from the first match that has one. -/
theorem answerLoop_eq_ok (h : answerLoop env qname labelMatches location k = .ok answer) :
    ∃ pre, (∀ found ∈ pre, AnswersWith env qname found []) ∧
      ((answer = [] ∧ labelMatches = pre) ∨ (answer ≠ [] ∧
        ∃ found post, labelMatches = pre ++ found :: post ∧ AnswersWith env qname found answer)) := by
  induction labelMatches generalizing location k with
  | nil =>
    cases h
    exact ⟨[], by simp, .inl ⟨rfl, rfl⟩⟩
  | cons found rest ih =>
    obtain ⟨label, hlabel, h⟩ := Res.bind_eq_ok.mp h
    obtain ⟨⟨servers, k'⟩, hpick, h⟩ := Res.bind_eq_ok.mp h
    obtain ⟨rrs, hrrs, h⟩ := Res.bind_eq_ok.mp h
    have here : AnswersWith env qname found rrs :=
      ⟨label, _, k, servers, k', Res.get_eq_ok.mp hlabel, hpick, hrrs⟩
    by_cases empty : rrs = []
    · rw [if_pos empty] at h
      subst empty
      obtain ⟨pre, hpre, done⟩ := ih h
      refine ⟨found :: pre, ?_, ?_⟩
      · intro found' hmem
        rcases List.mem_cons.mp hmem with rfl | hmem
        · exact here
        · exact hpre found' hmem
      · rcases done with ⟨e, rfl⟩ | ⟨ne, found', post, rfl, later⟩
        · exact .inl ⟨e, rfl⟩
        · exact .inr ⟨ne, found', post, rfl, later⟩
    · rw [if_neg empty] at h
      cases h
      exact ⟨[], by simp, .inr ⟨empty, found, rest, rfl, here⟩⟩

/-- An answer consists of records of the label that was found, of the type that was found. -/
lemma AnswersWith.mem {found : LabelMatch} {rr : RR} (h : AnswersWith env qname found answer)
    (hrr : rr ∈ answer) :
    ∃ l t rs r, found.label = some l ∧ l.recordsOf t = some rs ∧ r ∈ rs ∧
      (found.type ≠ typeANY → t = found.type) ∧ rr = r.rr.setName qname := by
  obtain ⟨l, location, k, servers, k', hl, hpick, hrrs⟩ := h
  obtain ⟨server, hmem, hrr⟩ := Res.mem_of_mapM hrrs hrr
  obtain ⟨r, hr, hrr⟩ := Res.bind_eq_ok.mp hrr
  cases hrr
  rw [Res.get_eq_ok.mp hr] at hmem
  obtain ⟨t, rs, hrec, hr, ht⟩ := picker_mem hpick hmem
  exact ⟨l, t, rs, r, hl, hrec, hr, ht, rfl⟩

/-- The replies if a label matches: answers, or the `SOA` record if there are none. -/
lemma matched_eq_ok (h : matched env req z asker question labelMatches = .ok m) :
    m.rcode = rcodeSuccess ∧
      answerLoop env question.name labelMatches asker.location 0 = .ok m.answer ∧
      ((m.answer = [] ∧ ∃ soa, z.soaRR = .ok soa ∧ m.ns = [soa]) ∨ (m.answer ≠ [] ∧ m.ns = [])) := by
  obtain ⟨answer, hanswer, h⟩ := Res.bind_eq_ok.mp h
  dsimp only at h
  split_ifs at h with empty
  · obtain ⟨soa, hsoa, h⟩ := Res.bind_eq_ok.mp h
    cases h
    exact ⟨rfl, hanswer, .inl ⟨empty, soa, hsoa, rfl⟩⟩
  · cases h
    exact ⟨rfl, hanswer, .inr ⟨empty, rfl⟩⟩

/-- The first message that `serve` writes: the address of the name itself, or the reply that the lookup
    of the name calls for. -/
theorem serve_eq_ok {rest : List Question} (hq : req.question = question :: rest)
    (h : serve env srv fuel w req z = .ok msgs) :
    ∃ m, msgs.head? = some m ∧
      if question.qtype = typeA ∧ z.parseIP then m = parseIPReply req question.name
      else ∃ qlabel labelMatches, getQuestionName z question.name = .ok qlabel ∧
        findLabels z (askerOf env w req z).targets [typeMF, typeCNAME, question.qtype] fuel qlabel =
          .ok labelMatches ∧
        ((labelMatches = [] ∧
            noMatch env srv w req z (askerOf env w req z) question qlabel = .ok m) ∨
          (labelMatches ≠ [] ∧
            matched env req z (askerOf env w req z) question labelMatches = .ok m)) := by
  unfold serve at h
  rw [hq] at h
  dsimp only at h
  split_ifs at h ⊢ with parse
  · cases h
    exact ⟨_, rfl, rfl⟩
  · obtain ⟨qlabel, hname, h⟩ := Res.bind_eq_ok.mp h
    obtain ⟨labelMatches, hfind, h⟩ := Res.bind_eq_ok.mp h
    cases labelMatches with
    | nil =>
      obtain ⟨m, hm, h⟩ := Res.bind_eq_ok.mp h
      cases h
      exact ⟨m, rfl, qlabel, [], hname, hfind, .inl ⟨rfl, hm⟩⟩
    | cons found found' =>
      obtain ⟨m, hm, h⟩ := Res.bind_eq_ok.mp h
      cases h
      refine ⟨m, ?_, qlabel, _, hname, hfind, .inr ⟨by simp, hm⟩⟩
      split_ifs <;> rfl

/-- Every message is the first one, or says that the server has failed. -/
lemma serve_mem (h : serve env srv fuel w req z = .ok msgs) (hm : m ∈ msgs) :
    msgs.head? = some m ∨ m = Msg.handleFailed req := by
  unfold serve at h
  cases hq : req.question with
  | nil =>
    rw [hq] at h
    cases h
  | cons question rest =>
    rw [hq] at h
    dsimp only at h
    split_ifs at h with parse
    · cases h
      cases List.mem_singleton.mp hm
      exact .inl rfl
    · obtain ⟨qlabel, _, h⟩ := Res.bind_eq_ok.mp h
      obtain ⟨labelMatches, _, h⟩ := Res.bind_eq_ok.mp h
      cases labelMatches with
      | nil =>
        obtain ⟨m', _, h⟩ := Res.bind_eq_ok.mp h
        cases h
        cases List.mem_singleton.mp hm
        exact .inl rfl
      | cons found found' =>
        obtain ⟨m', _, h⟩ := Res.bind_eq_ok.mp h
        cases h
        split_ifs at hm ⊢ with written
        · cases List.mem_singleton.mp hm
          exact .inl rfl
        · rcases List.mem_cons.mp hm with rfl | hm
          · exact .inl rfl
          · exact .inr (List.mem_singleton.mp hm)

/-! ## The additional section -/

/-- A debug reply keeps the options. -/
lemma debugReply_extra {qtype : RRType} (h : debugReply z m qtype answer = .ok m') :
    m'.extra = m.extra := by
  unfold debugReply at h
  split_ifs at h with text
  · cases h
    rfl
  · obtain ⟨soa, _, h⟩ := Res.bind_eq_ok.mp h
    cases h
    rfl

/-- If no label matches, the reply has the options of the request. -/
lemma noMatch_extra (h : noMatch env srv w req z asker question qlabel = .ok m) :
    m.extra = replyOpt req asker := by
  unfold noMatch at h
  dsimp only at h
  split_ifs at h with status health country
  · exact debugReply_extra h
  · exact debugReply_extra h
  · exact debugReply_extra h
  · obtain ⟨soa, _, h⟩ := Res.bind_eq_ok.mp h
    cases h
    rfl

/-- If a label matches, the reply has the options of the request. -/
lemma matched_extra (h : matched env req z asker question labelMatches = .ok m) :
    m.extra = replyOpt req asker := by
  obtain ⟨answer, _, h⟩ := Res.bind_eq_ok.mp h
  dsimp only at h
  split_ifs at h with empty
  · obtain ⟨soa, _, h⟩ := Res.bind_eq_ok.mp h
    cases h
    rfl
  · cases h
    rfl

/-- Every reply built from the lookup has the additional section that it began with. -/
theorem serve_extra (noParse : z.parseIP = false) (h : serve env srv fuel w req z = .ok msgs)
    (hm : msgs.head? = some m) : m.extra = replyOpt req (askerOf env w req z) := by
  cases hq : req.question with
  | nil =>
    unfold serve at h
    rw [hq] at h
    cases h
  | cons question rest =>
    obtain ⟨m', hm', reply⟩ := serve_eq_ok hq h
    rw [hm] at hm'
    cases hm'
    rw [if_neg (by simp [noParse])] at reply
    obtain ⟨_, _, _, _, ⟨_, hreply⟩ | ⟨_, hreply⟩⟩ := reply
    · exact noMatch_extra hreply
    · exact matched_extra hreply

end

/-! ## A small environment -/

/-- A stand-in for the outside: every client is in Denmark, all distances and draws are zero, and
    whatever is tested is healthy. -/
def smallEnv : Env where
  geo := some
    { getCountry := fun _ => ("dk", "europe", 16)
      getASN := fun _ => ("", 0, none)
      getLocation := fun _ => (none, none) }
  geod := { degrees := fun _ _ => 0, nonneg := fun _ _ => le_refl 0, le_max := fun _ _ => by decide }
  status _ := .ok statusHealthy
  chance := { draws := fun _ => 0, order := fun _ keys => keys, order_perm := fun _ _ => .refl _ }
  writes _ := true
  statusText := ""
  placeText _ := ""

/-- A server that tells nobody about itself. -/
def smallServer : ServerConfig :=
  ⟨false, "", ""⟩

/-- A client of no other consequence. -/
def smallClient : RemoteAddr :=
  ⟨some [192, 0, 2, 99], "192.0.2.99:5353"⟩

/-- The zone `example.com` with an address of `www`. -/
def smallWeb : Zone :=
  smallZone [("www", .obj [("a", .arr [.arr [.str "192.0.2.1"]])])]

/-- The small zone is accepted. -/
lemma smallWeb_accepted : Accepted smallExternals smallWeb :=
  smallZone_accepted rfl

end GeoDNS.Server
