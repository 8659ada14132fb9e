import GeoDNS.Logs.QueryLog
import GeoDNS.Server.Serve

/-!
# Queries in the log

`serve` of `server/serve.go` with its query log. The entry is begun before the name is looked up and is
written when `serve` returns, after the code and the number of answers of the reply have been filled in.
A query that is answered from the address in its name is not logged.

The log does not disturb the answers (`serveLogged_msgs`), and an entry tells what was answered
(`Logged`). What `geodns-logs` makes of the log can therefore be said in terms of the answers. An entry is
about the reply that `serve` has put together. If that cannot be written, the client gets `SERVFAIL` in its
place, and the entry is about a reply that nobody has seen: these are the `misreported` ones.
-/

namespace GeoDNS.Server
open GeoDNS.Lib GeoDNS.Dns GeoDNS.Logs GeoDNS.Targeting GeoDNS.Zones

/-- What a query comes to: the messages that are handed to `WriteMsg`, the first of which is the reply that
    `serve` has put together; whether that one is written; and the entry of the log. -/
structure Served where
  msgs : List Msg
  written : Bool
  entry : Option FullEntry

/-- The client address of an entry, as it is before the targets are computed. -/
def clientAddr (w : RemoteAddr) (req : Msg) : String :=
  match (scanExtra req.extra).edns with
  | some (_, _, e) => e.address.toText ++ "/" ++ e.sourceNetmask.toNat.repr
  | none => (w.ip.getD []).toText ++ "/" ++ ((w.ip.getD []).length * 8).repr

/-- The entry of a query for which the reply `m` is put together, under the name of a label. -/
def entryOf (now : Int) (w : RemoteAddr) (req : Msg) (z : Zone) (asker : Asker) (question : Question)
    (label : String) (m : Msg) : FullEntry where
  time := now
  origin := z.origin
  name := toLower question.name
  qtype := question.qtype
  rcode := m.rcode
  answers := m.answer.length
  labelName := label
  targets := asker.targets
  remoteAddr := (w.ip.getD []).toText
  clientAddr := clientAddr w req
  hasECS := (scanExtra req.extra).edns.isSome

/-- The loop over the matches, with the name of the label that the answer comes from. -/
def answerLoopLogged (env : Env) (qname : String) :
    List LabelMatch → Option Location → Nat → Res (List RR × String)
  | [], _, _ => .ok ([], "")
  | found :: rest, location, k => do
    let label ← Res.get found.label .nilDeref
    let location := if label.closest then location else none
    let (servers, k) ←
      picker env.status env.geod env.chance label found.type label.maxHosts location k
    let rrs ← servers.mapM (fun server => do
      let record ← Res.get server .nilDeref
      return record.rr.setName qname)
    if rrs = [] then answerLoopLogged env qname rest location k else return (rrs, label.label)

/-- The reply when some label matches, with the name of the label that answers. -/
def matchedLogged (env : Env) (req : Msg) (z : Zone) (asker : Asker) (question : Question)
    (labelMatches : List LabelMatch) : Res (Msg × String) := do
  let (answer, label) ← answerLoopLogged env question.name labelMatches asker.location 0
  let m := { newReply req asker with answer }
  if answer = [] then
    let soa ← z.soaRR
    return ({ m with ns := m.ns ++ [soa] }, label)
  else return (m, label)

/-- Go `Server.serve` of a server with a query log. -/
def serveLogged (env : Env) (srv : ServerConfig) (fuel : Nat) (now : Int) (w : RemoteAddr) (req : Msg)
    (z : Zone) : Res Served :=
  match req.question with
  | [] => .panic .index
  | question :: _ =>
    if question.qtype = typeA ∧ z.parseIP then
      let m := parseIPReply req question.name
      .ok ⟨[m], env.writes m, none⟩
    else do
      let qlabel ← getQuestionName z question.name
      let asker := askerOf env w req z
      let labelMatches ←
        findLabels z asker.targets [typeMF, typeCNAME, question.qtype] fuel qlabel
      match labelMatches with
      | [] => do
        let m ← noMatch env srv w req z asker question qlabel
        return ⟨[m], env.writes m, some (entryOf now w req z asker question (firstLabel qlabel) m)⟩
      | _ => do
        let (m, label) ← matchedLogged env req z asker question labelMatches
        return ⟨if env.writes m then [m] else [m, Msg.handleFailed req], env.writes m,
          some (entryOf now w req z asker question label m)⟩

/-! ## The log and the answers -/

section
variable {env : Env} {srv : ServerConfig} {w : RemoteAddr} {req : Msg} {z : Zone} {asker : Asker}
variable {qname : String} {question : Question} {fuel : Nat} {now : Int}

/-- The loop that logs answers as the loop. -/
lemma answerLoopLogged_answer (labelMatches : List LabelMatch) (location : Option Location) (k : Nat) :
    Prod.fst <$> answerLoopLogged env qname labelMatches location k =
      answerLoop env qname labelMatches location k := by
  induction labelMatches generalizing location k with
  | nil => rfl
  | cons found rest ih =>
    unfold answerLoopLogged answerLoop
    simp only [map_bind]
    apply bind_congr
    intro label
    apply bind_congr
    rintro ⟨servers, k⟩
    apply bind_congr
    intro rrs
    by_cases empty : rrs = []
    · simp only [if_pos empty, ih]
    · simp only [if_neg empty, map_pure]

/-- The reply is the same with logging. -/
lemma matchedLogged_reply (labelMatches : List LabelMatch) :
    Prod.fst <$> matchedLogged env req z asker question labelMatches =
      matched env req z asker question labelMatches := by
  unfold matchedLogged matched
  rw [← answerLoopLogged_answer]
  simp only [map_bind, bind_map_left]
  apply bind_congr
  rintro ⟨answer, label⟩
  by_cases empty : answer = []
  · simp only [if_pos empty, map_bind, map_pure]
  · simp only [if_neg empty, map_pure]

/-- A query is answered with the log as it is without. -/
theorem serveLogged_msgs :
    Served.msgs <$> serveLogged env srv fuel now w req z = serve env srv fuel w req z := by
  unfold serveLogged serve
  cases req.question with
  | nil => rfl
  | cons question rest =>
    dsimp only
    by_cases parse : question.qtype = typeA ∧ z.parseIP
    · rw [if_pos parse, if_pos parse, Res.map_ok]
    · rw [if_neg parse, if_neg parse]
      simp only [map_bind]
      apply bind_congr
      intro qlabel
      apply bind_congr
      intro labelMatches
      cases labelMatches with
      | nil =>
        simp only [map_bind, map_pure]
      | cons found more =>
        simp only [← matchedLogged_reply, map_bind, bind_map_left, map_pure]

/-- The entry of a query and the reply to it: there is one unless the address of the name is the answer,
    and it has the code of the reply and the number of its answers. A reply that is written is the only
    message. After one that is not, there is `SERVFAIL` or nothing, and the entry is the same. -/
structure Logged (env : Env) (now : Int) (req : Msg) (z : Zone) (question : Question) (s : Served) :
    Prop where
  unlogged : s.entry = none ↔ question.qtype = typeA ∧ z.parseIP = true
  reply : ∃ m, s.written = env.writes m ∧ (s.written = true → s.msgs = [m]) ∧
    (s.written = false → s.msgs = [m] ∨ s.msgs = [m, Msg.handleFailed req]) ∧
    ∀ e, s.entry = some e → e.time = now ∧ e.origin = z.origin ∧ e.name = toLower question.name ∧
      e.qtype = question.qtype ∧ e.rcode = m.rcode ∧ e.answers = m.answer.length ∧ m.rcode < 4

/-- What is logged of a query that is served. -/
lemma serveLogged_logged {rest : List Question} {s : Served} (hq : req.question = question :: rest)
    (h : serveLogged env srv fuel now w req z = .ok s) : Logged env now req z question s := by
  unfold serveLogged at h
  rw [hq] at h
  dsimp only at h
  split_ifs at h with parse
  · cases h
    exact ⟨iff_of_true rfl parse, _, rfl, fun _ => rfl, fun _ => .inl rfl, nofun⟩
  · obtain ⟨qlabel, -, h⟩ := Res.bind_eq_ok.mp h
    obtain ⟨labelMatches, -, h⟩ := Res.bind_eq_ok.mp h
    cases labelMatches with
    | nil =>
      obtain ⟨m, hm, h⟩ := Res.bind_eq_ok.mp h
      cases h
      refine ⟨iff_of_false nofun parse, m, rfl, fun _ => rfl, fun _ => .inl rfl, ?_⟩
      rintro e ⟨⟩
      refine ⟨rfl, rfl, rfl, rfl, rfl, rfl, ?_⟩
      rcases noMatch_eq_ok hm with ⟨-, code⟩ | ⟨-, code, -⟩ <;> simp [code]
    | cons found more =>
      obtain ⟨⟨m, label⟩, hm, h⟩ := Res.bind_eq_ok.mp h
      cases h
      have replied : matched env req z (askerOf env w req z) question (found :: more) = .ok m := by
        rw [← matchedLogged_reply, hm, Res.map_ok]
      refine ⟨iff_of_false nofun parse, m, rfl, ?_, ?_, ?_⟩
      · intro written
        exact if_pos written
      · intro failed
        exact .inr (if_neg (by simpa using failed))
      · rintro e ⟨⟩
        exact ⟨rfl, rfl, rfl, rfl, rfl, rfl, by rw [(matched_eq_ok replied).1]; decide⟩

end

/-! ## Runs -/

/-- A query, with the zone it is for and what the outside is like when it comes. -/
structure Query where
  env : Env
  now : Int
  w : RemoteAddr
  req : Msg
  zone : Zone

/-- What a query comes to. -/
def Query.run (srv : ServerConfig) (fuel : Nat) (q : Query) : Res Served :=
  serveLogged q.env srv fuel q.now q.w q.req q.zone

/-- The reply that was put together is one without an error and with an answer. -/
def Served.positive (s : Served) : Bool :=
  s.msgs.head?.any fun m => m.rcode = rcodeSuccess ∧ m.answer ≠ []

/-- The client has got a reply without an error and with an answer. -/
def Served.answered (s : Served) : Bool :=
  s.written && s.positive

/-- There was such a reply, but it could not be written. -/
def Served.misreported (s : Served) : Bool :=
  !s.written && s.positive

/-- The entry of the log is under this key. -/
def Served.under (k : String) (s : Served) : Bool :=
  s.entry.any fun e => key e.toEntry = k

/-- The lines of the log of some queries. -/
def logLines (served : List Served) : List Line :=
  (served.filterMap Served.entry).map FullEntry.line

section
variable {srv : ServerConfig} {fuel : Nat} {qs : List Query} {served : List Served} {t : Tables}

/-- The query has a question, about a name that does not start with an empty label, and comes at a time that
    64 bits can tell. -/
structure Query.Sane (q : Query) : Prop where
  time : -2 ^ 63 ≤ q.now ∧ q.now < 2 ^ 63
  name : ∀ question ∈ q.req.question, startsWith question.name ".." = false

/-- A query and what it comes to. -/
def Query.Logs (q : Query) (s : Served) : Prop :=
  ∃ question rest, q.req.question = question :: rest ∧ Logged q.env q.now q.req q.zone question s

/-- A query that has come to something is logged. -/
lemma Query.run_logs {q : Query} {s : Served} (h : q.run srv fuel = .ok s) : q.Logs s := by
  cases hq : q.req.question with
  | nil =>
    unfold Query.run serveLogged at h
    rw [hq] at h
    cases h
  | cons question rest => exact ⟨question, rest, hq, serveLogged_logged hq h⟩

/-- A text starts with two dots if its lower-case form does. -/
lemma startsWith_dots_of_toLower {s : String} (h : startsWith (toLower s) ".." = true) :
    startsWith s ".." = true := by
  have lowered : (toLower s).toList = s.toList.map toLowerRune := String.toList_ofList
  unfold startsWith at *
  rw [lowered] at h
  obtain ⟨rest, h⟩ : ['.', '.'] <+: s.toList.map toLowerRune := List.isPrefixOf_iff_prefix.mp h
  match s.toList, h with
  | [], h => simp at h
  | [c], h => simp at h
  | c :: d :: cs, h =>
    simp only [List.cons_append, List.nil_append, List.map_cons, List.cons.injEq] at h
    obtain ⟨first, second, -⟩ := h
    rw [eq_of_toLowerRune (by decide) first.symm, eq_of_toLowerRune (by decide) second.symm]
    rfl

/-- The first message is the one that the entry is about. -/
lemma Query.Logs.entry {q : Query} {s : Served} (logs : q.Logs s) :
    ∃ question rest m, q.req.question = question :: rest ∧ s.msgs.head? = some m ∧
      ∀ e, s.entry = some e → e.time = q.now ∧ e.name = toLower question.name ∧ e.rcode = m.rcode ∧
        e.answers = m.answer.length ∧ m.rcode < 4 := by
  obtain ⟨question, rest, hq, -, m, -, one, two, entry⟩ := logs
  refine ⟨question, rest, m, hq, ?_, ?_⟩
  · cases written : s.written with
    | true => rw [one written, List.head?_cons]
    | false => rcases two written with e | e <;> rw [e, List.head?_cons]
  · intro e he
    obtain ⟨time, -, name, -, rcode, answers, code⟩ := entry e he
    exact ⟨time, name, rcode, answers, code⟩

/-- The entry of a query is one that the log can hold. -/
lemma Query.Logs.fits {q : Query} {s : Served} {e : FullEntry} (logs : q.Logs s) (sane : q.Sane)
    (small : ∀ m ∈ s.msgs, m.answer.length < 2 ^ 63) (he : s.entry = some e) : e.Fits := by
  obtain ⟨question, rest, m, -, hm, entry⟩ := logs.entry
  obtain ⟨time, -, rcode, answers, code⟩ := entry e he
  have few := small m (List.mem_of_mem_head? hm)
  constructor
  · rw [time]
    exact sane.time
  · rw [rcode]
    omega
  · rw [answers]
    omega

/-- The name in the entry of a query is in lower case. -/
lemma Query.Logs.lower {q : Query} {s : Served} {e : FullEntry} (logs : q.Logs s)
    (he : s.entry = some e) : toLower e.name = e.name := by
  obtain ⟨question, rest, m, -, -, entry⟩ := logs.entry
  rw [(entry e he).2.1, toLower_toLower]

/-- The key of the entry of a query can be made. -/
lemma Query.Logs.not_panics {q : Query} {s : Served} {e : FullEntry} (logs : q.Logs s) (sane : q.Sane)
    (he : s.entry = some e) : ¬ e.toEntry.Panics := by
  obtain ⟨question, rest, m, hq, -, entry⟩ := logs.entry
  intro panics
  have dots := panics.two_dots
  rw [(entry e he).2.1] at dots
  have none := sane.name question (hq ▸ List.mem_cons_self)
  rw [startsWith_dots_of_toLower dots] at none
  cases none

/-- An entry is counted if the reply that was put together has an answer. -/
lemma Query.Logs.counted_iff {q : Query} {s : Served} {e : FullEntry} (logs : q.Logs s)
    (he : s.entry = some e) : e.toEntry.Counted ↔ s.positive = true := by
  obtain ⟨question, rest, m, -, hm, entry⟩ := logs.entry
  obtain ⟨-, -, rcode, answers, -⟩ := entry e he
  unfold Served.positive Entry.Counted
  rw [hm, rcode, answers]
  simp

/-- Those with a reply that has an answer are those where the client got it and those where it did not. -/
lemma countP_positive (p : Served → Bool) (served : List Served) :
    served.countP (fun s => p s && s.positive) =
      served.countP (fun s => p s && s.answered) + served.countP (fun s => p s && s.misreported) := by
  induction served with
  | nil => rfl
  | cons s served ih =>
    rw [List.countP_cons, List.countP_cons, List.countP_cons, ih, Served.answered, Served.misreported]
    cases p s <;> cases s.written <;> cases s.positive <;> simp <;> omega

/-- All queries of a run are logged. -/
lemma runs_logs (runs : qs.mapM (Query.run srv fuel) = .ok served) : List.Forall₂ Query.Logs qs served := by
  refine (Res.mapM_eq_ok.mp runs).imp ?_
  intro q s h
  exact Query.run_logs h

/-- The log of a server and what `geodns-logs` makes of it, for every sequence of queries: each query is
    answered as it would be without the log, its entry tells what the reply to it is, and all of them are
    counted. The statistics have the number of queries that got an answer and of those whose answer could not
    be written, except for those that were answered from the address in their name, and under every key the
    number of those with that key. -/
theorem log_counts_answers (runs : qs.mapM (Query.run srv fuel) = .ok served)
    (sane : ∀ q ∈ qs, q.Sane) (small : ∀ s ∈ served, ∀ m ∈ s.msgs, m.answer.length < 2 ^ 63) :
    qs.mapM (fun q => serve q.env srv fuel q.w q.req q.zone) = .ok (served.map Served.msgs) ∧
      List.Forall₂ Query.Logs qs served ∧
      ∃ stats, processChan t (logLines served) = .ok stats ∧
        stats.count = served.countP (fun s => s.entry.isSome && s.answered) +
          served.countP (fun s => s.entry.isSome && s.misreported) ∧
        ∀ k, ((stats.map.lookup k).map StatsEntry.count).getD 0 =
          served.countP (fun s => s.under k && s.answered) +
            served.countP (fun s => s.under k && s.misreported) := by
  have logs := runs_logs runs
  have each : ∀ e ∈ served.filterMap Served.entry, ∃ q s, q ∈ qs ∧ s ∈ served ∧ q.Logs s ∧
      s.entry = some e := by
    intro e he
    obtain ⟨s, hs, he⟩ := List.mem_filterMap.mp he
    obtain ⟨q, hq, ran⟩ := Res.mem_of_mapM runs hs
    exact ⟨q, s, hq, hs, Query.run_logs ran, he⟩
  have reads : processChan t (logLines served) =
      ((served.filterMap Served.entry).map FullEntry.toEntry).foldlM (add t) {} := by
    apply processChan_lines
    · intro e he
      obtain ⟨q, s, hq, hs, logs, he⟩ := each e he
      exact logs.fits (sane q hq) (small s hs) he
    · intro e he
      obtain ⟨q, s, hq, hs, logs, he⟩ := each e he
      exact logs.lower he
  refine ⟨?_, logs, ?_⟩
  · rw [Res.mapM_eq_ok, List.forall₂_map_right_iff]
    refine (Res.mapM_eq_ok.mp runs).imp ?_
    intro q s ran
    have same : Served.msgs <$> q.run srv fuel = serve q.env srv fuel q.w q.req q.zone := serveLogged_msgs
    rw [← same]
    exact Res.map_eq_ok.mpr ⟨s, ran, rfl⟩
  · obtain ⟨stats, adds⟩ : ∃ stats,
        ((served.filterMap Served.entry).map FullEntry.toEntry).foldlM (add t) {} = .ok stats := by
      apply adds_of_not_panics
      intro e he
      obtain ⟨full, hfull, rfl⟩ := List.mem_map.mp he
      obtain ⟨q, s, hq, hs, logs, he⟩ := each full hfull
      exact logs.not_panics (sane q hq) he
    have tallied := tallied_of_adds adds
    refine ⟨stats, reads.trans adds, ?_, ?_⟩
    · rw [← countP_positive, tallied.count, List.countP_map, List.countP_filterMap]
      apply List.countP_congr
      intro s hs
      obtain ⟨q, hq, ran⟩ := Res.mem_of_mapM runs hs
      cases he : s.entry with
      | none => simp
      | some e => simpa using (Query.run_logs ran).counted_iff he
    · intro k
      rw [← countP_positive, tallied.count_under, List.countP_map, List.countP_filterMap]
      apply List.countP_congr
      intro s hs
      obtain ⟨q, hq, ran⟩ := Res.mem_of_mapM runs hs
      unfold Served.under
      cases he : s.entry with
      | none => simp
      | some e => simp [(Query.run_logs ran).counted_iff he, and_comm]

end

/-- The log of a query for an address that is there. -/
theorem logged_answer_counted :
    let q : Query :=
      ⟨smallEnv, 0, smallClient, { question := [⟨"WWW.example.com.", typeA, classINET⟩] }, smallWeb⟩
    ∃ s stats, q.run smallServer 1 = .ok s ∧ processChan smallTables (logLines [s]) = .ok stats ∧
      stats.count = 1 := by
  intro q
  have facts : (fun s => ((s.entry.isSome, s.answered, s.misreported),
      s.msgs.map fun m => m.answer.length)) <$> q.run smallServer 1 = .ok ((true, true, false), [1]) := by
    decide +kernel
  obtain ⟨s, ran, facts⟩ := Res.map_eq_ok.mp facts
  obtain ⟨flags, lengths⟩ := Prod.mk.inj facts
  obtain ⟨logged, flags⟩ := Prod.mk.inj flags
  obtain ⟨answered, written⟩ := Prod.mk.inj flags
  have sane : q.Sane := ⟨by decide, by decide⟩
  have runs : [q].mapM (Query.run smallServer 1) = .ok [s] := Res.mapM_eq_ok.mpr (.cons ran .nil)
  obtain ⟨-, -, stats, reads, count, -⟩ :=
    log_counts_answers (t := smallTables) runs (by simpa using sane) (by
      intro s' hs m hm
      cases List.mem_singleton.mp hs
      have one := List.mem_map_of_mem (f := fun m : Msg => m.answer.length) hm
      rw [lengths, List.mem_singleton] at one
      omega)
  exact ⟨s, stats, ran, reads, by simpa [logged, answered, written] using count⟩

end GeoDNS.Server
