import GeoDNS.Server.Serve
import GeoDNS.Zones.Installed
import GeoDNS.Zones.Matches

/-!
# The shape of a reply

A reply to an ordinary query has one of three shapes (`Regular`): the name does not exist, it has no
records of the type, or the records are there. The last one rests on what the loader has established:
every record is filed under its own type (`Loaded.rrtype`), and the matches of a lookup are for canonical
names or for the query type, however many aliases they were found through (`mem_of_value`).
-/

namespace GeoDNS.Server
open GeoDNS.Lib GeoDNS.Dns GeoDNS.Targeting GeoDNS.Zones

/-- The shapes of a reply. -/
inductive Regular (z : Zone) (question : Question) (m : Msg) : Prop
  | denied {soa} : m.rcode = rcodeNameError → m.answer = [] →
      z.soaRR = .ok soa → m.ns = [soa] → Regular z question m
  | empty {soa} : m.rcode = rcodeSuccess → m.answer = [] →
      z.soaRR = .ok soa → m.ns = [soa] → Regular z question m
  | answered : m.rcode = rcodeSuccess → m.answer ≠ [] → m.ns = [] →
      (∀ rr ∈ m.answer, rr.hdr.name = question.name) →
      (question.qtype ≠ typeANY → ∃ t, (t = typeCNAME ∨ t = question.qtype) ∧
        ∀ rr ∈ m.answer, rr.hdr.rrtype = t) → Regular z question m

section
variable {ext : Externals} {env : Env} {srv : ServerConfig} {w : RemoteAddr} {req : Msg} {z : Zone}
variable {question : Question} {msgs : List Msg} {fuel : Nat} {targets : List String} {s : String}
variable {q t : RRType} {labelMatches : List LabelMatch} {found : LabelMatch} {answer : List RR}
variable {qname : String} {location : Option Location} {n : Nat}

/-- The matches of a lookup are for canonical names or for the query type, or labels that stand for
    themselves with type 0. -/
lemma match_type (h : findLabels z targets [typeMF, typeCNAME, q] fuel s = .ok labelMatches)
    (hq : q ≠ typeANY) (hm : found ∈ labelMatches) :
    ∃ k l, z.labels.lookup k = some l ∧ found.label = some l ∧
      (found.type = typeCNAME ∨ found.type = q ∨ found.type = 0) := by
  obtain ⟨a, _, own | ⟨l, hl, rfl⟩⟩ := mem_of_value (value_of_findLabels h) hm
  · cases own with
    | any hany _ _ =>
      have ne : ¬ typeANY ∈ [typeMF, typeCNAME, q] := by
        simp only [List.mem_cons, List.not_mem_nil, or_false, not_or]
        exact ⟨by decide, by decide, hq.symm⟩
      exact (ne hany).elim
    | records hmem _ hmf _ hl _ =>
      refine ⟨_, _, hl, rfl, ?_⟩
      rcases List.mem_cons.mp hmem with e | hmem
      · exact (hmf e).elim
      · rcases List.mem_cons.mp hmem with e | hmem
        · exact .inl e
        · exact .inr (.inl (List.mem_singleton.mp hmem))
  · exact ⟨a, l, hl, rfl, .inr (.inr rfl)⟩

/-- The records of an answer have one type. -/
lemma answer_type (loaded : Loaded ext z) (parses : ParsesSOA ext z)
    (h : findLabels z targets [typeMF, typeCNAME, q] fuel s = .ok labelMatches) (hq : q ≠ typeANY)
    (hm : found ∈ labelMatches) (answers : AnswersWith env qname found answer) (ne : answer ≠ []) :
    ∃ t, (t = typeCNAME ∨ t = q) ∧ ∀ rr ∈ answer, rr.hdr.rrtype = t := by
  obtain ⟨k, l, hl, label, type⟩ := match_type h hq hm
  have notAny : found.type ≠ typeANY := by
    rcases type with e | e | e
    · rw [e]
      decide
    · rwa [e]
    · rw [e]
      decide
  have filed : ∀ rr ∈ answer, rr.hdr.rrtype = found.type ∧ l.recordsOf found.type ≠ none := by
    intro rr hrr
    obtain ⟨l', t, rs, r, label', hrec, hr, ht, rfl⟩ := answers.mem hrr
    rw [label] at label'
    cases label'
    cases ht notAny
    exact ⟨loaded.rrtype parses hl hrec hr, by simp [hrec]⟩
  obtain ⟨rr, hrr⟩ := List.exists_mem_of_ne_nil answer ne
  refine ⟨found.type, ?_, fun rr hrr => (filed rr hrr).1⟩
  rcases type with e | e | e
  · exact .inl e
  · exact .inr e
  · -- nothing is filed under type 0
    exact ((filed rr hrr).2 ((loaded.filed hl).absent (.inr e))).elim

/-- In a zone in service whose names are not addresses: if `serve` returns, and the name is none of the
    server's own, then the first message written is a regular reply. -/
theorem serve_regular (installed : Installed ext z) (parses : ParsesSOA ext z)
    (noParse : z.parseIP = false) {rest : List Question} (hq : req.question = question :: rest)
    (ordinary : ∀ qlabel, getQuestionName z question.name = .ok qlabel →
      firstLabel qlabel ∉ ["_status", "_health", "_country"])
    (h : serve env srv fuel w req z = .ok msgs) :
    ∃ m, msgs.head? = some m ∧ Regular z question m := by
  obtain ⟨m, hm, reply⟩ := serve_eq_ok hq h
  rw [if_neg (by simp [noParse])] at reply
  refine ⟨m, hm, ?_⟩
  obtain ⟨qlabel, labelMatches, hname, hfind, ⟨_, hreply⟩ | ⟨_, hreply⟩⟩ := reply
  · have strange : ¬ ownName srv (askerOf env w req z) qlabel := by
      have ne := ordinary qlabel hname
      simp only [List.mem_cons, List.not_mem_nil, or_false, not_or] at ne
      rintro (⟨_, first | first⟩ | first)
      · exact ne.1 first
      · exact ne.2.1 first
      · exact ne.2.2 first
    rcases noMatch_eq_ok hreply with ⟨own, _⟩ | ⟨_, rcode, answer, soa, hsoa, ns⟩
    · exact (strange own).elim
    · exact .denied rcode answer hsoa ns
  · obtain ⟨rcode, hloop, ⟨answer, soa, hsoa, ns⟩ | ⟨ne, ns⟩⟩ := matched_eq_ok hreply
    · exact .empty rcode answer hsoa ns
    · obtain ⟨pre, _, ⟨empty, _⟩ | ⟨_, found, post, e, answers⟩⟩ := answerLoop_eq_ok hloop
      · exact (ne empty).elim
      · refine .answered rcode ne ns ?_ ?_
        · intro rr hrr
          obtain ⟨_, _, _, r, _, _, _, _, rfl⟩ := answers.mem hrr
          rfl
        · intro notAny
          have mem : found ∈ labelMatches := by simp [e]
          exact answer_type installed.loaded parses hfind notAny mem answers ne

end

/-- The reply to a query for an address that is there. -/
theorem address_answered :
    let req : Msg := { question := [⟨"WWW.example.com.", typeA, classINET⟩] }
    ∃ m, serve smallEnv smallServer 1 smallClient req smallWeb = .ok [m] ∧
      Regular smallWeb ⟨"WWW.example.com.", typeA, classINET⟩ m := by
  intro req
  have installed : Installed smallExternals smallWeb := .accepted smallWeb_accepted
  have parses : ParsesSOA smallExternals smallWeb := by
    intro ns rr h
    cases h
    rfl
  have ordinary : ∀ qlabel, getQuestionName smallWeb "WWW.example.com." = .ok qlabel →
      firstLabel qlabel ∉ ["_status", "_health", "_country"] := by
    intro qlabel h
    have www : getQuestionName smallWeb "WWW.example.com." = .ok "www" := by decide +kernel
    rw [www] at h
    cases h
    decide +kernel
  obtain ⟨m, hm⟩ : ∃ m, serve smallEnv smallServer 1 smallClient req smallWeb = .ok [m] := ⟨_, rfl⟩
  obtain ⟨m', e, regular⟩ := serve_regular installed parses rfl rfl ordinary hm
  cases e
  exact ⟨m, hm, regular⟩

end GeoDNS.Server
