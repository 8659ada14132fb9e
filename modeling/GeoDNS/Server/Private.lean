import GeoDNS.Server.Dispatch

/-!
# What the server tells about itself

Under the name `_status` the server gives its version, its host name and its age. It does so for clients on
the loopback interface, or for all of them if it is told so. The address that counts is the one that talks to
the server (`realIP_isLoopback`): neither the client subnet of the request nor what `GetTargets` does to the
address makes a difference. So the answers to other clients do not depend on the status at all, and on the
identity of the server only under the name `_country` (`status_private`).
-/

namespace GeoDNS.Server
open GeoDNS.Lib GeoDNS.Dns GeoDNS.Zones GeoDNS.Targeting

section
variable {env : Env} {srv : ServerConfig} {w : RemoteAddr} {req : Msg} {z : Zone} {fuel : Nat}

/-- `GetTargets` may clear the last byte of an address, but not take it out of its network. -/
lemma ipTargets_isLoopback (ip : IP) : (ipTargets ip).2.isLoopback = ip.isLoopback := by
  unfold ipTargets
  cases h : ip.to4 with
  | none => rfl
  | some ip4 =>
    dsimp only
    split
    · rfl
    · unfold IP.to4 at h
      split_ifs at h with four sixteen
      · match ip, four with
        | [a, b, c, d], _ => rfl
      · obtain ⟨length, mapped⟩ := sixteen
        have bytes : ip = IP.v4InV6 ++ ip.drop 12 := by rw [← mapped, List.take_append_drop]
        have left : (ip.drop 12).length = 4 := by rw [List.length_drop, length]
        rw [bytes]
        match ip.drop 12, left with
        | [a, b, c, d], _ => rfl

/-- Clearing the last byte does not make an address a loopback one. -/
lemma getTargets_isLoopback (g : Option Provider) (t : TargetOptions) (ip : IP) (hasClosest : Bool) :
    (getTargets g t ip hasClosest).2.isLoopback = ip.isLoopback := by
  cases names : t.has targetIP with
  | false => simp [getTargets, names]
  | true =>
    have bytes : (getTargets g t ip hasClosest).2 = (ipTargets ip).2 := by simp [getTargets, names]
    rw [bytes, ipTargets_isLoopback]

/-- Whether a client is on the loopback interface is decided by its own address. -/
lemma realIP_isLoopback (env : Env) (w : RemoteAddr) (req : Msg) (z : Zone) :
    (askerOf env w req z).realIP.isLoopback = (w.ip.getD []).isLoopback := by
  unfold askerOf
  dsimp only
  split_ifs with own
  · rw [getTargets_isLoopback]
  · rfl

/-- Remote clients get no debug information from a server that is not open to them. -/
lemma permitDebug_remote (closed : srv.publicDebugQueries = false)
    (remote : (w.ip.getD []).isLoopback = false) : permitDebug srv (askerOf env w req z) = false := by
  unfold permitDebug
  rw [closed, realIP_isLoopback, remote]
  rfl

/-- The answers do not depend on the text of the status. -/
lemma answerLoop_status (t qname : String) (found : List LabelMatch) (location : Option Location) (k : Nat) :
    answerLoop { env with statusText := t } qname found location k =
      answerLoop env qname found location k := by
  induction found generalizing location k with
  | nil => rfl
  | cons m found ih =>
    unfold answerLoop
    simp only [ih]

/-- A zone answers a client alike whatever the status of the server is. -/
lemma serve_status (closed : srv.publicDebugQueries = false)
    (remote : (w.ip.getD []).isLoopback = false) (t : String) :
    serve { env with statusText := t } srv fuel w req z = serve env srv fuel w req z := by
  have unmatched : ∀ question qlabel,
      noMatch { env with statusText := t } srv w req z (askerOf env w req z) question qlabel =
        noMatch env srv w req z (askerOf env w req z) question qlabel := by
    intro question qlabel
    unfold noMatch
    rw [permitDebug_remote closed remote]
    simp only [Bool.false_eq_true, false_and, if_false]
    rfl
  have answered : ∀ question found,
      matched { env with statusText := t } req z (askerOf env w req z) question found =
        matched env req z (askerOf env w req z) question found := by
    intro question found
    unfold matched
    rw [answerLoop_status]
  have asker : askerOf { env with statusText := t } w req z = askerOf env w req z := rfl
  unfold serve
  simp only [asker, unmatched, answered]

/-- A name other than `_country` is answered alike whatever the server is called. -/
lemma serve_identity {question : Question} {rest : List Question} (asks : req.question = question :: rest)
    (other : ∀ s, getQuestionName z question.name = .ok s → firstLabel s ≠ "_country") (id ip : String) :
    serve env { srv with id := id, ip := ip } fuel w req z = serve env srv fuel w req z := by
  unfold serve
  rw [asks]
  dsimp only
  cases name : getQuestionName z question.name with
  | ok s =>
    have unmatched : noMatch env { srv with id := id, ip := ip } w req z (askerOf env w req z) question s =
        noMatch env srv w req z (askerOf env w req z) question s := by
      unfold noMatch
      simp only [if_neg (other s name)]
      rfl
    simp only [Res.ok_bind, unmatched]
  | panic p => rfl
  | diverge => rfl

/-- For a server that keeps its debugging names to the loopback interface and a client elsewhere, whatever
    zones are registered and whatever the client asks: what it is sent does not depend on the version, the
    host name and the age of the server, and it depends on the identity of the server only if the name that
    is asked for begins, within its zone, with `_country`. -/
theorem status_private (closed : srv.publicDebugQueries = false)
    (remote : (w.ip.getD []).isLoopback = false) (m : Muxes) (req : Msg) :
    (∀ t, serveDNS { env with statusText := t } srv fuel w m req = serveDNS env srv fuel w m req) ∧
    ((∀ question z s, req.question.head? = some question → m.mux.handlerFor req = some (.zone z) →
        getQuestionName z question.name = .ok s → firstLabel s ≠ "_country") →
      ∀ id ip, serveDNS env { srv with id := id, ip := ip } fuel w m req =
        serveDNS env srv fuel w m req) := by
  unfold serveDNS
  cases handler : m.mux.handlerFor req with
  | none => exact ⟨fun _ => rfl, fun _ _ _ => rfl⟩
  | some h =>
    cases h with
    | refuse => exact ⟨fun _ => rfl, fun _ _ _ => rfl⟩
    | zone z =>
      refine ⟨fun t => serve_status closed remote t, ?_⟩
      intro other id ip
      show serve env { srv with id := id, ip := ip } fuel w req z = serve env srv fuel w req z
      cases asks : req.question with
      | nil =>
        unfold serve
        rw [asks]
      | cons question rest =>
        exact serve_identity asks (fun s name => other question z s (by rw [asks]; rfl) rfl name) id ip

end

/-- A query for the status of the server. -/
def statusQuery : Msg :=
  { question := [⟨"_status.example.com.", typeTXT, classINET⟩] }

/-- A client elsewhere asks for it. -/
theorem stranger_told_nothing : ∃ pgeodns m, pgeodnsZone smallSite = .ok pgeodns ∧
    muxesAfter (smallRun pgeodns "example.com.json").reg = .ok m ∧
    ∀ t, serveDNS { smallEnv with statusText := t } smallServer 1 smallClient m statusQuery =
      serveDNS smallEnv smallServer 1 smallClient m statusQuery := by
  obtain ⟨pgeodns, m, start, muxes⟩ : ∃ pgeodns m, pgeodnsZone smallSite = .ok pgeodns ∧
      muxesAfter (smallRun pgeodns "example.com.json").reg = .ok m := ⟨_, _, rfl, rfl⟩
  exact ⟨pgeodns, m, start, muxes, (status_private rfl rfl m statusQuery).1⟩

end GeoDNS.Server
