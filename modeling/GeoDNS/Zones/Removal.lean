import GeoDNS.Lib.Run
import GeoDNS.Zones.ZoneStats
import Mathlib.Logic.Function.Basic

/-!
# Removing zones while they are queried

The removal of a zone in `MuxManager.reload` and the queries of `Server.serve` share the statistics of
the zone. A removal closes the two buffers (`Zone.Close`), takes the zone out of the zone list and
deregisters its handler, in this order; a query looks up the handler, which keeps the zone, and then
adds to the two buffers. Any number of both go on at the same time, one atomic step after the other.

The buffers are closed while the handler is still registered, and no one waits for the queries that
have looked it up, so a query can come to a closed buffer (`query_panics`). It cannot in the runs where
each step is `Quiet`, and every step that is not leads to a panic as soon as a query goes on
(`removal_safe_iff_quiet`).
-/

namespace GeoDNS.Zones
open GeoDNS.Lib

/-- How far the removal of a zone has come. -/
inductive Phase where
  | serving
  | labelsClosed
  | clientsClosed
  | unlisted
  | removed

/-- How far a query has come. -/
inductive QueryState where
  | waiting
  -- the handler of a zone is looked up; both `Add`s are to come
  | found (zone label client : String)
  -- `ClientStats.Add` is to come
  | counted (zone client : String)
  | past
  | refused
  | panicked

/-- All zones with their statistics, by name, and all queries. -/
structure Traffic where
  labelStats : String → ZoneLabelStats
  clientStats : String → ZoneLabelStats
  phase : String → Phase
  query : Nat → QueryState

/-- One step of a removal or of a query. -/
inductive Act where
  | closeLabels (zone : String)
  | closeClients (zone : String)
  | unlist (zone : String)
  | deregister (zone : String)
  | lookup (q : Nat) (zone label client : String)
  | addLabel (q : Nat)
  | addClient (q : Nat)

/-- Every zone is served with the buffers that `SetupMetrics` makes, and no query has begun. -/
def startTraffic : Traffic where
  labelStats _ := newZoneLabelStats 10000
  clientStats _ := newZoneLabelStats 10000
  phase _ := .serving
  query _ := .waiting

/-- The state with another phase of a zone. -/
def Traffic.setPhase (s : Traffic) (z : String) (p : Phase) : Traffic :=
  { s with phase := Function.update s.phase z p }

/-- The state with another query. -/
def Traffic.setQuery (s : Traffic) (q : Nat) (st : QueryState) : Traffic :=
  { s with query := Function.update s.query q st }

/-- The phases when the one of a zone is set. -/
lemma phase_setPhase (s : Traffic) (z z' : String) (p : Phase) :
    (s.setPhase z p).phase z' = if z' = z then p else s.phase z' :=
  Function.update_apply s.phase z p z'

/-- The queries when one of them is set. -/
lemma query_setQuery (s : Traffic) (q q' : Nat) (st : QueryState) :
    (s.setQuery q st).query q' = if q' = q then st else s.query q' :=
  Function.update_apply s.query q st q'

/-- The steps. -/
inductive Step : Traffic → Act → Traffic → Prop
  | closeLabels {s z} : s.phase z = .serving →
      Step s (.closeLabels z) ({ s with
        labelStats := Function.update s.labelStats z (s.labelStats z).close }.setPhase z .labelsClosed)
  | closeClients {s z} : s.phase z = .labelsClosed →
      Step s (.closeClients z) ({ s with
        clientStats := Function.update s.clientStats z (s.clientStats z).close }.setPhase z
          .clientsClosed)
  | unlist {s z} : s.phase z = .clientsClosed → Step s (.unlist z) (s.setPhase z .unlisted)
  | deregister {s z} : s.phase z = .unlisted → Step s (.deregister z) (s.setPhase z .removed)
  | lookup {s q z label client} : s.query q = .waiting → s.phase z ≠ .removed →
      Step s (.lookup q z label client) (s.setQuery q (.found z label client))
  | lookupGone {s q z label client} : s.query q = .waiting → s.phase z = .removed →
      Step s (.lookup q z label client) (s.setQuery q .refused)
  | addLabel {s q z label client zs} : s.query q = .found z label client →
      (s.labelStats z).add label = .ok zs →
      Step s (.addLabel q) ({ s with
        labelStats := Function.update s.labelStats z zs }.setQuery q (.counted z client))
  | addLabelPanic {s q z label client p} : s.query q = .found z label client →
      (s.labelStats z).add label = .panic p → Step s (.addLabel q) (s.setQuery q .panicked)
  | addClient {s q z client zs} : s.query q = .counted z client →
      (s.clientStats z).add client = .ok zs →
      Step s (.addClient q) ({ s with
        clientStats := Function.update s.clientStats z zs }.setQuery q .past)
  | addClientPanic {s q z client p} : s.query q = .counted z client →
      (s.clientStats z).add client = .panic p → Step s (.addClient q) (s.setQuery q .panicked)

/-- The query has yet to add to the label statistics of the zone. -/
def Traffic.OwesLabel (s : Traffic) (z : String) : Prop :=
  ∃ q label client, s.query q = .found z label client

/-- The query has yet to add to the client statistics of the zone. -/
def Traffic.OwesClient (s : Traffic) (z : String) : Prop :=
  s.OwesLabel z ∨ ∃ q client, s.query q = .counted z client

/-- A buffer is closed only when no query has yet to add to it, and no handler is looked up while its
    zone is being removed. -/
def Quiet (s : Traffic) : Act → Prop
  | .closeLabels z => ¬ s.OwesLabel z
  | .closeClients z => ¬ s.OwesClient z
  | .lookup _ z _ _ => s.phase z = .serving ∨ s.phase z = .removed
  | _ => True

/-! ## Quiet runs -/

/-- The state of one zone: a buffer that is not closed takes labels, and no query has yet to add to one
    that is. -/
structure Traffic.Sound (s : Traffic) (z : String) : Prop where
  labels : s.phase z = .serving → (s.labelStats z).Open
  clients : s.phase z = .serving ∨ s.phase z = .labelsClosed → (s.clientStats z).Open
  labelsClosed : s.phase z ≠ .serving → (s.labelStats z).log = [] ∧ ¬ s.OwesLabel z
  clientsClosed : s.phase z ≠ .serving → s.phase z ≠ .labelsClosed →
    (s.clientStats z).log = [] ∧ ¬ s.OwesClient z

section
variable {s t : Traffic} {a : Act} {z z' : String} {q : Nat} {st : QueryState}

/-- At the start every zone is served. -/
lemma sound_start (z : String) : startTraffic.Sound z where
  labels _ := open_newZoneLabelStats (by decide)
  clients _ := open_newZoneLabelStats (by decide)
  labelsClosed ne := (ne rfl).elim
  clientsClosed ne _ := (ne rfl).elim

/-- A state that looks the same to a zone. -/
lemma Traffic.Sound.congr (h : s.Sound z) (phase : t.phase z = s.phase z)
    (labels : t.labelStats z = s.labelStats z) (clients : t.clientStats z = s.clientStats z)
    (owesLabel : t.OwesLabel z → s.OwesLabel z) (owesClient : t.OwesClient z → s.OwesClient z) :
    t.Sound z where
  labels e := labels ▸ h.labels (phase ▸ e)
  clients e := clients ▸ h.clients (phase ▸ e)
  labelsClosed ne := by
    obtain ⟨log, none⟩ := h.labelsClosed (phase ▸ ne)
    exact ⟨labels ▸ log, fun owes => none (owesLabel owes)⟩
  clientsClosed ne ne' := by
    obtain ⟨log, none⟩ := h.clientsClosed (phase ▸ ne) (phase ▸ ne')
    exact ⟨clients ▸ log, fun owes => none (owesClient owes)⟩

/-- A query that moves on owes what its new state says, and the others what they owed. -/
lemma owesLabel_setQuery (h : (s.setQuery q st).OwesLabel z) :
    s.OwesLabel z ∨ ∃ label client, st = .found z label client := by
  obtain ⟨q', label, client, h⟩ := h
  rw [query_setQuery] at h
  split at h
  · exact .inr ⟨label, client, h⟩
  · exact .inl ⟨q', label, client, h⟩

/-- Only a query that found the zone has a client to add. -/
lemma owesClient_setQuery (h : (s.setQuery q st).OwesClient z) :
    s.OwesClient z ∨ (∃ label client, st = .found z label client) ∨ ∃ client, st = .counted z client := by
  rcases h with h | ⟨q', client, h⟩
  · rcases owesLabel_setQuery h with h | h
    · exact .inl (.inl h)
    · exact .inr (.inl h)
  · rw [query_setQuery] at h
    split at h
    · exact .inr (.inr ⟨client, h⟩)
    · exact .inl (.inr ⟨q', client, h⟩)

/-- A query that moves on to a state where it owes nothing to the zone. -/
lemma Traffic.Sound.setQuery (h : s.Sound z) (q : Nat) (found : ∀ label client, st ≠ .found z label client)
    (counted : ∀ client, st ≠ .counted z client) : (s.setQuery q st).Sound z := by
  refine h.congr rfl rfl rfl ?_ ?_
  · intro owes
    rcases owesLabel_setQuery owes with owes | ⟨label, client, e⟩
    · exact owes
    · exact (found label client e).elim
  · intro owes
    rcases owesClient_setQuery owes with owes | ⟨label, client, e⟩ | ⟨client, e⟩
    · exact owes
    · exact (found label client e).elim
    · exact (counted client e).elim

/-- A removal that moves on behind both buffers. -/
lemma Traffic.Sound.setPhase (h : s.Sound z) (hz : s.phase z' ≠ .serving)
    (hz' : s.phase z' ≠ .labelsClosed) {p : Phase} (hp : p ≠ .serving) (hp' : p ≠ .labelsClosed) :
    (s.setPhase z' p).Sound z := by
  by_cases e : z = z'
  · subst e
    have now : (s.setPhase z p).phase z = p := by rw [phase_setPhase, if_pos rfl]
    constructor
    · intro e
      exact (hp (now.symm.trans e)).elim
    · rintro (e | e)
      · exact (hp (now.symm.trans e)).elim
      · exact (hp' (now.symm.trans e)).elim
    · intro _
      exact h.labelsClosed hz
    · intro _ _
      exact h.clientsClosed hz hz'
  · refine h.congr ?_ rfl rfl id id
    rw [phase_setPhase, if_neg e]

/-- Closing the label statistics keeps a zone sound if no query is to add to them. -/
lemma Traffic.Sound.closeLabels (h : s.Sound z) (hz : s.phase z' = .serving) (quiet : ¬ s.OwesLabel z') :
    ({ s with labelStats := Function.update s.labelStats z' (s.labelStats z').close }.setPhase z'
      .labelsClosed).Sound z := by
  by_cases e : z = z'
  · subst e
    constructor
    · intro e
      rw [phase_setPhase, if_pos rfl] at e
      cases e
    · intro _
      exact h.clients (.inl hz)
    · intro _
      refine ⟨?_, quiet⟩
      show (Function.update s.labelStats z _ z).log = []
      rw [Function.update_self]
      rfl
    · intro _ ne
      rw [phase_setPhase, if_pos rfl] at ne
      exact (ne rfl).elim
  · refine h.congr ?_ ?_ rfl id id
    · rw [phase_setPhase, if_neg e]
    · exact Function.update_of_ne e _ _

/-- Closing the client statistics keeps a zone sound if no query is to add to them. -/
lemma Traffic.Sound.closeClients (h : s.Sound z) (hz : s.phase z' = .labelsClosed)
    (quiet : ¬ s.OwesClient z') :
    ({ s with clientStats := Function.update s.clientStats z' (s.clientStats z').close }.setPhase z'
      .clientsClosed).Sound z := by
  by_cases e : z = z'
  · subst e
    constructor
    · intro e
      rw [phase_setPhase, if_pos rfl] at e
      cases e
    · rintro (e | e)
      · rw [phase_setPhase, if_pos rfl] at e
        cases e
      · rw [phase_setPhase, if_pos rfl] at e
        cases e
    · intro _
      exact h.labelsClosed (by rw [hz]; nofun)
    · intro _ _
      refine ⟨?_, quiet⟩
      show (Function.update s.clientStats z _ z).log = []
      rw [Function.update_self]
      rfl
  · refine h.congr ?_ rfl ?_ id id
    · rw [phase_setPhase, if_neg e]
    · exact Function.update_of_ne e _ _

/-- A zone that is served and whose buffers are open is sound, whatever the queries owe. -/
lemma sound_of_serving (serving : s.phase z = .serving) (labels : (s.labelStats z).Open)
    (clients : (s.clientStats z).Open) : s.Sound z where
  labels _ := labels
  clients _ := clients
  labelsClosed ne := (ne serving).elim
  clientsClosed ne _ := (ne serving).elim

/-- Only the zones that are not being removed have queries with both `Add`s to come. -/
lemma Traffic.Sound.serving_of_owesLabel (h : s.Sound z) (owes : s.OwesLabel z) :
    s.phase z = .serving := by
  by_contra ne
  exact (h.labelsClosed ne).2 owes

/-- As long as there is a client to add, its statistics are open. -/
lemma Traffic.Sound.open_of_owesClient (h : s.Sound z) (owes : s.OwesClient z) :
    s.phase z = .serving ∨ s.phase z = .labelsClosed := by
  by_contra ne
  obtain ⟨ne, ne'⟩ := not_or.mp ne
  exact (h.clientsClosed ne ne').2 owes

/-- All zones are sound and no query has panicked. -/
def Traffic.Safe (s : Traffic) : Prop :=
  (∀ z, s.Sound z) ∧ ∀ q, s.query q ≠ .panicked

/-- At the start no query has panicked. -/
lemma safe_start : startTraffic.Safe :=
  ⟨sound_start, fun _ => nofun⟩

/-- No query has panicked after one is set to a state that is no panic. -/
lemma setQuery_ne_panicked (h : ∀ q, s.query q ≠ .panicked) (q : Nat) (ne : st ≠ .panicked) (q' : Nat) :
    (s.setQuery q st).query q' ≠ .panicked := by
  rw [query_setQuery]
  split
  · exact ne
  · exact h q'

/-- In a safe state the next `Add` of a query returns, whatever step comes next. -/
theorem Traffic.Safe.not_panicked (h : s.Safe) (step : Step s a t) : ∀ q, t.query q ≠ .panicked := by
  cases step with
  | closeLabels hz => exact h.2
  | closeClients hz => exact h.2
  | unlist hz => exact h.2
  | deregister hz => exact h.2
  | lookup hq hz => exact setQuery_ne_panicked h.2 _ nofun
  | lookupGone hq hz => exact setQuery_ne_panicked h.2 _ nofun
  | addLabel hq hadd => exact setQuery_ne_panicked h.2 _ nofun
  | @addLabelPanic q z label client p hq hadd =>
    have serving := (h.1 z).serving_of_owesLabel ⟨q, label, client, hq⟩
    obtain ⟨zs', hadd', _⟩ := ((h.1 z).labels serving).add label
    rw [hadd] at hadd'
    cases hadd'
  | addClient hq hadd => exact setQuery_ne_panicked h.2 _ nofun
  | @addClientPanic q z client p hq hadd =>
    have phase := (h.1 z).open_of_owesClient (.inr ⟨q, client, hq⟩)
    obtain ⟨zs', hadd', _⟩ := ((h.1 z).clients phase).add client
    rw [hadd] at hadd'
    cases hadd'

/-- Quiet steps keep every zone sound. -/
lemma Traffic.Safe.sound (h : s.Safe) (step : Step s a t) (quiet : Quiet s a) (z' : String) :
    t.Sound z' := by
  have panic := h.not_panicked step
  cases step with
  | closeLabels hz => exact (h.1 z').closeLabels hz quiet
  | closeClients hz => exact (h.1 z').closeClients hz quiet
  | unlist hz => exact (h.1 z').setPhase (by rw [hz]; nofun) (by rw [hz]; nofun) nofun nofun
  | deregister hz => exact (h.1 z').setPhase (by rw [hz]; nofun) (by rw [hz]; nofun) nofun nofun
  | @lookup q z label client hq hz =>
    have serving : s.phase z = .serving := by
      rcases quiet with e | e
      · exact e
      · exact (hz e).elim
    by_cases e : z' = z
    · subst e
      exact sound_of_serving serving ((h.1 z').labels serving) ((h.1 z').clients (.inl serving))
    · exact (h.1 z').setQuery q (fun _ _ eq => e (by cases eq; rfl)) nofun
  | lookupGone hq hz => exact (h.1 z').setQuery _ nofun nofun
  | @addLabel q z label client zs hq hadd =>
    have serving := (h.1 z).serving_of_owesLabel ⟨q, label, client, hq⟩
    by_cases e : z' = z
    · subst e
      obtain ⟨zs', hadd', isOpen⟩ := ((h.1 z').labels serving).add label
      obtain rfl : zs = zs' := Res.ok.inj (hadd.symm.trans hadd')
      refine sound_of_serving serving ?_ ((h.1 z').clients (.inl serving))
      show (Function.update s.labelStats z' zs z').Open
      rwa [Function.update_self]
    · have other : (s.setQuery q (.counted z client)).Sound z' :=
        (h.1 z').setQuery q nofun (fun _ eq => e (by cases eq; rfl))
      exact other.congr rfl (Function.update_of_ne e _ _) rfl id id
  | @addClient q z client zs hq hadd =>
    have phase := (h.1 z).open_of_owesClient (.inr ⟨q, client, hq⟩)
    have other : (s.setQuery q .past).Sound z' := (h.1 z').setQuery q nofun nofun
    by_cases e : z' = z
    · subst e
      obtain ⟨zs', hadd', isOpen⟩ := ((h.1 z').clients phase).add client
      obtain rfl : zs = zs' := Res.ok.inj (hadd.symm.trans hadd')
      constructor
      · exact other.labels
      · intro _
        show (Function.update s.clientStats z' zs z').Open
        rwa [Function.update_self]
      · exact other.labelsClosed
      · intro ne ne'
        exact (phase.elim ne ne').elim
    · exact other.congr rfl rfl (Function.update_of_ne e _ _) id id
  | @addLabelPanic q =>
    exact (panic q (by rw [query_setQuery, if_pos rfl])).elim
  | @addClientPanic q =>
    exact (panic q (by rw [query_setQuery, if_pos rfl])).elim

/-- A quiet step keeps the state safe. -/
lemma Traffic.Safe.step (h : s.Safe) (step : Guarded Quiet Step s a t) : t.Safe :=
  ⟨h.sound step.2 step.1, h.not_panicked step.2⟩

/-! ## Steps that are not quiet -/

/-- A step that is not quiet leaves a query behind that panics with its next step. -/
theorem panics_of_not_quiet (h : s.Safe) (step : Step s a t) (loud : ¬ Quiet s a) :
    ∃ q b u, Step t b u ∧ u.query q = .panicked := by
  have panics : ∀ {t : Traffic} {q} b, Step t b (t.setQuery q .panicked) →
      ∃ q b u, Step t b u ∧ u.query q = .panicked := by
    intro t q b step
    exact ⟨q, b, _, step, by rw [query_setQuery, if_pos rfl]⟩
  cases step with
  | @closeLabels z hz =>
    obtain ⟨q, label, client, hq⟩ := not_not.mp loud
    refine panics (.addLabel q) (.addLabelPanic hq (ZoneLabelStats.add_closed ?_ label))
    show (Function.update s.labelStats z _ z).log = []
    rw [Function.update_self]
    rfl
  | @closeClients z hz =>
    rcases not_not.mp loud with ⟨q, label, client, hq⟩ | ⟨q, client, hq⟩
    · have closed := (h.1 z).labelsClosed (by rw [hz]; nofun)
      exact (closed.2 ⟨q, label, client, hq⟩).elim
    · refine panics (.addClient q) (.addClientPanic hq (ZoneLabelStats.add_closed ?_ client))
      show (Function.update s.clientStats z _ z).log = []
      rw [Function.update_self]
      rfl
  | @lookup q z label client hq hz =>
    obtain ⟨ne, _⟩ := not_or.mp loud
    have closed := (h.1 z).labelsClosed ne
    have hq' : (s.setQuery q (.found z label client)).query q = .found z label client := by
      rw [query_setQuery, if_pos rfl]
    exact panics (.addLabel q) (.addLabelPanic hq' (ZoneLabelStats.add_closed closed.1 label))
  | lookupGone hq hz => exact (loud (.inr hz)).elim
  | unlist hz => exact (loud trivial).elim
  | deregister hz => exact (loud trivial).elim
  | addLabel hq hadd => exact (loud trivial).elim
  | addLabelPanic hq hadd => exact (loud trivial).elim
  | addClient hq hadd => exact (loud trivial).elim
  | addClientPanic hq hadd => exact (loud trivial).elim

end

/-- No query has panicked after a run of quiet steps; and of the steps that may come next, the quiet ones
    and no others leave no query behind that panics with its own next step. -/
theorem removal_safe_iff_quiet {acts : List Act} {s : Traffic}
    (run : Run (Guarded Quiet Step) startTraffic acts s) :
    (∀ q, s.query q ≠ .panicked) ∧
    ∀ a t, Step s a t → (Quiet s a ↔ ∀ b u q, Step t b u → u.query q ≠ .panicked) := by
  have safe : s.Safe := run.invariant safe_start Traffic.Safe.step
  refine ⟨safe.2, fun a t step => ⟨?_, ?_⟩⟩
  · intro quiet b u q next
    exact (safe.step ⟨quiet, step⟩).not_panicked next q
  · intro none
    by_contra loud
    obtain ⟨q, b, u, next, panicked⟩ := panics_of_not_quiet safe step loud
    exact none b u q next panicked

section
variable {s0 s : Traffic} {acts : List Act} {z : String} {q : Nat}

/-- One more quiet step. -/
lemma quiet_step {a : Act} {t : Traffic} (run : Run (Guarded Quiet Step) s0 acts s) (step : Step s a t)
    (quiet : Quiet s a) : Run (Guarded Quiet Step) s0 (acts ++ [a]) t :=
  .snoc run ⟨quiet, step⟩

/-- A query of a zone that is served can go through all its steps. -/
lemma quiet_query (run : Run (Guarded Quiet Step) s0 acts s) (safe : s.Safe) (waiting : s.query q = .waiting)
    (serving : s.phase z = .serving) (label client : String) :
    ∃ t, Run (Guarded Quiet Step) s0
        (acts ++ [.lookup q z label client] ++ [.addLabel q] ++ [.addClient q]) t ∧
      t.phase = s.phase ∧ ∀ q', t.query q' = if q' = q then .past else s.query q' := by
  obtain ⟨labels, addLabel, _⟩ := ((safe.1 z).labels serving).add label
  obtain ⟨clients, addClient, _⟩ := ((safe.1 z).clients (.inl serving)).add client
  have now : ∀ (u : Traffic) st, (u.setQuery q st).query q = st := fun u st => by
    rw [query_setQuery, if_pos rfl]
  have lookup : Step s (.lookup q z label client) _ := .lookup waiting (by rw [serving]; nofun)
  have found := quiet_step run lookup (.inl serving)
  have counted := quiet_step found (.addLabel (now _ (.found z label client)) addLabel) trivial
  have past := quiet_step counted (.addClient (now _ (.counted z client)) addClient) trivial
  refine ⟨_, past, rfl, ?_⟩
  intro q'
  rw [query_setQuery]
  split_ifs with e
  · rfl
  · show ((_ : Traffic).setQuery q _).query q' = _
    rw [query_setQuery, if_neg e]
    show (s.setQuery q _).query q' = _
    rw [query_setQuery, if_neg e]

/-- A zone can be removed once no query owes it anything. -/
lemma quiet_removal (run : Run (Guarded Quiet Step) s0 acts s) (serving : s.phase z = .serving)
    (idle : ¬ s.OwesClient z) :
    ∃ t, Run (Guarded Quiet Step) s0
        (acts ++ [.closeLabels z] ++ [.closeClients z] ++ [.unlist z] ++ [.deregister z]) t ∧
      t.phase z = .removed ∧ t.query = s.query := by
  have now : ∀ (u : Traffic) p, (u.setPhase z p).phase z = p := fun u p => by
    rw [phase_setPhase, if_pos rfl]
  have labelsClosed := quiet_step run (.closeLabels serving) (fun owes => idle (.inl owes))
  have clientsClosed := quiet_step labelsClosed (.closeClients (now _ .labelsClosed)) idle
  have unlisted := quiet_step clientsClosed (.unlist (now _ .clientsClosed)) trivial
  have removed := quiet_step unlisted (.deregister (now _ .unlisted)) trivial
  exact ⟨_, removed, now _ .removed, rfl⟩

end

/-- A query looks up the handler of `example.com` and adds to both statistics, then the zone is removed, and
    another query does not find it any more. -/
theorem removal_is_quiet : ∃ s, Run (Guarded Quiet Step) startTraffic
      [.lookup 0 "example.com" "www" "192.0.2.1", .addLabel 0, .addClient 0, .closeLabels "example.com",
        .closeClients "example.com", .unlist "example.com", .deregister "example.com",
        .lookup 1 "example.com" "www" "192.0.2.2"] s ∧
    s.query 0 = .past ∧ s.query 1 = .refused ∧ s.phase "example.com" = .removed ∧
    ∀ q, s.query q ≠ .panicked := by
  obtain ⟨s, queried, phase, queries⟩ :=
    quiet_query .nil safe_start rfl (z := "example.com") (q := 0) rfl "www" "192.0.2.1"
  have idle : ¬ s.OwesClient "example.com" := by
    rintro (⟨q, label, client, h⟩ | ⟨q, client, h⟩)
    · rw [queries] at h
      split at h
      · cases h
      · cases h
    · rw [queries] at h
      split at h
      · cases h
      · cases h
  obtain ⟨t, removed, gone, same⟩ := quiet_removal queried (by rw [phase]; rfl) idle
  have past : t.query 0 = .past := by rw [same, queries, if_pos rfl]
  have waiting : t.query 1 = .waiting := by rw [same, queries, if_neg (by decide)]; rfl
  have lookup : Step t (.lookup 1 "example.com" "www" "192.0.2.2") _ := .lookupGone waiting gone
  have run := quiet_step removed lookup (.inr gone)
  refine ⟨_, run, ?_, ?_, gone, (removal_safe_iff_quiet run).1⟩
  · rw [query_setQuery, if_neg (by decide), past]
  · rw [query_setQuery, if_pos rfl]

/-- A query looks up the handler of `example.com`, the removal of the zone closes the label statistics, and
    the query panics. -/
theorem query_panics :
    ∃ s, Run Step startTraffic
        [.lookup 0 "example.com" "www" "192.0.2.1", .closeLabels "example.com", .addLabel 0] s ∧
      s.query 0 = .panicked := by
  refine ⟨_, .snoc (.snoc (.snoc .nil (.lookup rfl nofun)) (.closeLabels rfl))
    (.addLabelPanic (z := "example.com") (p := .index) rfl ?_), rfl⟩
  rfl

end GeoDNS.Zones
