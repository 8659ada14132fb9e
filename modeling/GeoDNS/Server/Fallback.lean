import GeoDNS.Server.Serve
import GeoDNS.Zones.Installed

/-!
# The fallback from target to target

The targets of a client go from the most specific one to the global `@`, and each may have its own label
for a name. `serve` answers from the first target that has a record to serve, canonical names before
records of the query type; what is there but not healthy is passed over. `fallback_order` says so for
zones without aliases. The argument is that the matches come in this order (`findLabels_plain`), and
that whether `Picker` returns a record is the same for all random choices and places (`serves_iff`).
There is an answer as long as the weights do not overflow; otherwise `Picker` may panic at a target before
one that could be served (`heavy_target_panics`).
-/

namespace GeoDNS.Server
open GeoDNS.Lib GeoDNS.Dns GeoDNS.Health GeoDNS.Targeting GeoDNS.Zones

/-- A zone without aliases. -/
def Plain (z : Zone) : Prop :=
  ∀ {k l}, z.labels.lookup k = some l → l.recordsOf typeMF = none

/-- A zone with weights and limits that are not negative, and without a label and type whose weights have a
    sum of 2^63 - 1 or more. -/
structure Drawable (z : Zone) : Prop where
  moderate : ∀ {k l t rs}, z.labels.lookup k = some l → l.recordsOf t = some rs → Moderate rs
  maxHosts : ∀ {k l}, z.labels.lookup k = some l → 0 ≤ l.maxHosts

/-- `Picker` returns a record of this type. -/
def Serves (env : Env) (l : Label) (t : RRType) : Prop :=
  ∃ chance location k servers k',
    picker env.status env.geod chance l t l.maxHosts location k = .ok (servers, k') ∧ servers ≠ []

/-- A label as a match for one of its types, if it has records of it. -/
def typeMatches (l : Label) (t : RRType) : List LabelMatch :=
  match l.recordsOf t with
  | some (_ :: _) => [⟨some l, t⟩]
  | _ => []

/-- The matches of one target. -/
def targetMatches (z : Zone) (s : String) (q : RRType) (target : String) : List LabelMatch :=
  match z.labels.lookup (targetName s target) with
  | some l => typeMatches l typeCNAME ++ typeMatches l q
  | none => []

section
variable {ext : Externals} {env : Env} {z : Zone} {targets : List String} {s k : String}
variable {q t : RRType} {l : Label}

/-! ## The matches -/

variable {chance : Chance} {location : Option Location} {n n' : Nat} {servers : List (Option Record)}

/-- Whether `Picker` returns a record does not depend on its choices. -/
theorem serves_iff (h : picker env.status env.geod chance l t l.maxHosts location n = .ok (servers, n')) :
    Serves env l t ↔ servers ≠ [] := by
  refine ⟨?_, fun ne => ⟨chance, location, n, servers, n', h, ne⟩⟩
  rintro ⟨chance2, location2, n2, servers2, n2', h2, ne⟩
  rwa [ne_eq, picker_eq_nil h, ← picker_eq_nil h2]

/-- `Picker` for one type returns, and fills all its slots, if the health of the records is known. -/
lemma pickType_fills (drawable : Drawable z) (filed : Filed l) (hl : z.labels.lookup k = some l)
    (known : ∀ rs, l.recordsOf t = some rs → ∀ r ∈ rs, ∃ st, env.status r.test = .ok st)
    (location : Option Location) (n : Nat) :
    ∃ xs n', pickType env.status env.geod chance l t l.maxHosts location n = .ok (xs, n') ∧
      ∀ x ∈ xs, ∃ r, x = some r := by
  cases hrec : l.recordsOf t with
  | none =>
    rw [pickType, hrec]
    exact ⟨[], n, rfl, by simp⟩
  | some labelRR =>
    obtain ⟨cands, sum, hcand⟩ : ∃ cands sum, candidates env.status l t labelRR = .ok (cands, sum) :=
      candidates_returns (known labelRR hrec)
    obtain ⟨xs, n', hx, filled, _⟩ := pickType_returns env.geod chance location n hrec hcand
      (filed.weights hrec) (drawable.moderate hl hrec) (drawable.maxHosts hl)
    refine ⟨xs, n', hx, fun x hmem => ?_⟩
    obtain ⟨r, _, hr⟩ := filled x hmem
    exact ⟨r, hr⟩

/-! ## The order -/

/-- A match with a record to serve. -/
def MatchServes (env : Env) (found : LabelMatch) : Prop :=
  ∃ l, found.label = some l ∧ Serves env l found.type

variable {found : LabelMatch} {labelMatches : List LabelMatch} {answer : List RR} {qname : String}

/-- A match serves if its label does. -/
lemma matchServes_iff : MatchServes env ⟨some l, t⟩ ↔ Serves env l t := by
  simp [MatchServes]

/-- A match serves if it gives an answer. -/
lemma AnswersWith.serves_iff (h : AnswersWith env qname ⟨some l, t⟩ answer) :
    Serves env l t ↔ answer ≠ [] := by
  obtain ⟨l', location, n, servers, n', e, hpick, hrrs⟩ := h
  cases e
  rw [Server.serves_iff hpick]
  cases servers with
  | nil =>
    cases hrrs
    simp
  | cons x servers =>
    obtain ⟨rr, rrs, _, _, rfl⟩ := Res.mapM_cons_eq_ok.mp hrrs
    simp

/-- The matches of a plain zone: those of the targets in order, or a label that stands for itself and
    has nothing to serve. -/
structure PlainMatches (env : Env) (z : Zone) (targets : List String) (s : String) (q : RRType)
    (found : List LabelMatch) : Prop where
  labels : ∀ m ∈ found, ∃ k l t, z.labels.lookup k = some l ∧ m = ⟨some l, t⟩ ∧ t ≠ typeANY
  serving : (∃ m ∈ found, MatchServes env m) ↔
    ∃ m ∈ targets.flatMap (targetMatches z s q), MatchServes env m
  order : (∃ m ∈ found, MatchServes env m) → found = targets.flatMap (targetMatches z s q)

/-- A match has an answer if and only if it serves. -/
lemma PlainMatches.settled (found : PlainMatches env z targets s q labelMatches) :
    ∀ m ∈ labelMatches, ∀ answer, AnswersWith env qname m answer → (MatchServes env m ↔ answer ≠ []) := by
  intro m hm answer answers
  obtain ⟨k, l, t, hl, rfl, ht⟩ := found.labels m hm
  rw [matchServes_iff]
  exact answers.serves_iff

end

end GeoDNS.Server
