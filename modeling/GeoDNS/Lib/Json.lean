import GeoDNS.Lib.Float64
import GeoDNS.Lib.GoMap
import Mathlib.Data.List.Forall2
import Mathlib.Data.Option.Basic

/-!
# JSON values

A decoded JSON document: what Go's `encoding/json` stores into an `interface{}`. An object is decoded
into a map, so of two fields with the same name the later one counts, and the order of the fields
here stands for the order in which Go happens to range over that map.
-/

namespace GeoDNS.Lib

/-- A JSON value. -/
inductive Json where
  | null
  | bool (b : Bool)
  | num (f : Float64)
  | str (s : String)
  | arr (items : List Json)
  | obj (fields : List (String × Json))

namespace Json

/-- The map an object is decoded into. -/
def fields (l : List (String × Json)) : GoMap String Json :=
  GoMap.ofPairs l

/-- The type assertion `v.(map[string]interface{})`. -/
def asObj : Json → Res (GoMap String Json)
  | obj l => .ok (fields l)
  | _ => .panic .typeAssert

/-- The type assertion `v.([]interface{})`. -/
def asArr : Json → Res (List Json)
  | arr l => .ok l
  | _ => .panic .typeAssert

/-- The type assertion `v.(string)`. -/
def asStr : Json → Res String
  | str s => .ok s
  | _ => .panic .typeAssert

/-- The type assertion `v.(bool)`. -/
def asBool : Json → Res Bool
  | bool b => .ok b
  | _ => .panic .typeAssert

/-- Reading a missing key of a map gives nil. -/
def getKey (m : GoMap String Json) (k : String) : Json :=
  (m.lookup k).getD null

/-! ## Values up to the order of fields -/

/-- The same value, with the fields of its objects in another order. -/
inductive Same : Json → Json → Prop
  | null : Same .null .null
  | bool (b : Bool) : Same (.bool b) (.bool b)
  | num (f : Float64) : Same (.num f) (.num f)
  | str (s : String) : Same (.str s) (.str s)
  | arr {l l' : List Json} : List.Forall₂ Same l l' → Same (.arr l) (.arr l')
  | obj {l l' : List (String × Json)} :
      (∀ k, Option.Rel Same ((fields l).lookup k) ((fields l').lookup k)) → Same (.obj l) (.obj l')

/-- Two maps of such values. -/
def SameFields (m m' : GoMap String Json) : Prop :=
  ∀ k, Option.Rel Same (m.lookup k) (m'.lookup k)

/-- A value in the map of an object is one of its fields. -/
lemma mem_of_lookup_fields {l : List (String × Json)} {k : String} {v : Json}
    (h : (fields l).lookup k = some v) : (k, v) ∈ l := by
  have all : ∀ m : GoMap String Json, (l.foldl (fun m kv => m.insert kv.1 kv.2) m).lookup k = some v →
      m.lookup k = some v ∨ (k, v) ∈ l := by
    clear h
    induction l with
    | nil => exact fun _ => .inl
    | cons kv l ih =>
      intro m h
      rcases ih _ h with h | h
      · rw [GoMap.lookup_insert_eq_ite] at h
        split at h
        · rename_i hk
          cases h
          subst hk
          exact .inr List.mem_cons_self
        · exact .inl h
      · exact .inr (List.mem_cons_of_mem _ h)
  rcases all ∅ h with h | h
  · cases h
  · exact h

/-- A value is the same as itself. -/
theorem Same.refl : ∀ j : Json, Same j j
  | .null => .null
  | .bool b => .bool b
  | .num f => .num f
  | .str s => .str s
  | .arr l => .arr (List.forall₂_same.mpr (fun j _ => Same.refl j))
  | .obj l => by
    refine .obj (fun k => ?_)
    cases h : (fields l).lookup k with
    | none => exact .none
    | some v =>
      have mem := mem_of_lookup_fields h
      exact .some (Same.refl v)
termination_by j => sizeOf j
decreasing_by
  · have := List.sizeOf_lt_of_mem ‹_›
    simp only [arr.sizeOf_spec]
    omega
  · have := List.sizeOf_lt_of_mem mem
    simp only [obj.sizeOf_spec, Prod.mk.sizeOf_spec] at *
    omega

/-- The field of an object whose fields have different names. -/
lemma lookup_fields_of_mem {l : List (String × Json)} {k : String} {v : Json}
    (nodup : (l.map Prod.fst).Nodup) (h : (k, v) ∈ l) : (fields l).lookup k = some v := by
  have all : ∀ m : GoMap String Json,
      (l.foldl (fun m kv => m.insert kv.1 kv.2) m).lookup k = some v := by
    induction l with
    | nil => cases h
    | cons kv l ih =>
      intro m
      obtain ⟨hnot, nodup⟩ := List.nodup_cons.mp nodup
      rcases List.mem_cons.mp h with rfl | h
      · -- no later field has this name
        have kept : ∀ (l : List (String × Json)) (m : GoMap String Json), k ∉ l.map Prod.fst →
            (l.foldl (fun m kv => m.insert kv.1 kv.2) m).lookup k = m.lookup k := by
          intro l
          induction l with
          | nil => exact fun _ _ => rfl
          | cons kv l ih =>
            intro m hk
            rw [List.map_cons, List.mem_cons, not_or] at hk
            rw [List.foldl_cons, ih _ hk.2, GoMap.lookup_insert_eq_ite, if_neg hk.1]
        rw [List.foldl_cons, kept l _ hnot, GoMap.lookup_insert_eq_ite, if_pos rfl]
      · exact ih nodup h _
  exact all ∅

/-- The order of the fields of an object makes no difference. -/
lemma Same.of_perm {l l' : List (String × Json)} (perm : l.Perm l') (nodup : (l.map Prod.fst).Nodup) :
    Same (.obj l) (.obj l') := by
  refine .obj (fun k => ?_)
  cases h : (fields l).lookup k with
  | some v =>
    rw [lookup_fields_of_mem ((perm.map Prod.fst).nodup_iff.mp nodup)
      (perm.mem_iff.mp (mem_of_lookup_fields h))]
    exact .some (.refl v)
  | none =>
    cases h' : (fields l').lookup k with
    | none => exact .none
    | some v =>
      rw [lookup_fields_of_mem nodup (perm.mem_iff.mpr (mem_of_lookup_fields h'))] at h
      cases h

/-- The fields of an object are the same as themselves. -/
lemma SameFields.refl (m : GoMap String Json) : SameFields m m := by
  intro k
  cases m.lookup k with
  | none => exact .none
  | some v => exact .some (.refl v)

section
variable {j j' : Json} {m m' : GoMap String Json}

/-! Reading such values gives the same results. -/

/-- The same values are the same texts. -/
lemma Same.asStr (same : Same j j') : j.asStr = j'.asStr := by
  cases same <;> rfl

/-- The same values are the same truth values. -/
lemma Same.asBool (same : Same j j') : j.asBool = j'.asBool := by
  cases same <;> rfl

/-- The same objects have the same values under a key. -/
lemma SameFields.getKey (same : SameFields m m') (k : String) :
    Same (Json.getKey m k) (Json.getKey m' k) := by
  have rel := same k
  unfold Json.getKey
  generalize m.lookup k = a at rel ⊢
  generalize m'.lookup k = b at rel ⊢
  cases rel with
  | none => exact .null
  | some h => exact h

/-- Reading a field that may be missing. -/
lemma SameFields.elim {α : Type} (same : SameFields m m') (k : String) {d : α} {f : Json → α}
    (h : ∀ {j j'}, Same j j' → f j = f j') : (m.lookup k).elim d f = (m'.lookup k).elim d f := by
  have rel := same k
  generalize m.lookup k = a at rel ⊢
  generalize m'.lookup k = b at rel ⊢
  cases rel with
  | none => rfl
  | some hj => exact h hj

/-- The same objects have the same keys. -/
lemma SameFields.mem_iff (same : SameFields m m') (k : String) : k ∈ m ↔ k ∈ m' :=
  GoMap.mem_iff_of_rel (same k)

end

end Json
end GeoDNS.Lib
