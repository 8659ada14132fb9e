import GeoDNS.Lib.GoMap
import GeoDNS.Lib.Strings

/-!
# JSON documents as they are written

Go's `encoding/json` decodes a document into variables of given types, and looks at the text of a number
to see whether it is one of the type asked for. So numbers are kept as their texts here.
-/

namespace GeoDNS.Lib

/-- A JSON document; a number is kept as its text. -/
inductive RawJson where
  | null
  | bool (b : Bool)
  | num (literal : String)
  | str (s : String)
  | arr (items : List RawJson)
  | obj (fields : List (String × RawJson))

namespace RawJson

/-- What the decoder calls a value in its errors. -/
def kind : RawJson → String
  | null => "null"
  | bool _ => "bool"
  | num literal => "number " ++ literal
  | str _ => "string"
  | arr _ => "array"
  | obj _ => "object"

/-- The error for a value that does not fit the type (Go `json.UnmarshalTypeError`). -/
def typeError (j : RawJson) (type : String) : String :=
  "json: cannot unmarshal " ++ j.kind ++ " into Go value of type " ++ type

end RawJson

namespace GoMap
variable {κ ν μ : Type} [DecidableEq κ]

/-- Two maps filled from pairs that are related one by one are related key by key. -/
lemma rel_ofPairs {R : ν → μ → Prop} {l : List (κ × ν)} {l' : List (κ × μ)}
    (related : List.Forall₂ (fun e e' => e.1 = e'.1 ∧ R e.2 e'.2) l l') (k : κ) :
    Option.Rel R ((ofPairs l).lookup k) ((ofPairs l').lookup k) := by
  -- the maps that are filled so far are related as well
  have filled : ∀ (m : GoMap κ ν) (m' : GoMap κ μ), Option.Rel R (m.lookup k) (m'.lookup k) →
      Option.Rel R ((l.foldl (fun m kv => m.insert kv.1 kv.2) m).lookup k)
        ((l'.foldl (fun m kv => m.insert kv.1 kv.2) m').lookup k) := by
    induction related with
    | nil => exact fun _ _ rel => rel
    | @cons e e' _ _ here _ ih =>
      intro m m' rel
      apply ih
      rw [lookup_insert_eq_ite, lookup_insert_eq_ite, here.1]
      split
      · exact .some here.2
      · exact rel
  exact filled ∅ ∅ .none

end GoMap
end GeoDNS.Lib
