import Mathlib.Algebra.Order.Ring.Int
import Mathlib.Data.Nat.Log

/-!
# Finite 64-bit floating-point numbers

A JSON number is decoded into a `float64`, which the program only compares with zero, truncates to
an `int` or prints. A finite one is `± mant * 2 ^ exp` with a mantissa of at most 53 bits, kept exactly
here; there is no arithmetic on them.
-/

namespace GeoDNS.Lib

/-- A finite `float64`: the number `± mant * 2 ^ exp`. -/
structure Float64 where
  neg : Bool
  mant : Nat
  exp : Int
  mant_lt : mant < 2 ^ 53
  exp_ge : -1074 ≤ exp
  exp_le : exp ≤ 971

namespace Float64

/-- An integer of magnitude below `2 ^ 53`, which a `float64` holds exactly. -/
def ofInt (n : Int) (small : n.natAbs < 2 ^ 53) : Float64 where
  neg := n < 0
  mant := n.natAbs
  exp := 0
  mant_lt := small
  exp_ge := by omega
  exp_le := by omega

/-- Is the number greater than zero? -/
def isPos (f : Float64) : Bool :=
  !f.neg && f.mant ≠ 0

/-- The number without its fraction. -/
def trunc (f : Float64) : Int :=
  let m : Nat := if 0 ≤ f.exp then f.mant * 2 ^ f.exp.toNat else f.mant / 2 ^ (-f.exp).toNat
  if f.neg then -(m : Int) else m

/-- The conversion to a 64-bit integer (Go `int(f)`). The language leaves a value out of range to
    the implementation; amd64 gives the smallest integer. -/
def toInt (f : Float64) : Int :=
  if -2 ^ 63 ≤ f.trunc ∧ f.trunc < 2 ^ 63 then f.trunc else -2 ^ 63

/-- An integer of magnitude below `2 ^ 53` survives as a `float64`. -/
lemma toInt_ofInt (n : Int) (small : n.natAbs < 2 ^ 53) : (ofInt n small).toInt = n := by
  have whole : (ofInt n small).trunc = n := by
    show (if decide (n < 0) = true then -((n.natAbs * 2 ^ 0 : Nat) : Int)
      else ((n.natAbs * 2 ^ 0 : Nat) : Int)) = n
    split
    · rename_i neg
      have := of_decide_eq_true neg
      omega
    · rename_i nonneg
      have : ¬ n < 0 := fun neg => nonneg (decide_eq_true neg)
      omega
  rw [toInt, whole, if_pos]
  omega

/-- Scale the mantissa up to 53 bits, as far as the smallest exponent allows. -/
def normalize (f : Float64) : Nat × Int :=
  let k := min (52 - Nat.log 2 f.mant) (f.exp + 1074).toNat
  (f.mant * 2 ^ k, f.exp - k)

/-- The shortest decimal `digits * 10 ^ p` that reads back as `num / den`, searched from the digit
    at `10 ^ p` downwards; the numbers that read back lie between `lo / den` and `hi / den`. -/
def shortestFrom (num den lo hi : Nat) (closed : Bool) : Nat → Int → Nat × Int
  | 0, p => (num * 10 ^ (-p).toNat / den, p)
  | fuel + 1, p =>
    let up := 10 ^ (-p).toNat
    let unit := den * 10 ^ p.toNat
    let q := num * up / unit
    let okDown := lo * up < q * unit ∨ closed ∧ lo * up = q * unit
    let okUp := (q + 1) * unit < hi * up ∨ closed ∧ (q + 1) * unit = hi * up
    let rest := 2 * (num * up - q * unit)
    if okDown ∧ okUp then
      (if rest < unit ∨ rest = unit ∧ q % 2 = 0 then q else q + 1, p)
    else if okDown then (q, p)
    else if okUp then (q + 1, p)
    else shortestFrom num den lo hi closed fuel (p - 1)

/-- The decimal form without an exponent of `digits * 10 ^ p`, without trailing zeros. -/
def decimal (digits : Nat) (p : Int) : String :=
  if 0 ≤ p then Nat.repr (digits * 10 ^ p.toNat)
  else
    let frac := (-p).toNat
    let ds := (Nat.repr digits).toList
    let ds := List.replicate (frac + 1 - ds.length) '0' ++ ds
    let tail := ((ds.drop (ds.length - frac)).reverse.dropWhile (· = '0')).reverse
    String.ofList (ds.take (ds.length - frac) ++ if tail = [] then [] else '.' :: tail)

/-- The shortest decimal form that reads back as `f` (Go `strconv.FormatFloat(f, 'f', -1, 64)`). -/
def format (f : Float64) : String :=
  let sign := if f.neg then "-" else ""
  if f.mant = 0 then sign ++ "0"
  else
    let (m, e) := f.normalize
    -- quarters of the last place, so that the midpoints to both neighbours are whole
    let scale := 2 ^ (e - 2).toNat
    let den := 2 ^ (2 - e).toNat
    let lo := if m = 2 ^ 52 ∧ -1074 < e then 4 * m - 1 else 4 * m - 2
    let start : Int := if den ≤ 4 * m * scale then Nat.log 10 (4 * m * scale / den) + 1
      else -(Nat.log 10 (den / (4 * m * scale)))
    let (digits, p) :=
      shortestFrom (4 * m * scale) den (lo * scale) ((4 * m + 2) * scale) (m % 2 = 0) 20 start
    sign ++ decimal digits p

end Float64
end GeoDNS.Lib
