import GeoDNS.Lib.Strings

/-!
# IP addresses

The part of Go's `net` package that the program uses (as of Go 1.12, the version the repository is
built with). An address is the byte slice itself, of 4 or 16 bytes when valid; the empty list is the
nil address. An IPv4 address may come in either length, the long one behind the prefix
`::ffff:0:0`.
-/

namespace GeoDNS.Lib

/-- An IP address as a slice of bytes (Go `net.IP`). -/
abbrev IP := List UInt8

namespace IP

/-- The first twelve bytes of an IPv4 address in the 16-byte form (Go `v4InV6Prefix`). -/
def v4InV6 : List UInt8 :=
  [0, 0, 0, 0, 0, 0, 0, 0, 0, 0, 0xff, 0xff]

/-- The 4-byte form, if the address has one (Go `IP.To4`). -/
def to4 (ip : IP) : Option IP :=
  if ip.length = 4 then some ip
  else if ip.length = 16 ∧ ip.take 12 = v4InV6 then some (ip.drop 12)
  else none

/-- The bitwise conjunction with a mask of the same length (Go `IP.Mask`). -/
def mask (ip m : List UInt8) : IP :=
  let m := if m.length = 16 ∧ ip.length = 4 ∧ (m.take 12).all (· = 0xff) then m.drop 12 else m
  let ip := if m.length = 4 ∧ ip.length = 16 ∧ ip.take 12 = v4InV6 then ip.drop 12 else ip
  if ip.length = m.length then List.zipWith (· &&& ·) ip m else []

/-- Is this an address of the host itself? (Go `IP.IsLoopback`) -/
def isLoopback (ip : IP) : Bool :=
  match to4 ip with
  | some ip4 => ip4.head? = some 127
  | none => ip = [0, 0, 0, 0, 0, 0, 0, 0, 0, 0, 0, 0, 0, 0, 0, 1]

/-- Is this an address that may be that of a host in a network? (Go `IP.IsGlobalUnicast`) -/
def isGlobalUnicast (ip : IP) : Bool :=
  (ip.length = 4 || ip.length = 16) && !isLoopback ip &&
    match to4 ip with
    | some ip4 =>
      -- not the broadcast address, the unspecified one, a multicast address or a link-local one
      ip4 ≠ [255, 255, 255, 255] && ip4 ≠ [0, 0, 0, 0] && ip4.getD 0 0 &&& 0xf0 ≠ 0xe0 &&
        !(ip4.getD 0 0 = 169 && ip4.getD 1 0 = 254)
    | none =>
      ip ≠ List.replicate 16 0 && ip.getD 0 0 ≠ 0xff &&
        !(ip.getD 0 0 = 0xfe && ip.getD 1 0 &&& 0xc0 = 0x80)

/-! ## Networks -/

/-- An address of one of the two lengths. -/
def Valid (ip : IP) : Prop :=
  ip.length = 4 ∨ ip.length = 16

/-- The bits of a byte, the highest one first. -/
def byteBits (b : UInt8) : List Bool :=
  (List.range 8).map (fun i => b.toNat.testBit (7 - i))

/-- The bits of an address: those of the 4-byte form if it has one. -/
def bits (ip : IP) : List Bool :=
  (ip.to4.getD ip).flatMap byteBits

/-- Two addresses are both IPv4 or both IPv6, and agree on their first `n` bits. -/
structure SamePrefix (n : Nat) (a b : IP) : Prop where
  valid : a.Valid ∧ b.Valid
  family : a.to4.isSome = b.to4.isSome
  agree : a.bits.take n = b.bits.take n

/-! ## Reading -/

/-- Four decimal numbers up to 255 between dots (Go `parseIPv4`), in the 16-byte form. -/
def parseIPv4 (s : List Char) : Option IP :=
  let octet (cs : List Char) : Option UInt8 :=
    (digitsValue cs).bind (fun n => if n ≤ 255 then some n.toUInt8 else none)
  match (splitChars '.' s).map octet with
  | [some a, some b, some c, some d] => some (v4InV6 ++ [a, b, c, d])
  | _ => none

/-- The value of a hexadecimal digit. -/
def hexValue (c : Char) : Option Nat :=
  if '0' ≤ c ∧ c ≤ '9' then some (c.toNat - 48)
  else if 'a' ≤ c ∧ c ≤ 'f' then some (c.toNat - 87)
  else if 'A' ≤ c ∧ c ≤ 'F' then some (c.toNat - 55)
  else none

/-- A hexadecimal number at the start of a text and what follows it (Go `xtoi`). -/
def xtoi (s : List Char) : Option (Nat × List Char) :=
  let ds := s.takeWhile (fun c => (hexValue c).isSome)
  let n := ds.foldl (fun n c => 16 * n + (hexValue c).getD 0) 0
  if ds = [] ∨ 0xffffff ≤ n then none else some (n, s.drop ds.length)

/-- The loop of Go `parseIPv6`: `bytes` have been read, `gap` is the position of the `::`. -/
def parseGroups : Nat → List Char → IP → Option Nat → Option (IP × Option Nat)
  | 0, s, bytes, gap => if s = [] then some (bytes, gap) else none
  | fuel + 1, s, bytes, gap => do
    let (n, rest) ← xtoi s
    if n > 0xffff then none
    -- a trailing IPv4 address
    if rest.head? = some '.' then
      if (gap = none ∧ bytes.length ≠ 12) ∨ 16 < bytes.length + 4 then none
      let ip4 ← parseIPv4 s
      return (bytes ++ ip4.drop 12, gap)
    let bytes := bytes ++ [(n / 256).toUInt8, (n % 256).toUInt8]
    match rest with
    | [] => some (bytes, gap)
    | [_] => none
    | c :: d :: rest =>
      if c ≠ ':' then none
      if d = ':' then
        if gap.isSome then none
        if rest = [] then some (bytes, some bytes.length)
        else parseGroups fuel rest bytes (some bytes.length)
      else parseGroups fuel (d :: rest) bytes gap

/-- Groups of hexadecimal digits between colons, with at most one `::` (Go `parseIPv6`). -/
def parseIPv6 (s : List Char) : Option IP := do
  let (bytes, gap) ←
    match s with
    | [':', ':'] => some ([], some 0)
    | ':' :: ':' :: s => parseGroups 8 s [] (some 0)
    | _ => parseGroups 8 s [] none
  match gap with
  | none => if bytes.length = 16 then some bytes else none
  | some g =>
    if bytes.length < 16 then
      some (bytes.take g ++ List.replicate (16 - bytes.length) 0 ++ bytes.drop g)
    else none

/-- Read an address in either notation (Go `net.ParseIP`). -/
def parseIP (s : String) : Option IP :=
  match s.toList.find? (fun c => c = '.' ∨ c = ':') with
  | some '.' => parseIPv4 s.toList
  | some ':' => parseIPv6 s.toList
  | _ => none

/-! ## Printing -/

/-- The hexadecimal digits of `n`, lower-case and without leading zeros. -/
def hexDigits (n : Nat) : List Char :=
  Nat.toDigits 16 n

/-- The decimal digits of a byte. -/
def byteDigits (b : UInt8) : List Char :=
  Nat.toDigits 10 b.toNat

/-- The two-byte groups of an address. -/
def groups : IP → List Nat
  | a :: b :: rest => (a.toNat * 256 + b.toNat) :: groups rest
  | _ => []

/-- Start and length of the leftmost longest run of zeros among `gs`, which start at position `i`;
    `best` is the best run so far. -/
def zeroRun : List Nat → Nat → Nat × Nat → Nat × Nat
  | [], _, best => best
  | g :: gs, i, best =>
    let len := ((g :: gs).takeWhile (· = 0)).length
    zeroRun gs (i + 1) (if best.2 < len then (i, len) else best)

/-- The colon notation of eight groups. -/
def printGroups (gs : List Nat) : List Char :=
  let (start, len) := zeroRun gs 0 (0, 0)
  let text (gs : List Nat) : List Char := [':'].intercalate (gs.map hexDigits)
  if len ≤ 1 then text gs
  else text (gs.take start) ++ [':', ':'] ++ text (gs.drop (start + len))

/-- The text of an address (Go `IP.String`). -/
def toText (ip : IP) : String :=
  if ip = [] then "<nil>"
  else
    match to4 ip with
    | some ip4 => String.ofList (['.'].intercalate (ip4.map byteDigits))
    | none =>
      if ip.length = 16 then String.ofList (printGroups (groups ip))
      else String.ofList ('?' :: ip.flatMap (fun b =>
        hexDigits (b.toNat / 16) ++ hexDigits (b.toNat % 16)))

/-- An address of version 4 has four bytes. -/
lemma to4_length {ip ip4 : IP} (h : to4 ip = some ip4) : ip4.length = 4 := by
  unfold to4 at h
  split_ifs at h with h4 h16
  · cases h
    exact h4
  · cases h
    rw [List.length_drop]
    omega

/-- The 4-byte form ends as the address does. -/
lemma to4_getLast? {ip ip4 : IP} (h : to4 ip = some ip4) : ip4.getLast? = ip.getLast? := by
  unfold to4 at h
  split_ifs at h with four sixteen
  · cases h
    rfl
  · cases h
    rw [List.getLast?_drop, if_neg (by omega)]

/-- A byte has eight bits. -/
lemma bits_length (ip : IP) : ip.bits.length = 8 * (ip.to4.getD ip).length := by
  unfold bits
  induction ip.to4.getD ip with
  | nil => rfl
  | cons b bs ih =>
    rw [List.flatMap_cons, List.length_append, ih, List.length_cons]
    simp [byteBits]
    omega

/-- A valid IPv6 address has 16 bytes. -/
lemma Valid.length {ip : IP} (valid : ip.Valid) :
    (ip.to4.getD ip).length = if ip.to4.isSome then 4 else 16 := by
  cases h : ip.to4 with
  | some ip4 => simpa using to4_length h
  | none =>
    rcases valid with h4 | h16
    · simp [to4, h4] at h
    · simpa using h16

/-- A valid address has at most 128 bits. -/
lemma Valid.bits_length {ip : IP} (valid : ip.Valid) : ip.bits.length ≤ 128 := by
  rw [IP.bits_length, valid.length]
  split <;> omega

/-- Addresses with a common prefix have the shorter ones in common. -/
lemma SamePrefix.mono {n n' : Nat} {a b : IP} (same : SamePrefix n a b) (h : n' ≤ n) :
    SamePrefix n' a b := by
  refine ⟨same.valid, same.family, ?_⟩
  rw [← Nat.min_eq_left h, ← List.take_take, ← List.take_take, same.agree]

/-- Addresses that agree on all bits of one of them have the same bits. -/
lemma SamePrefix.bits_eq {a b : IP} (same : SamePrefix a.bits.length a b) : a.bits = b.bits := by
  have len : a.bits.length = b.bits.length := by
    rw [bits_length, bits_length, same.valid.1.length, same.valid.2.length, same.family]
  have agree := same.agree
  rwa [List.take_length, len, List.take_length] at agree

/-- Two parts with a separator are not nothing. -/
lemma intercalate_ne_nil {c : Char} {a b : List Char} {l : List (List Char)} :
    [c].intercalate (a :: b :: l) ≠ [] := by
  simp [List.intercalate]

/-- The text of an address is never empty. -/
lemma toText_ne_empty (ip : IP) : toText ip ≠ "" := by
  have nonempty : ∀ {l : List Char}, l ≠ [] → String.ofList l ≠ "" := by
    intro l ne e
    exact ne (by simpa using congrArg String.toList e)
  unfold toText
  by_cases hnil : ip = []
  · rw [if_pos hnil]
    decide
  rw [if_neg hnil]
  cases h4 : to4 ip with
  | some ip4 =>
    apply nonempty
    have len := to4_length h4
    match ip4, len with
    | [a, b, c, d], _ => exact intercalate_ne_nil
  | none =>
    dsimp only
    split_ifs with len
    · apply nonempty
      match ip, len with
      | a :: b :: c :: d :: rest, _ =>
        dsimp only [printGroups]
        split_ifs
        · exact intercalate_ne_nil
        · simp
    · exact nonempty (by simp)

end IP
end GeoDNS.Lib
