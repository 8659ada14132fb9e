import GeoDNS.Lib.Letters
import GeoDNS.Server.NxDomain

/-!
# Zones whose names are addresses

The branch of `Server.serve` for zones with `ParseIP`: the first label of the name is an address with dashes
instead of dots, and the answer to a query for an address is that address. A name that is none is answered
as well: the error of `getIPFromDomain` is only logged, and the record is built with the nil address that
comes with it. The parser behind it knows IPv6 addresses, too.

`address_in_name_iff` says that the reply is right exactly for the names of addresses.
-/

namespace GeoDNS.Server
open GeoDNS.Lib GeoDNS.Dns GeoDNS.Zones

/-- A decimal number up to 255. -/
def decimalOctet (cs : List Char) : Option UInt8 :=
  (digitsValue cs).bind (fun n => if n ≤ 255 then some n.toUInt8 else none)

/-- The octets of a text that consists of four decimal octets joined by dashes. -/
def dashedOctets (label : String) : Option IP :=
  match (splitChars '-' label.toList).map decimalOctet with
  | [some a, some b, some c, some d] => some [a, b, c, d]
  | _ => none

/-- The text of an address with dashes instead of dots. -/
def dashedText (a : IP) : String :=
  String.ofList (a.toText.toList.map (fun c => if c = '.' then '-' else c))

/-- The data of an address record on the wire (Go `packDataA`). The message is packed into an empty buffer,
    so an address without a 4-byte form leaves zeros. -/
def packDataA (a : IP) : Except String (List UInt8) :=
  if a.length = 4 ∨ a.length = 16 then .ok (a.to4.getD [0, 0, 0, 0])
  else if a.length = 0 then .ok []
  else .error "overflow packing a"

/-- The answer is one address record of the name, with this address. -/
def AnswersAddress (name : String) (a : IP) (m : Msg) : Prop :=
  ∃ rr ip, m.answer = [rr] ∧ rr.hdr.name = name ∧ rr.hdr.rrtype = typeA ∧ rr.data = .a ip ∧
    packDataA ip = .ok a

/-- There is an answer exactly if the first label of the name is an address, and it is that address. -/
def AnswersExactly (name : String) (m : Msg) : Prop :=
  (m.answer ≠ [] ↔ ∃ a, dashedOctets (leadingLabel name) = some a) ∧
    ∀ a, dashedOctets (leadingLabel name) = some a → AnswersAddress name a m

/-- An octet is written in digits. -/
lemma digits_of_decimalOctet {cs : List Char} {b : UInt8} (h : decimalOctet cs = some b) :
    ∀ c ∈ cs, c.isDigit = true := by
  obtain ⟨n, value, -⟩ := Option.bind_eq_some_iff.mp h
  unfold digitsValue at value
  split at value
  next digits => exact List.all_eq_true.mp digits.2
  next => cases value

/-- The four pieces of such a text. -/
lemma dashedOctets_eq_some {label : String} {a : IP} (h : dashedOctets label = some a) :
    a.length = 4 ∧ (splitChars '-' label.toList).map decimalOctet = a.map some := by
  unfold dashedOctets at h
  split at h
  next pieces =>
    cases h
    exact ⟨rfl, pieces⟩
  next => cases h

/-- An address in a label is written in digits and dashes. -/
lemma chars_of_dashedOctets {label : String} {a : IP} (h : dashedOctets label = some a) :
    ∀ c ∈ label.toList, c = '-' ∨ c.isDigit = true := by
  intro c mem
  refine (eq_or_mem_splitChars mem).imp id ?_
  rintro ⟨w, hw, hc⟩
  have octet : decimalOctet w ∈ a.map some := (dashedOctets_eq_some h).2 ▸ List.mem_map_of_mem hw
  obtain ⟨b, -, octet⟩ := List.mem_map.mp octet
  exact digits_of_decimalOctet octet.symm c hc

/-- There is a dash in a label that is an address. -/
lemma dash_of_dashedOctets {label : String} {a : IP} (h : dashedOctets label = some a) :
    '-' ∈ label.toList := by
  by_contra none
  obtain ⟨len, pieces⟩ := dashedOctets_eq_some h
  rw [splitChars_whole none] at pieces
  have := congrArg List.length pieces
  simp [len] at this

/-- There is no dot in a label that is an address. -/
lemma dotless_of_dashedOctets {label : String} {a : IP} (h : dashedOctets label = some a) :
    '.' ∉ label.toList := by
  intro dot
  rcases chars_of_dashedOctets h '.' dot with e | e
  · cases e
  · cases e

/-- The text with dots instead of dashes. -/
def dotted (label : String) : String :=
  String.ofList (label.toList.map (fun c => if c = '-' then '.' else c))

/-- The characters of a label with dots for dashes. -/
lemma toList_dotted (label : String) :
    (dotted label).toList = label.toList.map (fun c => if c = '-' then '.' else c) :=
  String.toList_ofList

/-- It is taken for an IPv4 address. -/
lemma find?_dotted {label : String} {a : IP} (h : dashedOctets label = some a) :
    (dotted label).toList.find? (fun c => c = '.' ∨ c = ':') = some '.' := by
  have dot : '.' ∈ (dotted label).toList := by
    rw [toList_dotted]
    exact List.mem_map.mpr ⟨'-', dash_of_dashedOctets h, rfl⟩
  have found : ((dotted label).toList.find? (fun c => c = '.' ∨ c = ':')).isSome :=
    List.find?_isSome.mpr ⟨'.', dot, by simp⟩
  obtain ⟨c, found⟩ := Option.isSome_iff_exists.mp found
  rw [found]
  have which : c = '.' ∨ c = ':' := by simpa using List.find?_some found
  rcases which with rfl | rfl
  · rfl
  · -- a colon is neither a dash nor a digit
    have mem := List.mem_of_find?_eq_some found
    rw [toList_dotted] at mem
    obtain ⟨c, hc, e⟩ := List.mem_map.mp mem
    split at e
    next => cases e
    next dash =>
      rcases chars_of_dashedOctets h c hc with rfl | digit
      · exact (dash rfl).elim
      · rw [e] at digit
        cases digit

/-- It is read as the address. -/
lemma parseIP_dotted {label : String} {a : IP} (h : dashedOctets label = some a) :
    IP.parseIP (dotted label) = some (IP.v4InV6 ++ a) := by
  have pieces : (splitChars '.' (dotted label).toList).map decimalOctet = a.map some := by
    rw [toList_dotted, splitChars_replace (dotless_of_dashedOctets h)]
    exact (dashedOctets_eq_some h).2
  have read : IP.parseIPv4 (dotted label).toList = some (IP.v4InV6 ++ a) := by
    unfold decimalOctet at pieces
    unfold IP.parseIPv4
    dsimp only
    rw [pieces]
    match a, (dashedOctets_eq_some h).1 with
    | [a, b, c, d], _ => rfl
  unfold IP.parseIP
  rw [find?_dotted h]
  exact read

/-- An address of version 4 in 16 bytes is packed in four. -/
lemma packDataA_v4InV6 {a : IP} (len : a.length = 4) : packDataA (IP.v4InV6 ++ a) = .ok a := by
  match a, len with
  | [a, b, c, d], _ => rfl

/-- What stands before the first dot of the name, if it is such a text, is the address of the answer. -/
lemma answersAddress_of_takeWhile {req : Msg} {name label : String} {a : IP}
    (first : name.toList.takeWhile (· ≠ '.') = label.toList) (h : dashedOctets label = some a) :
    AnswersAddress name a (parseIPReply req name) := by
  have piece : (split name '.').headD "" = label := by
    rw [List.headD_eq_head?_getD, split, List.head?_map, splitChars_head?, first, Option.map_some,
      Option.getD_some, String.ofList_toList]
  have read : getIPFromDomain name = some (IP.v4InV6 ++ a) := by
    unfold getIPFromDomain
    rw [piece]
    exact parseIP_dotted h
  have answer : (parseIPReply req name).answer =
      [⟨⟨name, typeA, classINET, 86400⟩, .a (IP.v4InV6 ++ a)⟩] := by
    unfold parseIPReply
    rw [read, Option.getD_some]
  exact ⟨_, _, answer, rfl, rfl, rfl, packDataA_v4InV6 (dashedOctets_eq_some h).1⟩

/-- The reply has the address of the leading label. -/
lemma answersAddress_of_leadingLabel {req : Msg} {name : String} {a : IP}
    (h : dashedOctets (leadingLabel name) = some a) : AnswersAddress name a (parseIPReply req name) := by
  have dash := dash_of_dashedOctets h
  have nonempty : leadingLabel name ≠ "" := by
    intro e
    simp [e] at dash
  have first := takeWhile_of_leadingLabel name (dotless_of_dashedOctets h) nonempty
  exact answersAddress_of_takeWhile first.symm h

/-! ## The name of an address -/

/-- A byte is read back from its digits. -/
lemma decimalOctet_byteDigits (b : UInt8) : decimalOctet (IP.byteDigits b) = some b := by
  have all : ∀ n : Fin 256, decimalOctet (Nat.toDigits 10 n) = some n.val.toUInt8 := by
    decide +kernel
  have := all ⟨b.toNat, b.toNat_lt⟩
  simpa [IP.byteDigits] using this

/-- There is no dash among the digits of a byte. -/
lemma dash_not_mem_byteDigits (b : UInt8) : '-' ∉ IP.byteDigits b := by
  intro dash
  cases digits_of_decimalOctet (decimalOctet_byteDigits b) '-' dash

/-- There is no dot among the digits of a byte. -/
lemma dot_not_mem_byteDigits (b : UInt8) : '.' ∉ IP.byteDigits b := by
  intro dot
  cases digits_of_decimalOctet (decimalOctet_byteDigits b) '.' dot

/-- The digits of a byte stay when dots are replaced by dashes. -/
lemma map_dash_byteDigits (b : UInt8) :
    (IP.byteDigits b).map (fun c => if c = '.' then '-' else c) = IP.byteDigits b := by
  refine (List.map_congr_left fun c hc => ?_).trans (List.map_id _)
  have ne : c ≠ '.' := fun e => dot_not_mem_byteDigits b (e ▸ hc)
  exact if_neg ne

/-- An address as it is written with dashes. -/
lemma dashedText_toList (a b c d : UInt8) :
    (dashedText [a, b, c, d]).toList = IP.byteDigits a ++ '-' :: (IP.byteDigits b ++ '-' ::
      (IP.byteDigits c ++ '-' :: IP.byteDigits d)) := by
  have text : IP.toText [a, b, c, d] =
      String.ofList (['.'].intercalate ([a, b, c, d].map IP.byteDigits)) := rfl
  rw [dashedText, String.toList_ofList, text, String.toList_ofList]
  simp [List.intercalate_cons_cons, map_dash_byteDigits]

/-- The name of an address is read as that address. -/
lemma dashedOctets_dashedText {a : IP} (len : a.length = 4) : dashedOctets (dashedText a) = some a := by
  match a, len with
  | [a, b, c, d], _ =>
    unfold dashedOctets
    rw [dashedText_toList, splitChars_append (dash_not_mem_byteDigits a),
      splitChars_append (dash_not_mem_byteDigits b), splitChars_append (dash_not_mem_byteDigits c),
      splitChars_whole (dash_not_mem_byteDigits d)]
    simp only [List.map_cons, List.map_nil, decimalOctet_byteDigits]

/-- A query for the address of the name of an address. -/
lemma answersAddress_of_dashedText {req : Msg} {a : IP} (len : a.length = 4) (origin : String) :
    AnswersAddress (dashedText a ++ "." ++ origin) a (parseIPReply req (dashedText a ++ "." ++ origin)) := by
  have octets := dashedOctets_dashedText len
  refine answersAddress_of_takeWhile ?_ octets
  have dotless := dotless_of_dashedOctets octets
  rw [String.toList_append, String.toList_append, List.append_assoc, List.takeWhile_append_of_pos]
  · simp
  · intro c hc
    exact decide_eq_true fun e => dotless (e ▸ hc)

/-- In a zone whose names are addresses, for every name: the reply to a query for an address is as it should
    be exactly if the first label of the name is an address, since there is an answer in any case. And the
    name of every address is answered with it. -/
theorem address_in_name_iff (env : Env) (srv : ServerConfig) (fuel : Nat) (w : RemoteAddr) (req : Msg)
    (z : Zone) (question : Question) (rest : List Question) (asked : req.question = question :: rest)
    (isA : question.qtype = typeA) (parse : z.parseIP = true) :
    ∃ m, serve env srv fuel w req z = .ok [m] ∧
      (AnswersExactly question.name m ↔ (dashedOctets (leadingLabel question.name)).isSome) ∧
      ∀ (a : IP) (origin : String), a.length = 4 → question.name = dashedText a ++ "." ++ origin →
        AnswersAddress question.name a m := by
  refine ⟨parseIPReply req question.name, ?_, ?_, ?_⟩
  · unfold serve
    rw [asked]
    exact if_pos ⟨isA, parse⟩
  · rw [Option.isSome_iff_exists]
    constructor
    · intro exactly
      exact exactly.1.mp (List.cons_ne_nil _ _)
    · intro some
      exact ⟨iff_of_true (List.cons_ne_nil _ _) some, fun a h => answersAddress_of_leadingLabel h⟩
  · intro a origin len name
    rw [name]
    exact answersAddress_of_dashedText len origin

/-- The zone `example.com`, with names that are addresses. -/
def smallAddresses : Zone :=
  { smallWeb with parseIP := true }

/-- An address of the zone with addresses in names. -/
theorem small_address_in_name :
    ∃ m, serve smallEnv smallServer 0 smallClient (query {} "192-0-2-1.example.com." typeA) smallAddresses =
      .ok [m] ∧ AnswersAddress "192-0-2-1.example.com." [192, 0, 2, 1] m := by
  obtain ⟨m, served, -, named⟩ := address_in_name_iff smallEnv smallServer 0 smallClient
    (query {} "192-0-2-1.example.com." typeA) smallAddresses ⟨"192-0-2-1.example.com.", typeA, classINET⟩ []
    rfl rfl rfl
  exact ⟨m, served, named [192, 0, 2, 1] "example.com." rfl (by decide +kernel)⟩

/-- A name that is no address is answered with an empty address, and an IPv6 address with zeros. -/
theorem answers_without_address :
    dashedOctets (leadingLabel "www.example.com.") = none ∧
    serve smallEnv smallServer 0 smallClient (query {} "www.example.com." typeA) smallAddresses =
      .ok [{ ({} : Msg).setReply (query {} "www.example.com." typeA) with
        answer := [⟨⟨"www.example.com.", typeA, classINET, 86400⟩, .a []⟩] }] ∧
    dashedOctets (leadingLabel "2001:db8::1.example.com.") = none ∧
    ∃ m ip,
      serve smallEnv smallServer 0 smallClient (query {} "2001:db8::1.example.com." typeA) smallAddresses =
        .ok [m] ∧ m.answer = [⟨⟨"2001:db8::1.example.com.", typeA, classINET, 86400⟩, .a ip⟩] ∧
      packDataA ip = .ok [0, 0, 0, 0] := by
  refine ⟨by decide +kernel, by decide +kernel, by decide +kernel, _, _, rfl, rfl, by decide +kernel⟩

end GeoDNS.Server
