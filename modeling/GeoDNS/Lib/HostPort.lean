import GeoDNS.Lib.IP
import GeoDNS.Lib.Letters

/-!
# Hosts and ports

`SplitHostPort` and `JoinHostPort` of Go's `net` package. A host with colons in it is written in brackets, so
that the port is what stands behind the last colon; `splitHostPort_joinHostPort` says that the one undoes the
other, for hosts and ports without brackets. What the text of an IP address looks like comes last.
-/

namespace GeoDNS.Lib

/-- The reasons that `SplitHostPort` gives. -/
inductive AddrError where
  | missingPort
  | tooManyColons
  | missingBracket
  | unexpectedOpen
  | unexpectedClose
  deriving DecidableEq, Repr

/-- The reason of an error. -/
def AddrError.why : AddrError → String
  | .missingPort => "missing port in address"
  | .tooManyColons => "too many colons in address"
  | .missingBracket => "missing ']' in address"
  | .unexpectedOpen => "unexpected '[' in address"
  | .unexpectedClose => "unexpected ']' in address"

/-- Go `AddrError.Error`. -/
def AddrError.text (addr : String) (err : AddrError) : String :=
  if addr = "" then err.why else "address " ++ addr ++ ": " ++ err.why

/-- What stands before and behind the first `sep`. -/
def splitFirst (sep : Char) (cs : List Char) : Option (List Char × List Char) :=
  if sep ∈ cs then some (cs.takeWhile (· ≠ sep), (cs.dropWhile (· ≠ sep)).tail) else none

/-- What stands before and behind the last `sep`. -/
def splitLast (sep : Char) (cs : List Char) : Option (List Char × List Char) :=
  (splitFirst sep cs.reverse).map fun (behind, before) => (before.reverse, behind.reverse)

/-- Go `net.SplitHostPort`. -/
def splitHostPort (hostport : String) : Except AddrError (String × String) :=
  let cs := hostport.toList
  match splitLast ':' cs with
  | none => .error .missingPort
  | some (before, port) =>
    -- no bracket may stand in what is left to look through
    let finish (host opens closes : List Char) : Except AddrError (String × String) :=
      if '[' ∈ opens then .error .unexpectedOpen
      else if ']' ∈ closes then .error .unexpectedClose
      else .ok (String.ofList host, String.ofList port)
    if cs.head? = some '[' then
      match splitFirst ']' cs.tail with
      | none => .error .missingBracket
      | some (host, behind) =>
        if behind = [] then .error .missingPort
        else if behind = ':' :: port then finish host cs.tail behind
        else if behind.head? = some ':' then .error .tooManyColons
        else .error .missingPort
    else if ':' ∈ before then .error .tooManyColons
    else finish before cs cs

/-- Go `net.JoinHostPort`. -/
def joinHostPort (host port : String) : String :=
  if contains host ':' then "[" ++ host ++ "]:" ++ port else host ++ ":" ++ port

section
variable {sep : Char} {a b : List Char}

/-- The first separator is the one behind a text without any. -/
lemma splitFirst_append (fresh : sep ∉ a) (b : List Char) : splitFirst sep (a ++ sep :: b) = some (a, b) := by
  have here : ∀ c ∈ a, decide (c ≠ sep) = true := by
    intro c hc
    rw [decide_eq_true_eq]
    rintro rfl
    exact fresh hc
  unfold splitFirst
  rw [if_pos (by simp), List.takeWhile_append_of_pos here, List.dropWhile_append_of_pos here]
  simp

/-- A text without a separator is not split. -/
lemma splitFirst_eq_none (fresh : sep ∉ a) : splitFirst sep a = none :=
  if_neg fresh

/-- The last separator is the one before a text without any. -/
lemma splitLast_append (a : List Char) (fresh : sep ∉ b) : splitLast sep (a ++ sep :: b) = some (a, b) := by
  unfold splitLast
  rw [List.reverse_append, List.reverse_cons, List.append_assoc, List.singleton_append,
    splitFirst_append (by simpa using fresh)]
  simp

/-- A text without a separator is not split here either. -/
lemma splitLast_eq_none (fresh : sep ∉ a) : splitLast sep a = none := by
  unfold splitLast
  rw [splitFirst_eq_none (by simpa using fresh)]
  rfl

/-- A text that has a separator is split at the last one. -/
lemma exists_splitLast (mem : sep ∈ a) :
    ∃ before behind, a = before ++ sep :: behind ∧ sep ∉ behind := by
  obtain ⟨before, behind, e, fresh⟩ := List.eq_append_cons_of_mem (List.mem_reverse.mpr mem)
  refine ⟨behind.reverse, before.reverse, ?_, by simpa using fresh⟩
  have back := congrArg List.reverse e
  simpa using back

end

section
variable {host port : String}

/-- Neither a colon nor a bracket. -/
structure Plain (s : String) : Prop where
  colon : ':' ∉ s.toList
  opening : '[' ∉ s.toList
  closing : ']' ∉ s.toList

/-- No brackets. -/
structure Unboxed (s : String) : Prop where
  opening : '[' ∉ s.toList
  closing : ']' ∉ s.toList

/-- A plain text has no brackets. -/
lemma Plain.unboxed {s : String} (plain : Plain s) : Unboxed s := ⟨plain.opening, plain.closing⟩

/-- A text without a character does not begin with it. -/
lemma head?_ne_of_not_mem {c : Char} {cs : List Char} (fresh : c ∉ cs) : cs.head? ≠ some c :=
  fun h => fresh (List.mem_of_head? h)

/-- A host without colons in front of a port. -/
lemma splitHostPort_colon (plain : Plain host) (plain' : Plain port) :
    splitHostPort (host ++ ":" ++ port) = .ok (host, port) := by
  have chars : (host ++ ":" ++ port).toList = host.toList ++ ':' :: port.toList := by simp
  have opening : '[' ∉ host.toList ++ ':' :: port.toList := by simp [plain.opening, plain'.opening]
  have closing : ']' ∉ host.toList ++ ':' :: port.toList := by simp [plain.closing, plain'.closing]
  unfold splitHostPort
  rw [chars]
  dsimp only
  rw [splitLast_append _ plain'.colon]
  dsimp only
  rw [if_neg (head?_ne_of_not_mem opening), if_neg plain.colon, if_neg opening, if_neg closing,
    String.ofList_toList, String.ofList_toList]

/-- A host in brackets in front of a port. -/
lemma splitHostPort_bracketed (unboxed : Unboxed host) (plain : Plain port) :
    splitHostPort ("[" ++ host ++ "]:" ++ port) = .ok (host, port) := by
  have chars : ("[" ++ host ++ "]:" ++ port).toList = '[' :: (host.toList ++ ']' :: ':' :: port.toList) := by
    simp
  have last : splitLast ':' ('[' :: (host.toList ++ ']' :: ':' :: port.toList)) =
      some ('[' :: (host.toList ++ [']']), port.toList) := by
    rw [← splitLast_append _ plain.colon]
    simp
  have opening : '[' ∉ host.toList ++ ']' :: ':' :: port.toList := by simp [unboxed.opening, plain.opening]
  have closing : ']' ∉ ':' :: port.toList := by simp [plain.closing]
  unfold splitHostPort
  rw [chars]
  dsimp only
  rw [last]
  dsimp only
  rw [if_pos List.head?_cons, List.tail_cons, splitFirst_append unboxed.closing]
  dsimp only
  rw [if_neg (List.cons_ne_nil _ _), if_pos rfl, if_neg opening, if_neg closing, String.ofList_toList,
    String.ofList_toList]

/-- Splitting undoes joining. -/
theorem splitHostPort_joinHostPort (unboxed : Unboxed host) (plain : Plain port) :
    splitHostPort (joinHostPort host port) = .ok (host, port) := by
  unfold joinHostPort contains
  by_cases colon : ':' ∈ host.toList
  · rw [if_pos (by simpa using colon)]
    exact splitHostPort_bracketed unboxed plain
  · rw [if_neg (by simpa using colon)]
    exact splitHostPort_colon ⟨colon, unboxed.opening, unboxed.closing⟩ plain

/-- Without a colon there is no port. -/
lemma splitHostPort_portless (colon : ':' ∉ host.toList) : splitHostPort host = .error .missingPort := by
  unfold splitHostPort
  dsimp only
  rw [splitLast_eq_none colon]

/-- Outside brackets there may be one colon. -/
lemma splitHostPort_colons (unboxed : Unboxed host) (colons : 2 ≤ host.toList.count ':') :
    splitHostPort host = .error .tooManyColons := by
  have mem : ':' ∈ host.toList := List.count_pos_iff.mp (by omega)
  obtain ⟨before, behind, e, fresh⟩ := exists_splitLast mem
  have more : ':' ∈ before := by
    rw [e, List.count_append, List.count_cons_self, List.count_eq_zero_of_not_mem fresh] at colons
    exact List.count_pos_iff.mp (by omega)
  unfold splitHostPort
  dsimp only
  rw [show splitLast ':' host.toList = some (before, behind) by rw [e, splitLast_append _ fresh]]
  dsimp only
  rw [if_neg (head?_ne_of_not_mem unboxed.opening), if_pos more]

/-- Behind the closing bracket there has to be a port. -/
lemma splitHostPort_boxed (unboxed : Unboxed host) :
    splitHostPort ("[" ++ host ++ "]") = .error .missingPort := by
  have chars : ("[" ++ host ++ "]").toList = '[' :: (host.toList ++ ']' :: []) := by simp
  unfold splitHostPort
  rw [chars]
  dsimp only
  cases splitLast ':' ('[' :: (host.toList ++ [']'])) with
  | none => rfl
  | some split =>
    dsimp only
    rw [if_pos List.head?_cons, List.tail_cons, splitFirst_append unboxed.closing]
    rfl

/-- Two pairs of brackets are one too many. -/
lemma splitHostPort_boxed_twice (unboxed : Unboxed host) :
    splitHostPort ("[[" ++ host ++ "]]:" ++ port) = .error .missingPort := by
  have chars : ("[[" ++ host ++ "]]:" ++ port).toList =
      '[' :: (('[' :: host.toList) ++ ']' :: ']' :: ':' :: port.toList) := by simp
  have closing : ']' ∉ '[' :: host.toList := by simp [unboxed.closing]
  unfold splitHostPort
  rw [chars]
  dsimp only
  cases splitLast ':' ('[' :: (('[' :: host.toList) ++ ']' :: ']' :: ':' :: port.toList)) with
  | none => rfl
  | some split =>
    dsimp only
    rw [if_pos List.head?_cons, List.tail_cons, splitFirst_append closing]
    rfl

end

/-! ## The text of an address -/

/-- The digits of a number are digits. -/
lemma exists_of_mem_toDigits {b n : Nat} {c : Char} (base : 1 < b) (mem : c ∈ Nat.toDigits b n) :
    ∃ d < b, c = d.digitChar := by
  induction n using Nat.strong_induction_on with
  | h n ih =>
    rcases lt_or_ge n b with lt | le
    · rw [Nat.toDigits_of_lt_base lt, List.mem_singleton] at mem
      exact ⟨n, lt, mem⟩
    · rw [Nat.toDigits_of_base_le base le, List.mem_append, List.mem_singleton] at mem
      rcases mem with mem | rfl
      · exact ih (n / b) (Nat.div_lt_self (by omega) base) mem
      · exact ⟨n % b, Nat.mod_lt _ (by omega), rfl⟩

/-- The characters of an intercalation are the separator and those of the parts. -/
lemma mem_intercalate {sep c : Char} {l : List (List Char)} (mem : c ∈ [sep].intercalate l) :
    c = sep ∨ ∃ w ∈ l, c ∈ w := by
  induction l with
  | nil => cases mem
  | cons w l ih =>
    cases l with
    | nil => exact .inr ⟨w, List.mem_singleton_self w, by simpa using mem⟩
    | cons w' l =>
      rw [List.intercalate_cons_cons, List.mem_append, List.mem_append, List.mem_singleton] at mem
      rcases mem with (mem | rfl) | mem
      · exact .inr ⟨w, List.mem_cons_self, mem⟩
      · exact .inl rfl
      · exact (ih mem).imp_right fun ⟨u, hu, hc⟩ => ⟨u, List.mem_cons_of_mem _ hu, hc⟩

/-- There is a separator between any two parts. -/
lemma count_intercalate {sep : Char} (l : List (List Char)) :
    l.length ≤ ([sep].intercalate l).count sep + 1 := by
  induction l with
  | nil => simp
  | cons w l ih =>
    cases l with
    | nil => simp
    | cons w' l =>
      rw [List.intercalate_cons_cons, List.count_append, List.count_append, List.count_singleton_self,
        List.length_cons]
      omega

namespace IP

/-- The characters of the text of an address, beside the separators. -/
lemma not_mem_digits {n : Nat} {c : Char} (other : c ∈ [':', '.', ',', '[', ']']) :
    c ∉ hexDigits n := by
  intro mem
  obtain ⟨d, lt, rfl⟩ := exists_of_mem_toDigits (by decide) mem
  have all : ∀ d < 16, Nat.digitChar d ∉ [':', '.', ',', '[', ']'] := by decide
  exact all d lt other

/-- The text of a byte has no separators. -/
lemma not_mem_byteDigits {b : UInt8} {c : Char} (other : c ∈ [':', '.', ',', '[', ']']) :
    c ∉ byteDigits b := by
  intro mem
  obtain ⟨d, lt, rfl⟩ := exists_of_mem_toDigits (by decide) mem
  have all : ∀ d < 10, Nat.digitChar d ∉ [':', '.', ',', '[', ']'] := by decide
  exact all d lt other

/-- The only separators in the text of groups are colons. -/
lemma mem_printGroups {gs : List Nat} {c : Char} (other : c ∈ [':', '.', ',', '[', ']'])
    (mem : c ∈ printGroups gs) : c = ':' := by
  have text : ∀ gs : List Nat, c ∈ [':'].intercalate (gs.map hexDigits) → c = ':' := by
    intro gs mem
    rcases mem_intercalate mem with rfl | ⟨w, hw, hc⟩
    · rfl
    · obtain ⟨g, -, rfl⟩ := List.mem_map.mp hw
      exact (not_mem_digits other hc).elim
  unfold printGroups at mem
  dsimp only at mem
  split at mem
  · exact text _ mem
  · rw [List.mem_append, List.mem_append] at mem
    rcases mem with (mem | mem) | mem
    · exact text _ mem
    · simpa using mem
    · exact text _ mem

/-- Two bytes make a group. -/
lemma groups_length : ∀ ip : IP, (groups ip).length = ip.length / 2
  | [] => rfl
  | [_] => by simp [groups]
  | _ :: _ :: rest => by
    rw [groups, List.length_cons, groups_length rest, List.length_cons, List.length_cons]
    omega

/-- The text of three groups or more has two colons. -/
lemma count_printGroups {gs : List Nat} (len : 3 ≤ gs.length) : 2 ≤ (printGroups gs).count ':' := by
  unfold printGroups
  dsimp only
  split
  · have least := @count_intercalate ':' (gs.map hexDigits)
    rw [List.length_map] at least
    omega
  · rw [List.count_append, List.count_append]
    have two : [':', ':'].count ':' = 2 := rfl
    omega

/-- The text of an address has neither commas nor brackets, and it has no colon or at least two. -/
theorem toText_shape {ip : IP} (valid : ip.Valid) :
    (∀ c ∈ [',', '[', ']'], c ∉ ip.toText.toList) ∧
      (':' ∉ ip.toText.toList ∨ 2 ≤ ip.toText.toList.count ':') := by
  have ne : ip ≠ [] := by
    rintro rfl
    rcases valid with h | h <;> cases h
  have others : ∀ c ∈ [',', '[', ']'], c ∈ [':', '.', ',', '[', ']'] ∧ c ≠ '.' ∧ c ≠ ':' := by
    intro c hc
    refine ⟨List.mem_cons_of_mem _ (List.mem_cons_of_mem _ hc), ?_, ?_⟩
    · rintro rfl
      simp at hc
    · rintro rfl
      simp at hc
  unfold toText
  rw [if_neg ne]
  cases four : to4 ip with
  | some ip4 =>
    -- numbers between dots
    have chars : ∀ c ∈ [':', '.', ',', '[', ']'], c ≠ '.' →
        c ∉ ['.'].intercalate (ip4.map byteDigits) := by
      intro c hc ne mem
      rcases mem_intercalate mem with rfl | ⟨w, hw, hc'⟩
      · exact ne rfl
      · obtain ⟨b, -, rfl⟩ := List.mem_map.mp hw
        exact not_mem_byteDigits hc hc'
    dsimp only
    rw [String.toList_ofList]
    exact ⟨fun c hc => chars c (others c hc).1 (others c hc).2.1,
      .inl (chars ':' (by decide) (by decide))⟩
  | none =>
    have sixteen : ip.length = 16 := by
      rcases valid with h | h
      · rw [to4, if_pos h] at four
        cases four
      · exact h
    dsimp only
    rw [if_pos sixteen, String.toList_ofList]
    refine ⟨?_, .inr (count_printGroups ?_)⟩
    · intro c hc mem
      exact (others c hc).2.2 (mem_printGroups (others c hc).1 mem)
    · rw [groups_length, sixteen]
      decide

end IP
end GeoDNS.Lib
