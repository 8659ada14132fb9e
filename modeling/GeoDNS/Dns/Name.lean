import GeoDNS.Lib.Strings

/-!
# Domain names in text form

The name functions of the vendored `miekg/dns` (`labels.go`, `defaults.go`) that the program uses.
A dot separates labels unless a backslash escapes it, and the last character of a name is never
taken for a separator, so that `a.b.` and `a.b` have the same labels.
-/

namespace GeoDNS.Dns
open GeoDNS.Lib

/-- Is the name fully qualified? (Go `dns.IsFqdn`) It has to end in a dot that is not escaped. The
    source tells that from the number of bytes after the last character that is no backslash, that
    character included, so its width counts as well. -/
def isFqdn (s : String) : Bool :=
  match s.toList.reverse with
  | '.' :: cs =>
    let slashes := (cs.takeWhile (· = '\\')).length
    let width := ((cs.dropWhile (· = '\\')).head?.map Char.utf8Size).getD 1
    (width + slashes) % 2 ≠ 0
  | _ => false

/-- A name that ends in a dot is fully qualified unless the dot is escaped. -/
lemma isFqdn_of_dot {s : String} {cs : List Char} (h : s.toList.reverse = '.' :: cs) :
    isFqdn s = decide ((((cs.dropWhile (· = '\\')).head?.map Char.utf8Size).getD 1 +
      (cs.takeWhile (· = '\\')).length) % 2 ≠ 0) := by
  rw [isFqdn, h]
  rfl

/-- A name that does not end in a dot is not fully qualified. -/
lemma isFqdn_of_not_dot {s : String} (h : ∀ cs, s.toList.reverse ≠ '.' :: cs) : isFqdn s = false := by
  unfold isFqdn
  split
  · rename_i cs e
    exact (h cs e).elim
  · rfl

/-- Is a dot after this text one that `dns.IsFqdn` takes for escaped? -/
def escapesDot (s : String) : Bool :=
  let cs := s.toList.reverse
  ((((cs.dropWhile (· = '\\')).head?.map Char.utf8Size).getD 1 +
    (cs.takeWhile (· = '\\')).length) % 2 = 0)

/-- A dot behind a name makes it fully qualified unless the name escapes it. -/
lemma isFqdn_append_dot (s : String) : isFqdn (s ++ ".") = !escapesDot s := by
  have rev : (s ++ ".").toList.reverse = '.' :: s.toList.reverse := by
    rw [String.toList_append, List.reverse_append]
    rfl
  rw [isFqdn_of_dot rev, escapesDot, decide_not]

/-- The fully qualified form of a name (Go `dns.Fqdn`). -/
def fqdn (s : String) : String :=
  if isFqdn s then s else s ++ "."

/-- The labels of a name (the loop around Go `dns.NextLabel`); `quote` holds after a backslash that
    is not itself escaped, and `acc` is the current label in reverse. -/
def splitLabels : Bool → List Char → List Char → List (List Char)
  | _, acc, [] => [acc.reverse]
  | _, acc, [c] => [(c :: acc).reverse]
  | quote, acc, c :: cs =>
    if c = '\\' then splitLabels (!quote) (c :: acc) cs
    else if c = '.' ∧ quote = false then acc.reverse :: splitLabels false [] cs
    else splitLabels false (c :: acc) cs

/-- The characters of a name before the last one. -/
lemma splitLabels_cons_cons (quote : Bool) (acc : List Char) (c d : Char) (cs : List Char) :
    splitLabels quote acc (c :: d :: cs) =
      if c = '\\' then splitLabels (!quote) (c :: acc) (d :: cs)
      else if c = '.' ∧ quote = false then acc.reverse :: splitLabels false [] (d :: cs)
      else splitLabels false (c :: acc) (d :: cs) := by
  rw [splitLabels]
  simp

/-- The labels of a name without the final dot (Go `dns.SplitDomainName`). -/
def splitDomainName (s : String) : List String :=
  if s = "" ∨ s = "." then []
  else
    let labels := splitLabels false [] s.toList
    let last := labels.getLastD []
    let last := if isFqdn s then last.dropLast else last
    (labels.dropLast ++ [last]).map String.ofList

/-- The number of labels of a name (Go `dns.CountLabel`). -/
def countLabel (s : String) : Nat :=
  if s = "." then 0 else (splitLabels false [] s.toList).length

/-! ## The first label -/

/-- The first label consists of what stands before the first dot and, if that dot does not end it, of the
    dot and what follows. If it is the only one, it is the whole name. -/
lemma splitLabels_first (quote : Bool) (acc cs : List Char) :
    ∃ tail rest, splitLabels quote acc cs = (acc.reverse ++ (cs.takeWhile (· ≠ '.') ++ tail)) :: rest ∧
      (tail = [] ∨ tail.head? = some '.') ∧ (rest = [] → cs.takeWhile (· ≠ '.') ++ tail = cs) := by
  induction cs generalizing quote acc with
  | nil => exact ⟨[], [], by simp [splitLabels], .inl rfl, by simp⟩
  | cons c cs ih =>
    cases cs with
    | nil =>
      by_cases dot : c = '.'
      · exact ⟨['.'], [], by simp [splitLabels, dot], .inr rfl, by simp [dot]⟩
      · exact ⟨[], [], by simp [splitLabels, dot], .inl rfl, by simp [dot]⟩
    | cons d cs =>
      rw [splitLabels_cons_cons]
      by_cases slash : c = '\\'
      · obtain ⟨tail, rest, h, start, whole⟩ := ih (!quote) (c :: acc)
        refine ⟨tail, rest, ?_, start, fun e => ?_⟩
        · rw [if_pos slash, h]
          simp [slash]
        · rw [List.takeWhile_cons_of_pos (by simp [slash]), List.cons_append, whole e]
      · rw [if_neg slash]
        by_cases dot : c = '.'
        · by_cases ends : quote = false
          · obtain ⟨tail, rest, h, -, -⟩ := ih false []
            exact ⟨[], splitLabels false [] (d :: cs), by simp [dot, ends], .inl rfl, by simp [h]⟩
          · -- an escaped dot
            obtain ⟨tail, rest, h, start, whole⟩ := ih false (c :: acc)
            refine ⟨'.' :: ((d :: cs).takeWhile (· ≠ '.') ++ tail), rest, ?_, .inr rfl, fun e => ?_⟩
            · rw [if_neg (by simp [ends]), h]
              simp [dot]
            · rw [whole e]
              simp [dot]
        · obtain ⟨tail, rest, h, start, whole⟩ := ih false (c :: acc)
          refine ⟨tail, rest, ?_, start, fun e => ?_⟩
          · rw [if_neg (by simp [dot]), h]
            simp [dot]
          · rw [List.takeWhile_cons_of_pos (by simp [dot]), List.cons_append, whole e]

/-- The first label of a name; none of the root. -/
def leadingLabel (name : String) : String :=
  (splitDomainName name).headD ""

/-- A first label without a dot is what stands before the first dot of the name. -/
lemma takeWhile_of_leadingLabel (name : String) (dotless : '.' ∉ (leadingLabel name).toList)
    (nonempty : leadingLabel name ≠ "") :
    (leadingLabel name).toList = name.toList.takeWhile (· ≠ '.') := by
  have root : ¬ (name = "" ∨ name = ".") := by
    intro root
    exact nonempty (by simp [leadingLabel, splitDomainName, root])
  obtain ⟨tail, rest, labels, start, whole⟩ := splitLabels_first false [] name.toList
  rw [List.reverse_nil, List.nil_append] at labels
  -- the first label loses the last dot if it is the only one
  have first : ∃ tail', (leadingLabel name).toList = name.toList.takeWhile (· ≠ '.') ++ tail' ∧
      (tail' = [] ∨ tail'.head? = some '.') := by
    unfold leadingLabel splitDomainName
    rw [if_neg root, labels]
    cases rest with
    | cons label rest => exact ⟨tail, by simp, start⟩
    | nil =>
      cases full : isFqdn name with
      | false => exact ⟨tail, by simp, start⟩
      | true =>
        rcases start with rfl | start
        · -- there is a dot
          have dot : '.' ∈ name.toList := by
            by_contra none
            rw [isFqdn_of_not_dot] at full
            · cases full
            · intro cs ends
              exact none (List.mem_reverse.mp (ends ▸ List.mem_cons_self))
          rw [← whole rfl, List.append_nil] at dot
          simpa using List.all_eq_true.mp List.all_takeWhile '.' dot
        · cases tail with
          | nil => cases start
          | cons c tail =>
            refine ⟨(c :: tail).dropLast, by simp, ?_⟩
            cases tail with
            | nil => exact .inl rfl
            | cons d tail => exact .inr start
  obtain ⟨tail', first, start'⟩ := first
  rcases start' with rfl | start'
  · rw [first, List.append_nil]
  · rw [first] at dotless
    exact (dotless (List.mem_append_right _ (List.mem_of_mem_head? start'))).elim

end GeoDNS.Dns
