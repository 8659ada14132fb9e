import GeoDNS.Dns.ServeMux

/-!
# The labels of a name below another

When a name ends in a dot that separates, followed by another name, its labels are those in front of the
dot and then those of the other name (`splitDomainName_below`). A final dot does not add a label
(`countLabel_fqdn`).
-/

namespace GeoDNS.Dns
open GeoDNS.Lib

/-- The labels in front of a separator; unlike in `splitLabels`, the last character is looked at. -/
def frontLabels : Bool → List Char → List Char → List (List Char)
  | _, acc, [] => [acc.reverse]
  | quote, acc, c :: cs =>
    if c = '\\' then frontLabels (!quote) (c :: acc) cs
    else if c = '.' ∧ quote = false then acc.reverse :: frontLabels false [] cs
    else frontLabels false (c :: acc) cs

section
variable {quote : Bool} {acc head tail : List Char} {s n : String}

/-- There is always a last label. -/
lemma splitLabels_ne_nil (quote : Bool) (acc cs : List Char) : splitLabels quote acc cs ≠ [] := by
  obtain ⟨tail, rest, h, -, -⟩ := splitLabels_first quote acc cs
  rw [h]
  exact List.cons_ne_nil _ _

/-- A separator between two texts separates their labels. -/
lemma splitLabels_append (separates : escaped quote head = false) (more : tail ≠ []) :
    splitLabels quote acc (head ++ '.' :: tail) =
      frontLabels quote acc head ++ splitLabels false [] tail := by
  induction head generalizing quote acc with
  | nil =>
    obtain ⟨c, cs, rfl⟩ := List.exists_cons_of_ne_nil more
    have quote_eq : quote = false := separates
    rw [List.nil_append, splitLabels_cons_cons, if_neg (by decide), if_pos ⟨rfl, quote_eq⟩]
    rfl
  | cons c head ih =>
    obtain ⟨d, rest, next⟩ : ∃ d rest, head ++ '.' :: tail = d :: rest :=
      List.exists_cons_of_ne_nil (by simp)
    rw [List.cons_append, next, splitLabels_cons_cons, ← next]
    unfold frontLabels
    by_cases slash : c = '\\'
    · subst slash
      rw [if_pos rfl, if_pos rfl]
      refine ih ?_
      simpa [escaped] using separates
    · rw [if_neg slash, if_neg slash]
      have rest : escaped false head = false := by simpa [escaped, slash] using separates
      by_cases dot : c = '.' ∧ quote = false
      · rw [if_pos dot, if_pos dot, ih rest, List.cons_append]
      · rw [if_neg dot, if_neg dot, ih rest]

/-- Another final dot makes no difference to the number of labels, unless there was one already. -/
lemma splitLabels_dot_length {cs : List Char} (quote : Bool) (acc : List Char)
    (plain : cs.getLast? ≠ some '.') :
    (splitLabels quote acc (cs ++ ['.'])).length = (splitLabels quote acc cs).length := by
  induction cs generalizing quote acc with
  | nil => rfl
  | cons c cs ih =>
    cases cs with
    | nil =>
      have dot : c ≠ '.' := by simpa using plain
      rw [List.singleton_append, splitLabels_cons_cons]
      by_cases slash : c = '\\'
      · rw [if_pos slash]
        rfl
      · rw [if_neg slash, if_neg fun h => dot h.1]
        rfl
    | cons d cs =>
      have plain : (d :: cs).getLast? ≠ some '.' := by simpa [List.getLast?_cons_cons] using plain
      rw [List.cons_append, List.cons_append, splitLabels_cons_cons, splitLabels_cons_cons,
        ← List.cons_append]
      by_cases slash : c = '\\'
      · rw [if_pos slash, if_pos slash]
        exact ih _ _ plain
      · rw [if_neg slash, if_neg slash]
        by_cases dot : c = '.' ∧ quote = false
        · rw [if_pos dot, if_pos dot, List.length_cons, List.length_cons, ih _ _ plain]
        · rw [if_neg dot, if_neg dot]
          exact ih _ _ plain

/-- And it never takes a label away. -/
lemma splitLabels_dot_le {cs : List Char} (quote : Bool) (acc : List Char) :
    (splitLabels quote acc cs).length ≤ (splitLabels quote acc (cs ++ ['.'])).length := by
  induction cs generalizing quote acc with
  | nil => exact le_refl 1
  | cons c cs ih =>
    cases cs with
    | nil => exact List.length_pos_iff.mpr (splitLabels_ne_nil _ _ _)
    | cons d cs =>
      rw [List.cons_append, List.cons_append, splitLabels_cons_cons, splitLabels_cons_cons,
        ← List.cons_append]
      split_ifs
      · exact ih _ _
      · exact Nat.succ_le_succ (ih _ _)
      · exact ih _ _

/-- A name that does not end in a dot has another last character, or none. -/
lemma getLast?_of_endsWith (plain : endsWith n "." = false) : n.toList.getLast? ≠ some '.' := by
  intro last
  obtain ⟨init, h⟩ := List.getLast?_eq_some_iff.mp last
  have dotted : endsWith n "." = true := by
    unfold endsWith
    rw [h]
    exact List.isSuffixOf_iff_suffix.mpr (List.suffix_append _ _)
  rw [plain] at dotted
  cases dotted

/-- The fully qualified form of a name has at least as many labels. -/
lemma countLabel_le_fqdn (ne : n ≠ ".") (ne' : fqdn n ≠ ".") : countLabel n ≤ countLabel (fqdn n) := by
  unfold countLabel
  rw [if_neg ne, if_neg ne']
  unfold fqdn
  split_ifs
  · exact le_refl _
  · rw [String.toList_append]
    exact splitLabels_dot_le _ _

/-- It has as many if the name has no final dot, or one that is taken for what it is. -/
lemma countLabel_fqdn (ne : n ≠ ".") (ne' : fqdn n ≠ ".")
    (plain : endsWith n "." = true → isFqdn n = true) : countLabel (fqdn n) = countLabel n := by
  unfold countLabel
  rw [if_neg ne, if_neg ne']
  unfold fqdn
  split_ifs with full
  · rfl
  · have last : endsWith n "." = false := by
      by_contra dotted
      exact full (plain (by simpa using dotted))
    rw [String.toList_append]
    exact splitLabels_dot_length _ _ (getLast?_of_endsWith last)

/-! ## Names in text form -/

/-- As many labels come out as are counted. -/
lemma splitDomainName_length (ne : s ≠ "") (ne' : s ≠ ".") :
    (splitDomainName s).length = countLabel s := by
  have some := List.length_pos_iff.mpr (splitLabels_ne_nil false [] s.toList)
  unfold splitDomainName countLabel
  rw [if_neg (by simp [ne, ne']), if_neg ne']
  simp only [List.length_map, List.length_append, List.length_dropLast, List.length_singleton]
  omega

/-- Where the backslashes at the beginning of a text end, a dot behind it makes no difference. -/
lemma dropWhile_append_dot (cs rest : List Char) :
    (((cs ++ '.' :: rest).dropWhile (· = '\\')).head?.map Char.utf8Size).getD 1 =
      ((cs.dropWhile (· = '\\')).head?.map Char.utf8Size).getD 1 := by
  induction cs with
  | nil => rfl
  | cons c cs ih =>
    by_cases slash : c = '\\'
    · rw [List.cons_append, List.dropWhile_cons_of_pos (by simpa using slash),
        List.dropWhile_cons_of_pos (by simpa using slash), ih]
    · rw [List.cons_append, List.dropWhile_cons_of_neg (by simpa using slash),
        List.dropWhile_cons_of_neg (by simpa using slash)]
      rfl

/-- Nor does it for the backslashes themselves. -/
lemma takeWhile_append_dot (cs rest : List Char) :
    (cs ++ '.' :: rest).takeWhile (· = '\\') = cs.takeWhile (· = '\\') := by
  induction cs with
  | nil => rfl
  | cons c cs ih =>
    by_cases slash : c = '\\'
    · rw [List.cons_append, List.takeWhile_cons_of_pos (by simpa using slash),
        List.takeWhile_cons_of_pos (by simpa using slash), ih]
    · rw [List.cons_append, List.takeWhile_cons_of_neg (by simpa using slash),
        List.takeWhile_cons_of_neg (by simpa using slash)]

/-- Whether a name is fully qualified does not depend on what stands in front of it. -/
lemma isFqdn_below (ne : s ≠ "") : isFqdn (String.ofList (head ++ '.' :: s.toList)) = isFqdn s := by
  have rev : (String.ofList (head ++ '.' :: s.toList)).toList.reverse =
      s.toList.reverse ++ '.' :: head.reverse := by
    rw [String.toList_ofList, List.reverse_append, List.reverse_cons, List.append_assoc]
    rfl
  cases h : s.toList.reverse with
  | nil =>
    rw [List.reverse_eq_nil_iff] at h
    exact (ne (String.toList_inj.mp h)).elim
  | cons c cs =>
    rw [h, List.cons_append] at rev
    by_cases dot : c = '.'
    · subst dot
      rw [isFqdn_of_dot rev, isFqdn_of_dot h, dropWhile_append_dot, takeWhile_append_dot]
    · rw [isFqdn_of_not_dot, isFqdn_of_not_dot]
      · intro cs' e
        rw [h] at e
        exact dot (List.cons.inj e).1
      · intro cs' e
        rw [rev] at e
        exact dot (List.cons.inj e).1

/-- The labels of a name below another one. -/
theorem splitDomainName_below (separates : escaped false head = false) (ne : s ≠ "") (ne' : s ≠ ".") :
    splitDomainName (String.ofList (head ++ '.' :: s.toList)) =
      (frontLabels false [] head).map String.ofList ++ splitDomainName s := by
  have more : s.toList ≠ [] := fun e => ne (String.toList_inj.mp e)
  have root : ¬ (String.ofList (head ++ '.' :: s.toList) = "" ∨
      String.ofList (head ++ '.' :: s.toList) = ".") := by
    rintro (e | e)
    · simpa using congrArg String.toList e
    · have e := congrArg (List.length ∘ String.toList) e
      simp only [Function.comp_apply, String.toList_ofList, List.length_append, List.length_cons] at e
      have one : (".".toList).length = 1 := rfl
      have some := List.length_pos_iff.mpr more
      omega
  have labels : splitLabels false [] (head ++ '.' :: s.toList) =
      frontLabels false [] head ++ splitLabels false [] s.toList := splitLabels_append separates more
  have back := splitLabels_ne_nil false [] s.toList
  have last : (frontLabels false [] head ++ splitLabels false [] s.toList).getLastD [] =
      (splitLabels false [] s.toList).getLastD [] := by
    rw [List.getLastD_eq_getLast?, List.getLastD_eq_getLast?, List.getLast?_append_of_ne_nil _ back]
  unfold splitDomainName
  rw [if_neg root, if_neg (by simp [ne, ne'])]
  simp only [String.toList_ofList, labels, isFqdn_below ne, last, List.dropLast_append_of_ne_nil back,
    List.map_append, List.append_assoc]

end
end GeoDNS.Dns
