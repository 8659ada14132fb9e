import GeoDNS.Dns.Msg
import GeoDNS.Lib.GoMap
import GeoDNS.Lib.Letters

/-!
# The request multiplexer

`serve_mux.go` of the vendored `miekg/dns`. A pattern is stored in fully qualified form and otherwise as it
is; a query name is put in lower case and looked up, then what stands behind its first separator, and so on.
So the handler that is found is that of the longest such suffix with a pattern of its own
(`matchName_longest`).
-/

namespace GeoDNS.Dns
open GeoDNS.Lib

abbrev typeDS : RRType := 43

/-- What stands behind each separator of a name (the loop around Go `dns.NextLabel`); `quote` holds after
    a backslash that is not itself escaped. The last character is not looked at. -/
def behindDots : Bool → List Char → List (List Char)
  | _, [] => []
  | _, [_] => []
  | quote, c :: cs =>
    if c = '\\' then behindDots (!quote) cs
    else if c = '.' ∧ quote = false then cs :: behindDots false cs
    else behindDots false cs

/-- The names that `match` looks up for a query name. -/
def lookupNames (q : String) : List String :=
  let q := asciiLower q
  q :: (behindDots false q.toList).map String.ofList

/-- Go `dns.ServeMux`. -/
structure ServeMux (η : Type) where
  z : GoMap String η := ∅

namespace ServeMux
variable {η : Type}

/-- Go `ServeMux.Handle`. -/
def handle (mux : ServeMux η) (pattern : String) (handler : η) : Res (ServeMux η) :=
  if pattern = "" then .panic (.explicit ("dns: invalid pattern " ++ pattern))
  else .ok ⟨mux.z.insert (fqdn pattern) handler⟩

/-- Go `ServeMux.HandleRemove`. -/
def handleRemove (mux : ServeMux η) (pattern : String) : Res (ServeMux η) :=
  if pattern = "" then .panic (.explicit ("dns: invalid pattern " ++ pattern))
  else .ok ⟨mux.z.erase (fqdn pattern)⟩

/-- The loop of `match`. A query for a `DS` record goes on to the parent zone; after the loop the root zone
    is tried. -/
def tryNames (mux : ServeMux η) (t : RRType) (handler : Option η) : List String → Option η
  | [] =>
    match mux.z.lookup "." with
    | some h => some h
    | none => handler
  | name :: names =>
    match mux.z.lookup name with
    | some h => if t ≠ typeDS then some h else tryNames mux t (some h) names
    | none => tryNames mux t handler names

/-- Go `ServeMux.match`. -/
def matchName (mux : ServeMux η) (q : String) (t : RRType) : Option η :=
  mux.tryNames t none (lookupNames q)

/-- The handler that `ServeMux.ServeDNS` calls, if there is one. -/
def handlerFor (mux : ServeMux η) (req : Msg) : Option η :=
  match req.question with
  | [] => none
  | question :: _ => mux.matchName question.name question.qtype

end ServeMux

/-- Does an open backslash stand at the end of the text? -/
def escaped (quote : Bool) (cs : List Char) : Bool :=
  cs.foldl (fun quote c => c = '\\' && !quote) quote

/-! ## The names that are looked up -/

/-- The texts behind the dots that are not escaped. -/
lemma mem_behindDots {quote : Bool} {cs s : List Char} : s ∈ behindDots quote cs ↔
    ∃ head, cs = head ++ '.' :: s ∧ s ≠ [] ∧ escaped quote head = false := by
  induction cs generalizing quote with
  | nil => simp [behindDots]
  | cons c cs ih =>
    cases cs with
    | nil =>
      -- behind a last character stands nothing
      simp only [behindDots, List.not_mem_nil, false_iff]
      rintro ⟨head, e, ne, _⟩
      have length := congrArg List.length e
      simp only [List.length_cons, List.length_nil, List.length_append] at length
      exact ne (List.length_eq_zero_iff.mp (by omega))
    | cons c' cs =>
      -- a separator further on, with the state after the first character
      have later : (∃ head, c :: c' :: cs = c :: head ++ '.' :: s ∧ s ≠ [] ∧
          escaped quote (c :: head) = false) ↔ s ∈ behindDots (c = '\\' && !quote) (c' :: cs) := by
        rw [ih]
        simp [escaped]
      have split : (∃ head, c :: c' :: cs = head ++ '.' :: s ∧ s ≠ [] ∧ escaped quote head = false) ↔
          (c = '.' ∧ s = c' :: cs ∧ quote = false) ∨ s ∈ behindDots (c = '\\' && !quote) (c' :: cs) := by
        rw [← later]
        constructor
        · rintro ⟨head, e, ne, esc⟩
          cases head with
          | nil =>
            obtain ⟨rfl, rfl⟩ := List.cons.inj e
            exact .inl ⟨rfl, rfl, esc⟩
          | cons d head =>
            obtain ⟨rfl, e⟩ := List.cons.inj e
            exact .inr ⟨head, by rw [e, List.cons_append], ne, esc⟩
        · rintro (⟨rfl, rfl, rfl⟩ | ⟨head, e, ne, esc⟩)
          · exact ⟨[], rfl, List.cons_ne_nil _ _, rfl⟩
          · exact ⟨c :: head, e, ne, esc⟩
      rw [split, behindDots]
      · by_cases slash : c = '\\'
        · subst slash
          simp
        · by_cases dot : c = '.' ∧ quote = false
          · obtain ⟨rfl, rfl⟩ := dot
            simp
          · have other : ¬ (c = '.' ∧ s = c' :: cs ∧ quote = false) := fun h => dot ⟨h.1, h.2.2⟩
            simp [slash, dot, other]
      · simp

/-- The names that the mux tries: the name itself, and what comes behind its dots. -/
lemma mem_lookupNames {q s : String} : s ∈ lookupNames q ↔ s = asciiLower q ∨
    ∃ head, (asciiLower q).toList = head ++ '.' :: s.toList ∧ s ≠ "" ∧ escaped false head = false := by
  unfold lookupNames
  simp only [List.mem_cons, List.mem_map, mem_behindDots]
  apply or_congr_right
  constructor
  · rintro ⟨cs, ⟨head, e, ne, esc⟩, rfl⟩
    refine ⟨head, by simpa using e, ?_, esc⟩
    intro empty
    exact ne (by simpa using congrArg String.toList empty)
  · rintro ⟨head, e, ne, esc⟩
    refine ⟨s.toList, ⟨head, e, ?_, esc⟩, String.ofList_toList⟩
    intro empty
    exact ne (String.toList_inj.mp empty)

/-- The names get shorter and shorter. -/
lemma lookupNames_pairwise (q : String) :
    (lookupNames q).Pairwise (fun a b => b.length < a.length) := by
  have behind : ∀ (quote : Bool) (cs : List Char),
      (behindDots quote cs).Pairwise (fun a b => b.length < a.length) := by
    intro quote cs
    induction cs generalizing quote with
    | nil => exact .nil
    | cons c cs ih =>
      cases cs with
      | nil => exact .nil
      | cons c' cs =>
        rw [behindDots]
        · split
          · exact ih _
          · split
            · refine .cons ?_ (ih _)
              intro s hs
              obtain ⟨head, e, _⟩ := mem_behindDots.mp hs
              rw [e, List.length_append, List.length_cons]
              omega
            · exact ih _
        · simp
  unfold lookupNames
  refine .cons ?_ ?_
  · intro s hs
    obtain ⟨cs, hcs, rfl⟩ := List.mem_map.mp hs
    obtain ⟨head, e, _⟩ := mem_behindDots.mp hcs
    have length := congrArg List.length e
    rw [String.length_toList, List.length_append, List.length_cons] at length
    rw [String.length_ofList]
    omega
  · rw [List.pairwise_map]
    simpa using behind false _

/-! ## What is found -/

namespace ServeMux
variable {η : Type} {mux : ServeMux η} {q s : String} {t : RRType} {h : η} {names : List String}

/-- The longest of the names that has a handler is the one that counts. -/
lemma tryNames_longest (hs : s ∈ names) (hz : mux.z.lookup s = some h)
    (shorter : names.Pairwise (fun a b => b.length < a.length))
    (longest : ∀ s' ∈ names, s' ∈ mux.z → s'.length ≤ s.length) (ht : t ≠ typeDS)
    (handler : Option η) : mux.tryNames t handler names = some h := by
  induction names with
  | nil => cases hs
  | cons a names ih =>
    obtain ⟨before, shorter⟩ := List.pairwise_cons.mp shorter
    unfold tryNames
    rcases List.mem_cons.mp hs with rfl | hs
    · rw [hz]
      exact if_pos ht
    · -- a longer name has no handler
      have none : mux.z.lookup a = none := by
        rw [AList.lookup_eq_none]
        intro ha
        have le := longest a List.mem_cons_self ha
        have lt := before s hs
        omega
      rw [none]
      exact ih hs shorter (fun s' hs' => longest s' (List.mem_cons_of_mem _ hs'))

/-- A name that is looked up and has a handler is found if no longer one does. -/
theorem matchName_longest (hs : s ∈ lookupNames q) (hz : mux.z.lookup s = some h)
    (longest : ∀ s' ∈ lookupNames q, s' ∈ mux.z → s'.length ≤ s.length) (ht : t ≠ typeDS) :
    mux.matchName q t = some h :=
  tryNames_longest hs hz (lookupNames_pairwise q) longest ht none

/-- A handler that is found is that of a name that was looked up, or of the root zone. -/
theorem of_matchName (found : mux.matchName q t = some h) :
    (∃ s ∈ lookupNames q, mux.z.lookup s = some h) ∨ mux.z.lookup "." = some h := by
  have all : ∀ names handler, mux.tryNames t handler names = some h → handler = some h ∨
      (∃ s ∈ names, mux.z.lookup s = some h) ∨ mux.z.lookup "." = some h := by
    intro names
    induction names with
    | nil =>
      intro handler found
      unfold tryNames at found
      split at found
      · rename_i root
        exact .inr (.inr (root.trans found))
      · exact .inl found
    | cons a names ih =>
      intro handler found
      unfold tryNames at found
      split at found
      · rename_i h' ha
        split at found
        · exact .inr (.inl ⟨a, List.mem_cons_self, ha.trans found⟩)
        · rcases ih _ found with e | ⟨s, hs, hz⟩ | root
          · exact .inr (.inl ⟨a, List.mem_cons_self, ha.trans e⟩)
          · exact .inr (.inl ⟨s, List.mem_cons_of_mem _ hs, hz⟩)
          · exact .inr (.inr root)
      · rcases ih _ found with e | ⟨s, hs, hz⟩ | root
        · exact .inl e
        · exact .inr (.inl ⟨s, List.mem_cons_of_mem _ hs, hz⟩)
        · exact .inr (.inr root)
  exact (all _ none found).resolve_left nofun

end ServeMux
end GeoDNS.Dns
