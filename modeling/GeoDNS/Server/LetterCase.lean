import GeoDNS.Server.Serve
import GeoDNS.Zones.Spelling

/-!
# The letter case of queries and zone files

Names are compared without regard to letter case: `getQuestionName` gives the same label for every spelling
of a query (`getQuestionName_respelled`), and two zone files that differ in letter case only have the same
labels. What `FindLabels` finds is the same in both as far as the aliases on the way are spelled alike
(`respelled_lookups`).
-/

namespace GeoDNS.Server
open GeoDNS.Lib GeoDNS.Dns GeoDNS.Zones

/-- If the lookup of `s` returns in one of the zones, then it returns in the other, with the same labels and
    types in the same order. -/
def SameLookups (z z' : Zone) (targets : List String) (q : RRType) (s : String) : Prop :=
  (∀ fuel r, findLabels z targets [typeMF, typeCNAME, q] fuel s = .ok r →
    ∃ fuel' r', findLabels z' targets [typeMF, typeCNAME, q] fuel' s = .ok r' ∧
      matchNames r = matchNames r') ∧
  ∀ fuel' r', findLabels z' targets [typeMF, typeCNAME, q] fuel' s = .ok r' →
    ∃ fuel r, findLabels z targets [typeMF, typeCNAME, q] fuel s = .ok r ∧ matchNames r = matchNames r'

/-! ## Names of queries -/

/-- Lowering neither makes nor removes dots and backslashes. -/
lemma asciiLowerRune_eq_iff {c d : Char} (hd : d = '.' ∨ d = '\\') : asciiLowerRune c = d ↔ c = d := by
  by_cases upper : 'A' ≤ c ∧ c ≤ 'Z'
  · have range := (upper_iff c).mp upper
    have lower := asciiLowerRune_toNat range
    constructor
    · rintro rfl
      rcases hd with e | e
      · rw [e] at lower
        have : ('.' : Char).toNat = 46 := rfl
        omega
      · rw [e] at lower
        have : ('\\' : Char).toNat = 92 := rfl
        omega
    · rintro rfl
      rcases hd with rfl | rfl
      · exact absurd range (by decide)
      · exact absurd range (by decide)
  · rw [asciiLowerRune, if_neg upper]

/-- Lowering a character keeps its number of bytes. -/
lemma utf8Size_asciiLowerRune (c : Char) : (asciiLowerRune c).utf8Size = c.utf8Size := by
  by_cases upper : 'A' ≤ c ∧ c ≤ 'Z'
  · have range := (upper_iff c).mp upper
    have lower := asciiLowerRune_toNat range
    have ascii : ∀ d : Char, d.toNat < 128 → d.utf8Size = 1 := by
      intro d hd
      rw [Char.utf8Size_eq_one_iff, UInt32.le_iff_toNat_le]
      have : d.val.toNat = d.toNat := rfl
      have : (127 : UInt32).toNat = 127 := rfl
      omega
    rw [ascii _ (by omega), ascii c (by omega)]
  · rw [asciiLowerRune, if_neg upper]

/-- A name is split at the same places when it is lowered. -/
lemma splitLabels_asciiLower (quote : Bool) (acc cs : List Char) :
    splitLabels quote (acc.map asciiLowerRune) (cs.map asciiLowerRune) =
      (splitLabels quote acc cs).map (List.map asciiLowerRune) := by
  induction cs generalizing quote acc with
  | nil => simp [splitLabels]
  | cons c cs ih =>
    cases cs with
    | nil => simp [splitLabels]
    | cons d cs =>
      have slash : asciiLowerRune c = '\\' ↔ c = '\\' := asciiLowerRune_eq_iff (.inr rfl)
      have dot : asciiLowerRune c = '.' ↔ c = '.' := asciiLowerRune_eq_iff (.inl rfl)
      rw [List.map_cons, List.map_cons, splitLabels_cons_cons, splitLabels_cons_cons]
      simp only [slash, dot]
      split_ifs with hs hd
      · exact ih (!quote) (c :: acc)
      · rw [List.map_cons, List.map_reverse]
        congr 1
        exact ih false []
      · exact ih false (c :: acc)

/-- The characters of a lowered text are the lowered ones. -/
lemma toList_asciiLower (s : String) : (asciiLower s).toList = s.toList.map asciiLowerRune := by
  rw [asciiLower, String.toList_ofList]

/-- A lowered name is fully qualified if the name is. -/
lemma isFqdn_asciiLower (s : String) : isFqdn (asciiLower s) = isFqdn s := by
  have runes : (asciiLower s).toList.reverse = s.toList.reverse.map asciiLowerRune := by
    rw [toList_asciiLower, List.map_reverse]
  by_cases dot : ∃ cs, s.toList.reverse = '.' :: cs
  · obtain ⟨cs, h⟩ := dot
    rw [h, List.map_cons] at runes
    have slash : ((fun c : Char => decide (c = '\\')) ∘ asciiLowerRune) =
        fun c => decide (c = '\\') := by
      funext c
      have same : asciiLowerRune c = '\\' ↔ c = '\\' := asciiLowerRune_eq_iff (.inr rfl)
      simp only [Function.comp_apply, same]
    have width : Char.utf8Size ∘ asciiLowerRune = Char.utf8Size := funext utf8Size_asciiLowerRune
    rw [isFqdn_of_dot h, isFqdn_of_dot runes, List.takeWhile_map, List.dropWhile_map, slash,
      List.length_map, List.head?_map, Option.map_map, width]
  · simp only [not_exists] at dot
    rw [isFqdn_of_not_dot dot, isFqdn_of_not_dot]
    intro cs h
    rw [runes] at h
    obtain ⟨c, cs', h', hc, _⟩ := List.map_eq_cons_iff.mp h
    rw [(asciiLowerRune_eq_iff (.inl rfl)).mp hc] at h'
    exact dot cs' h'

/-- The labels of a lowered name are the lowered labels. -/
lemma splitDomainName_asciiLower (s : String) :
    splitDomainName (asciiLower s) = (splitDomainName s).map asciiLower := by
  have empty : ∀ t : String, t = "" ∨ t = "." ↔ t.toList = [] ∨ t.toList = ['.'] := by
    intro t
    rw [← String.toList_inj, ← String.toList_inj]
    rfl
  have same : (asciiLower s = "" ∨ asciiLower s = ".") ↔ (s = "" ∨ s = ".") := by
    rw [empty, empty, toList_asciiLower]
    rcases s.toList with _ | ⟨c, _ | ⟨d, cs⟩⟩
    · simp
    · have dot : asciiLowerRune c = '.' ↔ c = '.' := asciiLowerRune_eq_iff (.inl rfl)
      simp [dot]
    · simp
  have labels := splitLabels_asciiLower false [] s.toList
  rw [List.map_nil, ← toList_asciiLower] at labels
  unfold splitDomainName
  simp only [same, labels, isFqdn_asciiLower]
  have last : ((splitLabels false [] s.toList).map (List.map asciiLowerRune)).getLastD [] =
      ((splitLabels false [] s.toList).getLastD []).map asciiLowerRune := by
    rw [List.getLastD_eq_getLast?, List.getLastD_eq_getLast?, List.getLast?_map]
    cases (splitLabels false [] s.toList).getLast? <;> rfl
  have text : ∀ cs : List Char, String.ofList (cs.map asciiLowerRune) = asciiLower (String.ofList cs) := by
    intro cs
    rw [asciiLower, String.toList_ofList]
  rw [last, ← List.map_dropLast]
  split_ifs with root fqdn
  · rfl
  · rw [← List.map_dropLast]
    simp only [List.map_append, List.map_map, List.map_cons, List.map_nil, text, Function.comp_def]
  · simp only [List.map_append, List.map_map, List.map_cons, List.map_nil, text, Function.comp_def]

/-- The characters of an intercalation are mapped part by part. -/
lemma intercalate_map (f : Char → Char) (sep : List Char) (ws : List (List Char)) :
    (sep.intercalate ws).map f = (sep.map f).intercalate (ws.map (List.map f)) := by
  induction ws with
  | nil => rfl
  | cons w ws ih =>
    cases ws with
    | nil => simp
    | cons v ws =>
      rw [List.intercalate_cons_cons, List.map_append, List.map_append, ih, List.map_cons,
        List.map_cons, List.map_cons, List.intercalate_cons_cons]

/-- A joined name is lowered label by label. -/
lemma asciiLower_join (ws : List String) : asciiLower (join ws '.') = join (ws.map asciiLower) '.' := by
  have runes : (ws.map asciiLower).map String.toList =
      (ws.map String.toList).map (List.map asciiLowerRune) := by
    simp [toList_asciiLower, Function.comp_def]
  rw [join, join, asciiLower, String.toList_ofList, runes, intercalate_map]
  rfl

/-- Every spelling of a query has the same label. -/
theorem getQuestionName_respelled {z z' : Zone} {n n' : String} (count : z.labelCount = z'.labelCount)
    (names : asciiLower n = asciiLower n') : getQuestionName z n = getQuestionName z' n' := by
  have labels : (splitDomainName n).map asciiLower = (splitDomainName n').map asciiLower := by
    rw [← splitDomainName_asciiLower, names, splitDomainName_asciiLower]
  have length : (splitDomainName n).length = (splitDomainName n').length := by
    simpa using congrArg List.length labels
  unfold getQuestionName
  dsimp only
  rw [length, count]
  split_ifs with short
  · rfl
  · refine congrArg Res.ok (toLower_congr ?_)
    rw [asciiLower_join, asciiLower_join, List.map_take, List.map_take, labels]

/-! ## Lookups -/

section
variable {ext : Externals} {data data' : GoMap String Json} {start : RawZone} {z z' : Zone}
variable {targets : List String} {q : RRType} {s n n' : String}

/-- Reading a zone keeps its number of labels. -/
lemma setupZoneData_labelCount (empty : start.labels = ∅) (ok : setupZoneData ext data start = .ok z) :
    z.labelCount = start.labelCount := by
  obtain ⟨raw, z1, reads, fin, hsoa⟩ := setupZoneData_eq_ok empty ok
  obtain ⟨rest, _⟩ := addSOA_lookup hsoa
  rw [rest, fin.rest, reads.rest]

/-- A lookup that returns in one of the twins returns the same names in the other. -/
lemma Twins.findLabels (twins : Twins ext z z') (alike : SpelledAlike z z' targets q s) {fuel : Nat}
    {r : List LabelMatch}
    (h : Zones.findLabels z targets [typeMF, typeCNAME, q] fuel s = .ok r) :
    ∃ fuel' r', Zones.findLabels z' targets [typeMF, typeCNAME, q] fuel' s = .ok r' ∧
      matchNames r = matchNames r' := by
  obtain ⟨r', hr', names⟩ := twins.follows (value_of_findLabels h) alike
  obtain ⟨fuel', r'', h''⟩ := returns_iff.mpr ⟨r', hr'⟩
  have e := value_of_findLabels h''
  rw [hr'] at e
  cases e
  exact ⟨fuel', r', h'', names⟩

/-- Two data objects and two query names that differ in letter case only: the names have the same label.
    Its lookups find the same if, wherever the aliases on the way part, both lead to nothing. If one of the
    data objects has a capital letter wherever they part, they find the same only then. -/
theorem respelled_lookups (respelled : Respelled data data') (distinct : DistinctKeys data)
    (distinct' : DistinctKeys data') (empty : start.labels = ∅)
    (ok : setupZoneData ext data start = .ok z) (ok' : setupZoneData ext data' start = .ok z')
    (names : asciiLower n = asciiLower n') (targets : List String) (q : RRType) :
    getQuestionName z n = getQuestionName z' n' ∧ ∀ s, getQuestionName z n = .ok s →
      (SpelledAlike z z' targets q s → SameLookups z z' targets q s) ∧
      (OneSided z z' targets s → Returns z' targets [typeMF, typeCNAME, q] s →
        SameLookups z z' targets q s → SpelledAlike z z' targets q s) := by
  have twins := respelled.twins empty ok ok' distinct distinct'
  have count : z.labelCount = z'.labelCount := by
    rw [setupZoneData_labelCount empty ok, setupZoneData_labelCount empty ok']
  refine ⟨getQuestionName_respelled count names, fun s _ => ⟨fun alike => ⟨?_, ?_⟩, ?_⟩⟩
  · exact fun fuel r h => Twins.findLabels twins alike h
  · intro fuel' r' h'
    obtain ⟨fuel, r, h, e⟩ := Twins.findLabels twins.symm alike.symm h'
    exact ⟨fuel, r, h, e.symm⟩
  · rintro sided ⟨fuel', r', h'⟩ same
    obtain ⟨fuel, r, h, e⟩ := same.2 fuel' r' h'
    obtain ⟨r1, h1, _, alike⟩ := twins.fewer (value_of_findLabels h') sided
    rw [value_of_findLabels h] at h1
    cases h1
    exact alike e

end

/-- The data object of a zone with an address and an alias of it. -/
def smallAliasData (name target : String) : GoMap String Json :=
  Json.fields [("www", .obj [("a", .arr [.arr [.str "192.0.2.1"]])]), (name, .obj [("alias", .str target)])]

/-- Two labels that have only an alias, in different letter case. -/
lemma respelled_alias {target target' : String} (h : asciiLower target = asciiLower target') :
    RespelledLabel (.obj [("alias", .str target)]) (.obj [("alias", .str target')]) := by
  have others : ∀ (j : Json) key, key ≠ "alias" → (Json.fields [("alias", j)]).lookup key = none := by
    intro j key ne
    refine AList.lookup_eq_none.mpr (fun mem => ne ?_)
    exact List.mem_singleton.mp (AList.mem_keys.mp mem)
  exact .fields (fun key ne => by rw [others _ key ne, others _ key ne]) (.some (.one h))

/-- Two spellings of the name of an alias, and of a query for it. -/
theorem spellings_agree :
    ∃ z z', setupZoneData smallExternals (smallAliasData "ftp" "www") (newZone "example.com") = .ok z ∧
      setupZoneData smallExternals (smallAliasData "Ftp" "www") (newZone "example.com") = .ok z' ∧
      getQuestionName z "FTP.example.com." = getQuestionName z' "ftp.example.com." ∧
      SameLookups z z' ["@"] typeA "ftp" := by
  obtain ⟨z, ok, name, points, ends⟩ : ∃ z,
      setupZoneData smallExternals (smallAliasData "ftp" "www") (newZone "example.com") = .ok z ∧
      getQuestionName z "FTP.example.com." = .ok "ftp" ∧ aliasOf z "ftp" "@" = some (.ok "www") ∧
      aliasOf z "www" "@" = none := ⟨_, rfl, rfl, rfl, rfl⟩
  obtain ⟨z', ok', points'⟩ : ∃ z',
      setupZoneData smallExternals (smallAliasData "Ftp" "www") (newZone "example.com") = .ok z' ∧
      aliasOf z' "ftp" "@" = some (.ok "www") := ⟨_, rfl, rfl⟩
  have respelled : Respelled (smallAliasData "ftp" "www") (smallAliasData "Ftp" "www") :=
    respelled_of_entries (.cons ⟨rfl, .same _⟩ (.cons ⟨rfl, .same _⟩ .nil))
  have alike : SpelledAlike z z' ["@"] typeA "ftp" := by
    intro a reach t ht b b' hb hb' ne
    cases List.mem_singleton.mp ht
    rcases Relation.ReflTransGen.cases_head reach with rfl | ⟨c, ⟨u, hu, hc, _⟩, reach⟩
    · rw [points] at hb
      rw [points'] at hb'
      cases hb
      cases hb'
      exact (ne rfl).elim
    · cases List.mem_singleton.mp hu
      rw [points] at hc
      cases hc
      rcases Relation.ReflTransGen.cases_head reach with rfl | ⟨d, ⟨u, hu, hd, _⟩, _⟩
      · rw [ends] at hb
        cases hb
      · cases List.mem_singleton.mp hu
        rw [ends] at hd
        cases hd
  have names : asciiLower "FTP.example.com." = asciiLower "ftp.example.com." := by decide +kernel
  obtain ⟨same, lookups⟩ := respelled_lookups respelled (by decide +kernel) (by decide +kernel) rfl ok
    ok' names ["@"] typeA
  exact ⟨z, z', ok, ok', same, (lookups "ftp" name).1 alike⟩

/-- An alias in capital letters leads nowhere. -/
theorem capital_alias_unfound :
    Respelled (smallAliasData "ftp" "www") (smallAliasData "ftp" "WWW") ∧
    ∃ z z' r r', setupZoneData smallExternals (smallAliasData "ftp" "www") (newZone "example.com") = .ok z ∧
      setupZoneData smallExternals (smallAliasData "ftp" "WWW") (newZone "example.com") = .ok z' ∧
      findLabels z ["@"] [typeMF, typeCNAME, typeA] 2 "ftp" = .ok r ∧
      findLabels z' ["@"] [typeMF, typeCNAME, typeA] 2 "ftp" = .ok r' ∧
      matchNames r = [(some "www", typeA)] ∧ matchNames r' = [(some "ftp", 0)] :=
  ⟨respelled_of_entries (.cons ⟨rfl, respelled_alias (by decide +kernel)⟩ (.cons ⟨rfl, .same _⟩ .nil)),
    _, _, _, _, rfl, rfl, rfl, rfl, rfl, rfl⟩

end GeoDNS.Server
