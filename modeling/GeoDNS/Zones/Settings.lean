import GeoDNS.Zones.Changes

/-!
# The options of a zone file, field by field

The loop over the top-level fields of a document, taken apart as the loop over the fields of a label is:
`readSetting` reads a field without the zone, `Setting.apply` sets what was read, and every option is set
by the one field that has its name. The errors that `ReadZoneFile` returns and the panics it recovers both
reject the file, and `accepted` takes them for the same.
-/

namespace GeoDNS.Zones
open GeoDNS.Lib GeoDNS.Targeting

/-- The result of a computation that may also end with an error. -/
def accepted {α : Type} : Res (Except String α) → Res α
  | .ok (.ok a) => .ok a
  | .ok (.error err) => .panic (.explicit err)
  | .panic p => .panic p
  | .diverge => .diverge

/-- What is accepted is without an error. -/
lemma accepted_eq_ok {α : Type} {x : Res (Except String α)} {a : α} :
    accepted x = .ok a ↔ x = .ok (.ok a) := by
  cases x with
  | ok r => cases r <;> simp [accepted]
  | panic p => simp [accepted]
  | diverge => simp [accepted]

/-- What one top-level field sets. -/
inductive Setting where
  | ttl (n : Int)
  | serial (n : Int)
  | contact (s : String)
  | maxHosts (n : Int)
  | closest (b : Bool)
  | targeting (t : TargetOptions)
  | logging (l : ZoneLogging)
  | data (d : GoMap String Json)
  | parseIP (b : Bool)
  | nothing

/-- What a top-level field of this name sets. -/
def readSetting (k : String) (v : Json) : Res Setting :=
  if k = "ttl" then Setting.ttl <$> Typeutil.toInt v
  else if k = "serial" then Setting.serial <$> Typeutil.toInt v
  else if k = "contact" then Setting.contact <$> v.asStr
  else if k = "max_hosts" then Setting.maxHosts <$> Typeutil.toInt v
  else if k = "closest" then Setting.closest <$> v.asBool
  else if k = "targeting" then do
    let s ← v.asStr
    match parseTargets s with
    | (_, some err) => .panic (.explicit ("parsing targeting '" ++ s ++ "': " ++ err))
    | (t, none) => return .targeting t
  else if k = "logging" then do
    let l ← readLogging (← v.asObj)
    return .logging l
  else if k = "data" then Setting.data <$> v.asObj
  else if k = "parseIP" then Setting.parseIP <$> v.asBool
  else .ok .nothing

namespace Setting

/-- Set it, in the zone and the data object read so far. -/
def apply (st : RawZone × GoMap String Json) : Setting → RawZone × GoMap String Json
  | ttl n => ({ st.1 with options := { st.1.options with ttl := n } }, st.2)
  | serial n => ({ st.1 with options := { st.1.options with serial := n } }, st.2)
  | contact s => ({ st.1 with options := { st.1.options with contact := s } }, st.2)
  | maxHosts n => ({ st.1 with options := { st.1.options with maxHosts := n } }, st.2)
  | closest b =>
    ({ st.1 with
      options := { st.1.options with closest := b }
      hasClosest := st.1.hasClosest || b }, st.2)
  | targeting t => ({ st.1 with options := { st.1.options with targeting := t } }, st.2)
  | logging l => ({ st.1 with logging := some l }, st.2)
  | data d => (st.1, d)
  | parseIP b => ({ st.1 with parseIP := b }, st.2)
  | nothing => st

/-- The name of the field that sets it. -/
def At (k : String) : Setting → Prop
  | ttl _ => k = "ttl"
  | serial _ => k = "serial"
  | contact _ => k = "contact"
  | maxHosts _ => k = "max_hosts"
  | closest _ => k = "closest"
  | targeting _ => k = "targeting"
  | logging _ => k = "logging"
  | data _ => k = "data"
  | parseIP _ => k = "parseIP"
  | nothing => True

/-- The data object after a setting. -/
def dataAfter (d : GoMap String Json) : Setting → GoMap String Json
  | data d' => d'
  | _ => d

/-- The TTL of the zone after a setting. -/
def ttlAfter (n : Int) : Setting → Int
  | ttl m => m
  | _ => n

end Setting

section
variable {k : String} {v : Json} {s : Setting} {z z' : RawZone} {data data' : GoMap String Json}
variable {es : List (Σ _ : String, Json)}

/-- What a field sets belongs to its name. -/
lemma readSetting_at (h : readSetting k v = .ok s) : s.At k := by
  have plain : ∀ {α : Type} {x : Res α} {mk : α → Setting}, (mk <$> x) = .ok s →
      (∀ a, (mk a).At k) → s.At k := by
    intro α x mk h at_k
    obtain ⟨a, _, rfl⟩ := Res.map_eq_ok.mp h
    exact at_k a
  unfold readSetting at h
  simp only [ite_eq_iff] at h
  rcases h with ⟨ttl, h⟩ | ⟨-, ⟨serial, h⟩ | ⟨-, ⟨contact, h⟩ | ⟨-, ⟨maxHosts, h⟩ | ⟨-, ⟨closest, h⟩ |
    ⟨-, ⟨targeting, h⟩ | ⟨-, ⟨logging, h⟩ | ⟨-, ⟨data, h⟩ | ⟨-, ⟨parseIP, h⟩ | ⟨-, h⟩⟩⟩⟩⟩⟩⟩⟩⟩
  · exact plain h (fun _ => ttl)
  · exact plain h (fun _ => serial)
  · exact plain h (fun _ => contact)
  · exact plain h (fun _ => maxHosts)
  · exact plain h (fun _ => closest)
  · obtain ⟨s, _, h⟩ := Res.bind_eq_ok.mp h
    rcases hp : parseTargets s with ⟨t, _ | err⟩
    · rw [hp] at h
      cases h
      exact targeting
    · rw [hp] at h
      cases h
  · obtain ⟨o, _, h⟩ := Res.bind_eq_ok.mp h
    obtain ⟨l, _, h⟩ := Res.bind_eq_ok.mp h
    cases h
    exact logging
  · exact plain h (fun _ => data)
  · exact plain h (fun _ => parseIP)
  · cases h
    trivial

/-- Two switches on one key have the same result if their branches do. -/
private lemma accepted_ite {α β : Type} {c : Prop} [Decidable c] {f : β → α} {x x' : Res (Except String α)}
    {y y' : Res β} (pos : accepted x = f <$> y) (neg : accepted x' = f <$> y') :
    accepted (if c then x else x') = f <$> (if c then y else y') := by
  rw [apply_ite accepted, pos, neg, ← apply_ite (f <$> ·)]

/-- One turn of the loop over the top-level fields. -/
lemma accepted_readOption (z : RawZone) (data : GoMap String Json) (k : String) (v : Json) :
    accepted (readOption z data k v) = Setting.apply (z, data) <$> readSetting k v := by
  unfold readOption readSetting
  refine accepted_ite ?ttl (accepted_ite ?serial (accepted_ite ?contact (accepted_ite ?maxHosts
    (accepted_ite ?closest (accepted_ite ?targeting (accepted_ite ?logging (accepted_ite ?data
      (accepted_ite ?parseIP rfl))))))))
  case ttl => cases Typeutil.toInt v <;> rfl
  case serial => cases Typeutil.toInt v <;> rfl
  case contact => cases v.asStr <;> rfl
  case maxHosts => cases Typeutil.toInt v <;> rfl
  case closest => cases v.asBool <;> rfl
  case targeting =>
    cases v.asStr with
    | ok s => rcases hp : parseTargets s with ⟨t, _ | err⟩ <;> simp [hp, accepted, Setting.apply]
    | panic p => rfl
    | diverge => rfl
  case logging =>
    cases v.asObj with
    | ok o =>
      rw [Res.ok_bind, Res.ok_bind]
      cases readLogging o <;> rfl
    | panic p => rfl
    | diverge => rfl
  case data => cases v.asObj <;> rfl
  case parseIP => cases v.asBool <;> rfl

/-- The loop over the top-level fields. -/
theorem accepted_readOptions (es : List (Σ _ : String, Json)) (z : RawZone) (data : GoMap String Json) :
    accepted (readOptions es z data) =
      (fun settings => settings.foldl (fun st e => e.2.apply st) (z, data)) <$>
        GoMap.traverseEntries readSetting es := by
  induction es generalizing z data with
  | nil => rfl
  | cons e es ih =>
    have turn : accepted (readOptions (e :: es) z data) =
        accepted (readOption z data e.1 e.2) >>= fun st => accepted (readOptions es st.1 st.2) := by
      rw [readOptions]
      cases readOption z data e.1 e.2 with
      | ok r => cases r <;> rfl
      | panic p => rfl
      | diverge => rfl
    rw [turn, accepted_readOption, GoMap.traverseEntries]
    cases readSetting e.1 e.2 with
    | ok s =>
      rw [Res.map_ok, Res.ok_bind, Res.ok_bind, ih]
      cases GoMap.traverseEntries readSetting es <;> rfl
    | panic p => rfl
    | diverge => rfl

/-- The settings of a document, each under the name that it belongs to. -/
lemma readSettings_belong {settings : List (Σ _ : String, Setting)} (nodup : es.NodupKeys)
    (h : GoMap.traverseEntries readSetting es = .ok settings) :
    settings.NodupKeys ∧ ∀ e ∈ settings, e.2.At e.1 := by
  refine ⟨GoMap.nodupKeys_traverseEntries nodup h, ?_⟩
  intro e he
  obtain ⟨v, _, hread⟩ := GoMap.mem_traverseEntries nodup h he
  exact readSetting_at hread

/-- No setting touches the labels and the name of the zone. -/
lemma applySettings_zone (settings : List (Σ _ : String, Setting)) (st : RawZone × GoMap String Json) :
    (settings.foldl (fun st e => e.2.apply st) st).1.labels = st.1.labels ∧
      (settings.foldl (fun st e => e.2.apply st) st).1.origin = st.1.origin := by
  induction settings generalizing st with
  | nil => exact ⟨rfl, rfl⟩
  | cons e settings ih =>
    obtain ⟨labels, origin⟩ := ih (e.2.apply st)
    rw [List.foldl_cons, labels, origin]
    cases e.2 <;> exact ⟨rfl, rfl⟩

/-- After all options, a part of the state that one field sets is what that field has made of it. -/
lemma readOptions_part {τ : Type} (part : RawZone × GoMap String Json → τ) (after : τ → Setting → τ)
    (key : String) (step : ∀ st s, part (Setting.apply st s) = after (part st) s)
    (skips : ∀ k s x, Setting.At k s → k ≠ key → after x s = x) (nodup : es.NodupKeys)
    (h : readOptions es z data = .ok (.ok (z', data'))) :
    (es.dlookup key = none ∧ part (z', data') = part (z, data)) ∨
      ∃ v s, es.dlookup key = some v ∧ readSetting key v = .ok s ∧
        part (z', data') = after (part (z, data)) s := by
  have accepts := accepted_readOptions es z data
  rw [h] at accepts
  obtain ⟨settings, hsettings, state⟩ := Res.map_eq_ok.mp accepts.symm
  obtain ⟨nodup', belongs⟩ := readSettings_belong nodup hsettings
  have parts := GoMap.foldl_part part after key step skips nodup' belongs (z, data)
  rw [state] at parts
  rcases GoMap.dlookup_traverseEntries hsettings key with ⟨hn, hn'⟩ | ⟨v, s, hv, hs, hread⟩
  · rw [hn'] at parts
    exact .inl ⟨hn, parts⟩
  · rw [hs] at parts
    exact .inr ⟨v, s, hv, hread, parts⟩

/-- After all options the data object is that of the document, if it has one. -/
lemma readOptions_data (nodup : es.NodupKeys) (h : readOptions es z data = .ok (.ok (z', data'))) :
    (z'.labels = z.labels ∧ z'.origin = z.origin) ∧
      ((es.dlookup "data" = none ∧ data' = data) ∨
        ∃ d, es.dlookup "data" = some (.obj d) ∧ data' = Json.fields d) := by
  have zone : z'.labels = z.labels ∧ z'.origin = z.origin := by
    have accepts := accepted_readOptions es z data
    rw [h] at accepts
    obtain ⟨settings, _, state⟩ := Res.map_eq_ok.mp accepts.symm
    have kept := applySettings_zone settings (z, data)
    rw [state] at kept
    exact kept
  have step : ∀ st s, (Setting.apply st s).2 = Setting.dataAfter st.2 s := by
    intro st s
    cases s <;> rfl
  have skips : ∀ k s x, Setting.At k s → k ≠ "data" → Setting.dataAfter x s = x := by
    intro k s x at_k ne
    cases s with
    | data d => exact (ne at_k).elim
    | _ => rfl
  refine ⟨zone, ?_⟩
  rcases readOptions_part Prod.snd Setting.dataAfter "data" step skips nodup h with
    ⟨hn, object⟩ | ⟨v, s, hv, hread, object⟩
  · exact .inl ⟨hn, object⟩
  · cases v with
    | obj d =>
      cases hread
      exact .inr ⟨d, hv, object⟩
    | _ => cases hread

/-- After all options the TTL of the zone is that of the document, if it has one. -/
lemma readOptions_ttl (nodup : es.NodupKeys) (h : readOptions es z data = .ok (.ok (z', data'))) :
    (es.dlookup "ttl" = none ∧ z'.options.ttl = z.options.ttl) ∨
      ∃ v, es.dlookup "ttl" = some v ∧ Typeutil.toInt v = .ok z'.options.ttl := by
  have step : ∀ (st : RawZone × GoMap String Json) s,
      (Setting.apply st s).1.options.ttl = Setting.ttlAfter st.1.options.ttl s := by
    intro st s
    cases s <;> rfl
  have skips : ∀ k s x, Setting.At k s → k ≠ "ttl" → Setting.ttlAfter x s = x := by
    intro k s x at_k ne
    cases s with
    | ttl n => exact (ne at_k).elim
    | _ => rfl
  rcases readOptions_part (fun st => st.1.options.ttl) Setting.ttlAfter "ttl" step skips nodup h with
    ⟨hn, ttl⟩ | ⟨v, s, hv, hread, ttl⟩
  · exact .inl ⟨hn, ttl⟩
  · obtain ⟨n, hint, rfl⟩ := Res.map_eq_ok.mp (hread : Setting.ttl <$> Typeutil.toInt v = .ok s)
    exact .inr ⟨v, hv, hint.trans (congrArg Res.ok ttl.symm)⟩

end
end GeoDNS.Zones
