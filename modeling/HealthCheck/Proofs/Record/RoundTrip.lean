import HealthCheck.Proofs.Json.Shape
import HealthCheck.Proofs.Record.Timestamp
import HealthCheck.Proofs.Text.Encoding
import HealthCheck.Record.Yaml

/-!
# Records read back

A record is written as its parts in order, without those that are left out, and a part that is left
out is the default of its reader. So every part reads back by itself, wherever it stands
(`Record.part_present`), and a record reads back whose parts do.

The one part that can change is the body of a probe result, which is written as text. Endpoints and
suites read back equal exactly when their bodies are texts, and the bodies of a manifest that was
read are: `Manifest.reads_back_iff`.
-/

namespace HealthCheck

/-! ## Parts -/

namespace Record

/-- The fields of a record, given for each part what is written of it. -/
def present (parts : List (Text × Option Json)) : Fields Json :=
  parts.filterMap fun part => part.2.map (part.1, ·)

/-- What is written of a part that is left out when it is empty. -/
def shown {α : Type} (items : List α) (value : Json) : Option Json :=
  if items.isEmpty then none else some value

theorem present_nil : present [] = [] := rfl

theorem present_cons_some (key : Text) (v : Json) (parts : List (Text × Option Json)) :
    present ((key, some v) :: parts) = (key, v) :: present parts := rfl

theorem present_cons_none (key : Text) (parts : List (Text × Option Json)) :
    present ((key, none) :: parts) = present parts := rfl

theorem present_cons_shown {α : Type} (key : Text) (items : List α) (value : Json)
    (parts : List (Text × Option Json)) :
    present ((key, shown items value) :: parts) = unlessEmpty key items value ++ present parts := by
  cases items <;> rfl

/-- A key that belongs to no part is not written. -/
theorem get?_present_of_not_mem {parts : List (Text × Option Json)} {key : Text}
    (h : key ∉ parts.map Prod.fst) : Fields.get? key (present parts) = none := by
  induction parts with
  | nil => rfl
  | cons part parts ih =>
    obtain ⟨k, v?⟩ := part
    rw [List.map_cons, List.mem_cons, not_or] at h
    cases v? with
    | none => exact ih h.2
    | some v => rw [present_cons_some, Fields.get?, if_neg (Ne.symm h.1), ih h.2]

/-- A part is found under its key. -/
theorem get?_present {parts : List (Text × Option Json)} (hkeys : (parts.map Prod.fst).Nodup)
    {key : Text} {v? : Option Json} (hmem : (key, v?) ∈ parts) :
    Fields.get? key (present parts) = v? := by
  induction parts with
  | nil => cases hmem
  | cons part parts ih =>
    obtain ⟨k, w?⟩ := part
    rw [List.map_cons, List.nodup_cons] at hkeys
    rcases List.mem_cons.1 hmem with heq | hrest
    · obtain ⟨rfl, rfl⟩ := Prod.mk.inj heq
      cases v? with
      | none =>
        rw [present_cons_none]
        exact get?_present_of_not_mem hkeys.1
      | some v => rw [present_cons_some, Fields.get?, if_pos rfl]
    · have hne : k ≠ key := by
        intro heq
        exact hkeys.1 (List.mem_map.2 ⟨_, hrest, heq.symm⟩)
      cases w? with
      | none => exact ih hkeys.2 hrest
      | some w => rw [present_cons_some, Fields.get?, if_neg hne, ih hkeys.2 hrest]

variable {α β : Type} {parts : List (Text × Option Json)} {key : Text} {value : Json}
  {read : Json → Option α} {x : α}

/-- A part is read from what is written of it. -/
theorem part_present {default : α} {v? : Option Json} (hkeys : (parts.map Prod.fst).Nodup) (i : Nat)
    (hi : parts[i]? = some (key, v?)) :
    part (present parts) key read default = v?.elim (some default) read := by
  rw [part, get?_present hkeys (List.mem_of_getElem? hi)]
  cases v? <;> rfl

/-- A part that is always written reads back where its value does. -/
theorem part_written {default : α} (hkeys : (parts.map Prod.fst).Nodup) (i : Nat)
    (hi : parts[i]? = some (key, some value)) (hread : read value = some x) :
    part (present parts) key read default = some x := by
  rw [part_present hkeys i hi]
  exact hread

/-- A part that is left out when empty reads back where its value does, or it is empty and the
default. -/
theorem part_shown {items : List β} {default : α} (hkeys : (parts.map Prod.fst).Nodup) (i : Nat)
    (hi : parts[i]? = some (key, shown items value)) (hread : read value = some x)
    (hempty : items = [] → x = default) : part (present parts) key read default = some x := by
  rw [part_present hkeys i hi]
  cases items with
  | nil => exact congrArg some (hempty rfl).symm
  | cons item items => exact hread

theorem part_text {t : Text} (hkeys : (parts.map Prod.fst).Nodup) (i : Nat)
    (hi : parts[i]? = some (key, shown t (.string t))) :
    part (present parts) key text? [] = some t :=
  part_shown hkeys i hi rfl id

/-- A part that is always written reads back. -/
theorem required_present (hkeys : (parts.map Prod.fst).Nodup) (i : Nat)
    (hi : parts[i]? = some (key, some value)) (hread : read value = some x) :
    required (present parts) key read = some x := by
  rw [required, get?_present hkeys (List.mem_of_getElem? hi)]
  exact hread

theorem bind_of_some {x? : Option α} {f : α → Option β} (h : x? = some x) : x? >>= f = f x := by
  rw [h]
  rfl

theorem fields?_object (keys : List Text) (fields : Fields Json) :
    fields? keys (.object fields) = some fields := rfl

theorem text?_string (t : Text) : text? (.string t) = some t := rfl

theorem flag?_bool (b : Bool) : flag? (.bool b) = some b := rfl

/-- A number below the limit reads back. -/
theorem natural?_natural {limit n : Nat} (h : n < limit) : natural? limit (natural n) = some n := by
  have hrange : 0 ≤ (n : Int) ∧ (n : Int) < (limit : Int) := by omega
  show (if 0 ≤ (n : Int) ∧ (n : Int) < (limit : Int) then some (n : Int).toNat else none) = _
  rw [if_pos hrange, Int.toNat_natCast]

/-- A list reads back if each of its entries does. -/
theorem mapM_map {γ : Type} {read : γ → Option α} {xs : List β} {write : β → γ} {f : β → α}
    (h : ∀ b ∈ xs, read (write b) = some (f b)) :
    (xs.map write).mapM read = some (xs.map f) := by
  rw [mapM_eq_some_iff, List.map_map, List.map_map]
  exact List.map_congr_left h

/-- A list of what reads back reads back. -/
theorem list?_map {xs : List α} {write : α → Json}
    (h : ∀ x ∈ xs, read (write x) = some x) : list? read (.array (xs.map write)) = some xs := by
  rw [list?, mapM_map h, List.map_id']

/-- A part that was read was read from something, or it is the default. -/
theorem eq_default_or_read {fields : Fields Json} {default : α}
    (h : part fields key read default = some x) : x = default ∨ ∃ v, read v = some x := by
  rw [part] at h
  split at h
  · rename_i v _
    exact Or.inr ⟨v, h⟩
  · exact Or.inl (Option.some.inj h).symm

/-- What is in a list that was read was read from something. -/
theorem exists_read_of_mem {fields : Fields Json} {xs : List α}
    (h : part fields key (list? read) [] = some xs) (hx : x ∈ xs) : ∃ v, read v = some x := by
  rcases eq_default_or_read h with rfl | ⟨v, hv⟩
  · cases hx
  · cases v with
    | array items =>
      have hmem : some x ∈ items.map read := by
        rw [mapM_eq_some_iff.1 hv]
        exact List.mem_map_of_mem hx
      obtain ⟨item, -, hitem⟩ := List.mem_map.1 hmem
      exact ⟨item, hitem⟩
    | _ => cases hv

end Record

/-! ## Settings, outcomes and mappings -/

open Record

theorem UiSettings.ofJson?_toJson (ui : UiSettings) : ofJson? ui.toJson = some ui := rfl

theorem ConditionOutcome.ofJson?_toJson (o : ConditionOutcome) : ofJson? o.toJson = some o := rfl

namespace StoreMappings

theorem ofEntries_entries (m : StoreMappings) : ofEntries m.entries = m := by
  obtain ⟨entries, hdistinct⟩ := m
  simp only [ofEntries, Fields.ofList_of_nodup hdistinct]

theorem ofJson?_toJson (m : StoreMappings) : ofJson? m.toJson = some m := by
  have hentries : (m.entries.map fun e => (e.1, Json.string e.2)).mapM
      (fun f => (text? f.2).map (f.1, ·)) = some (m.entries.map id) :=
    mapM_map fun _ _ => rfl
  calc ofJson? m.toJson
      = (m.entries.map fun e => (e.1, Json.string e.2)).mapM
          (fun f => (text? f.2).map (f.1, ·)) >>= fun entries => some (ofEntries entries) := rfl
    _ = some (ofEntries (m.entries.map id)) := bind_of_some hentries
    _ = some m := by rw [List.map_id, ofEntries_entries]

end StoreMappings

/-! ## Probe results -/

namespace Probe

/-- The probe result with a body that is the text of its body. -/
def legible (p : Probe) : Probe := { p with body := Utf8.encode p.bodyText }

/-- What is written of each part. -/
def parts (p : Probe) : List (Text × Option Json) :=
  [("name".toList, shown p.name (.string p.name)),
    ("status".toList, some (natural p.status.toNat)),
    ("hostname".toList, shown p.hostname (.string p.hostname)),
    ("ip".toList, shown p.ip (.string p.ip)),
    ("dns-rcode".toList, shown p.dnsRcode (.string p.dnsRcode)),
    ("connected".toList, some (.bool p.connected)),
    ("duration".toList, some (natural p.duration.toNat)),
    ("certificate-expiration".toList, some (natural p.certificateExpiration.toNat)),
    ("domain-expiration".toList, some (natural p.domainExpiration.toNat)),
    ("body".toList, shown p.body (.string p.bodyText)),
    ("errors".toList, shown p.errors (.array (p.errors.map .string))),
    ("condition-results".toList,
      shown p.conditionOutcomes (.array (p.conditionOutcomes.map ConditionOutcome.toJson))),
    ("success".toList, some (.bool p.success)),
    ("timestamp".toList, p.timestamp.map fun t => .string t.write)]

theorem nodup_keys_parts (p : Probe) : (p.parts.map Prod.fst).Nodup := by
  show keys.Nodup
  decide +kernel

/-- What is written are the parts that are present, in order. -/
theorem toJson_eq (p : Probe) : p.toJson = .object (present p.parts) := by
  have htimestamp : Timestamp.part p.timestamp =
      present [("timestamp".toList, p.timestamp.map fun t => .string t.write)] := by
    cases p.timestamp <;> rfl
  simp only [toJson, parts, htimestamp, present_cons_some, present_cons_shown, List.append_assoc,
    List.cons_append, List.nil_append]

theorem millis?_natural (n : UInt64) : millis? (natural n.toNat) = some n := by
  rw [millis?, natural?_natural n.toNat_lt, Option.map_some, UInt64.ofNat_toNat]

/-- A probe result reads back, with the text of its body. -/
theorem ofJson?_toJson (p : Probe) : ofJson? p.toJson = some p.legible := by
  have hkeys := p.nodup_keys_parts
  have hstatus : natural? UInt16.size (natural p.status.toNat) = some p.status.toNat :=
    natural?_natural p.status.toNat_lt
  have hbody : p.body = [] → p.bodyText = [] := by
    intro hempty
    rw [bodyText, hempty]
    rfl
  have herrors : list? text? (.array (p.errors.map .string)) = some p.errors :=
    list?_map fun t _ => text?_string t
  have houtcomes : list? ConditionOutcome.ofJson?
      (.array (p.conditionOutcomes.map ConditionOutcome.toJson)) = some p.conditionOutcomes :=
    list?_map fun o _ => o.ofJson?_toJson
  have htimestamp : part (present p.parts) "timestamp".toList Timestamp.optionOfJson? none =
      some p.timestamp := by
    rw [part_present hkeys 13 rfl]
    cases p.timestamp with
    | none => rfl
    | some t =>
      show (Timestamp.read? t.write).map some = some (some t)
      rw [Timestamp.read?_write, Option.map_some]
  rw [toJson_eq]
  unfold ofJson?
  rw [bind_of_some (fields?_object keys (present p.parts)),
    bind_of_some (part_text hkeys 0 rfl),
    bind_of_some (part_written hkeys 1 rfl hstatus),
    bind_of_some (part_text hkeys 2 rfl),
    bind_of_some (part_text hkeys 3 rfl),
    bind_of_some (part_text hkeys 4 rfl),
    bind_of_some (part_written hkeys 5 rfl (flag?_bool p.connected)),
    bind_of_some (part_written hkeys 6 rfl (millis?_natural p.duration)),
    bind_of_some (part_written hkeys 7 rfl (millis?_natural p.certificateExpiration)),
    bind_of_some (part_written hkeys 8 rfl (millis?_natural p.domainExpiration)),
    bind_of_some (part_shown hkeys 9 rfl (text?_string p.bodyText) hbody),
    bind_of_some (part_shown hkeys 10 rfl herrors id),
    bind_of_some (part_shown hkeys 11 rfl houtcomes id),
    bind_of_some (part_written hkeys 12 rfl (flag?_bool p.success)), bind_of_some htimestamp,
    UInt16.ofNat_toNat]
  rfl

end Probe

/-! ## Endpoints and suites -/

namespace Endpoint

/-- The endpoint with a recorded body that is the text of its body. -/
def legible (e : Endpoint) : Endpoint := { e with result := e.result.legible }

/-- What is written of each part. -/
def parts (e : Endpoint) : List (Text × Option Json) :=
  [("name".toList, some (.string e.name)),
    ("conditions".toList, some (.array (e.conditions.map fun c => .string c.text))),
    ("ui".toList, some e.ui.toJson),
    ("store".toList, shown e.store.entries e.store.toJson),
    ("always-run".toList, some (.bool e.alwaysRun)),
    ("result".toList, some e.result.toJson)]

theorem nodup_keys_parts (e : Endpoint) : (e.parts.map Prod.fst).Nodup := by
  show keys.Nodup
  decide +kernel

theorem toJson_eq (e : Endpoint) : e.toJson = .object (present e.parts) := by
  simp only [toJson, parts, present_cons_some, present_cons_shown, present_nil, List.cons_append,
    List.nil_append]

/-- An endpoint reads back, with the text of its body. -/
theorem ofJson?_toJson (e : Endpoint) : ofJson? e.toJson = some e.legible := by
  have hkeys := e.nodup_keys_parts
  have hconditions : list? (fun v => (text? v).map Condition.mk)
      (.array (e.conditions.map fun c => .string c.text)) = some e.conditions :=
    list?_map fun _ _ => rfl
  have hstore : e.store.entries = [] → e.store = {} := by
    intro hempty
    rw [← e.store.ofEntries_entries, hempty]
    rfl
  rw [toJson_eq]
  unfold ofJson?
  rw [bind_of_some (fields?_object keys (present e.parts)),
    bind_of_some (required_present hkeys 0 rfl (text?_string e.name)),
    bind_of_some (part_written hkeys 1 rfl hconditions),
    bind_of_some (part_written hkeys 2 rfl e.ui.ofJson?_toJson),
    bind_of_some (part_shown hkeys 3 rfl e.store.ofJson?_toJson hstore),
    bind_of_some (part_written hkeys 4 rfl (flag?_bool e.alwaysRun)),
    bind_of_some (part_written hkeys 5 rfl e.result.ofJson?_toJson)]
  rfl

end Endpoint

namespace Suite

/-- The suite with recorded bodies that are the texts of its bodies. -/
def legible (s : Suite) : Suite := { s with endpoints := s.endpoints.map Endpoint.legible }

/-- What is written of each part. -/
def parts (s : Suite) : List (Text × Option Json) :=
  [("name".toList, some (.string s.name)),
    ("context".toList, shown s.context (.object s.context)),
    ("endpoints".toList, some (.array (s.endpoints.map Endpoint.toJson)))]

theorem nodup_keys_parts (s : Suite) : (s.parts.map Prod.fst).Nodup := by
  show (["name", "context", "endpoints"].map String.toList).Nodup
  decide +kernel

theorem toJson_eq (s : Suite) : s.toJson = .object (present s.parts) := by
  simp only [toJson, parts, present_cons_some, present_cons_shown, present_nil, List.cons_append,
    List.nil_append]

/-- A suite reads back, with the texts of its bodies. -/
theorem ofJson?_toJson (s : Suite) : ofJson? s.toJson = some s.legible := by
  have hkeys := s.nodup_keys_parts
  have hcontext : object? (.object s.context) = some s.context := rfl
  have hendpoints : list? Endpoint.ofJson? (.array (s.endpoints.map Endpoint.toJson)) =
      some (s.endpoints.map Endpoint.legible) :=
    mapM_map fun e _ => e.ofJson?_toJson
  rw [toJson_eq]
  unfold ofJson?
  rw [bind_of_some (fields?_object _ (present s.parts)),
    bind_of_some (required_present hkeys 0 rfl (text?_string s.name)),
    bind_of_some (part_shown hkeys 1 rfl hcontext id),
    bind_of_some (part_written hkeys 2 rfl hendpoints)]
  rfl

end Suite

/-! ## Bodies that are texts -/

namespace Probe

/-- The body is the bytes of a text. -/
def HasText (p : Probe) : Prop := (Utf8.decode? p.body).isSome = true

/-- Nothing is lost of a probe result exactly if its body is a text. -/
theorem legible_eq_iff {p : Probe} : p.legible = p ↔ p.HasText := by
  rw [HasText, ← Utf8.encode_decodeLossy_iff]
  constructor
  · exact congrArg body
  · intro h
    rw [legible, bodyText, h]

/-- The body of a probe result that was read is a text. -/
theorem hasText_of_ofJson? {v : Json} {p : Probe} (h : ofJson? v = some p) : p.HasText := by
  unfold ofJson? at h
  -- The fields and each of the fourteen parts have been read.
  iterate 15 obtain ⟨_, -, h⟩ := Option.bind_eq_some_iff.1 h
  rw [← Option.some.inj h, HasText, Utf8.decode?_encode]
  rfl

end Probe

namespace Endpoint

/-- Nothing is lost of an endpoint exactly if its recorded body is a text. -/
theorem legible_eq_iff {e : Endpoint} : e.legible = e ↔ e.result.HasText := by
  rw [← Probe.legible_eq_iff]
  constructor
  · exact congrArg result
  · intro h
    rw [legible, h]

/-- The recorded body of an endpoint that was read is a text. -/
theorem hasText_of_ofJson? {v : Json} {e : Endpoint} (h : ofJson? v = some e) :
    e.result.HasText := by
  unfold ofJson? at h
  iterate 6 obtain ⟨_, -, h⟩ := Option.bind_eq_some_iff.1 h
  obtain ⟨result, hresult, h⟩ := Option.bind_eq_some_iff.1 h
  rw [← Option.some.inj h]
  rcases eq_default_or_read hresult with rfl | ⟨w, hw⟩
  · exact rfl
  · exact Probe.hasText_of_ofJson? hw

end Endpoint

namespace Suite

/-- Nothing is lost of a suite exactly if the recorded bodies of its steps are texts. -/
theorem legible_eq_iff {s : Suite} : s.legible = s ↔ ∀ e ∈ s.endpoints, e.result.HasText := by
  have hmap : s.endpoints.map Endpoint.legible = s.endpoints ↔
      ∀ e ∈ s.endpoints, e.legible = e := by
    induction s.endpoints with
    | nil => simp
    | cons e es ih => simp [ih]
  simp only [← Endpoint.legible_eq_iff, ← hmap]
  constructor
  · exact congrArg endpoints
  · intro h
    rw [legible, h]

/-- The recorded bodies of a suite that was read are texts. -/
theorem hasText_of_ofJson? {v : Json} {s : Suite} (h : ofJson? v = some s) :
    ∀ e ∈ s.endpoints, e.result.HasText := by
  unfold ofJson? at h
  iterate 3 obtain ⟨_, -, h⟩ := Option.bind_eq_some_iff.1 h
  obtain ⟨endpoints, hendpoints, h⟩ := Option.bind_eq_some_iff.1 h
  rw [← Option.some.inj h]
  intro e he
  obtain ⟨w, hw⟩ := exists_read_of_mem hendpoints he
  exact Endpoint.hasText_of_ofJson? hw

end Suite

namespace Manifest

/-- The recorded bodies of all endpoints and steps are texts. -/
def HasTexts (m : Manifest) : Prop :=
  ∀ e ∈ m.endpoints ++ m.suites.flatMap (·.endpoints), e.result.HasText

/-- All bodies of a manifest that was read are texts. -/
theorem hasTexts_of_ofJson? {v : Json} {m : Manifest} (h : ofJson? v = some m) : m.HasTexts := by
  unfold ofJson? at h
  obtain ⟨_, -, h⟩ := Option.bind_eq_some_iff.1 h
  obtain ⟨endpoints, hendpoints, h⟩ := Option.bind_eq_some_iff.1 h
  obtain ⟨suites, hsuites, h⟩ := Option.bind_eq_some_iff.1 h
  rw [← Option.some.inj h]
  intro e he
  rcases List.mem_append.1 he with halone | hstep
  · obtain ⟨w, hw⟩ := exists_read_of_mem hendpoints halone
    exact Endpoint.hasText_of_ofJson? hw
  · obtain ⟨s, hs, hes⟩ := List.mem_flatMap.1 hstep
    obtain ⟨w, hw⟩ := exists_read_of_mem hsuites hs
    exact Suite.hasText_of_ofJson? hw e hes

/-- A manifest that was loaded was read from a document. -/
theorem hasTexts_of_load {bytes : Bytes} {m : Manifest} (h : load bytes = .ok (.ok m)) :
    m.HasTexts := by
  unfold load at h
  split at h
  · cases h
  · split at h
    · cases h
    · rename_i m' hread
      have hm : m' = m := by
        cases hvalid : m'.validate with
        | error a => rw [hvalid] at h; cases h
        | ok verdict =>
          rw [hvalid] at h
          have hverdict : verdict.map (fun _ => m') = .ok m := Except.ok.inj h
          cases verdict with
          | error e => cases hverdict
          | ok u => exact Except.ok.inj hverdict
      unfold ofText? at hread
      iterate 3 obtain ⟨_, -, hread⟩ := Option.bind_eq_some_iff.1 hread
      exact hm ▸ hasTexts_of_ofJson? hread

/-- **Records read back.** The endpoints and suites of a manifest read back equal, every part of
them, exactly when their bodies are texts; and so they are in every manifest that was loaded. -/
theorem reads_back_iff (m : Manifest) :
    (m.HasTexts ↔
      (∀ e ∈ m.endpoints, Endpoint.ofJson? e.toJson = some e) ∧
        ∀ s ∈ m.suites, Suite.ofJson? s.toJson = some s) ∧
    ∀ bytes, load bytes = .ok (.ok m) → m.HasTexts := by
  refine ⟨?_, fun bytes => hasTexts_of_load⟩
  simp only [Endpoint.ofJson?_toJson, Suite.ofJson?_toJson, Option.some.injEq,
    Endpoint.legible_eq_iff, Suite.legible_eq_iff, HasTexts, List.mem_append, List.mem_flatMap]
  constructor
  · intro h
    exact ⟨fun e he => h e (Or.inl he), fun s hs e he => h e (Or.inr ⟨s, hs, he⟩)⟩
  · rintro ⟨hendpoints, hsuites⟩ e (he | ⟨s, hs, he⟩)
    · exact hendpoints e he
    · exact hsuites s hs e he

end Manifest

end HealthCheck
