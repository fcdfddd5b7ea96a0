import HealthCheck.Proofs.Condition.Sight
import HealthCheck.Proofs.Json.Margins
import HealthCheck.Proofs.Json.Width

/-!
# The length of a body

The length of a body is counted on its text: lossily decoded and trimmed of every blank. Paths into
the body are followed in its bytes, which have to be well-formed and may only have the blanks of
JSON around the document. So whatever is an array for paths is counted as one, but not the other way
round: `resolve_length_body_iff` tells where the two agree.
-/

namespace HealthCheck

namespace Json

/-- The bytes are well-formed and trimming their text takes nothing off but blanks of JSON. -/
def Plain (body : Bytes) : Prop :=
  (Utf8.decode? body).isSome = true ∧ TrimsSpace (Utf8.decodeLossy body)

/-- **Bytes and text.** Bytes are a document exactly where their trimmed text is and they are
plain. -/
theorem parseBytes?_eq_some_iff {body : Bytes} {v : Json} :
    parseBytes? body = some v ↔
      parse? (Text.trim (Utf8.decodeLossy body)) = some v ∧ Plain body := by
  unfold parseBytes? Plain
  cases hdecode : Utf8.decode? body with
  | none => simp
  | some t =>
    have htext : Utf8.decodeLossy body = t := by
      rw [Utf8.decode?_eq_some_iff.1 hdecode, Utf8.decodeLossy_encode]
    rw [htext, Option.bind_some, parse?_eq_some_iff_trim]
    simp

end Json

namespace Operand

open Json (Plain parse? parseBytes?)

/-- The length of a document that was found in a text: the number of elements of an array, else that
of the characters of the text. -/
def lengthAs (t : Text) : (found : Option Json) → Nat
  | some (.array items) => items.length
  | _ => t.length

/-- The length of what is no array is that of its text. -/
theorem lengthAs_of_ne {t : Text} {found : Option Json} (h : ∀ items, found ≠ some (.array items)) :
    lengthAs t found = t.length := by
  unfold lengthAs
  split
  · exact absurd rfl (h _)
  · rfl

/-- The length of a body where the document is what its paths are followed in. -/
def statedLength (p : Probe) : Nat := lengthAs (Text.trim p.bodyText) (parseBytes? p.body)

/-- The length of a body where the document is its trimmed text. -/
def countedLength (p : Probe) : Nat :=
  lengthAs (Text.trim p.bodyText) (parse? (Text.trim p.bodyText))

/-- The length of the body is the one that is counted. -/
theorem resolve_length_body (p : Probe) (context : Option Context) :
    resolve "len([BODY])".toList p context = .found (Text.ofNat (countedLength p)) := by
  have hbody : resolve "len([BODY])".toList p context = .found (ofBody .length p) := by
    cases context <;> rfl
  have hcounted : ofBody .length p = Text.ofNat (countedLength p) := by
    unfold countedLength
    show (match parse? (Text.trim p.bodyText) with
      | some (.array items) => Text.ofNat items.length
      | _ => Text.ofNat (Text.trim p.bodyText).length) = _
    split
    · rename_i items hitems
      rw [hitems, lengthAs]
    · rename_i hother
      rw [lengthAs_of_ne hother]
  rw [hbody, hcounted]

theorem ofNat_inj {m n : Nat} : Text.ofNat m = Text.ofNat n ↔ m = n := by
  refine ⟨fun h => ?_, congrArg Text.ofNat⟩
  rw [← Text.value_ten_ofNat m, h, Text.value_ten_ofNat]

/-- The empty path leads to the whole document. -/
theorem eval_nil_array {body : Bytes} {items : List Json}
    (h : parseBytes? body = some (.array items)) :
    JsonPath.eval [] body = .ok ((Json.array items).compact, items.length) := by
  have hsteps : JsonPath.steps [] = .ok [] := rfl
  rw [JsonPath.eval_of_steps hsteps, h]
  rfl

/-- Paths lead nowhere in a body that is no document. -/
theorem eval_ne_ok {body : Bytes} (h : parseBytes? body = none) (path : Text) (r : Text × Nat) :
    JsonPath.eval path body ≠ .ok r := by
  intro heval
  obtain ⟨ss, hsteps, -⟩ := JsonPath.leads_of_eval heval
  rw [JsonPath.eval_of_steps hsteps, h] at heval
  cases heval

/-- What is counted is what is stated where an array in the text comes from plain bytes. -/
theorem countedLength_eq {p : Probe}
    (h : ∀ items, parse? (Text.trim p.bodyText) = some (.array items) → Plain p.body) :
    countedLength p = statedLength p := by
  unfold countedLength statedLength
  by_cases harray : ∃ items, parse? (Text.trim p.bodyText) = some (.array items)
  · obtain ⟨items, hitems⟩ := harray
    have hfound : parseBytes? p.body = some (.array items) :=
      Json.parseBytes?_eq_some_iff.2 ⟨hitems, h items hitems⟩
    rw [hitems, hfound]
  · push Not at harray
    have hnone : ∀ items, parseBytes? p.body ≠ some (.array items) := fun items hitems =>
      harray items (Json.parseBytes?_eq_some_iff.1 hitems).1
    rw [lengthAs_of_ne harray, lengthAs_of_ne hnone]

/-- Of an array in the text of other bytes fewer elements are counted than there are characters, and
the bytes are no document. -/
theorem countedLength_of_not_plain {p : Probe} {items : List Json}
    (hitems : parse? (Text.trim p.bodyText) = some (.array items)) (h : ¬ Plain p.body) :
    parseBytes? p.body = none ∧ countedLength p = items.length ∧
      items.length < statedLength p := by
  have hnone : parseBytes? p.body = none := by
    rw [Option.eq_none_iff_forall_ne_some]
    exact fun v hv => h (Json.parseBytes?_eq_some_iff.1 hv).2
  have hnarrow : items.length < (Text.trim p.bodyText).length := by
    cases Json.narrow_of_parse? hitems with
    | scalar h => cases h
    | array hlength _ => exact hlength
  refine ⟨hnone, by rw [countedLength, hitems, lengthAs], ?_⟩
  rw [statedLength, hnone]
  exact hnarrow

/-- **The length of a body.** An array that paths find in a body is counted. The length is the
stated one exactly where a text that is an array comes from plain bytes. Where it does not, the
elements of an array are counted that no path leads into, and they are fewer than the characters. -/
theorem resolve_length_body_iff (p : Probe) (context : Option Context) :
    (∀ items, parseBytes? p.body = some (.array items) →
      JsonPath.eval [] p.body = .ok ((Json.array items).compact, items.length) ∧
      resolve "len([BODY])".toList p context = .found (Text.ofNat items.length)) ∧
    (resolve "len([BODY])".toList p context = .found (Text.ofNat (statedLength p)) ↔
      ∀ items, parse? (Text.trim p.bodyText) = some (.array items) → Plain p.body) ∧
    ∀ items, parse? (Text.trim p.bodyText) = some (.array items) → ¬ Plain p.body →
      resolve "len([BODY])".toList p context = .found (Text.ofNat items.length) ∧
      items.length < statedLength p ∧ ∀ path r, JsonPath.eval path p.body ≠ .ok r := by
  rw [resolve_length_body, Resolution.found.injEq, ofNat_inj]
  refine ⟨fun items hitems => ⟨eval_nil_array hitems, ?_⟩, ⟨fun heq items hitems => ?_,
    countedLength_eq⟩, fun items hitems hplain => ?_⟩
  · have htext : parse? (Text.trim p.bodyText) = some (.array items) :=
      (Json.parseBytes?_eq_some_iff.1 hitems).1
    rw [countedLength, htext, lengthAs]
  · by_contra hplain
    obtain ⟨-, hcounted, hlt⟩ := countedLength_of_not_plain hitems hplain
    omega
  · obtain ⟨hnone, hcounted, hlt⟩ := countedLength_of_not_plain hitems hplain
    rw [hcounted]
    exact ⟨rfl, hlt, eval_ne_ok hnone⟩

/-- An array of two elements. -/
def couple : Json := .array [.null, .bool true]

/-- A body with the array between line breaks. -/
def listingProbe : Probe := { body := Utf8.encode "\n[null,true]\n".toList }

/-- A body with the array behind a space that JSON does not know. -/
def indentedProbe : Probe := { body := Utf8.encode "\u00a0[null,true]".toList }

/-- The items of an array are counted, also where white space stands around it. -/
theorem couple_is_counted :
    (parseBytes? listingProbe.body = some couple ∧
      resolve "len([BODY])".toList listingProbe none = .found "2".toList) ∧
    parse? (Text.trim indentedProbe.bodyText) = some couple ∧ ¬ Plain indentedProbe.body ∧
      resolve "len([BODY])".toList indentedProbe none = .found "2".toList ∧
      2 < statedLength indentedProbe := by
  have helements : ∀ v ∈ [Json.null, .bool true], v.Shaped Json.IsWord 126 := by
    rintro v hv
    rcases List.mem_pair.1 hv with rfl | rfl
    · exact .null 126
    · exact .bool 126 true
  have hcompact : parse? couple.compact = some couple := Json.parse?_compact (.array helements)
  have hlisting : parseBytes? listingProbe.body = some couple := by
    have htrim : Text.trim (Utf8.decodeLossy listingProbe.body) = couple.compact := by
      decide +kernel
    refine Json.parseBytes?_eq_some_iff.2 ⟨by rw [htrim, hcompact], by decide +kernel,
      ['\n'], ['\n'], by decide +kernel, ?_, ?_⟩
    · exact fun c hc => List.mem_singleton.1 hc ▸ rfl
    · exact fun c hc => List.mem_singleton.1 hc ▸ rfl
  have hindented : parse? (Text.trim indentedProbe.bodyText) = some couple := by
    have htrim : Text.trim indentedProbe.bodyText = couple.compact := by decide +kernel
    rw [htrim, hcompact]
  have hplain : ¬ Plain indentedProbe.body := by
    intro hplain
    have hfound := Json.parseBytes?_eq_some_iff.2 ⟨hindented, hplain⟩
    have hnone : (parseBytes? indentedProbe.body).isNone = true := by decide +kernel
    rw [hfound] at hnone
    cases hnone
  obtain ⟨hcounted, hfew, -⟩ :=
    (resolve_length_body_iff indentedProbe none).2.2 _ hindented hplain
  exact ⟨⟨hlisting, ((resolve_length_body_iff listingProbe none).1 _ hlisting).2⟩, hindented,
    hplain,
    hcounted, hfew⟩

/-- A body with a string in an array that has a byte in it with which no character is written. -/
def brokenProbe : Probe := { body := [0x5b, 0x22, 0xff, 0x22, 0x5d] }

/-- The broken string is counted as an element although no path leads to it. The text has five
characters. -/
theorem broken_string_is_counted :
    resolve "len([BODY])".toList brokenProbe none = .found "1".toList ∧
      statedLength brokenProbe = 5 ∧ (Text.trim brokenProbe.bodyText).length = 5 ∧
      (JsonPath.eval [] brokenProbe.body).toOption = none ∧
      resolve "[BODY][0]".toList brokenProbe none = .failed "[BODY][0]".toList := by
  decide +kernel

end Operand

end HealthCheck
