import HealthCheck.Proofs.Json.Tokens

/-!
# The width of documents

Every reader takes at least one character off its text, so an array has fewer items than the text
has characters that it was read from, and no more than the bytes of the body:
`narrow_of_parseBytes?`. A body that fits into memory has no array with an item that a word could
not count.
-/

namespace HealthCheck.Json

/-- Every array in the document has fewer than `width` items. -/
inductive Narrow (width : Nat) : Json → Prop where
  | scalar {v : Json} (h : v.isContainer = false) : Narrow width v
  | array {items : List Json} (hlength : items.length < width)
      (h : ∀ v ∈ items, Narrow width v) : Narrow width (.array items)
  | object {fields : List (Text × Json)} (h : ∀ f ∈ fields, Narrow width f.2) :
      Narrow width (.object fields)

/-- A document whose arrays are no longer than a bound has none longer than a greater one. -/
theorem Narrow.mono {m n : Nat} {v : Json} (h : v.Narrow m) (hle : m ≤ n) : v.Narrow n := by
  induction h with
  | scalar h => exact .scalar h
  | array hlength _ ih => exact .array (Nat.lt_of_lt_of_le hlength hle) ih
  | object _ ih => exact .object ih

/-! ## What the readers of tokens take -/

theorem length_dropWhile_le (p : Char → Bool) (t : Text) :
    (t.dropWhile p).length ≤ t.length :=
  (List.dropWhile_suffix p).length_le

/-- What stands behind blanks is taken from the text. -/
theorem length_lt_of_skipSpace_append {t token rest : Text} (h : skipSpace t = token ++ rest)
    (hne : token ≠ []) : rest.length < t.length := by
  have hle : (skipSpace t).length ≤ t.length := length_dropWhile_le _ t
  have htoken : 0 < token.length := List.length_pos_iff.2 hne
  rw [h, List.length_append] at hle
  omega

/-- A character behind white space leaves less than there was. -/
theorem length_lt_of_skipSpace {t rest : Text} {c : Char} (h : skipSpace t = c :: rest) :
    rest.length < t.length :=
  length_lt_of_skipSpace_append (show skipSpace t = [c] ++ rest from h) (List.cons_ne_nil c [])

/-- Reading a string leaves less than there was. -/
theorem length_of_readStringFrom {high : Option Nat} {t s rest : Text}
    (h : readStringFrom high t = some (s, rest)) : rest.length < t.length := by
  obtain ⟨w, rfl, -⟩ := spells_of_readStringFrom h
  simp only [List.length_append, List.length_cons]
  omega

/-- Reading a number leaves less than there was. -/
theorem length_of_readNumber {t rest : Text} {n : JsonNumber}
    (h : readNumber t = some (n, rest)) : rest.length < t.length := by
  obtain ⟨c, cs, rfl, -⟩ := exists_of_readNumber h
  simp only [List.length_append, List.length_cons]
  omega

/-! ## What the readers of documents take -/

/-- With some fuel, the readers of values, items and fields make progress: a value takes one
character at least and items one each, and no array is as wide as the text. -/
structure ReadersProgress (fuel : Nat) : Prop where
  value : ∀ depth t v rest, readValue fuel depth t = some (v, rest) →
    rest.length < t.length ∧ v.Narrow t.length
  items : ∀ depth t vs rest, readItems fuel depth t = some (vs, rest) →
    vs.length + rest.length < t.length ∧ ∀ v ∈ vs, v.Narrow t.length
  fields : ∀ depth t fs rest, readFields fuel depth t = some (fs, rest) →
    rest.length < t.length ∧ ∀ f ∈ fs, f.2.Narrow t.length

namespace ReadersProgress

variable {fuel depth : Nat} {t rest : Text}

/-- Reading a value leaves less than there was, and no array in it is longer than the text. -/
theorem value_succ (ih : ReadersProgress fuel) {v : Json}
    (h : readValue (fuel + 1) depth t = some (v, rest)) :
    rest.length < t.length ∧ v.Narrow t.length := by
  cases valueRead_of_readValue h with
  | null hword =>
    exact ⟨length_lt_of_skipSpace_append hword (by decide), .scalar rfl⟩
  | bool b hword =>
    exact ⟨length_lt_of_skipSpace_append hword (by cases b <;> decide), .scalar rfl⟩
  | string hquote hstring =>
    have hopen := length_lt_of_skipSpace hquote
    have hlength := length_of_readStringFrom hstring
    exact ⟨by omega, .scalar rfl⟩
  | number hnumber =>
    have hspace : (skipSpace t).length ≤ t.length := length_dropWhile_le _ t
    have hlength := length_of_readNumber hnumber
    exact ⟨by omega, .scalar rfl⟩
  | array hbracket hinside =>
    have hopen := length_lt_of_skipSpace hbracket
    cases hinside with
    | empty hclose =>
      have hlength := length_lt_of_skipSpace hclose
      exact ⟨by omega, .array (Nat.zero_lt_of_lt hopen) fun v hv => absurd hv List.not_mem_nil⟩
    | filled _ hitems =>
      obtain ⟨hlength, hnarrow⟩ := ih.items _ _ _ rest hitems
      exact ⟨by omega, .array (by omega) fun v hv => (hnarrow v hv).mono (by omega)⟩
  | object hbrace hinside =>
    have hopen := length_lt_of_skipSpace hbrace
    cases hinside with
    | empty hclose =>
      have hlength := length_lt_of_skipSpace hclose
      exact ⟨by omega, .object fun f hf => absurd hf List.not_mem_nil⟩
    | filled _ hfields =>
      obtain ⟨hlength, hnarrow⟩ := ih.fields _ _ _ rest hfields
      exact ⟨by omega,
        .object fun f hf => (hnarrow f (Fields.mem_ofList hf)).mono (by omega)⟩

/-- Every item takes a character at least. -/
theorem items_succ (ih : ReadersProgress fuel) {vs : List Json}
    (h : readItems (fuel + 1) depth t = some (vs, rest)) :
    vs.length + rest.length < t.length ∧ ∀ v ∈ vs, v.Narrow t.length := by
  obtain ⟨v, after, hv, hbehind⟩ := exists_of_readItems h
  obtain ⟨hfirst, hnarrow⟩ := ih.value depth t v after hv
  cases hbehind with
  | closed hclose =>
    have hlength := length_lt_of_skipSpace hclose
    refine ⟨by rw [List.length_singleton]; omega, ?_⟩
    exact fun w hw => List.mem_singleton.1 hw ▸ hnarrow
  | @more _ _ ws hcomma hws =>
    have hlength := length_lt_of_skipSpace hcomma
    obtain ⟨hrest, hnarrows⟩ := ih.items depth _ ws rest hws
    refine ⟨by rw [List.length_cons]; omega, List.forall_mem_cons.2 ⟨hnarrow, ?_⟩⟩
    exact fun w hw => (hnarrows w hw).mono (by omega)

/-- Every field takes a character at least. -/
theorem fields_succ (ih : ReadersProgress fuel) {fs : List (Text × Json)}
    (h : readFields (fuel + 1) depth t = some (fs, rest)) :
    rest.length < t.length ∧ ∀ f ∈ fs, f.2.Narrow t.length := by
  obtain ⟨_, k, _, afterColon, v, after, hquote, hkey, hcolon, hv, hbehind⟩ :=
    exists_of_readFields h
  have hopen := length_lt_of_skipSpace hquote
  have hstring := length_of_readStringFrom hkey
  have hsep := length_lt_of_skipSpace hcolon
  obtain ⟨hfirst, hvalue⟩ := ih.value depth afterColon v after hv
  have hnarrow := hvalue.mono (n := t.length) (by omega)
  cases hbehind with
  | closed hclose =>
    have hlength := length_lt_of_skipSpace hclose
    exact ⟨by omega, fun f hf => List.mem_singleton.1 hf ▸ hnarrow⟩
  | @more _ _ gs hcomma hgs =>
    have hlength := length_lt_of_skipSpace hcomma
    obtain ⟨hrest, hnarrows⟩ := ih.fields depth _ gs rest hgs
    refine ⟨by omega, List.forall_mem_cons.2 ⟨hnarrow, ?_⟩⟩
    exact fun f hf => (hnarrows f hf).mono (by omega)

end ReadersProgress

/-- The readers make progress. The induction is on the fuel, which the three hand to each other. -/
theorem readersProgress (fuel : Nat) : ReadersProgress fuel := by
  induction fuel with
  | zero => constructor <;> simp [readValue, readItems, readFields]
  | succ fuel ih =>
    exact ⟨fun _ _ _ _ h => ih.value_succ h, fun _ _ _ _ h => ih.items_succ h,
      fun _ _ _ _ h => ih.fields_succ h⟩

/-- No array in a document is longer than its text. -/
theorem narrow_of_parse? {t : Text} {v : Json} (h : parse? t = some v) : v.Narrow t.length := by
  obtain ⟨rest, hread, -⟩ := exists_of_parse? h
  exact ((readersProgress _).value maxDepth t v rest hread).2

/-! ## Bodies -/

theorem length_le_length_encode (t : Text) : t.length ≤ (Utf8.encode t).length := by
  induction t with
  | nil => exact Nat.le_refl 0
  | cons c cs ih =>
    have hchar : 0 < (Utf8.encodeChar c).length := by
      unfold Utf8.encodeChar
      dsimp only
      split_ifs <;> exact Nat.succ_pos _
    have hcons : Utf8.encode (c :: cs) = Utf8.encodeChar c ++ Utf8.encode cs := List.flatMap_cons
    rw [hcons, List.length_append, List.length_cons]
    omega

/-- **Documents are narrow.** An array in a body has fewer items than the body has bytes. -/
theorem narrow_of_parseBytes? {body : Bytes} {v : Json} (h : parseBytes? body = some v) :
    v.Narrow body.length := by
  obtain ⟨t, hdecode, hparse⟩ := Option.bind_eq_some_iff.1 h
  rw [Utf8.decode?_eq_some_iff.1 hdecode]
  exact (narrow_of_parse? hparse).mono (length_le_length_encode t)

end HealthCheck.Json
