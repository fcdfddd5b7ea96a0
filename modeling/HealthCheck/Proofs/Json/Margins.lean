import HealthCheck.Proofs.Json.Tokens

/-!
# What stands around a document

A reader looks no further than what it takes. The text that a value was read from, without the
blanks in front, is a text by itself from which the value is read wherever it stands, whatever
follows that does not go on with a numeral (`Taken`), and it neither begins nor ends in a blank of
any kind. Items and fields are both elements of a list that is closed or goes on behind them
(`TakesElement`), and arrays and objects put such a list between brackets.

So a text is a document exactly where its trimmed form is and nothing was trimmed off but what JSON
lets stand between tokens: `parse?_eq_some_iff_trim`.
-/

namespace HealthCheck.Json

open Text (Tight)

/-! ## Blanks between tokens -/

/-- The text consists of blanks that may stand between tokens. -/
def AllSpace (t : Text) : Prop := ∀ c ∈ t, isSpace c = true

theorem isBlank_of_isSpace {c : Char} (h : isSpace c = true) : Text.isBlank c = true := by
  simp only [isSpace, Bool.or_eq_true, beq_iff_eq] at h
  rcases h with ((rfl | rfl) | rfl) | rfl <;> decide

theorem AllSpace.allBlank {t : Text} (h : AllSpace t) : Text.AllBlank t :=
  fun c hc => isBlank_of_isSpace (h c hc)

theorem exists_of_skipSpace (t : Text) : ∃ spaces, AllSpace spaces ∧ t = spaces ++ skipSpace t :=
  ⟨t.takeWhile isSpace, fun _ hc => List.mem_takeWhile_imp hc,
    List.takeWhile_append_dropWhile.symm⟩

theorem skipSpace_append {spaces : Text} (h : AllSpace spaces) (t : Text) :
    skipSpace (spaces ++ t) = skipSpace t :=
  List.dropWhile_append_of_pos h

theorem skipSpace_cons {c : Char} (hc : isSpace c = false) (t : Text) :
    skipSpace (c :: t) = c :: t :=
  List.dropWhile_cons_of_neg (by simp [hc])

/-- Nothing is skipped in front of a text without blanks at its ends. -/
theorem skipSpace_tight {w : Text} (h : Tight w) (rest : Text) :
    skipSpace (w ++ rest) = w ++ rest := by
  obtain ⟨c, hc, hblank⟩ := h.head
  obtain ⟨cs, rfl⟩ := List.head?_eq_some_iff.1 hc
  refine skipSpace_cons ?_ _
  rw [← Bool.not_eq_true]
  intro hspace
  rw [isBlank_of_isSpace hspace] at hblank
  cases hblank

/-- Blanks in front of what does not go on with a numeral do not either. -/
theorem EndsNumeral.append {spaces rest : Text} (h : AllSpace spaces) (hrest : EndsNumeral rest) :
    EndsNumeral (spaces ++ rest) := by
  cases spaces with
  | nil => exact hrest
  | cons c cs =>
    have hc : isSpace c = true := h c List.mem_cons_self
    simp only [isSpace, Bool.or_eq_true, beq_iff_eq] at hc
    refine endsNumeral_cons ?_
    rcases hc with ((rfl | rfl) | rfl) | rfl <;> decide

/-! ## What readers take -/

/-- From the text and whatever follows that does not go on with a numeral, with fuel enough for the
text, just the text is taken and `x` is read. It has no blanks at its ends. -/
structure Taken {α : Type} (read : Nat → Text → Option (α × Text)) (w : Text) (x : α) : Prop where
  tight : Tight w
  reads : ∀ {fuel rest}, 2 * w.length ≤ fuel → EndsNumeral rest →
    read fuel (w ++ rest) = some (x, rest)

theorem tight_singleton {c : Char} (h : Text.isBlank c = false) : Tight [c] :=
  Text.tight_of_noBlanks (List.cons_ne_nil _ _) fun _ hd => List.mem_singleton.1 hd ▸ h

theorem tight_of_all {w : Text} (hne : w ≠ []) (h : w.all (!Text.isBlank ·) = true) : Tight w :=
  Text.tight_of_noBlanks hne fun c hc => by simpa using List.all_eq_true.1 h c hc

/-- What is not empty is taken with some fuel at least. -/
theorem Taken.of_succ {α : Type} {read : Nat → Text → Option (α × Text)} {w : Text} {x : α}
    (htight : Tight w) (h : ∀ {fuel rest}, 2 * w.length ≤ fuel + 1 → EndsNumeral rest →
      read (fuel + 1) (w ++ rest) = some (x, rest)) : Taken read w x := by
  refine ⟨htight, fun {fuel rest} hfuel hrest => ?_⟩
  have hlength : 0 < w.length := List.length_pos_iff.2 htight.ne_nil
  obtain ⟨fuel, rfl⟩ : ∃ f, fuel = f + 1 := ⟨fuel - 1, by omega⟩
  exact h hfuel hrest

/-- Blanks in front of what is taken are skipped by a reader that skips them at all. -/
theorem Taken.reads_behind {α : Type} {read : Nat → Text → Option (α × Text)} {w : Text} {x : α}
    (h : Taken read w x) (hskip : ∀ fuel t, read fuel (skipSpace t) = read fuel t) {spaces : Text}
    (hspaces : AllSpace spaces) {fuel : Nat} {rest : Text} (hfuel : 2 * w.length ≤ fuel)
    (hrest : EndsNumeral rest) : read fuel (spaces ++ (w ++ rest)) = some (x, rest) := by
  rw [← hskip, skipSpace_append hspaces, skipSpace_tight h.tight]
  exact h.reads hfuel hrest

/-- Behind its blanks, the text begins with what `x` is read from by itself, and the rest
follows. -/
def TakenFrom {α : Type} (read : Nat → Text → Option (α × Text)) (t : Text) (x : α)
    (rest : Text) : Prop :=
  ∃ w, skipSpace t = w ++ rest ∧ Taken read w x

/-! ## Elements of a list -/

/-- Where a list ends in `closing`, its reader takes just the piece for an element, and by what
stands behind it the list is closed or goes on. -/
structure TakesElement {α : Type} (read : Nat → Text → Option (List α × Text)) (closing : Char)
    (piece : Text) (x : α) : Prop where
  tight : Tight piece
  last : ∀ {fuel tail rest}, 2 * piece.length ≤ fuel → EndsNumeral tail →
    skipSpace tail = closing :: rest → read (fuel + 1) (piece ++ tail) = some ([x], rest)
  more : ∀ {fuel tail rest}, 2 * piece.length ≤ fuel → EndsNumeral tail →
    skipSpace tail = ',' :: rest →
      read (fuel + 1) (piece ++ tail) = (read fuel rest).map (Prod.map (x :: ·) id)

namespace TakesElement

variable {α : Type} {read : Nat → Text → Option (List α × Text)} {closing : Char}
  {piece t after rest : Text} {x : α}

/-- An element and what closes the list. -/
theorem takenFrom_last (h : TakesElement read closing piece x)
    (hblank : Text.isBlank closing = false) (hends : ∀ rest, EndsNumeral (closing :: rest))
    (ht : skipSpace t = piece ++ after) (hclose : skipSpace after = closing :: rest) :
    TakenFrom read t [x] rest := by
  obtain ⟨gap, hgap, hafter⟩ := exists_of_skipSpace after
  rw [hclose] at hafter
  refine ⟨piece ++ gap ++ [closing], by rw [ht, hafter]; simp,
    .of_succ (h.tight.append gap (tight_singleton hblank)) fun {fuel rest'} hfuel _ => ?_⟩
  have htext : piece ++ gap ++ [closing] ++ rest' = piece ++ (gap ++ closing :: rest') := by simp
  have hskip : skipSpace (gap ++ closing :: rest') = closing :: rest' := by
    rw [skipSpace_append hgap]
    exact skipSpace_tight (tight_singleton hblank) rest'
  simp only [List.length_append, List.length_singleton] at hfuel
  rw [htext]
  exact h.last (by omega) ((hends rest').append hgap) hskip

/-- An element, a comma and the rest of the list. -/
theorem takenFrom_cons (h : TakesElement read closing piece x)
    (hread : ∀ fuel t, read fuel (skipSpace t) = read fuel t) {more : Text} {xs : List α}
    (ht : skipSpace t = piece ++ after) (hcomma : skipSpace after = ',' :: more)
    (hmore : TakenFrom read more xs rest) : TakenFrom read t (x :: xs) rest := by
  obtain ⟨w, hw, htaken⟩ := hmore
  obtain ⟨gap, hgap, hafter⟩ := exists_of_skipSpace after
  obtain ⟨gap', hgap', hbehind⟩ := exists_of_skipSpace more
  rw [hcomma, hbehind, hw] at hafter
  refine ⟨piece ++ (gap ++ ',' :: gap') ++ w, by rw [ht, hafter]; simp,
    .of_succ (h.tight.append _ htaken.tight) fun {fuel rest'} hfuel hrest' => ?_⟩
  have htext : piece ++ (gap ++ ',' :: gap') ++ w ++ rest' =
      piece ++ (gap ++ ',' :: (gap' ++ (w ++ rest'))) := by simp
  have hskip :
      skipSpace (gap ++ ',' :: (gap' ++ (w ++ rest'))) = ',' :: (gap' ++ (w ++ rest')) := by
    rw [skipSpace_append hgap, skipSpace_cons (by decide)]
  have hends : EndsNumeral (gap ++ ',' :: (gap' ++ (w ++ rest'))) :=
    (endsNumeral_cons (by decide)).append hgap
  simp only [List.length_append, List.length_cons] at hfuel
  have hothers : read fuel (gap' ++ (w ++ rest')) = some (xs, rest') :=
    htaken.reads_behind hread hgap' (by omega) hrest'
  rw [htext, h.more (by omega) hends hskip, hothers]
  rfl

end TakesElement

/-- An item is a value. -/
theorem takesElement_item {depth : Nat} {w : Text} {v : Json} (hw : Taken (readValue · depth) w v) :
    TakesElement (readItems · depth) ']' w v := by
  have hvalue : ∀ {fuel tail}, 2 * w.length ≤ fuel → EndsNumeral tail →
      readValue fuel depth (w ++ tail) = some (v, tail) := hw.reads
  refine ⟨hw.tight, fun {fuel tail rest} hfuel htail hskip => ?_,
    fun {fuel tail rest} hfuel htail hskip => ?_⟩
  · show readItems (fuel + 1) depth (w ++ tail) = _
    rw [readItems, hvalue hfuel htail]
    simp only [hskip]
  · show readItems (fuel + 1) depth (w ++ tail) = _
    rw [readItems, hvalue hfuel htail]
    simp only [hskip]
    rfl

/-- The text of a field: its key in quotes, a colon between blanks, and its value. -/
def fieldText (key spaces spaces' w : Text) : Text :=
  ['"'] ++ (key ++ '"' :: (spaces ++ ':' :: spaces')) ++ w

theorem fieldText_append (key spaces spaces' w tail : Text) :
    fieldText key spaces spaces' w ++ tail =
      '"' :: (key ++ '"' :: (spaces ++ ':' :: (spaces' ++ (w ++ tail)))) := by
  simp [fieldText]

/-- A field is a string, a colon and a value. -/
theorem takesElement_field {depth : Nat} {key k spaces spaces' w : Text} {v : Json}
    (hkey : Spells none key k) (hspaces : AllSpace spaces) (hspaces' : AllSpace spaces')
    (hw : Taken (readValue · depth) w v) :
    TakesElement (readFields · depth) '\x7d' (fieldText key spaces spaces' w) (k, v) := by
  have hstring : ∀ tail, readString (key ++ '"' :: (spaces ++ ':' :: (spaces' ++ (w ++ tail)))) =
      some (k, spaces ++ ':' :: (spaces' ++ (w ++ tail))) := fun _ => hkey _
  have hvalue : ∀ {fuel tail}, 2 * (fieldText key spaces spaces' w).length ≤ fuel →
      EndsNumeral tail → readValue fuel depth (spaces' ++ (w ++ tail)) = some (v, tail) := by
    intro fuel tail hfuel htail
    rw [fieldText, List.length_append] at hfuel
    exact hw.reads_behind (readValue_skipSpace · depth) hspaces' (by omega) htail
  refine ⟨(tight_singleton (by decide)).append _ hw.tight,
    fun {fuel tail rest} hfuel htail hskip => ?_, fun {fuel tail rest} hfuel htail hskip => ?_⟩
  · show readFields (fuel + 1) depth (fieldText key spaces spaces' w ++ tail) = _
    rw [fieldText_append, readFields, skipSpace_cons (show isSpace '"' = false by decide)]
    simp only [hstring, skipSpace_append hspaces,
      skipSpace_cons (show isSpace ':' = false by decide), hvalue hfuel htail, hskip]
  · show readFields (fuel + 1) depth (fieldText key spaces spaces' w ++ tail) = _
    rw [fieldText_append, readFields, skipSpace_cons (show isSpace '"' = false by decide)]
    simp only [hstring, skipSpace_append hspaces,
      skipSpace_cons (show isSpace ':' = false by decide), hvalue hfuel htail, hskip]
    rfl

/-! ## Values and containers -/

section

variable {fuel depth : Nat} {t rest : Text}

theorem readValue_array_nil {inner : Text} (h : skipSpace inner = ']' :: rest) :
    readValue (fuel + 1) (depth + 1) ('[' :: inner) = some (.array [], rest) := by
  rw [readValue, skipSpace_cons (show isSpace '[' = false by decide)]
  simp only [h]

/-- Other brackets hold the items that are read between them. -/
theorem readValue_array_items {inner : Text} (h : ∀ more, skipSpace inner ≠ ']' :: more) :
    readValue (fuel + 1) (depth + 1) ('[' :: inner) =
      (readItems fuel depth inner).map (Prod.map .array id) := by
  rw [readValue, skipSpace_cons (show isSpace '[' = false by decide)]
  -- By `h` the array is not closed at once.
  simp only [readItems_skipSpace]
  rfl

theorem readValue_object_nil {inner : Text} (h : skipSpace inner = '\x7d' :: rest) :
    readValue (fuel + 1) (depth + 1) ('\x7b' :: inner) = some (.object [], rest) := by
  rw [readValue, skipSpace_cons (show isSpace '\x7b' = false by decide)]
  simp only [h]

/-- Other braces hold the fields that are read between them. -/
theorem readValue_object_fields {inner : Text} (h : ∀ more, skipSpace inner ≠ '\x7d' :: more) :
    readValue (fuel + 1) (depth + 1) ('\x7b' :: inner) =
      (readFields fuel depth inner).map (Prod.map (fun fs => .object (Fields.ofList fs)) id) := by
  rw [readValue, skipSpace_cons (show isSpace '\x7b' = false by decide)]
  simp only [readFields_skipSpace]
  rfl

/-- The text of a value that is one token. -/
theorem taken_of_read {w : Text} {v : Json} (htight : Tight w)
    (h : ∀ fuel rest, EndsNumeral rest → readValue (fuel + 1) depth (w ++ rest) = some (v, rest)) :
    Taken (readValue · depth) w v :=
  .of_succ htight fun _ hrest => h _ _ hrest

/-- A string in its quotes. -/
theorem takenFrom_string {inner s : Text} (hquote : skipSpace t = '"' :: inner)
    (hstring : readString inner = some (s, rest)) :
    TakenFrom (readValue · depth) t (.string s) rest := by
  obtain ⟨w, rfl, hw⟩ := spells_of_readStringFrom hstring
  refine ⟨['"'] ++ w ++ ['"'], by rw [hquote]; simp, taken_of_read
    ((tight_singleton (by decide)).append w (tight_singleton (by decide))) fun fuel rest' _ => ?_⟩
  have htext : ['"'] ++ w ++ ['"'] ++ rest' = '"' :: (w ++ '"' :: rest') := by simp
  have hread : readString (w ++ '"' :: rest') = some (s, rest') := hw rest'
  rw [htext, readValue, skipSpace_cons (show isSpace '"' = false by decide)]
  simp only [hread]
  rfl

/-- A numeral, where what follows does not go on with it. -/
theorem takenFrom_number {n : JsonNumber} (hnumber : readNumber (skipSpace t) = some (n, rest)) :
    TakenFrom (readValue · depth) t (.number n) rest := by
  obtain ⟨c, cs, hw, hc, htoken⟩ := exists_of_readNumber hnumber
  refine ⟨c :: cs, hw, taken_of_read
    (Text.tight_of_noBlanks (List.cons_ne_nil _ _) htoken.noBlanks) fun fuel rest' hrest' => ?_⟩
  rw [List.cons_append, readValue_number hc, ← List.cons_append, htoken.reads hrest']
  rfl

/-- An empty container. -/
theorem takenFrom_empty {opening closing : Char} {v : Json} {inner : Text}
    (hopening : Text.isBlank opening = false) (hclosing : Text.isBlank closing = false)
    (h : ∀ {fuel depth rest inner}, skipSpace inner = closing :: rest →
      readValue (fuel + 1) (depth + 1) (opening :: inner) = some (v, rest))
    (ht : skipSpace t = opening :: inner) (hclose : skipSpace inner = closing :: rest) :
    TakenFrom (readValue · (depth + 1)) t v rest := by
  obtain ⟨gap, hgap, hinner⟩ := exists_of_skipSpace inner
  rw [hclose] at hinner
  refine ⟨[opening] ++ gap ++ [closing], by rw [ht, hinner]; simp, taken_of_read
    ((tight_singleton hopening).append gap (tight_singleton hclosing)) fun fuel rest' _ => ?_⟩
  have htext : [opening] ++ gap ++ [closing] ++ rest' = opening :: (gap ++ closing :: rest') := by
    simp
  have hskip : skipSpace (gap ++ closing :: rest') = closing :: rest' := by
    rw [skipSpace_append hgap]
    exact skipSpace_tight (tight_singleton hclosing) rest'
  rw [htext]
  exact h hskip

/-- A container with something in it, given how that is read. -/
theorem takenFrom_filled {α : Type} {read : Nat → Nat → Text → Option (α × Text)}
    {opening closing : Char} {wrap : α → Json} {x : α} {inner : Text}
    (hopening : Text.isBlank opening = false)
    (h : ∀ {fuel depth inner}, (∀ more, skipSpace inner ≠ closing :: more) →
      readValue (fuel + 1) (depth + 1) (opening :: inner) =
        (read fuel depth inner).map (Prod.map wrap id))
    (hread : ∀ fuel t, read fuel depth (skipSpace t) = read fuel depth t)
    (ht : skipSpace t = opening :: inner) (hopen : ∀ more, skipSpace inner ≠ closing :: more)
    (hx : TakenFrom (read · depth) inner x rest) :
    TakenFrom (readValue · (depth + 1)) t (wrap x) rest := by
  obtain ⟨w, hw, htaken⟩ := hx
  obtain ⟨gap, hgap, hinner⟩ := exists_of_skipSpace inner
  rw [hw] at hinner hopen
  refine ⟨[opening] ++ gap ++ w, by rw [ht, hinner]; simp,
    .of_succ ((tight_singleton hopening).append gap htaken.tight)
      fun {fuel rest'} hfuel hrest' => ?_⟩
  have htext : [opening] ++ gap ++ w ++ rest' = opening :: (gap ++ (w ++ rest')) := by simp
  simp only [List.length_append, List.length_singleton] at hfuel
  have hinside : read fuel depth (gap ++ (w ++ rest')) = some (x, rest') :=
    htaken.reads_behind hread hgap (by omega) hrest'
  -- What opens the container is not closed at once whatever follows, since `w` is not empty.
  have hnotClosed : ∀ more, skipSpace (gap ++ (w ++ rest')) ≠ closing :: more := by
    intro more
    rw [skipSpace_append hgap, skipSpace_tight htaken.tight]
    exact htaken.tight.append_ne_cons hopen rest' more
  show readValue (fuel + 1) (depth + 1) _ = _
  rw [htext, h hnotClosed, hinside]
  rfl

end

/-! ## All readers -/

/-- With some fuel, the readers of values, items and fields take texts by themselves. -/
structure ReadersTake (fuel : Nat) : Prop where
  value : ∀ {depth t v rest}, readValue fuel depth t = some (v, rest) →
    TakenFrom (readValue · depth) t v rest
  items : ∀ {depth t vs rest}, readItems fuel depth t = some (vs, rest) →
    TakenFrom (readItems · depth) t vs rest
  fields : ∀ {depth t fs rest}, readFields fuel depth t = some (fs, rest) →
    TakenFrom (readFields · depth) t fs rest

namespace ReadersTake

variable {fuel depth : Nat} {t rest : Text}

theorem items_succ (ih : ReadersTake fuel) {vs : List Json}
    (h : readItems (fuel + 1) depth t = some (vs, rest)) :
    TakenFrom (readItems · depth) t vs rest := by
  obtain ⟨v, after, hv, hbehind⟩ := exists_of_readItems h
  obtain ⟨w, hw, htaken⟩ := ih.value hv
  have hitem := takesElement_item htaken
  cases hbehind with
  | closed hclose =>
    exact hitem.takenFrom_last (by decide) (fun _ => endsNumeral_cons (by decide)) hw hclose
  | more hcomma hmore =>
    exact hitem.takenFrom_cons (readItems_skipSpace · depth) hw hcomma (ih.items hmore)

theorem fields_succ (ih : ReadersTake fuel) {fs : List (Text × Json)}
    (h : readFields (fuel + 1) depth t = some (fs, rest)) :
    TakenFrom (readFields · depth) t fs rest := by
  obtain ⟨opened, k, afterKey, afterColon, v, after, hopen, hkey, hcolon, hv, hbehind⟩ :=
    exists_of_readFields h
  obtain ⟨key, rfl, hspells⟩ := spells_of_readStringFrom hkey
  obtain ⟨spaces, hspaces, hafterKey⟩ := exists_of_skipSpace afterKey
  obtain ⟨spaces', hspaces', hafterColon⟩ := exists_of_skipSpace afterColon
  obtain ⟨w, hw, htaken⟩ := ih.value hv
  have hfield := takesElement_field hspells hspaces hspaces' htaken
  rw [hafterKey, hcolon, hafterColon, hw, ← fieldText_append] at hopen
  cases hbehind with
  | closed hclose =>
    exact hfield.takenFrom_last (by decide) (fun _ => endsNumeral_cons (by decide)) hopen hclose
  | more hcomma hmore =>
    exact hfield.takenFrom_cons (readFields_skipSpace · depth) hopen hcomma (ih.fields hmore)

theorem value_succ (ih : ReadersTake fuel) {v : Json}
    (h : readValue (fuel + 1) depth t = some (v, rest)) :
    TakenFrom (readValue · depth) t v rest := by
  cases valueRead_of_readValue h with
  | null hword =>
    exact ⟨"null".toList, hword,
      taken_of_read (tight_of_all (by decide) (by decide)) fun _ _ _ => rfl⟩
  | bool b hword =>
    refine ⟨Text.ofBool b, hword, ?_⟩
    cases b <;> exact taken_of_read (tight_of_all (by decide) (by decide)) fun _ _ _ => rfl
  | string hquote hstring =>
    exact takenFrom_string hquote hstring
  | number hnumber =>
    exact takenFrom_number hnumber
  | array hopen hinside =>
    cases hinside with
    | empty hclose =>
      exact takenFrom_empty (by decide) (by decide) readValue_array_nil hopen hclose
    | filled hfilled hitems =>
      exact takenFrom_filled (by decide) readValue_array_items (readItems_skipSpace · _) hopen
        hfilled (ih.items hitems)
  | object hopen hinside =>
    cases hinside with
    | empty hclose =>
      exact takenFrom_empty (by decide) (by decide) readValue_object_nil hopen hclose
    | filled hfilled hfields =>
      have htaken := takenFrom_filled (by decide) readValue_object_fields
        (readFields_skipSpace · _) hopen hfilled (ih.fields hfields)
      exact htaken

end ReadersTake

/-- All readers take texts by themselves. The induction is on the fuel, which the three hand to each
other. -/
theorem readersTake (fuel : Nat) : ReadersTake fuel := by
  induction fuel with
  | zero => constructor <;> simp [readValue, readItems, readFields]
  | succ fuel ih => exact ⟨ih.value_succ, ih.items_succ, ih.fields_succ⟩

/-! ## Documents -/

/-- A text is a document exactly where the text of the value stands between blanks. -/
theorem parse?_eq_some_iff_taken {t : Text} {v : Json} :
    parse? t = some v ↔ ∃ lead w trail, t = lead ++ w ++ trail ∧ AllSpace lead ∧ AllSpace trail ∧
      Taken (readValue · maxDepth) w v := by
  constructor
  · intro h
    obtain ⟨rest, hread, hend⟩ := exists_of_parse? h
    obtain ⟨w, hw, htaken⟩ := (readersTake _).value hread
    obtain ⟨lead, hlead, ht⟩ := exists_of_skipSpace t
    obtain ⟨trail, htrail, hrest⟩ := exists_of_skipSpace rest
    rw [hend, List.append_nil] at hrest
    subst hrest
    exact ⟨lead, w, rest, by rw [List.append_assoc, ← hw, ← ht], hlead, htrail, htaken⟩
  · rintro ⟨lead, w, trail, rfl, hlead, htrail, htaken⟩
    have hread : readValue (2 * (lead ++ w ++ trail).length + 2) maxDepth (lead ++ w ++ trail) =
        some (v, trail) := by
      have hends : EndsNumeral trail := by
        have hnil := endsNumeral_nil.append htrail
        rwa [List.append_nil] at hnil
      rw [List.append_assoc]
      refine htaken.reads_behind (readValue_skipSpace · maxDepth) hlead ?_ hends
      simp only [List.length_append]
      omega
    have hend : skipSpace trail = [] := List.dropWhile_eq_nil_iff.2 htrail
    unfold parse?
    rw [hread]
    exact if_pos hend

/-- What trimming takes off a text may stand between tokens. -/
def TrimsSpace (t : Text) : Prop :=
  ∃ lead trail, t = lead ++ Text.trim t ++ trail ∧ AllSpace lead ∧ AllSpace trail

/-- **Margins.** A text is a document exactly where its trimmed form is and trimming takes nothing
off but blanks of JSON. -/
theorem parse?_eq_some_iff_trim {t : Text} {v : Json} :
    parse? t = some v ↔ parse? (Text.trim t) = some v ∧ TrimsSpace t := by
  constructor
  · intro h
    obtain ⟨lead, w, trail, rfl, hlead, htrail, htaken⟩ := parse?_eq_some_iff_taken.1 h
    have htrim : Text.trim (lead ++ w ++ trail) = w :=
      Text.trim_around hlead.allBlank htaken.tight htrail.allBlank
    refine ⟨?_, lead, trail, by rw [htrim], hlead, htrail⟩
    rw [htrim]
    exact parse?_eq_some_iff_taken.2 ⟨[], w, [], by simp, by simp [AllSpace], by simp [AllSpace],
      htaken⟩
  · rintro ⟨h, lead, trail, ht, hlead, htrail⟩
    obtain ⟨lead', w, trail', hw, hlead', htrail', htaken⟩ := parse?_eq_some_iff_taken.1 h
    have htrim : Text.trim t = w := by
      rw [← Text.trim_trim, hw]
      exact Text.trim_around hlead'.allBlank htaken.tight htrail'.allBlank
    rw [htrim] at ht
    exact parse?_eq_some_iff_taken.2 ⟨lead, w, trail, ht, hlead, htrail, htaken⟩

end HealthCheck.Json
