import HealthCheck.Json.Reader
import Mathlib.Data.List.DropRight

/-!
# One step of the readers

What the readers of values, items and fields have read where they accept, told for one unit of fuel:
a value is one token or a container (`ValueRead`), a container is closed at once or has a list in it
(`ReadInside`), and behind an element a list is closed or goes on (`ReadBehind`). What holds of all
documents that are accepted follows from these by induction on the fuel.
-/

namespace HealthCheck.Json

variable {fuel depth : Nat} {t rest : Text}

/-! ## Blanks in front -/

theorem skipSpace_skipSpace (t : Text) : skipSpace (skipSpace t) = skipSpace t :=
  List.dropWhile_idempotent isSpace t

/-- Readers skip white space by themselves. -/
theorem readValue_skipSpace (fuel depth : Nat) (t : Text) :
    readValue fuel depth (skipSpace t) = readValue fuel depth t := by
  cases fuel with
  | zero => rw [readValue, readValue]
  | succ fuel => rw [readValue, readValue, skipSpace_skipSpace]

theorem readItems_skipSpace (fuel depth : Nat) (t : Text) :
    readItems fuel depth (skipSpace t) = readItems fuel depth t := by
  cases fuel with
  | zero => rw [readItems, readItems]
  | succ fuel => rw [readItems, readItems, readValue_skipSpace]

theorem readFields_skipSpace (fuel depth : Nat) (t : Text) :
    readFields fuel depth (skipSpace t) = readFields fuel depth t := by
  cases fuel with
  | zero => rw [readFields, readFields]
  | succ fuel => rw [readFields, readFields, skipSpace_skipSpace]

/-! ## Lists -/

section

variable {α : Type} {read : Text → Option (List α × Text)} {closing : Char}

/-- What has been read of a list once its element `x` has: the list is closed behind it, or a comma
follows and then more of it. -/
inductive ReadBehind (read : Text → Option (List α × Text)) (closing : Char) (x : α)
    (after : Text) : List α → Text → Prop where
  | closed {rest : Text} (hclose : skipSpace after = closing :: rest) :
      ReadBehind read closing x after [x] rest
  | more {tail rest : Text} {xs : List α} (hcomma : skipSpace after = ',' :: tail)
      (hmore : read tail = some (xs, rest)) : ReadBehind read closing x after (x :: xs) rest

/-- What has been read of a container once it is open: it is closed at once, or it has a list in
it. -/
inductive ReadInside (read : Text → Option (List α × Text)) (closing : Char) (inner : Text) :
    List α → Text → Prop where
  | empty {rest : Text} (hclose : skipSpace inner = closing :: rest) :
      ReadInside read closing inner [] rest
  | filled {rest : Text} {xs : List α} (hopen : ∀ more, skipSpace inner ≠ closing :: more)
      (hread : read inner = some (xs, rest)) : ReadInside read closing inner xs rest

/-- What holds of the element and of the elements of every list that is read holds of all. -/
theorem ReadBehind.forall_mem {P : α → Prop} {x : α} {after : Text} {xs : List α}
    (h : ReadBehind read closing x after xs rest) (hx : P x)
    (hread : ∀ tail ys, skipSpace after = ',' :: tail → read tail = some (ys, rest) →
      ∀ y ∈ ys, P y) : ∀ y ∈ xs, P y := by
  cases h with
  | closed => exact fun y hy => List.mem_singleton.1 hy ▸ hx
  | more hcomma hmore => exact List.forall_mem_cons.2 ⟨hx, hread _ _ hcomma hmore⟩

/-- What holds of all that is read between brackets holds of each item. -/
theorem ReadInside.forall_mem {P : α → Prop} {inner : Text} {xs : List α}
    (h : ReadInside read closing inner xs rest)
    (hread : ∀ ys, read inner = some (ys, rest) → ∀ y ∈ ys, P y) : ∀ y ∈ xs, P y := by
  cases h with
  | empty => exact fun y hy => absurd hy List.not_mem_nil
  | filled _ hlist => exact hread xs hlist

end

/-- What the reader of items has read: a value, and what comes behind it. -/
theorem exists_of_readItems {vs : List Json}
    (h : readItems (fuel + 1) depth t = some (vs, rest)) :
    ∃ v after, readValue fuel depth t = some (v, after) ∧
      ReadBehind (readItems fuel depth) ']' v after vs rest := by
  rw [readItems] at h
  split at h
  · cases h
  · rename_i v after hv
    refine ⟨v, after, hv, ?_⟩
    split at h
    · rename_i hclose
      cases h
      exact .closed hclose
    · rename_i hcomma
      obtain ⟨⟨ws, _⟩, hws, heq⟩ := Option.map_eq_some_iff.1 h
      cases heq
      exact .more hcomma hws
    · cases h

/-- What the reader of fields has read: a string, a colon and a value, and what comes behind it. -/
theorem exists_of_readFields {fs : List (Text × Json)}
    (h : readFields (fuel + 1) depth t = some (fs, rest)) :
    ∃ opened k afterKey afterColon v after,
      skipSpace t = '"' :: opened ∧ readString opened = some (k, afterKey) ∧
      skipSpace afterKey = ':' :: afterColon ∧
      readValue fuel depth afterColon = some (v, after) ∧
      ReadBehind (readFields fuel depth) '\x7d' (k, v) after fs rest := by
  rw [readFields] at h
  split at h
  case h_2 => cases h
  case h_1 opened hopen =>
    split at h
    · cases h
    · rename_i k afterKey hkey
      split at h
      case h_2 => cases h
      case h_1 afterColon hcolon =>
        split at h
        · cases h
        · rename_i v after hv
          refine ⟨opened, k, afterKey, afterColon, v, after, hopen, hkey, hcolon, hv, ?_⟩
          split at h
          · rename_i hclose
            cases h
            exact .closed hclose
          · rename_i hcomma
            obtain ⟨⟨gs, _⟩, hgs, heq⟩ := Option.map_eq_some_iff.1 h
            cases heq
            exact .more hcomma hgs
          · cases h

/-! ## Values -/

/-- What the reader of values has read: one token, or a container while the depth is not used
up. -/
inductive ValueRead (fuel : Nat) : Nat → Text → Json → Text → Prop where
  | null {depth : Nat} {t rest : Text} (hword : skipSpace t = "null".toList ++ rest) :
      ValueRead fuel depth t .null rest
  | bool {depth : Nat} {t rest : Text} (b : Bool) (hword : skipSpace t = Text.ofBool b ++ rest) :
      ValueRead fuel depth t (.bool b) rest
  | string {depth : Nat} {t inner s rest : Text} (hquote : skipSpace t = '"' :: inner)
      (hstring : readString inner = some (s, rest)) : ValueRead fuel depth t (.string s) rest
  | number {depth : Nat} {t rest : Text} {n : JsonNumber}
      (hnumber : readNumber (skipSpace t) = some (n, rest)) :
      ValueRead fuel depth t (.number n) rest
  | array {depth : Nat} {t inner rest : Text} {vs : List Json}
      (hopen : skipSpace t = '[' :: inner)
      (hinside : ReadInside (readItems fuel depth) ']' inner vs rest) :
      ValueRead fuel (depth + 1) t (.array vs) rest
  | object {depth : Nat} {t inner rest : Text} {fs : List (Text × Json)}
      (hopen : skipSpace t = '\x7b' :: inner)
      (hinside : ReadInside (readFields fuel depth) '\x7d' inner fs rest) :
      ValueRead fuel (depth + 1) t (.object (Fields.ofList fs)) rest

/-- One unit of fuel reads one of the forms of a document. -/
theorem valueRead_of_readValue {v : Json}
    (h : readValue (fuel + 1) depth t = some (v, rest)) : ValueRead fuel depth t v rest := by
  rw [readValue] at h
  -- One case for each token that a value may begin with, and within a container none where the
  -- depth is used up.
  split at h
  case h_1 hword =>
    cases h
    exact .null hword
  case h_2 hword =>
    cases h
    exact .bool true hword
  case h_3 hword =>
    cases h
    exact .bool false hword
  case h_4 hquote =>
    obtain ⟨⟨s, _⟩, hstring, heq⟩ := Option.map_eq_some_iff.1 h
    cases heq
    exact .string hquote hstring
  case h_5 hopen =>
    split at h
    · cases h
    · split at h
      · rename_i hclose
        cases h
        exact .array hopen (.empty hclose)
      · rename_i hfilled
        obtain ⟨⟨vs, _⟩, hitems, heq⟩ := Option.map_eq_some_iff.1 h
        cases heq
        rw [readItems_skipSpace] at hitems
        exact .array hopen (.filled hfilled hitems)
  case h_6 hopen =>
    split at h
    · cases h
    · split at h
      · rename_i hclose
        cases h
        exact .object hopen (.empty hclose)
      · rename_i hfilled
        obtain ⟨⟨fs, _⟩, hfields, heq⟩ := Option.map_eq_some_iff.1 h
        cases heq
        rw [readFields_skipSpace] at hfields
        exact .object hopen (.filled hfilled hfields)
  case h_7 =>
    obtain ⟨⟨n, _⟩, hnumber, heq⟩ := Option.map_eq_some_iff.1 h
    cases heq
    exact .number hnumber

/-! ## Documents -/

/-- A text that is a document has been read as a value with nothing but blanks behind it. -/
theorem exists_of_parse? {v : Json} (h : parse? t = some v) :
    ∃ rest, readValue (2 * t.length + 2) maxDepth t = some (v, rest) ∧ skipSpace rest = [] := by
  unfold parse? at h
  split at h
  · rename_i w rest hread
    obtain ⟨hend, heq⟩ := Option.ite_none_right_eq_some.1 h
    cases heq
    exact ⟨rest, hread, hend⟩
  · cases h

end HealthCheck.Json
