import HealthCheck.Text.Basic

/-!
# Fields

Keyed values in the order in which their keys were first written. A key keeps its position when it
is written again and takes the last value.
-/

namespace HealthCheck

/-- Values under keys, in order. -/
abbrev Fields (α : Type) := List (Text × α)

namespace Fields

variable {α : Type}

/-- The keys, in order. -/
def keys (fs : Fields α) : List Text := fs.map Prod.fst

/-- The value under a key. -/
def get? (key : Text) : Fields α → Option α
  | [] => none
  | (k, v) :: fs => if k = key then some v else get? key fs

/-- Writes a value under a key: in place where the key is known, else at the end. -/
def insert (key : Text) (value : α) : Fields α → Fields α
  | [] => [(key, value)]
  | (k, v) :: fs => if k = key then (k, value) :: fs else (k, v) :: insert key value fs

/-- Writes values one after the other. -/
def ofList (entries : List (Text × α)) : Fields α :=
  entries.foldl (fun fs e => insert e.1 e.2 fs) []

/-- A key that has just been written holds what was written. -/
@[simp] theorem get?_insert_self (key : Text) (value : α) (fs : Fields α) :
    get? key (insert key value fs) = some value := by
  induction fs with
  | nil => simp [insert, get?]
  | cons f fs ih => by_cases h : f.1 = key <;> simp [insert, get?, h, ih]

/-- Writing under a key leaves what other keys hold. -/
theorem get?_insert_of_ne {key other : Text} (h : other ≠ key) (value : α) (fs : Fields α) :
    get? other (insert key value fs) = get? other fs := by
  induction fs with
  | nil => simp [insert, get?, h.symm]
  | cons f fs ih =>
    by_cases hk : f.1 = key
    · simp [insert, get?, hk, h.symm]
    · simp [insert, get?, hk, ih]

/-- The keys after a write are those before it and the key that was written. -/
theorem mem_keys_insert {k key : Text} {value : α} {fs : Fields α} :
    k ∈ keys (insert key value fs) ↔ k = key ∨ k ∈ keys fs := by
  induction fs with
  | nil => simp [insert, keys]
  | cons f fs ih =>
    by_cases h : f.1 = key
    · simp [insert, keys, h]
    · simp only [insert, h, if_false, keys, List.map_cons, List.mem_cons] at ih ⊢
      rw [ih]
      exact or_left_comm

/-- Keys stay unique: writing under a key that is there does not add it again. -/
theorem nodup_keys_insert (key : Text) (value : α) {fs : Fields α} (h : fs.keys.Nodup) :
    (insert key value fs).keys.Nodup := by
  induction fs with
  | nil => simp [insert, keys]
  | cons f fs ih =>
    have hd : f.1 ∉ keys fs ∧ (keys fs).Nodup := List.nodup_cons.1 h
    by_cases hk : f.1 = key
    · simpa [insert, keys, hk] using h
    · have : f.1 ∉ keys (insert key value fs) := fun hm =>
        (mem_keys_insert.1 hm).elim hk hd.1
      simpa [insert, hk, keys] using List.nodup_cons.2 ⟨this, ih hd.2⟩

/-- Writing values one after the other leaves no key twice. -/
theorem nodup_keys_ofList (entries : List (Text × α)) : (ofList entries).keys.Nodup := by
  have : ∀ (es : List (Text × α)) (fs : Fields α), fs.keys.Nodup →
      (es.foldl (fun fs e => insert e.1 e.2 fs) fs).keys.Nodup := by
    intro es
    induction es with
    | nil => exact fun _ h => h
    | cons e es ih => exact fun fs h => ih _ (nodup_keys_insert e.1 e.2 h)
  exact this entries [] List.nodup_nil

end Fields

end HealthCheck
