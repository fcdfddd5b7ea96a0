import HealthCheck.Context

/-!
# Reading what was written at a path

Paths are lists of keys here. A value that was written is found at its own path and below it
(`walk?_setAt_append`), and a write leaves every path alone that neither extends its own nor is
extended by it (`walk?_setAt_of_apart`). Between the two, at the paths above the written one, stand
the objects that lead to it.
-/

namespace HealthCheck.Context

/-- Neither of two lists of keys extends the other. -/
def Apart (ks ls : List Text) : Prop := ¬ ks <+: ls ∧ ¬ ls <+: ks

/-- The segments of one path extend those of the other, or equal them. -/
def Overlap (path other : Text) : Prop :=
  segments path <+: segments other ∨ segments other <+: segments path

theorem apart_segments_iff {path other : Text} :
    Apart (segments path) (segments other) ↔ ¬ Overlap path other :=
  not_or.symm

theorem apart_cons_cons {k : Text} {ks ls : List Text} :
    Apart (k :: ks) (k :: ls) ↔ Apart ks ls := by
  simp only [Apart, List.cons_prefix_cons, true_and]

/-- The empty path is apart from none. -/
theorem Apart.ne_nil {ks ls : List Text} (h : Apart ks ls) : ks ≠ [] ∧ ls ≠ [] := by
  constructor
  · rintro rfl
    exact h.1 List.nil_prefix
  · rintro rfl
    exact h.2 List.nil_prefix

/-- Every path has a segment, the empty one included. -/
theorem segments_ne_nil (path : Text) : segments path ≠ [] := by
  unfold segments
  induction path with
  | nil => simp [Text.segments]
  | cons c cs ih =>
    rw [Text.segments]
    split
    · simp
    · split <;> simp

/-! ## Walking -/

theorem walk?_cons_object (k : Text) (ks : List Text) (fields : Fields Json) :
    walk? (k :: ks) (.object fields) = (Fields.get? k fields).bind (walk? ks) := rfl

/-- Keys lead nowhere in a value without fields, so a walk sees of a value its fields only. -/
theorem walk?_object_fieldsOf {ks : List Text} (h : ks ≠ []) (v : Json) :
    walk? ks (.object v.fieldsOf) = walk? ks v := by
  cases ks with
  | nil => exact absurd rfl h
  | cons k ks => cases v <;> rfl

/-- A walk goes on inside what the first key holds. -/
theorem walk?_inner {ks : List Text} (h : ks ≠ []) (k : Text) (fields : Fields Json) :
    walk? ks (.object (((Fields.get? k fields).map Json.fieldsOf).getD [])) =
      (Fields.get? k fields).bind (walk? ks) := by
  cases hk : Fields.get? k fields with
  | some v => exact walk?_object_fieldsOf h v
  | none =>
    cases ks with
    | nil => exact absurd rfl h
    | cons l ls => rfl

/-! ## Walking after a write -/

theorem setAt_cons_cons (k l : Text) (ks : List Text) (v : Json) (fields : Fields Json) :
    setAt (k :: l :: ks) v fields =
      Fields.insert k
        (.object (setAt (l :: ks) v (((Fields.get? k fields).map Json.fieldsOf).getD [])))
        fields := rfl

/-- What was written is found at its path, and all that it holds below. -/
theorem walk?_setAt_append {ks : List Text} (h : ks ≠ []) (ls : List Text) (v : Json)
    (fields : Fields Json) :
    walk? (ks ++ ls) (.object (setAt ks v fields)) = walk? ls v := by
  induction ks generalizing fields with
  | nil => exact absurd rfl h
  | cons k ks ih =>
    cases ks with
    | nil =>
      rw [List.singleton_append, walk?_cons_object, setAt, Fields.get?_insert_self]
      rfl
    | cons l ks =>
      rw [List.cons_append, walk?_cons_object, setAt_cons_cons, Fields.get?_insert_self]
      exact ih (List.cons_ne_nil l ks) _

theorem walk?_setAt_self {ks : List Text} (h : ks ≠ []) (v : Json) (fields : Fields Json) :
    walk? ks (.object (setAt ks v fields)) = some v := by
  have hwalk := walk?_setAt_append h [] v fields
  rwa [List.append_nil] at hwalk

/-- A write leaves alone what stands at a path apart from its own. -/
theorem walk?_setAt_of_apart {ks ls : List Text} (h : Apart ks ls) (v : Json)
    (fields : Fields Json) :
    walk? ls (.object (setAt ks v fields)) = walk? ls (.object fields) := by
  induction ks generalizing ls fields with
  | nil => exact absurd rfl h.ne_nil.1
  | cons k ks ih =>
    cases ls with
    | nil => exact absurd rfl h.ne_nil.2
    | cons l ls =>
      by_cases hkl : l = k
      · subst hkl
        have happart := apart_cons_cons.1 h
        obtain ⟨hks, hls⟩ := happart.ne_nil
        cases ks with
        | nil => exact absurd rfl hks
        | cons m ks =>
          rw [walk?_cons_object, walk?_cons_object, setAt_cons_cons, Fields.get?_insert_self,
            Option.bind_some, ih happart, walk?_inner hls]
      · have hget : ∀ w : Json, Fields.get? l (Fields.insert k w fields) = Fields.get? l fields :=
          fun w => Fields.get?_insert_of_ne hkl w fields
        cases ks with
        | nil => rw [walk?_cons_object, walk?_cons_object, setAt, hget]
        | cons m ks => rw [walk?_cons_object, walk?_cons_object, setAt_cons_cons, hget]

end HealthCheck.Context
