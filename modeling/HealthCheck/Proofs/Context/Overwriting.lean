import HealthCheck.Proofs.Context.Paths

/-!
# What a write changes

Any path is in one of three relations to a path that is written: it leads further down from it, it
leads towards it, or the two part ways. Below the written path a read walks down the value that was
written. On the way to it stands the object that was there before, or a new one in place of anything
else, with the value written into it (`walk?_setAt_above`). Everywhere else a read comes to what it
came to before, be it a value or an error.
-/

namespace HealthCheck.Context

/-! ## On the way to the written path -/

/-- The fields of the object that keys lead to. Where they lead to no object there are none. -/
def fieldsAt (ks : List Text) (c : Context) : Fields Json :=
  ((walk? ks (.object c)).map Json.fieldsOf).getD []

theorem fieldsAt_nil (c : Context) : fieldsAt [] c = c := rfl

theorem fieldsAt_singleton (k : Text) (c : Context) :
    fieldsAt [k] c = ((Fields.get? k c).map Json.fieldsOf).getD [] := by
  rw [fieldsAt, walk?_cons_object]
  cases Fields.get? k c <;> rfl

/-- The fields below a key are found in the object under that key. -/
theorem fieldsAt_cons (k : Text) (ks : List Text) (c : Context) :
    fieldsAt (k :: ks) c = fieldsAt ks (fieldsAt [k] c) := by
  by_cases hks : ks = []
  · rw [hks, fieldsAt_nil]
  · have hwalk : walk? (k :: ks) (.object c) = walk? ks (.object (fieldsAt [k] c)) := by
      rw [fieldsAt_singleton, walk?_inner hks, walk?_cons_object]
    rw [fieldsAt, hwalk, ← fieldsAt]

/-- Writing below a key writes into the object under that key. -/
theorem setAt_cons {ks : List Text} (hks : ks ≠ []) (k : Text) (v : Json) (c : Context) :
    setAt (k :: ks) v c = Fields.insert k (.object (setAt ks v (fieldsAt [k] c))) c := by
  obtain ⟨l, ls, rfl⟩ := List.exists_cons_of_ne_nil hks
  rw [setAt_cons_cons, fieldsAt_singleton]

/-- **Above a write.** The object that leads to the written path holds what it held before, and the
value at the rest of the path. -/
theorem walk?_setAt_above {rest : List Text} (hrest : rest ≠ []) (ks : List Text) (v : Json)
    (c : Context) :
    walk? ks (.object (setAt (ks ++ rest) v c)) =
      some (.object (setAt rest v (fieldsAt ks c))) := by
  -- Each key leads to the object that the write put under it, which stands for the context below.
  induction ks generalizing c with
  | nil => rfl
  | cons k ks ih =>
    have hbelow : ks ++ rest ≠ [] := List.append_ne_nil_of_right_ne_nil ks hrest
    rw [List.cons_append, setAt_cons hbelow, walk?_cons_object, Fields.get?_insert_self,
      Option.bind_some, ih, ← fieldsAt_cons]

/-! ## Reading and writing at paths -/

/-- The object that a read at a path comes to. It is empty where the read fails or comes to anything
else. -/
def objectAt (c : Context) (path : Text) : Fields Json :=
  match c.get path with
  | .ok v => v.fieldsOf
  | .error _ => []

theorem objectAt_eq (c : Context) (path : Text) :
    c.objectAt path = fieldsAt (segments path) c := by
  rw [objectAt, get, fieldsAt]
  cases walk? (segments path) (.object c) <;> rfl

/-- The context after a write is attempted: one that is refused leaves the context as it was. -/
def written (c : Context) (path : Text) (v : Json) : Context :=
  match c.set path v with
  | .ok c' => c'
  | .error _ => c

/-- A write is refused at the empty path and nowhere else. -/
theorem set_eq_error_iff {c : Context} {path : Text} {v : Json} {cause : Error} :
    c.set path v = .error cause ↔ path = [] ∧ cause = .emptyPath := by
  unfold set
  by_cases hpath : path = []
  · rw [if_pos hpath, Except.error.injEq]
    constructor
    · intro hcause
      exact ⟨hpath, hcause.symm⟩
    · intro h
      exact h.2.symm
  · rw [if_neg hpath]
    constructor
    · intro h
      cases h
    · intro h
      exact absurd h.1 hpath

theorem written_of_ne_nil {path : Text} (hpath : path ≠ []) (c : Context) (v : Json) :
    c.written path v = setAt (segments path) v c := by
  rw [written, set, if_neg hpath]

/-- **Reading after a write.** A write fails at the empty path only, and then changes nothing. After
any other, a read at a path comes to what walking the rest of the path down the written value comes
to, if the path extends the written one; to the object that was there, with the value written at the
rest of the written path, if the written path extends it; and otherwise to what it came to
before. -/
theorem get_written (c : Context) (path : Text) (v : Json) :
    (∀ cause, c.set path v = .error cause ↔ path = [] ∧ cause = .emptyPath) ∧
    (path = [] → c.written path v = c) ∧
    (path ≠ [] → ∀ other,
      (∀ rest, segments other = segments path ++ rest →
        (c.written path v).get other =
          match walk? rest v with
          | some w => .ok w
          | none => .error (.pathNotFound other)) ∧
      (∀ rest, rest ≠ [] → segments path = segments other ++ rest →
        (c.written path v).get other = .ok (.object (setAt rest v (c.objectAt other)))) ∧
      (¬ Overlap path other → (c.written path v).get other = c.get other)) := by
  refine ⟨fun cause => set_eq_error_iff, ?_, ?_⟩
  · intro hpath
    rw [written, set_eq_error_iff.2 ⟨hpath, rfl⟩]
  · intro hpath other
    rw [written_of_ne_nil hpath]
    refine ⟨?_, ?_, ?_⟩
    · intro rest hbelow
      have hwalk : walk? (segments other) (.object (setAt (segments path) v c)) =
          walk? rest v := by rw [hbelow, walk?_setAt_append (segments_ne_nil path)]
      cases hv : walk? rest v with
      | none => rw [get, hwalk, hv]
      | some w => rw [get, hwalk, hv]
    · intro rest hrest habove
      rw [get, habove, walk?_setAt_above hrest, objectAt_eq]
    · intro hneither
      have hwalk : walk? (segments other) (.object (setAt (segments path) v c)) =
          walk? (segments other) (.object c) :=
        walk?_setAt_of_apart (apart_segments_iff.2 hneither) v c
      rw [get, get, hwalk]

/-- A context with a text under one key and a number under another. -/
def annContext : Context := [("user".toList, .string "ann".toList), ("count".toList, .int 3)]

/-- An object with one field. -/
def firstName : Json := .object [("first".toList, .string "Ann".toList)]

/-- Writing below a text puts an object in its place, which leads to what was written. -/
theorem get_annContext_written :
    (annContext.set [] firstName = .error .emptyPath ∧
      annContext.written [] firstName = annContext) ∧
    "user.name".toList ≠ [] ∧
    (segments "user.name.first".toList = segments "user.name".toList ++ ["first".toList] ∧
      (annContext.written "user.name".toList firstName).get "user.name.first".toList =
        .ok (.string "Ann".toList)) ∧
    (segments "user.name.first.x".toList =
        segments "user.name".toList ++ ["first".toList, "x".toList] ∧
      (annContext.written "user.name".toList firstName).get "user.name.first.x".toList =
        .error (.pathNotFound "user.name.first.x".toList)) ∧
    (["name".toList] ≠ [] ∧
      segments "user.name".toList = segments "user".toList ++ ["name".toList] ∧
      (annContext.written "user.name".toList firstName).get "user".toList =
        .ok (.object [("name".toList, firstName)])) ∧
    (¬ Overlap "user.name".toList "count".toList ∧
      (annContext.written "user.name".toList firstName).get "count".toList = .ok (.int 3)) := by
  have hrefused := get_written annContext [] firstName
  have hreads := (get_written annContext "user.name".toList firstName).2.2 (by decide)
  have hbelow : segments "user.name.first".toList =
      segments "user.name".toList ++ ["first".toList] := rfl
  have hfurther : segments "user.name.first.x".toList =
      segments "user.name".toList ++ ["first".toList, "x".toList] := rfl
  have habove : segments "user.name".toList = segments "user".toList ++ ["name".toList] := rfl
  have hapart : ¬ Overlap "user.name".toList "count".toList := by
    unfold Overlap
    decide
  refine ⟨⟨(hrefused.1 .emptyPath).2 ⟨rfl, rfl⟩, hrefused.2.1 rfl⟩, by decide, ⟨hbelow, ?_⟩,
    ⟨hfurther, ?_⟩, ⟨by decide, habove, ?_⟩, ⟨hapart, ?_⟩⟩
  · exact (hreads "user.name.first".toList).1 _ hbelow
  · exact (hreads "user.name.first.x".toList).1 _ hfurther
  · exact (hreads "user".toList).2.1 _ (by decide) habove
  · exact (hreads "count".toList).2.2 hapart

end HealthCheck.Context
