import HealthCheck.Abort
import Mathlib.Data.List.Forall2

/-!
# Laws of runs that stop midway

What a run in several parts gives, in terms of what its parts give: it has a result exactly where
each of its parts has one (`bind_eq_ok_iff`, `mapM_eq_ok_iff`), and stops exactly where one that is
reached stops.
-/

namespace HealthCheck.Abort

universe u

variable {α β : Type u}

theorem eq_overflow (a : Abort) : a = .overflow := by
  cases a
  rfl

/-- A run stops or has a result. -/
theorem eq_error_iff {x : Except Abort α} : x = .error .overflow ↔ ¬ ∃ a, x = .ok a := by
  cases x with
  | error e =>
    rw [e.eq_overflow]
    simp
  | ok a => simp

@[simp] theorem ok_bind (a : α) (f : α → Except Abort β) : (Except.ok a >>= f) = f a := rfl

@[simp] theorem error_bind (e : Abort) (f : α → Except Abort β) :
    (Except.error e >>= f) = Except.error e := rfl

/-- A run of two parts has a result where the first has one and the second has one for it. -/
theorem bind_eq_ok_iff {x : Except Abort α} {f : α → Except Abort β} {b : β} :
    x >>= f = .ok b ↔ ∃ a, x = .ok a ∧ f a = .ok b := by
  cases x with
  | error e => simp
  | ok a => simp

/-- A run of two parts stops in the first, or in the second after the first has come to its end. -/
theorem bind_eq_error_iff {x : Except Abort α} {f : α → Except Abort β} {e : Abort} :
    x >>= f = .error e ↔ x = .error e ∨ ∃ a, x = .ok a ∧ f a = .error e := by
  cases x with
  | error e' => simp
  | ok a => simp

/-- Nothing that is done to a result makes a run stop. -/
theorem map_eq_ok_iff {x : Except Abort α} {f : α → β} {b : β} :
    x.map f = .ok b ↔ ∃ a, x = .ok a ∧ f a = b := by
  cases x with
  | error e => simp [Except.map]
  | ok a => simp [Except.map]

theorem map_eq_error_iff {x : Except Abort α} {f : α → β} {e : Abort} :
    x.map f = .error e ↔ x = .error e := by
  cases x with
  | error e' => simp [Except.map]
  | ok a => simp [Except.map]

/-- A run that stops where something holds, and has a result elsewhere. -/
theorem ite_eq_ok_iff {P : Prop} [Decidable P] {a b : α} :
    (if P then .error .overflow else .ok a : Except Abort α) = .ok b ↔ ¬ P ∧ b = a := by
  split_ifs with h
  · exact iff_of_false nofun fun hok => hok.1 h
  · rw [Except.ok.injEq, and_iff_right h, eq_comm]

/-- A run that stops where something holds stops nowhere else. -/
theorem ite_eq_overflow_iff {P : Prop} [Decidable P] {a : α} :
    (if P then .error .overflow else .ok a : Except Abort α) = .error .overflow ↔ P := by
  split_ifs with h
  · exact iff_of_true rfl h
  · exact iff_of_false nofun h

/-! ## Lists -/

variable {f : α → Except Abort β} {l : List α}

/-- A list is gone through to its end exactly if each of its elements has a result. -/
theorem mapM_eq_ok_iff {r : List β} :
    l.mapM f = .ok r ↔ List.Forall₂ (fun a b => f a = .ok b) l r := by
  induction l generalizing r with
  | nil => cases r <;> simp [pure, Except.pure]
  | cons a l ih =>
    simp only [List.mapM_cons, bind_eq_ok_iff, ih, List.forall₂_cons_left_iff]
    constructor
    · rintro ⟨b, hb, bs, hbs, heq⟩
      exact ⟨b, bs, hb, hbs, (Except.ok.inj heq).symm⟩
    · rintro ⟨b, bs, hb, hbs, rfl⟩
      exact ⟨b, hb, bs, hbs, rfl⟩

/-- Going through a list stops exactly if it stops at one of the elements. -/
theorem mapM_eq_error_iff :
    l.mapM f = .error .overflow ↔ ∃ a ∈ l, f a = .error .overflow := by
  induction l with
  | nil => simp [pure, Except.pure]
  | cons a l ih =>
    simp only [List.mapM_cons, bind_eq_error_iff, ih, List.exists_mem_cons_iff]
    constructor
    · rintro (h | ⟨b, -, h | ⟨bs, -, h⟩⟩)
      · exact Or.inl h
      · exact Or.inr h
      · cases h
    · rintro (h | h)
      · exact Or.inl h
      · cases ha : f a with
        | error e => exact Or.inl (by rw [e.eq_overflow])
        | ok b => exact Or.inr ⟨b, rfl, Or.inl h⟩

/-- What holds of all results, in terms of the elements that have them. -/
theorem all_iff_of_mapM {r : List β} (h : l.mapM f = .ok r) {good : β → Bool} {P : α → Prop}
    (hgood : ∀ a b, f a = .ok b → (good b = true ↔ P a)) :
    r.all good = true ↔ ∀ a ∈ l, P a := by
  have hresults := mapM_eq_ok_iff.1 h
  clear h
  induction hresults with
  | nil => simp
  | @cons a b l r hab _ ih =>
    rw [List.all_cons, Bool.and_eq_true, List.forall_mem_cons]
    exact and_congr (hgood a b hab) ih

/-- Where a list is gone through to its end, every element has a result. -/
theorem exists_ok_of_mapM {r : List β} (h : l.mapM f = .ok r) : ∀ a ∈ l, ∃ b, f a = .ok b := by
  have hresults := mapM_eq_ok_iff.1 h
  clear h
  induction hresults with
  | nil => simp
  | @cons a b l r hab _ ih => exact List.forall_mem_cons.2 ⟨⟨b, hab⟩, ih⟩

/-- What is made of elements and their results side by side, in terms of the elements. -/
theorem flatMap_zip_of_mapM {γ : Type u} {r : List β} (h : l.mapM f = .ok r) {g : α → List γ}
    {k : α × β → List γ} (hk : ∀ a ∈ l, ∀ b, f a = .ok b → k (a, b) = g a) :
    (l.zip r).flatMap k = l.flatMap g := by
  have hresults := mapM_eq_ok_iff.1 h
  clear h
  induction hresults with
  | nil => rfl
  | @cons a b l r hab _ ih =>
    rw [List.zip_cons_cons, List.flatMap_cons, List.flatMap_cons,
      hk a List.mem_cons_self b hab, ih fun a ha => hk a (List.mem_cons_of_mem _ ha)]

/-- What is made of results, in terms of the elements that have them. -/
theorem flatMap_of_mapM {γ : Type u} {r : List β} (h : l.mapM f = .ok r) {g : α → List γ}
    {k : β → List γ} (hk : ∀ a ∈ l, ∀ b, f a = .ok b → k b = g a) :
    r.flatMap k = l.flatMap g := by
  have hlength : l.length = r.length := (mapM_eq_ok_iff.1 h).length_eq
  calc r.flatMap k
      = ((l.zip r).map Prod.snd).flatMap k := by rw [List.map_snd_zip (Nat.le_of_eq hlength.symm)]
    _ = (l.zip r).flatMap fun x => k x.2 := List.flatMap_map _ _ _
    _ = l.flatMap g := flatMap_zip_of_mapM h hk

theorem toOption_eq_some_iff {x : Except Abort α} {a : α} : x.toOption = some a ↔ x = .ok a := by
  cases x <;> simp [Except.toOption]

end HealthCheck.Abort
