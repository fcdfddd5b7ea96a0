import HealthCheck.Proofs.Json.Reading
import Mathlib.Data.List.Induction
import Mathlib.Tactic.SplitIfs

/-!
# The shape of documents

`Json.Shaped` bounds how deep the containers of a document nest, keeps the keys of its objects
distinct and restricts its numbers. Whatever the reader accepts has a shape: `shaped_of_parse?`.
-/

namespace HealthCheck

namespace Fields

variable {α : Type}

/-- A field after a write is the one that was written or was there before. -/
theorem mem_insert {key : Text} {value : α} {f : Text × α} {fs : Fields α}
    (h : f ∈ insert key value fs) : f = (key, value) ∨ f ∈ fs := by
  induction fs with
  | nil => exact Or.inl (List.mem_singleton.1 h)
  | cons g gs ih =>
    rw [insert] at h
    split_ifs at h with hkey
    · rcases List.mem_cons.1 h with hf | hf
      · exact Or.inl (by rw [hf, hkey])
      · exact Or.inr (List.mem_cons_of_mem g hf)
    · rcases List.mem_cons.1 h with hf | hf
      · exact Or.inr (hf ▸ List.mem_cons_self)
      · exact (ih hf).imp_right (List.mem_cons_of_mem g)

/-- A new key is written behind the others. -/
theorem insert_of_not_mem {key : Text} {fs : Fields α} (h : key ∉ keys fs) (value : α) :
    insert key value fs = fs ++ [(key, value)] := by
  induction fs with
  | nil => rfl
  | cons f fs ih =>
    rw [keys, List.map_cons, List.mem_cons, not_or] at h
    rw [insert, if_neg (Ne.symm h.1), ih h.2, List.cons_append]

/-- Writing values one after the other makes no fields up. -/
theorem mem_ofList {f : Text × α} {entries : List (Text × α)} (h : f ∈ ofList entries) :
    f ∈ entries := by
  induction entries using List.reverseRecOn with
  | nil => exact h
  | append_singleton es e ih =>
    rw [ofList, List.foldl_append] at h
    rcases mem_insert h with hf | hf
    · exact List.mem_append_right es (List.mem_singleton.2 hf)
    · exact List.mem_append_left [e] (ih hf)

/-- Fields of distinct keys are written in the order in which they stand. -/
theorem ofList_of_nodup {fields : Fields α} (h : (keys fields).Nodup) :
    ofList fields = fields := by
  induction fields using List.reverseRecOn with
  | nil => rfl
  | append_singleton fs f ih =>
    rw [keys, List.map_append, List.nodup_append] at h
    have hnew : f.1 ∉ keys fs := fun hmem =>
      h.2.2 f.1 hmem f.1 (List.mem_singleton.2 rfl) rfl
    have hinit : ofList fs = fs := ih h.1
    rw [ofList] at hinit ⊢
    rw [List.foldl_append, hinit]
    exact insert_of_not_mem hnew f.2

theorem mem_of_get? {key : Text} {value : α} {fs : Fields α} (h : get? key fs = some value) :
    (key, value) ∈ fs := by
  induction fs with
  | nil => exact absurd h.symm (Option.some_ne_none value)
  | cons f fs ih =>
    rw [get?] at h
    split_ifs at h with hkey
    · rw [← hkey, ← Option.some.inj h]
      exact List.mem_cons_self
    · exact List.mem_cons_of_mem f (ih h)

/-- Where keys are distinct, every value is the one under its key. -/
theorem get?_of_mem {key : Text} {value : α} {fs : Fields α} (hkeys : (keys fs).Nodup)
    (h : (key, value) ∈ fs) : get? key fs = some value := by
  induction fs with
  | nil => exact absurd h List.not_mem_nil
  | cons f fs ih =>
    rw [keys, List.map_cons, List.nodup_cons] at hkeys
    rw [get?]
    rcases List.mem_cons.1 h with rfl | hrest
    · rw [if_pos rfl]
    · have hne : f.1 ≠ key := by
        rintro rfl
        exact hkeys.1 (List.mem_map.2 ⟨_, hrest, rfl⟩)
      rw [if_neg hne, ih hkeys.2 hrest]

end Fields

namespace Json

/-- The value is an array or an object. -/
def isContainer : Json → Bool
  | array _ => true
  | object _ => true
  | _ => false

/-- Containers nest at most `depth` deep, no object has a key twice, and all numbers satisfy `P`. -/
inductive Shaped (P : JsonNumber → Prop) : (depth : Nat) → Json → Prop where
  | null (depth : Nat) : Shaped P depth .null
  | bool (depth : Nat) (b : Bool) : Shaped P depth (.bool b)
  | number (depth : Nat) {n : JsonNumber} (h : P n) : Shaped P depth (.number n)
  | string (depth : Nat) (t : Text) : Shaped P depth (.string t)
  | array {depth : Nat} {items : List Json} (h : ∀ v ∈ items, Shaped P depth v) :
      Shaped P (depth + 1) (.array items)
  | object {depth : Nat} {fields : List (Text × Json)} (hkeys : (Fields.keys fields).Nodup)
      (h : ∀ f ∈ fields, Shaped P depth f.2) : Shaped P (depth + 1) (.object fields)

variable {P : JsonNumber → Prop}

/-- A document that is no deeper than a bound is no deeper than a greater one. -/
theorem Shaped.mono {d e : Nat} {v : Json} (h : v.Shaped P d) (hle : d ≤ e) : v.Shaped P e := by
  induction h generalizing e with
  | null => exact .null e
  | bool _ b => exact .bool e b
  | number _ h => exact .number e h
  | string _ t => exact .string e t
  | @array d items h ih =>
    obtain ⟨e, rfl⟩ : ∃ e', e = e' + 1 := ⟨e - 1, by omega⟩
    exact .array fun v hv => ih v hv (by omega)
  | @object d fields hkeys h ih =>
    obtain ⟨e, rfl⟩ : ∃ e', e = e' + 1 := ⟨e - 1, by omega⟩
    exact .object hkeys fun f hf => ih f hf (by omega)

/-! ## Numbers -/

mutual

/-- The numbers of a document, in order. -/
def numbers : Json → List JsonNumber
  | .number n => [n]
  | .array items => itemNumbers items
  | .object fields => fieldNumbers fields
  | _ => []

/-- The numbers of the items of an array. -/
def itemNumbers : List Json → List JsonNumber
  | [] => []
  | v :: vs => numbers v ++ itemNumbers vs

/-- The numbers of the fields of an object. -/
def fieldNumbers : List (Text × Json) → List JsonNumber
  | [] => []
  | (_, v) :: fs => numbers v ++ fieldNumbers fs

end

theorem mem_itemNumbers {n : JsonNumber} {v : Json} {items : List Json} (hv : v ∈ items)
    (hn : n ∈ v.numbers) : n ∈ itemNumbers items := by
  induction items with
  | nil => exact absurd hv List.not_mem_nil
  | cons w ws ih =>
    rw [itemNumbers]
    rcases List.mem_cons.1 hv with rfl | hmem
    · exact List.mem_append_left _ hn
    · exact List.mem_append_right _ (ih hmem)

theorem mem_fieldNumbers {n : JsonNumber} {f : Text × Json} {fields : List (Text × Json)}
    (hf : f ∈ fields) (hn : n ∈ f.2.numbers) : n ∈ fieldNumbers fields := by
  induction fields with
  | nil => exact absurd hf List.not_mem_nil
  | cons g gs ih =>
    rw [fieldNumbers]
    rcases List.mem_cons.1 hf with rfl | hmem
    · exact List.mem_append_left _ hn
    · exact List.mem_append_right _ (ih hmem)

/-- What all numbers of a document satisfy can be asked of its shape. -/
theorem Shaped.restrict {Q : JsonNumber → Prop} {d : Nat} {v : Json} (h : v.Shaped P d)
    (hnumbers : ∀ n ∈ v.numbers, Q n) : v.Shaped Q d := by
  induction h with
  | null d => exact .null d
  | bool d b => exact .bool d b
  | @number d n hn => exact .number d (hnumbers n List.mem_cons_self)
  | string d t => exact .string d t
  | array h ih =>
    exact .array fun v hv => ih v hv fun n hn => hnumbers n (mem_itemNumbers hv hn)
  | object hkeys h ih =>
    exact .object hkeys fun f hf => ih f hf fun n hn => hnumbers n (mem_fieldNumbers hf hn)

/-! ## What the reader accepts -/

/-- With some fuel, the readers of values, items and fields keep to the depth that they are
given. -/
structure ReadersKeepDepth (fuel : Nat) : Prop where
  value : ∀ depth t v rest, readValue fuel depth t = some (v, rest) →
    v.Shaped (fun _ => True) depth
  items : ∀ depth t vs rest, readItems fuel depth t = some (vs, rest) →
    ∀ v ∈ vs, v.Shaped (fun _ => True) depth
  fields : ∀ depth t fs rest, readFields fuel depth t = some (fs, rest) →
    ∀ f ∈ fs, f.2.Shaped (fun _ => True) depth

namespace ReadersKeepDepth

variable {fuel depth : Nat} {t rest : Text}

/-- A value that is read is no deeper than the readers allow. -/
theorem value_succ (ih : ReadersKeepDepth fuel) {v : Json}
    (h : readValue (fuel + 1) depth t = some (v, rest)) : v.Shaped (fun _ => True) depth := by
  cases valueRead_of_readValue h with
  | null => exact .null depth
  | bool b => exact .bool depth b
  | string => exact .string depth _
  | number => exact .number depth trivial
  | array _ hinside =>
    exact .array (hinside.forall_mem fun vs hvs => ih.items _ _ vs rest hvs)
  | @object _ _ _ _ fs _ hinside =>
    have hfields := hinside.forall_mem fun gs hgs => ih.fields _ _ gs rest hgs
    exact .object (Fields.nodup_keys_ofList fs) fun f hf => hfields f (Fields.mem_ofList hf)

/-- The items of an array keep to the depth, each by itself. -/
theorem items_succ (ih : ReadersKeepDepth fuel) {vs : List Json}
    (h : readItems (fuel + 1) depth t = some (vs, rest)) :
    ∀ v ∈ vs, v.Shaped (fun _ => True) depth := by
  obtain ⟨v, after, hv, hbehind⟩ := exists_of_readItems h
  exact hbehind.forall_mem (ih.value depth t v after hv)
    fun tail ws _ hws => ih.items depth tail ws rest hws

/-- The values of an object keep to it as well. -/
theorem fields_succ (ih : ReadersKeepDepth fuel) {fs : List (Text × Json)}
    (h : readFields (fuel + 1) depth t = some (fs, rest)) :
    ∀ f ∈ fs, f.2.Shaped (fun _ => True) depth := by
  obtain ⟨_, k, _, afterColon, v, after, -, -, -, hv, hbehind⟩ := exists_of_readFields h
  exact hbehind.forall_mem (ih.value depth afterColon v after hv)
    fun tail gs _ hgs => ih.fields depth tail gs rest hgs

end ReadersKeepDepth

/-- The readers keep to their depth. The induction is on the fuel, which the three hand to each
other. -/
theorem readersKeepDepth (fuel : Nat) : ReadersKeepDepth fuel := by
  induction fuel with
  | zero => constructor <;> simp [readValue, readItems, readFields]
  | succ fuel ih =>
    exact ⟨fun _ _ _ _ h => ih.value_succ h, fun _ _ _ _ h => ih.items_succ h,
      fun _ _ _ _ h => ih.fields_succ h⟩

/-- A text that is a document has one whose containers nest as deep as they may at most. -/
theorem shaped_of_parse? {t : Text} {v : Json} (h : parse? t = some v) :
    v.Shaped (fun _ => True) maxDepth := by
  obtain ⟨rest, hread, -⟩ := exists_of_parse? h
  exact (readersKeepDepth _).value maxDepth t v rest hread

end Json

end HealthCheck
