import HealthCheck.Proofs.Context.Overwriting
import HealthCheck.Proofs.Json.Shape

/-!
# The laws of writing

A write works its way down along the keys of its path, and at each of them writes into the object
that it has come to (`setAt_cons_eq`). What two writes come to follows from that, one key after the
other: the later of two writes is all that is left where its path leads towards the path of the
earlier one (`setAt_setAt_of_above`), and the order of two writes does not matter where their paths
part ways, except for the order in which new keys were added (`sameUpToOrder_setAt_comm`).

A write gives no object a key twice, and of the keys of an object that it passes through it moves
none: a key that is new to the object comes last (`keys_setAt_cons`).
-/

namespace HealthCheck

namespace Fields

variable {α : Type}

/-- What a key holds after a write. -/
theorem get?_insert (k key : Text) (value : α) (fs : Fields α) :
    get? k (insert key value fs) = if k = key then some value else get? k fs := by
  split_ifs with hk
  · rw [hk, get?_insert_self]
  · exact get?_insert_of_ne hk value fs

/-- Of two writes under a key the second one counts. -/
theorem insert_insert_self (key : Text) (value before : α) (fs : Fields α) :
    insert key value (insert key before fs) = insert key value fs := by
  induction fs with
  | nil => simp [insert]
  | cons f fs ih =>
    by_cases hf : f.1 = key
    · simp [insert, hf]
    · simp only [insert, if_neg hf, ih]

/-- A known key stays where it is, and a new one comes last. -/
theorem keys_insert (key : Text) (value : α) (fs : Fields α) :
    keys (insert key value fs) = if key ∈ keys fs then keys fs else keys fs ++ [key] := by
  induction fs with
  | nil => rfl
  | cons f fs ih =>
    by_cases hf : f.1 = key
    · simp [insert, keys, hf]
    · have hkey : key ∈ keys (f :: fs) ↔ key ∈ keys fs := by
        simp [keys, Ne.symm hf]
      have hcons : keys (insert key value (f :: fs)) = f.1 :: keys (insert key value fs) := by
        simp only [insert, if_neg hf, keys, List.map_cons]
      rw [hcons, ih]
      simp only [hkey]
      split_ifs
      · rfl
      · rfl

/-- The order in which two keys are written shows in the order of the keys only. -/
theorem keys_insert_perm (k l : Text) (a a' b b' : α) (fs : Fields α) :
    (keys (insert k a (insert l b fs))).Perm (keys (insert l b' (insert k a' fs))) := by
  rw [keys_insert, keys_insert, keys_insert, keys_insert]
  by_cases hk : k ∈ keys fs
  · by_cases hl : l ∈ keys fs
    · simp [hk, hl]
    · simp [hk, hl]
  · by_cases hl : l ∈ keys fs
    · simp [hk, hl]
    · by_cases hkl : k = l
      · simp [hkl]
      · have hlk : ¬ l = k := fun h => hkl h.symm
        simp only [hk, hl, if_false, List.mem_append, List.mem_singleton, hkl, hlk, or_self,
          List.append_assoc]
        exact List.Perm.append_left _ (List.Perm.swap k l [])

end Fields

namespace Json

/-- Two values are the same but for the order of keys, in objects at any depth. -/
inductive SameUpToOrder : Json → Json → Prop where
  | refl (v : Json) : SameUpToOrder v v
  | object {fs gs : Fields Json} (hkeys : (Fields.keys fs).Perm (Fields.keys gs))
      (hvalues : ∀ key v w, Fields.get? key fs = some v → Fields.get? key gs = some w →
        SameUpToOrder v w) :
      SameUpToOrder (.object fs) (.object gs)

/-- No object in the value, at any depth, has a key twice. -/
def KeysUnique (v : Json) : Prop := ∃ depth, v.Shaped (fun _ => True) depth

/-- Writing two such values under one key comes to such objects. -/
theorem sameUpToOrder_insert {v w : Json} (h : v.SameUpToOrder w) (key : Text)
    (fs : Fields Json) :
    (object (Fields.insert key v fs)).SameUpToOrder (object (Fields.insert key w fs)) := by
  apply SameUpToOrder.object
  · rw [Fields.keys_insert, Fields.keys_insert]
  · intro k a b ha hb
    rw [Fields.get?_insert] at ha hb
    split_ifs at ha hb
    · rw [← Option.some.inj ha, ← Option.some.inj hb]
      exact h
    · obtain rfl : a = b := Option.some.inj (ha.symm.trans hb)
      exact .refl a

/-- Writing under two keys comes to the same in either order. -/
theorem sameUpToOrder_insert_comm {k l : Text} (hkl : k ≠ l) (a b : Json) (fs : Fields Json) :
    (object (Fields.insert k a (Fields.insert l b fs))).SameUpToOrder
      (object (Fields.insert l b (Fields.insert k a fs))) := by
  apply SameUpToOrder.object
  · exact Fields.keys_insert_perm k l a a b b fs
  · intro key v w hv hw
    have hsame : Fields.get? key (Fields.insert k a (Fields.insert l b fs)) =
        Fields.get? key (Fields.insert l b (Fields.insert k a fs)) := by
      simp only [Fields.get?_insert]
      by_cases hk : key = k
      · have hl : ¬ key = l := fun h => hkl (hk.symm.trans h)
        rw [if_pos hk, if_neg hl, if_pos hk]
      · rw [if_neg hk, if_neg hk]
    obtain rfl : v = w := Option.some.inj (hv.symm.trans (hsame.trans hw))
    exact .refl v

theorem KeysUnique.empty : (object []).KeysUnique :=
  ⟨1, .object List.nodup_nil fun _ hf => absurd hf List.not_mem_nil⟩

/-- Writing a value with unique keys keeps keys unique at every level. -/
theorem KeysUnique.insert {fs : Fields Json} {v : Json} (hfs : (object fs).KeysUnique)
    (hv : v.KeysUnique) (key : Text) : (object (Fields.insert key v fs)).KeysUnique := by
  obtain ⟨_, hfs⟩ := hfs
  obtain ⟨e, hv⟩ := hv
  cases hfs with
  | @object d _ hkeys h =>
    refine ⟨max d e + 1, .object (Fields.nodup_keys_insert key v hkeys) ?_⟩
    intro f hf
    rcases Fields.mem_insert hf with rfl | hf
    · exact hv.mono (Nat.le_max_right d e)
    · exact (h f hf).mono (Nat.le_max_left d e)

end Json

namespace Context

/-! ## One key of a path -/

/-- What a write puts under the first key of its path, given the fields that stand below that key:
the value where the path ends there, or else the object that it goes on into. -/
def below (ks : List Text) (v : Json) (fields : Fields Json) : Json :=
  if ks = [] then v else .object (setAt ks v fields)

/-- **One key of a path.** A write puts something under the first key, and all else is below. -/
theorem setAt_cons_eq (k : Text) (ks : List Text) (v : Json) (c : Context) :
    setAt (k :: ks) v c = Fields.insert k (below ks v (fieldsAt [k] c)) c := by
  by_cases hks : ks = []
  · rw [below, if_pos hks, hks, setAt]
  · rw [below, if_neg hks, setAt_cons hks]

theorem fieldsAt_insert_self (k : Text) (v : Json) (c : Context) :
    fieldsAt [k] (Fields.insert k v c) = v.fieldsOf := by
  rw [fieldsAt_singleton, Fields.get?_insert_self]
  rfl

theorem fieldsAt_insert_of_ne {k l : Text} (hkl : k ≠ l) (v : Json) (c : Context) :
    fieldsAt [k] (Fields.insert l v c) = fieldsAt [k] c := by
  rw [fieldsAt_singleton, Fields.get?_insert_of_ne hkl, fieldsAt_singleton]

/-- Two writes under one key write one after the other below it. -/
theorem setAt_setAt_cons {ls : List Text} (hls : ls ≠ []) (k : Text) (ks : List Text)
    (v w : Json) (c : Context) :
    setAt (k :: ks) v (setAt (k :: ls) w c) =
      Fields.insert k (below ks v (setAt ls w (fieldsAt [k] c))) c := by
  rw [setAt_cons hls, setAt_cons_eq, fieldsAt_insert_self, Fields.insert_insert_self]
  rfl

/-! ## Two writes -/

/-- **Overwriting.** A write undoes an earlier one whose path is its own or goes on from it. -/
theorem setAt_setAt_of_above {ks ls : List Text} (hks : ks ≠ []) (h : ks <+: ls) (v w : Json)
    (c : Context) : setAt ks v (setAt ls w c) = setAt ks v c := by
  -- Both paths begin with the same key, below which the same holds of what is left of them.
  induction ks generalizing ls c with
  | nil => exact absurd rfl hks
  | cons k ks ih =>
    obtain ⟨ls, rfl⟩ : ∃ rest, ls = k :: rest := by
      obtain ⟨rest, hrest⟩ := h
      exact ⟨ks ++ rest, hrest.symm⟩
    have hrest : ks <+: ls := (List.cons_prefix_cons.1 h).2
    by_cases hend : ks = []
    · rw [hend, setAt_cons_eq k ls, setAt, setAt, Fields.insert_insert_self]
    · have hls : ls ≠ [] := by
        rintro rfl
        exact hend (List.prefix_nil.1 hrest)
      rw [setAt_setAt_cons hls, setAt_cons_eq k ks, below, below, if_neg hend, if_neg hend,
        ih hend hrest]

/-- **Commuting.** Two writes whose paths part ways come to the same in either order, but for the
order of keys. -/
theorem sameUpToOrder_setAt_comm {ks ls : List Text} (h : Apart ks ls) (v w : Json)
    (c : Context) :
    (Json.object (setAt ks v (setAt ls w c))).SameUpToOrder
      (.object (setAt ls w (setAt ks v c))) := by
  -- The induction is on the keys that the two paths share; where they part, the two writes are into
  -- one object under two keys.
  induction ks generalizing ls c with
  | nil => exact absurd rfl h.ne_nil.1
  | cons k ks ih =>
    cases ls with
    | nil => exact absurd rfl h.ne_nil.2
    | cons l ls =>
      by_cases hkl : k = l
      · subst hkl
        have happart := apart_cons_cons.1 h
        obtain ⟨hks, hls⟩ := happart.ne_nil
        rw [setAt_setAt_cons hls, setAt_setAt_cons hks, below, below, if_neg hks, if_neg hls]
        exact Json.sameUpToOrder_insert (ih happart _) k c
      · have hlk : l ≠ k := fun heq => hkl heq.symm
        rw [setAt_cons_eq l ls w c, setAt_cons_eq k ks v c, setAt_cons_eq k, setAt_cons_eq l,
          fieldsAt_insert_of_ne hkl, fieldsAt_insert_of_ne hlk]
        exact Json.sameUpToOrder_insert_comm hkl _ _ c

/-! ## Keys -/

/-- **Keys stay.** A write moves no key of an object that it writes into. -/
theorem keys_setAt_cons (k : Text) (ks : List Text) (v : Json) (c : Context) :
    (setAt (k :: ks) v c).keys =
      if k ∈ Fields.keys c then Fields.keys c else Fields.keys c ++ [k] := by
  rw [setAt_cons_eq, Fields.keys_insert]

/-- What stands under a key has unique keys if the whole has. -/
theorem keysUnique_fieldsAt {c : Context} (h : (Json.object c).KeysUnique) (k : Text) :
    (Json.object (fieldsAt [k] c)).KeysUnique := by
  rw [fieldsAt_singleton]
  cases hk : Fields.get? k c with
  | none => exact .empty
  | some v =>
    obtain ⟨_, hshaped⟩ := h
    cases hshaped with
    | @object d _ _ hvalues =>
      have hv : v.Shaped (fun _ => True) d := hvalues (k, v) (Fields.mem_of_get? hk)
      cases v with
      | object fields => exact ⟨d, hv⟩
      | _ => exact .empty

/-- **Keys stay unique.** -/
theorem keysUnique_setAt {c : Context} {v : Json} (hc : (Json.object c).KeysUnique)
    (hv : v.KeysUnique) (ks : List Text) : (Json.object (setAt ks v c)).KeysUnique := by
  induction ks generalizing c with
  | nil => exact hc
  | cons k ks ih =>
    rw [setAt_cons_eq, below]
    split_ifs
    · exact hc.insert hv k
    · exact hc.insert (ih (keysUnique_fieldsAt hc k)) k

/-! ## Writing at paths -/

theorem set_of_ne_nil {path : Text} (hpath : path ≠ []) (c : Context) (v : Json) :
    c.set path v = .ok (setAt (segments path) v c) := if_neg hpath

/-- **The laws of writing.** A write undoes an earlier one at its own path or below it, order of
keys included. Two writes at paths that part ways may change places, but for the order of keys. And
a write keeps the keys of every object unique, moves no key of an object that leads to its path, and
adds a key that such an object lacks behind all others. -/
theorem writes_overwrite_and_commute (c : Context) {path other : Text} (hpath : path ≠ [])
    (hother : other ≠ []) (v w : Json) :
    (segments path <+: segments other →
      (c.set other w).bind (fun c' => c'.set path v) = c.set path v) ∧
    (¬ Overlap path other →
      ∃ first second, (c.set other w).bind (fun c' => c'.set path v) = .ok first ∧
        (c.set path v).bind (fun c' => c'.set other w) = .ok second ∧
        (Json.object first).SameUpToOrder (.object second)) ∧
    ∃ after, c.set path v = .ok after ∧
      ((Json.object c).KeysUnique → v.KeysUnique → (Json.object after).KeysUnique) ∧
      ∀ above key rest, segments path = above ++ key :: rest →
        ∃ fields, walk? above (.object after) = some (.object fields) ∧
          Fields.keys fields =
            if key ∈ Fields.keys (fieldsAt above c) then Fields.keys (fieldsAt above c)
            else Fields.keys (fieldsAt above c) ++ [key] := by
  rw [set_of_ne_nil hpath, set_of_ne_nil hother]
  simp only [Except.bind, set_of_ne_nil hpath, set_of_ne_nil hother, Except.ok.injEq]
  refine ⟨?_, ?_, _, rfl, ?_, ?_⟩
  · intro habove
    exact setAt_setAt_of_above (segments_ne_nil path) habove v w c
  · intro hneither
    exact ⟨_, _, rfl, rfl, sameUpToOrder_setAt_comm (apart_segments_iff.2 hneither) v w c⟩
  · intro hc hv
    exact keysUnique_setAt hc hv (segments path)
  · intro above key rest hsegments
    refine ⟨_, ?_, keys_setAt_cons key rest v (fieldsAt above c)⟩
    rw [hsegments]
    exact walk?_setAt_above (List.cons_ne_nil key rest) above v c

theorem keysUnique_annContext : (Json.object annContext).KeysUnique := by
  refine ⟨1, .object (by decide) ?_⟩
  intro f hf
  rcases List.mem_cons.1 hf with rfl | hf
  · exact .string 0 _
  · rw [List.mem_singleton.1 hf]
    exact .number 0 trivial

theorem keysUnique_firstName : firstName.KeysUnique := by
  refine ⟨1, .object (by decide) ?_⟩
  intro f hf
  rw [List.mem_singleton.1 hf]
  exact .string 0 _

/-- Three writes below a text: each puts an object in its place, where the text was. -/
theorem annContext_writes :
    ("user.name".toList ≠ [] ∧ "user.name.last".toList ≠ [] ∧ "user.age".toList ≠ []) ∧
    (segments "user.name".toList <+: segments "user.name.last".toList ∧
      (annContext.set "user.name.last".toList (.string "Lee".toList)).bind
          (fun c => c.set "user.name".toList firstName) =
        annContext.set "user.name".toList firstName) ∧
    (¬ Overlap "user.name".toList "user.age".toList ∧
      ∃ first second,
        (annContext.set "user.age".toList (.int 30)).bind
            (fun c => c.set "user.name".toList firstName) = .ok first ∧
        (annContext.set "user.name".toList firstName).bind
            (fun c => c.set "user.age".toList (.int 30)) = .ok second ∧
        (Json.object first).SameUpToOrder (.object second)) ∧
    (Json.object annContext).KeysUnique ∧ firstName.KeysUnique ∧
    ∃ after, annContext.set "user.name".toList firstName = .ok after ∧
      (Json.object after).KeysUnique ∧ Fields.keys after = ["user".toList, "count".toList] := by
  have hname : "user.name".toList ≠ [] := by decide
  have hlast : "user.name.last".toList ≠ [] := by decide
  have hage : "user.age".toList ≠ [] := by decide
  have hbelow : segments "user.name".toList <+: segments "user.name.last".toList := by decide
  have hapart : ¬ Overlap "user.name".toList "user.age".toList := by
    unfold Overlap
    decide
  obtain ⟨hover, -, -⟩ :=
    writes_overwrite_and_commute annContext hname hlast firstName (.string "Lee".toList)
  obtain ⟨-, hcomm, after, hafter, hunique, hkeys⟩ :=
    writes_overwrite_and_commute annContext hname hage firstName (.int 30)
  refine ⟨⟨hname, hlast, hage⟩, ⟨hbelow, hover hbelow⟩, ⟨hapart, hcomm hapart⟩,
    keysUnique_annContext, keysUnique_firstName, after, hafter,
    hunique keysUnique_annContext keysUnique_firstName, ?_⟩
  obtain ⟨fields, hwalk, hfields⟩ := hkeys [] "user".toList ["name".toList] rfl
  obtain rfl : after = fields := Json.object.inj (Option.some.inj hwalk)
  rw [hfields]
  rfl

end Context

end HealthCheck
