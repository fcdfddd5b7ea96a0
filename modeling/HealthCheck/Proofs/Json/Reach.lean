import HealthCheck.Json.Path
import HealthCheck.Proofs.Json.RoundTrip

/-!
# What paths reach

Steps lead to something in some body exactly when they are no more than containers may nest and go
to no negative index. `nest` builds a document around a value that given steps lead to, and since
its compact form reads back, `eval_nest` makes a body of it.
-/

namespace HealthCheck.JsonPath

open Json

/-! ## One step -/

/-- A value stands one step inside another: under a key or at an index, and it is not null. -/
inductive StandsAt : Step → Json → Json → Prop where
  | key {k : Text} {fields : List (Text × Json)} {w : Json} (hmem : (k, w) ∈ fields)
      (hnull : w.isNull = false) : StandsAt (.key k) (.object fields) w
  | index {n : Nat} {items : List Json} {w : Json} (hget : items[n]? = some w)
      (hnull : w.isNull = false) : StandsAt (.index n) (.array items) w

/-- What a step leads to is not null. -/
theorem StandsAt.isNull_eq_false {s : Step} {v w : Json} (h : StandsAt s v w) :
    w.isNull = false := by
  cases h with
  | key _ hnull => exact hnull
  | index _ hnull => exact hnull

/-- A step that is taken leads to what stands there. -/
theorem standsAt_of_take {s : Step} {v w : Json} (h : take s v = .ok w) : StandsAt s v w := by
  unfold take at h
  split at h
  · split at h
    · rename_i x hx
      split_ifs at h with hnull
      obtain rfl := Except.ok.inj h
      exact .key (Fields.mem_of_get? hx) (Bool.eq_false_iff.2 hnull)
    · cases h
  · cases h
  · rename_i n items
    split at h
    · rename_i x hx
      split_ifs at hx h with hneg hnull
      obtain rfl := Except.ok.inj h
      obtain ⟨m, rfl⟩ := Int.eq_ofNat_of_zero_le (Int.not_lt.1 hneg)
      exact .index hx (Bool.eq_false_iff.2 hnull)
    · cases h
  · cases h

/-- Where keys are distinct, a step leads to what stands there. -/
theorem take_of_standsAt {P : JsonNumber → Prop} {d : Nat} {s : Step} {v w : Json}
    (hv : v.Shaped P d) (h : StandsAt s v w) : take s v = .ok w := by
  cases h with
  | key hmem hnull =>
    cases hv with
    | object hkeys _ => simp [take, Fields.get?_of_mem hkeys hmem, hnull]
  | @index n items w hget hnull =>
    have hnonneg : ¬ (n : Int) < 0 := by omega
    simp [take, hnonneg, hget, hnull]

/-! ## Steps into a shape -/

/-- One step leads one container further in, and never to a negative index. -/
theorem take_shaped {P : JsonNumber → Prop} {d : Nat} {s : Step} {v w : Json}
    (hv : v.Shaped P d) (h : take s v = .ok w) :
    (∃ e, d = e + 1 ∧ w.Shaped P e) ∧ ∀ n, s = .index n → 0 ≤ n := by
  cases standsAt_of_take h with
  | key hmem _ =>
    cases hv with
    | object _ hfields => exact ⟨⟨_, rfl, hfields _ hmem⟩, fun n hn => Step.noConfusion hn⟩
  | index hget _ =>
    cases hv with
    | array hitems =>
      refine ⟨⟨_, rfl, hitems _ (List.mem_of_getElem? hget)⟩, ?_⟩
      intro m hm
      obtain rfl := Step.index.inj hm
      exact Int.natCast_nonneg _

/-- Steps that lead somewhere are no more than containers nest, and none goes to a negative
index. -/
theorem follow_shaped {P : JsonNumber → Prop} {ss : List Step} {d : Nat} {v w : Json}
    (hv : v.Shaped P d) (h : follow ss v = .ok w) :
    ss.length ≤ d ∧ w.Shaped P (d - ss.length) ∧ ∀ n, .index n ∈ ss → 0 ≤ n := by
  induction ss generalizing d v with
  | nil =>
    obtain rfl := Except.ok.inj h
    exact ⟨Nat.zero_le d, hv, fun n hn => absurd hn List.not_mem_nil⟩
  | cons s ss ih =>
    cases hx : take s v with
    | error e => rw [follow, hx] at h; cases h
    | ok x =>
      rw [follow, hx] at h
      obtain ⟨⟨e, rfl, hshaped⟩, hindex⟩ := take_shaped hv hx
      obtain ⟨hlen, hw, hindices⟩ := ih hshaped h
      rw [List.length_cons]
      refine ⟨by omega, ?_, ?_⟩
      · rwa [Nat.add_sub_add_right]
      · intro n hn
        rcases List.mem_cons.1 hn with heq | hmem
        · exact hindex n heq.symm
        · exact hindices n hmem

/-! ## A document around a value -/

/-- A document in which steps lead to a value: an object of one key around it, or an array with
nulls in front of it, for each of them. -/
def nest : List Step → Json → Json
  | [], v => v
  | .key k :: ss, v => .object [(k, nest ss v)]
  | .index n :: ss, v => .array (List.replicate n.toNat .null ++ [nest ss v])

/-- A document nested under steps is as much deeper as there are steps. -/
theorem shaped_nest {P : JsonNumber → Prop} {d : Nat} {v : Json} (h : v.Shaped P d)
    (ss : List Step) : (nest ss v).Shaped P (d + ss.length) := by
  induction ss with
  | nil => exact h
  | cons s ss ih =>
    rw [List.length_cons, ← Nat.add_assoc]
    cases s with
    | key k =>
      refine .object (by simp [Fields.keys]) ?_
      intro f hf
      rw [List.mem_singleton.1 hf]
      exact ih
    | index n =>
      refine .array ?_
      intro w hw
      rcases List.mem_append.1 hw with hnull | hlast
      · rw [List.eq_of_mem_replicate hnull]
        exact .null _
      · rw [List.mem_singleton.1 hlast]
        exact ih

theorem isNull_nest {v : Json} (h : v.isNull = false) (ss : List Step) :
    (nest ss v).isNull = false := by
  cases ss with
  | nil => exact h
  | cons s ss => cases s <;> rfl

/-- The steps lead to the value. -/
theorem follow_nest {v : Json} (h : v.isNull = false) {ss : List Step}
    (hss : ∀ n, .index n ∈ ss → 0 ≤ n) : follow ss (nest ss v) = .ok v := by
  induction ss with
  | nil => rfl
  | cons s ss ih =>
    have hrest := ih fun n hn => hss n (List.mem_cons_of_mem s hn)
    have htake : take s (nest (s :: ss) v) = .ok (nest ss v) := by
      cases s with
      | key k => simp [nest, take, Fields.get?, isNull_nest h ss]
      | index n =>
        have hn : 0 ≤ n := hss n List.mem_cons_self
        -- As many nulls stand in front as the index counts.
        simp [nest, take, Int.not_lt.2 hn, isNull_nest h ss]
    rw [follow, htake]
    exact hrest

/-! ## Bodies -/

/-- The steps lead to something in some body. -/
def Leads (ss : List Step) : Prop := ss.length ≤ maxDepth ∧ ∀ n, .index n ∈ ss → 0 ≤ n

/-- A path that is read as steps is followed in the document that the body holds. -/
theorem eval_of_steps {path : Text} {ss : List Step} (h : steps path = .ok ss) (body : Bytes) :
    eval path body =
      match parseBytes? body with
      | none => .error .malformedBody
      | some root => if ss.isEmpty then .ok (renderRoot root) else (follow ss root).map render := by
  unfold eval
  rw [h]
  cases parseBytes? body with
  | none => rfl
  | some root =>
    cases ss with
    | nil => rfl
    | cons s ss =>
      show (do return render (← follow (s :: ss) root)) = (follow (s :: ss) root).map render
      cases follow (s :: ss) root <;> rfl

/-- A path that leads to something has steps that can lead somewhere. -/
theorem leads_of_eval {path : Text} {body : Bytes} {r : Text × Nat} (h : eval path body = .ok r) :
    ∃ ss, steps path = .ok ss ∧ Leads ss := by
  cases hsteps : steps path with
  | error e =>
    rw [eval, hsteps] at h
    cases h
  | ok ss =>
    refine ⟨ss, rfl, ?_⟩
    rw [eval_of_steps hsteps] at h
    cases hroot : parseBytes? body with
    | none => rw [hroot] at h; cases h
    | some root =>
      obtain ⟨t, -, hparse⟩ := Option.bind_eq_some_iff.1 hroot
      rw [hroot] at h
      simp only at h
      split_ifs at h with hempty
      · rw [List.isEmpty_iff.1 hempty]
        exact ⟨Nat.zero_le _, fun n hn => absurd hn List.not_mem_nil⟩
      · cases hfollow : follow ss root with
        | error e => rw [hfollow] at h; cases h
        | ok w =>
          obtain ⟨hlen, -, hindices⟩ := follow_shaped (shaped_of_parse? hparse) hfollow
          exact ⟨hlen, hindices⟩

/-- Where the steps of a path lead to something in some body, they lead to any whole number in
another. -/
theorem eval_nest {path : Text} {ss : List Step} (hsteps : steps path = .ok ss) (hss : Leads ss)
    {k : Int} (hk : IsWord (.whole k)) :
    eval path (Utf8.encode (nest ss (.int k)).compact) =
      .ok (Text.ofInt k, (Text.ofInt k).length) := by
  have hleaf : (Json.int k).Shaped IsWord 0 := .number 0 hk
  have hshaped : (nest ss (.int k)).Shaped IsWord maxDepth :=
    (shaped_nest hleaf ss).mono (by rw [Nat.zero_add]; exact hss.1)
  rw [eval_of_steps hsteps, parseBytes?_compact hshaped]
  simp only
  split_ifs with hempty
  · rw [List.isEmpty_iff.1 hempty]
    rfl
  · rw [follow_nest rfl hss.2]
    rfl

end HealthCheck.JsonPath
