import HealthCheck.Proofs.Json.Joining
import HealthCheck.Proofs.Json.Width

/-!
# Locations in documents

A location is a list of keys and indices that leads from the root of a document to one of its
values (`Locates`). Written as a path it is read back as it is (`steps_write`), so evaluating that
path shows the value at the location; and a path that shows anything has steps that are a location
of it (`eval_shows_locations`).

Keys stand in a path as they are. They come back if they have no blanks at their ends, no dot and no
opening bracket, and are not empty; a closing bracket or a blank inside does no harm. Indices come
back as long as a word can count them, which it can in a body that fits into memory.
-/

namespace HealthCheck.JsonPath

/-! ## Locations -/

/-- Steps lead from a value to another, and none of the values that they lead to is null. -/
inductive Locates : List Step → Json → Json → Prop where
  | here (v : Json) : Locates [] v v
  | inside {s : Step} {ss : List Step} {u w v : Json} (hstep : StandsAt s u w)
      (hsteps : Locates ss w v) : Locates (s :: ss) u v

/-- A document that is followed is one with distinct keys, so that steps lead to one value each. -/
theorem follow_eq_ok_iff {P : JsonNumber → Prop} {d : Nat} {ss : List Step} {u v : Json}
    (hu : u.Shaped P d) : follow ss u = .ok v ↔ Locates ss u v := by
  constructor
  · intro h
    induction ss generalizing d u with
    | nil =>
      obtain rfl := Except.ok.inj h
      exact .here u
    | cons s ss ih =>
      cases htake : take s u with
      | error e => rw [follow, htake] at h; cases h
      | ok w =>
        rw [follow, htake] at h
        obtain ⟨⟨e, -, hw⟩, -⟩ := take_shaped hu htake
        exact .inside (standsAt_of_take htake) (ih hw h)
  · intro h
    induction h generalizing d with
    | here v => rfl
    | inside hstep _ ih =>
      have htake := take_of_standsAt hu hstep
      obtain ⟨⟨e, -, hw⟩, -⟩ := take_shaped hu htake
      rw [follow, htake]
      exact ih hw

/-- A location that steps lead to is not null. -/
theorem Locates.isNull_eq_false {ss : List Step} {u v : Json} (h : Locates ss u v)
    (hss : ss ≠ []) : v.isNull = false := by
  induction h with
  | here v => exact absurd rfl hss
  | @inside s ss u w v hstep hsteps ih =>
    cases ss with
    | nil =>
      cases hsteps
      exact hstep.isNull_eq_false
    | cons s' ss => exact ih (List.cons_ne_nil s' ss)

/-- Indices in a location of a narrow document are small. -/
theorem Locates.index_lt {ss : List Step} {u v : Json} (h : Locates ss u v) {width : Nat}
    (hu : u.Narrow width) {n : Int} (hn : .index n ∈ ss) : 0 ≤ n ∧ n < width := by
  induction h with
  | here v => exact absurd hn List.not_mem_nil
  | inside hstep _ ih =>
    cases hstep with
    | key hmem _ =>
      cases hu with
      | scalar hscalar => exact Bool.noConfusion hscalar
      | object hfields =>
        rcases List.mem_cons.1 hn with heq | hrest
        · exact Step.noConfusion heq
        · exact ih (hfields _ hmem) hrest
    | @index m items w hget _ =>
      cases hu with
      | scalar hscalar => exact Bool.noConfusion hscalar
      | array hlength hitems =>
        rcases List.mem_cons.1 hn with heq | hrest
        · obtain rfl := Step.index.inj heq
          obtain ⟨hm, -⟩ := List.getElem?_eq_some_iff.1 hget
          omega
        · exact ih (hitems _ (List.mem_of_getElem? hget)) hrest

/-! ## Writing locations -/

/-- Steps behind a value: each key behind a dot, each index in brackets. -/
def writeBehind : List Step → Text
  | [] => []
  | .key k :: ss => '.' :: (k ++ writeBehind ss)
  | .index n :: ss => '[' :: (Text.ofInt n ++ ']' :: writeBehind ss)

/-- Steps as a path: a key at the start has no dot in front of it. -/
def write : List Step → Text
  | .key k :: ss => k ++ writeBehind ss
  | ss => writeBehind ss

/-- A key that can stand in a path. -/
structure IsPathKey (k : Text) : Prop where
  nonempty : k ≠ []
  trimmed : Text.trim k = k
  noDot : '.' ∉ k
  noBracket : '[' ∉ k

theorem keySteps_of_isPathKey {k : Text} (h : IsPathKey k) : keySteps k = [.key k] := by
  rw [keySteps, h.trimmed, if_neg h.nonempty]

/-- A key is read up to what ends it. -/
theorem stepsFrom_key {k : Text} (h : IsPathKey k) (rest : Text) :
    stepsFrom false [] (k ++ rest) = stepsFrom false k.reverse rest := by
  have hends : ∀ c ∈ k, ¬ Ends false c := by
    rintro c hc (rfl | rfl)
    · exact h.noDot hc
    · exact h.noBracket hc
  rw [stepsFrom_append_of_not_ends hends, List.append_nil]

/-- An index in decimal has neither blanks nor a closing bracket in it. -/
theorem isBlank_of_mem_ofInt {n : Int} {c : Char} (h : c ∈ Text.ofInt n) :
    Text.isBlank c = false ∧ c ≠ ']' := by
  have hchar : c = '-' ∨ c.isDigit = true := by
    cases n with
    | ofNat n => exact Or.inr (List.all_eq_true.1 (Text.all_isDigit_ofNat n) c h)
    | negSucc n =>
      rcases List.mem_cons.1 h with rfl | hdigit
      · exact Or.inl rfl
      · exact Or.inr (List.all_eq_true.1 (Text.all_isDigit_ofNat _) c hdigit)
  rcases hchar with rfl | hdigit
  · decide
  · refine ⟨Text.isBlank_of_isDigit hdigit, ?_⟩
    rintro rfl
    exact absurd hdigit (by decide)

/-- An index is read up to its closing bracket. -/
theorem stepsFrom_index {n : Int} (h : Integer.least ≤ n ∧ n ≤ Integer.greatest) (rest : Text) :
    stepsFrom true [] (Text.ofInt n ++ ']' :: rest) =
      (stepsFrom false [] rest).map ([.index n] ++ ·) := by
  have hends : ∀ c ∈ Text.ofInt n, ¬ Ends true c := fun c hc => (isBlank_of_mem_ofInt hc).2
  have htrim : Text.trim (Text.ofInt n) = Text.ofInt n :=
    Text.trim_of_noBlanks fun c hc => (isBlank_of_mem_ofInt hc).1
  have hindex : indexStep (Text.ofInt n).reverse.reverse = .ok (.index n) := by
    rw [List.reverse_reverse, indexStep, htrim, Integer.decimal?_ofInt h]
  rw [stepsFrom_append_of_not_ends hends, List.append_nil, stepsFrom_close hindex]

/-- Steps are read back behind whatever key has been read in front of them. -/
theorem stepsFrom_writeBehind {ss : List Step} (hkeys : ∀ k, .key k ∈ ss → IsPathKey k)
    (hindices : ∀ n, .index n ∈ ss → Integer.least ≤ n ∧ n ≤ Integer.greatest) (read : Text) :
    stepsFrom false read (writeBehind ss) = .ok (keySteps read.reverse ++ ss) := by
  induction ss generalizing read with
  | nil => rw [writeBehind, stepsFrom, List.append_nil]
  | cons s ss ih =>
    have hrest := ih (fun k hk => hkeys k (List.mem_cons_of_mem s hk))
      (fun n hn => hindices n (List.mem_cons_of_mem s hn))
    cases s with
    | key k =>
      have hk := hkeys k List.mem_cons_self
      rw [writeBehind, stepsFrom_dot, stepsFrom_key hk, hrest, List.reverse_reverse,
        keySteps_of_isPathKey hk]
      rfl
    | index n =>
      rw [writeBehind, stepsFrom_open, stepsFrom_index (hindices n List.mem_cons_self), hrest]
      rfl

/-- **Paths read back.** The steps of a written location are those that were written. -/
theorem steps_write {ss : List Step} (hkeys : ∀ k, .key k ∈ ss → IsPathKey k)
    (hindices : ∀ n, .index n ∈ ss → Integer.least ≤ n ∧ n ≤ Integer.greatest) :
    steps (write ss) = .ok ss := by
  rw [steps_eq_stepsFrom]
  cases ss with
  | nil => rfl
  | cons s ss =>
    cases s with
    | key k =>
      have hk := hkeys k List.mem_cons_self
      rw [write, stepsFrom_key hk,
        stepsFrom_writeBehind (fun k hk => hkeys k (List.mem_cons_of_mem _ hk))
          (fun n hn => hindices n (List.mem_cons_of_mem _ hn)),
        List.reverse_reverse, keySteps_of_isPathKey hk]
      rfl
    | index n => exact stepsFrom_writeBehind hkeys hindices []

/-! ## Evaluating written locations -/

/-- **What is shown and where it stands.** In a body that fits into memory, the path of a location
shows the value there and its length. And whatever a path with steps shows in any body is the value
at a location, which these steps are, and not null. -/
theorem eval_shows_locations (body : Bytes) :
    ((body.length : Int) ≤ Integer.greatest →
      ∀ root, Json.parseBytes? body = some root → ∀ ss v, ss ≠ [] →
        (∀ k, .key k ∈ ss → IsPathKey k) → Locates ss root v →
        eval (write ss) body = .ok (render v)) ∧
    ∀ path ss shown, steps path = .ok ss → ss ≠ [] → eval path body = .ok shown →
      ∃ root v, Json.parseBytes? body = some root ∧ Locates ss root v ∧ v.isNull = false ∧
        shown = render v := by
  have hshaped : ∀ root, Json.parseBytes? body = some root →
      root.Shaped (fun _ => True) Json.maxDepth := by
    intro root hroot
    obtain ⟨t, -, hparse⟩ := Option.bind_eq_some_iff.1 hroot
    exact Json.shaped_of_parse? hparse
  refine ⟨fun hmemory root hroot ss v hss hkeys hlocates => ?_,
    fun path ss shown hsteps hss heval => ?_⟩
  · have hindices : ∀ n, .index n ∈ ss → Integer.least ≤ n ∧ n ≤ Integer.greatest := by
      intro n hn
      obtain ⟨hnonneg, hlt⟩ := hlocates.index_lt (Json.narrow_of_parseBytes? hroot) hn
      have hleast : Integer.least ≤ 0 := by decide
      omega
    have hfollow := (follow_eq_ok_iff (hshaped root hroot)).2 hlocates
    rw [eval_eq_map_render (steps_write hkeys hindices) hroot fun h => absurd h hss, hfollow]
    rfl
  · cases hroot : Json.parseBytes? body with
    | none =>
      rw [eval_of_steps hsteps, hroot] at heval
      cases heval
    | some root =>
      rw [eval_eq_map_render hsteps hroot fun h => absurd h hss] at heval
      obtain ⟨v, hfollow, hshown⟩ := exists_of_map_eq_ok heval
      have hlocates := (follow_eq_ok_iff (hshaped root hroot)).1 hfollow
      exact ⟨root, v, rfl, hlocates, hlocates.isNull_eq_false hss, hshown.symm⟩

/-- A document with a bracket and a blank in its keys and a null beside an object. -/
def mixedDocument : Json :=
  .object [("a]b".toList, .array [.null, .object [("x y".toList, .string "é".toList)]])]

/-- The location of the string in it. -/
def mixedLocation : List Step := [.key "a]b".toList, .index 1, .key "x y".toList]

/-- The path of the location shows the string, and its steps are the location. -/
theorem mixedDocument_shows_location :
    Json.parseBytes? (Utf8.encode mixedDocument.compact) = some mixedDocument ∧
    (((Utf8.encode mixedDocument.compact).length : Int) ≤ Integer.greatest ∧
      (∀ k, .key k ∈ mixedLocation → IsPathKey k) ∧
      Locates mixedLocation mixedDocument (.string "é".toList)) ∧
    write mixedLocation = "a]b[1].x y".toList ∧
    eval (write mixedLocation) (Utf8.encode mixedDocument.compact) = .ok ("é".toList, 1) ∧
    ∃ root v, Json.parseBytes? (Utf8.encode mixedDocument.compact) = some root ∧
      Locates mixedLocation root v ∧ v.isNull = false ∧ ("é".toList, 1) = render v := by
  have hshaped : mixedDocument.Shaped Json.IsWord (0 + 3) :=
    shaped_nest (.string 0 "é".toList) mixedLocation
  have hroot := Json.parseBytes?_compact (hshaped.mono (by decide))
  have hmemory : ((Utf8.encode mixedDocument.compact).length : Int) ≤ Integer.greatest := by
    decide +kernel
  have hkeys : ∀ k, .key k ∈ mixedLocation → IsPathKey k := by
    intro k hk
    have hone : k = "a]b".toList ∨ k = "x y".toList := by
      simpa [mixedLocation] using hk
    rcases hone with rfl | rfl
    · exact ⟨by decide, by decide, by decide, by decide⟩
    · exact ⟨by decide, by decide, by decide, by decide⟩
  have hlocates : Locates mixedLocation mixedDocument (.string "é".toList) :=
    .inside (.key List.mem_cons_self rfl)
      (.inside (.index (n := 1) rfl rfl)
        (.inside (.key List.mem_cons_self rfl) (.here _)))
  have hne : mixedLocation ≠ [] := List.cons_ne_nil _ _
  obtain ⟨hshows, hstands⟩ := eval_shows_locations (Utf8.encode mixedDocument.compact)
  have heval := hshows hmemory mixedDocument hroot mixedLocation _ hne hkeys hlocates
  exact ⟨hroot, ⟨hmemory, hkeys, hlocates⟩, rfl, heval,
    hstands (write mixedLocation) mixedLocation _ rfl hne heval⟩

end HealthCheck.JsonPath
