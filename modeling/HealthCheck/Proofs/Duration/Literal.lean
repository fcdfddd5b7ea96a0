import HealthCheck.Number.Duration
import HealthCheck.Proofs.Number.Numerals
import HealthCheck.Proofs.Text.Words
import Mathlib.Data.List.SplitBy

/-!
# Duration literals

The grammar of durations, as a relation between texts and what they say: an optional sign and one or
more components, each a decimal number and a unit (`IsLiteral`). Reading goes by maximal runs of
characters of numbers and of all others. No unit has a character of a number in it, so the runs of a
literal are its numbers and units in turn, and a text is read exactly where it is a literal, in one
way: `literal?_eq_some_iff`.
-/

namespace HealthCheck

/-- The maximal runs of a text that begins with two runs, one of each kind. -/
theorem Text.runs_append {p : Char → Bool} {s t rest : Text} (hs : s ≠ []) (ht : t ≠ [])
    (hall : ∀ c ∈ s, p c = true) (hnone : ∀ c ∈ t, p c = false)
    (hrest : ∀ c ∈ rest.head?, p c = true) :
    runs p (s ++ t ++ rest) = s :: t :: runs p rest := by
  -- A text of one kind is one run, and runs of different kinds are cut where they meet.
  have hone : ∀ {u : Text} {b : Bool}, u ≠ [] → (∀ c ∈ u, p c = b) →
      u.splitBy (fun a b => p a == p b) = [u] := by
    intro u b hne hu
    refine List.splitBy_of_isChain hne (List.pairwise_of_forall_mem_list ?_).isChain
    intro c hc d hd
    rw [hu c hc, hu d hd]
    exact beq_self_eq_true b
  have hmeet : ∀ c ∈ s.getLast?, ∀ d ∈ t.head?, (p c == p d) = false := by
    intro c hc d hd
    rw [hall c (List.mem_of_getLast? hc), hnone d (List.mem_of_head? hd)]
    rfl
  have hmeet' : ∀ c ∈ (s ++ t).getLast?, ∀ d ∈ rest.head?, (p c == p d) = false := by
    intro c hc d hd
    rw [List.getLast?_append_of_ne_nil s ht] at hc
    rw [hnone c (List.mem_of_getLast? hc), hrest d hd]
    rfl
  rw [runs, List.splitBy_append hmeet', List.splitBy_append hmeet, hone hs hall, hone ht hnone]
  rfl

namespace Duration

/-! ## The grammar -/

/-- The unit of that name is so many nanoseconds long. -/
inductive IsUnit : (name : Text) → (nanos : Nat) → Prop where
  | nanosecond : IsUnit "ns".toList 1
  | microsecond : IsUnit "us".toList 1000
  /-- With the micro sign. -/
  | microSign : IsUnit "\u00b5s".toList 1000
  /-- With the Greek letter mu. -/
  | microLetter : IsUnit "\u03bcs".toList 1000
  | millisecond : IsUnit "ms".toList 1000000
  | second : IsUnit "s".toList 1000000000
  | minute : IsUnit "m".toList (60 * 1000000000)
  | hour : IsUnit "h".toList (60 * 60 * 1000000000)

/-- The text writes the component: a decimal number, which has at most one point and at least one
digit, and a unit. -/
inductive Component.Spelled : Component → Text → Prop where
  | whole {digits unit : Text} {scale : Nat} (hne : digits ≠ [])
      (hdigits : ∀ d ∈ digits, d.isDigit = true) (hunit : IsUnit unit scale) :
      Spelled ⟨digits, [], scale⟩ (digits ++ unit)
  | point {whole fraction unit : Text} {scale : Nat} (hne : whole ≠ [] ∨ fraction ≠ [])
      (hwhole : ∀ d ∈ whole, d.isDigit = true) (hfraction : ∀ d ∈ fraction, d.isDigit = true)
      (hunit : IsUnit unit scale) :
      Spelled ⟨whole, fraction, scale⟩ (whole ++ '.' :: fraction ++ unit)

/-- The text writes the components, one behind the other. -/
inductive SpelledAll : List Component → Text → Prop where
  | nil : SpelledAll [] []
  | cons {c : Component} {cs : List Component} {s t : Text} (h : c.Spelled s)
      (hrest : SpelledAll cs t) : SpelledAll (c :: cs) (s ++ t)

/-- The text is a duration literal: an optional sign and one or more components. -/
def IsLiteral (t : Text) (negative : Bool) (cs : List Component) : Prop :=
  ∃ sign body, t = sign ++ body ∧ Text.IsSign sign negative ∧ cs ≠ [] ∧ SpelledAll cs body

/-! ## Units -/

theorem isNumeric_of_isDigit {c : Char} (h : c.isDigit = true) : isNumeric c = true := by
  rw [isNumeric, h, Bool.true_or]

theorem isDigit_of_isNumeric {c : Char} (h : isNumeric c = true) (hc : c ≠ '.') :
    c.isDigit = true := by
  simpa [isNumeric, hc] using h

/-- The units of the grammar are the ones that reading knows. -/
theorem isUnit_iff_mem {unit : Text} {scale : Nat} : IsUnit unit scale ↔ (unit, scale) ∈ units := by
  constructor
  · intro h
    cases h <;> decide
  · intro h
    have hall : ∀ e ∈ units, IsUnit e.1 e.2 := by
      simp only [units, List.forall_mem_cons]
      exact ⟨.nanosecond, .microsecond, .microSign, .microLetter, .millisecond, .second, .minute,
        .hour, fun e he => absurd he List.not_mem_nil⟩
    exact hall _ h

/-- Units are not empty and have no character of a number in them. -/
theorem IsUnit.name_spec {unit : Text} {scale : Nat} (h : IsUnit unit scale) :
    unit ≠ [] ∧ ∀ c ∈ unit, isNumeric c = false := by
  have hunits : ∀ e ∈ units, e.1 ≠ [] ∧ e.1.all (!isNumeric ·) = true := by decide
  obtain ⟨hne, hall⟩ := hunits _ (isUnit_iff_mem.1 h)
  exact ⟨hne, fun c hc => by simpa using List.all_eq_true.1 hall c hc⟩

/-- The table of units has the eight names with their scales. -/
theorem lookup_units_eq_some_iff {unit : Text} {scale : Nat} :
    units.lookup unit = some scale ↔ IsUnit unit scale := by
  rw [isUnit_iff_mem]
  constructor
  · intro h
    obtain ⟨before, after, hsplit, -⟩ := List.lookup_eq_some_iff.1 h
    rw [hsplit]
    exact List.mem_append_right _ List.mem_cons_self
  · intro h
    have hall : ∀ e ∈ units, units.lookup e.1 = some e.2 := by decide
    exact hall _ h

/-! ## One component -/

/-- A number has no point, one between two texts without points, or more. -/
theorem component?_of_notMem {number unit : Text} (h : '.' ∉ number) :
    component? number unit =
      (units.lookup unit).bind fun scale =>
        if number = [] then none else some ⟨number, [], scale⟩ := by
  unfold component?
  rw [Text.segments_of_notMem h]
  rfl

/-- A number with one point is cut there, if there is a digit on either side. -/
theorem component?_of_point {whole fraction unit : Text} (hwhole : '.' ∉ whole)
    (hfraction : '.' ∉ fraction) :
    component? (whole ++ '.' :: fraction) unit =
      (units.lookup unit).bind fun scale =>
        if whole = [] ∧ fraction = [] then none else some ⟨whole, fraction, scale⟩ := by
  unfold component?
  rw [Text.segments_append_cons, Text.segments_of_notMem hwhole,
    Text.segments_of_notMem hfraction]
  rfl

/-- A number with two points is refused. -/
theorem component?_of_points {whole fraction unit : Text} (hwhole : '.' ∉ whole)
    (hfraction : '.' ∈ fraction) : component? (whole ++ '.' :: fraction) unit = none := by
  obtain ⟨s, t, rfl, hs⟩ := List.eq_append_cons_of_mem hfraction
  obtain ⟨first, rest, ht⟩ : ∃ first rest, Text.segments '.' t = first :: rest := by
    rw [Text.segments_eq_splitOn]
    exact List.exists_cons_of_ne_nil (List.splitOn_ne_nil '.' t)
  unfold component?
  rw [Text.segments_append_cons, Text.segments_append_cons, Text.segments_of_notMem hwhole,
    Text.segments_of_notMem hs, ht]
  cases units.lookup unit <;> rfl

theorem point_notMem {digits : Text} (h : ∀ d ∈ digits, d.isDigit = true) : '.' ∉ digits :=
  fun hmem => absurd (h '.' hmem) (by decide)

/-- What is read as a component writes it. -/
theorem spelled_of_component? {number unit : Text} {c : Component}
    (hnumeric : ∀ d ∈ number, isNumeric d = true) (h : component? number unit = some c) :
    c.Spelled (number ++ unit) := by
  -- The number is cut at its points, of which a component has at most one.
  by_cases hpoint : '.' ∈ number
  · obtain ⟨whole, fraction, rfl, hwhole⟩ := List.eq_append_cons_of_mem hpoint
    by_cases hmore : '.' ∈ fraction
    · rw [component?_of_points hwhole hmore] at h
      cases h
    · rw [component?_of_point hwhole hmore] at h
      obtain ⟨scale, hscale, h⟩ := Option.bind_eq_some_iff.1 h
      obtain ⟨hne, heq⟩ := Option.ite_none_left_eq_some.1 h
      cases heq
      refine .point (not_and_or.1 hne) ?_ ?_ (lookup_units_eq_some_iff.1 hscale)
      · intro d hd
        refine isDigit_of_isNumeric (hnumeric d (List.mem_append_left _ hd)) ?_
        rintro rfl
        exact hwhole hd
      · intro d hd
        refine isDigit_of_isNumeric
          (hnumeric d (List.mem_append_right _ (List.mem_cons_of_mem _ hd))) ?_
        rintro rfl
        exact hmore hd
  · rw [component?_of_notMem hpoint] at h
    obtain ⟨scale, hscale, h⟩ := Option.bind_eq_some_iff.1 h
    obtain ⟨hne, heq⟩ := Option.ite_none_left_eq_some.1 h
    cases heq
    refine .whole hne ?_ (lookup_units_eq_some_iff.1 hscale)
    intro d hd
    refine isDigit_of_isNumeric (hnumeric d hd) ?_
    rintro rfl
    exact hpoint hd

/-- A text that writes a component is a number and a unit which are read as it. -/
theorem Component.Spelled.exists_component? {c : Component} {t : Text} (h : c.Spelled t) :
    ∃ number unit, t = number ++ unit ∧ number ≠ [] ∧ unit ≠ [] ∧
      (∀ d ∈ number, isNumeric d = true) ∧ (∀ d ∈ unit, isNumeric d = false) ∧
      component? number unit = some c := by
  cases h with
  | @whole digits unit scale hne hdigits hunit =>
    obtain ⟨hunitNe, hletters⟩ := hunit.name_spec
    refine ⟨digits, unit, rfl, hne, hunitNe,
      fun d hd => isNumeric_of_isDigit (hdigits d hd), hletters, ?_⟩
    rw [component?_of_notMem (point_notMem hdigits), lookup_units_eq_some_iff.2 hunit,
      Option.bind_some, if_neg hne]
  | @point whole fraction unit scale hne hwhole hfraction hunit =>
    obtain ⟨hunitNe, hletters⟩ := hunit.name_spec
    refine ⟨whole ++ '.' :: fraction, unit, rfl, by simp, hunitNe, ?_, hletters, ?_⟩
    · intro d hd
      rcases List.mem_append.1 hd with hd | hd
      · exact isNumeric_of_isDigit (hwhole d hd)
      · rcases List.mem_cons.1 hd with rfl | hd
        · rfl
        · exact isNumeric_of_isDigit (hfraction d hd)
    · rw [component?_of_point (point_notMem hwhole) (point_notMem hfraction),
        lookup_units_eq_some_iff.2 hunit, Option.bind_some, if_neg (not_and_or.2 hne)]

/-! ## All components -/

/-- Reads the components of a text that is cut into numbers and units in turn. -/
def components? : List Text → Option (List Component)
  | [] => some []
  | [_] => none
  | number :: unit :: rest =>
    if number.all isNumeric then
      (component? number unit).bind fun c => (components? rest).map (c :: ·)
    else none

theorem components?_cons {number unit : Text} {rest : List Text} :
    components? (number :: unit :: rest) =
      if number.all isNumeric then
        (component? number unit).bind fun c => (components? rest).map (c :: ·)
      else none := rfl

/-- Components are read one by one, each of a number and a unit. -/
theorem components?_cons_eq_some_iff {number unit : Text} {rest : List Text}
    {cs : List Component} :
    components? (number :: unit :: rest) = some cs ↔
      number.all isNumeric = true ∧ ∃ c cs', component? number unit = some c ∧
        components? rest = some cs' ∧ c :: cs' = cs := by
  simp only [components?_cons, Option.ite_none_right_eq_some, Option.bind_eq_some_iff,
    Option.map_eq_some_iff, exists_and_left]

/-- What is read as components spells them. -/
theorem spelledAll_of_components? {pieces : List Text} {cs : List Component}
    (h : components? pieces = some cs) : SpelledAll cs pieces.flatten := by
  match pieces with
  | [] =>
    cases h
    exact .nil
  | [_] => cases h
  | number :: unit :: rest =>
    obtain ⟨hnumeric, c, cs', hc, hrest, rfl⟩ := components?_cons_eq_some_iff.1 h
    have hspelled := spelled_of_component? (List.all_eq_true.1 hnumeric) hc
    have hflatten : (number :: unit :: rest).flatten = number ++ unit ++ rest.flatten := by simp
    rw [hflatten]
    exact .cons hspelled (spelledAll_of_components? hrest)

/-- What writes components begins with a character of a number. -/
theorem SpelledAll.isNumeric_head {cs : List Component} {t : Text} (h : SpelledAll cs t) :
    ∀ c ∈ t.head?, isNumeric c = true := by
  cases h with
  | nil =>
    intro c hc
    cases hc
  | cons hfirst hrest =>
    obtain ⟨number, unit, rfl, hne, -, hnumeric, -⟩ := hfirst.exists_component?
    obtain ⟨d, ds, rfl⟩ := List.exists_cons_of_ne_nil hne
    intro c hc
    cases hc
    exact hnumeric d List.mem_cons_self

/-- Only no text writes no components. -/
theorem SpelledAll.eq_nil_iff {cs : List Component} {t : Text} (h : SpelledAll cs t) :
    cs = [] ↔ t = [] := by
  cases h with
  | nil => exact ⟨fun _ => rfl, fun _ => rfl⟩
  | @cons c cs s t hfirst hrest =>
    obtain ⟨number, unit, rfl, hne, -⟩ := hfirst.exists_component?
    simp [hne]

/-- What spells components is cut into their numbers and units and read as them. -/
theorem components?_runs {cs : List Component} {t : Text} (h : SpelledAll cs t) :
    components? (Text.runs isNumeric t) = some cs := by
  induction h with
  | nil => rfl
  | @cons c cs s t hfirst hrest ih =>
    obtain ⟨number, unit, rfl, hne, hunit, hnumeric, hletters, hcomponent⟩ :=
      hfirst.exists_component?
    rw [Text.runs_append hne hunit hnumeric hletters hrest.isNumeric_head, components?_cons,
      if_pos (List.all_eq_true.2 hnumeric), hcomponent, ih]
    rfl

/-! ## Literals -/

/-- Reads the sign and the components of a literal. -/
def literal? (t : Text) : Option (Bool × List Component) :=
  let (negative, unsigned) := Text.signed t
  if unsigned = [] then none
  else (components? (Text.runs isNumeric unsigned)).map (negative, ·)

/-- A sign is taken off a text that goes on with a number. -/
theorem signed_of_isSign {sign body : Text} {negative : Bool} (hsign : Text.IsSign sign negative)
    (hbody : ∀ c ∈ body.head?, isNumeric c = true) :
    Text.signed (sign ++ body) = (negative, body) := by
  refine Text.signed_append hsign fun c hc => ⟨?_, ?_⟩
  · rintro rfl
    exact absurd (hbody _ hc) (by decide)
  · rintro rfl
    exact absurd (hbody _ hc) (by decide)

/-- **Reading follows the grammar.** The literals are read, and nothing else. -/
theorem literal?_eq_some_iff {t : Text} {negative : Bool} {cs : List Component} :
    literal? t = some (negative, cs) ↔ IsLiteral t negative cs := by
  constructor
  · intro h
    obtain ⟨sign, ht, hsign⟩ := Text.exists_isSign t
    obtain ⟨hne, h⟩ := Option.ite_none_left_eq_some.1 h
    obtain ⟨cs', hcs, heq⟩ := Option.map_eq_some_iff.1 h
    obtain ⟨rfl, rfl⟩ := Prod.mk.inj heq
    have hspelled := spelledAll_of_components? hcs
    -- The runs together are the text that was cut.
    rw [Text.runs, List.flatten_splitBy] at hspelled
    exact ⟨sign, _, ht, hsign, fun hcs => hne (hspelled.eq_nil_iff.1 hcs), hspelled⟩
  · rintro ⟨sign, body, rfl, hsign, hcs, hspelled⟩
    have hbody : body ≠ [] := fun hempty => hcs (hspelled.eq_nil_iff.2 hempty)
    unfold literal?
    rw [signed_of_isSign hsign hspelled.isNumeric_head]
    show (if body = [] then none else _) = _
    rw [if_neg hbody, components?_runs hspelled]
    rfl

end Duration

end HealthCheck
