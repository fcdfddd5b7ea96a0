import HealthCheck.Wildcard
import Mathlib.Data.List.Forall2
import Mathlib.Data.List.Infix
import Mathlib.Tactic.SplitIfs

/-!
# What wildcard patterns match

A pattern matches a text where the text can be cut into consecutive pieces, one for each element of
the pattern, which the elements take (`Matches`). Matching tries the pieces of a run from the
shortest up and gives up as soon as the text runs out before the pattern. That loses no match: where
an attempt gives up, no end of the text that it was made on can be cut either, and later attempts
are made on such ends only. `Answers` says both of an attempt; it passes from the rest of a pattern
to the runs in front of it (`Answers.tryRuns`) and so to whole patterns (`answers_run`).
-/

namespace HealthCheck.Wildcard

/-! ## Pieces -/

/-- The element takes one character. -/
def Element.IsSingle (e : Element) : Prop := e ≠ .anyRun ∧ e ≠ .anyComponents

/-- The element takes the piece: a run takes any text, and what takes one character takes those that
it accepts. -/
inductive Element.Takes : Element → Text → Prop where
  | anyRun (t : Text) : Takes .anyRun t
  | single {e : Element} {c : Char} (he : e.IsSingle) (hc : e.accepts c = true) : Takes e [c]

/-- The text can be cut into consecutive pieces, one for each element in order, which the elements
take. -/
def Matches (es : List Element) (t : Text) : Prop :=
  ∃ pieces, t = pieces.flatten ∧ List.Forall₂ Element.Takes es pieces

theorem matches_nil_iff {t : Text} : Matches [] t ↔ t = [] := by
  simp [Matches]

/-- A pattern matches a text that is a piece for its first element and a rest for the others. -/
theorem matches_cons_iff {e : Element} {es : List Element} {t : Text} :
    Matches (e :: es) t ↔ ∃ piece rest, t = piece ++ rest ∧ e.Takes piece ∧ Matches es rest := by
  constructor
  · rintro ⟨pieces, rfl, htakes⟩
    obtain ⟨piece, more, hpiece, hmore, rfl⟩ := List.forall₂_cons_left_iff.1 htakes
    exact ⟨piece, more.flatten, rfl, hpiece, more, rfl, hmore⟩
  · rintro ⟨piece, rest, rfl, hpiece, more, rfl, hmore⟩
    exact ⟨piece :: more, rfl, .cons hpiece hmore⟩

/-- Behind a run the rest of a pattern takes an end of the text. -/
theorem matches_anyRun_iff {es : List Element} {t : Text} :
    Matches (.anyRun :: es) t ↔ ∃ u, u <:+ t ∧ Matches es u := by
  rw [matches_cons_iff]
  constructor
  · rintro ⟨piece, rest, rfl, -, hrest⟩
    exact ⟨rest, List.suffix_append piece rest, hrest⟩
  · rintro ⟨u, ⟨piece, rfl⟩, hu⟩
    exact ⟨piece, u, rfl, .anyRun piece, hu⟩

/-- An element for one character takes the first one. -/
theorem matches_single_iff {e : Element} (he : e.IsSingle) {es : List Element} {t : Text} :
    Matches (e :: es) t ↔ ∃ c cs, t = c :: cs ∧ e.accepts c = true ∧ Matches es cs := by
  rw [matches_cons_iff]
  constructor
  · rintro ⟨piece, rest, rfl, hpiece, hrest⟩
    cases hpiece with
    | anyRun => exact absurd rfl he.1
    | single _ hc => exact ⟨_, rest, rfl, hc, hrest⟩
  · rintro ⟨c, cs, rfl, hc, hcs⟩
    exact ⟨[c], cs, rfl, .single he hc, hcs⟩

/-! ## Attempts -/

/-- The attempts answer for a property of texts: they succeed exactly where it holds, and where one
gives up, it holds of no end of the text. -/
structure Answers (attempt : Text → Outcome) (p : Text → Prop) : Prop where
  matched : ∀ t, attempt t = .matched ↔ p t
  exhausted : ∀ t u, attempt t = .exhausted → u <:+ t → ¬ p u

theorem tryRuns_cons (rest : Text → Outcome) (c : Char) (cs : Text) :
    tryRuns false rest true (c :: cs) =
      match rest (c :: cs) with
      | .failed => tryRuns false rest true cs
      | o => o := rfl

/-- **Nothing is lost by giving up.** Attempts on the ends of a text, from the longest down to the
first that does not fail, answer for there being an end with the property. -/
theorem Answers.tryRuns {rest : Text → Outcome} {p : Text → Prop} (h : Answers rest p) :
    Answers (tryRuns false rest true) fun t => ∃ u, u <:+ t ∧ p u := by
  -- What is to be shown of one text, by induction on it.
  have hspec : ∀ t, (Wildcard.tryRuns false rest true t = .matched ↔ ∃ u, u <:+ t ∧ p u) ∧
      (Wildcard.tryRuns false rest true t = .exhausted → ∀ u, u <:+ t → ¬ p u) := by
    intro t
    induction t with
    | nil =>
      refine ⟨?_, fun hexhausted u hu => h.exhausted [] u hexhausted hu⟩
      simp only [List.suffix_nil, exists_eq_left]
      exact h.matched []
    | cons c cs ih =>
      rw [tryRuns_cons]
      cases hrest : rest (c :: cs) with
      | matched =>
        refine ⟨iff_of_true rfl ⟨c :: cs, List.suffix_rfl, (h.matched _).1 hrest⟩, ?_⟩
        rintro ⟨⟩
      | exhausted =>
        have hnone : ∀ u, u <:+ c :: cs → ¬ p u := fun u => h.exhausted _ u hrest
        refine ⟨iff_of_false Outcome.noConfusion ?_, fun _ => hnone⟩
        rintro ⟨u, hu, hp⟩
        exact hnone u hu hp
      | failed =>
        have hhere : ¬ p (c :: cs) := by
          rw [← h.matched, hrest]
          decide
        have hends : ∀ u, u <:+ c :: cs → p u → u <:+ cs := by
          intro u hu hp
          rcases List.suffix_cons_iff.1 hu with rfl | hlater
          · exact absurd hp hhere
          · exact hlater
        refine ⟨ih.1.trans ⟨?_, ?_⟩, fun hexhausted u hu hp => ?_⟩
        · rintro ⟨u, hu, hp⟩
          exact ⟨u, hu.trans (List.suffix_cons c cs), hp⟩
        · rintro ⟨u, hu, hp⟩
          exact ⟨u, hends u hu hp, hp⟩
        · exact ih.2 hexhausted u (hends u hu hp) hp
  refine ⟨fun t => (hspec t).1, ?_⟩
  rintro t u hexhausted hu ⟨v, hv, hp⟩
  exact (hspec t).2 hexhausted v (hv.trans hu) hp

theorem run_single_nil {e : Element} (he : e.IsSingle) (es : List Element) :
    run (e :: es) [] = .exhausted := by
  cases e with
  | anyRun => exact absurd rfl he.1
  | anyComponents => exact absurd rfl he.2
  | _ => rfl

/-- An element for one character goes on behind it or fails. -/
theorem run_single_cons {e : Element} (he : e.IsSingle) (es : List Element) (c : Char)
    (cs : Text) : run (e :: es) (c :: cs) = if e.accepts c then run es cs else .failed := by
  cases e with
  | anyRun => exact absurd rfl he.1
  | anyComponents => exact absurd rfl he.2
  | _ => rfl

/-- An element for one character, in front of the rest of a pattern. -/
theorem Answers.single {e : Element} (he : e.IsSingle) {es : List Element}
    (h : Answers (run es) (Matches es)) : Answers (run (e :: es)) (Matches (e :: es)) := by
  constructor
  · intro t
    rw [matches_single_iff he]
    cases t with
    | nil => simp [run_single_nil he]
    | cons c cs =>
      rw [run_single_cons he]
      by_cases hc : e.accepts c = true
      · simp [hc, h.matched]
      · simp [hc]
  · intro t u hexhausted hu hmatches
    obtain ⟨d, ds, rfl, -, hds⟩ := (matches_single_iff he).1 hmatches
    cases t with
    | nil => simp at hu
    | cons c cs =>
      rw [run_single_cons he] at hexhausted
      split_ifs at hexhausted
      refine h.exhausted cs ds hexhausted ?_ hds
      rcases List.suffix_cons_iff.1 hu with heq | hlater
      · rw [(List.cons.inj heq).2]
      · exact (List.suffix_cons d ds).trans hlater

/-- **Matching.** Without `**`, a pattern matches the texts that its elements can take in pieces. -/
theorem answers_run {es : List Element} (h : .anyComponents ∉ es) :
    Answers (run es) (Matches es) := by
  induction es with
  | nil =>
    constructor
    · intro t
      rw [matches_nil_iff]
      cases t <;> simp [run]
    · intro t u hexhausted
      cases t <;> simp [run] at hexhausted
  | cons e es ih =>
    have hrest : Answers (run es) (Matches es) := ih fun hmem => h (List.mem_cons_of_mem e hmem)
    by_cases he : e = .anyRun
    · subst he
      have hruns := hrest.tryRuns
      simp only [← matches_anyRun_iff] at hruns
      exact hruns
    · refine hrest.single ⟨he, ?_⟩
      rintro rfl
      exact h List.mem_cons_self

/-! ## Patterns as they are written -/

/-- The element that a character is read as. -/
def elementOf : Char → Element
  | '?' => .anyChar
  | '*' => .anyRun
  | c => .char c

/-- A character that is no wildcard stands for itself. -/
theorem elementOf_of_literal {c : Char} (hquestion : c ≠ '?') (hstar : c ≠ '*') :
    elementOf c = .char c := by
  unfold elementOf
  split
  · exact absurd rfl hquestion
  · exact absurd rfl hstar
  · rfl

theorem elementOf_ne_anyComponents (c : Char) : elementOf c ≠ .anyComponents := by
  unfold elementOf
  split <;> exact Element.noConfusion

/-- A character that opens no class and begins no run of stars is one element. -/
theorem readFrom_cons (fuel : Nat) (previous : Option Char) (read : List Element) {c : Char}
    {cs : Text} (hbracket : c ≠ '[') (hstars : ¬ ['*', '*'] <+: c :: cs) :
    readFrom (fuel + 1) previous read (c :: cs) =
      readFrom fuel (some c) (elementOf c :: read) cs := by
  simp only [readFrom]
  split
  · rfl
  · next more => exact absurd ⟨more, rfl⟩ hstars
  · rfl
  · exact absurd rfl hbracket
  · next hquestion hstar _ _ => rw [elementOf_of_literal hquestion hstar]

/-- Without a class and without two asterisks in a row, each character is read on its own. -/
theorem readFrom_eq_map {fuel : Nat} {previous : Option Char} {read : List Element} {t : Text}
    (hfuel : t.length ≤ fuel) (hbracket : '[' ∉ t) (hstars : ¬ ['*', '*'] <:+: t) :
    readFrom fuel previous read t = some (read.reverse ++ t.map elementOf) := by
  induction t generalizing fuel previous read with
  | nil =>
    rw [List.map_nil, List.append_nil]
    cases fuel <;> rfl
  | cons c cs ih =>
    obtain ⟨fuel, rfl⟩ : ∃ n, fuel = n + 1 := Nat.exists_eq_succ_of_ne_zero (by grind)
    have hc : c ≠ '[' := fun h => hbracket (h ▸ List.mem_cons_self)
    have hfront : ¬ ['*', '*'] <+: c :: cs := fun h => hstars h.isInfix
    rw [readFrom_cons fuel previous read hc hfront,
      ih (Nat.le_of_succ_le_succ hfuel) (fun h => hbracket (List.mem_cons_of_mem c h))
        (fun h => hstars (List.infix_cons h)),
      List.reverse_cons, List.append_assoc, List.singleton_append, List.map_cons]

/-- What a character of a pattern stands for: `?` for any one character, `*` for any text, and every
other character for itself. -/
inductive StandsFor : Char → Text → Prop where
  | anyChar (c : Char) : StandsFor '?' [c]
  | anyRun (t : Text) : StandsFor '*' t
  | literal {c : Char} (hquestion : c ≠ '?') (hstar : c ≠ '*') : StandsFor c [c]

/-- The element for a character takes the pieces that the character stands for. -/
theorem takes_elementOf_iff {c : Char} {piece : Text} :
    (elementOf c).Takes piece ↔ StandsFor c piece := by
  constructor
  · intro htakes
    unfold elementOf at htakes
    split at htakes
    · cases htakes with
      | single _ _ => exact .anyChar _
    · exact .anyRun piece
    · next hquestion hstar =>
      cases htakes with
      | single _ hc =>
        rw [beq_iff_eq.1 hc]
        exact .literal hquestion hstar
  · intro hstands
    cases hstands with
    | anyChar d => exact .single ⟨Element.noConfusion, Element.noConfusion⟩ rfl
    | anyRun => exact .anyRun piece
    | literal hquestion hstar =>
      rw [elementOf_of_literal hquestion hstar]
      exact .single ⟨Element.noConfusion, Element.noConfusion⟩ (beq_self_eq_true c)

/-- The elements of a pattern take the pieces that its characters stand for. -/
theorem matches_map_elementOf_iff {pattern t : Text} :
    Matches (pattern.map elementOf) t ↔
      ∃ pieces, t = pieces.flatten ∧ List.Forall₂ StandsFor pattern pieces := by
  simp only [Matches, List.forall₂_map_left_iff, takes_elementOf_iff]

/-- The pattern `*` needs no case of its own. -/
theorem accepts_eq (pattern t : Text) :
    accepts pattern t = (elements? pattern).any fun es => run es t == .matched := by
  by_cases hstar : pattern = ['*']
  · subst hstar
    have hrun : run [.anyRun] t = .matched := by
      refine ((answers_run (by decide)).matched t).2 (matches_anyRun_iff.2 ?_)
      exact ⟨[], List.nil_suffix, matches_nil_iff.2 rfl⟩
    have helements : elements? ['*'] = some [.anyRun] := rfl
    rw [helements, Option.any_some, hrun]
    rfl
  · have hne : (pattern == ['*']) = false := beq_eq_false_iff_ne.2 hstar
    rw [accepts, hne, Bool.false_or]

/-- **Wildcards.** The pattern `*` is matched as any other is. A pattern without a class and without
two asterisks in a row matches exactly the texts that are made of consecutive pieces, one for each
of its characters in order: any one character for `?`, any text for `*`, separators, leading dots
and the empty text included, and the character itself for every other. -/
theorem patterns_match_pieces :
    (∀ pattern t : Text,
      accepts pattern t = (elements? pattern).any fun es => run es t == .matched) ∧
    (∀ pattern t : Text, '[' ∉ pattern → ¬ "**".toList <:+: pattern →
      (accepts pattern t = true ↔
        ∃ pieces, t = pieces.flatten ∧ List.Forall₂ StandsFor pattern pieces)) := by
  refine ⟨accepts_eq, fun pattern t hbracket hstars => ?_⟩
  have helements : elements? pattern = some (pattern.map elementOf) :=
    readFrom_eq_map (Nat.le_succ pattern.length) hbracket hstars
  have hcomponents : .anyComponents ∉ pattern.map elementOf := by
    intro hmem
    obtain ⟨c, -, hc⟩ := List.mem_map.1 hmem
    exact elementOf_ne_anyComponents c hc
  rw [accepts_eq, helements, Option.any_some, beq_iff_eq, (answers_run hcomponents).matched t,
    matches_map_elementOf_iff]

/-- A run takes a leading dot, and another one nothing behind the last separator. -/
theorem hidden_directory_matches :
    '[' ∉ "*.?/*".toList ∧ ¬ "**".toList <:+: "*.?/*".toList ∧
      accepts "*.?/*".toList ".b.c/".toList = true := by
  have hbracket : '[' ∉ "*.?/*".toList := by decide
  have hstars : ¬ "**".toList <:+: "*.?/*".toList := by decide
  refine ⟨hbracket, hstars, (patterns_match_pieces.2 _ _ hbracket hstars).2 ?_⟩
  refine ⟨[".b".toList, ['.'], ['c'], ['/'], []], rfl, ?_⟩
  exact .cons (.anyRun _) (.cons (.literal (by decide) (by decide))
    (.cons (.anyChar 'c') (.cons (.literal (by decide) (by decide)) (.cons (.anyRun []) .nil))))

end HealthCheck.Wildcard
