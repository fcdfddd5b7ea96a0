import HealthCheck.Proofs.Text.Cutting
import Mathlib.Data.List.Infix

/-!
# Laws of replacing

Replacing works from one first occurrence to the next: what stands before an occurrence is kept, and
what follows is replaced likewise (`replace_eq`), so that the occurrences are replaced one after the
other and nothing else is touched (`replaced_replace`). A text that is replaced occurs no more
afterwards if what comes in its place does not have it and begins and ends with characters that it
lacks, since no occurrence then reaches across the seams (`not_infix_replace`).
-/

namespace HealthCheck.Text

/-! ## First occurrences -/

/-- A text is not cut at a separator exactly if that does not stand in it. -/
theorem breakOn?_eq_none_iff {sep t : Text} : breakOn? sep t = none ↔ ¬ sep <:+: t := by
  induction t with
  | nil =>
    rw [breakOn?, Option.map_eq_none_iff, List.infix_nil]
    cases sep <;> simp [after?, List.isPrefixOf?]
  | cons c cs ih =>
    rw [breakOn?, List.infix_cons_iff, not_or]
    cases hafter : after? sep (c :: cs) with
    | some rest =>
      have hstarts : sep <+: c :: cs := ⟨rest, (after?_eq_some_iff.1 hafter).symm⟩
      simp [hstarts]
    | none =>
      have hstarts : ¬ sep <+: c :: cs := by
        rintro ⟨rest, hrest⟩
        rw [after?_eq_some_iff.2 hrest.symm] at hafter
        exact absurd hafter (by simp)
      simp [hstarts, ih]

/-- A text is cut where a separator first occurs: no occurrence starts further to the left. -/
structure IsFirstCut (sep t before rest : Text) : Prop where
  whole : t = before ++ sep ++ rest
  first : ∀ b r, t = b ++ sep ++ r → before.length ≤ b.length

/-- A text is cut at the first occurrence. -/
theorem isFirstCut_of_breakOn? {sep t before rest : Text}
    (h : breakOn? sep t = some (before, rest)) : IsFirstCut sep t before rest := by
  refine ⟨eq_append_of_breakOn? h, ?_⟩
  induction t generalizing before with
  | nil =>
    intro b r _
    obtain ⟨s, -, heq⟩ := Option.map_eq_some_iff.1 h
    obtain ⟨rfl, -⟩ := Prod.mk.inj heq
    exact Nat.zero_le _
  | cons c cs ih =>
    intro b r hcut
    rw [breakOn?] at h
    split at h
    · obtain ⟨rfl, -⟩ := Prod.mk.inj (Option.some.inj h)
      exact Nat.zero_le _
    · rename_i hafter
      obtain ⟨⟨b', r'⟩, hbreak, heq⟩ := Option.map_eq_some_iff.1 h
      obtain ⟨rfl, rfl⟩ := Prod.mk.inj heq
      cases b with
      | nil =>
        rw [after?_eq_some_iff.2 (show c :: cs = sep ++ r from hcut)] at hafter
        exact absurd hafter (by simp)
      | cons d b =>
        have hrest : cs = b ++ sep ++ r := (List.cons.inj hcut).2
        exact Nat.succ_le_succ (ih hbreak b r hrest)

/-- Nothing stands before a first occurrence that is one itself. -/
theorem not_infix_of_breakOn? {sep t before rest : Text} (hsep : sep ≠ [])
    (h : breakOn? sep t = some (before, rest)) : ¬ sep <:+: before := by
  rintro ⟨b, r, rfl⟩
  have hcut := isFirstCut_of_breakOn? h
  have hearlier : t = b ++ sep ++ (r ++ sep ++ rest) := by
    rw [hcut.whole]
    simp only [List.append_assoc]
  have hlength := hcut.first b _ hearlier
  have hpos := List.length_pos_iff.2 hsep
  simp only [List.length_append] at hlength
  omega

/-- Breaking a text finds the first place, and only that. -/
theorem breakOn?_eq_some_iff {sep t before rest : Text} :
    breakOn? sep t = some (before, rest) ↔ IsFirstCut sep t before rest := by
  refine ⟨isFirstCut_of_breakOn?, fun h => ?_⟩
  cases hbreak : breakOn? sep t with
  | none => exact absurd ⟨before, rest, h.whole.symm⟩ (breakOn?_eq_none_iff.1 hbreak)
  | some cut =>
    obtain ⟨b, r⟩ := cut
    have hcut := isFirstCut_of_breakOn? hbreak
    have hlength : b.length = before.length :=
      Nat.le_antisymm (hcut.first before rest h.whole) (h.first b r hcut.whole)
    have hwhole : b ++ (sep ++ r) = before ++ (sep ++ rest) := by
      rw [← List.append_assoc, ← List.append_assoc, ← hcut.whole, ← h.whole]
    obtain ⟨hbefore, hrest⟩ := List.append_inj hwhole hlength
    rw [hbefore, List.append_cancel_left hrest]

/-- What stands in front of the first place where a separator occurs, or everything where it occurs
nowhere. -/
def UpTo (sep t before : Text) : Prop :=
  (∃ rest, IsFirstCut sep t before rest) ∨ (¬ sep <:+: t ∧ before = t)

/-- What stands in front of the first occurrence, or all if there is none. -/
theorem getD_breakOn?_eq_iff {sep t before : Text} :
    ((breakOn? sep t).map Prod.fst).getD t = before ↔ UpTo sep t before := by
  unfold UpTo
  rw [← breakOn?_eq_none_iff]
  simp only [← breakOn?_eq_some_iff]
  cases breakOn? sep t with
  | none => simp [eq_comm]
  | some cut => simp [Prod.ext_iff]

/-! ## Replacing -/

/-- Characters that are still to be dropped are not looked at. -/
theorem replaceFrom_eq_drop (old new : Text) (n : Nat) (t : Text) :
    replaceFrom old new n t = replace old new (t.drop n) := by
  induction n generalizing t with
  | zero => rfl
  | succ n ih =>
    cases t with
    | nil => rfl
    | cons c cs => exact ih cs

/-- An occurrence at the front is replaced as a whole. -/
theorem replace_append {old : Text} (hold : old ≠ []) (new rest : Text) :
    replace old new (old ++ rest) = new ++ replace old new rest := by
  obtain ⟨c, cs, rfl⟩ := List.exists_cons_of_ne_nil hold
  have hstarts : (c :: cs).isPrefixOf (c :: (cs ++ rest)) = true := by
    simp
  rw [replace, List.cons_append, replaceFrom, if_pos hstarts, replaceFrom_eq_drop]
  simp

/-- **Replacing.** What stands before the first occurrence is kept, and what follows it is replaced
likewise. -/
theorem replace_eq {old : Text} (hold : old ≠ []) (new t : Text) :
    replace old new t =
      match breakOn? old t with
      | none => t
      | some (before, rest) => before ++ new ++ replace old new rest := by
  induction t with
  | nil =>
    cases h : breakOn? old [] with
    | none => rfl
    | some cut =>
      have htext := eq_append_of_breakOn? (show breakOn? old [] = some (cut.1, cut.2) from h)
      simp [hold] at htext
  | cons c cs ih =>
    rw [breakOn?]
    cases hafter : after? old (c :: cs) with
    | some rest =>
      rw [after?_eq_some_iff.1 hafter]
      exact replace_append hold new rest
    | none =>
      have hstarts : ¬ old.isPrefixOf (c :: cs) = true := by
        rw [List.isPrefixOf_iff_prefix]
        rintro ⟨rest, hrest⟩
        rw [after?_eq_some_iff.2 hrest.symm] at hafter
        exact absurd hafter (by simp)
      rw [replace, replaceFrom, if_neg hstarts, ← replace, ih]
      cases breakOn? old cs with
      | none => rfl
      | some cut => rfl

/-- A text with the occurrences of `old` replaced by `new`: each is the first one behind the one
before it, and all that stands between them is kept. -/
inductive Replaced (old new : Text) : Text → Text → Prop where
  | kept {t : Text} (h : ¬ old <:+: t) : Replaced old new t t
  | next {t before rest u : Text} (hcut : IsFirstCut old t before rest)
      (hrest : Replaced old new rest u) : Replaced old new t (before ++ new ++ u)

/-- What stands behind an occurrence is shorter. -/
theorem IsFirstCut.length_lt {old t before rest : Text} (h : IsFirstCut old t before rest)
    (hold : old ≠ []) : rest.length < t.length := by
  have hpos := List.length_pos_iff.2 hold
  rw [h.whole, List.length_append, List.length_append]
  omega

/-- **Every occurrence.** Replacing replaces the occurrences one after the other from the left, and
keeps all else. -/
theorem replaced_replace {old : Text} (hold : old ≠ []) (new t : Text) :
    Replaced old new t (replace old new t) := by
  -- The induction is on the length of what has still to be replaced.
  induction h : t.length using Nat.strong_induction_on generalizing t with
  | _ n ih =>
    rw [replace_eq hold]
    cases hbreak : breakOn? old t with
    | none => exact .kept (breakOn?_eq_none_iff.1 hbreak)
    | some cut =>
      have hcut := isFirstCut_of_breakOn? (show breakOn? old t = some (cut.1, cut.2) from hbreak)
      have hlength : cut.2.length < n := h ▸ hcut.length_lt hold
      exact .next hcut (ih _ hlength cut.2 rfl)

/-! ## Occurrences after replacing -/

theorem prefix_of_prefix_append_cons {s : Text} {c : Char} (hc : c ∉ s) {a b : Text}
    (h : s <+: a ++ c :: b) : s <+: a := by
  induction a generalizing s with
  | nil =>
    cases s with
    | nil => exact List.nil_prefix
    | cons d ds =>
      have hd : d = c := (List.cons_prefix_cons.1 h).1
      exact absurd (hd ▸ List.mem_cons_self) hc
  | cons e a ih =>
    cases s with
    | nil => exact List.nil_prefix
    | cons d ds =>
      obtain ⟨hd, hrest⟩ := List.cons_prefix_cons.1 h
      have hds : c ∉ ds := fun hmem => hc (List.mem_cons_of_mem d hmem)
      exact List.cons_prefix_cons.2 ⟨hd, ih hds hrest⟩

/-- An occurrence does not reach across a character that it lacks. -/
theorem infix_of_infix_append_cons {s : Text} {c : Char} (hc : c ∉ s) {a b : Text}
    (h : s <:+: a ++ c :: b) : s <:+: a ∨ s <:+: b := by
  induction a with
  | nil =>
    rcases List.infix_cons_iff.1 h with hstarts | hinfix
    · exact Or.inl (prefix_of_prefix_append_cons (a := []) hc hstarts).isInfix
    · exact Or.inr hinfix
  | cons d a ih =>
    rcases List.infix_cons_iff.1 h with hstarts | hinfix
    · exact Or.inl (prefix_of_prefix_append_cons (a := d :: a) hc hstarts).isInfix
    · rcases ih hinfix with hleft | hright
      · exact Or.inl (List.infix_cons hleft)
      · exact Or.inr hright

/-- **Nothing is left over.** A text occurs no more once it has been replaced by one in which it
does not occur and which is set off by characters that it lacks. -/
theorem not_infix_replace {old inner : Text} {c d : Char} (hold : old ≠ []) (hc : c ∉ old)
    (hd : d ∉ old) (hinner : ¬ old <:+: inner) (t : Text) :
    ¬ old <:+: replace old (c :: (inner ++ [d])) t := by
  -- The induction is on the length of what has still to be replaced.
  induction h : t.length using Nat.strong_induction_on generalizing t with
  | _ n ih =>
    rw [replace_eq hold]
    cases hbreak : breakOn? old t with
    | none => exact breakOn?_eq_none_iff.1 hbreak
    | some cut =>
      obtain ⟨before, rest⟩ := cut
      have hlength : rest.length < n := h ▸ (isFirstCut_of_breakOn? hbreak).length_lt hold
      have hrest := ih rest.length hlength rest rfl
      have hbefore := not_infix_of_breakOn? hold hbreak
      intro hinfix
      dsimp only at hinfix
      have hseams : before ++ (c :: (inner ++ [d])) ++ replace old (c :: (inner ++ [d])) rest =
          before ++ c :: (inner ++ d :: replace old (c :: (inner ++ [d])) rest) := by
        simp
      rw [hseams] at hinfix
      rcases infix_of_infix_append_cons hc hinfix with hinfix | hinfix
      · exact hbefore hinfix
      · rcases infix_of_infix_append_cons hd hinfix with hinfix | hinfix
        · exact hinner hinfix
        · exact hrest hinfix

end HealthCheck.Text
