import HealthCheck.Text.Basic
import Mathlib.Data.List.DropRight
import Mathlib.Tactic.SplitIfs

/-!
# Laws of trimming and cutting

Trimming leaves a text alone that has no blank at either end, and the cuts of `Text.Basic` are
undone by concatenation.
-/

namespace HealthCheck.Text

/-! ## Trimming -/

/-- The text ends in a blank. -/
def EndsBlank (t : Text) : Prop := ∃ c, t.getLast? = some c ∧ isBlank c = true

theorem trimStart_cons {c : Char} (h : isBlank c = false) (t : Text) :
    trimStart (c :: t) = c :: t := by
  unfold trimStart
  rw [List.dropWhile_cons_of_neg (by simp [h])]

/-- Nothing is trimmed off an end that is not blank. -/
theorem trimEnd_of_not_endsBlank {t : Text} (h : ¬ EndsBlank t) : trimEnd t = t := by
  unfold trimEnd
  cases hr : t.reverse with
  | nil => simpa using hr.symm
  | cons c cs =>
    have hlast : t.getLast? = some c := by rw [← List.head?_reverse, hr]; rfl
    have hc : isBlank c = false := by
      rw [← Bool.not_eq_true]
      exact fun hb => h ⟨c, hlast, hb⟩
    rw [List.dropWhile_cons_of_neg (by simp [hc]), ← hr, List.reverse_reverse]

/-- A text without blanks at its ends stays as it is. -/
theorem trim_of_ends {c : Char} {t : Text} (hhead : t.head? = some c) (hc : isBlank c = false)
    (hend : ¬ EndsBlank t) : trim t = t := by
  obtain ⟨rest, rfl⟩ := List.head?_eq_some_iff.1 hhead
  rw [trim, trimStart_cons hc, trimEnd_of_not_endsBlank hend]

/-- Nothing is trimmed off a text without blanks. -/
theorem trim_of_noBlanks {t : Text} (h : ∀ c ∈ t, isBlank c = false) : trim t = t := by
  have hend : ¬ EndsBlank t := by
    rintro ⟨c, hc, hblank⟩
    rw [h c (List.mem_of_getLast? hc)] at hblank
    exact absurd hblank (by decide)
  cases t with
  | nil => rfl
  | cons c cs => exact trim_of_ends rfl (h c List.mem_cons_self) hend

theorem endsBlank_append {s t : Text} (ht : t ≠ []) : EndsBlank (s ++ t) ↔ EndsBlank t := by
  unfold EndsBlank
  rw [List.getLast?_append_of_ne_nil _ ht]

theorem not_endsBlank_concat {c : Char} (h : isBlank c = false) (t : Text) :
    ¬ EndsBlank (t ++ [c]) := by
  rintro ⟨d, hd, hblank⟩
  rw [List.getLast?_concat, Option.some.injEq] at hd
  rw [hd, hblank] at h
  exact absurd h (by decide)

theorem not_endsBlank_trimEnd (t : Text) : ¬ EndsBlank (trimEnd t) := by
  rintro ⟨c, hc, hblank⟩
  rw [trimEnd, List.getLast?_reverse] at hc
  have hhead := List.head?_dropWhile_not isBlank t.reverse
  rw [hc] at hhead
  simp only [hblank] at hhead
  exact absurd hhead (by decide)

theorem not_endsBlank_trim (t : Text) : ¬ EndsBlank (trim t) := not_endsBlank_trimEnd (trimStart t)

/-- Trimming the end of a text leaves its first character alone unless nothing is left. -/
theorem head?_trim {t : Text} {c : Char} (h : (trim t).head? = some c) : isBlank c = false := by
  have hprefix : trim t <+: trimStart t := List.rdropWhile_prefix isBlank (trimStart t)
  obtain ⟨rest, hrest⟩ := List.head?_eq_some_iff.1 h
  rw [hrest] at hprefix
  obtain ⟨more, hmore⟩ := hprefix
  have hhead := List.head?_dropWhile_not isBlank t
  rw [show t.dropWhile isBlank = c :: (rest ++ more) from hmore.symm] at hhead
  simpa using hhead

/-- Trimming twice is trimming once. -/
@[simp] theorem trim_trim (t : Text) : trim (trim t) = trim t := by
  cases h : (trim t).head? with
  | none => rw [List.head?_eq_none_iff.1 h]; rfl
  | some c => exact trim_of_ends h (head?_trim h) (not_endsBlank_trim t)

/-- The text consists of blanks. -/
def AllBlank (t : Text) : Prop := ∀ c ∈ t, isBlank c = true

instance decidableAllBlank (t : Text) : Decidable (AllBlank t) :=
  List.decidableBAll (fun c => isBlank c = true) t

/-- Blanks in front of a text do not outlast trimming. -/
theorem trim_allBlank_append {s : Text} (hs : AllBlank s) (t : Text) :
    trim (s ++ t) = trim t := by
  unfold trim trimStart
  rw [List.dropWhile_append_of_pos hs]

/-- Blanks behind a text do not outlast trimming. -/
theorem trim_append_allBlank {s : Text} (hs : AllBlank s) (t : Text) :
    trim (t ++ s) = trim t := by
  have htrimEnd : ∀ u : Text, trimEnd (u ++ s) = trimEnd u := by
    intro u
    unfold trimEnd
    rw [List.reverse_append,
      List.dropWhile_append_of_pos fun c hc => hs c (List.mem_reverse.1 hc)]
  unfold trim trimStart
  rw [List.dropWhile_append]
  split_ifs with hempty
  · -- Nothing but blanks.
    rw [List.isEmpty_iff.1 hempty, List.dropWhile_eq_nil_iff.2 hs]
  · exact htrimEnd _

/-- A text is its trimmed form with blanks around it. -/
theorem exists_blanks_around_trim (t : Text) :
    ∃ lead trail, AllBlank lead ∧ AllBlank trail ∧ t = lead ++ trim t ++ trail := by
  refine ⟨t.takeWhile isBlank, (trimStart t).rtakeWhile isBlank, ?_, ?_, ?_⟩
  · intro c hc
    exact List.mem_takeWhile_imp hc
  · intro c hc
    exact List.mem_rtakeWhile_imp hc
  · have hend : trim t ++ (trimStart t).rtakeWhile isBlank = trimStart t :=
      List.rdropWhile_append_rtakeWhile
    rw [List.append_assoc, hend]
    exact List.takeWhile_append_dropWhile.symm

/-- Trimming leaves nothing of a text of blanks, and something of any other. -/
theorem trim_eq_nil_iff {t : Text} : trim t = [] ↔ AllBlank t := by
  constructor
  · intro h
    obtain ⟨lead, trail, hlead, htrail, ht⟩ := exists_blanks_around_trim t
    rw [h, List.append_nil] at ht
    rw [ht]
    intro c hc
    rcases List.mem_append.1 hc with hc | hc
    · exact hlead c hc
    · exact htrail c hc
  · intro h
    have htrim := trim_allBlank_append h []
    rw [List.append_nil] at htrim
    exact htrim

/-- The text neither begins nor ends in a blank, and is not empty. -/
structure Tight (t : Text) : Prop where
  head : ∃ c, t.head? = some c ∧ isBlank c = false
  last : ¬ EndsBlank t

theorem Tight.ne_nil {t : Text} (h : Tight t) : t ≠ [] := by
  rintro rfl
  obtain ⟨c, hc, -⟩ := h.head
  cases hc

/-- A text without blanks is tight, unless it is empty. -/
theorem tight_of_noBlanks {t : Text} (hne : t ≠ []) (h : ∀ c ∈ t, isBlank c = false) : Tight t := by
  constructor
  · obtain ⟨c, cs, rfl⟩ := List.exists_cons_of_ne_nil hne
    exact ⟨c, rfl, h c List.mem_cons_self⟩
  · rintro ⟨c, hc, hblank⟩
    rw [h c (List.mem_of_getLast? hc)] at hblank
    cases hblank

/-- What stands between two such texts does not matter. -/
theorem Tight.append {s t : Text} (hs : Tight s) (mid : Text) (ht : Tight t) :
    Tight (s ++ mid ++ t) := by
  constructor
  · obtain ⟨c, hc, hblank⟩ := hs.head
    obtain ⟨rest, rfl⟩ := List.head?_eq_some_iff.1 hc
    exact ⟨c, rfl, hblank⟩
  · rw [endsBlank_append ht.ne_nil]
    exact ht.last

/-- What such a text begins with does not depend on what follows. -/
theorem Tight.append_ne_cons {w : Text} (h : Tight w) {c : Char} {rest : Text}
    (hne : ∀ more, w ++ rest ≠ c :: more) (rest' more : Text) : w ++ rest' ≠ c :: more := by
  obtain ⟨d, ds, rfl⟩ := List.exists_cons_of_ne_nil h.ne_nil
  rintro heq
  exact hne (ds ++ rest) (by rw [List.cons_append, (List.cons.inj heq).1])

theorem trim_around {lead w trail : Text} (hlead : AllBlank lead) (hw : Tight w)
    (htrail : AllBlank trail) : trim (lead ++ w ++ trail) = w := by
  obtain ⟨c, hc, hblank⟩ := hw.head
  rw [trim_append_allBlank htrail, trim_allBlank_append hlead, trim_of_ends hc hblank hw.last]

/-! ## Cutting -/

/-- What stands behind an opening. -/
theorem after?_eq_some_iff {opening t rest : Text} :
    after? opening t = some rest ↔ t = opening ++ rest := by
  unfold after?
  induction opening generalizing t with
  | nil => simp [List.isPrefixOf?, eq_comm]
  | cons c cs ih =>
    cases t with
    | nil => simp [List.isPrefixOf?]
    | cons d ds =>
      rw [List.isPrefixOf?, List.cons_append, List.cons.injEq]
      by_cases h : c = d
      · simp [h, ih]
      · simp [h, Ne.symm h]

/-- What stands in front of a closing. -/
theorem before?_eq_some_iff {closing t rest : Text} :
    before? closing t = some rest ↔ t = rest ++ closing := by
  have h : ∀ r, List.isPrefixOf? closing.reverse t.reverse = some r ↔
      t.reverse = closing.reverse ++ r := fun r => after?_eq_some_iff
  simp only [before?, List.isSuffixOf?, Option.map_eq_some_iff, h]
  constructor
  · rintro ⟨r, hr, rfl⟩
    simpa using congrArg List.reverse hr
  · rintro rfl
    exact ⟨rest.reverse, by simp, by simp⟩

/-- What stands between an opening and a closing, which may not overlap. -/
theorem between?_eq_some_iff {opening closing t inner : Text} :
    between? opening closing t = some inner ↔ t = opening ++ inner ++ closing := by
  simp only [between?, Option.bind_eq_some_iff, after?_eq_some_iff, before?_eq_some_iff]
  constructor
  · rintro ⟨rest, rfl, rfl⟩
    rw [List.append_assoc]
  · rintro rfl
    exact ⟨inner ++ closing, by rw [List.append_assoc], rfl⟩

theorem between?_append (opening inner closing : Text) :
    between? opening closing (opening ++ inner ++ closing) = some inner :=
  between?_eq_some_iff.2 rfl

/-- A text is put together again from what stands before and after a separator. -/
theorem eq_append_of_breakOn? {sep t before rest : Text}
    (h : breakOn? sep t = some (before, rest)) : t = before ++ sep ++ rest := by
  induction t generalizing before with
  | nil =>
    rw [breakOn?, Option.map_eq_some_iff] at h
    obtain ⟨r, hr, heq⟩ := h
    obtain ⟨rfl, rfl⟩ := Prod.mk.inj heq
    exact after?_eq_some_iff.1 hr
  | cons c cs ih =>
    rw [breakOn?] at h
    split at h
    · rename_i r hr
      obtain ⟨rfl, rfl⟩ := Prod.mk.inj (Option.some.inj h)
      exact after?_eq_some_iff.1 hr
    · obtain ⟨⟨b, r⟩, hb, heq⟩ := Option.map_eq_some_iff.1 h
      obtain ⟨rfl, rfl⟩ := Prod.mk.inj heq
      rw [ih hb, List.cons_append, List.cons_append]

/-- A text without a character contains no text that has it. -/
theorem contains_eq_false {sep t : Text} {c : Char} (hsep : c ∈ sep) (ht : c ∉ t) :
    contains sep t = false := by
  unfold contains
  cases hb : breakOn? sep t with
  | none => rfl
  | some cut =>
    refine absurd ?_ ht
    rw [eq_append_of_breakOn? hb]
    exact List.mem_append_left _ (List.mem_append_right _ hsep)

end HealthCheck.Text
