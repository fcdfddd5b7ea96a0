import HealthCheck.Proofs.Text.Replacing

/-!
# Words

The words of a text are its segments at single spaces, so two spaces in a row have an empty word
between them. Putting a space between two texts puts their words one after the other
(`segments_append_cons`), and a text is known by its words (`segments_injective`).

A word between two spaces therefore occurs in a text exactly where it is one of the text's words and
has others on both sides (`mem_innerWords_iff`), and where it is a word once, its occurrence is the
only one (`breakOn?_spaced`). Blanks around a text add no word that is free of blanks
(`IsSolid.mem_words_of_lead`, `IsSolid.mem_words_of_append`).
-/

namespace HealthCheck.Text

/-! ## Segments -/

theorem segments_eq_splitOn (sep : Char) (t : Text) : segments sep t = t.splitOn sep := by
  rw [List.splitOn_eq_splitOnP]
  induction t with
  | nil => rfl
  | cons c cs ih =>
    rw [segments, ih, List.splitOnP_cons_eq_if_modifyHead]
    by_cases hc : c = sep
    · rw [if_pos hc, if_pos (beq_iff_eq.2 hc)]
    · rw [if_neg hc, if_neg (fun heq => hc (beq_iff_eq.1 heq))]
      obtain ⟨first, rest, hcons⟩ := List.exists_cons_of_ne_nil (List.splitOnP_ne_nil (· == sep) cs)
      rw [hcons]
      rfl

/-- A separator between two texts separates their segments. -/
theorem segments_append_cons (sep : Char) (s t : Text) :
    segments sep (s ++ sep :: t) = segments sep s ++ segments sep t := by
  simp only [segments_eq_splitOn, List.splitOn_eq_splitOnP]
  exact List.splitOnP_append_cons s t (beq_self_eq_true sep)

/-- A text without the separator is its only segment. -/
theorem segments_of_notMem {sep : Char} {t : Text} (h : sep ∉ t) : segments sep t = [t] := by
  rw [segments_eq_splitOn, List.splitOn_eq_splitOnP]
  apply List.splitOnP_eq_singleton
  intro c hc
  rw [beq_eq_false_iff_ne]
  rintro rfl
  exact h hc

/-- A text is its segments with the separator between them. -/
theorem segments_injective (sep : Char) : Function.Injective (segments sep) := by
  intro s t h
  rw [segments_eq_splitOn, segments_eq_splitOn] at h
  calc s = [sep].intercalate (s.splitOn sep) := (List.intercalate_splitOn sep).symm
    _ = [sep].intercalate (t.splitOn sep) := by rw [h]
    _ = t := List.intercalate_splitOn sep

/-! ## Words between spaces -/

/-- The words of a text. -/
def words (t : Text) : List Text := segments ' ' t

/-- A word between two spaces. -/
def spaced (word : Text) : Text := ' ' :: word ++ [' ']

theorem words_space_cons (t : Text) : words (' ' :: t) = [] :: words t := rfl

/-- A character that is no space goes on with the first word. -/
theorem words_cons_of_ne {c : Char} (hc : c ≠ ' ') {t w : Text} {ws : List Text}
    (h : words t = w :: ws) : words (c :: t) = (c :: w) :: ws := by
  unfold words at h ⊢
  rw [segments, if_neg hc, h]

/-- A word between spaces stands between the words of the texts on its two sides. -/
theorem words_append_spaced {word : Text} (hword : ' ' ∉ word) (s t : Text) :
    words (s ++ spaced word ++ t) = words s ++ word :: words t := by
  have htext : s ++ spaced word ++ t = s ++ ' ' :: (word ++ ' ' :: t) := by
    simp [spaced]
  rw [htext, words, segments_append_cons, segments_append_cons, segments_of_notMem hword]
  rfl

theorem words_ne_nil (t : Text) : words t ≠ [] := by
  rw [words, segments_eq_splitOn, List.splitOn_eq_splitOnP]
  exact List.splitOnP_ne_nil _ t

/-- Where the words of a text fall into two parts, a space stands between the two. -/
theorem exists_of_words_eq_append {t : Text} {front back : List Text} (hfront : front ≠ [])
    (hback : back ≠ []) (h : words t = front ++ back) :
    ∃ s u, t = s ++ ' ' :: u ∧ words s = front ∧ words u = back := by
  induction t generalizing front with
  | nil =>
    have hlength := congrArg List.length h
    rw [List.length_append] at hlength
    have hfront' := List.length_pos_iff.2 hfront
    have hback' := List.length_pos_iff.2 hback
    have hone : (words []).length = 1 := rfl
    omega
  | cons c cs ih =>
    obtain ⟨x, front, rfl⟩ := List.exists_cons_of_ne_nil hfront
    by_cases hc : c = ' '
    · subst hc
      have hcons : [] :: words cs = x :: (front ++ back) := h
      obtain ⟨hx, hrest⟩ := List.cons.inj hcons
      by_cases hempty : front = []
      · rw [hempty, List.nil_append] at hrest
        exact ⟨[], cs, rfl, by rw [← hx, hempty]; rfl, hrest⟩
      · obtain ⟨s, u, rfl, hs, hu⟩ := ih hempty hrest
        exact ⟨' ' :: s, u, rfl, by rw [words_space_cons, hs, hx], hu⟩
    · obtain ⟨w, ws, hwords⟩ := List.exists_cons_of_ne_nil (words_ne_nil cs)
      rw [words_cons_of_ne hc hwords, List.cons_append] at h
      obtain ⟨rfl, hrest⟩ := List.cons.inj h
      have hparts : words cs = (w :: front) ++ back := by
        rw [hwords, hrest]
        rfl
      obtain ⟨s, u, rfl, hs, hu⟩ := ih (List.cons_ne_nil w front) hparts
      exact ⟨c :: s, u, rfl, words_cons_of_ne hc hs, hu⟩

/-- The words of a text that have others on both sides. -/
def innerWords (t : Text) : List Text := (words t).tail.dropLast

/-- What is neither first nor last in a list has something on both sides. -/
theorem mem_dropLast_tail_iff {α : Type} {l : List α} {a : α} :
    a ∈ l.tail.dropLast ↔ ∃ front back, front ≠ [] ∧ back ≠ [] ∧ l = front ++ a :: back := by
  constructor
  · intro h
    obtain ⟨x, xs, rfl⟩ : ∃ x xs, l = x :: xs := by
      refine List.exists_cons_of_ne_nil ?_
      rintro rfl
      exact absurd h List.not_mem_nil
    rw [List.tail_cons] at h
    have hne : xs ≠ [] := by
      rintro rfl
      exact absurd h List.not_mem_nil
    obtain ⟨front, back, hsplit⟩ := List.append_of_mem h
    refine ⟨x :: front, back ++ [xs.getLast hne], List.cons_ne_nil _ _, by simp, ?_⟩
    have hxs : xs = (front ++ a :: back) ++ [xs.getLast hne] := by
      rw [← hsplit, List.dropLast_append_getLast hne]
    calc x :: xs = x :: ((front ++ a :: back) ++ [xs.getLast hne]) := by rw [← hxs]
      _ = (x :: front) ++ a :: (back ++ [xs.getLast hne]) := by simp
  · rintro ⟨front, back, hfront, hback, rfl⟩
    obtain ⟨x, front, rfl⟩ := List.exists_cons_of_ne_nil hfront
    rw [List.cons_append, List.tail_cons, List.dropLast_append_of_ne_nil (List.cons_ne_nil _ _),
      List.dropLast_cons_of_ne_nil hback]
    exact List.mem_append_right _ List.mem_cons_self

/-- **Words between spaces.** A word stands between two spaces of a text exactly where it is one of
its words and neither the first nor the last. -/
theorem mem_innerWords_iff {word t : Text} (hword : ' ' ∉ word) :
    word ∈ innerWords t ↔ spaced word <:+: t := by
  rw [innerWords, mem_dropLast_tail_iff]
  constructor
  · rintro ⟨front, back, hfront, hback, hwords⟩
    obtain ⟨s, u, rfl, -, hu⟩ :=
      exists_of_words_eq_append hfront (List.cons_ne_nil word back) hwords
    obtain ⟨w, r, rfl, hw, -⟩ :=
      exists_of_words_eq_append (List.cons_ne_nil word []) hback hu
    have hsame : w = word := by
      apply segments_injective ' '
      rw [segments_of_notMem hword]
      exact hw
    exact ⟨s, r, by rw [hsame]; simp [spaced]⟩
  · rintro ⟨before, after, rfl⟩
    exact ⟨words before, words after, words_ne_nil before, words_ne_nil after,
      words_append_spaced hword before after⟩

theorem mem_words_of_isInfix {word t : Text} (hword : ' ' ∉ word) (h : spaced word <:+: t) :
    word ∈ words t :=
  List.mem_of_mem_tail (List.mem_of_mem_dropLast ((mem_innerWords_iff hword).2 h))

/-- What is no word of a text does not stand between spaces in it. -/
theorem breakOn?_spaced_eq_none {word t : Text} (hword : ' ' ∉ word) (h : word ∉ words t) :
    breakOn? (spaced word) t = none := by
  rw [breakOn?_eq_none_iff]
  intro hinfix
  exact h (mem_words_of_isInfix hword hinfix)

/-- **The only place of a word.** A text is cut where a word stands between spaces that is none of
the words on either side. -/
theorem breakOn?_spaced {word s t : Text} (hword : ' ' ∉ word) (hs : word ∉ words s)
    (ht : word ∉ words t) : breakOn? (spaced word) (s ++ spaced word ++ t) = some (s, t) := by
  cases h : breakOn? (spaced word) (s ++ spaced word ++ t) with
  | none =>
    have hinfix : spaced word <:+: s ++ spaced word ++ t := ⟨s, t, rfl⟩
    exact absurd hinfix (breakOn?_eq_none_iff.1 h)
  | some cut =>
    obtain ⟨before, rest⟩ := cut
    have htext := eq_append_of_breakOn? h
    have hwords : words before ++ word :: words rest = words s ++ word :: words t := by
      rw [← words_append_spaced hword, ← words_append_spaced hword, htext]
    -- The word is none of those of `s` and `t`, so the two lists agree on both sides of it.
    obtain ⟨hbefore, -, hrest⟩ := (List.append_cons_inj_of_notMem hs ht).1 hwords.symm
    rw [segments_injective ' ' hbefore, segments_injective ' ' hrest]

/-! ## Blanks around words -/

/-- Where two texts meet, the last word of the one and the first word of the other become one. -/
theorem exists_words_append (s t : Text) : ∃ front w v back, words s = front ++ [w] ∧
    words t = v :: back ∧ words (s ++ t) = front ++ (w ++ v) :: back := by
  induction s with
  | nil =>
    obtain ⟨v, back, hwords⟩ := List.exists_cons_of_ne_nil (words_ne_nil t)
    exact ⟨[], [], v, back, rfl, hwords, hwords⟩
  | cons c cs ih =>
    obtain ⟨front, w, v, back, hs, ht, hst⟩ := ih
    by_cases hc : c = ' '
    · subst hc
      exact ⟨[] :: front, w, v, back, by rw [words_space_cons, hs]; rfl, ht,
        by rw [List.cons_append, words_space_cons, hst]; rfl⟩
    · cases front with
      | nil => exact ⟨[], c :: w, v, back, words_cons_of_ne hc hs, ht, words_cons_of_ne hc hst⟩
      | cons x front =>
        exact ⟨(c :: x) :: front, w, v, back, words_cons_of_ne hc hs, ht,
          words_cons_of_ne hc hst⟩

/-- The words of a text have no other characters than the text. -/
theorem mem_of_mem_words {t w : Text} {c : Char} (hw : w ∈ words t) (hc : c ∈ w) : c ∈ t := by
  induction t generalizing w with
  | nil =>
    obtain rfl : w = [] := List.mem_singleton.1 hw
    exact hc
  | cons d t ih =>
    by_cases hd : d = ' '
    · rw [hd, words_space_cons] at hw
      rcases List.mem_cons.1 hw with rfl | hrest
      · exact absurd hc List.not_mem_nil
      · exact List.mem_cons_of_mem d (ih hrest hc)
    · obtain ⟨v, vs, hwords⟩ := List.exists_cons_of_ne_nil (words_ne_nil t)
      rw [words_cons_of_ne hd hwords] at hw
      rcases List.mem_cons.1 hw with rfl | hrest
      · rcases List.mem_cons.1 hc with rfl | hmem
        · exact List.mem_cons_self
        · exact List.mem_cons_of_mem d (ih (by rw [hwords]; exact List.mem_cons_self) hmem)
      · exact List.mem_cons_of_mem d
          (ih (by rw [hwords]; exact List.mem_cons_of_mem v hrest) hc)

variable {word lead t trail : Text}

/-- A word without blanks that is not empty. -/
def IsSolid (word : Text) : Prop := word ≠ [] ∧ ∀ c ∈ word, isBlank c = false

/-- What stands in a solid word and among blanks is nothing. -/
theorem IsSolid.eq_nil_of_blank (h : IsSolid word) {w blanks : Text} (hw : ∀ c ∈ w, c ∈ word)
    (hblanks : AllBlank blanks) (hwords : w ∈ words blanks) : w = [] := by
  rw [List.eq_nil_iff_forall_not_mem]
  intro c hc
  have hblank := hblanks c (mem_of_mem_words hwords hc)
  rw [h.2 c (hw c hc)] at hblank
  exact absurd hblank (by decide)

/-- Blanks behind a text add no solid word to it. -/
theorem IsSolid.mem_words_of_append (h : IsSolid word) (htrail : AllBlank trail)
    (hmem : word ∈ words (t ++ trail)) : word ∈ words t := by
  obtain ⟨front, w, v, back, ht, hblanks, happend⟩ := exists_words_append t trail
  rw [happend] at hmem
  rw [ht]
  rcases List.mem_append.1 hmem with hfront | hrest
  · exact List.mem_append_left _ hfront
  · rcases List.mem_cons.1 hrest with rfl | hback
    · have hv : v = [] := h.eq_nil_of_blank (fun c hc => List.mem_append_right w hc) htrail
        (by rw [hblanks]; exact List.mem_cons_self)
      rw [hv, List.append_nil]
      exact List.mem_append_right _ List.mem_cons_self
    · have hnil : word = [] := h.eq_nil_of_blank (fun c hc => hc) htrail
        (by rw [hblanks]; exact List.mem_cons_of_mem v hback)
      exact absurd hnil h.1

/-- Blanks in front of a text add no solid word to it. -/
theorem IsSolid.mem_words_of_lead (h : IsSolid word) (hlead : AllBlank lead)
    (hmem : word ∈ words (lead ++ t)) : word ∈ words t := by
  obtain ⟨front, w, v, back, hblanks, ht, happend⟩ := exists_words_append lead t
  rw [happend] at hmem
  rw [ht]
  rcases List.mem_append.1 hmem with hfront | hrest
  · have hnil : word = [] := h.eq_nil_of_blank (fun c hc => hc) hlead
      (by rw [hblanks]; exact List.mem_append_left _ hfront)
    exact absurd hnil h.1
  · rcases List.mem_cons.1 hrest with rfl | hback
    · have hw : w = [] := h.eq_nil_of_blank (fun c hc => List.mem_append_left v hc) hlead
        (by rw [hblanks]; exact List.mem_append_right _ List.mem_cons_self)
      rw [hw, List.nil_append]
      exact List.mem_cons_self
    · exact List.mem_cons_of_mem v hback

end HealthCheck.Text
