import HealthCheck.Proofs.Condition.Sight

/-!
# One lookup under three wrappers

An operand that names a place, in the body or in a context, is looked up there once, whether it
stands alone, in `len(...)` or in `has(...)`: `resolve_wrap`. So either all three show that
something is there, as its text, its length and `true`, or all three show that nothing is
(`wrappers_agree`). Of any other text `has` still makes a truth value, and `len` a numeral or a
failed lookup.
-/

namespace HealthCheck

namespace Operand

/-! ## Operands that start with a placeholder -/

/-- The text is a placeholder, in any case of letters, with something behind it. -/
def StartsWith (x : Text) (ph : Placeholder) (rest : Text) : Prop :=
  ∃ token, Text.sameIgnoringCase token ph.token = true ∧ x = token ++ rest

/-- A token in any case of letters is taken off. -/
theorem strip?_of_startsWith {x rest : Text} {ph : Placeholder} (h : StartsWith x ph rest) :
    ph.strip? x = some rest := by
  obtain ⟨token, htoken, rfl⟩ := h
  have hlength := Placeholder.length_of_sameIgnoringCase htoken
  rw [Placeholder.strip?_eq_some_iff, ← hlength, List.take_left, List.drop_left]
  exact ⟨htoken, rfl⟩

theorem startsWith_of_strip? {x rest : Text} {ph : Placeholder} (h : ph.strip? x = some rest) :
    StartsWith x ph rest := by
  obtain ⟨hsame, rfl⟩ := Placeholder.strip?_eq_some_iff.1 h
  exact ⟨_, hsame, (List.take_append_drop _ _).symm⟩

/-- A placeholder starts with itself. -/
theorem startsWith_of_ofToken? {x : Text} {ph : Placeholder}
    (h : Placeholder.ofToken? x = some ph) : StartsWith x ph [] := by
  have hsame := Placeholder.sameIgnoringCase_of_ofToken? h
  rw [Text.sameIgnoringCase, beq_iff_eq] at hsame
  exact ⟨x, beq_iff_eq.2 hsame.symm, (List.append_nil x).symm⟩

/-- Without regard to case, the text begins with the letters of the placeholder. -/
theorem map_toLower_of_startsWith {x rest : Text} {ph : Placeholder} (h : StartsWith x ph rest) :
    x.map Char.toLower = ph.token.map Char.toLower ++ rest.map Char.toLower := by
  obtain ⟨token, htoken, rfl⟩ := h
  rw [List.map_append, beq_iff_eq.1 htoken]

/-- Every placeholder begins with a bracket. -/
theorem exists_head_of_startsWith {x rest : Text} {ph : Placeholder} (h : StartsWith x ph rest) :
    ∃ c t, x = c :: t ∧ c.toLower = '[' := by
  have hbracket : ∃ more, ph.token.map Char.toLower = '[' :: more := by
    cases ph <;> exact ⟨_, rfl⟩
  obtain ⟨more, hmore⟩ := hbracket
  have hlower := map_toLower_of_startsWith h
  rw [hmore] at hlower
  cases x with
  | nil => exact absurd hlower.symm (List.cons_ne_nil _ _)
  | cons c t => exact ⟨c, t, rfl, (List.cons.inj hlower).1⟩

/-- What begins with no bracket starts with no placeholder. -/
theorem not_startsWith_of_head {c : Char} (hc : c.toLower ≠ '[') (t : Text) (ph : Placeholder)
    (rest : Text) : ¬ StartsWith (c :: t) ph rest := by
  intro h
  obtain ⟨c', t', heq, hc'⟩ := exists_head_of_startsWith h
  exact hc ((List.cons.inj heq).1 ▸ hc')

theorem strip?_of_head {c : Char} (hc : c.toLower ≠ '[') (t : Text) (ph : Placeholder) :
    ph.strip? (c :: t) = none := by
  rw [Option.eq_none_iff_forall_ne_some]
  exact fun rest h => not_startsWith_of_head hc t ph rest (startsWith_of_strip? h)

theorem ofToken?_of_head {c : Char} (hc : c.toLower ≠ '[') (t : Text) :
    Placeholder.ofToken? (c :: t) = none := by
  rw [Option.eq_none_iff_forall_ne_some]
  exact fun ph h => not_startsWith_of_head hc t ph [] (startsWith_of_ofToken? h)

/-- What does not begin like a wrapper has none around it. -/
theorem unwrap_of_head {c : Char} (hl : c ≠ 'l') (hh : c ≠ 'h') (t : Text) :
    Wrapper.unwrap (c :: t) = (.none, c :: t) := by
  unfold Wrapper.unwrap
  split
  · rename_i inner hinner
    exact absurd (List.cons.inj (Text.between?_eq_some_iff.1 hinner)).1 hl
  · split
    · rename_i inner hinner
      exact absurd (List.cons.inj (Text.between?_eq_some_iff.1 hinner)).1 hh
    · rfl

/-- What begins neither like a placeholder nor like a wrapper stands for itself. -/
theorem resolve_literal {c : Char} {t : Text} (htrim : Text.trim (c :: t) = c :: t)
    (hbracket : c.toLower ≠ '[') (hl : c ≠ 'l') (hh : c ≠ 'h') (p : Probe)
    (context : Option Context) : resolve (c :: t) p context = .found (c :: t) := by
  have hunwrap : Wrapper.unwrap (Text.trim (c :: t)) = (.none, c :: t) := by
    rw [htrim, unwrap_of_head hl hh]
  have hwrapper : wrapper (c :: t) = .none := by rw [wrapper, hunwrap]
  have hcore : core (c :: t) = c :: t := by rw [core, hunwrap]
  have hstrip : ∀ ph : Placeholder, ph.strip? (core (c :: t)) = none := by
    intro ph
    rw [hcore, strip?_of_head hbracket]
  have hnone : resolve (c :: t) p none = .found (c :: t) := by
    rw [resolve_of_nothing, hwrapper, htrim]
    · rw [hcore, ofToken?_of_head hbracket]
      rfl
    · rw [bodyPath?, hstrip]
  rw [resolve_of_strip?_none (hstrip .context), hnone]

/-- What starts with a placeholder has no wrapper around it. -/
theorem unwrap_of_startsWith {x rest : Text} {ph : Placeholder} (h : StartsWith x ph rest) :
    Wrapper.unwrap x = (.none, x) := by
  obtain ⟨c, t, rfl, hc⟩ := exists_head_of_startsWith h
  have hl : c ≠ 'l' := by rintro rfl; exact absurd hc (by decide)
  have hh : c ≠ 'h' := by rintro rfl; exact absurd hc (by decide)
  exact unwrap_of_head hl hh t

/-- What starts with another placeholder is no path behind `[CONTEXT]`: neither of two placeholders
begins with the other. -/
theorem strip?_context_of_startsWith {x rest : Text} {ph : Placeholder}
    (h : StartsWith x ph rest) (hne : ph ≠ .context) : Placeholder.context.strip? x = none := by
  rw [Option.eq_none_iff_forall_ne_some]
  intro path hstrip
  have hcontext : Placeholder.context.token.map Char.toLower <+: x.map Char.toLower :=
    ⟨_, (map_toLower_of_startsWith (startsWith_of_strip? hstrip)).symm⟩
  have hother : ph.token.map Char.toLower <+: x.map Char.toLower :=
    ⟨_, (map_toLower_of_startsWith h).symm⟩
  have hnested := List.prefix_or_prefix_of_prefix hcontext hother
  cases ph with
  | context => exact hne rfl
  | _ => exact absurd hnested (by decide)

/-- The token for the body and a path behind it are a path into the body. -/
theorem bodyPath?_of_startsWith {x path : Text} (h : StartsWith x .body path)
    (hpath : path.head? = some '.' ∨ path.head? = some '[') : bodyPath? x = some path := by
  rw [bodyPath?, strip?_of_startsWith h]
  rcases hpath with hdot | hbracket
  · obtain ⟨rest, rfl⟩ := List.head?_eq_some_iff.1 hdot
    rfl
  · obtain ⟨rest, rfl⟩ := List.head?_eq_some_iff.1 hbracket
    rfl

/-! ## Wrapped operands -/

/-- What was wrapped is unwrapped. -/
theorem unwrap_wrap {w : Wrapper} (hw : w ≠ .none) (x : Text) :
    Wrapper.unwrap (w.wrap x) = (w, x) := by
  cases w with
  | none => exact absurd rfl hw
  | length =>
    have hlength : Text.between? "len(".toList ")".toList (Wrapper.length.wrap x) = some x :=
      Text.between?_append _ _ _
    rw [Wrapper.unwrap, hlength]
  | presence =>
    have hlength : Text.between? "len(".toList ")".toList (Wrapper.presence.wrap x) = none := rfl
    have hpresence : Text.between? "has(".toList ")".toList (Wrapper.presence.wrap x) = some x :=
      Text.between?_append _ _ _
    rw [Wrapper.unwrap, hlength, hpresence]

theorem trim_wrap {w : Wrapper} (hw : w ≠ .none) (x : Text) :
    Text.trim (w.wrap x) = w.wrap x := by
  have hend : ∀ front : Text, ¬ Text.EndsBlank (front ++ ")".toList) :=
    Text.not_endsBlank_concat (c := ')') (by decide)
  cases w with
  | none => exact absurd rfl hw
  | length => exact Text.trim_of_ends (c := 'l') rfl (by decide) (hend _)
  | presence => exact Text.trim_of_ends (c := 'h') rfl (by decide) (hend _)

/-- What stands in a wrapper is found in it again. Without a wrapper that asks for a text without
blanks at its ends. -/
theorem parts_of_startsWith {x rest : Text} {ph : Placeholder} (h : StartsWith x ph rest)
    {w : Wrapper} (hx : w = .none → Text.trim x = x) :
    Text.trim (w.wrap x) = w.wrap x ∧ wrapper (w.wrap x) = w ∧ core (w.wrap x) = x := by
  have htrim : Text.trim (w.wrap x) = w.wrap x := by
    by_cases hw : w = .none
    · rw [hw]
      exact hx hw
    · exact trim_wrap hw x
  have hunwrap : Wrapper.unwrap (w.wrap x) = (w, x) := by
    by_cases hw : w = .none
    · rw [hw]
      exact unwrap_of_startsWith h
    · exact unwrap_wrap hw x
  exact ⟨htrim, by rw [wrapper, htrim, hunwrap], by rw [core, htrim, hunwrap]⟩

variable {w : Wrapper} {x path : Text}

/-- Under every wrapper a path into the body is looked up in the body. -/
theorem resolve_wrap_body (h : StartsWith x .body path)
    (hpath : path.head? = some '.' ∨ path.head? = some '[') (hx : w = .none → Text.trim x = x)
    (p : Probe) (context : Option Context) :
    resolve (w.wrap x) p context = ofLookup w (w.wrap x) (lookupBody path p.body) := by
  obtain ⟨htrim, hwrapper, hcore⟩ := parts_of_startsWith h hx
  have hstrip : Placeholder.context.strip? (core (w.wrap x)) = none := by
    rw [hcore]
    exact strip?_context_of_startsWith h (by decide)
  have hbody : bodyPath? (core (w.wrap x)) = some path := by
    rw [hcore]
    exact bodyPath?_of_startsWith h hpath
  rw [resolve_of_strip?_none hstrip, resolve_of_bodyPath? hbody, hwrapper, htrim]

/-- Under every wrapper a path into a context is looked up there. -/
theorem resolve_wrap_context (h : StartsWith x .context path)
    (hx : w = .none → Text.trim x = x) (p : Probe) (c : Context) :
    resolve (w.wrap x) p (some c) = ofLookup w (w.wrap x) (lookupContext path c) := by
  obtain ⟨htrim, hwrapper, hcore⟩ := parts_of_startsWith h hx
  have hstrip : Placeholder.context.strip? (core (w.wrap x)) = some path := by
    rw [hcore]
    exact strip?_of_startsWith h
  rw [resolve_some_of_strip? hstrip, hwrapper, htrim]

/-! ## The three wrappers together -/

/-- Alone, in `len(...)` and in `has(...)`, an operand shows one lookup: the text and the length of
what it found, or that it found nothing. -/
inductive Shows (p : Probe) (context : Option Context) (x : Text) : Option (Text × Nat) → Prop
  | found {t : Text} {n : Nat}
    (presence : (resolve (Wrapper.presence.wrap x) p context).text = "true".toList)
    (length : (resolve (Wrapper.length.wrap x) p context).text = Text.ofNat n)
    (plain : (resolve x p context).text = t) : Shows p context x (some (t, n))
  | missing
    (presence : (resolve (Wrapper.presence.wrap x) p context).text = "false".toList)
    (length : (resolve (Wrapper.length.wrap x) p context).text =
      Wrapper.length.wrap x ++ " (INVALID)".toList)
    (plain : (resolve x p context).text = x ++ " (INVALID)".toList) : Shows p context x none

/-- What is looked up in the same way under every wrapper is shown by all of them. -/
theorem shows_of_resolve_wrap {p : Probe} {context : Option Context}
    {found : Option (Text × Nat)}
    (h : ∀ w : Wrapper, resolve (w.wrap x) p context = ofLookup w (w.wrap x) found) :
    Shows p context x found := by
  have hplain : resolve x p context = ofLookup .none x found := h .none
  cases found with
  | none =>
    refine .missing ?_ ?_ ?_
    · rw [h]; rfl
    · rw [h]; rfl
    · rw [hplain]; rfl
  | some r =>
    refine .found ?_ ?_ ?_
    · rw [h]; rfl
    · rw [h]; rfl
    · rw [hplain]; rfl

/-- What stands at a path in a context, and its length; the empty path leads nowhere. -/
theorem lookupContext_eq (path : Text) (c : Context) :
    lookupContext path c =
      if dropDot path = [] then none
      else (c.get (dropDot path)).toOption.map fun v => (JsonPath.text v, contextLength v) := by
  simp only [lookupContext]
  split_ifs with hempty
  · rfl
  · cases c.get (dropDot path) <;> rfl

/-- **One lookup under three wrappers.** Of any text `has` makes a truth value, and `len` a numeral
or a failed lookup. Where the text is a path into the body, or one into a context that is there, all
three wrappers show the one lookup of that path. -/
theorem wrappers_agree (x : Text) (p : Probe) (context : Option Context) :
    ((∃ b, (resolve (Wrapper.presence.wrap x) p context).text = Text.ofBool b) ∧
      ((∃ n, (resolve (Wrapper.length.wrap x) p context).text = Text.ofNat n) ∨
        (resolve (Wrapper.length.wrap x) p context).text =
          Wrapper.length.wrap x ++ " (INVALID)".toList)) ∧
    (Text.trim x = x →
      (∀ path, StartsWith x .body path →
        (path.head? = some '.' ∨ path.head? = some '[') →
        Shows p context x (JsonPath.eval (dropDot path) p.body).toOption) ∧
      ∀ path c, StartsWith x .context path → context = some c →
        Shows p context x (if dropDot path = [] then none
          else (c.get (dropDot path)).toOption.map fun v =>
            (JsonPath.text v, contextLength v))) := by
  have hpresence : wrapper (Wrapper.presence.wrap x) = .presence := by
    rw [wrapper, trim_wrap (by decide), unwrap_wrap (by decide)]
  have hlength : wrapper (Wrapper.length.wrap x) = .length := by
    rw [wrapper, trim_wrap (by decide), unwrap_wrap (by decide)]
  refine ⟨⟨?_, ?_⟩, fun hx => ⟨fun path hbody hpath => ?_, fun path c hstarts hc => ?_⟩⟩
  · obtain ⟨b, hb⟩ := resolve_presence hpresence p context
    exact ⟨b, by rw [hb]; rfl⟩
  · rcases resolve_length hlength p context with ⟨n, hn⟩ | hfailed
    · exact Or.inl ⟨n, by rw [hn]; rfl⟩
    · rw [trim_wrap (by decide)] at hfailed
      exact Or.inr (by rw [hfailed]; rfl)
  · exact shows_of_resolve_wrap fun w => resolve_wrap_body hbody hpath (fun _ => hx) p context
  · rw [hc, ← lookupContext_eq]
    exact shows_of_resolve_wrap fun w => resolve_wrap_context hstarts (fun _ => hx) p c

/-- A body with a list in it. -/
def listProbe : Probe := { body := Utf8.encode "\x7b\"a\":[true,null]\x7d".toList }

/-- A context in which a text of two letters stands at a path of two keys. -/
def accountContext : Context :=
  [("account".toList, .object [("id".toList, .string "é7".toList)])]

/-- A list of two elements in a body shows under all wrappers, whatever the case of the
placeholder. -/
theorem listProbe_shows_list :
    (Text.trim "[Body].a".toList = "[Body].a".toList ∧
      StartsWith "[Body].a".toList .body ".a".toList) ∧
    Shows listProbe none "[Body].a".toList (some ("[true,null]".toList, 2)) ∧
    StartsWith "[CONTEXT].account.id".toList .context ".account.id".toList ∧
    Shows {} (some accountContext) "[CONTEXT].account.id".toList (some ("é7".toList, 2)) := by
  have hbody : StartsWith "[Body].a".toList .body ".a".toList :=
    ⟨"[Body]".toList, by decide, rfl⟩
  have hcontext : StartsWith "[CONTEXT].account.id".toList .context ".account.id".toList :=
    ⟨"[CONTEXT]".toList, by decide, rfl⟩
  have hlist : (JsonPath.eval (dropDot ".a".toList) listProbe.body).toOption =
      some ("[true,null]".toList, 2) := by decide +kernel
  have hid : (if dropDot ".account.id".toList = [] then none
      else (accountContext.get (dropDot ".account.id".toList)).toOption.map fun v =>
        (JsonPath.text v, contextLength v)) = some ("é7".toList, 2) := rfl
  have htrim : Text.trim "[Body].a".toList = "[Body].a".toList := by decide
  have htrimId : Text.trim "[CONTEXT].account.id".toList = "[CONTEXT].account.id".toList := by
    decide
  have hlistShown := ((wrappers_agree "[Body].a".toList listProbe none).2 htrim).1
    ".a".toList hbody (Or.inl rfl)
  have hidShown := ((wrappers_agree "[CONTEXT].account.id".toList {} (some accountContext)).2
    htrimId).2 ".account.id".toList accountContext hcontext rfl
  rw [hlist] at hlistShown
  rw [hid] at hidShown
  exact ⟨⟨htrim, hbody⟩, hlistShown, hcontext, hidShown⟩

end Operand

end HealthCheck
