import HealthCheck.Proofs.Json.Reach
import HealthCheck.Proofs.Text.Cutting

/-!
# Joined paths

A path behind another one, with a dot between them, goes on from where the first one leads. Its
steps are those of the two paths one after the other (`steps_append_dot`), whatever blanks, dots and
brackets meet at the seam, since blanks around a step do not count.

The compact form of a container whose numbers are whole reads back, so a path into that text finds
what the joined path finds in the body: `eval_of_rendered`.
-/

namespace HealthCheck.JsonPath

/-! ## Reading steps -/

theorem stepsFrom_true_nil (read : Text) : stepsFrom true read [] = .error .unclosedBracket := rfl

theorem stepsFrom_false_nil (read : Text) :
    stepsFrom false read [] = .ok (keySteps read.reverse) := rfl

/-- A dot ends a key. -/
theorem stepsFrom_dot (read rest : Text) :
    stepsFrom false read ('.' :: rest) =
      (stepsFrom false [] rest).map (keySteps read.reverse ++ ·) := by
  show (stepsFrom false [] rest >>= fun steps => pure (keySteps read.reverse ++ steps)) = _
  cases stepsFrom false [] rest <;> rfl

/-- An opening bracket ends a key. -/
theorem stepsFrom_open (read rest : Text) :
    stepsFrom false read ('[' :: rest) =
      (stepsFrom true [] rest).map (keySteps read.reverse ++ ·) := by
  show (stepsFrom true [] rest >>= fun steps => pure (keySteps read.reverse ++ steps)) = _
  cases stepsFrom true [] rest <;> rfl

/-- A closing bracket ends an index. -/
theorem stepsFrom_close {read : Text} {s : Step} (h : indexStep read.reverse = .ok s)
    (rest : Text) :
    stepsFrom true read (']' :: rest) = (stepsFrom false [] rest).map ([s] ++ ·) := by
  show (indexStep read.reverse >>= fun step =>
    stepsFrom false [] rest >>= fun steps => pure (step :: steps)) = _
  rw [h]
  cases stepsFrom false [] rest <;> rfl

theorem stepsFrom_close_error {read : Text} {e : Error} (h : indexStep read.reverse = .error e)
    (rest : Text) : stepsFrom true read (']' :: rest) = .error e := by
  show (indexStep read.reverse >>= fun step =>
    stepsFrom false [] rest >>= fun steps => pure (step :: steps)) = _
  rw [h]
  rfl

theorem stepsFrom_true_cons {c : Char} (hclose : c ≠ ']') (read rest : Text) :
    stepsFrom true read (c :: rest) = stepsFrom true (c :: read) rest := by
  rw [stepsFrom]
  exact hclose

theorem stepsFrom_false_cons {c : Char} (hdot : c ≠ '.') (hbracket : c ≠ '[') (read rest : Text) :
    stepsFrom false read (c :: rest) = stepsFrom false (c :: read) rest := by
  rw [stepsFrom]
  · exact hdot
  · exact hbracket

/-! ## Blanks around steps -/

theorem keySteps_allBlank_append {s : Text} (hs : Text.AllBlank s) (t : Text) :
    keySteps (s ++ t) = keySteps t := by
  unfold keySteps
  rw [Text.trim_allBlank_append hs]

theorem keySteps_append_allBlank {s : Text} (hs : Text.AllBlank s) (t : Text) :
    keySteps (t ++ s) = keySteps t := by
  unfold keySteps
  rw [Text.trim_append_allBlank hs]

/-- The character ends the key, or the index, in which it stands. -/
def Ends : (inBrackets : Bool) → Char → Prop
  | true, c => c = ']'
  | false, c => c = '.' ∨ c = '['

/-- Other characters are read into the key or the index in which they stand. -/
theorem stepsFrom_append_of_not_ends {s : Text} {inBrackets : Bool}
    (hs : ∀ c ∈ s, ¬ Ends inBrackets c) (read t : Text) :
    stepsFrom inBrackets read (s ++ t) = stepsFrom inBrackets (s.reverse ++ read) t := by
  induction s generalizing read with
  | nil => rfl
  | cons c s ih =>
    have hc : ¬ Ends inBrackets c := hs c List.mem_cons_self
    have hread : stepsFrom inBrackets read (c :: (s ++ t)) =
        stepsFrom inBrackets (c :: read) (s ++ t) := by
      cases inBrackets with
      | true => exact stepsFrom_true_cons hc read (s ++ t)
      | false => exact stepsFrom_false_cons (not_or.1 hc).1 (not_or.1 hc).2 read (s ++ t)
    rw [List.cons_append, hread, ih fun d hd => hs d (List.mem_cons_of_mem c hd),
      List.reverse_cons, List.append_assoc]
    rfl

theorem not_ends_of_isBlank {c : Char} (h : Text.isBlank c = true) (inBrackets : Bool) :
    ¬ Ends inBrackets c := by
  intro hends
  cases inBrackets with
  | true =>
    obtain rfl : c = ']' := hends
    exact absurd h (by decide)
  | false =>
    rcases hends with rfl | rfl
    · exact absurd h (by decide)
    · exact absurd h (by decide)

/-- Blanks are read into the key or the index in which they stand. -/
theorem stepsFrom_allBlank_append {s : Text} (hs : Text.AllBlank s) (inBrackets : Bool)
    (read t : Text) :
    stepsFrom inBrackets read (s ++ t) = stepsFrom inBrackets (s.reverse ++ read) t :=
  stepsFrom_append_of_not_ends (fun c hc => not_ends_of_isBlank (hs c hc) inBrackets) read t

/-- Blanks in front of what has been read of a key do not count. -/
theorem stepsFrom_read_append {s : Text} (hs : Text.AllBlank s) (read t : Text) :
    stepsFrom false (read ++ s) t = stepsFrom false read t := by
  have hkey : ∀ r : Text, keySteps (r ++ s).reverse = keySteps r.reverse := by
    intro r
    rw [List.reverse_append]
    exact keySteps_allBlank_append (fun c hc => hs c (List.mem_reverse.1 hc)) _
  induction t generalizing read with
  | nil => rw [stepsFrom_false_nil, stepsFrom_false_nil, hkey]
  | cons c rest ih =>
    by_cases hdot : c = '.'
    · rw [hdot, stepsFrom_dot, stepsFrom_dot, hkey]
    · by_cases hbracket : c = '['
      · rw [hbracket, stepsFrom_open, stepsFrom_open, hkey]
      · rw [stepsFrom_false_cons hdot hbracket, stepsFrom_false_cons hdot hbracket,
          ← List.cons_append, ih]

/-- Blanks at the end of a path do not count. -/
theorem stepsFrom_append_allBlank {s : Text} (hs : Text.AllBlank s) (inBrackets : Bool)
    (read t : Text) : stepsFrom inBrackets read (t ++ s) = stepsFrom inBrackets read t := by
  induction inBrackets, read, t using stepsFrom.induct with
  | case1 read =>
    -- A bracket that is not closed stays open.
    have hend := stepsFrom_allBlank_append hs true read []
    rw [List.append_nil] at hend
    rw [List.nil_append, hend, stepsFrom_true_nil, stepsFrom_true_nil]
  | case2 read rest ih =>
    rw [List.cons_append]
    cases hindex : indexStep read.reverse with
    | error e => rw [stepsFrom_close_error hindex, stepsFrom_close_error hindex]
    | ok step => rw [stepsFrom_close hindex, stepsFrom_close hindex, ih]
  | case3 read c rest hclose ih =>
    rw [List.cons_append, stepsFrom_true_cons hclose, stepsFrom_true_cons hclose, ih]
  | case4 read =>
    have hend := stepsFrom_allBlank_append hs false read []
    rw [List.append_nil] at hend
    rw [List.nil_append, hend, stepsFrom_false_nil, stepsFrom_false_nil, List.reverse_append,
      List.reverse_reverse, keySteps_append_allBlank hs]
  | case5 read rest ih => rw [List.cons_append, stepsFrom_dot, stepsFrom_dot, ih]
  | case6 read rest ih => rw [List.cons_append, stepsFrom_open, stepsFrom_open, ih]
  | case7 read c rest hdot hbracket ih =>
    rw [List.cons_append, stepsFrom_false_cons hdot hbracket, stepsFrom_false_cons hdot hbracket,
      ih]

/-- A path has the same steps without trimming. -/
theorem steps_eq_stepsFrom (path : Text) : steps path = stepsFrom false [] path := by
  obtain ⟨lead, trail, hlead, htrail, hpath⟩ := Text.exists_blanks_around_trim path
  have hlead' : Text.AllBlank lead.reverse := fun c hc => hlead c (List.mem_reverse.1 hc)
  calc steps path
      = stepsFrom false ([] ++ lead.reverse) (Text.trim path) :=
        (stepsFrom_read_append hlead' [] _).symm
    _ = stepsFrom false [] (lead ++ Text.trim path) := by
        rw [stepsFrom_allBlank_append hlead, List.append_nil, List.nil_append]
    _ = stepsFrom false [] (lead ++ Text.trim path ++ trail) :=
        (stepsFrom_append_allBlank htrail false [] _).symm
    _ = stepsFrom false [] path := by rw [← hpath]

/-! ## Steps behind steps -/

theorem exists_of_map_eq_ok {α β : Type} {f : α → β} {x : Except Error α} {b : β}
    (h : x.map f = .ok b) : ∃ a, x = .ok a ∧ f a = b := by
  cases x with
  | error e => cases h
  | ok a => exact ⟨a, rfl, Except.ok.inj h⟩

/-- Steps in front of steps in front of what is read. -/
theorem map_append_map_append (ss ts : List Step) (x : Except Error (List Step)) :
    (x.map (ts ++ ·)).map (ss ++ ·) = x.map ((ss ++ ts) ++ ·) := by
  cases x with
  | error e => rfl
  | ok us => simp only [Except.map, List.append_assoc]

/-- What follows a dot is read afresh, behind a text that has steps. -/
theorem stepsFrom_append_dot {inBrackets : Bool} {read t : Text} {ss : List Step}
    (h : stepsFrom inBrackets read t = .ok ss) (rest : Text) :
    stepsFrom inBrackets read (t ++ '.' :: rest) =
      (stepsFrom false [] rest).map (ss ++ ·) := by
  induction inBrackets, read, t using stepsFrom.induct generalizing ss with
  | case1 read =>
    rw [stepsFrom_true_nil] at h
    cases h
  | case2 read t ih =>
    cases hindex : indexStep read.reverse with
    | error e =>
      rw [stepsFrom_close_error hindex] at h
      cases h
    | ok s =>
      rw [stepsFrom_close hindex] at h
      obtain ⟨ts, hts, rfl⟩ := exists_of_map_eq_ok h
      rw [List.cons_append, stepsFrom_close hindex, ih hts, map_append_map_append]
  | case3 read c t hclose ih =>
    rw [stepsFrom_true_cons hclose] at h
    rw [List.cons_append, stepsFrom_true_cons hclose, ih h]
  | case4 read =>
    rw [stepsFrom_false_nil] at h
    obtain rfl := Except.ok.inj h
    rw [List.nil_append, stepsFrom_dot]
  | case5 read t ih =>
    rw [stepsFrom_dot] at h
    obtain ⟨ts, hts, rfl⟩ := exists_of_map_eq_ok h
    rw [List.cons_append, stepsFrom_dot, ih hts, map_append_map_append]
  | case6 read t ih =>
    rw [stepsFrom_open] at h
    obtain ⟨ts, hts, rfl⟩ := exists_of_map_eq_ok h
    rw [List.cons_append, stepsFrom_open, ih hts, map_append_map_append]
  | case7 read c t hdot hbracket ih =>
    rw [stepsFrom_false_cons hdot hbracket] at h
    rw [List.cons_append, stepsFrom_false_cons hdot hbracket, ih h]

/-- The steps of a joined path are those of its parts, one after the other. -/
theorem steps_append_dot {p : Text} {ss : List Step} (h : steps p = .ok ss) (q : Text) :
    steps (p ++ '.' :: q) = (steps q).map (ss ++ ·) := by
  rw [steps_eq_stepsFrom] at h
  rw [steps_eq_stepsFrom, steps_eq_stepsFrom, stepsFrom_append_dot h]

/-- Steps behind others are followed from where those lead. -/
theorem follow_append {ss : List Step} {v w : Json} (h : follow ss v = .ok w) (ts : List Step) :
    follow (ss ++ ts) v = follow ts w := by
  induction ss generalizing v with
  | nil =>
    obtain rfl := Except.ok.inj h
    rfl
  | cons s ss ih =>
    rw [follow] at h
    rw [List.cons_append, follow]
    cases htake : take s v with
    | error e => rw [htake] at h; cases h
    | ok x =>
      rw [htake] at h
      exact ih h

/-! ## Paths into rendered text -/

/-- A path leads to a value in a body. -/
def Finds (path : Text) (body : Bytes) (v : Json) : Prop :=
  ∃ root ss, Json.parseBytes? body = some root ∧ steps path = .ok ss ∧ follow ss root = .ok v

/-- A container shows as its compact form, at the root of a body as inside. -/
theorem render_of_isContainer {v : Json} (h : v.isContainer = true) :
    (render v).1 = v.compact ∧ renderRoot v = render v := by
  cases v with
  | array items => exact ⟨rfl, rfl⟩
  | object fields => exact ⟨rfl, rfl⟩
  | _ => exact absurd h Bool.false_ne_true

/-- What stands at the end of the steps is shown, unless it is a whole body that is a scalar. -/
theorem eval_eq_map_render {path : Text} {ss : List Step} {body : Bytes} {root : Json}
    (hsteps : steps path = .ok ss) (hroot : Json.parseBytes? body = some root)
    (hcontainer : ss = [] → root.isContainer = true) :
    eval path body = (follow ss root).map render := by
  rw [eval_of_steps hsteps, hroot]
  cases ss with
  | nil =>
    show Except.ok (renderRoot root) = .ok (render root)
    rw [(render_of_isContainer (hcontainer rfl)).2]
  | cons s ss => rfl

/-- **Paths compose through rendered text.** Where a path leads to an array or an object of a body
whose numbers are whole, a path into the text of that container comes to what the joined path comes
to in the body, errors included. -/
theorem eval_of_rendered {body : Bytes} {root : Json} (hroot : Json.parseBytes? body = some root)
    (hnumbers : ∀ n ∈ root.numbers, Json.IsWord n) {p : Text} {v : Json} (hv : Finds p body v)
    (hcontainer : v.isContainer = true) {t : Text} {length : Nat}
    (ht : eval p body = .ok (t, length)) (q : Text) :
    eval q (Utf8.encode t) = eval (p ++ '.' :: q) body := by
  obtain ⟨root', ss, hroot', hsteps, hfollow⟩ := hv
  obtain rfl : root = root' := Option.some.inj (hroot.symm.trans hroot')
  have hempty : ss = [] → root.isContainer = true := by
    rintro rfl
    rwa [Except.ok.inj hfollow]
  have hread : Json.parseBytes? (Utf8.encode t) = some v := by
    have hshaped : root.Shaped (fun _ => True) Json.maxDepth := by
      obtain ⟨u, -, hparse⟩ := Option.bind_eq_some_iff.1 hroot
      exact Json.shaped_of_parse? hparse
    have hinside := (follow_shaped (hshaped.restrict hnumbers) hfollow).2.1
    rw [eval_eq_map_render hsteps hroot hempty, hfollow] at ht
    rw [show t = (render v).1 from (congrArg Prod.fst (Except.ok.inj ht)).symm,
      (render_of_isContainer hcontainer).1]
    exact Json.parseBytes?_compact (hinside.mono (Nat.sub_le _ _))
  have hjoined := steps_append_dot hsteps q
  cases hq : steps q with
  | error e =>
    -- The second path is refused as such, by itself and behind the first one.
    rw [hq] at hjoined
    rw [eval, eval, hq, hjoined]
    rfl
  | ok ts =>
    rw [hq] at hjoined
    have hends : ss ++ ts = [] → root.isContainer = true := fun h =>
      hempty (List.append_eq_nil_iff.1 h).1
    calc eval q (Utf8.encode t)
        = (follow ts v).map render := eval_eq_map_render hq hread fun _ => hcontainer
      _ = (follow (ss ++ ts) root).map render := by rw [follow_append hfollow]
      _ = eval (p ++ '.' :: q) body := (eval_eq_map_render hjoined hroot hends).symm

/-- A document with an array inside. -/
def usersDocument : Json :=
  .object [("users".toList, .array [.object [("id".toList, .int 7)], .null])]

/-- A path into the text of the users comes to what the joined path comes to. -/
theorem usersDocument_composes :
    Json.parseBytes? (Utf8.encode usersDocument.compact) = some usersDocument ∧
      (∀ n ∈ usersDocument.numbers, Json.IsWord n) ∧
      Finds " users".toList (Utf8.encode usersDocument.compact)
        (.array [.object [("id".toList, .int 7)], .null]) ∧
      eval " users".toList (Utf8.encode usersDocument.compact) =
        .ok ("[\x7b\"id\":7\x7d,null]".toList, 2) ∧
      eval "[0].id".toList (Utf8.encode "[\x7b\"id\":7\x7d,null]".toList) =
        eval " users.[0].id".toList (Utf8.encode usersDocument.compact) := by
  have hroot : Json.parseBytes? (Utf8.encode usersDocument.compact) = some usersDocument := rfl
  have hnumbers : ∀ n ∈ usersDocument.numbers, Json.IsWord n := by
    intro n hn
    rw [List.mem_singleton.1 hn]
    exact ⟨7, rfl, by decide, by decide⟩
  have hv : Finds " users".toList (Utf8.encode usersDocument.compact)
      (.array [.object [("id".toList, .int 7)], .null]) := ⟨usersDocument, _, hroot, rfl, rfl⟩
  have ht : eval " users".toList (Utf8.encode usersDocument.compact) =
      .ok ("[\x7b\"id\":7\x7d,null]".toList, 2) := rfl
  exact ⟨hroot, hnumbers, hv, ht, eval_of_rendered hroot hnumbers hv rfl ht "[0].id".toList⟩

end HealthCheck.JsonPath
