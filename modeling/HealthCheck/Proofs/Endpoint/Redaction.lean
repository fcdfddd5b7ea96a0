import HealthCheck.Proofs.Endpoint.Evaluation
import HealthCheck.Proofs.Text.Replacing
import Mathlib.Data.List.Forall2

/-!
# Redaction

Redaction changes the hostname, the errors and the outcomes of a probe result and nothing else, so
it neither changes what was observed nor the verdict (`Endpoint.redact_eq`). An error from which a
hostname has been scrubbed does not contain it any more, unless the hostname occurs in the mark that
takes its place or shares a bracket with it (`Endpoint.not_infix_scrub`). What is left is the error
as it was, with the hostname replaced wherever it occurs (`Endpoint.forall₂_replaced_errors`).
-/

namespace HealthCheck.Endpoint

/-! ## Scrubbing -/

/-- An error without a hostname, which is not looked for where it is empty. -/
def scrub (hostname error : Text) : Text :=
  if hostname = [] then error else Text.replace hostname redacted error

/-- A hostname that cannot come back with the mark that takes its place: there is one, it has no
angle bracket, and it is no part of the word between the brackets. -/
structure Scrubbable (hostname : Text) : Prop where
  ne_nil : hostname ≠ []
  no_opening : '<' ∉ hostname
  no_closing : '>' ∉ hostname
  not_in_mark : ¬ hostname <:+: "redacted".toList

/-- Such a hostname is gone from an error that was scrubbed. -/
theorem not_infix_scrub {hostname : Text} (h : Scrubbable hostname) (error : Text) :
    ¬ hostname <:+: scrub hostname error := by
  have hmark : redacted = '<' :: ("redacted".toList ++ ['>']) := by decide
  rw [scrub, if_neg h.ne_nil, hmark]
  exact Text.not_infix_replace h.ne_nil h.no_opening h.no_closing h.not_in_mark error

/-! ## Redacted results -/

/-- **Redaction.** The settings decide about the hostname, the errors and the outcomes, and all else
stays. -/
theorem redact_eq (ui : UiSettings) (p : Probe) :
    redact ui p =
      { p with
        hostname := if ui.hideHostname then [] else p.hostname
        errors :=
          if ui.hideErrors then []
          else if ui.hideHostname then p.errors.map (scrub p.hostname)
          else p.errors
        conditionOutcomes := if ui.hideConditions then [] else p.conditionOutcomes } := by
  have hhide : hideHostname p =
      { p with hostname := [], errors := p.errors.map (scrub p.hostname) } := by
    unfold hideHostname
    by_cases h : p.hostname = []
    · have hscrub : scrub p.hostname = id := by
        funext error
        exact if_pos h
      rw [if_pos h, hscrub, List.map_id]
      exact congrArg (fun hostname => { p with hostname := hostname }) h
    · have hscrub : scrub p.hostname = Text.replace p.hostname redacted := by
        funext error
        exact if_neg h
      rw [if_neg h, hscrub]
  unfold redact
  rw [hhide]
  cases ui.hideHostname <;> cases ui.hideErrors <;> cases ui.hideConditions <;> rfl

theorem errors_redact_of_hideErrors {ui : UiSettings} (h : ui.hideErrors = true) (p : Probe) :
    (redact ui p).errors = [] := by
  rw [redact_eq, h]
  rfl

theorem hostname_redact_of_hideHostname {ui : UiSettings} (h : ui.hideHostname = true)
    (p : Probe) : (redact ui p).hostname = [] := by
  rw [redact_eq, h]
  rfl

/-- No error of a redacted result has a hidden hostname in it. -/
theorem not_infix_of_mem_errors_redact {ui : UiSettings} (h : ui.hideHostname = true) {p : Probe}
    (hhost : Scrubbable p.hostname) {error : Text} (herror : error ∈ (redact ui p).errors) :
    ¬ p.hostname <:+: error := by
  rw [redact_eq, h] at herror
  cases hhide : ui.hideErrors with
  | true =>
    rw [hhide] at herror
    exact absurd herror (by simp)
  | false =>
    rw [hhide] at herror
    obtain ⟨recorded, -, rfl⟩ := List.mem_map.1 herror
    exact not_infix_scrub hhost recorded

/-- Redaction does not change the verdict. -/
theorem success_redact (ui : UiSettings) (p : Probe) : (redact ui p).success = p.success := by
  rw [redact_eq]

/-- Neither redaction nor the point in time changes the verdict of an endpoint. -/
theorem success_healthResult_iff {e : Endpoint} {context : Option Context}
    (h : ¬ e.Overflows context) (now : Timestamp) :
    (e.healthResult now context).success = true ↔ e.Healthy context := by
  rw [healthResult, success_redact]
  exact success_openResult_iff h

/-- Of an endpoint that hides its hostname, no error has that hostname in it. -/
theorem not_infix_of_mem_errors_healthResult {e : Endpoint} (h : e.ui.hideHostname = true)
    (hhost : Scrubbable e.result.hostname) {now : Timestamp} {context : Option Context}
    {error : Text} (herror : error ∈ (e.healthResult now context).errors) :
    ¬ e.result.hostname <:+: error :=
  not_infix_of_mem_errors_redact (p := { e.openResult context with timestamp := some now }) h hhost
    herror

/-- Errors that are not hidden keep their number and their order: each is the one that was there
before, with the hostname replaced wherever it occurs. -/
theorem forall₂_replaced_errors {e : Endpoint} (h : e.ui.hideHostname = true)
    (hne : e.result.hostname ≠ []) (hshow : e.ui.hideErrors = false) (now : Timestamp)
    (context : Option Context) :
    List.Forall₂ (Text.Replaced e.result.hostname redacted) (e.openResult context).errors
      (e.healthResult now context).errors := by
  have herrors : (e.healthResult now context).errors =
      (e.openResult context).errors.map (scrub e.result.hostname) := by
    rw [healthResult, redact_eq, h, hshow]
    rfl
  rw [herrors, List.forall₂_map_right_iff, List.forall₂_same]
  intro error _
  rw [scrub, if_neg hne]
  exact Text.replaced_replace hne redacted error

/-- Evaluating and redacting do not change what was observed. -/
theorem sameObservations_healthResult (e : Endpoint) (now : Timestamp)
    (context : Option Context) : (e.healthResult now context).SameObservations e.result := by
  rw [healthResult, redact_eq]
  exact fun ph => Probe.SameObservations.refl e.result ph

/-- **Hidden hostnames.** The result of an endpoint that hides its hostname has neither the hostname
nor an error with the hostname in it. Unless errors are hidden too, they are as many as before
redaction and in the same order, each with the hostname replaced wherever it occurs and all else
kept; what was there before are the recorded errors and, behind them, the rejections of invalid
conditions. -/
theorem hidden_hostname_is_scrubbed {e : Endpoint} (hhide : e.ui.hideHostname = true)
    (hhost : Scrubbable e.result.hostname) {now : Timestamp} {context : Option Context} {q : Probe}
    (hq : e.evaluateHealth now context = .ok q) :
    q.hostname = [] ∧
    (∀ error ∈ q.errors, ¬ e.result.hostname <:+: error) ∧
    (e.ui.hideErrors = true → q.errors = []) ∧
    ∃ o, e.evaluateOpenly context = .ok o ∧
      (e.ui.hideErrors = false →
        List.Forall₂ (Text.Replaced e.result.hostname redacted) o.errors q.errors) ∧
      e.result.errors <+: o.errors ∧
      (∀ error, error ∈ o.errors ↔
        error ∈ e.result.errors ∨ ∃ c ∈ e.conditions, c.split = none ∧ error = c.rejection) := by
  obtain ⟨hover, rfl⟩ := evaluateHealth_eq_ok_iff.1 hq
  obtain ⟨hrecorded, hall⟩ := errors_openResult e context
  refine ⟨hostname_redact_of_hideHostname hhide _, ?_, ?_, _,
    evaluateOpenly_eq_ok_iff.2 ⟨hover, rfl⟩, ?_, hrecorded, hall⟩
  · intro error herror
    exact not_infix_of_mem_errors_healthResult hhide hhost herror
  · intro hhideErrors
    exact errors_redact_of_hideErrors hhideErrors _
  · intro hshow
    exact forall₂_replaced_errors hhide hhost.ne_nil hshow now context

/-- An endpoint whose hostname overlaps itself, stands in a recorded error and in the text of an
invalid condition. -/
def echoingEndpoint : Endpoint where
  name := "echo".toList
  conditions := [⟨"[BODY] is nana.na".toList⟩]
  ui := { hideHostname := true }
  store := ⟨[], List.nodup_nil⟩
  result := { hostname := "na.na".toList, errors := ["dial na.na.na: refused".toList] }

/-- A time at which the endpoint is evaluated. -/
def echoTime : Timestamp :=
  ⟨⟨2025, 11, 3⟩, 754, 31, 250000000, by decide, by decide, by decide, by decide⟩

/-- Overlapping occurrences are one place each, and what is left over is no occurrence. -/
theorem echoingEndpoint_is_scrubbed :
    echoingEndpoint.ui.hideHostname = true ∧ Scrubbable echoingEndpoint.result.hostname ∧
      ∃ q o, echoingEndpoint.evaluateHealth echoTime none = .ok q ∧
        echoingEndpoint.evaluateOpenly none = .ok o ∧ q.hostname = [] ∧
        (∀ error ∈ q.errors, ¬ echoingEndpoint.result.hostname <:+: error) ∧
        q.errors = ["dial <redacted>.na: refused".toList,
          "invalid condition: [BODY] is na<redacted>".toList] ∧
        List.Forall₂ (Text.Replaced echoingEndpoint.result.hostname redacted) o.errors
          q.errors := by
  have hhide : echoingEndpoint.ui.hideHostname = true := rfl
  have hhost : Scrubbable echoingEndpoint.result.hostname :=
    ⟨by decide, by decide, by decide, by decide⟩
  have hover : ¬ echoingEndpoint.Overflows none := by decide +kernel
  have hq : echoingEndpoint.evaluateHealth echoTime none = .ok _ :=
    evaluateHealth_eq_ok_iff.2 ⟨hover, rfl⟩
  obtain ⟨hgone, hclean, -, o, ho, hreplaced, -⟩ := hidden_hostname_is_scrubbed hhide hhost hq
  exact ⟨hhide, hhost, _, o, hq, ho, hgone, hclean, by decide +kernel, hreplaced rfl⟩

end HealthCheck.Endpoint
