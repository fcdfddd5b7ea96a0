import HealthCheck.Proofs.Condition.Operators
import HealthCheck.Proofs.Number.Saturation
import HealthCheck.Proofs.Operand.Wrappers

/-!
# The order of decimal operands

The placeholders for numbers come to decimal numerals (`Operand.resolve_of_number?`), which are
ordered as the nearest integers in range. That is monotone, and an ordering condition between two
operands that come to decimal texts is decided as the exact integers would be, as long as these are
in range: `Condition.decimal_operands_saturate`.
-/

namespace HealthCheck

/-- The number that a placeholder stands for, where it stands for one. -/
def Placeholder.number? (p : Probe) : Placeholder → Option Nat
  | .status => some p.status.toNat
  | .responseTime => some p.duration.toNat
  | .certificateExpiration => some p.certificateExpiration.toNat
  | .domainExpiration => some p.domainExpiration.toNat
  | _ => none

namespace Operand

/-- A placeholder for a number comes to the numeral of it, with and without a context. -/
theorem resolve_of_number? {operand : Text} {ph : Placeholder} {p : Probe} {n : Nat}
    (h : Placeholder.ofToken? (Text.trim operand) = some ph) (hn : ph.number? p = some n)
    (context : Option Context) : resolve operand p context = .found (Text.ofNat n) := by
  have hstarts := startsWith_of_ofToken? h
  have hunwrap := unwrap_of_startsWith hstarts
  have hwrapper : wrapper operand = .none := by rw [wrapper, hunwrap]
  have hcore : core operand = Text.trim operand := by rw [core, hunwrap]
  have hfixed : ofFixed (wrapper operand) p ph = some (Text.ofNat n) := by
    rw [hwrapper]
    cases ph <;> cases hn <;> rfl
  have hne : ph ≠ .context := by
    rintro rfl
    cases hn
  have hstrip : Placeholder.context.strip? (core operand) = none := by
    rw [hcore]
    exact strip?_context_of_startsWith hstarts hne
  rw [resolve_of_strip?_none hstrip]
  exact resolve_of_ofToken? (by rw [hcore]; exact h) hfixed

end Operand

/-- A decimal text is ordered as the nearest integer in range, and nothing overflows in it. -/
theorem Text.exactNumber_of_writesInt {t : Text} {n : Int} (h : WritesInt t n) :
    ¬ Duration.Overflows t ∧ t.exactNumber = Integer.clamp n := by
  have hnumber := toNumber_of_writesInt h
  have hover : ¬ Duration.Overflows t := by
    rw [← toNumber_eq_overflow_iff, hnumber]
    exact nofun
  rw [toNumber_of_not_overflows hover] at hnumber
  exact ⟨hover, Except.ok.inj hnumber⟩

namespace Condition

/-- An ordering between operands that come to decimal texts has an answer, which is what its
operator makes of the nearest integers in range. -/
theorem answer_ordering {c : Condition} {o : Operator} {first second : Text} (d : Display)
    {context : Option Context} {p : Probe} {m n : Int} (hsplit : c.split = some (o, first, second))
    (ho : o.isOrdering = true)
    (hfirst : Text.WritesInt (Operand.resolve first p context).text m)
    (hsecond : Text.WritesInt (Operand.resolve second p context).text n) :
    c.answer d context p = .ok (o.holds (Integer.clamp m) (Integer.clamp n)) := by
  obtain ⟨hoverFirst, hm⟩ := Text.exactNumber_of_writesInt hfirst
  obtain ⟨hoverSecond, hn⟩ := Text.exactNumber_of_writesInt hsecond
  rw [answer_of_split hsplit, if_neg fun h => h.2.elim hoverFirst hoverSecond, Operator.decides,
    if_pos ho, hm, hn]

/-- The same with the relation of integers that the operator stands for, between the nearest
integers in range and, where both are in range, between the integers themselves. -/
theorem answer_ordering_of_relation {o : Operator} (ho : o.isOrdering = true)
    (rel : Int → Int → Bool) (hrel : ∀ m n, o.holds m n = rel m n) {first second : Text}
    (d : Display) {context : Option Context} {p : Probe} {m n : Int}
    (hfirst : Text.WritesInt (Operand.resolve first p context).text m)
    (hsecond : Text.WritesInt (Operand.resolve second p context).text n) {c : Condition}
    (hsplit : c.split = some (o, first, second)) :
    c.answer d context p = .ok (rel (Integer.clamp m) (Integer.clamp n)) ∧
      (-2 ^ 63 ≤ m ∧ m < 2 ^ 63 → -2 ^ 63 ≤ n ∧ n < 2 ^ 63 →
        c.answer d context p = .ok (rel m n)) := by
  have hclamped := answer_ordering d hsplit ho hfirst hsecond
  rw [hrel] at hclamped
  refine ⟨hclamped, fun hm hn => ?_⟩
  have hinRange : ∀ {n : Int}, -2 ^ 63 ≤ n ∧ n < 2 ^ 63 → Integer.clamp n = n := by
    intro n hn
    exact Integer.clamp_of_inRange hn.1 (Int.le_sub_one_of_lt hn.2)
  rw [hclamped, hinRange hm, hinRange hn]

/-- **Decimal operands saturate.** A decimal text of any length is ordered as the nearest integer in
range, so that the order of such texts is monotone. Placeholders for numbers come to such texts. An
ordering between two operands that come to them has an answer, and `<=`, `>=`, `>` and `<` are
decided as between the exact integers where both are in range, and as between the nearest ones
otherwise. -/
theorem decimal_operands_saturate :
    (∀ n, Integer.clamp n = max (-2 ^ 63) (min (2 ^ 63 - 1) n)) ∧
    (∀ (t : Text) (n : Int), Text.WritesInt t n → t.toNumber = .ok (Integer.clamp n)) ∧
    (∀ (s t : Text) (m n : Int), Text.WritesInt s m → Text.WritesInt t n → m ≤ n →
      ∃ k l, s.toNumber = .ok k ∧ t.toNumber = .ok l ∧ k ≤ l) ∧
    (∀ (operand : Text) (ph : Placeholder) (p : Probe) (n : Nat) (context : Option Context),
      Placeholder.ofToken? (Text.trim operand) = some ph → ph.number? p = some n →
        Text.WritesInt (Operand.resolve operand p context).text n) ∧
    ∀ (first second : Text) (d : Display) (context : Option Context) (p : Probe) (m n : Int),
      Text.WritesInt (Operand.resolve first p context).text m →
      Text.WritesInt (Operand.resolve second p context).text n → ∀ c : Condition,
        (c.split = some (.atMost, first, second) →
          c.answer d context p = .ok (decide (Integer.clamp m ≤ Integer.clamp n)) ∧
          (-2 ^ 63 ≤ m ∧ m < 2 ^ 63 → -2 ^ 63 ≤ n ∧ n < 2 ^ 63 →
            c.answer d context p = .ok (decide (m ≤ n)))) ∧
        (c.split = some (.atLeast, first, second) →
          c.answer d context p = .ok (decide (Integer.clamp n ≤ Integer.clamp m)) ∧
          (-2 ^ 63 ≤ m ∧ m < 2 ^ 63 → -2 ^ 63 ≤ n ∧ n < 2 ^ 63 →
            c.answer d context p = .ok (decide (n ≤ m)))) ∧
        (c.split = some (.above, first, second) →
          c.answer d context p = .ok (decide (Integer.clamp n < Integer.clamp m)) ∧
          (-2 ^ 63 ≤ m ∧ m < 2 ^ 63 → -2 ^ 63 ≤ n ∧ n < 2 ^ 63 →
            c.answer d context p = .ok (decide (n < m)))) ∧
        (c.split = some (.below, first, second) →
          c.answer d context p = .ok (decide (Integer.clamp m < Integer.clamp n)) ∧
          (-2 ^ 63 ≤ m ∧ m < 2 ^ 63 → -2 ^ 63 ≤ n ∧ n < 2 ^ 63 →
            c.answer d context p = .ok (decide (m < n)))) := by
  refine ⟨fun n => rfl, fun t n h => Text.toNumber_of_writesInt h, fun s t m n hs ht hle => ?_,
    fun operand ph p n context hph hn => ?_,
    fun first second d context p m n hfirst hsecond c => ⟨?_, ?_, ?_, ?_⟩⟩
  · exact ⟨_, _, Text.toNumber_of_writesInt hs, Text.toNumber_of_writesInt ht,
      Integer.clamp_mono hle⟩
  · rw [Operand.resolve_of_number? hph hn]
    exact Text.writesInt_ofNat n
  · exact answer_ordering_of_relation rfl (fun m n => decide (m ≤ n)) (fun _ _ => rfl) d
      hfirst hsecond
  · exact answer_ordering_of_relation rfl (fun m n => decide (n ≤ m)) (fun _ _ => rfl) d
      hfirst hsecond
  · exact answer_ordering_of_relation rfl (fun m n => decide (n < m)) (fun _ _ => rfl) d
      hfirst hsecond
  · exact answer_ordering_of_relation rfl (fun m n => decide (m < n)) (fun _ _ => rfl) d
      hfirst hsecond

/-- A probe result with the longest response time that there is. -/
def longestProbe : Probe := { status := 503, duration := 18446744073709551615 }

/-- The longest response time counts as the greatest integer, and so does a longer one, which is not
above it but at least and at most it; the status is compared exactly, and a text below the least
integer is ordered first. -/
theorem longestProbe_saturates :
    (Text.WritesInt "+18446744073709551616".toList 18446744073709551616 ∧
      Text.toNumber "+18446744073709551616".toList = .ok 9223372036854775807) ∧
    (Text.WritesInt "-9223372036854775809".toList (-9223372036854775809) ∧
      ∃ k l, Text.toNumber "-9223372036854775809".toList = .ok k ∧
        Text.toNumber "+18446744073709551616".toList = .ok l ∧ k ≤ l) ∧
    Text.WritesInt (Operand.resolve "[Response_Time]".toList longestProbe none).text
      18446744073709551615 ∧
    (Condition.mk "[Response_Time] <= +18446744073709551616".toList).answer {} none longestProbe =
      .ok true ∧
    (Condition.mk "[Response_Time] < +18446744073709551616".toList).answer {} none longestProbe =
      .ok false ∧
    (Condition.mk "[STATUS] >= 1000".toList).answer {} none longestProbe = .ok false ∧
    (Condition.mk "1000 > [STATUS]".toList).answer {} none longestProbe = .ok true := by
  obtain ⟨-, hnearest, hmonotone, hplaceholder, hordering⟩ := decimal_operands_saturate
  have habove : Text.WritesInt "+18446744073709551616".toList 18446744073709551616 :=
    ⟨['+'], "18446744073709551616".toList, false, rfl, .plus,
      .digits (by decide) (by decide) (List.all_eq_true.1 (by decide)), by decide +kernel⟩
  have hbelow : Text.WritesInt "-9223372036854775809".toList (-9223372036854775809) :=
    ⟨['-'], "9223372036854775809".toList, true, rfl, .minus,
      .digits (by decide) (by decide) (List.all_eq_true.1 (by decide)), by decide +kernel⟩
  have hthousand : Text.WritesInt
      (Operand.resolve "1000".toList longestProbe none).text 1000 := Text.writesInt_ofNat 1000
  have htime := hplaceholder "[Response_Time]".toList .responseTime longestProbe
    18446744073709551615 none (by decide) rfl
  have hstatus := hplaceholder "[STATUS]".toList .status longestProbe 503 none (by decide) rfl
  have hlonger := hordering "[Response_Time]".toList "+18446744073709551616".toList {} none
    longestProbe _ _ htime habove
  refine ⟨⟨habove, ?_⟩, ⟨hbelow, hmonotone _ _ _ _ hbelow habove (by decide)⟩, htime, ?_, ?_,
    ?_, ?_⟩
  · rw [hnearest _ _ habove]
    rfl
  · rw [((hlonger _).1 (by decide)).1]
    rfl
  · rw [((hlonger _).2.2.2 (by decide)).1]
    rfl
  · rw [((hordering "[STATUS]".toList "1000".toList {} none longestProbe _ _ hstatus hthousand
      _).2.1 (by decide)).2 (by decide) (by decide)]
    rfl
  · rw [((hordering "1000".toList "[STATUS]".toList {} none longestProbe _ _ hthousand hstatus
      _).2.2.1 (by decide)).2 (by decide) (by decide)]
    rfl

end Condition

end HealthCheck
