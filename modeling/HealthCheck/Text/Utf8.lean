import HealthCheck.Text.Basic

/-!
# UTF-8

Texts as bytes and back. One machine reads bytes one at a time and yields a character for each
well-formed sequence and a gap for each maximal part that no character can hold. The strict
reading refuses a gap; the lossy reading shows it as U+FFFD.
-/

namespace HealthCheck

/-- Raw data, as a probe received it. -/
abbrev Bytes := List UInt8

namespace Utf8

/-! ## Writing -/

/-- The bytes of one character: one to four, by its scalar value. -/
def encodeChar (c : Char) : Bytes :=
  let n := c.toNat
  if n < 0x80 then [.ofNat n]
  else if n < 0x800 then [.ofNat (0xC0 + n / 0x40), .ofNat (0x80 + n % 0x40)]
  else if n < 0x10000 then
    [.ofNat (0xE0 + n / 0x1000), .ofNat (0x80 + n / 0x40 % 0x40), .ofNat (0x80 + n % 0x40)]
  else
    [.ofNat (0xF0 + n / 0x40000), .ofNat (0x80 + n / 0x1000 % 0x40),
      .ofNat (0x80 + n / 0x40 % 0x40), .ofNat (0x80 + n % 0x40)]

/-- The bytes of a text. -/
def encode (t : Text) : Bytes := t.flatMap encodeChar

/-! ## Reading -/

/-- A character that has begun: its value so far, how many bytes it still needs, and the least
and greatest byte that may come next. -/
structure Pending where
  value : Nat
  left : Nat
  low : Nat
  high : Nat

/-- What a first byte begins. -/
inductive Lead where
  | char (c : Char)
  | more (p : Pending)
  | bad

/-- Reads a first byte. The ranges leave out overlong forms, surrogates and values beyond
U+10FFFF. -/
def lead (b : Nat) : Lead :=
  if b < 0x80 then .char (Char.ofNat b)
  else if b < 0xC2 then .bad
  else if b < 0xE0 then .more ⟨b - 0xC0, 1, 0x80, 0xBF⟩
  else if b = 0xE0 then .more ⟨0, 2, 0xA0, 0xBF⟩
  else if b = 0xED then .more ⟨0xD, 2, 0x80, 0x9F⟩
  else if b < 0xF0 then .more ⟨b - 0xE0, 2, 0x80, 0xBF⟩
  else if b = 0xF0 then .more ⟨0, 3, 0x90, 0xBF⟩
  else if b < 0xF4 then .more ⟨b - 0xF0, 3, 0x80, 0xBF⟩
  else if b = 0xF4 then .more ⟨4, 3, 0x80, 0x8F⟩
  else .bad

/-- One byte between characters: what it yields and the character it leaves begun. -/
def stepFresh (b : Nat) : List (Option Char) × Option Pending :=
  match lead b with
  | .char c => ([some c], none)
  | .more p => ([], some p)
  | .bad => ([none], none)

/-- One byte. A begun character that the byte cannot continue is a gap, and the byte is then read
afresh. -/
def step : Option Pending → UInt8 → List (Option Char) × Option Pending
  | none, b => stepFresh b.toNat
  | some p, b =>
    if p.low ≤ b.toNat ∧ b.toNat ≤ p.high then
      let value := p.value * 0x40 + b.toNat % 0x40
      if p.left ≤ 1 then ([some (Char.ofNat value)], none)
      else ([], some ⟨value, p.left - 1, 0x80, 0xBF⟩)
    else
      let (out, next) := stepFresh b.toNat
      (none :: out, next)

/-- The characters and gaps that bytes yield after a character that may have begun. -/
def scan : Option Pending → Bytes → List (Option Char)
  | none, [] => []
  | some _, [] => [none]
  | q, b :: bs => (step q b).1 ++ scan (step q b).2 bs

/-- The text of well-formed bytes. -/
def decode? (bs : Bytes) : Option Text := (scan none bs).mapM id

/-- The text of any bytes, with U+FFFD for each gap. -/
def decodeLossy (bs : Bytes) : Text := (scan none bs).map (·.getD '\ufffd')

example : decode? (encode "aé€😀".toList) = some "aé€😀".toList := by decide
example : decodeLossy [0x61, 0xE2, 0x82, 0x62, 0xFF] = "a\ufffdb\ufffd".toList := by decide

end Utf8

end HealthCheck
