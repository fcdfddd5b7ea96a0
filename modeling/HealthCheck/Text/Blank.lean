/-!
# White space

The characters with the Unicode property `White_Space`, which is what trimming removes. The
zero-width space U+200B and the byte order mark U+FEFF do not have the property.
-/

namespace HealthCheck.Text

/-- The character has the Unicode property `White_Space`. -/
def isBlank (c : Char) : Bool :=
  let n := c.toNat
  (0x09 ≤ n && n ≤ 0x0D) || n == 0x20 || n == 0x85 || n == 0xA0 || n == 0x1680 ||
    (0x2000 ≤ n && n ≤ 0x200A) || n == 0x2028 || n == 0x2029 || n == 0x202F || n == 0x205F ||
    n == 0x3000

example : isBlank '\u00a0' = true ∧ isBlank '\u0085' = true ∧ isBlank '\u200b' = false := by decide

end HealthCheck.Text
