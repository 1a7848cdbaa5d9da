/-
# Printable characters

A character is printable unless it is a control or format character, a
separator other than the space, or for private use. The table lists the
characters that are not.

Key definitions: `Printable.gaps`, `Printable.isPrintable`.
-/

namespace DiagnosticWatch
namespace Printable

/-- Closed ranges of the code points that are not printable, in order. -/
def gaps : List (Nat × Nat) :=
  [(0x0, 0x1f), (0x7f, 0xa0), (0xad, 0xad), (0x600, 0x605), (0x61c, 0x61c), (0x6dd, 0x6dd),
    (0x70f, 0x70f), (0x890, 0x891), (0x8e2, 0x8e2), (0x1680, 0x1680), (0x180e, 0x180e),
    (0x2000, 0x200f), (0x2028, 0x202f), (0x205f, 0x2064), (0x2066, 0x206f), (0x3000, 0x3000),
    (0xe000, 0xf8ff), (0xfeff, 0xfeff), (0xfff9, 0xfffb), (0x110bd, 0x110bd), (0x110cd, 0x110cd),
    (0x13430, 0x13438), (0x1bca0, 0x1bca3), (0x1d173, 0x1d17a), (0xe0001, 0xe0001),
    (0xe0020, 0xe007f), (0xf0000, 0xffffd), (0x100000, 0x10fffd)]

/-- Whether a quoted text shows the character as it is. -/
def isPrintable (c : Char) : Bool :=
  !gaps.any fun gap => gap.1 ≤ c.toNat && c.toNat ≤ gap.2

/-- Every visible ASCII character and the space are printable. -/
theorem isPrintable_ascii :
    ∀ n < 0x7f, 0x20 ≤ n → isPrintable (Char.ofNat n) = true := by
  decide

end Printable
end DiagnosticWatch
