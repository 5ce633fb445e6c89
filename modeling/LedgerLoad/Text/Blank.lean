/-!
White space around a value, and folding of capital letters.
-/

set_option autoImplicit false

namespace LedgerLoad.Text

def isBlank (c : Char) : Bool :=
  let n := c.toNat
  (0x9 ≤ n && n ≤ 0xd) || n == 0x20 || n == 0x85 || n == 0xa0 || n == 0x1680 ||
    (0x2000 ≤ n && n ≤ 0x200a) || n == 0x2028 || n == 0x2029 || n == 0x202f || n == 0x205f || n == 0x3000

def trim (s : List Char) : List Char :=
  ((s.dropWhile isBlank).reverse.dropWhile isBlank).reverse

def lower (c : Char) : Char := c.toLower

/-- Trimmed and folded: the form in which names and durations are recognised. -/
def normalize (s : List Char) : List Char := (trim s).map lower

end LedgerLoad.Text
