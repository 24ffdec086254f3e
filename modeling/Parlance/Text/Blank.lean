/-! Blank characters are those of Unicode's White_Space property. Words and trimming are cut at them. -/
namespace Parlance.Text

def isBlank (c : Char) : Bool :=
  let n := c.toNat
  (0x9 ≤ n && n ≤ 0xD) || n == 0x20 || n == 0x85 || n == 0xA0 || n == 0x1680 ||
    (0x2000 ≤ n && n ≤ 0x200A) || n == 0x2028 || n == 0x2029 || n == 0x202F ||
    n == 0x205F || n == 0x3000

def isAscii (c : Char) : Bool :=
  c.toNat < 128

def allBlank (text : List Char) : Bool :=
  text.all isBlank

/-- The text without the blanks at its two ends. -/
def trim (text : List Char) : List Char :=
  ((text.dropWhile isBlank).reverse.dropWhile isBlank).reverse

end Parlance.Text
