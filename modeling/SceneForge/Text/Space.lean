/-!
# White space

The characters with the Unicode property White_Space, trimming, and splitting at
runs of them.
-/

namespace SceneForge.Text

/-- The property White_Space. Zero-width characters do not have it. -/
def isSpace (c : Char) : Bool :=
  let n := c.toNat
  (9 ≤ n && n ≤ 13) || n = 0x20 || n = 0x85 || n = 0xa0 || n = 0x1680 ||
    (0x2000 ≤ n && n ≤ 0x200a) || n = 0x2028 || n = 0x2029 || n = 0x202f || n = 0x205f ||
    n = 0x3000

/-- The characters between the outer white space. -/
def trim (text : List Char) : List Char :=
  ((text.dropWhile isSpace).reverse.dropWhile isSpace).reverse

/-- The maximal runs of characters that are not white space. -/
def words (text : List Char) : List (List Char) :=
  (text.splitBy fun a b => isSpace a == isSpace b).filter fun run => !run.any isSpace

end SceneForge.Text
