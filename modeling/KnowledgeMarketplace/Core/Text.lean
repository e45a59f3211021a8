/-!
# Texts

Slices and stripped texts, by characters.
-/

namespace KnowledgeMarketplace

/-- The first characters of a text, as in a slice. -/
def clip (count : Nat) (text : String) : String :=
  String.ofList (text.toList.take count)

/-- White space as `str.strip` removes it. -/
def isSpace (char : Char) : Bool :=
  let code := char.toNat
  (9 ≤ code && code ≤ 13) || (28 ≤ code && code ≤ 32) ||
    (0x2000 ≤ code && code ≤ 0x200a) ||
    [0x85, 0xa0, 0x1680, 0x2028, 0x2029, 0x202f, 0x205f, 0x3000].contains code

/-- The characters of a text without surrounding white space. -/
def stripped (text : String) : List Char :=
  ((text.toList.dropWhile isSpace).reverse.dropWhile isSpace).reverse

/-- `text.strip()`. -/
def strip (text : String) : String :=
  String.ofList (stripped text)

end KnowledgeMarketplace
