namespace Bindery

/-!
# White space

* `isBlank` — the characters with the property White_Space.
* `withoutBlanks`, `trimBlanks` — a text without any of them, or without those at its ends.
-/

/-- White space: tab to carriage return, the space, and the spaces and separators beyond ASCII. -/
def isBlank (c : Char) : Bool :=
  let n := c.toNat
  (9 ≤ n && n ≤ 13) || n == 0x20 || n == 0x85 || n == 0xA0 || n == 0x1680
    || (0x2000 ≤ n && n ≤ 0x200A) || n == 0x2028 || n == 0x2029 || n == 0x202F || n == 0x205F
    || n == 0x3000

/-- The characters that are not white space. -/
def withoutBlanks (s : List Char) : List Char := s.filter (!isBlank ·)

/-- The text between the white space at its ends. -/
def trimBlanks (s : String) : String :=
  String.ofList ((s.toList.dropWhile isBlank).reverse.dropWhile isBlank).reverse

@[simp] theorem withoutBlanks_nil : withoutBlanks [] = [] := rfl

@[simp] theorem withoutBlanks_append (s t : List Char) :
    withoutBlanks (s ++ t) = withoutBlanks s ++ withoutBlanks t := List.filter_append ..

@[simp] theorem withoutBlanks_idem (s : List Char) :
    withoutBlanks (withoutBlanks s) = withoutBlanks s := by
  simp [withoutBlanks, List.filter_filter]

end Bindery
