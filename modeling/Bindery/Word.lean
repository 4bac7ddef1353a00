namespace Bindery

/-!
# Words

Integers of a fixed number of bits, as a property of integers.

* `wordCount` — how many words of a length there are.
* `isSigned`, `isUnsigned` — the integers that a word holds with or without a sign.
* `wrapSigned` — an integer brought into the range of signed words, whole turns apart.
-/

/-- The number of words of so many bits. -/
def wordCount (bits : Nat) : Nat := Nat.pow 2 bits

/-- Whether an integer fits so many bits with a sign. -/
def isSigned (bits : Nat) (n : Int) : Bool :=
  -(wordCount (bits - 1) : Int) ≤ n && n < wordCount (bits - 1)

/-- Whether an integer fits so many bits without a sign. -/
def isUnsigned (bits : Nat) (n : Int) : Bool := 0 ≤ n && n < wordCount bits

/-- The signed word that an integer leaves when whole turns are taken away. -/
def wrapSigned (bits : Nat) (n : Int) : Int := n.bmod (wordCount bits)

end Bindery
