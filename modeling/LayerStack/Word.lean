/-!
# LayerStack.Word

Integers as words of 64 bits, with a sign and without one.
-/

namespace LayerStack.Word

/-- The number of words: two to the power of 64. -/
def count : Nat := 18446744073709551616

/-- Half of the words: from here on a word has its last bit. -/
def half : Nat := 9223372036854775808

/-- Is an integer a word with a sign? -/
def isSigned (n : Int) : Bool := -(half : Int) ≤ n && n < half

/-- Is an integer a word without a sign? -/
def isUnsigned (n : Int) : Bool := 0 ≤ n && n < count

/-- An integer wrapped to a word with a sign. -/
def wrapSigned (n : Int) : Int := n.bmod count

/-- An integer wrapped to a word without a sign. -/
def wrap (n : Int) : Int := n % count

/-- An integer as a word with a sign; one that is none is read as the least word. -/
def narrow (n : Int) : Int := if isSigned n then n else -(half : Int)

end LayerStack.Word
