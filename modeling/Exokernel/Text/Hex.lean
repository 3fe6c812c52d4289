/-
  Hexadecimal text.

  Addresses and ids are written in lower-case hexadecimal, sometimes filled up with zeros on
  the left.  A number that needs more digits than the fill asks for is written in full.
-/
namespace Exokernel.Text

/-- The lower-case hexadecimal digits of `n`, without leading zeros; zero is `0`. -/
def hex (n : Nat) : String :=
  String.ofList (Nat.toDigits 16 n)

/-- The hexadecimal digits of `n`, filled up with zeros to at least `width` digits. -/
def hexPadded (width n : Nat) : String :=
  let digits := Nat.toDigits 16 n
  String.ofList (List.replicate (width - digits.length) '0' ++ digits)

/-- An address in text: `0x` and at least eight digits. -/
def hexAddress (n : Nat) : String :=
  "0x" ++ hexPadded 8 n

end Exokernel.Text
