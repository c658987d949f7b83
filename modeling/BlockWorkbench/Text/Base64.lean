/-!
Bytes written with 64 characters, three bytes as four characters. What is missing from the last
three bytes is filled with equals signs.
-/

namespace BlockWorkbench.Text

def base64Alphabet : List Char :=
  "ABCDEFGHIJKLMNOPQRSTUVWXYZabcdefghijklmnopqrstuvwxyz0123456789+/".toList

/-- The character for the six bits of `n` that stand `shift` bits from the right. -/
def base64Char (n shift : Nat) : Char := (base64Alphabet[(n >>> shift) % 64]?).getD '='

def base64 : List UInt8 → List Char
  | [] => []
  | [a] =>
    let n := a.toNat * 0x10000
    [base64Char n 18, base64Char n 12, '=', '=']
  | [a, b] =>
    let n := a.toNat * 0x10000 + b.toNat * 0x100
    [base64Char n 18, base64Char n 12, base64Char n 6, '=']
  | a :: b :: c :: rest =>
    let n := a.toNat * 0x10000 + b.toNat * 0x100 + c.toNat
    base64Char n 18 :: base64Char n 12 :: base64Char n 6 :: base64Char n 0 :: base64 rest

end BlockWorkbench.Text
