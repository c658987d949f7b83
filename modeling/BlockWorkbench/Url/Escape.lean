import BlockWorkbench.Text.Hex

/-!
Escapes in URLs. Each part of a URL has a set of characters that stand for themselves; of all
others the bytes are written as a percent sign and two hexadecimal digits. The percent sign
itself is always kept, so escapes stay what they are and nothing is escaped twice.
-/

namespace BlockWorkbench.Url

def isUnreserved (c : Char) : Bool :=
  c.isAlphanum || c == '-' || c == '.' || c == '_' || c == '~'

/-- The printable ASCII characters but a space and those in `refused`. -/
def visibleExcept (refused : String) (c : Char) : Bool :=
  0x20 < c.toNat && c.toNat < 0x7f && !refused.toList.contains c

def isSafeInFragment : Char → Bool := visibleExcept "\"<>\x60"

def isSafeInQuery : Char → Bool := visibleExcept "\"#<>"

def isSafeInPath : Char → Bool := visibleExcept "\"#<>?\x60\x7b\x7d"

def isSafeInUserinfo : Char → Bool := visibleExcept "\"#<>?\x60\x7b\x7d/;=@[\\]^|"

def isSafeInHost (c : Char) : Bool :=
  isUnreserved c || "!$&'()*+,;=\"\x60\x7b\x7d%|\\".toList.contains c

/-- A byte as an escape. -/
def escapeByte (b : UInt8) : List Char :=
  '%' :: (Text.hexDigits 2 b.toNat).map Char.toUpper

def escapeChar (isSafe : Char → Bool) (c : Char) : List Char :=
  if isSafe c then [c] else (String.ofList [c]).toUTF8.toList.flatMap escapeByte

def escapeChars (isSafe : Char → Bool) (cs : List Char) : List Char :=
  cs.flatMap (escapeChar isSafe)

def escape (isSafe : Char → Bool) (s : String) : String :=
  String.ofList (escapeChars isSafe s.toList)

/-- The bytes that an escaped text stands for. -/
def unescape : List Char → List UInt8
  | [] => []
  | '%' :: a :: b :: rest =>
    match Text.hexValue? a, Text.hexValue? b with
    | some m, some n => UInt8.ofNat (16 * m + n) :: unescape rest
    | _, _ => '%'.toNat.toUInt8 :: unescape (a :: b :: rest)
  | c :: rest => (String.ofList [c]).toUTF8.toList ++ unescape rest

end BlockWorkbench.Url
