import BlockWorkbench.Text.Identifier
import BlockWorkbench.Text.LowerCase
import BlockWorkbench.Url.Escape
import BlockWorkbench.Url.Punycode

/-!
Hosts of URLs: addresses of four or of sixteen bytes, and names. A name is in lower case; if it
is not ASCII, each of its labels that is not takes the form that name servers know.
-/

namespace BlockWorkbench.Url

inductive HostFault where
  | badFourByteAddress
  | badSixteenByteAddress
  | badName
  deriving DecidableEq, Repr

def isDigit (c : Char) : Bool := '0' ≤ c && c ≤ '9'

/-- One step of the search for four runs of digits with a character between: an even place
awaits a run and an odd one is inside a run. -/
def nextPlaces (places : List Nat) (c : Char) : List Nat :=
  (List.range 8).filter fun next => places.any fun place =>
    if place % 2 = 0 then isDigit c && next == place + 1
    else next == place + 1 || (isDigit c && next == place)

/-- Four runs of digits, each followed by any character but the last: a text that can only be
meant as an address of four bytes. -/
def looksLikeAddress (cs : List Char) : Bool := (cs.foldl nextPlaces [0]).contains 7

/-- The parts of a text between the marks. -/
def splitAt (isMark : Char → Bool) : List Char → List (List Char)
  | [] => [[]]
  | c :: rest =>
    match splitAt isMark rest with
    | [] => [[c]]
    | part :: parts => if isMark c then [] :: part :: parts else (c :: part) :: parts

def isOctet (cs : List Char) : Bool :=
  !cs.isEmpty && cs.all isDigit && cs.length ≤ 3 && (cs.length = 1 || cs.head? != some '0')
    && (cs.foldl (fun n c => n * 10 + (c.toNat - '0'.toNat)) 0) ≤ 255

def isFourByteAddress (cs : List Char) : Bool :=
  let parts := splitAt (· == '.') cs
  parts.length = 4 && parts.all isOctet

/-- Up to four hexadecimal digits. -/
def isGroup (cs : List Char) : Bool :=
  !cs.isEmpty && cs.length ≤ 4 && cs.all fun c => (Text.hexValue? c).isSome

/-- Groups of an address of sixteen bytes; four bytes at the end count as two groups. -/
def groupCount? : List (List Char) → Option Nat
  | [] => some 0
  | [last] =>
    if isGroup last then some 1 else if isFourByteAddress last then some 2 else none
  | group :: rest => if isGroup group then (groupCount? rest).map (· + 1) else none

/-- The groups before and after the first gap, if there is one. -/
def splitGap : List (List Char) → List (List Char) × Option (List (List Char))
  | [] => ([], none)
  | [] :: rest => ([], some rest)
  | group :: rest =>
    let (front, back) := splitGap rest
    (group :: front, back)

/-- Eight groups, or fewer with one gap written as two colons. -/
def hasEightGroups (cs : List Char) : Bool :=
  match splitAt (· == ':') cs with
  | [] :: [] :: rest =>
    let rest := if rest == [[]] then [] else rest
    (groupCount? rest).any (· ≤ 7)
  | parts =>
    match splitGap parts with
    | (front, none) => groupCount? front == some 8
    | (front, some back) =>
      let back := if back == [[]] then [] else back
      match groupCount? front, groupCount? back with
      | some m, some n =>
        !front.isEmpty && front.all isGroup && front.length + 1 < parts.length && m + n ≤ 7
      | _, _ => false

/-- An address of sixteen bytes, with the zone it is in behind a percent sign. -/
def isSixteenByteAddress (cs : List Char) : Bool :=
  match splitAt (· == '%') cs with
  | [address] => hasEightGroups address
  | [address, zone] => !zone.isEmpty && hasEightGroups address
  | _ => false

/-- The full stops that separate the labels of a name. -/
def isLabelEnd (c : Char) : Bool :=
  c == '.' || c == '\u3002' || c == '\uff0e' || c == '\uff61'

/-- Whether a label may be a name: its letters and digits are written in one way only, and a
hyphen stands only inside and not where a form of names is announced. -/
def isLabel (cs : List Char) : Bool :=
  cs.head? != some '-' && cs.getLast? != some '-' && (cs.drop 2).take 2 != ['-', '-']
    && cs.all fun c =>
      c == '-' || (Text.isNameFollow c && c != '_'
        && !(0xfb00 ≤ c.toNat && c.toNat ≤ 0xffff) && !(0x1d400 ≤ c.toNat && c.toNat ≤ 0x1d7ff))

/-- The form in which name servers know a label. -/
def serverLabel? (label : List Char) : Option (List Char) :=
  let written := if label.all (·.toNat < 0x80) then some label
    else if isLabel label then some ("xn--".toList ++ Punycode.encode label)
    else none
  written.filter fun cs => !cs.isEmpty && cs.length ≤ 63

/-- A name beyond ASCII as name servers know it. A full stop may end it. -/
def serverName? (name : List Char) : Option (List Char) := do
  let labels := splitAt isLabelEnd name
  let ends := labels.getLast? == some [] && 1 < labels.length
  let known ← (if ends then labels.dropLast else labels).mapM serverLabel?
  let text := ['.'].intercalate (if ends then known ++ [[]] else known)
  if text.length ≤ (if ends then 254 else 253) then some text else none

/-- A host in the form in which it is kept: without the brackets of an address. -/
def normalHost (host : String) : Except HostFault String :=
  let cs := host.toList
  if cs.isEmpty then .ok ""
  else if looksLikeAddress cs then
    if isFourByteAddress cs then .ok host else .error .badFourByteAddress
  else if cs.head? = some '[' && cs.getLast? = some ']' then
    let inner := (cs.drop 1).dropLast
    if isSixteenByteAddress inner then .ok (String.ofList inner)
    else .error .badSixteenByteAddress
  else if cs.all (·.toNat < 0x80) then .ok (escape isSafeInHost (Text.lower host))
  else
    match serverName? (Text.lower host).toList with
    | some name => .ok (String.ofList name)
    | none => .error .badName

end BlockWorkbench.Url
