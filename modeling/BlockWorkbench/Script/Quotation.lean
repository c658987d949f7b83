import BlockWorkbench.Text.Points

/-!
The text that a string literal stands for.
-/

namespace BlockWorkbench.Script

/-- A code point from its number, if there is one. -/
def numbered? (n : Nat) : Option CodePoint := if h : n < 0x110000 then some ⟨n, h⟩ else none

/-- The character that a one-letter escape stands for. -/
def letterEscape? : Char → Option Char
  | '\\' => some '\\'
  | '\'' => some '\''
  | '"' => some '"'
  | 'a' => some '\x07'
  | 'b' => some '\x08'
  | 'f' => some '\x0c'
  | 'n' => some '\n'
  | 'r' => some '\r'
  | 't' => some '\t'
  | 'v' => some '\x0b'
  | _ => none

def octalDigit? (c : Char) : Option Nat :=
  if '0' ≤ c && c ≤ '7' then some (c.toNat - '0'.toNat) else none

/-- How many digits an escape by number has. -/
def escapeWidth? : Char → Option Nat
  | 'x' => some 2
  | 'u' => some 4
  | 'U' => some 8
  | _ => none

/-- What is left to be done with the characters that follow a backslash. -/
inductive Escape where
  | none
  | started
  | octal (left value : Nat)
  | numbered (left value : Nat)
  deriving DecidableEq, Repr

/-- The text of a literal between its quotes; an unknown escape stands for itself. -/
def unquoteFrom : Escape → List Char → Option Points
  | .none, [] => some []
  | .none, '\\' :: rest => unquoteFrom .started rest
  | .none, c :: rest => (unquoteFrom .none rest).map (.ofChar c :: ·)
  | .started, [] => some [.ofChar '\\']
  | .started, '\n' :: rest => unquoteFrom .none rest
  | .started, c :: rest =>
    match letterEscape? c with
    | some d => (unquoteFrom .none rest).map (.ofChar d :: ·)
    | none =>
      match octalDigit? c with
      | some d => unquoteFrom (.octal 2 d) rest
      | none =>
        match escapeWidth? c with
        | some width => unquoteFrom (.numbered width 0) rest
        | none =>
          if c == 'N' then none
          else (unquoteFrom .none rest).map fun t => .ofChar '\\' :: .ofChar c :: t
  | .octal 0 value, cs => do
    let c ← numbered? value
    match cs with
    | [] => some [c]
    | '\\' :: rest => (unquoteFrom .started rest).map (c :: ·)
    | d :: rest => (unquoteFrom .none rest).map fun t => c :: .ofChar d :: t
  | .octal (left + 1) value, cs => do
    let c ← numbered? value
    match cs with
    | [] => some [c]
    | '\\' :: rest => (unquoteFrom .started rest).map (c :: ·)
    | d :: rest =>
      match octalDigit? d with
      | some n => unquoteFrom (.octal left (value * 8 + n)) rest
      | none => (unquoteFrom .none rest).map fun t => c :: .ofChar d :: t
  | .numbered 0 value, cs => do
    let c ← numbered? value
    match cs with
    | [] => some [c]
    | '\\' :: rest => (unquoteFrom .started rest).map (c :: ·)
    | d :: rest => (unquoteFrom .none rest).map fun t => c :: .ofChar d :: t
  | .numbered (_ + 1) _, [] => none
  | .numbered (left + 1) value, d :: rest =>
    match Text.hexValue? d with
    | some n => unquoteFrom (.numbered left (value * 16 + n)) rest
    | none => none

/-- The text of a literal whose quotes are taken off. -/
def unquote? (raw : Bool) (body : List Char) : Option Points :=
  if raw then some (body.map .ofChar) else unquoteFrom .none body

end BlockWorkbench.Script
