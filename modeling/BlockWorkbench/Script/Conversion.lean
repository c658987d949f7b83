import BlockWorkbench.Script.Arithmetic

/-!
Values as integers and as floats: numbers, and the texts of numbers.
-/

namespace BlockWorkbench.Script.Store

/-- A value as an integer. -/
def toInt (s : Store) (v : Value) : Except RuntimeFault Int :=
  match v with
  | .str t =>
    match Number.readInt t.plain with
    | .value n => .ok n
    | .malformed => .error (.badInteger t.quoted)
    | .tooLong digits => .error (.integerTooLong digits)
  | .float x =>
    match Number.classify x with
    | .nan => .error .nanToInteger
    | .infinite _ => .error .infinityToInteger
    | .finite b => .ok b.truncate
  | v =>
    match v.integer? with
    | some n => .ok n
    | none => .error (.notInteger (s.typeName v))

def toFloat (s : Store) (v : Value) : Except RuntimeFault Float :=
  match v with
  | .str t =>
    match Number.readFloat? t.plain with
    | some x => .ok x
    | none => .error (.badFloat t.quoted)
  | v =>
    match v.number? with
    | some n => asFloat n
    | none => .error (.notReal (s.typeName v))

end BlockWorkbench.Script.Store
