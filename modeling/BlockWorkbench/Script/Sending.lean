import BlockWorkbench.Document
import BlockWorkbench.Script.Literal

/-!
Values as documents to be sent. Only data can be sent: no functions, errors or ranges, no
dictionaries with compound keys, and nothing that contains itself. A document that is only looked
at has literals in place of what is not data.
-/

namespace BlockWorkbench.Script

/-- A key that can be sent. -/
def Value.toScalar? : Value → Option (Scalar Points)
  | .none => some .null
  | .bool b => some (.bool b)
  | .int n => some (.int n)
  | .float x => some (.float x)
  | .str t => some (.str t)
  | _ => Option.none

namespace Store

/-- Documents made one after another. -/
def eachDocument {α β : Type} (make : α → Except RuntimeFault β) :
    List α → Except RuntimeFault (List β)
  | [] => .ok []
  | v :: rest => do return (← make v) :: (← eachDocument make rest)

/-- A value as a document, inside the lists `lists` and the dictionaries `dicts`. What is not data
is made into a document by `other`. -/
def documentWithin (s : Store) (other : Value → Except RuntimeFault Document) :
    Nat → List Address → List Address → Value → Except RuntimeFault Document
  | 0, _, _, _ => .error .tooDeep
  | depth + 1, lists, dicts, v =>
    match v with
    | .none => .ok .null
    | .bool b => .ok (.bool b)
    | .int n => do
      let _ ← integerText n
      return .int n
    | .float x => .ok (.float x)
    | .str t => .ok (.str t)
    | .tuple items => do
      return .list (← eachDocument (documentWithin s other depth lists dicts) items)
    | .list a =>
      if lists.contains a then .error .circularValue
      else do
        return .list (← eachDocument (documentWithin s other depth (a :: lists) dicts)
          (s.items a).toList)
    | .dict a =>
      if dicts.contains a then .error .circularValue
      else do
        let entry := fun (k, v) => do
          match Value.toScalar? k with
          | some key => return (key, ← documentWithin s other depth lists (a :: dicts) v)
          | none => throw (.badFieldName (s.typeName k))
        return .dict (← eachDocument entry (s.entries a))
    | v => other v

/-- What is not data cannot be sent. -/
def refuse (s : Store) (v : Value) : Except RuntimeFault Document :=
  .error (.notData (s.typeName v))

def document (s : Store) (v : Value) : Except RuntimeFault Document :=
  s.documentWithin s.refuse nestingLimit [] [] v

/-- A literal as a document. -/
def quote (s : Store) (v : Value) : Except RuntimeFault Document :=
  (s.literal v).map fun t => .str (.ofString t)

/-- A value as a document in which what is not data is quoted. -/
def quotingDocument (s : Store) (v : Value) : Except RuntimeFault Document :=
  s.documentWithin s.quote nestingLimit [] [] v

/-- Why a value cannot be sent, as a fault of the session. -/
def sendingFault : RuntimeFault → Fault
  | .tooDeep => .valueTooDeep
  | .circularValue => .circularValue
  | .badFieldName t => .badFieldName t
  | .integerTooLongToWrite => .integerTooLongToWrite
  | .notData t => .notData t
  | _ => .notData "object"

/-- What a client is sent for a value. -/
def send (s : Store) (v : Value) : Except Fault Document := (s.document v).mapError sendingFault

end Store

end BlockWorkbench.Script
