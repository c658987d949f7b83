import BlockWorkbench.Fault
import BlockWorkbench.Script.Store

/-!
What can go wrong while a script runs, by cause. Each cause is an error object: a kind, and
arguments from which the text is made.
-/

namespace BlockWorkbench.Script

inductive RuntimeFault where
  -- names
  | undefinedName (name : String)
  | unboundLocal (name : String)
  | unboundOuter (name : String)
  -- numbers
  | divisionByZero
  | integerDivisionByZero
  | integerModuloByZero
  | floatDivisionByZero
  | floatFloorDivisionByZero
  | floatModuloByZero
  | zeroToNegativePower
  | complexPower
  | quotientTooLarge
  | integerTooLargeForFloat
  | resultOutOfRange
  | nanToInteger
  | infinityToInteger
  | badInteger (literal : String)
  | badFloat (literal : String)
  | integerTooLong (digits : Nat)
  | integerTooLongToWrite
  | notInteger (typeName : String)
  | notReal (typeName : String)
  | notAnIndex (typeName : String)
  | zeroStep
  -- operators
  | unsupportedOperands (op left right : String)
  | notConcatenable (left right : String)
  | notRepeatable (typeName : String)
  | badOperand (op typeName : String)
  | unordered (op left right : String)
  | notAContainer (typeName : String)
  | notSearchable (typeName : String)
  -- sequences and dictionaries
  | missingKey (key : Value)
  | unhashable (typeName : String)
  | outOfRange (what : String)
  | indexTooLarge
  | badIndex (container typeName : String)
  | badTextIndex (typeName : String)
  | notSubscriptable (typeName : String)
  | typeNotSubscriptable (name : String)
  | noItemAssignment (typeName : String)
  | noLength (typeName : String)
  | notIterable (typeName : String)
  | notUnpackable (typeName : String)
  | tooFewValues (expected given : Nat)
  | tooManyValues (expected : Nat)
  | sizeChanged
  | noItems (function : String)
  | textSum
  | notJoinable
  | notText (index : Nat) (typeName : String)
  | repeatTooLarge
  | lengthTooLarge
  | outOfMemory
  -- templates
  | unfinishedMark
  | badMark (mark : CodePoint) (index : Nat)
  | notANumber (mark : CodePoint) (typeName : String)
  | tooFewForTemplate
  | tooManyForTemplate
  -- attributes and calls
  | noAttribute (typeName member : String)
  | noTypeAttribute (typeName member : String)
  | readOnly (typeName member : String)
  | notCallable (typeName : String)
  | missingArguments (callee : String) (names : List String)
  | tooManyArguments (callee : String) (least most given : Nat)
  | notExactly (callee : String) (expected given : Nat)
  | expectedExactly (callee : String) (expected given : Nat)
  | expectedAtLeast (callee : String) (least given : Nat)
  | expectedAtMost (callee : String) (most given : Nat)
  | takesAtLeast (callee : String) (least given : Nat)
  | takesAtMost (callee : String) (most given : Nat)
  -- raising
  | notAnError
  | nothingToReraise
  -- nesting
  | tooDeep
  | circularValue
  -- sending
  | notData (typeName : String)
  | badFieldName (typeName : String)
  -- sources
  | notASource
  -- registrations
  | notARegistration
  | unnamedRegistration
  | noHandler (name : Points)
  | invalidInput (name : Points) (input : String)
  | unnamedInput (name : Points)
  | unregisteredInput (name : Points) (input : String)
  | inputKind (name : Points) (input read actual : String)
  | order (cause : Order.Fault Points)
  deriving Inhabited

namespace RuntimeFault

def kind : RuntimeFault → ErrorKind
  | undefinedName _ | unboundOuter _ => .name
  | unboundLocal _ => .unboundLocal
  | divisionByZero | integerDivisionByZero | integerModuloByZero | floatDivisionByZero
  | floatFloorDivisionByZero | floatModuloByZero | zeroToNegativePower => .zeroDivision
  | quotientTooLarge | integerTooLargeForFloat | resultOutOfRange | infinityToInteger
  | repeatTooLarge | lengthTooLarge =>
    .overflow
  | complexPower | nanToInteger | badInteger _ | badFloat _ | integerTooLong _
  | integerTooLongToWrite | zeroStep | tooFewValues .. | tooManyValues _ | noItems _
  | circularValue | unfinishedMark | badMark .. => .value
  | outOfMemory => .memory
  | missingKey _ => .key
  | outOfRange _ | indexTooLarge => .index
  | sizeChanged | nothingToReraise => .run
  | tooDeep => .recursion
  | noAttribute .. | noTypeAttribute .. | readOnly .. => .noAttribute
  | notARegistration | unnamedRegistration | noHandler _ | invalidInput .. | unnamedInput _
  | unregisteredInput .. | inputKind .. | order _ => .script
  | notInteger _ | notReal _ | notAnIndex _ | unsupportedOperands .. | notConcatenable ..
  | notRepeatable _ | badOperand .. | unordered .. | notAContainer _ | notSearchable _
  | unhashable _ | badIndex .. | badTextIndex _ | notSubscriptable _ | typeNotSubscriptable _
  | noItemAssignment _ | noLength _ | notIterable _ | notUnpackable _ | textSum | notJoinable
  | notText .. | notCallable _ | missingArguments .. | tooManyArguments .. | notExactly ..
  | expectedExactly .. | expectedAtLeast .. | expectedAtMost .. | takesAtLeast ..
  | takesAtMost .. | notAnError | notData _ | badFieldName _ | notASource
  | notANumber .. | tooFewForTemplate | tooManyForTemplate => .type

/-- "was" or "were". -/
def wasOrWere (n : Nat) : String := if n = 1 then "was" else "were"

/-- The complaint of a function that was given too much. -/
def tooManyText (callee : String) (least most given : Nat) : String :=
  let span :=
    if least = most then Fault.counted most "positional argument"
    else s!"from {least} to {most} positional arguments"
  callee ++ "() takes " ++ span ++ s!" but {given} " ++ wasOrWere given ++ " given"

/-- "no arguments", "exactly one argument". -/
def exactly : Nat → String
  | 0 => "no arguments"
  | 1 => "exactly one argument"
  | n => s!"exactly {n} arguments"

/-- The text of a fault that carries a single text, but for the names that it may end with. -/
def message : RuntimeFault → String
  | undefinedName name => "name " ++ Text.quoted name ++ " is not defined"
  | unboundLocal name =>
    "cannot access local variable " ++ Text.quoted name
      ++ " where it is not associated with a value"
  | unboundOuter name =>
    "cannot access free variable " ++ Text.quoted name
      ++ " where it is not associated with a value in enclosing scope"
  | divisionByZero => "division by zero"
  | integerDivisionByZero => "integer division or modulo by zero"
  | integerModuloByZero => "integer modulo by zero"
  | floatDivisionByZero => "float division by zero"
  | floatFloorDivisionByZero => "float floor division by zero"
  | floatModuloByZero => "float modulo"
  | zeroToNegativePower => "0.0 cannot be raised to a negative power"
  | complexPower => "negative number cannot be raised to a fractional power"
  | quotientTooLarge => "integer division result too large for a float"
  | integerTooLargeForFloat => "int too large to convert to float"
  | resultOutOfRange => "Numerical result out of range"
  | nanToInteger => "cannot convert float NaN to integer"
  | infinityToInteger => "cannot convert float infinity to integer"
  | badInteger literal => "invalid literal for int() with base 10: " ++ literal
  | badFloat literal => "could not convert string to float: " ++ literal
  | integerTooLong digits => Number.tooLongMessage digits
  | integerTooLongToWrite => Number.tooLongToWriteMessage
  | notInteger t =>
    "int() argument must be a string, a bytes-like object or a real number, not "
      ++ Text.quoted t
  | notReal t => "float() argument must be a string or a real number, not " ++ Text.quoted t
  | notAnIndex t => Text.quoted t ++ " object cannot be interpreted as an integer"
  | zeroStep => "range() arg 3 must not be zero"
  | unsupportedOperands op a b =>
    "unsupported operand type(s) for " ++ op ++ ": " ++ Text.quoted a ++ " and " ++ Text.quoted b
  | notConcatenable a b => "can only concatenate " ++ a ++ " (not \"" ++ b ++ "\") to " ++ a
  | notRepeatable t => "can't multiply sequence by non-int of type " ++ Text.quoted t
  | badOperand op t => "bad operand type for " ++ op ++ ": " ++ Text.quoted t
  | unordered op a b =>
    Text.quoted op ++ " not supported between instances of " ++ Text.quoted a ++ " and "
      ++ Text.quoted b
  | notAContainer t => "argument of type " ++ Text.quoted t ++ " is not iterable"
  | notSearchable t => "'in <string>' requires string as left operand, not " ++ t
  | missingKey _ => ""
  | unhashable t => "unhashable type: " ++ Text.quoted t
  | outOfRange what => what ++ " out of range"
  | indexTooLarge => "cannot fit 'int' into an index-sized integer"
  | badIndex container t => container ++ " indices must be integers or slices, not " ++ t
  | badTextIndex t => "string indices must be integers, not " ++ Text.quoted t
  | notSubscriptable t => Text.quoted t ++ " object is not subscriptable"
  | typeNotSubscriptable name => "type " ++ Text.quoted name ++ " is not subscriptable"
  | noItemAssignment t => Text.quoted t ++ " object does not support item assignment"
  | noLength t => "object of type " ++ Text.quoted t ++ " has no len()"
  | notIterable t => Text.quoted t ++ " object is not iterable"
  | notUnpackable t => "cannot unpack non-iterable " ++ t ++ " object"
  | tooFewValues expected given =>
    s!"not enough values to unpack (expected {expected}, got {given})"
  | tooManyValues expected => s!"too many values to unpack (expected {expected})"
  | sizeChanged => "dictionary changed size during iteration"
  | noItems function => function ++ "() arg is an empty sequence"
  | textSum => "sum() can't sum strings [use ''.join(seq) instead]"
  | notJoinable => "can only join an iterable"
  | notText index t => s!"sequence item {index}: expected str instance, {t} found"
  | repeatTooLarge => "cannot fit 'int' into an index-sized integer"
  | lengthTooLarge => "Python int too large to convert to C ssize_t"
  | outOfMemory => ""
  | unfinishedMark => "incomplete format"
  | badMark mark index =>
    let shown := if mark.val < 0x80 then Char.ofNat mark.val else '?'
    "unsupported format character '" ++ shown.toString ++ "' (0x"
      ++ String.ofList (Nat.toDigits 16 mark.val) ++ s!") at index {index}"
  | notANumber mark t =>
    "%" ++ Points.toString [mark] ++ " format: a real number is required, not " ++ t
  | tooFewForTemplate => "not enough arguments for format string"
  | tooManyForTemplate => "not all arguments converted during string formatting"
  | noAttribute t member => Text.quoted t ++ " object has no attribute " ++ Text.quoted member
  | noTypeAttribute t member =>
    "type object " ++ Text.quoted t ++ " has no attribute " ++ Text.quoted member
  | readOnly t member =>
    Text.quoted t ++ " object attribute " ++ Text.quoted member ++ " is read-only"
  | notCallable t => Text.quoted t ++ " object is not callable"
  | missingArguments callee names => Fault.missingText callee names
  | tooManyArguments callee least most given => tooManyText callee least most given
  | notExactly callee expected given =>
    callee ++ "() takes " ++ exactly expected ++ s!" ({given} given)"
  | expectedExactly callee expected given =>
    callee ++ " expected " ++ Fault.counted expected "argument" ++ s!", got {given}"
  | expectedAtLeast callee least given =>
    callee ++ " expected at least " ++ Fault.counted least "argument" ++ s!", got {given}"
  | expectedAtMost callee most given =>
    callee ++ " expected at most " ++ Fault.counted most "argument" ++ s!", got {given}"
  | takesAtLeast callee least given =>
    callee ++ "() takes at least " ++ Fault.counted least "positional argument"
      ++ s!" ({given} given)"
  | takesAtMost callee most given =>
    callee ++ "() takes at most " ++ Fault.counted most "argument" ++ s!" ({given} given)"
  | notAnError => "exceptions must derive from BaseException"
  | nothingToReraise => "No active exception to reraise"
  | tooDeep => "maximum recursion depth exceeded"
  | circularValue => "Circular reference detected"
  | notData t => "Object of type " ++ t ++ " is not JSON serializable"
  | badFieldName t => "keys must be str, int, float, bool or None, not " ++ t
  | notASource => "compile() arg 1 must be a string, bytes or AST object"
  | notARegistration => "module registration must be a dict"
  | unnamedRegistration => "module registration needs a name"
  | noHandler name => "module " ++ name.quoted ++ " needs a handler"
  | invalidInput name input => "module " ++ name.quoted ++ " has an invalid input " ++ input
  | unnamedInput name => "module " ++ name.quoted ++ " has an input with no name"
  | unregisteredInput name input =>
    "module " ++ name.quoted ++ " reads unregistered module " ++ input
  | inputKind name input read actual =>
    "module " ++ name.quoted ++ " reads " ++ input ++ " as a " ++ read ++ " but it is a "
      ++ actual
  | order cause => cause.lead

/-- The whole text of a fault. -/
def text : RuntimeFault → Points
  | order cause => cause.lead ++ (", " : Points).intercalate cause.names
  | f => f.message

/-- The arguments of a fault as an error object. -/
def args : RuntimeFault → List Value
  | missingKey key => [key]
  | resultOutOfRange => [.int 34, .str (.ofString resultOutOfRange.message)]
  | outOfMemory => []
  | f => [.str f.text]

def toError (f : RuntimeFault) : ErrorObject := ⟨f.kind, f.args, none⟩

end RuntimeFault

end BlockWorkbench.Script
