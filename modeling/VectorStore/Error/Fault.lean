/-
  Faults: failures that are no store errors.

  A fault arises when a document is read as something it is not (`Fault.notInt`,
  `Fault.missingKey`, …), when an operation is missing, or in the driver of a service
  (`Fault.driver`).  Adapters state the faults of their service as store errors;
  `Fault.message` gives the wording that ends up in them, `Fault.label` the kind that is
  reported for a fault that reaches the caller.
-/
import VectorStore.Number.Reader
import VectorStore.Value.Printed

namespace VectorStore

/-- The kinds of errors that drivers and services raise. -/
inductive DriverKind where
  | driver
  | timeout
  | os
  | connectionReset
  | connectionRefused
  | runtime
  | interface
  | cancelled
  | responseHandling
  | unexpectedResponse
  | apiTimeout
  | apiConnection
deriving DecidableEq, Repr

namespace DriverKind

/-- The name under which the kind is reported. -/
def label : DriverKind → String
  | driver => "DriverError"
  | timeout => "TimeoutError"
  | os => "OSError"
  | connectionReset => "ConnectionResetError"
  | connectionRefused => "ConnectionRefusedError"
  | runtime => "RuntimeError"
  | interface => "InterfaceError"
  | cancelled => "CancelledError"
  | responseHandling => "ResponseHandlingException"
  | unexpectedResponse => "UnexpectedResponse"
  | apiTimeout => "APITimeoutError"
  | apiConnection => "APIConnectionError"

/-- Whether the kind is a failure of the operating system: files, sockets and their time. -/
def isSystem : DriverKind → Bool
  | timeout | os | connectionReset | connectionRefused => true
  | _ => false

end DriverKind

/-- An error of a driver or a service, with the attributes it carries. -/
structure DriverError where
  kind : DriverKind
  message : String
  sqlstate : Option Value
  statusCode : Option Value
  retryAfter : Option Value

/-- A failure that is no store error. -/
inductive Fault where
  /-- a value of the type cannot be gone through item by item -/
  | notIterable (typeName : String)
  /-- a value of the type has no fields -/
  | notIndexable (typeName : String)
  /-- a list has positions, no named fields -/
  | listIndex
  /-- a text has positions, no named fields -/
  | textIndex
  | missingKey (name : String)
  /-- a value of the type has no such attribute -/
  | missingAttribute (typeName name : String)
  | notInt (typeName : String)
  | badIntText (s : String)
  /-- a text with more digits than an integer's text may have -/
  | intTextTooLong (digits : Nat)
  | nanToInt
  | infinityToInt
  | notFloat (typeName : String)
  | badFloatText (s : String)
  | intTooLarge
  /-- an integer with more digits than an integer's text may have -/
  | intTooLong
  /-- a finite number whose square is beyond the largest double -/
  | squareTooLarge
  /-- an item in a list of pairs is no pair -/
  | notPair (position : Nat) (length : Nat)
  /-- an item in a list of pairs cannot be taken apart -/
  | notSequence (position : Nat)
  /-- a list or an object as the name of a field -/
  | notHashable (typeName : String)
  /-- two values of these types have no order -/
  | notOrdered (operator left right : String)
  | badOperand (operator left right : String)
  | badJson
  | badDecimal (s : String)
  /-- a model of a service's interface refuses a value -/
  | badModel
  | notImplemented
  /-- the end of a task that was cancelled -/
  | cancelled
  /-- a setting is refused -/
  | badSetting (message : String)
  | driver (e : DriverError)

namespace Fault

/-- The kind of the fault. -/
def label : Fault → String
  | notIterable _ | notIndexable _ | listIndex | textIndex | notInt _ | notFloat _
  | notSequence _ | notHashable _ | notOrdered .. | badOperand .. => "TypeError"
  | missingKey _ => "KeyError"
  | missingAttribute .. => "AttributeError"
  | badIntText _ | intTextTooLong _ | intTooLong | nanToInt | badFloatText _ | notPair ..
  | badSetting _ => "ValueError"
  | infinityToInt | intTooLarge | squareTooLarge => "OverflowError"
  | badJson => "JSONDecodeError"
  | badDecimal _ => "InvalidOperation"
  | badModel => "ValidationError"
  | notImplemented => "NotImplementedError"
  | cancelled => DriverKind.cancelled.label
  | driver e => e.kind.label

/-- The most characters of a refused text that are quoted. -/
def longestQuote : Nat := 200

/-- The beginning of a quoted text. -/
def shortened (quoted : String) : String := String.ofList (quoted.toList.take longestQuote)

/-- The fault of a text that denotes no integer. -/
def ofIntRefusal (s : String) : Number.IntRefusal → Fault
  | .malformed => badIntText s
  | .tooManyDigits n => intTextTooLong n

/-- The wording of the fault. -/
def message : Fault → String
  | notIterable t => s!"'{t}' object is not iterable"
  | notIndexable t => s!"'{t}' object is not subscriptable"
  | listIndex => "list indices must be integers or slices, not str"
  | textIndex => "string indices must be integers, not 'str'"
  | missingKey name => Text.quoted name
  | missingAttribute t a => s!"'{t}' object has no attribute '{a}'"
  | notInt t =>
    s!"int() argument must be a string, a bytes-like object or a real number, not '{t}'"
  | badIntText s => "invalid literal for int() with base 10: " ++ shortened (Text.quoted s)
  | intTextTooLong n =>
    s!"Exceeds the limit ({Number.natText Number.maxIntDigits} digits) for integer string " ++
      s!"conversion: value has {Number.natText n} digits; " ++
      "use sys.set_int_max_str_digits() to increase the limit"
  | nanToInt => "cannot convert float NaN to integer"
  | infinityToInt => "cannot convert float infinity to integer"
  | notFloat t => s!"float() argument must be a string or a real number, not '{t}'"
  | badFloatText s => s!"could not convert string to float: {Text.quoted s}"
  | intTooLarge => "int too large to convert to float"
  | intTooLong =>
    s!"Exceeds the limit ({Number.natText Number.maxIntDigits} digits) for integer string " ++
      "conversion; use sys.set_int_max_str_digits() to increase the limit"
  | squareTooLarge => "(34, 'Numerical result out of range')"
  | notPair i n =>
    s!"dictionary update sequence element #{Number.natText i} has length {Number.natText n}; " ++
      "2 is required"
  | notSequence i =>
    s!"cannot convert dictionary update sequence element #{Number.natText i} to a sequence"
  | notHashable t => s!"unhashable type: '{t}'"
  | notOrdered op l r => s!"'{op}' not supported between instances of '{l}' and '{r}'"
  | badOperand op l r => s!"unsupported operand type(s) for {op}: '{l}' and '{r}'"
  | badJson => "malformed JSON text"
  | badDecimal _ => "[<class 'decimal.ConversionSyntax'>]"
  | badModel => "a model refused a value"
  | notImplemented | cancelled => ""
  | badSetting m => m
  | driver e => e.message

/-- Whether the fault is the end of a cancelled call rather than a failure of its own. -/
def isCancellation : Fault → Bool
  | driver e => e.kind == .cancelled
  | cancelled => true
  | _ => false

end Fault

end VectorStore
