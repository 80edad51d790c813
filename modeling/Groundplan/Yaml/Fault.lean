import Groundplan.Calendar
import Groundplan.Text.Display

/-!
# Why a text denotes no value

Either the text is no well-formed document, or a part of it cannot be built: a scalar has a type that
its text does not fit, or collections, merges or default marks are nested too deep. The second kind
says what was wrong.
-/

namespace Groundplan.Yaml

/-- Why a part of a document cannot be built. -/
inductive ScalarFault where
  | integer (text : String) (base : Nat)
  | integerSize (digits : Nat)
  | float (text : String)
  | emptyNumber
  | boolean (text : String)
  | timestamp
  | calendar (fault : CalendarFault)
  | codePoint
  | codePointSize
  | sixtiesSize
  | timestampHolder
  | tooDeep
  | deepMerge
  deriving DecidableEq, Repr

/-- Why a text denotes no value. -/
inductive Fault where
  | malformed
  | unbuildable (fault : ScalarFault)
  deriving DecidableEq, Repr

def ScalarFault.message : ScalarFault → String
  | .integer text base =>
    "invalid literal for int() with base " ++ Text.decimal base ++ ": " ++
      String.ofList ((Text.display text).toList.take 200)
  | .integerSize digits =>
    "Exceeds the limit (4300 digits) for integer string conversion: value has " ++
      Text.decimal digits ++
      " digits; use sys.set_int_max_str_digits() to increase the limit"
  | .float text => "could not convert string to float: " ++ Text.display text
  | .emptyNumber => "string index out of range"
  | .boolean text => Text.display text
  | .timestamp => "'NoneType' object has no attribute 'groupdict'"
  | .calendar fault => fault.message
  | .codePoint => "chr() arg not in range(0x110000)"
  | .codePointSize => "Python int too large to convert to C int"
  | .sixtiesSize => "int too large to convert to float"
  | .timestampHolder => "expected string or bytes-like object, got 'list'"
  | .tooDeep => "maximum recursion depth exceeded"
  | .deepMerge => "maximum recursion depth exceeded in comparison"

end Groundplan.Yaml
