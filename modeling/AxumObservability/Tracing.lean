import AxumObservability.Platform

/-!
# Spans and events

What the tracing library hands to a layer: the metadata of a callsite, the
fields recorded there, and the spans an event lies in.
-/

namespace AxumObservability

open Library.Json

inductive Level where
  | trace
  | debug
  | info
  | warn
  | error
  deriving DecidableEq

def Level.asStr : Level → String
  | .trace => "TRACE"
  | .debug => "DEBUG"
  | .info => "INFO"
  | .warn => "WARN"
  | .error => "ERROR"

structure Metadata where
  name : String
  target : String
  modulePath : Option String
  level : Level
  deriving DecidableEq

/-- A recorded value, by the visitor method that receives it. A float is finite
or not a JSON number; an error and a debug value arrive as their texts. -/
inductive FieldValue where
  | f64 (finite : Option FloatLiteral)
  | i64 (n : Int)
  | u64 (n : Nat)
  | bool (b : Bool)
  | str (s : String)
  | error (display : String)
  | debug (text : String)

/-- The fields of a callsite in declaration order. An empty field is declared
and not recorded. -/
abbrev Fields := List (String × Option FieldValue)

structure Attributes where
  metadata : Metadata
  fields : Fields

structure Event where
  metadata : Metadata
  fields : Fields

end AxumObservability
