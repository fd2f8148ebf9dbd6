/-!
The kinds of failure, each with the name under which it is reported, and how the kinds of this
program specialise one another.
-/
namespace Commissioning

/-- A kind of failure. -/
inductive Category where
  /-- The request cannot be served. -/
  | request
  /-- The input of a service is refused. -/
  | serviceInput
  /-- Any failure of this program. -/
  | commissioning
  /-- An exchange with the device failed. -/
  | transport
  /-- The motor kept running. -/
  | motorRunning
  /-- Templates or a model that cannot be compiled. -/
  | configuration
  /-- Input out of range or of the wrong shape. -/
  | validation
  /-- The data of a service does not have its form. -/
  | form
  /-- A value that does not fit. -/
  | value
  /-- A value of the wrong type. -/
  | type
  /-- A part that is not there. -/
  | part
  /-- A name that is not there. -/
  | name
  /-- A position that is not there. -/
  | position
  /-- A number that is too large. -/
  | overflow
  /-- More than there is room for. -/
  | room
  /-- A division by zero. -/
  | zeroDivision
  /-- The call was given up from outside. -/
  | cancelled
  deriving DecidableEq, Repr

namespace Category

/-- The name under which a kind of failure is reported. -/
def label : Category → String
  | request => "HomeAssistantError"
  | serviceInput => "ServiceValidationError"
  | commissioning => "UbisysSetupError"
  | transport => "TransportError"
  | motorRunning => "ActuatorNotStoppedError"
  | configuration => "ConfigurationError"
  | validation => "ValidationError"
  | form => "MultipleInvalid"
  | value => "ValueError"
  | type => "TypeError"
  | part => "AttributeError"
  | name => "KeyError"
  | position => "IndexError"
  | overflow => "OverflowError"
  | room => "MemoryError"
  | zeroDivision => "ZeroDivisionError"
  | cancelled => "CancelledError"

/-- A kind and the kinds that it specialises, the nearest first; only the program's own kinds and
those they build on have a place in it. -/
def ancestry : Category → List Category
  | request => [request]
  | serviceInput => [serviceInput, request]
  | commissioning => [commissioning, request]
  | transport => [transport, commissioning, request]
  | motorRunning => [motorRunning, transport, commissioning, request]
  | configuration => [configuration, commissioning, request]
  | validation => [validation, serviceInput, commissioning, request]
  | _ => []

/-- The kinds that have a place in the ancestry. -/
def ranked : List Category :=
  [request, serviceInput, commissioning, transport, motorRunning, configuration, validation]

/-- The ranked kind of a name. -/
def ofLabel? (s : String) : Option Category := ranked.find? fun c => c.label == s

end Category

end Commissioning
