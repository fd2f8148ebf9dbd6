import Commissioning.Fault.Category
import Commissioning.Fault.Causes

/-!
Faults: every cause of failure of the program under one type, with its kind and its wording.
-/
namespace Commissioning

/-- A cause of failure. -/
inductive Fault where
  | template (e : TemplateError)
  | option (e : OptionError)
  | payload (e : PayloadError)
  | dimmer (e : DimmerError)
  | access (e : AccessError)
  | link (e : LinkError)
  /-- The motor still ran some time after a phase of a calibration had set it in motion. -/
  | motorRunning (phase : String) (elapsed : Nat) (lastStatus : Value)
  | form (e : FormError)
  | mismatch (e : Mismatch)
  /-- A row with too few octets. -/
  | shortRow (count : Nat)
  | cancelled

namespace Fault

/-- The kind of a mismatch. -/
def mismatchCategory : Mismatch → Category
  | .integerText _ | .tooManyDigits _ | .unwritable | .realText _ | .undefinedInteger | .octetRange
  | .negativeCount | .greatestOfNone | .pairLength .. | .wordRange .. | .fixedLength ..
  | .octetsTooLong | .noArrayAttribute _ => .value
  | .noInteger _ | .noReal _ | .operand _ | .textOctets | .textAmongOctets | .noOctets _
  | .noIndex _ | .noItems _ | .noContainer _ | .noPositions _ | .namedPosition _ | .noCall _
  | .noKey _ | .noPair _ | .noNames _ | .takenName _ => .type
  | .infiniteInteger | .integerTooLarge | .quotientTooLarge | .countTooLarge => .overflow
  | .noRoom => .room
  | .zeroDivisor _ => .zeroDivision
  | .pastEnd _ => .position
  | .missingName _ => .name
  | .missingPart .. => .part

/-- The kind of a fault. -/
def category : Fault → Category
  | .template _ => .configuration
  | .option _ | .payload _ | .dimmer _ => .validation
  | .access (.malformedAddress _) | .access (.noDimmer ..) => .validation
  | .access _ => .request
  | .link _ => .transport
  | .motorRunning .. => .motorRunning
  | .form _ => .form
  | .mismatch e => mismatchCategory e
  | .shortRow _ => .value
  | .cancelled => .cancelled

/-- The wording of a fault. -/
def message : Fault → String
  | .template e => e.message
  | .option e => e.message
  | .payload e => e.message
  | .dimmer e => e.message
  | .access e => e.message
  | .link e => e.message
  | .motorRunning phase elapsed lastStatus =>
    s!"Actuator did not stop during {phase} after {tenthsText (tenthsOf elapsed)}s " ++
      s!"(last OperationalStatus: {lastStatus.text})"
  | .form e => e.message
  | .mismatch e => e.message
  | .shortRow count => s!"row has {count} bytes (minimum 6 required)"
  | .cancelled => ""

/-- Whether the values in a wording can be shown. The causes that hold none of a caller's values
always can. -/
def isShowable : Fault → Bool
  | .template e => e.isShowable
  | .option e => e.isShowable
  | .payload e => e.isShowable
  | .dimmer e => e.isShowable
  | .link e => e.isShowable
  | _ => true

/-- The fault that a cause is raised as. A cause is worded when it is raised, so one that shows a
value that cannot be written gives way to the mismatch of that value. -/
def raised (e : Fault) : Fault := if e.isShowable then e else .mismatch .unwritable

instance : Coe Mismatch Fault := ⟨.mismatch⟩

end Fault

/-- What comes out of a computation that may fail. -/
abbrev Outcome (α : Type) := Except Fault α

/-- A mismatch seen as a fault. -/
def ofMismatch (r : Except Mismatch α) : Outcome α := r.mapError .mismatch

end Commissioning
