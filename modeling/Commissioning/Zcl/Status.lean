import Commissioning.Text.Quoted

/-!
Status codes of the Zigbee cluster library. Zero is success; every other code is a refusal, with a
name where the standard gives it one.
-/
namespace Commissioning.Zcl

/-- The codes with their names. -/
def statusNames : List (Int × String) := [
  (0x00, "SUCCESS"), (0x01, "FAILURE"), (0x7e, "NOT_AUTHORIZED"), (0x7f, "RESERVED_FIELD_NOT_ZERO"),
  (0x80, "MALFORMED_COMMAND"), (0x81, "UNSUP_CLUSTER_COMMAND"), (0x82, "UNSUP_GENERAL_COMMAND"),
  (0x83, "UNSUP_MANUF_CLUSTER_COMMAND"), (0x84, "UNSUP_MANUF_GENERAL_COMMAND"),
  (0x85, "INVALID_FIELD"), (0x86, "UNSUPPORTED_ATTRIBUTE"), (0x87, "INVALID_VALUE"),
  (0x88, "READ_ONLY"), (0x89, "INSUFFICIENT_SPACE"), (0x8a, "DUPLICATE_EXISTS"),
  (0x8b, "NOT_FOUND"), (0x8c, "UNREPORTABLE_ATTRIBUTE"), (0x8d, "INVALID_DATA_TYPE"),
  (0x8e, "INVALID_SELECTOR"), (0x8f, "WRITE_ONLY"), (0x90, "INCONSISTENT_STARTUP_STATE"),
  (0x91, "DEFINED_OUT_OF_BAND"), (0x92, "INCONSISTENT"), (0x93, "ACTION_DENIED"),
  (0x94, "TIMEOUT"), (0x95, "ABORT"), (0x96, "INVALID_IMAGE"), (0x97, "WAIT_FOR_DATA"),
  (0x98, "NO_IMAGE_AVAILABLE"), (0x99, "REQUIRE_MORE_IMAGE"), (0x9a, "NOTIFICATION_PENDING"),
  (0xc0, "HARDWARE_FAILURE"), (0xc1, "SOFTWARE_FAILURE"), (0xc2, "CALIBRATION_ERROR"),
  (0xc3, "UNSUPPORTED_CLUSTER")]

/-- The name of a code; one without a name is named by its number. -/
def statusName (code : Int) : String :=
  match statusNames.lookup code with
  | some name => name
  | none => "undefined_0x" ++ String.ofList (Text.hex 2 code.toNat)

/-- A status by itself: its name among the status codes. -/
def statusLabel (code : Int) : String := s!"Status.{statusName code}"

/-- A status as messages show it. -/
def statusText (code : Int) : String := s!"<Status.{statusName code}: {code}>"

end Commissioning.Zcl
