import Commissioning.Number.Binary64
import Commissioning.Number.Shortest
import Commissioning.Text.Blank
import Commissioning.Text.Digit
import Commissioning.Text.Printable
import Commissioning.Text.LowerCase
import Commissioning.Text.Quoted
import Commissioning.Number.Reader
import Commissioning.Zcl.Status
import Commissioning.Value.Basic
import Commissioning.Value.Render
import Commissioning.Value.Mismatch
import Commissioning.Value.Numeral
import Commissioning.Zcl.Cluster
import Commissioning.Fault.Category
import Commissioning.Fault.Causes
import Commissioning.Fault.Basic
import Commissioning.Value.Reading
import Commissioning.Value.Key
import Commissioning.Log
import Commissioning.Logged
import Commissioning.InputAction.Row
import Commissioning.InputAction.Model
import Commissioning.InputAction.Cursor
import Commissioning.InputAction.Template
import Commissioning.InputAction.Compile
import Commissioning.Text.Sections
import Commissioning.Firmware.Version
import Commissioning.Zcl.TypedArray
import Commissioning.Exchange.Plan
import Commissioning.Exchange.Request
import Commissioning.Exchange.Recording
import Commissioning.Number.Quantity
import Commissioning.Covering.Options
import Commissioning.Covering.Calibration
import Commissioning.DeviceSetup.Write
import Commissioning.DeviceSetup.Configure
import Commissioning.Dimmer.Settings
import Commissioning.Dimmer.Configure
import Commissioning.Zcl.Registry
import Commissioning.Device.Address
import Commissioning.Device.Call
import Commissioning.Device.Reply
import Commissioning.Device.Basic
import Commissioning.Device.Hub
import Commissioning.Device.Activity
import Commissioning.Service.Directory
import Commissioning.Service.Shared
import Commissioning.Service.Form
import Commissioning.Service.Catalogue
import Commissioning.Service.Job
import Commissioning.Service.Task
import Commissioning.Service.Session
import Commissioning.Proofs.Covering.Phase
import Commissioning.Proofs.Covering.CalibrationBit
import Commissioning.Proofs.Covering.FinalState
import Commissioning.Proofs.Device.Opening
import Commissioning.Proofs.Service.Admission
import Commissioning.Proofs.Service.Exclusion
import Commissioning.Proofs.Service.LockProtocol
import Commissioning.Proofs.InputAction.RowFormat
import Commissioning.Proofs.InputAction.Expansion
import Commissioning.Proofs.InputAction.InputIndex
import Commissioning.Proofs.Device.Faults
import Commissioning.Proofs.DeviceSetup.Checks
import Commissioning.Proofs.Service.Faults
import Commissioning.Proofs.Service.Rejection
import Commissioning.Proofs.Device.Exchange
import Commissioning.Proofs.Device.Keeping
import Commissioning.Proofs.Zcl.Building
import Commissioning.Proofs.Zcl.Flattening
import Commissioning.Proofs.DeviceSetup.Arrays
import Commissioning.Proofs.DeviceSetup.ReadBack
import Commissioning.Proofs.Service.FailStop
import Commissioning.Proofs.Service.Announcement
import Commissioning.Proofs.Service.Independence
import Commissioning.Proofs.Service.Strictness
import Commissioning.Proofs.InputAction.Soundness
import Commissioning.Proofs.DeviceSetup.Wire
import Commissioning.Proofs.Zcl.ElementRange
import Commissioning.Proofs.Service.Footprint
import Commissioning.Proofs.Zcl.Registry
import Commissioning.Proofs.InputAction.Allocation
import Commissioning.Proofs.Covering.Movement
import Commissioning.Proofs.Covering.Waiting
import Commissioning.Proofs.Covering.Closure
import Commissioning.Proofs.InputAction.CoverEndpoint
import Commissioning.Proofs.InputAction.Composition
import Commissioning.Proofs.InputAction.Blocks
import Commissioning.Proofs.InputAction.SceneGroup
import Commissioning.Proofs.InputAction.GivenFields
import Commissioning.Proofs.InputAction.ModelShift
import Commissioning.Proofs.InputAction.Unambiguous
import Commissioning.Proofs.Number.HalfUp
import Commissioning.Proofs.Covering.Acceptance
import Commissioning.Proofs.Covering.Steps
import Commissioning.Proofs.Number.Sign
import Commissioning.Proofs.Covering.NormalForm
import Commissioning.Proofs.Text.Sections
import Commissioning.Proofs.Text.Trim
import Commissioning.Proofs.Firmware.Grammar
import Commissioning.Proofs.Firmware.Gate
import Commissioning.Proofs.Device.Writes
import Commissioning.Proofs.Device.Reads
import Commissioning.Proofs.Device.Carrying
import Commissioning.Proofs.Dimmer.Settings
import Commissioning.Proofs.Dimmer.Configure
