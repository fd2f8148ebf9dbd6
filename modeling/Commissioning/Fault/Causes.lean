import Commissioning.Value.Mismatch
import Commissioning.Value.Numeral
import Commissioning.Zcl.Cluster

/-!
Why a request fails, one type of causes for each part of the work, with the wording of each cause.
-/
namespace Commissioning

/-- Why templates cannot be compiled. Positions count from zero. -/
inductive TemplateError where
  | unsupportedModel (model : Value) (supported : List String)
  | unknownType (type : Value) (index : Nat) (valid : List String)
  | fieldRange (key type : String) (index : Nat) (maximum : Nat) (found : Value)
  | noInputPair (type : String) (index : Nat) (found : Value)
  | missingScene (type : String) (index : Nat)
  | rowRange (type : String) (index : Nat) (row : List Numeral)

def TemplateError.message : TemplateError → String
  | .unsupportedModel model supported =>
    s!"input_action_templates: Model '{model.text}' is not supported (supported models: " ++
      ", ".intercalate supported ++ ")"
  | .unknownType type index valid =>
    s!"input_action_templates: Template type '{type.text}' at index {index} is not valid " ++
      "(valid types: " ++ ", ".intercalate valid ++ ")"
  | .fieldRange key type index maximum found =>
    s!"input_action_templates: '{key}' of '{type}' at index {index} must be an integer from 0 " ++
      s!"to {maximum}, got " ++ found.literal
  | .noInputPair type index found =>
    s!"input_action_templates: 'inputs' of '{type}' at index {index} must be a pair of input " ++
      "numbers, got " ++ found.literal
  | .missingScene type index =>
    s!"input_action_templates: Need an attribute 'scene_id' for '{type}' at index {index}"
  | .rowRange type index row =>
    s!"input_action_templates: '{type}' at index {index} produces an out of range row " ++
      (Value.list (row.map Numeral.toValue)).literal ++ " (input or endpoint above 255)"

/-- Whether the values in a wording can be shown. -/
def TemplateError.isShowable : TemplateError → Bool
  | .unsupportedModel found _ | .unknownType found .. | .fieldRange _ _ _ _ found
  | .noInputPair _ _ found => found.isShowable
  | .missingScene .. => true
  | .rowRange _ _ row => (Value.list (row.map Numeral.toValue)).isShowable

/-- Why the options of a covering are refused. -/
inductive OptionError where
  | unknown (names : List String)
  | noNumber (key : String) (found : Value)
  | negative (key : String) (found : Value)
  | notPositive (key : String) (found : Value)
  | notWhole (key : String) (found : Value)
  | tooLarge (key : String) (found : Int)
  | tooManySteps (source : String) (found : Value) (steps : Int) (target : String)
  | noTruthValue (key : String) (found : Value)

def OptionError.message : OptionError → String
  | .unknown names => "Unknown calibration option(s): " ++ ", ".intercalate names
  | .noNumber key found => s!"{key} must be a number, got " ++ found.literal
  | .negative key found => s!"{key} must not be negative, got " ++ found.text
  | .notPositive key found => s!"{key} must be positive, got " ++ found.text
  | .notWhole key found => s!"{key} must be a whole number, got " ++ found.text
  | .tooLarge key found => s!"{key} must be at most 65535, got {found}"
  | .tooManySteps source found steps target =>
    s!"{source}={found.text} converts to {steps} steps for {target}, above the maximum of 65535"
  | .noTruthValue key found => s!"{key} must be true or false, got " ++ found.literal

/-- Whether the values in a wording can be shown. -/
def OptionError.isShowable : OptionError → Bool
  | .unknown _ => true
  | .noNumber _ found | .negative _ found | .notPositive _ found | .notWhole _ found
  | .noTruthValue _ found => found.isShowable
  | .tooLarge _ found => Number.isWritable found
  | .tooManySteps _ found steps _ => found.isShowable && Number.isWritable steps

/-- Why raw payloads of the setup cluster are refused. -/
inductive PayloadError where
  | configuration (position : Nat) (found : Value)
  | action (position : Nat) (found : List Value)

def PayloadError.message : PayloadError → String
  | .configuration position found =>
    s!"input_configurations[{position}] must be an integer from 0 to 255, got " ++ found.literal
  | .action position found =>
    s!"input_actions[{position}] must be at least 6 integers from 0 to 255, got " ++
      (Value.list found).literal

/-- Whether the values in a wording can be shown. -/
def PayloadError.isShowable : PayloadError → Bool
  | .configuration _ found => found.isShowable
  | .action _ found => (Value.list found).isShowable

/-- Why the settings of a dimmer are refused. -/
inductive DimmerError where
  | nothingRequested
  | unknownMode (found : Value) (valid : List String)
  | level (found : Value)

def DimmerError.message : DimmerError → String
  | .nothingRequested => "At least one of phase_control_mode or minimum_on_level is required"
  | .unknownMode found valid =>
    s!"Invalid phase_control_mode '{found.text}'. Valid modes: " ++ ", ".intercalate valid
  | .level found => "minimum_on_level must be an integer from 0 to 255, got " ++ found.literal

/-- Whether the values in a wording can be shown. -/
def DimmerError.isShowable : DimmerError → Bool
  | .nothingRequested => true
  | .unknownMode found _ | .level found => found.isShowable

/-- The operations of which one device runs one at a time. -/
inductive Operation where
  | calibration
  | deviceSetup
  | dimmerSetup
  deriving DecidableEq, Repr

def Operation.name : Operation → String
  | .calibration => "calibration"
  | .deviceSetup => "device_setup"
  | .dimmerSetup => "dimmer_setup"

/-- Why a device cannot be addressed, or not now. -/
inductive AccessError where
  | missingAddress
  | malformedAddress (address : String)
  | noGateway
  | noDeviceTable (gateway : String)
  | unknownDevice (address : String)
  | noDimmer (address : String) (model : Value) (dimmers : List String)
  | busy (operation : Operation) (address : String)

def AccessError.message : AccessError → String
  | .missingAddress => "Missing required parameter: device_ieee"
  | .malformedAddress address => s!"Invalid device IEEE address: {address}"
  | .noGateway => "ZHA integration is not loaded"
  | .noDeviceTable gateway => s!"ZHA gateway {gateway} exposes no device table"
  | .unknownDevice address => s!"Device not found in ZHA: {address}"
  | .noDimmer address model dimmers =>
    s!"Device {address} is not a D1 dimmer (model: {model.text}). D1 configuration only " ++
      "applies to " ++ ", ".intercalate dimmers ++ "."
  | .busy .calibration address =>
    s!"Calibration already in progress for device {address}. " ++
      "Please wait for the current calibration to complete."
  | .busy .deviceSetup address => s!"DeviceSetup write already in progress for device {address}"
  | .busy .dimmerSetup address => s!"D1 configuration already in progress for device {address}"

/-- The two ways of writing attributes. -/
inductive WriteForm where
  | plain
  | structured
  deriving DecidableEq, Repr

/-- The words for a write of a cluster. -/
def WriteForm.describe (form : WriteForm) (cluster : Cluster) : String :=
  (match form with
    | .plain => "Write of "
    | .structured => "Structured write of ") ++ cluster.name

/-- Why an exchange with a device failed. -/
inductive LinkError where
  | unknownCluster (name : Value)
  | noEndpoint (endpoint : Nat) (device : String)
  | noCluster (id endpoint : Nat) (device : String)
  | read (cluster : Cluster) (attributes : List String) (cause : String)
  | incomplete (cluster : Cluster) (missing : List String) (failures : List (Value × Value))
  | write (cluster : Cluster) (attributes : List String) (cause : String)
  | command (cluster : Cluster) (name : String) (cause : String)
  | structured (cluster : Cluster) (cause : String)
  | refused (form : WriteForm) (cluster : Cluster) (status : Int)
  | refusedAttribute (form : WriteForm) (cluster : Cluster) (id : Option Int) (status : Int)
  /-- A failure that was arranged for one kind of call and one name. -/
  | arranged (kind name : String)

def LinkError.message : LinkError → String
  | .unknownCluster name => s!"Unknown cluster name: {name.text}"
  | .noEndpoint endpoint device => s!"Endpoint {endpoint} not found on device {device}"
  | .noCluster id endpoint device =>
    "Cluster 0x" ++ (String.ofList (Text.hex 4 id)).map Char.toUpper ++
      s!" not found on endpoint {endpoint} of device {device}"
  | .read cluster attributes cause =>
    s!"Read of {cluster.name} " ++ Value.namesLiteral attributes ++ s!" failed: {cause}"
  | .incomplete cluster missing failures =>
    s!"Read of {cluster.name} incomplete: missing=" ++ Value.namesLiteral missing ++
      " failure=" ++ Value.pairsLiteral failures
  | .write cluster attributes cause =>
    s!"Write of {cluster.name} " ++ Value.namesLiteral attributes ++ s!" failed: {cause}"
  | .command cluster name cause => s!"Command {cluster.name}.{name} failed: {cause}"
  | .structured cluster cause => s!"Structured write of {cluster.name} failed: {cause}"
  | .refused form cluster status =>
    form.describe cluster ++ " rejected: status " ++ Zcl.statusText status
  | .refusedAttribute form cluster id status =>
    form.describe cluster ++ " rejected: attribute " ++
      (match id with
        | some n => toString n
        | none => "None") ++ " status " ++ Zcl.statusText status
  | .arranged kind name => s!"{kind} {name} failed"

/-- Whether the values in a wording can be shown. The numbers in it are written as they are sent, in
a few octets. -/
def LinkError.isShowable : LinkError → Bool
  | .unknownCluster name => name.isShowable
  | .incomplete _ _ failures => failures.all fun (key, item) => key.isShowable && item.isShowable
  | _ => true

/-- A step from data to a part of it. -/
inductive PathStep where
  | key (name : String)
  | item (index : Nat)
  deriving DecidableEq, Repr

/-- A step as messages show it. -/
def PathStep.text : PathStep → String
  | .key name => "[" ++ Text.quoted name ++ "]"
  | .item index => s!"[{index}]"

/-- What is wrong with the data of a service. -/
inductive FormProblem where
  | noDictionary
  | extraKey
  | missingKey
  | noInteger
  | noReal
  | below (minimum : Nat)
  | above (maximum : Nat)
  | notAbove (bound : Nat)
  | noChoice (choices : List String)
  | noneOf (keys : List String)
  | noMapping
  | nullText
  | noText
  | noTruthValue (text : String)
  /-- A value that cannot be shown, where it is to be turned into a text. -/
  | notValid

def FormProblem.message : FormProblem → String
  | .noDictionary => "expected a dictionary"
  | .extraKey => "extra keys not allowed"
  | .missingKey => "required key not provided"
  | .noInteger => "expected int"
  | .noReal => "expected float"
  | .below minimum => s!"value must be at least {minimum}"
  | .above maximum => s!"value must be at most {maximum}"
  | .notAbove bound => s!"value must be higher than {bound}"
  | .noChoice choices => "value must be one of " ++ Value.namesLiteral choices
  | .noneOf keys => "must contain at least one of " ++ ", ".intercalate keys ++ "."
  | .noMapping => "expected dict"
  | .nullText => "string value is None"
  | .noText => "value should be a string"
  | .noTruthValue text => s!"invalid boolean value {text}"
  | .notValid => "not a valid value"

/-- A problem and where in the data it is. -/
structure FormError where
  problem : FormProblem
  path : List PathStep

/-- A problem with the whole value under a key says so, unless the key itself is the problem. -/
def FormError.message (e : FormError) : String :=
  let scope := match e.problem, e.path with
    | .extraKey, _ | .missingKey, _ => ""
    | _, [.key _] => " for dictionary value"
    | _, _ => ""
  let place := match e.path with
    | [] => ""
    | steps => " @ data" ++ String.join (steps.map PathStep.text)
  e.problem.message ++ scope ++ place

end Commissioning
