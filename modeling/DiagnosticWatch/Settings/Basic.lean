/-
# Settings of the watcher

Where the debug server is and how long the watcher waits for what. Settings
are made from a JSON object, whose members replace the defaults, and are
checked as a whole: the host first, then the port, then the intervals.

Key definitions: `Settings`, `SettingsError`, `Settings.ofMembers`,
`Settings.ofKnown`, `Settings.overlaid`.
-/
import DiagnosticWatch.Json.Value
import DiagnosticWatch.Settings.Loopback
import DiagnosticWatch.Text.Quoted

namespace DiagnosticWatch

/-- Where the debug server is, and the intervals of the watcher in seconds. -/
structure Settings where
  host : String := "127.0.0.1"
  port : Number := .int 27099
  /-- How long a connect attempt may take. -/
  connectTimeout : Number := .float 2.0
  /-- How long nothing may be received before a sign of life is sent. -/
  keepAliveInterval : Number := .float 5.0
  /-- The least time between two connect attempts. -/
  retryInterval : Number := .float 5.0
  /-- The time between two ticks on a connection. -/
  connectedInterval : Number := .float 0.15
  /-- The time from a change to its signal. -/
  debounce : Number := .float 0.25
deriving Repr, Inhabited

/-- Why there are no settings. -/
inductive SettingsError where
  /-- A file that may hold them cannot be looked up. -/
  | unreachable (why : String)
  | unknownMember (name : String)
  /-- A member has the name under which the settings themselves are passed. -/
  | reservedMember
  | hostMissing
  | hostNotText (type : String)
  | hostElsewhere (host : String)
  | portNotNumber (type : String)
  | portOutside
  | intervalNotNumber (type : String)
  | intervalNotPositive (name : String)
deriving Repr, DecidableEq

/-- The name that no member may have. -/
def SettingsError.reserved : String := "self"

/-- The wording of an error. -/
def SettingsError.message : SettingsError → String
  | .unreachable why => why
  | .unknownMember name => s!"LinkConfig.__init__() got an unexpected keyword argument '{name}'"
  | .reservedMember =>
    s!"LinkConfig.__init__() got multiple values for argument '{SettingsError.reserved}'"
  | .hostMissing => "host is required"
  | .hostNotText type => s!"'{type}' object has no attribute 'strip'"
  | .hostElsewhere host => s!"host must be a loopback address, got {Quoted.quote host}"
  | .portNotNumber type => s!"'<' not supported between instances of 'int' and '{type}'"
  | .portOutside => "port must be between 1 and 65535"
  | .intervalNotNumber type => s!"'<=' not supported between instances of '{type}' and 'int'"
  | .intervalNotPositive name => s!"{name} must be positive"

/-- Whether a value, or the set of members, is of the wrong type, as opposed to a
value of the right type that is not allowed. -/
def SettingsError.isMistyped : SettingsError → Bool
  | .unknownMember _ | .reservedMember | .hostNotText _ | .portNotNumber _
  | .intervalNotNumber _ => true
  | .unreachable _ | .hostMissing | .hostElsewhere _ | .portOutside
  | .intervalNotPositive _ => false

namespace Settings

/-- The members of settings as a JSON object. -/
def members (s : Settings) : Json.Members :=
  [("host", .text s.host), ("port", .number s.port),
    ("connect_timeout", .number s.connectTimeout),
    ("keep_alive_interval", .number s.keepAliveInterval),
    ("retry_interval", .number s.retryInterval),
    ("connected_interval", .number s.connectedInterval), ("debounce", .number s.debounce)]

/-- The names of the members. -/
def names : List String :=
  members {} |>.map (·.1)

/-- Checks a host. -/
def checkHost (value : Json) : Except SettingsError String :=
  match value with
  | .text host =>
    if host = "" then .error .hostMissing
    else if Loopback.isHost host then .ok host
    else .error (.hostElsewhere host)
  | other => if other.isTrue then .error (.hostNotText other.typeName) else .error .hostMissing

/-- Checks a port. -/
def checkPort (value : Json) : Except SettingsError Number :=
  match value with
  | .number port =>
    if port.exceeds 0 ∧ port.lessThan 65536 then .ok port else .error .portOutside
  | other => .error (.portNotNumber other.typeName)

/-- Checks an interval. -/
def checkInterval (name : String) (value : Json) : Except SettingsError Number :=
  match value with
  | .number n => if n.atMost 0 then .error (.intervalNotPositive name) else .ok n
  | other => .error (.intervalNotNumber other.typeName)

/-- The settings of an object that may lack members: those are the defaults. Other
members are not looked at. -/
def ofKnown (given : Json.Members) : Except SettingsError Settings := do
  let value := fun name => ((members {}).overlay given |>.get? name).getD .null
  let host ← checkHost (value "host")
  let port ← checkPort (value "port")
  let connectTimeout ← checkInterval "connect_timeout" (value "connect_timeout")
  let keepAliveInterval ← checkInterval "keep_alive_interval" (value "keep_alive_interval")
  let retryInterval ← checkInterval "retry_interval" (value "retry_interval")
  let connectedInterval ← checkInterval "connected_interval" (value "connected_interval")
  let debounce ← checkInterval "debounce" (value "debounce")
  return ⟨host, port, connectTimeout, keepAliveInterval, retryInterval, connectedInterval, debounce⟩

/-- The settings of an object that may hold only members that settings have. -/
def ofMembers (given : Json.Members) : Except SettingsError Settings :=
  match given.find? fun m => !names.contains m.1 with
  | some m =>
    if m.1 = SettingsError.reserved then .error .reservedMember else .error (.unknownMember m.1)
  | none => ofKnown given

/-- Settings with some members replaced; a null replaces nothing. -/
def overlaid (s : Settings) (upper : Json.Members) : Except SettingsError Settings :=
  ofKnown (s.members.overlay (upper.filter fun m => match m.2 with
    | .null => false
    | _ => true))

end Settings
end DiagnosticWatch
