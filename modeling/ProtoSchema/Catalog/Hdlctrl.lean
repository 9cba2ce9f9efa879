import ProtoSchema.Catalog
import ProtoSchema.Client
import ProtoSchema.Value.Writer

/-! # The package `hdlctrl.v1`

The message types of a controller of headless hosts, its services, and the oneof of a host that says
where its process lives.
-/

namespace ProtoSchema.Hdlctrl

def package : String := "hdlctrl.v1"

def accessLevel : EnumPlan :=
  .ofValues package "AccessLevel" [("ACCESS_LEVEL_UNSPECIFIED", 0), ("ACCESS_LEVEL_PRIVATE", 1),
    ("ACCESS_LEVEL_LAN", 2), ("ACCESS_LEVEL_CONTACTS", 3), ("ACCESS_LEVEL_CONTACTS_PLUS", 4),
    ("ACCESS_LEVEL_REGISTERED_USERS", 5), ("ACCESS_LEVEL_ANYONE", 6)]

def worldFolder : MessageType where
  name := "WorldFolder"
  fields := [.single "name" 1 .string, .single "parent" 2 (.message "common.WorldFolder"),
    .repeated "children" 3 (.message "common.WorldFolder")]
  oneofs := []

def hostStatus : EnumPlan :=
  .ofValues package "HeadlessHostStatus" [("HEADLESS_HOST_STATUS_UNSPECIFIED", 0),
    ("HEADLESS_HOST_STATUS_STARTING", 1), ("HEADLESS_HOST_STATUS_RUNNING", 2),
    ("HEADLESS_HOST_STATUS_STOPPING", 3), ("HEADLESS_HOST_STATUS_EXITED", 4),
    ("HEADLESS_HOST_STATUS_CRASHED", 5)]

def resources : MessageType where
  name := "Resources"
  fields := [.single "cpu" 1 (.scalar .float), .single "memory_limit" 2 .int64]
  oneofs := []

def remote : MessageType where
  name := "Remote"
  fields := [.single "address" 1 .string, .single "port" 2 .int32]
  oneofs := []

def instanceMembers : OneofType where
  name := "instance"
  members := [.single "container_id" 10 .string, .single "pid" 11 .int32,
    .single "remote" 12 (.message "controller.HeadlessHost.Remote")]

def headlessHost : MessageType where
  name := "HeadlessHost"
  fields := [.single "id" 1 .string, .single "name" 2 .string, .single "status" 3 (.enum hostStatus),
    .optional "account_id" 4 .string, .single "memory_usage" 5 .int64, .repeated "tags" 6 .string,
    .single "fps" 7 .int32, .single "started_at" 8 .timestamp,
    .single "resources" 9 (.message "controller.HeadlessHost.Resources")]
  oneofs := [instanceMembers]

def worldStartParameters : MessageType where
  name := "WorldStartParameters"
  fields := [.optional "session_name" 1 .string, .optional "max_users" 2 .int32,
    .single "access_level" 3 (.enum accessLevel), .optional "load_world_url" 4 .string,
    .optional "load_world_preset_name" 5 .string, .repeated "auto_invite_usernames" 6 .string,
    .single "thumbnail" 7 .bytes]
  oneofs := []

def session : MessageType where
  name := "Session"
  fields := [.single "id" 1 .string, .single "name" 2 .string,
    .single "access_level" 3 (.enum accessLevel), .single "started_at" 4 .timestamp,
    .optional "ends_at" 5 .timestamp, .single "users_count" 6 .int32]
  oneofs := []

def listHostRequest : MessageType := ⟨"ListHeadlessHostRequest", [], []⟩

def listHostResponse : MessageType where
  name := "ListHeadlessHostResponse"
  fields := [.repeated "hosts" 1 (.message "controller.HeadlessHost")]
  oneofs := []

def startWorldRequest : MessageType where
  name := "StartWorldRequest"
  fields := [.single "host_id" 1 .string,
    .single "parameters" 2 (.message "controller.WorldStartParameters")]
  oneofs := []

def startWorldResponse : MessageType where
  name := "StartWorldResponse"
  fields := [.single "opened_session" 1 (.message "controller.Session")]
  oneofs := []

def tokenRequest : MessageType where
  name := "GetTokenByPasswordRequest"
  fields := [.single "id" 1 .string, .single "password" 2 .string]
  oneofs := []

def tokenResponse : MessageType where
  name := "GetTokenByPasswordResponse"
  fields := [.single "token" 1 .string, .single "expires_at" 2 .timestamp]
  oneofs := []

def catalog : Catalog where
  messages := [("common.WorldFolder", worldFolder), ("controller.HeadlessHost", headlessHost),
    ("controller.HeadlessHost.Resources", resources), ("controller.HeadlessHost.Remote", remote),
    ("controller.WorldStartParameters", worldStartParameters), ("controller.Session", session),
    ("controller.ListHeadlessHostRequest", listHostRequest),
    ("controller.ListHeadlessHostResponse", listHostResponse),
    ("controller.StartWorldRequest", startWorldRequest),
    ("controller.StartWorldResponse", startWorldResponse),
    ("user.GetTokenByPasswordRequest", tokenRequest),
    ("user.GetTokenByPasswordResponse", tokenResponse)]
  enums := [("common.AccessLevel", accessLevel), ("controller.HeadlessHostStatus", hostStatus)]

def listHeadlessHost : RpcType :=
  ⟨"hdlctrl.v1.ControllerService", "ListHeadlessHost", .message "controller.ListHeadlessHostRequest",
    .message "controller.ListHeadlessHostResponse"⟩

def startWorld : RpcType :=
  ⟨"hdlctrl.v1.ControllerService", "StartWorld", .message "controller.StartWorldRequest",
    .message "controller.StartWorldResponse"⟩

def getTokenByPassword : RpcType :=
  ⟨"hdlctrl.v1.UserService", "GetTokenByPassword", .message "user.GetTokenByPasswordRequest",
    .message "user.GetTokenByPasswordResponse"⟩

namespace Host

inductive Step where
  | setContainerId (s : String)
  | setPid (n : Int)
  | setRemote (address : String) (port : Int)
  | clear
  | load (json : String)
deriving Repr

def type : ValueType := .message "controller.HeadlessHost"

def setInstance (member : String) (x : Value) (host : Value) : Value :=
  headlessHost.setMember "instance" member x host

/-- Makes a change; loading a text that cannot be read is a fault. -/
def step (host : Value) : Step → Except ReadFault Value
  | .setContainerId s => .ok (setInstance "container_id" (.text s) host)
  | .setPid n => .ok (setInstance "pid" (.int n) host)
  | .setRemote address port =>
    .ok (setInstance "remote" (.record [.text address, .int port] []) host)
  | .clear => .ok (headlessHost.clear "instance" host)
  | .load json => catalog.decode type json

def containerId? (host : Value) : Option String :=
  match headlessHost.member? "instance" "container_id" host with
  | some (.text s) => some s
  | _ => none

def pid? (host : Value) : Option Int :=
  match headlessHost.member? "instance" "pid" host with
  | some (.int n) => some n
  | _ => none

def remote? (host : Value) : Option (String × Int) :=
  match headlessHost.member? "instance" "remote" host with
  | some (.record [.text address, .int port] []) => some (address, port)
  | _ => none

def case? (host : Value) : Option FieldType := (headlessHost.pick? "instance" host).map (·.1)

end Host

end ProtoSchema.Hdlctrl
