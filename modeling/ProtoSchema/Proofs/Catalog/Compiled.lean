import ProtoSchema.Catalog.Hdlctrl
import ProtoSchema.Proofs.Plan.Places

/-! # Catalogs of schema files

The messages of a batch have types of their own: each reference is put down as what it resolves to. So
a batch whose files can be generated has a catalog, and what stands there of a message agrees with the
plan of its code. The catalog of `hdlctrl.v1` is the one of the package's schema files.
-/

namespace ProtoSchema

namespace Batch

/-- The name of a type in the catalog: the module of its file, and the path from there. -/
def nameOf (b : Batch) (p : TypePath) : String :=
  ".".intercalate (b.moduleName p.fileId :: p.segments)

def enumAt (b : Batch) (p : TypePath) (e : Enum) : EnumPlan :=
  .ofEnum (Plan.fullName ((b.get? p.fileId).elim "" (·.package)) p.segments) e

def valueType (b : Batch) : Resolved → ValueType
  | .scalar s => .scalar s
  | .enum p e => .enum (b.enumAt p e)
  | .message p _ => .message (b.nameOf p)

/-- The type of a field of the message at `p`. -/
def fieldType (b : Batch) (p : TypePath) (label : Label) (f : Field) : Except Error FieldType := do
  let x ← b.resolve f.type p.fileId p.segments
  return ⟨f.name, f.number.toNat, ⟨label, b.valueType x⟩⟩

/-- The type of a oneof. A member is present if it is the one that is set, whatever its label. -/
def oneofType (b : Batch) (p : TypePath) (o : Oneof) : Except Error OneofType := do
  let members ← o.fields.mapM (b.fieldType p .implicit)
  return ⟨o.name, members⟩

def messageType (b : Batch) (p : TypePath) (m : Message) : Except Error MessageType := do
  let fields ← m.fields.mapM fun f => b.fieldType p f.label f
  let oneofs ← m.oneofs.mapM (b.oneofType p)
  return ⟨m.name, fields, oneofs⟩

def types (b : Batch) : List (TypePath × TypeDef) :=
  b.files.flatMap fun f => f.2.types.map fun t => (⟨f.1, t.1⟩, t.2)

def messages (b : Batch) : List (TypePath × Message) :=
  b.types.filterMap fun t =>
    match t.2 with
    | .message m => some (t.1, m)
    | .enum _ => none

def enums (b : Batch) : List (TypePath × Enum) :=
  b.types.filterMap fun t =>
    match t.2 with
    | .message _ => none
    | .enum e => some (t.1, e)

/-- All types of a batch, by module and name. -/
def catalog (b : Batch) : Except Error Catalog := do
  let messages ← b.messages.mapM fun x => do
    let t ← b.messageType x.1 x.2
    return (b.nameOf x.1, t)
  return ⟨messages, b.enums.map fun x => (b.nameOf x.1, b.enumAt x.1 x.2)⟩

variable {b : Batch} {p : TypePath} {m : Message} {c : Catalog}

theorem mem_messages : (p, m) ∈ b.messages ↔ b.Declares p (.message m) := by
  simp only [messages, types, List.mem_filterMap, List.mem_flatMap, List.mem_map]
  constructor
  · rintro ⟨-, ⟨⟨id, s⟩, hs, ⟨path, d⟩, ht, rfl⟩, heq⟩
    cases d with
    | message n =>
      obtain ⟨rfl, rfl⟩ := Prod.mk.inj (Option.some.inj heq)
      exact ⟨s, hs, Schema.mem_types.1 ht⟩
    | enum e => cases heq
  · rintro ⟨s, hs, hd⟩
    exact ⟨(p, .message m), ⟨_, hs, _, Schema.mem_types.2 hd, rfl⟩, rfl⟩

theorem mem_catalog (h : b.catalog = .ok c) {name : String} {t : MessageType} :
    (name, t) ∈ c.messages ↔
      ∃ p m, b.Declares p (.message m) ∧ b.messageType p m = .ok t ∧ name = b.nameOf p := by
  obtain ⟨messages, hmessages, h⟩ := bind_eq_ok.1 h
  obtain rfl := pure_eq_ok.1 h
  simp only [mem_mapM hmessages, Prod.exists, mem_messages, bind_eq_ok, pure_eq_ok, Prod.mk.injEq]
  constructor
  · rintro ⟨p, m, hm, u, hu, rfl, rfl⟩
    exact ⟨p, m, hm, hu, rfl⟩
  · rintro ⟨p, m, hm, ht, rfl⟩
    exact ⟨p, m, hm, t, ht, rfl, rfl⟩

/-- A field of the type and a field of the code, in the module `mods`, have one name, one number and one
label, and they refer to the same. -/
def DescribesField (b : Batch) (fileId : String) (mods : List String) (q : FieldPlan)
    (t : FieldType) : Prop :=
  ∃ x, q.base = b.baseType fileId mods x ∧
    t = ⟨q.field.name, q.field.number.toNat, ⟨q.field.label, b.valueType x⟩⟩

def DescribesMember (b : Batch) (fileId : String) (mods innerMods : List String) (q : MemberPlan)
    (t : FieldType) : Prop :=
  ∃ x, q.outer = b.baseType fileId mods x ∧ q.inner = b.baseType fileId innerMods x ∧
    t = ⟨q.field.name, q.field.number.toNat, ⟨.implicit, b.valueType x⟩⟩

/-- The type of a message inside the messages `parents` has the parts of its plan, in their order. -/
structure Describes (b : Batch) (fileId : String) (parents : List String) (q : MessagePlan)
    (t : MessageType) : Prop where
  name : t.name = q.name
  fields : List.Forall₂ (b.DescribesField fileId (parents.map Naming.moduleIdent)) q.fields t.fields
  oneofs : List.Forall₂ (fun o u => u.name = o.name ∧
    List.Forall₂ (b.DescribesMember fileId (parents.map Naming.moduleIdent)
      ((parents ++ [q.name]).map Naming.moduleIdent)) o.members u.members) q.oneofs t.oneofs

theorem exists_describesField {fileId : String} {scope mods : List String} (f : Field)
    (q : FieldPlan) (h : Plan.field b fileId scope mods f = .ok q) :
    ∃ t, b.fieldType ⟨fileId, scope⟩ f.label f = .ok t ∧ b.DescribesField fileId mods q t := by
  obtain ⟨x, hx, rfl⟩ := Plan.field_ok_iff.1 h
  exact ⟨_, bind_eq_ok.2 ⟨x, hx, rfl⟩, x, rfl, rfl⟩

theorem exists_describesMember {fileId : String} {scope mods innerMods : List String} (f : Field)
    (q : MemberPlan) (h : Plan.member b fileId scope mods innerMods f = .ok q) :
    ∃ t, b.fieldType ⟨fileId, scope⟩ .implicit f = .ok t ∧
      b.DescribesMember fileId mods innerMods q t := by
  obtain ⟨x, hx, rfl⟩ := Plan.member_ok_iff.1 h
  exact ⟨_, bind_eq_ok.2 ⟨x, hx, rfl⟩, x, rfl, rfl, rfl⟩

theorem exists_describes {fileId package : String} {parents : List String} {q : MessagePlan}
    (h : Plan.message b fileId package parents m = .ok q) :
    ∃ t, b.messageType ⟨fileId, parents ++ [m.name]⟩ m = .ok t ∧
      b.Describes fileId parents q t := by
  have hparts := Plan.message_ok_iff.1 h
  obtain ⟨fields, hfields, hdescribed⟩ := exists_forall₂_of_mapM exists_describesField hparts.fields
  have honeof (o : Oneof) (r : OneofPlan) (hr : Plan.oneof b fileId parents m o = .ok r) :
      ∃ u, b.oneofType ⟨fileId, parents ++ [m.name]⟩ o = .ok u ∧ u.name = r.name ∧
        List.Forall₂ (b.DescribesMember fileId (parents.map Naming.moduleIdent)
          ((parents ++ [m.name]).map Naming.moduleIdent)) r.members u.members := by
    obtain ⟨members, hmembers, rfl⟩ := Plan.oneof_ok_iff.1 hr
    obtain ⟨ts, hts, hall⟩ := exists_forall₂_of_mapM exists_describesMember hmembers
    exact ⟨⟨o.name, ts⟩, bind_eq_ok.2 ⟨ts, hts, rfl⟩, rfl, hall⟩
  obtain ⟨oneofs, honeofs, hmembers⟩ := exists_forall₂_of_mapM honeof hparts.oneofs
  rw [← hparts.name] at hmembers
  exact ⟨⟨m.name, fields, oneofs⟩,
    bind_eq_ok.2 ⟨fields, hfields, bind_eq_ok.2 ⟨oneofs, honeofs, rfl⟩⟩,
    hparts.name.symm, hdescribed, hmembers⟩

theorem exists_plan_and_type {s : Schema} {plan : FilePlan}
    (hplan : Plan.file b p.fileId s = .ok plan) (hd : s.Declares p.segments (.message m)) :
    ∃ q t, Plan.message b p.fileId s.package p.segments.dropLast m = .ok q ∧
      b.messageType p m = .ok t ∧ b.Describes p.fileId p.segments.dropLast q t := by
  obtain ⟨ms, vs, hms, -, -⟩ := Plan.file_ok_iff.1 hplan
  obtain ⟨item, ⟨q, hq, -⟩, -⟩ := Plan.exists_stands hd hms
  obtain ⟨t, ht, hdescribes⟩ := exists_describes hq
  have hpath : p.segments.dropLast ++ [m.name] = p.segments :=
    List.dropLast_append_getLast? _ hd.getLast?
  rw [List.nil_append, hpath] at ht
  exact ⟨q, t, hq, ht, hdescribes⟩

theorem exists_catalog (h : ∀ p m, b.Declares p (.message m) → ∃ t, b.messageType p m = .ok t) :
    ∃ c, b.catalog = .ok c := by
  have hone : ∀ x ∈ b.messages, ∃ y : String × MessageType, (do
      let t ← b.messageType x.1 x.2
      return (b.nameOf x.1, t)) = Except.ok y := by
    rintro ⟨p, m⟩ hm
    obtain ⟨t, ht⟩ := h p m (mem_messages.1 hm)
    exact ⟨_, bind_eq_ok.2 ⟨t, ht, rfl⟩⟩
  obtain ⟨messages, hmessages⟩ := exists_mapM hone
  exact ⟨_, bind_eq_ok.2 ⟨messages, hmessages, rfl⟩⟩

/-- If all files of a batch can be planned, the batch has a catalog, and the type of a message there
describes the plan of its code. -/
theorem catalog_describes (h : ∀ f ∈ b.files, ∃ plan, Plan.file b f.1 f.2 = .ok plan) :
    ∃ c, b.catalog = .ok c ∧ ∀ p s m, (p.fileId, s) ∈ b.files → s.Declares p.segments (.message m) →
      ∃ q t, Plan.message b p.fileId s.package p.segments.dropLast m = .ok q ∧
        (b.nameOf p, t) ∈ c.messages ∧ b.Describes p.fileId p.segments.dropLast q t := by
  obtain ⟨c, hc⟩ : ∃ c, b.catalog = .ok c := by
    apply exists_catalog
    rintro p m ⟨s, hs, hd⟩
    obtain ⟨plan, hplan⟩ := h _ hs
    obtain ⟨-, t, -, ht, -⟩ := exists_plan_and_type hplan hd
    exact ⟨t, ht⟩
  refine ⟨c, hc, ?_⟩
  intro p s m hs hd
  obtain ⟨plan, hplan⟩ := h _ hs
  obtain ⟨q, t, hq, ht, hdescribes⟩ := exists_plan_and_type hplan hd
  exact ⟨q, t, hq, (mem_catalog hc).2 ⟨p, m, ⟨s, hs, hd⟩, ht, rfl⟩, hdescribes⟩

end Batch

namespace Hdlctrl

def commonLines : List String := [
  "syntax = \"proto3\";",
  "",
  "package hdlctrl.v1;",
  "",
  "// Who may join a session.",
  "enum AccessLevel \x7b",
  "  ACCESS_LEVEL_UNSPECIFIED = 0;",
  "  ACCESS_LEVEL_PRIVATE = 1;",
  "  ACCESS_LEVEL_LAN = 2;",
  "  ACCESS_LEVEL_CONTACTS = 3;",
  "  ACCESS_LEVEL_CONTACTS_PLUS = 4;",
  "  ACCESS_LEVEL_REGISTERED_USERS = 5;",
  "  ACCESS_LEVEL_ANYONE = 6;",
  "\x7d",
  "",
  "/* A folder of saved worlds. Folders nest, and each one points back at its",
  "   parent. */",
  "message WorldFolder \x7b",
  "  string name = 1;",
  "  WorldFolder parent = 2;",
  "  repeated WorldFolder children = 3;",
  "\x7d",
  ""]

def controllerLines : List String := [
  "syntax = \"proto3\";",
  "",
  "package hdlctrl.v1;",
  "",
  "option rust_module = \"controller\";",
  "",
  "import \"google/protobuf/timestamp.proto\";",
  "import \"hdlctrl/v1/common.proto\";",
  "",
  "enum HeadlessHostStatus \x7b",
  "  HEADLESS_HOST_STATUS_UNSPECIFIED = 0;",
  "  HEADLESS_HOST_STATUS_STARTING = 1;",
  "  HEADLESS_HOST_STATUS_RUNNING = 2;",
  "  HEADLESS_HOST_STATUS_STOPPING = 3;",
  "  HEADLESS_HOST_STATUS_EXITED = 4;",
  "  HEADLESS_HOST_STATUS_CRASHED = 5;",
  "\x7d",
  "",
  "message HeadlessHost \x7b",
  "  string id = 1;",
  "  string name = 2;",
  "  HeadlessHostStatus status = 3;",
  "  optional string account_id = 4;",
  "  int64 memory_usage = 5;",
  "  repeated string tags = 6;",
  "  int32 fps = 7 [deprecated = true];",
  "  google.protobuf.Timestamp started_at = 8;",
  "",
  "  message Resources \x7b",
  "    float cpu = 1;",
  "    int64 memory_limit = 2;",
  "  \x7d",
  "  Resources resources = 9;",
  "",
  "  // Where the host process lives.",
  "  oneof instance \x7b",
  "    string container_id = 10;",
  "    int32 pid = 11;",
  "    Remote remote = 12;",
  "  \x7d",
  "",
  "  message Remote \x7b",
  "    string address = 1;",
  "    int32 port = 2;",
  "  \x7d",
  "\x7d",
  "",
  "message WorldStartParameters \x7b",
  "  optional string session_name = 1;",
  "  optional int32 max_users = 2;",
  "  AccessLevel access_level = 3;",
  "  optional string load_world_url = 4;",
  "  optional string load_world_preset_name = 5;",
  "  repeated string auto_invite_usernames = 6;",
  "  bytes thumbnail = 7;",
  "\x7d",
  "",
  "message Session \x7b",
  "  string id = 1;",
  "  string name = 2;",
  "  AccessLevel access_level = 3;",
  "  google.protobuf.Timestamp started_at = 4;",
  "  optional google.protobuf.Timestamp ends_at = 5;",
  "  int32 users_count = 6;",
  "\x7d",
  "",
  "message ListHeadlessHostRequest \x7b\x7d",
  "",
  "message ListHeadlessHostResponse \x7b",
  "  repeated HeadlessHost hosts = 1;",
  "\x7d",
  "",
  "message StartWorldRequest \x7b",
  "  string host_id = 1;",
  "  WorldStartParameters parameters = 2;",
  "\x7d",
  "",
  "message StartWorldResponse \x7b",
  "  Session opened_session = 1;",
  "\x7d",
  "",
  "service ControllerService \x7b",
  "  rpc ListHeadlessHost(ListHeadlessHostRequest) returns (ListHeadlessHostResponse);",
  "  rpc StartWorld(StartWorldRequest) returns (StartWorldResponse);",
  "\x7d",
  ""]

def userLines : List String := [
  "syntax = \"proto3\";",
  "",
  "package hdlctrl.v1;",
  "",
  "import \"google/protobuf/timestamp.proto\";",
  "",
  "message GetTokenByPasswordRequest \x7b",
  "  string id = 1;",
  "  string password = 2;",
  "\x7d",
  "",
  "message GetTokenByPasswordResponse \x7b",
  "  string token = 1;",
  "  google.protobuf.Timestamp expires_at = 2;",
  "\x7d",
  "",
  "service UserService \x7b",
  "  rpc GetTokenByPassword(GetTokenByPasswordRequest) returns (GetTokenByPasswordResponse);",
  "\x7d",
  ""]

def commonSchema : Schema where
  dialect := some "proto3"
  package := package
  messages := [
    ⟨"WorldFolder", ⟨18, 9⟩,
      [⟨"name", ⟨19, 10⟩, "string", 1, .implicit, false⟩,
        ⟨"parent", ⟨20, 15⟩, "WorldFolder", 2, .implicit, false⟩,
        ⟨"children", ⟨21, 24⟩, "WorldFolder", 3, .repeated, false⟩], [], [], []⟩]
  enums := [
    ⟨"AccessLevel", ⟨6, 6⟩,
      [⟨"ACCESS_LEVEL_UNSPECIFIED", 0, false⟩,
        ⟨"ACCESS_LEVEL_PRIVATE", 1, false⟩,
        ⟨"ACCESS_LEVEL_LAN", 2, false⟩,
        ⟨"ACCESS_LEVEL_CONTACTS", 3, false⟩,
        ⟨"ACCESS_LEVEL_CONTACTS_PLUS", 4, false⟩,
        ⟨"ACCESS_LEVEL_REGISTERED_USERS", 5, false⟩,
        ⟨"ACCESS_LEVEL_ANYONE", 6, false⟩]⟩]

def controllerSchema : Schema where
  dialect := some "proto3"
  package := package
  moduleName := some "controller"
  imports := ["google/protobuf/timestamp.proto", "hdlctrl/v1/common.proto"]
  messages := [
    ⟨"HeadlessHost", ⟨19, 9⟩,
      [⟨"id", ⟨20, 10⟩, "string", 1, .implicit, false⟩,
        ⟨"name", ⟨21, 10⟩, "string", 2, .implicit, false⟩,
        ⟨"status", ⟨22, 22⟩, "HeadlessHostStatus", 3, .implicit, false⟩,
        ⟨"account_id", ⟨23, 19⟩, "string", 4, .optional, false⟩,
        ⟨"memory_usage", ⟨24, 9⟩, "int64", 5, .implicit, false⟩,
        ⟨"tags", ⟨25, 19⟩, "string", 6, .repeated, false⟩,
        ⟨"fps", ⟨26, 9⟩, "int32", 7, .implicit, true⟩,
        ⟨"started_at", ⟨27, 29⟩, "google.protobuf.Timestamp", 8, .implicit, false⟩,
        ⟨"resources", ⟨33, 13⟩, "Resources", 9, .implicit, false⟩],
      [⟨"instance",
        [⟨"container_id", ⟨37, 12⟩, "string", 10, .optional, false⟩,
          ⟨"pid", ⟨38, 11⟩, "int32", 11, .optional, false⟩,
          ⟨"remote", ⟨39, 12⟩, "Remote", 12, .optional, false⟩]⟩],
      [⟨"Resources", ⟨29, 11⟩,
          [⟨"cpu", ⟨30, 11⟩, "float", 1, .implicit, false⟩,
            ⟨"memory_limit", ⟨31, 11⟩, "int64", 2, .implicit, false⟩], [], [], []⟩,
        ⟨"Remote", ⟨42, 11⟩,
          [⟨"address", ⟨43, 12⟩, "string", 1, .implicit, false⟩,
            ⟨"port", ⟨44, 11⟩, "int32", 2, .implicit, false⟩], [], [], []⟩],
      []⟩,
    ⟨"WorldStartParameters", ⟨48, 9⟩,
      [⟨"session_name", ⟨49, 19⟩, "string", 1, .optional, false⟩,
        ⟨"max_users", ⟨50, 18⟩, "int32", 2, .optional, false⟩,
        ⟨"access_level", ⟨51, 15⟩, "AccessLevel", 3, .implicit, false⟩,
        ⟨"load_world_url", ⟨52, 19⟩, "string", 4, .optional, false⟩,
        ⟨"load_world_preset_name", ⟨53, 19⟩, "string", 5, .optional, false⟩,
        ⟨"auto_invite_usernames", ⟨54, 19⟩, "string", 6, .repeated, false⟩,
        ⟨"thumbnail", ⟨55, 9⟩, "bytes", 7, .implicit, false⟩], [], [], []⟩,
    ⟨"Session", ⟨58, 9⟩,
      [⟨"id", ⟨59, 10⟩, "string", 1, .implicit, false⟩,
        ⟨"name", ⟨60, 10⟩, "string", 2, .implicit, false⟩,
        ⟨"access_level", ⟨61, 15⟩, "AccessLevel", 3, .implicit, false⟩,
        ⟨"started_at", ⟨62, 29⟩, "google.protobuf.Timestamp", 4, .implicit, false⟩,
        ⟨"ends_at", ⟨63, 38⟩, "google.protobuf.Timestamp", 5, .optional, false⟩,
        ⟨"users_count", ⟨64, 9⟩, "int32", 6, .implicit, false⟩], [], [], []⟩,
    ⟨"ListHeadlessHostRequest", ⟨67, 9⟩, [], [], [], []⟩,
    ⟨"ListHeadlessHostResponse", ⟨69, 9⟩,
      [⟨"hosts", ⟨70, 25⟩, "HeadlessHost", 1, .repeated, false⟩], [], [], []⟩,
    ⟨"StartWorldRequest", ⟨73, 9⟩,
      [⟨"host_id", ⟨74, 10⟩, "string", 1, .implicit, false⟩,
        ⟨"parameters", ⟨75, 24⟩, "WorldStartParameters", 2, .implicit, false⟩], [], [], []⟩,
    ⟨"StartWorldResponse", ⟨78, 9⟩,
      [⟨"opened_session", ⟨79, 11⟩, "Session", 1, .implicit, false⟩], [], [], []⟩]
  enums := [
    ⟨"HeadlessHostStatus", ⟨10, 6⟩,
      [⟨"HEADLESS_HOST_STATUS_UNSPECIFIED", 0, false⟩,
        ⟨"HEADLESS_HOST_STATUS_STARTING", 1, false⟩,
        ⟨"HEADLESS_HOST_STATUS_RUNNING", 2, false⟩,
        ⟨"HEADLESS_HOST_STATUS_STOPPING", 3, false⟩,
        ⟨"HEADLESS_HOST_STATUS_EXITED", 4, false⟩,
        ⟨"HEADLESS_HOST_STATUS_CRASHED", 5, false⟩]⟩]
  services := [⟨"ControllerService",
    [⟨"ListHeadlessHost", "ListHeadlessHostRequest", "ListHeadlessHostResponse"⟩,
      ⟨"StartWorld", "StartWorldRequest", "StartWorldResponse"⟩]⟩]

def userSchema : Schema where
  dialect := some "proto3"
  package := package
  imports := ["google/protobuf/timestamp.proto"]
  messages := [
    ⟨"GetTokenByPasswordRequest", ⟨7, 9⟩,
      [⟨"id", ⟨8, 10⟩, "string", 1, .implicit, false⟩,
        ⟨"password", ⟨9, 10⟩, "string", 2, .implicit, false⟩], [], [], []⟩,
    ⟨"GetTokenByPasswordResponse", ⟨12, 9⟩,
      [⟨"token", ⟨13, 10⟩, "string", 1, .implicit, false⟩,
        ⟨"expires_at", ⟨14, 29⟩, "google.protobuf.Timestamp", 2, .implicit, false⟩], [], [], []⟩]
  services := [⟨"UserService",
    [⟨"GetTokenByPassword", "GetTokenByPasswordRequest", "GetTokenByPasswordResponse"⟩]⟩]

/-- The schema files of the package. -/
def files : List (String × String) := [
  ("hdlctrl/v1/common.proto", "\n".intercalate commonLines),
  ("hdlctrl/v1/controller.proto", "\n".intercalate controllerLines),
  ("hdlctrl/v1/user.proto", "\n".intercalate userLines)]

def batch : Batch where
  files := [("hdlctrl/v1/common.proto", commonSchema),
    ("hdlctrl/v1/controller.proto", controllerSchema), ("hdlctrl/v1/user.proto", userSchema)]
  sorted := by decide

/-- The characters of some lines. They are found by unification, since it takes the kernel long to take
a literal apart. -/
inductive CharsOf : List String → List (List Char) → Prop
  | nil : CharsOf [] []
  | cons {cs : List Char} {lines : List String} {css : List (List Char)} :
      CharsOf lines css → CharsOf (String.ofList cs :: lines) (cs :: css)

theorem CharsOf.map_toList {lines : List String} {css : List (List Char)}
    (h : CharsOf lines css) : lines.map String.toList = css := by
  induction h with
  | nil => rfl
  | cons _ ih => rw [List.map_cons, String.toList_ofList, ih]

theorem scan_lines {lines : List String} {css : List (List Char)} (h : CharsOf lines css) :
    Token.scan ("\n".intercalate lines) = Token.scanFrom .start ("\n".toList.intercalate css) := by
  rw [Token.scan, String.toList_intercalate, h.map_toList]

theorem compile_commonLines :
    Schema.compile ("\n".intercalate commonLines) = .ok commonSchema := by
  have hlines := show CharsOf commonLines _ by repeat constructor
  rw [Schema.compile, Schema.read, scan_lines hlines]
  decide +kernel

theorem compile_controllerLines :
    Schema.compile ("\n".intercalate controllerLines) = .ok controllerSchema := by
  have hlines := show CharsOf controllerLines _ by repeat constructor
  rw [Schema.compile, Schema.read, scan_lines hlines]
  decide +kernel

theorem compile_userLines :
    Schema.compile ("\n".intercalate userLines) = .ok userSchema := by
  have hlines := show CharsOf userLines _ by repeat constructor
  rw [Schema.compile, Schema.read, scan_lines hlines]
  decide +kernel

theorem catalog_batch : batch.catalog = .ok catalog := by
  decide +kernel

theorem exists_plan_of_mem_batch :
    ∀ f ∈ batch.files, ∃ plan, Plan.file batch f.1 f.2 = .ok plan := by
  have hplans : ∀ f ∈ batch.files, (Plan.file batch f.1 f.2).toOption.isSome = true := by
    decide +kernel
  intro f hf
  have hplan := hplans f hf
  cases h : Plan.file batch f.1 f.2 with
  | ok plan => exact ⟨plan, rfl⟩
  | error e => simp [h, Except.toOption] at hplan

/-- The schema files of the package are accepted, the catalog is theirs, and the type of a message
describes the plan of its code. -/
theorem catalog_of_files :
    List.Forall₂ (fun f g => f.1 = g.1 ∧ Schema.compile f.2 = .ok g.2) files batch.files ∧
      batch.catalog = .ok catalog ∧ ∀ p s m, (p.fileId, s) ∈ batch.files →
        s.Declares p.segments (.message m) → ∃ q t,
          Plan.message batch p.fileId s.package p.segments.dropLast m = .ok q ∧
          (batch.nameOf p, t) ∈ catalog.messages ∧
          batch.Describes p.fileId p.segments.dropLast q t := by
  refine ⟨?_, catalog_batch, ?_⟩
  · exact .cons ⟨rfl, compile_commonLines⟩ <| .cons ⟨rfl, compile_controllerLines⟩ <|
      .cons ⟨rfl, compile_userLines⟩ .nil
  · obtain ⟨c, hc, hdescribes⟩ := Batch.catalog_describes exists_plan_of_mem_batch
    obtain rfl := Except.ok.inj (catalog_batch.symm.trans hc)
    exact hdescribes

end Hdlctrl

end ProtoSchema
