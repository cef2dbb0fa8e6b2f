import SandboxHost.Config
import SandboxHost.Error
import SandboxHost.Guest.Marshal

namespace SandboxHost.Worker

def defaultBufferSize : UInt64 := 8192

structure Options where
  config : Config
  /-- How many bytes of input are handed to the worker at a time. -/
  stdinBufferSize : UInt64 := defaultBufferSize
  deriving DecidableEq

/-- What the owner asks for. Calls carry a number that their replies repeat. -/
inductive Job where
  | load (name : String) (options : Options)
  | call (name : String) (args : List Int64) (id : UInt64)
  | callWithString (name : String) (arg : Guest.StringArg) (args : List Int64) (id : UInt64)
  deriving DecidableEq

inductive LoadStatus where
  | ok
  | error
  deriving DecidableEq

inductive Notice where
  /-- How loading a module ended. -/
  | loaded (status : LoadStatus) (error : Option String)
  | sleep (milliseconds : UInt64)
  | waitForInput
  deriving DecidableEq

structure Reply where
  id : UInt64
  output : Json
  error : Option String

inductive Message where
  | notice (n : Notice)
  | reply (r : Reply)

namespace Reply

/-- The reply to a call: its output, or the wording of its error. -/
def ofOutcome (id : UInt64) : Except Error Json → Reply
  | .ok output => ⟨id, output, none⟩
  | .error e => ⟨id, .null, some e.message⟩

def outcome (r : Reply) : Except Error Json :=
  match r.error with
  | some text => .error (.workerCall text)
  | none => .ok r.output

end Reply

namespace Options

def toJson (o : Options) : Json :=
  .obj [("config", o.config.toJson), ("stdinBufferSize", .int o.stdinBufferSize.toNat)]

def fieldNames : List String := ["config", "stdinBufferSize"]

def ofJson? (j : Json) : Option Options := do
  match ← j.fields? fieldNames with
  | [config, size] =>
    return ⟨← Json.optional Config.ofJson? .standard config,
      ← Json.optional Json.uint64? defaultBufferSize size⟩
  | _ => failure

def shape : Json.Shape := .ofFields fieldNames [("config", Config.shape)]

def parse? (text : String) : Option Options := (Json.parseAs? shape text).bind ofJson?

end Options

def stringArgToJson : Guest.StringArg → Json
  | .one text => .str text
  | .many texts => .arr (texts.map .str)

def stringArgOfJson? : Json → Option Guest.StringArg
  | .str text => some (.one text)
  | j => (j.list? Json.string?).map .many

def numbers (args : List Int64) : Json := .arr (args.map fun n => .int n.toInt)

def numbers? (j : Json) : Option (List Int64) := j.list? Json.int64?

namespace Job

def toJson : Job → Json
  | .load name options =>
    .obj [("event", .str "init"), ("name", .str name), ("options", options.toJson)]
  | .call name args id =>
    .obj [("event", .str "call"), ("name", .str name), ("args", numbers args), ("id", .int id.toNat)]
  | .callWithString name arg args id =>
    .obj [("event", .str "callWithString"), ("name", .str name), ("str", stringArgToJson arg),
      ("args", numbers args), ("id", .int id.toNat)]

def ofJson? (j : Json) : Option Job := do
  let (tag, rest) ← j.tagged? "event"
  match ← tag.string? with
  | "init" =>
    match ← rest.fields? ["name", "options"] with
    | [name, options] =>
      return .load (← Json.required Json.string? name) (← Json.required Options.ofJson? options)
    | _ => failure
  | "call" =>
    match ← rest.fields? ["name", "args", "id"] with
    | [name, args, id] =>
      return .call (← Json.required Json.string? name) (← Json.optional numbers? [] args)
        (← Json.required Json.uint64? id)
    | _ => failure
  | "callWithString" =>
    match ← rest.fields? ["name", "str", "args", "id"] with
    | [name, arg, args, id] =>
      return .callWithString (← Json.required Json.string? name)
        (← Json.required stringArgOfJson? arg) (← Json.optional numbers? [] args)
        (← Json.required Json.uint64? id)
    | _ => failure
  | _ => failure

end Job

namespace LoadStatus

def toJson : LoadStatus → Json
  | .ok => .str "ok"
  | .error => .str "error"

def ofName? : String → Option LoadStatus
  | "ok" => some .ok
  | "error" => some .error
  | _ => none

/-- A status by name, alone or as the key of nothing. -/
def ofJson? : Json → Option LoadStatus
  | .str name => ofName? name
  | .obj [(name, .null)] => ofName? name
  | _ => none

/-- Inside a message, an empty object is nothing too. -/
def ofField? : Json → Option LoadStatus
  | .obj [(name, .obj [])] => ofName? name
  | j => ofJson? j

end LoadStatus

def textField (name : String) (text : Option String) : List (String × Json) :=
  (text.map fun t => (name, Json.str t)).toList

namespace Notice

def toJson : Notice → Json
  | .loaded status error =>
    .obj ([("event", .str "init"), ("status", status.toJson)] ++ textField "error" error)
  | .sleep milliseconds => .obj [("event", .str "sleep"), ("time", .int milliseconds.toNat)]
  | .waitForInput => .obj [("event", .str "waitForStdin")]

inductive Kind where
  | loaded
  | sleep
  | waitForInput

def Kind.ofTag? : Json → Option Kind
  | .str "init" => some .loaded
  | .str "sleep" => some .sleep
  | .str "waitForStdin" => some .waitForInput
  | _ => none

/-- Kinds also go by their position, where a message has been read before its kind is known. -/
def Kind.ofTagOrPosition? : Json → Option Kind
  | .int 0 => some .loaded
  | .int 1 => some .sleep
  | .int 2 => some .waitForInput
  | j => Kind.ofTag? j

def ofFields? (kind : Kind) (rest : Json) : Option Notice := do
  match kind with
  | .loaded =>
    match ← rest.fields? ["status", "error"] with
    | [status, error] =>
      return .loaded (← Json.required LoadStatus.ofField? status)
        (← Json.optional (Json.nullable? Json.string?) none error)
    | _ => failure
  | .sleep =>
    match ← rest.fields? ["time"] with
    | [time] => return .sleep (← Json.required Json.uint64? time)
    | _ => failure
  | .waitForInput =>
    rest.empty?
    return .waitForInput

def ofJsonBy? (kind? : Json → Option Kind) (j : Json) : Option Notice := do
  let (tag, rest) ← j.tagged? "event"
  ofFields? (← kind? tag) rest

def ofJson? : Json → Option Notice := ofJsonBy? Kind.ofTag?

end Notice

namespace Reply

def toJson (r : Reply) : Json :=
  .obj ([("id", .int r.id.toNat), ("output", r.output)] ++ textField "error" r.error)

def fieldNames : List String := ["id", "output", "error"]

def ofJson? (j : Json) : Option Reply := do
  match ← j.fields? fieldNames with
  | [id, output, error] =>
    return ⟨← Json.required Json.uint64? id, ← Json.optional Json.value? .null output,
      ← Json.optional (Json.nullable? Json.string?) none error⟩
  | _ => failure

def parse? (text : String) : Option Reply :=
  (Json.parseAs? (.ofFields fieldNames) text).bind ofJson?

end Reply

namespace Message

def toJson : Message → Json
  | .notice n => n.toJson
  | .reply r => r.toJson

/-- What reads as a notice is one; all else has to be a reply. -/
def ofJson? (j : Json) : Option Message :=
  match Notice.ofJsonBy? Notice.Kind.ofTagOrPosition? j with
  | some n => some (.notice n)
  | none => (Reply.ofJson? j).map .reply

end Message

end SandboxHost.Worker
