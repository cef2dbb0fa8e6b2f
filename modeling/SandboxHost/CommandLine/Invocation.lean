import SandboxHost.Config

namespace SandboxHost.CommandLine

/-- What a user sets. Assignments are written `KEY=VALUE`. -/
structure Settings where
  maxMegabytes : Option UInt64 := none
  fuel : Option UInt64 := none
  dirs : List String := []
  assignments : List String := []

inductive Command where
  | call (module function : String) (text : Option String) (args : List Int64)
  /-- Runs the library that the first word names; the words are its arguments. -/
  | exec (module library : String) (args : List String)
  | constants (module : String)
  | terminal (module : String) (args : List String)

structure Invocation where
  settings : Settings
  command : Command

inductive BadSetting where
  | memory (megabytes : UInt64)
  | assignment (text : String)

def BadSetting.message : BadSetting → String
  | .memory megabytes => "--max-memory " ++ toString megabytes.toNat ++ " MB is too large"
  | .assignment text => "Invalid environment variable: " ++ text ++ ". Use KEY=VALUE"

def Command.module : Command → String
  | .call module _ _ _ | .exec module _ _ | .constants module | .terminal module _ => module

def Command.config : Command → Config
  | .call _ _ _ _ | .exec _ _ _ => .standard
  | .constants _ => .minimal
  | .terminal _ _ => .terminal

namespace Settings

/-- Settings given later replace earlier ones, lists as a whole. -/
def orElse (later earlier : Settings) : Settings :=
  { maxMegabytes := later.maxMegabytes.or earlier.maxMegabytes
    fuel := later.fuel.or earlier.fuel
    dirs := if later.dirs.isEmpty then earlier.dirs else later.dirs
    assignments := if later.assignments.isEmpty then earlier.assignments else later.assignments }

def bytesPerMegabyte : Nat := 1048576

def maxMemory (s : Settings) (preset : UInt64) : Except BadSetting UInt64 :=
  match s.maxMegabytes with
  | none => .ok preset
  | some n =>
    let bytes := n.toNat * bytesPerMegabyte
    if bytes < 0x10000000000000000 then .ok bytes.toUInt64 else .error (.memory n)

def assignment? (text : String) : Option (String × String) :=
  let name := text.toList.takeWhile (· ≠ '=')
  match text.toList.drop name.length with
  | _ :: value => if name.isEmpty then none else some (.ofList name, .ofList value)
  | [] => none

def assignment (text : String) : Except BadSetting (String × String) :=
  match assignment? text with
  | some pair => .ok pair
  | none => .error (.assignment text)

/-- Directories and assignments come on top of those that are there. -/
def config (s : Settings) (preset : Config) : Except BadSetting Config := do
  let maxMemory ← s.maxMemory preset.maxMemory
  let assignments ← s.assignments.mapM assignment
  let grants := { preset.grants with
    writeDirs := preset.grants.writeDirs ++ s.dirs
    environment := preset.grants.environment ++ assignments }
  return { preset with maxMemory, fuelLimit := s.fuel.or preset.fuelLimit, grants }

end Settings

end SandboxHost.CommandLine
