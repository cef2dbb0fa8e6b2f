import SandboxHost.CommandLine.Reading
import SandboxHost.Worker.Channel

namespace SandboxHost.CommandLine

inductive Failure where
  | setting (s : BadSetting)
  | load (path : String) (cause : Error)
  | run (library : String) (cause : Error)
  | guest (e : Error)
  | noConstants (path : String)
  | noCode (output : Json)

namespace Failure

def message : Failure → String
  | .setting s => s.message
  | .load path _ => "Failed to load " ++ path
  | .run library _ => "Failed to run " ++ library
  | .guest e => e.message
  | .noConstants path => path ++ " provides no constants"
  | .noCode output => "terminal returned " ++ output.render

def cause? : Failure → Option Error
  | .load _ e | .run _ e => some e
  | _ => none

end Failure

structure Report where
  code : UInt8
  stdout : String := ""
  failure : Option Failure := none

namespace Report

def wrongUsage : Report := { code := 2 }

def ofFailure (f : Failure) : Report := { code := 1, failure := some f }

def ofText (text : String) : Report := { code := 0, stdout := text ++ "\n" }

/-- An exit code keeps the low eight bits. -/
def ofCode (n : Int) : Report := { code := (n % 256).toNat.toUInt8 }

end Report

/-- Work that ends in a report, unless it fails. -/
abbrev Work (α : Type) := ExceptT Failure Dialogue α

def attempt {α : Type} (wrap : Error → Failure) (d : Dialogue (Except Error α)) : Work α :=
  ExceptT.mk (d.bind fun outcome => .done (outcome.mapError wrap))

def instantiateFile (s : Worker.Surroundings) (c : Config) (path : String) : Work Instance := do
  match s.module? path with
  | none => throw (.load path (.engine .loadFailed))
  | some m =>
    attempt .guest (instantiate c { directoryExists := s.directoryExists } ⟨FileName.stem path, m⟩)

def act {α : Type} (i : Instance) (wrap : Error → Failure) (a : Action α) : Work α :=
  attempt wrap ((i.act a).bind fun (outcome, _) => .done outcome)

def Command.perform (s : Worker.Surroundings) (c : Config) : Command → Work Report
  | .call module function text args => do
    let i ← instantiateFile s c module
    let output ← act i .guest (match text with
      | some t => Guest.callWithString function (.one t) args
      | none => Guest.call function args)
    return .ofText output.render
  | .exec module library args => do
    let i ← instantiateFile s c module
    return .ofCode (← act i (.run library) (Guest.run (library :: args))).toInt
  | .constants module => do
    let i ← instantiateFile s c module
    match i.state.host.constants with
    | some table =>
      return .ofText ((Json.obj (table.entries.map fun (k, v) => (k, .int v.toInt))).pretty "")
    | none => throw (.noConstants module)
  | .terminal module args => do
    let (loaded, channel) ← liftM ((Worker.Channel.spawn s).loadModule module { config := c })
    let _ ← attempt .guest (.done loaded)
    let (output, _) ← liftM (channel.callWithString "terminal" (.many args) [])
    let output ← attempt .guest (.done output)
    match output.toInt64? with
    | some n => return .ofCode n
    | none => throw (.noCode output)

def Invocation.perform (s : Worker.Surroundings) (i : Invocation) : Work Report := do
  match i.settings.config i.command.config with
  | .ok c => i.command.perform s c
  | .error bad => throw (.setting bad)

def Reading.report (s : Worker.Surroundings) : Reading → Dialogue Report
  | .wrong => .done .wrongUsage
  | .help t => .done (.ofText (helpText t))
  | .version => .done (.ofText versionText)
  | .run i => (i.perform s).run.bind fun outcome =>
    match outcome with
    | .ok report => .done report
    | .error failure => .done (.ofFailure failure)

end SandboxHost.CommandLine
