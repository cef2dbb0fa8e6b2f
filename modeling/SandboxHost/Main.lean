import SandboxHost.CommandLine.Report
import SandboxHost.Guest.Format
import SandboxHost.Host.Native
import SandboxHost.Json.Parser

namespace SandboxHost.Main

/-- Modules may nest deeper than other JSON. -/
def moduleDepth : Nat := 1000

def readModule (path : String) : IO (Option Module) := do
  try
    let text ← IO.FS.readFile path
    return (Json.parseWithin moduleDepth .any text.toList).bind fun j => ModuleFormat.module? j.canonical
  catch _ => return none

def isDirectory (path : String) : IO Bool := do
  try
    let _ ← IO.FS.withFile (path ++ "/.") .read fun _ => pure ()
    return true
  catch _ => return false

/-- The files that a command line names, read before any work begins. -/
def surroundings (i : CommandLine.Invocation) : IO Worker.Surroundings := do
  let path := i.command.module
  let found ← readModule path
  let dirs ← i.settings.dirs.filterM isDirectory
  return ⟨fun p => if p = path then found else none, dirs.contains⟩

def field (words : List String) (n : Nat) : Int32 :=
  ((words[n]?.bind Numeral.int64?).getD 0).toInt32

def wordsAfter (name text : String) : List String :=
  match (text.splitOn "\n").find? (·.startsWith name) with
  | some line => (words line).drop 1
  | none => []

def hostProcess : IO HostProcess := do
  let stat := words (← IO.FS.readFile "/proc/self/stat")
  let status ← IO.FS.readFile "/proc/self/status"
  let hostName := words (← IO.FS.readFile "/proc/sys/kernel/hostname")
  return { pid := field stat 0, parentPid := field stat 3, group := field stat 4
           uid := field (wordsAfter "Uid:" status) 0, gid := field (wordsAfter "Gid:" status) 0
           hostName := hostName.headD "", workingDirectory := (← IO.getEnv "PWD").getD "/" }

def read (room : Nat) : IO (List UInt8) := do
  return (← (← IO.getStdin).read room.toUSize).toList

def sleep (milliseconds : Nat) : IO Unit := IO.sleep milliseconds.toUInt32

def answer (p : HostProcess) : (r : Request) → IO r.Answer
  | .readStdin room => do
    let bytes ← read room
    return .ok ⟨bytes, bytes.length⟩
  | .readOwner room => return .ok (← read room)
  | .sleep n => do
    sleep (n / 1000)
    return .ok ()
  | .pause n => sleep n
  | r => return p.answer r

partial def converse {α : Type} (p : HostProcess) : Dialogue α → IO (Option α)
  | .done a => return some a
  | .diverged => return none
  | .ask r next => do converse p (next (← answer p r))

def run (reading : CommandLine.Reading) : IO UInt32 := do
  let s : Worker.Surroundings ← match reading with
    | .run i => surroundings i
    | _ => pure ⟨fun _ => none, fun _ => false⟩
  match ← converse (← hostProcess) (reading.report s) with
  | none => return 1
  | some report =>
    IO.print report.stdout
    if let some f := report.failure then
      IO.eprintln ("Error: " ++ f.message)
      if let some e := f.cause? then IO.eprintln ("\nCaused by:\n    " ++ e.message)
    if let .wrong := reading then IO.eprintln (CommandLine.helpText .program)
    return report.code.toUInt32

end SandboxHost.Main

def main (words : List String) : IO UInt32 :=
  SandboxHost.Main.run (SandboxHost.CommandLine.Reading.ofWords words)
