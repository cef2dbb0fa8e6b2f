import SandboxHost.Syscall.Context
import SandboxHost.Text.Blank

namespace SandboxHost

inductive Handler where
  | ctermid
  | fstatvfs
  | getcwd
  | getegid
  | geteuid
  | getgid
  | gethostname
  | getpgid
  | getpid
  | getppid
  | getuid
  | isatty
  | kill
  | loginTty
  | setsid
  | sleep
  | statvfs
  | system
  | usleep
  | readStdin
  deriving DecidableEq

namespace Handler

def all : List Handler :=
  [.ctermid, .fstatvfs, .getcwd, .getegid, .geteuid, .getgid, .gethostname, .getpgid, .getpid, .getppid,
    .getuid, .isatty, .kill, .loginTty, .setsid, .sleep, .statvfs, .system, .usleep, .readStdin]

def name : Handler → String
  | .ctermid => "ctermid"
  | .fstatvfs => "fstatvfs"
  | .getcwd => "getcwd"
  | .getegid => "getegid"
  | .geteuid => "geteuid"
  | .getgid => "getgid"
  | .gethostname => "gethostname"
  | .getpgid => "getpgid"
  | .getpid => "getpid"
  | .getppid => "getppid"
  | .getuid => "getuid"
  | .isatty => "isatty"
  | .kill => "kill"
  | .loginTty => "login_tty"
  | .setsid => "setsid"
  | .sleep => "sleep"
  | .statvfs => "statvfs"
  | .system => "system"
  | .usleep => "usleep"
  | .readStdin => "wasm_read_stdin"

def ofName? (name : String) : Option Handler := all.find? (·.name == name)

/-- How many words a handler takes. It returns one. -/
def arity : Handler → Nat
  | .getpid | .getppid | .getuid | .geteuid | .getgid | .getegid | .setsid => 0
  | .ctermid | .getpgid | .isatty | .loginTty | .sleep | .system | .usleep => 1
  | .fstatvfs | .getcwd | .gethostname | .kill | .statvfs | .readStdin => 2

/-- The text goes whole into a buffer, with its zero byte, or not at all. -/
def giveText (text : String) (buffer : UInt32) (size : Int32) (tooLong : Errno)
    (failure success : Int32) : Action Int32 := do
  if size ≤ 0 then
    let _ ← Syscall.setErrno .einval
    return failure
  if size.toInt < text.utf8ByteSize + 1 then
    let _ ← Syscall.setErrno tooLong
    return failure
  let _ ← Syscall.sendString text (some ⟨buffer, size.toNatClampNeg⟩)
  return success

def hostName (buffer : UInt32) (size : Int32) : Action Int32 := do
  match ← Program.ask .hostName with
  | .error e => Syscall.fail e (-1)
  | .ok name => giveText name buffer size .enametoolong (-1) 0

/-- Without a buffer the guest gets a new block, which it releases itself. -/
def workingDirectory (buffer : UInt32) (size : Int32) : Action Int32 := do
  match ← Program.ask .workingDirectory with
  | .error e => Syscall.fail (.ofIo e) 0
  | .ok path =>
    if buffer = 0 then return (← Syscall.sendString path none).toInt32
    else giveText path buffer size .erange 0 buffer.toInt32

/-- Without a buffer the answer lies in one block that is kept for the life of the instance. -/
def terminalPath (buffer : UInt32) : Action Int32 := do
  let kept := (← Program.host).pointers.terminalPath
  match kept, decide (buffer = 0) with
  | some block, true => return block.toInt32
  | _, _ =>
    match ← Program.ask .terminalPath with
    | .error e => Syscall.fail e 0
    | .ok path =>
      if buffer ≠ 0 then
        return (← Syscall.sendString path (some ⟨buffer, path.utf8ByteSize + 1⟩)).toInt32
      else
        let block ← Syscall.sendString path none
        Program.modifyHost fun h =>
          { h with pointers := { h.pointers with terminalPath := some block } }
        return block.toInt32

def isTerminal (fd : Int32) : Action Int32 := do
  match ← Program.ask (.isTerminal fd) with
  | .ok true => return 1
  | .ok false =>
    let _ ← Syscall.setErrno .enotty
    return 0
  | .error e => Syscall.fail e 0

/-- Sleeps here, or has the owner of the worker sleep. -/
def pause (microseconds : Nat) : Action Int32 := do
  if (← Program.setup).blocking then
    Program.ask (.pause (microseconds / 1000))
    return 0
  else
    match ← Program.ask (.sleep microseconds) with
    | .ok () => return 0
    | .error e => Syscall.fail e (-1)

/-- Up to `room` bytes of the owner's input: what was kept, or else what a new read brings. What the
guest did not ask for is kept. -/
def ownerInput (room : Nat) : Program (List UInt8) := do
  let kept := (← Program.host).kept
  let available ← if kept.isEmpty && 0 < room then Program.ask .awaitInput else pure kept
  Program.modifyHost fun h => { h with kept := available.drop room }
  return available.take room

/-- Writes input into a buffer of the guest and returns how many bytes that are. -/
def deliver (buffer : UInt32) (room : Nat) (bytes : List UInt8) : Action Int32 := do
  let outcome ← (Syscall.writeMemory buffer bytes).attempt
  let kept := (← Program.host).kept
  Program.report (.delivered ⟨room, bytes, kept, outcome⟩)
  Action.ofExcept outcome
  return Int32.ofNat bytes.length

/-- Reads up to `room` bytes into a buffer and returns how many; zero is the end of input. -/
def readInput (buffer : UInt32) (room : Nat) : Action Int32 := do
  if (← Program.setup).blocking then deliver buffer room (← ownerInput room)
  else
    match ← Program.ask (.readStdin room) with
    | .ok answer => deliver buffer room (answer.bytes room)
    | .error e => Syscall.fail e (-1)

/-- There is no shell: the first word of a command is run as a library, with all words as arguments.
Without a command the answer says that commands can be run. -/
def command (address : UInt32) : Action Int32 := do
  if address = 0 then return 1
  let argv := words (← Syscall.readString address)
  if argv.isEmpty then return 0
  Syscall.run argv

def identity (i : Identity) : Action Int32 := do Syscall.check (← Program.ask (.identity i))

def done : HostResult Unit → Action Int32
  | .ok () => return 0
  | .error e => Syscall.fail e (-1)

def program (h : Handler) (args : List Int32) : Action Int32 :=
  let first := args.getD 0 0
  let second := args.getD 1 0
  match h with
  | .getpid => identity .pid
  | .getppid => identity .parentPid
  | .getuid => identity .uid
  | .geteuid => identity .effectiveUid
  | .getgid => identity .gid
  | .getegid => identity .effectiveGid
  | .setsid => identity .newSession
  | .getpgid => do Syscall.check (← Program.ask (.processGroup first))
  | .kill => do done (← Program.ask (.kill first second))
  | .gethostname => hostName first.toUInt32 second
  | .getcwd => workingDirectory first.toUInt32 second
  | .isatty => isTerminal first
  | .ctermid => terminalPath first.toUInt32
  | .loginTty => do done (← Program.ask (.loginTerminal first))
  | .statvfs => throw (.notImplemented "statvfs")
  | .fstatvfs => throw (.notImplemented "fstatvfs")
  | .sleep => pause (first.toNatClampNeg * 1000000)
  | .usleep => pause first.toUInt32.toNat
  | .readStdin => readInput first.toUInt32 second.toNatClampNeg
  | .system => command first.toUInt32

end Handler

end SandboxHost
