import SandboxHost.Host.Request

namespace SandboxHost

structure HostProcess where
  pid : Int32
  parentPid : Int32
  group : Int32
  uid : Int32
  gid : Int32
  hostName : String
  workingDirectory : String

namespace HostProcess

def isSignal (n : Int32) : Bool := 0 ≤ n && n ≤ 31

/-- Whether a process identifier names this process, its group, or nothing else. -/
def knows (p : HostProcess) (pid : Int32) : Bool :=
  pid == 0 || pid == p.pid || pid == -p.group

/-- Answers a request that needs neither input nor the owner of a worker. A process that is not known
does not exist, and no signal but the null signal is sent to any. -/
def answer (p : HostProcess) : (r : Request) → r.Answer
  | .identity .pid => .ok p.pid
  | .identity .parentPid => .ok p.parentPid
  | .identity .uid => .ok p.uid
  | .identity .effectiveUid => .ok p.uid
  | .identity .gid => .ok p.gid
  | .identity .effectiveGid => .ok p.gid
  | .identity .newSession => .error (.os ⟨1, by decide⟩)
  | .processGroup pid => if p.knows pid then .ok p.group else .error (.os .esrch)
  | .kill pid signal =>
    if !isSignal signal then .error (.os .einval)
    else if p.knows pid && signal == 0 then .ok ()
    else .error (.os .esrch)
  | .isTerminal _ => .ok false
  | .terminalPath => .ok "/dev/tty"
  | .loginTerminal _ => .error (.unsupported "login_tty")
  | .hostName => .ok p.hostName
  | .readStdin _ => .ok ⟨[], 0⟩
  | .sleep _ => .ok ()
  | .workingDirectory => .ok p.workingDirectory
  | .pause _ => ()
  | .awaitInput => []
  | .readOwner _ => .ok []
  | .report _ => ()

end HostProcess

/-- The answers of a host without any capability. It only sleeps. -/
def Request.unsupported : (r : Request) → r.Answer
  | .identity .pid => .error (.unsupported "getpid")
  | .identity .parentPid => .error (.unsupported "getppid")
  | .identity .uid => .error (.unsupported "getuid")
  | .identity .effectiveUid => .error (.unsupported "geteuid")
  | .identity .gid => .error (.unsupported "getgid")
  | .identity .effectiveGid => .error (.unsupported "getegid")
  | .identity .newSession => .error (.unsupported "setsid")
  | .processGroup _ => .error (.unsupported "getpgid")
  | .kill _ _ => .error (.unsupported "kill")
  | .isTerminal _ => .error (.unsupported "isatty")
  | .terminalPath => .error (.unsupported "ctermid")
  | .loginTerminal _ => .error (.unsupported "login_tty")
  | .hostName => .error (.unsupported "gethostname")
  | .readStdin _ => .error (.unsupported "read_stdin")
  | .sleep _ => .ok ()
  | .workingDirectory => .error ⟨none⟩
  | .pause _ => ()
  | .awaitInput => []
  | .readOwner _ => .ok []
  | .report _ => ()

end SandboxHost
