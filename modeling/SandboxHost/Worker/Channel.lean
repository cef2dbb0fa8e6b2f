import SandboxHost.Instance
import SandboxHost.Text.FileName
import SandboxHost.Worker.Message
import SandboxHost.Worker.SharedBlock

namespace SandboxHost.Worker

/-- Where a worker finds modules and directories. -/
structure Surroundings where
  module? : String → Option Module
  directoryExists : String → Bool

/-- What a worker sends when a job is done, and the instance it has then. -/
structure Finished where
  message : Message
  inst : Option Instance

/-- How far a wait for the word has come. -/
inductive Wait where
  /-- About to look at the word. -/
  | looking
  /-- It has seen the word pending, and falls asleep unless the word has changed since. -/
  | dozing
  | asleep
  deriving DecidableEq

inductive Thread where
  | idle (inst : Option Instance)
  | busy (work : Dialogue Finished)
  /-- The word is armed, and the notice is not sent yet. -/
  | armed (n : Notice) (resume : List UInt8 → Dialogue Finished)
  | posted (wait : Wait) (resume : List UInt8 → Dialogue Finished)
  /-- The wait has returned, and the bytes are not taken yet. -/
  | woken (count : Int32) (resume : List UInt8 → Dialogue Finished)

/-- What an owner waits for. -/
inductive Goal where
  | loaded
  | reply (id : UInt64)
  deriving DecidableEq

inductive Owner where
  | free (outcome : Except Error Json)
  /-- The buffer has its new size, and the job is not sent yet. -/
  | resized (name : String) (options : Options)
  | expecting (goal : Goal)
  | serving (goal : Goal) (n : Notice)
  /-- The buffer is filled, and the number of bytes is not in the word yet. A read that failed ends
  what the owner waited for. -/
  | filled (goal : Goal) (count : Int32) (failure : Option String)
  /-- The word is set, and a worker that is asleep has not been woken yet. -/
  | stored (goal : Goal) (failure : Option String)

structure Channel where
  surroundings : Surroundings
  thread : Thread
  /-- What the owner has asked for and the worker has not begun, oldest first. -/
  jobs : List Job
  /-- What the worker has sent and the owner has not received, oldest first. -/
  outbox : List Message
  shared : SharedBlock
  owner : Owner
  /-- The number of the last call. -/
  lastId : UInt64

/-- A move goes on by itself, or with an answer from outside, or has to wait for the other side. -/
inductive Move where
  | stuck
  | to (c : Channel)
  | ask (r : Request) (next : r.Answer → Channel)

/-- Loads a module from a file, for an instance that asks its owner for input and sleep. -/
def load (s : Surroundings) (name : String) (o : Options) : Dialogue (Except Error Instance) :=
  match o.config.check with
  | .error e => .done (.error e)
  | .ok () =>
    match s.module? name with
    | none => .done (.error (.engine .loadFailed))
    | some m =>
      instantiate o.config { blocking := true, directoryExists := s.directoryExists }
        ⟨FileName.stem name, m⟩

def answer (inst : Option Instance) (a : Action Json) (id : UInt64) : Dialogue Finished :=
  match inst with
  | none => .done ⟨.reply (.ofOutcome id (.error (.protocol .noModule))), none⟩
  | some i => (i.act a).bind fun (outcome, i) => .done ⟨.reply (.ofOutcome id outcome), some i⟩

/-- What a worker does for a job. A module that fails to load leaves the one before in place. -/
def work (s : Surroundings) (inst : Option Instance) : Job → Dialogue Finished
  | .load name options => (load s name options).bind fun outcome =>
    match outcome with
    | .ok i => .done ⟨.notice (.loaded .ok none), some i⟩
    | .error e => .done ⟨.notice (.loaded .error (some e.message)), inst⟩
  | .call name args id => answer inst (Guest.call name args) id
  | .callWithString name arg args id => answer inst (Guest.callWithString name arg args) id

namespace Channel

def spawn (s : Surroundings) : Channel :=
  { surroundings := s, thread := .idle none, jobs := [], outbox := [],
    shared := .new defaultBufferSize.toNat, owner := .free (.ok .null), lastId := 0 }

def threadMove (c : Channel) : Move :=
  match c.thread with
  | .idle inst =>
    match c.jobs with
    | [] => .stuck
    | job :: rest => .to { c with jobs := rest, thread := .busy (work c.surroundings inst job) }
  | .busy (.done f) => .to { c with thread := .idle f.inst, outbox := c.outbox ++ [f.message] }
  | .busy .diverged => .stuck
  | .busy (.ask (.pause ms) next) =>
    .to { c with shared := c.shared.arm, thread := .armed (.sleep ms.toUInt64) fun _ => next () }
  | .busy (.ask .awaitInput next) =>
    .to { c with shared := c.shared.arm, thread := .armed .waitForInput next }
  | .busy (.ask r next) => .ask r fun a => { c with thread := .busy (next a) }
  | .armed n resume =>
    .to { c with outbox := c.outbox ++ [.notice n], thread := .posted .looking resume }
  | .posted .looking resume =>
    match c.shared.wait? with
    | none => .to { c with thread := .posted .dozing resume }
    | some count => .to { c with thread := .woken count resume }
  | .posted .dozing resume =>
    .to { c with thread := .posted (if c.shared.isPending then .asleep else .looking) resume }
  | .posted .asleep _ => .stuck
  | .woken count resume =>
    .to { c with thread := .busy (resume (c.shared.take count.toNatClampNeg)) }

def finish (c : Channel) (outcome : Except Error Json) : Channel := { c with owner := .free outcome }

/-- What an owner that waits does with a message. -/
def receive (c : Channel) : Goal → Message → Channel
  | .loaded, .notice (.loaded .ok _) => c.finish (.ok .null)
  | .loaded, .notice (.loaded .error text) =>
    c.finish (.error (.workerInit (text.getD "unknown error")))
  | .loaded, .reply r => c.finish (.error (.protocol (.replyDuringInit r.id)))
  | .reply id, .reply r => if r.id = id then c.finish r.outcome else c
  | .reply id, .notice (.loaded _ _) => c.finish (.error (.protocol (.initDuringReply id)))
  | goal, .notice n => { c with owner := .serving goal n }

def fill (c : Channel) (goal : Goal) (bytes : List UInt8) (failure : Option String) : Channel :=
  { c with shared := c.shared.fill bytes,
           owner := .filled goal (Int32.ofNat (c.shared.room bytes.length)) failure }

/-- The owner has done what the worker asked for. After a failed read the worker sees the end of
input. -/
def serve (c : Channel) (goal : Goal) : Except String (List UInt8) → Channel
  | .ok bytes => c.fill goal bytes none
  | .error text => c.fill goal [] (some text)

def rouse (c : Channel) : Channel :=
  match c.thread with
  | .posted .asleep resume => { c with thread := .posted .looking resume }
  | _ => c

/-- The owner goes on to wait, or gives up what it waited for. -/
def goOn (c : Channel) (goal : Goal) : Option String → Channel
  | none => { c with owner := .expecting goal }
  | some text => c.finish (.error (.io text))

def ownerMove (c : Channel) : Move :=
  match c.owner with
  | .free _ => .stuck
  | .resized name o => .to { c with jobs := c.jobs ++ [.load name o], owner := .expecting .loaded }
  | .expecting goal =>
    match c.outbox with
    | [] => .stuck
    | m :: rest => .to ({ c with outbox := rest }.receive goal m)
  | .serving goal (.sleep ms) => .ask (.pause ms.toNat) fun _ => c.serve goal (.ok [])
  | .serving goal .waitForInput => .ask (.readOwner c.shared.capacity) fun answer => c.serve goal answer
  | .serving _ (.loaded _ _) => .to (c.finish (.error (.protocol .unexpectedInit)))
  | .filled goal count failure =>
    .to { c with shared := c.shared.complete count, owner := .stored goal failure }
  | .stored goal failure => .to (c.rouse.goOn goal failure)

/-- The owner asks for a module. The buffer gets its new size first. -/
def requestLoad (c : Channel) (name : String) (o : Options) : Channel :=
  { c with shared := c.shared.resize o.stdinBufferSize.toNat, owner := .resized name o }

def requestCall (c : Channel) (job : UInt64 → Job) : Channel :=
  let id := c.lastId + 1
  { c with lastId := id, jobs := c.jobs ++ [job id], owner := .expecting (.reply id) }

/-- Lets the owner move while it can and the worker otherwise, until the owner is free. -/
def settle : Nat → Channel → Dialogue Channel
  | 0, _ => .diverged
  | patience + 1, c =>
    match c.owner with
    | .free _ => .done c
    | _ =>
      match c.ownerMove with
      | .to c => settle patience c
      | .ask r next => .ask r fun a => settle patience (next a)
      | .stuck =>
        match c.threadMove with
        | .to c => settle patience c
        | .ask r next => .ask r fun a => settle patience (next a)
        | .stuck => .diverged

def complete (c : Channel) : Dialogue (Except Error Json × Channel) :=
  (settle Instantiation.patience c).bind fun c =>
    match c.owner with
    | .free outcome => .done (outcome, c)
    | _ => .diverged

def loadModule (c : Channel) (name : String) (o : Options) :
    Dialogue (Except Error Json × Channel) :=
  (c.requestLoad name o).complete

def call (c : Channel) (name : String) (args : List Int64) :
    Dialogue (Except Error Json × Channel) :=
  (c.requestCall (.call name args)).complete

def callWithString (c : Channel) (name : String) (arg : Guest.StringArg) (args : List Int64) :
    Dialogue (Except Error Json × Channel) :=
  (c.requestCall (.callWithString name arg args)).complete

end Channel

end SandboxHost.Worker
