import SandboxHost.Proofs.ChannelSteps
import SandboxHost.Proofs.ImportPrecedence

namespace SandboxHost

theorem toInt_toInt32 (w : UInt32) : w.toInt32.toInt = (w.toNat : Int).bmod (2 ^ 32) := by
  change w.toBitVec.toInt = _
  rw [BitVec.toInt_eq_toNat_bmod]
  rfl

namespace Handler

/-- How long a handler pauses for an argument, in microseconds. -/
def pause? : Handler → UInt32 → Option Nat
  | .sleep, w => some (w.toInt32.toNatClampNeg * 1000000)
  | .usleep, w => some w.toNat
  | _, _ => none

/-- How long the library function of the same name is asked to pause, in microseconds. The argument
has no sign. -/
def asked? : Handler → UInt32 → Option Nat
  | .sleep, w => some (w.toNat * 1000000)
  | .usleep, w => some w.toNat
  | _, _ => none

variable {h : Handler} {w : UInt32} {length : Nat}

theorem program_eq_pause (hpause : h.pause? w = some length) :
    h.program [w.toInt32] = pause length := by
  cases h <;> cases hpause
  · rfl
  · change pause w.toInt32.toUInt32.toNat = _
    rw [UInt32.toUInt32_toInt32]

theorem pause?_lt (hpause : h.pause? w = some length) : length < 2 ^ 31 * 1000000 := by
  have hw := w.toNat_lt
  cases h <;> cases hpause
  · change w.toInt32.toInt.toNat * 1000000 < _
    rw [toInt_toInt32, Int.bmod_def]
    omega
  · omega

/-- What is asked for is what is done, but for numbers of seconds that have a sign when read with
one. -/
theorem asked?_eq (hpause : h.pause? w = some length) (hw : h = .usleep ∨ w.toNat < 2 ^ 31) :
    h.asked? w = some length := by
  cases h <;> cases hpause
  · have hsmall : w.toNat < 2 ^ 31 := hw.resolve_left nofun
    have hsigned : w.toInt32.toNatClampNeg = w.toNat := by
      change w.toInt32.toInt.toNat = _
      rw [toInt_toInt32, Int.bmod_def]
      omega
    rw [hsigned]
    rfl
  · rfl

theorem pause?_sleep_of_le (hw : 2 ^ 31 ≤ w.toNat) : Handler.sleep.pause? w = some 0 := by
  have hlt := w.toNat_lt
  have hsigned : w.toInt32.toNatClampNeg = 0 := by
    change w.toInt32.toInt.toNat = _
    rw [toInt_toInt32, Int.bmod_def]
    omega
  rw [pause?, hsigned]

end Handler

namespace Machine

variable {m : Machine} {call : Callee} {h : Handler} {w : UInt32} {length : Nat}

def afterSleep (m : Machine) (call : Callee) (s : State) :
    HostResult Unit → Dialogue (Except Error Int32 × State)
  | .ok () => .done (.ok 0, s)
  | .error e => m.perform call (Syscall.fail e (-1)).run s

theorem perform_pause (m : Machine) (call : Callee) (length : Nat) (s : State) :
    m.perform call (Handler.pause length).run s =
      if m.setup.blocking then .ask (.pause (length / 1000)) fun _ => .done (.ok 0, s)
      else .ask (.sleep length) (m.afterSleep call s) := by
  rw [Handler.pause, Action.run_lift_bind]
  change m.perform call (ExceptT.run (if m.setup.blocking then _ else _)) s = _
  split
  · rfl
  · change Dialogue.ask _ _ = _
    congr 1
    funext answer
    cases answer <;> rfl

theorem run_hostCall_handler (m : Machine) (call : Callee) (h : Handler) (args : List Value)
    (s : State) : (m.hostCall call (.ofHandler h) args).run.run s =
      (m.perform call (h.program (args.map Value.int32)).run s).bind fun x =>
        .done (x.1.map fun n => [.ofInt32 n], x.2) := by
  have hprogram : (HostFunction.ofHandler h).program args =
      h.program (args.map Value.int32) >>= fun n => pure (some (.ofInt32 n)) := rfl
  rw [run_hostCall, hprogram, Action.perform_bind, Dialogue.bind_assoc]
  congr 1
  funext x
  rcases x with ⟨_ | n, s⟩ <;> rfl

/-- Behind the import is a handler that pauses for this long when it is called with the word. -/
structure EntersPause (m : Machine) (i : Nat) (w : UInt32) (h : Handler) (length : Nat) : Prop
    extends m.EntersHost i [.i32 w] (.ofHandler h) where
  length_eq : h.pause? w = some length

namespace EntersPause

variable {i : Nat} (hi : m.EntersPause i w h length) (depth hostDepth : Nat) (caller : Caller)
  (s : State)

include hi

theorem run_callFunction :
    (m.callFunction (depth + 1) (hostDepth + 1) caller i [.i32 w]).run.run s =
      (m.perform (m.callFunction depth hostDepth .host) (Handler.pause length).run s).bind fun x =>
        .done (x.1.map fun n => [.ofInt32 n], x.2) := by
  rw [hi.callFunction, run_hostCall_handler]
  change Dialogue.bind (m.perform _ (h.program [w.toInt32]).run s) _ = _
  rw [Handler.program_eq_pause hi.length_eq]

theorem run_here (hblocking : m.setup.blocking = false) :
    (m.callFunction (depth + 1) (hostDepth + 1) caller i [.i32 w]).run.run s =
      .ask (.sleep length) fun answer =>
        (m.afterSleep (m.callFunction depth hostDepth .host) s answer).bind fun x =>
          .done (x.1.map fun n => [.ofInt32 n], x.2) := by
  rw [hi.run_callFunction, perform_pause, hblocking]
  rfl

theorem run_onWorker (hblocking : m.setup.blocking = true) :
    (m.callFunction (depth + 1) (hostDepth + 1) caller i [.i32 w]).run.run s =
      .ask (.pause (length / 1000)) fun _ => .done (.ok [.i32 0], s) := by
  rw [hi.run_callFunction, perform_pause, hblocking]
  rfl

end EntersPause

end Machine

namespace Worker

def Mark.posted? : Mark → Option Notice
  | .posted n => some n
  | _ => none

namespace Channel

/-- How far a worker has come that is about to pause: nothing is sent yet, or first of all a notice
for this time. -/
inductive Pausing (c : Channel) (ms : Nat) (next : Unit → Dialogue Finished) (ks : List Mark) :
    Prop where
  | ahead : ks.filterMap Mark.posted? = [] → c.thread = .busy (.ask (.pause ms) next) →
    Pausing c ms next ks
  | armed {resume : List UInt8 → Dialogue Finished} : ks.filterMap Mark.posted? = [] →
    c.thread = .armed (.sleep ms.toUInt64) resume → Pausing c ms next ks
  | sent {rest : List Notice} : ks.filterMap Mark.posted? = .sleep ms.toUInt64 :: rest →
    Pausing c ms next ks

variable {c c' : Channel} {ks : List Mark} {k : Mark} {ms : Nat} {next : Unit → Dialogue Finished}

/-- A worker that is awake is left alone by its owner, who sends no notices. -/
theorem Step.works_or (h : c.Step k c') (hawake : ∀ resume, c.thread ≠ .posted .asleep resume) :
    c.Works k c' ∨ k.posted? = none ∧ c'.thread = c.thread := by
  cases h with
  | worker h => exact .inl h
  | owner h =>
    refine .inr ⟨by cases h <;> rfl, ?_⟩
    obtain heq | heq := h.thread
    · exact heq
    · rw [heq, rouse]
      split
      · next resume hasleep => exact absurd hasleep (hawake resume)
      · rfl
  | load | call => exact .inr ⟨rfl, rfl⟩
  | stir hthread => exact absurd hthread (hawake _)

theorem Pausing.step (hp : c.Pausing ms next ks) (h : c.Step k c') :
    c'.Pausing ms next (ks ++ [k]) := by
  cases hp with
  | ahead hnone hthread =>
    obtain h | ⟨hk, heq⟩ := h.works_or (by simp [hthread])
    · cases h with
      | armToSleep hpause =>
        cases hthread.symm.trans hpause
        exact .armed (by simpa [Mark.posted?] using hnone) rfl
      | talk _ hr htalk =>
        cases hthread.symm.trans htalk
        cases hr
      | begin ht | finish ht | armToRead ht | post ht | look ht | wake ht | doze ht | take ht =>
        cases hthread.symm.trans ht
    · exact .ahead (by simpa [hk] using hnone) (heq.trans hthread)
  | armed hnone hthread =>
    obtain h | ⟨hk, heq⟩ := h.works_or (by simp [hthread])
    · cases h with
      | post hpost =>
        cases hthread.symm.trans hpost
        exact .sent (by rw [List.filterMap_append, hnone]; rfl)
      | begin ht | finish ht | armToSleep ht | armToRead ht | talk _ _ ht | look ht | wake ht
        | doze ht | take ht => cases hthread.symm.trans ht
    · exact .armed (by simpa [hk] using hnone) (heq.trans hthread)
  | sent hsent => exact .sent (by rw [List.filterMap_append, hsent, List.cons_append])

theorem posted_of_pause (hthread : c.thread = .busy (.ask (.pause ms) next)) (h : Run c ks c')
    {n : Notice} (hn : (ks.filterMap Mark.posted?).head? = some n) : n = .sleep ms.toUInt64 := by
  have hp : c'.Pausing ms next ks := h.preserves (P := fun ks c => c.Pausing ms next ks)
    (.ahead rfl hthread) fun _ _ _ _ hp hstep => hp.step hstep
  cases hp with
  | ahead hnone _ | armed hnone _ =>
    rw [hnone] at hn
    cases hn
  | sent hsent =>
    rw [hsent] at hn
    cases hn
    rfl

theorem exists_posted_of_pause (hthread : c.thread = .busy (.ask (.pause ms) next)) :
    ∃ c', Run c [.armed, .posted (.sleep ms.toUInt64)] c' :=
  ⟨_, (Run.nil.concat (.worker (.armToSleep hthread))).concat (.worker (.post rfl))⟩

end Channel

end Worker

namespace Handler

open Worker

/-- What comes of a call of a handler that pauses for so many microseconds, at any depth of calls,
off a worker and on one. -/
structure PausesFor (h : Handler) (w : UInt32) (length : Nat) : Prop where
  asked : h = .usleep ∨ w.toNat < 2 ^ 31 → h.asked? w = some length
  skipped : h = .sleep → 2 ^ 31 ≤ w.toNat → length = 0
  here {m : Machine} {i : Nat} {s : State} : m.EntersPause i w h length →
    m.setup.blocking = false → ∀ depth hostDepth caller,
      (m.callFunction (depth + 1) (hostDepth + 1) caller i [.i32 w]).run.run s =
        .ask (.sleep length) fun answer =>
          (m.afterSleep (m.callFunction depth hostDepth .host) s answer).bind fun x =>
            .done (x.1.map fun n => [.ofInt32 n], x.2)
  onWorker {m : Machine} {i : Nat} {s : State} : m.EntersPause i w h length →
    m.setup.blocking = true → ∀ depth hostDepth caller,
      (m.callFunction (depth + 1) (hostDepth + 1) caller i [.i32 w]).run.run s =
        .ask (.pause (length / 1000)) fun _ => .done (.ok [.i32 0], s)
  /-- Whatever the worker goes on to do, its first notice is for these milliseconds. -/
  posted {c : Channel} {next : Unit → Dialogue Finished} :
    c.thread = .busy (.ask (.pause (length / 1000)) next) →
    (∃ c', c.Run [.armed, .posted (.sleep (length / 1000).toUInt64)] c') ∧
      ∀ ks c' n, c.Run ks c' → (ks.filterMap Mark.posted?).head? = some n →
        n = .sleep (length / 1000).toUInt64
  /-- The notice has room for them. -/
  time : (length / 1000).toUInt64.toNat = length / 1000
  served {c : Channel} {goal : Goal} {ms : UInt64} : c.owner = .serving goal (.sleep ms) →
    c.ownerMove = .ask (.pause ms.toNat) fun _ => c.serve goal (.ok [])
  /-- Less than a millisecond is cut off. -/
  le : length / 1000 * 1000 ≤ length
  lt : length < length / 1000 * 1000 + 1000
  whole : h = .sleep → length / 1000 * 1000 = length

/-- For every argument. -/
theorem pauses_on_both_routes {h : Handler} {w : UInt32} {length : Nat}
    (hpause : h.pause? w = some length) : h.PausesFor w length where
  asked := asked?_eq hpause
  skipped hsleep hw := by
    subst hsleep
    exact Option.some.inj (hpause.symm.trans (pause?_sleep_of_le hw))
  here hi hblocking depth hostDepth caller := hi.run_here depth hostDepth caller _ hblocking
  onWorker hi hblocking depth hostDepth caller := hi.run_onWorker depth hostDepth caller _ hblocking
  posted hthread :=
    ⟨Channel.exists_posted_of_pause hthread, fun _ _ _ hrun => Channel.posted_of_pause hthread hrun⟩
  time := by
    have hlt := pause?_lt hpause
    exact UInt64.toNat_ofNat_of_lt' (show length / 1000 < 2 ^ 64 by omega)
  served howner := by rw [Channel.ownerMove, howner]
  le := Nat.div_mul_le_self length 1000
  lt := by omega
  whole hsleep := by
    subst hsleep
    cases hpause
    omega

def sleeper : Module :=
  { memory := some ⟨1, none, some Module.memoryExport, none⟩
    table := none
    globals := []
    data := []
    imports := #[⟨Instantiation.namespaceOfHandlers, Handler.sleep.name, ⟨[.i32], [.i32]⟩⟩,
      ⟨Instantiation.namespaceOfHandlers, Handler.usleep.name, ⟨[.i32], [.i32]⟩⟩]
    funcs := #[]
    exports := []
    start := none }

def sleeperMachine (blocking : Bool) : Machine :=
  Instantiation.machine .standard { blocking, directoryExists := fun _ => true } sleeper
    #[.function (.ofHandler .sleep), .function (.ofHandler .usleep)]

theorem enters_sleep (blocking : Bool) (w : UInt32) :
    (sleeperMachine blocking).EntersHost 0 [.i32 w] (.ofHandler .sleep) :=
  ⟨rfl, Nat.zero_lt_two, rfl⟩

theorem enters_usleep (blocking : Bool) (w : UInt32) :
    (sleeperMachine blocking).EntersHost 1 [.i32 w] (.ofHandler .usleep) :=
  ⟨rfl, Nat.one_lt_two, rfl⟩

/-- Of a millisecond and a half, the owner of a worker is told one millisecond. -/
theorem pauses_on_both_routes_cut :
    Handler.usleep.pause? 1500 = some 1500 ∧ Handler.usleep.PausesFor 1500 1500 ∧
      ∀ s, ((sleeperMachine true).callFunction 1 1 .guest 1 [.i32 1500]).run.run s =
        .ask (.pause 1) fun _ => .done (.ok [.i32 0], s) := by
  have hpauses : Handler.usleep.PausesFor 1500 1500 := pauses_on_both_routes rfl
  exact ⟨rfl, hpauses, fun _ => hpauses.onWorker ⟨enters_usleep true 1500, rfl⟩ rfl 0 0 .guest⟩

end Handler

/-- The request is for a pause that is as long as was asked for, or on a worker less than a
millisecond longer. -/
def Request.Fulfils (asked : Nat) (blocking : Bool) : Request → Prop
  | .sleep length => blocking = false ∧ length = asked
  | .pause ms => blocking = true ∧ asked ≤ ms * 1000 ∧ ms * 1000 < asked + 1000
  | _ => False

/-- Calls pause as long as the library functions are asked to. -/
def Machine.PausesAsAsked (m : Machine) : Prop :=
  ∀ (i : Nat) (w : UInt32) (h : Handler) (asked : Nat), h.asked? w = some asked →
    m.EntersHost i [.i32 w] (.ofHandler h) → ∀ depth hostDepth caller s, ∃ r next,
      (m.callFunction (depth + 1) (hostDepth + 1) caller i [.i32 w]).run.run s = .ask r next ∧
        r.Fulfils asked m.setup.blocking

/-- Off a worker, `sleep` of the largest number of seconds does not pause; on one, `usleep` of half
a millisecond does not. -/
theorem Handler.exists_pause_cut_short :
    ¬ (sleeperMachine false).PausesAsAsked ∧ ¬ (sleeperMachine true).PausesAsAsked := by
  let s : State := { memory := .zeros 0, globals := #[], fuel := none, host := {} }
  constructor
  · intro hasked
    obtain ⟨r, next, hcall, hfulfils⟩ :=
      hasked 0 0xffffffff .sleep _ rfl (enters_sleep false _) 0 0 .guest s
    cases hcall
    exact absurd hfulfils.2 (by decide)
  · intro hasked
    obtain ⟨r, next, hcall, hfulfils⟩ :=
      hasked 1 500 .usleep _ rfl (enters_usleep true _) 0 0 .guest s
    cases hcall
    exact absurd hfulfils.2.1 (by decide)

end SandboxHost
