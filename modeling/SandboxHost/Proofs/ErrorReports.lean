import SandboxHost.Proofs.Entering
import SandboxHost.Proofs.PassedText
import SandboxHost.Proofs.Resolution
import SandboxHost.Proofs.SystemCalls

namespace SandboxHost

def Step.question? : Step → Option Exchange
  | ⟨.ask r, answer, _, _, _⟩ => some ⟨r, answer⟩
  | _ => none

namespace Handler

/-- The system calls that come down to one question to the host. -/
def isHostBacked : Handler → Bool
  | .statvfs | .fstatvfs | .system => false
  | _ => true

def failed : Handler → Int32
  | .isatty | .ctermid | .getcwd => 0
  | _ => -1

/-- Why a text does not go into a buffer of the guest. -/
def misfit? (text : String) (size : Int32) (tooLong : Errno) : Option Errno :=
  if size ≤ 0 then some .einval
  else if size.toInt < text.utf8ByteSize + 1 then some tooLong
  else none

end Handler

namespace Exchange

def error? {ε α : Type} : Except ε α → Option ε
  | .error e => some e
  | .ok _ => none

def failure? : Exchange → Option HostError
  | ⟨.identity _, answer⟩ => error? answer
  | ⟨.processGroup _, answer⟩ => error? answer
  | ⟨.kill _ _, answer⟩ => error? answer
  | ⟨.isTerminal _, answer⟩ => error? answer
  | ⟨.terminalPath, answer⟩ => error? answer
  | ⟨.loginTerminal _, answer⟩ => error? answer
  | ⟨.hostName, answer⟩ => error? answer
  | ⟨.readStdin _, answer⟩ => error? answer
  | ⟨.sleep _, answer⟩ => error? answer
  | ⟨.workingDirectory, answer⟩ => (error? answer).map .ofIo
  | _ => none

/-- The error that a handler, called with these words, reports on its own account. -/
def refusal? (args : List Int32) : Exchange → Option Errno
  | ⟨.hostName, .ok name⟩ => Handler.misfit? name (args.getD 1 0) .enametoolong
  | ⟨.workingDirectory, .ok path⟩ =>
    if (args.getD 0 0).toUInt32 = 0 then none
    else Handler.misfit? path (args.getD 1 0) .erange
  | ⟨.isTerminal _, .ok false⟩ => some .enotty
  | _ => none

def verdict? (args : List Int32) (x : Exchange) : Option HostError :=
  x.failure?.or ((x.refusal? args).map .os)

end Exchange

/-- What went wrong in a handler that was called with these words. -/
def verdict? (args : List Int32) (steps : List Step) : Option HostError :=
  steps.findSome? fun x => x.question?.bind (Exchange.verdict? args)

def Op.report? : Op → Option (Nat × List Value)
  | .call .reportErrno f args => some (f, args)
  | _ => none

def reports (steps : List Step) : List (Nat × List Value) := steps.filterMap (·.op.report?)

/-- What a handler does about what went wrong, if anything did. -/
structure Disciplined (module : Module) (verdict : Option HostError) (failed : Int32) (s : State)
    (steps : List Step) (r : Except Error Int32) (s' : State) : Prop where
  /-- The error number is kept, and the guest is told of it once, if it has a function for that. -/
  reported (e : Errno) : verdict = some (.os e) →
    r = .ok failed ∧ s'.host.lastErrno = e.guestNumber s.host.constants ∧
      reports steps = (resolved? module "setErrno" steps).toList.map fun f =>
        (f, [.ofInt32 (e.guestNumber s.host.constants)])
  lacking (capability : String) : verdict = some (.unsupported capability) →
    r = .error (.notImplemented capability) ∧ s' = s ∧ reports steps = []
  silent : verdict = none → s'.host.lastErrno = s.host.lastErrno ∧ reports steps = []

/-- Calls that the host makes on the way to telling the guest of an error. -/
def Purpose.isNeeded : Purpose → Bool
  | .reportErrno => true
  | .accessor symbol => symbol == "setErrno"
  | _ => false

/-- A call of the guest leaves alone what the host keeps, and one that the host needs comes to its end
and does not fail. -/
def Op.IsConsiderate (call : Callee) (s : State) : Op → Prop
  | .call purpose f args =>
    (∀ t r s', ((call f args).run.run s).Ends t (r, s') → s'.host = s.host) ∧
      (purpose.isNeeded → ∃ r s', (call f args).run.run s = .done (r, s') ∧ r.isOk)
  | _ => True

/-- All calls of the guest that the program comes to are such calls. -/
def Machine.Considerate (m : Machine) (call : Callee) {α : Type} (p : Program α) (s : State) : Prop :=
  m.Meets call p s fun _ op s' => op.IsConsiderate call s'

def Step.WasConsiderate : Step → Prop
  | ⟨.call purpose _ _, answer, s, s', _⟩ => s'.host = s.host ∧ (purpose.isNeeded → answer.isOk)
  | _ => True

theorem Machine.Considerate.records {m : Machine} {call : Callee} {α : Type} {p : Program α}
    {s : State} (h : m.Considerate call p s) :
    m.Records call p s fun steps _ _ => ∀ x ∈ steps, x.WasConsiderate := by
  induction p generalizing s with
  | done a => exact records_done.mpr (List.forall_mem_nil _)
  | step op next ih =>
    obtain ⟨hop, hnext⟩ := meets_step.mp h
    refine records_step.mpr fun t answer s₁ hends => ?_
    refine (ih answer (hnext t answer s₁ hends)).mono fun steps a s' hsteps => ?_
    refine List.forall_mem_cons.mpr ⟨?_, hsteps⟩
    cases op with
    | call purpose f args =>
      refine ⟨hop.1 t answer s₁ hends, fun hneeded => ?_⟩
      obtain ⟨r, s₂, hcall, hok⟩ := hop.2 hneeded
      rw [performOp, hcall] at hends
      cases hends
      exact hok
    | _ => trivial

namespace Op

def isCall : Op → Bool
  | .call _ _ _ => true
  | _ => false

/-- Steps that put no question to the host. -/
def AsksNothing : Op → Prop
  | .ask (.report _) => True
  | .ask _ => False
  | _ => True

/-- Of these, steps that change nothing that the host keeps and tell the guest of no error. -/
def IsMute : Op → Prop
  | .setHost _ | .call .reportErrno _ _ => False
  | op => op.AsksNothing

def IsSilent : Op → Prop
  | .call _ _ _ => False
  | op => op.IsMute

def Tells : Op → Prop
  | .getHost | .setHost _ | .call .reportErrno _ _ => True
  | op => op.Seeks "setErrno"

theorem IsMute.asksNothing {op : Op} (h : op.IsMute) : op.AsksNothing := by
  unfold IsMute at h
  split at h
  · exact h.elim
  · exact h.elim
  · exact h

theorem IsSilent.isMute {op : Op} (h : op.IsSilent) : op.IsMute := by
  unfold IsSilent at h
  split at h
  · exact h.elim
  · exact h

theorem IsLookup.isMute {op : Op} (h : op.IsLookup) : op.IsMute := by
  unfold IsLookup at h
  split at h
  · trivial
  · trivial
  · trivial
  · exact h.elim

theorem IsAccess.isMute {op : Op} (h : op.IsAccess) : op.IsMute := by
  unfold IsAccess at h
  split at h
  · trivial
  · trivial
  · exact h.isMute

theorem IsSend.isMute {op : Op} (h : op.IsSend) : op.IsMute := by
  unfold IsSend IsRelease at h
  split at h
  · trivial
  · split at h
    · trivial
    · trivial
    · exact h.isMute

theorem IsNote.report?_eq_none {op : Op} (h : op.IsNote) : op.report? = none := by
  cases op with
  | getHost | setHost _ => rfl
  | _ => exact h.elim

theorem Seeks.tells {op : Op} (h : op.Seeks "setErrno") : op.Tells := by
  unfold Tells
  split
  · trivial
  · trivial
  · trivial
  · exact h

theorem Tells.leavesMemory {op : Op} (h : op.Tells) : op.LeavesMemory := by
  cases op with
  | write _ _ | restore _ => exact h.elim
  | _ => trivial

/-- What has to be done to tell the guest is done. -/
theorem Tells.completes {op : Op} {m : Machine} {call : Callee} {s : State} (h : op.Tells)
    (hop : op.IsConsiderate call s) : ∃ x, m.performOp call op s = .done x := by
  cases op with
  | call purpose f args =>
    have hneeded : purpose.isNeeded := by
      cases purpose with
      | reportErrno => rfl
      | accessor symbol => exact beq_iff_eq.mpr h
      | _ => exact h.elim
    obtain ⟨r, s', hcall, -⟩ := hop.2 hneeded
    exact ⟨_, hcall⟩
  | write _ _ | restore _ | ask _ | memory => exact h.elim
  | _ => exact ⟨_, rfl⟩

end Op

theorem verdict?_cons (args : List Int32) (x : Step) (steps : List Step) :
    verdict? args (x :: steps) =
      (x.question?.bind (Exchange.verdict? args)).or (verdict? args steps) := by
  rw [verdict?, List.findSome?_cons]
  cases x.question?.bind (Exchange.verdict? args) <;> rfl

theorem verdict?_eq_none {args : List Int32} {steps : List Step}
    (h : ∀ x ∈ steps, x.op.AsksNothing) : verdict? args steps = none := by
  refine List.findSome?_eq_none_iff.mpr fun x hx => ?_
  obtain ⟨op, answer, s, s', t⟩ := x
  cases op with
  | ask r => cases r <;> first | rfl | exact (h _ hx).elim
  | _ => rfl

theorem Syscall.madeOf_requireBound {B : BlockKind}
    (hget : B HostState (.ofOp .getHost) (Op.Answers (fun _ => True) .getHost)) :
    Action.MadeOf B (fun _ => True) requireBound := by
  refine Action.madeOf_lift_bind (Program.madeOf_block hget) fun h _ => ?_
  split
  · exact Action.madeOf_pure _
  · exact Action.madeOf_throw trivial

/-- Programs in which nothing goes wrong that a handler is to tell of. -/
structure Stays (B : BlockKind) : Prop where
  silent (op : Op) : op.IsSilent → B op.Answer (.ofOp op) (op.Answers fun _ => True)
  setPointers (f : Pointers → Pointers) :
    (Program.modifyHost fun h => { h with pointers := f h.pointers }).MadeOf B fun _ => True
  allocate (size : Nat) : Action.MadeOf B (fun _ => True) (Guest.allocate size)
  release (address : UInt32) : Action.MadeOf B (fun _ => True) (Guest.release address)

namespace Stays

variable {B : BlockKind}

theorem of_mute (hmute : ∀ op : Op, op.IsMute → B op.Answer (.ofOp op) (op.Answers fun _ => True))
    (hpointers : ∀ f : Pointers → Pointers, (Program.modifyHost fun h =>
      { h with pointers := f h.pointers }).MadeOf B fun _ => True) : Stays B := by
  have hallows : B.Allows (fun _ => True) Op.IsMute := .of_ops hmute trivial
  have hrelease := hallows.mono fun h => (Op.IsRelease.isSend h).isMute
  refine ⟨fun op hop => hmute op hop.isMute, hpointers, fun size => ?_,
    Guest.madeOf_release hrelease coversHost_true⟩
  exact Guest.madeOf_allocate (hallows.mono Op.IsLookup.isMute) coversHost_true size
    fun f => hmute (.call .allocate f _) trivial

variable (hB : Stays B)

include hB

theorem requireBound : Action.MadeOf B (fun _ => True) Syscall.requireBound :=
  Syscall.madeOf_requireBound (hB.silent .getHost trivial)

theorem writeMemory (address : UInt32) (bytes : List UInt8) :
    Action.MadeOf B (fun _ => True) (Guest.writeMemory address bytes) :=
  Guest.madeOf_writeBy coversHost_true (Program.madeOf_block (hB.silent (.write _ _) trivial))

theorem sendString (text : String) (slot : Option Guest.Slot) :
    Action.MadeOf B (fun _ => True) (Syscall.sendString text slot) := by
  refine Action.madeOf_bind hB.requireBound fun _ => ?_
  cases slot with
  | none => exact Guest.madeOf_fill (hB.allocate _) (hB.writeMemory · _) hB.release
  | some slot =>
    unfold Guest.sendString
    refine Action.madeOf_guard trivial fun _ => ?_
    have hwrite (text : String) :
        Action.MadeOf B (fun _ => True) (Guest.writeCString slot.address text) :=
      Action.madeOf_bind (hB.writeMemory _ _) fun _ => hB.writeMemory _ _
    exact Action.madeOf_bind (hwrite _) fun _ => Action.madeOf_pure _

theorem deliver (buffer : UInt32) (room : Nat) (bytes : List UInt8) :
    Action.MadeOf B (fun _ => True) (Handler.deliver buffer room bytes) := by
  have hwrite : Action.MadeOf B (fun _ => True) (Syscall.writeMemory buffer bytes) :=
    Action.madeOf_bind hB.requireBound fun _ => hB.writeMemory buffer bytes
  refine Action.madeOf_attempt_bind hwrite fun outcome _ => ?_
  refine Action.madeOf_lift_bind (Program.madeOf_block (hB.silent .getHost trivial)) fun host _ => ?_
  refine Action.madeOf_lift_bind (Program.madeOf_block (hB.silent (.ask (.report _)) trivial))
    fun _ _ => ?_
  exact Action.madeOf_bind (Action.madeOf_ofExcept (failsWithin_true outcome)) fun _ =>
    Action.madeOf_pure _

end Stays

theorem stays_asksNothing : Stays (StepsOf Op.AsksNothing fun _ => True) := by
  refine .of_mute (fun op hop => .op op hop.asksNothing) fun _ => ?_
  exact Program.madeOf_bind (Program.madeOf_block (.op .getHost trivial)) fun _ _ =>
    Program.madeOf_block (.op (.setHost _) trivial)

/-- What is left to do for a handler: to fail if something went wrong, and else nothing that an error
could come of. -/
def Follows (verdict : Option HostError) (failed : Int32) (a : Action Int32) : Prop :=
  match verdict with
  | some e => a = Syscall.fail e failed
  | none => ∀ B, Stays B → Action.MadeOf B (fun _ => True) a

/-- The ways of handlers that put one question to the host at most. -/
inductive Inquires (setup : Setup) (args : List Int32) (failed : Int32) : Action Int32 → Prop where
  | silent {a : Action Int32} :
    (∀ B, Stays B → Action.MadeOf B (fun _ => True) a) → Inquires setup args failed a
  | survey {f : Setup → Action Int32} :
    Inquires setup args failed (f setup) → Inquires setup args failed (liftM Program.setup >>= f)
  | look {f : HostState → Action Int32} :
    (∀ h, Inquires setup args failed (f h)) → Inquires setup args failed (liftM Program.host >>= f)
  | ask {r : Request} {f : r.Answer → Action Int32} :
    (∀ answer, Follows (Exchange.verdict? args ⟨r, answer⟩) failed (f answer)) →
    Inquires setup args failed (liftM (Program.ask r) >>= f)

namespace Handler

variable {setup : Setup} {args : List Int32}

theorem follows_giveText (text : String) (buffer : UInt32) (size : Int32) (tooLong : Errno)
    (failure success : Int32) : Follows ((misfit? text size tooLong).map .os) failure
      (giveText text buffer size tooLong failure success) := by
  unfold giveText misfit?
  split
  · rfl
  · split
    · rfl
    · exact fun B hB => Action.madeOf_bind (hB.sendString _ _) fun _ => Action.madeOf_pure _

theorem follows_value {failed : Int32} (value : Int32) : Follows none failed (pure value) :=
  fun _ _ => Action.madeOf_pure value

/-- All system calls that come down to a question to the host are of this form, but for reads of the
owner's input. -/
theorem inquires_unless_owner (h : Handler) (hh : h.isHostBacked)
    (hreads : setup.blocking = false ∨ h ≠ .readStdin) (args : List Int32) :
    Inquires setup args h.failed (h.program args) := by
  have hidentity (i : Identity) : Inquires setup args (-1) (identity i) := .ask fun answer => by
    cases answer with
    | ok value => exact follows_value value
    | error e => rfl
  have hpause (microseconds : Nat) : Inquires setup args (-1) (pause microseconds) := by
    refine .survey ?_
    split
    · exact .ask fun _ => follows_value 0
    · refine .ask fun answer => ?_
      cases answer with
      | ok _ => exact follows_value 0
      | error e => rfl
  cases h with
  | statvfs | fstatvfs | system => cases hh
  | getpgid =>
    refine .ask fun answer => ?_
    cases answer with
    | ok value => exact follows_value value
    | error e => rfl
  | kill | loginTty =>
    refine .ask fun answer => ?_
    cases answer with
    | ok _ => exact follows_value 0
    | error e => rfl
  | sleep => exact hpause _
  | usleep => exact hpause _
  | gethostname =>
    refine .ask fun answer => ?_
    cases answer with
    | ok name => exact follows_giveText name _ _ _ _ _
    | error e => rfl
  | getcwd =>
    refine .ask fun answer => ?_
    cases answer with
    | error e => rfl
    | ok path =>
      -- What may go wrong and what is done are asked of the same address.
      change Follows (Option.map _ (if (args.getD 0 0).toUInt32 = 0 then none else _)) 0
        (if (args.getD 0 0).toUInt32 = 0 then _ else _)
      split
      · exact fun B hB => Action.madeOf_bind (hB.sendString path none) fun _ => Action.madeOf_pure _
      · exact follows_giveText path _ _ _ _ _
  | isatty =>
    refine .ask fun answer => ?_
    match answer with
    | .ok true => exact follows_value 1
    | .ok false => rfl
    | .error e => rfl
  | ctermid =>
    refine .look fun host => ?_
    dsimp only
    split
    · exact .silent fun B _ => Action.madeOf_pure _
    · refine .ask fun answer => ?_
      cases answer with
      | error e => rfl
      | ok path =>
        intro B hB
        dsimp only
        split
        · exact Action.madeOf_bind (hB.sendString path _) fun _ => Action.madeOf_pure _
        · refine Action.madeOf_bind (hB.sendString path none) fun block => ?_
          exact Action.madeOf_lift_bind (hB.setPointers fun p => { p with terminalPath := some block })
            fun _ _ => Action.madeOf_pure _
  | readStdin =>
    -- There is no owner to ask for the input, so it is asked of the outside.
    have hlocal : setup.blocking = false := hreads.resolve_right fun hne => hne rfl
    refine .survey ?_
    rw [if_neg (by rw [hlocal]; exact Bool.false_ne_true)]
    refine .ask fun answer => ?_
    cases answer with
    | ok read => exact fun B hB => hB.deliver _ _ _
    | error e => rfl
  | _ => exact hidentity _

theorem inquires (h : Handler) (hh : h.isHostBacked) (hlocal : setup.blocking = false)
    (args : List Int32) : Inquires setup args h.failed (h.program args) :=
  h.inquires_unless_owner hh (.inl hlocal) args

end Handler

/-- Nothing went wrong in these steps, and nobody was told of an error. -/
structure Silent (s : State) (steps : List Step) (s' : State) : Prop where
  lastErrno : s'.host.lastErrno = s.host.lastErrno
  reports : reports steps = []
  verdict (args : List Int32) : verdict? args steps = none

namespace Silent

variable {s s₁ s' : State} {steps steps' : List Step}

theorem trans (h : Silent s steps s₁) (h' : Silent s₁ steps' s') :
    Silent s (steps ++ steps') s' where
  lastErrno := h'.lastErrno.trans h.lastErrno
  reports := by
    have happend : SandboxHost.reports (steps ++ steps') = _ := List.filterMap_append
    rw [happend]
    exact List.append_eq_nil_iff.mpr ⟨h.reports, h'.reports⟩
  verdict args := by
    rw [verdict?, List.findSome?_append]
    exact (congrArg (Option.or · _) (h.verdict args)).trans (h'.verdict args)

theorem disciplined (h : Silent s steps s') (module : Module) (args : List Int32) (failed : Int32)
    (r : Except Error Int32) : Disciplined module (verdict? args steps) failed s steps r s' := by
  rw [h.verdict]
  exact ⟨nofun, nofun, fun _ => ⟨h.lastErrno, h.reports⟩⟩

end Silent

def Silently (m : Machine) (call : Callee) : BlockKind := fun _ p R =>
  (∀ s, m.Records call p s fun steps _ s' =>
    (∀ x ∈ steps, x.WasConsiderate) → Silent s steps s') ∧ ∀ b, R b

section

variable {m : Machine} {call : Callee}

theorem silently_mute (op : Op) (hop : op.IsMute) :
    Silently m call op.Answer (.ofOp op) (op.Answers fun _ => True) := by
  refine ⟨fun s => Machine.records_step.mpr fun t answer s₁ hends => ?_, op.answers_true⟩
  refine Machine.records_done.mpr fun hsteps => ?_
  have hverdict (args : List Int32) : verdict? args [⟨op, answer, s, s₁, t⟩] = none :=
    verdict?_eq_none (List.forall_mem_singleton.mpr hop.asksNothing)
  cases op with
  | call purpose f given =>
    have hstep := List.forall_mem_singleton.mp hsteps
    refine ⟨congrArg HostState.lastErrno hstep.1, ?_, hverdict⟩
    cases purpose <;> first | rfl | exact hop.elim
  | ask r =>
    obtain ⟨_, _, hdone, -⟩ := Dialogue.ends_ask.mp hends
    cases hdone
    exact ⟨rfl, rfl, hverdict⟩
  | write address bytes =>
    rw [Machine.performOp] at hends
    split at hends <;> cases hends <;> exact ⟨rfl, rfl, hverdict⟩
  | setHost h => exact hop.elim
  | _ =>
    cases hends
    exact ⟨rfl, rfl, hverdict⟩

theorem stays_silently : Stays (Silently m call) := by
  refine .of_mute silently_mute fun f => Program.madeOf_block ⟨fun s => ?_, fun _ => trivial⟩
  exact Machine.records_modifyHost fun _ => ⟨rfl, rfl, fun _ => rfl⟩

theorem records_silent {α : Type} {R : α → Prop} {p : Program α}
    (hp : p.MadeOf (Silently m call) R) (s : State) : m.Records call p s fun steps _ s' =>
      (∀ x ∈ steps, x.WasConsiderate) → Silent s steps s' := by
  intro steps a s' h
  refine (hp.takes (K := fun s steps s' => (∀ x ∈ steps, x.WasConsiderate) →
    Silent s steps s') (fun s _ => ⟨rfl, rfl, fun _ => rfl⟩) ?_ ?_ h).1
  · intro s steps s₁ steps' s' h h' hsteps
    obtain ⟨hfirst, hsecond⟩ := List.forall_mem_append.mp hsteps
    exact (h hfirst).trans (h' hsecond)
  · exact fun β q R hq s steps b s' h => ⟨hq.1 s steps b s' h, hq.2 b⟩

end

namespace Syscall

variable {m : Machine} {call : Callee} {s : State}

theorem records_requireBound (hb : s.host.bound)
    {P : List Step → Except Error Unit → State → Prop}
    (h : P [⟨.getHost, s.host, s, s, []⟩] (.ok ()) s) :
    m.Records call requireBound.run s P := by
  rw [requireBound, Action.run_lift_bind]
  refine Machine.records_op rfl ?_
  rw [if_pos hb]
  exact Machine.records_done.mpr h

def noteErrno (e : Errno) : Action Int32 := do
  let value := e.guestNumber (← Program.host).constants
  Program.modifyHost fun h => { h with lastErrno := value }
  requireBound
  return value

def tellErrno (value : Int32) : Action Int32 := do
  if let some f ← Guest.function? "setErrno" then
    let _ ← Guest.callRaw .reportErrno f [.ofInt32 value]
  return value

theorem setErrno_eq (e : Errno) : setErrno e = noteErrno e >>= tellErrno := by
  have split : noteErrno e >>= tellErrno = (do
      let value := e.guestNumber (← Program.host).constants
      Program.modifyHost fun h => { h with lastErrno := value }
      requireBound
      tellErrno value) := by
    simp only [noteErrno, bind_assoc, pure_bind]
  exact split.symm

theorem records_noteErrno (e : Errno) (hb : s.host.bound) :
    m.Records call (noteErrno e).run s fun steps r s' => (∀ x ∈ steps, x.op.IsNote) ∧
      r = .ok (e.guestNumber s.host.constants) ∧
        s'.host.lastErrno = e.guestNumber s.host.constants := by
  rw [noteErrno, Action.run_lift_bind]
  refine Machine.records_op rfl ?_
  rw [Action.run_lift_bind, Machine.records_bind]
  refine Machine.records_modifyHost ?_
  rw [Action.records_bind]
  refine records_requireBound ?_ ?_
  · exact hb
  · refine Machine.records_done.mpr ⟨?_, rfl, rfl⟩
    simp [Op.IsNote]

theorem records_tellErrno (value : Int32) (s : State) :
    m.Records call (tellErrno value).run s fun steps r s' => (∀ x ∈ steps, x.WasConsiderate) →
      r = .ok value ∧ s'.host.lastErrno = s.host.lastErrno ∧
        reports steps = (resolved? m.setup.module "setErrno" steps).toList.map fun f =>
          (f, [.ofInt32 value]) := by
  rw [tellErrno, Action.run_lift_bind, Machine.records_bind]
  intro steps found s₁ htakes
  have hfound := Guest.records_resolved "setErrno" s steps found s₁ htakes
  have hlookup : (Silently m call).Allows (fun _ => True) Op.IsLookup :=
    .of_ops (fun op hop => silently_mute op hop.isMute) trivial
  have hmade : (Guest.function? "setErrno").MadeOf (Silently m call) fun _ => True :=
    Guest.madeOf_function? hlookup "setErrno"
  -- An accessor may be called in the search, but that tells nobody of an error.
  have hsilent := records_silent hmade s steps found s₁ htakes
  cases found with
  | none =>
    refine Machine.records_done.mpr fun hsteps => ?_
    rw [List.append_nil] at hsteps ⊢
    rw [← hfound]
    exact ⟨rfl, (hsilent hsteps).lastErrno, (hsilent hsteps).reports⟩
  | some f =>
    dsimp only
    rw [Action.records_bind, Guest.records_callRaw]
    intro t returned s' _
    generalize hx : (⟨.call .reportErrno f [.ofInt32 value], returned, s₁, s', t⟩ : Step) = x
    have hreports : reports (steps ++ [x]) = reports steps ++ [(f, [.ofInt32 value])] := by
      subst hx
      exact List.filterMap_append
    have hresolved : resolved? m.setup.module "setErrno" (steps ++ [x]) = some f := by
      subst hx
      exact (resolved?_append_right (List.forall_mem_singleton.mpr id)).trans hfound.symm
    have hlast (h : ∀ y ∈ steps ++ [x], y.WasConsiderate) :
        s'.host = s₁.host ∧ returned.isOk = true := by
      subst hx
      have htold := List.forall_mem_singleton.mp (List.forall_mem_append.mp h).2
      exact ⟨htold.1, htold.2 rfl⟩
    cases returned with
    | error e => exact fun hsteps => nomatch (hlast hsteps).2
    | ok results =>
      refine Machine.records_done.mpr fun hsteps => ?_
      rw [List.append_nil] at hsteps ⊢
      obtain ⟨hlastErrno, hnone, -⟩ := hsilent (List.forall_mem_append.mp hsteps).1
      rw [hreports, hresolved, hnone]
      exact ⟨rfl, (congrArg HostState.lastErrno (hlast hsteps).1).trans hlastErrno, rfl⟩

/-- The number is kept and told once. -/
theorem records_setErrno (e : Errno) (hb : s.host.bound) :
    m.Records call (setErrno e).run s fun steps r s' => (∀ x ∈ steps, x.WasConsiderate) →
      r = .ok (e.guestNumber s.host.constants) ∧
        s'.host.lastErrno = e.guestNumber s.host.constants ∧
        reports steps = (resolved? m.setup.module "setErrno" steps).toList.map fun f =>
          (f, [.ofInt32 (e.guestNumber s.host.constants)]) := by
  rw [setErrno_eq, Action.records_bind]
  refine (records_noteErrno e hb).mono ?_
  rintro steps r s₁ ⟨hnotes, rfl, hkept⟩
  refine (records_tellErrno _ s₁).mono fun steps' r s' htold hsteps => ?_
  obtain ⟨hr, hstays, hreports⟩ := htold (List.forall_mem_append.mp hsteps).2
  have hquiet : reports steps = [] :=
    List.filterMap_eq_nil_iff.mpr fun x hx => (hnotes x hx).report?_eq_none
  have happend : reports (steps ++ steps') = _ := List.filterMap_append
  refine ⟨hr, hstays.trans hkept, ?_⟩
  rw [happend, resolved?_append_left fun x hx => (hnotes x hx).not_locates _]
  exact (congrArg (· ++ reports steps') hquiet).trans hreports

theorem records_fail (e : HostError) (failed : Int32) (hb : s.host.bound) :
    m.Records call (fail e failed).run s fun steps r s' => (∀ x ∈ steps, x.WasConsiderate) →
      Disciplined m.setup.module (some e) failed s steps r s' := by
  cases e with
  | unsupported capability =>
    refine Machine.records_done.mpr fun _ => ⟨by rintro _ ⟨⟩, ?_, by rintro ⟨⟩⟩
    rintro _ ⟨⟩
    exact ⟨rfl, rfl, rfl⟩
  | os errno =>
    rw [fail, Action.records_bind]
    refine (records_setErrno errno hb).mono fun steps r s₁ htold => ?_
    cases r with
    | error e =>
      intro hsteps
      cases (htold hsteps).1
    | ok value =>
      refine Machine.records_done.mpr fun hsteps => ⟨?_, by rintro _ ⟨⟩, by rintro ⟨⟩⟩
      rw [List.append_nil] at hsteps ⊢
      rintro _ ⟨⟩
      exact ⟨rfl, (htold hsteps).2⟩

theorem madeOf_fail (e : HostError) (failed : Int32) :
    Action.MadeOf (StepsOf Op.Tells fun _ => True) (fun _ => True) (fail e failed) := by
  cases e with
  | unsupported capability => exact Action.madeOf_throw trivial
  | os errno =>
    refine Action.madeOf_bind ?_ fun _ => Action.madeOf_pure failed
    refine Action.madeOf_lift_bind (Program.madeOf_block (.op .getHost trivial)) fun h _ => ?_
    have hkeep (f : HostState → HostState) :
        (Program.modifyHost f).MadeOf (StepsOf Op.Tells fun _ => True) fun _ => True :=
      Program.madeOf_bind (Program.madeOf_block (.op .getHost trivial)) fun _ _ =>
        Program.madeOf_block (.op (.setHost _) trivial)
    refine Action.madeOf_lift_bind (hkeep _) fun _ _ => ?_
    refine Action.madeOf_bind (madeOf_requireBound (.op .getHost trivial)) fun _ => ?_
    refine Action.madeOf_lift_bind (Guest.madeOf_seek Op.Seeks.tells) fun found _ => ?_
    split
    · refine Action.madeOf_bind (Guest.madeOf_callRaw _ _ _ (.op (.call _ _ _) trivial)) fun _ => ?_
      exact Action.madeOf_pure _
    · exact Action.madeOf_pure _

end Syscall

namespace Disciplined

variable {module : Module} {verdict : Option HostError} {failed : Int32} {s s' : State}
  {steps : List Step} {r : Except Error Int32}

theorem cons (h : Disciplined module verdict failed s steps r s') {x : Step}
    (hlocates : ¬ x.op.Locates "setErrno") (hreport : x.op.report? = none) :
    Disciplined module verdict failed s (x :: steps) r s' := by
  have hreports : reports (x :: steps) = reports steps := List.filterMap_cons_none hreport
  refine ⟨fun e he => ?_, fun capability hc => ?_, fun hnone => ?_⟩
  · rw [hreports, resolved?_cons hlocates]
    exact h.reported e he
  · rw [hreports]
    exact h.lacking capability hc
  · rw [hreports]
    exact h.silent hnone

end Disciplined

namespace Follows

variable {m : Machine} {call : Callee} {verdict : Option HostError} {failed : Int32}
  {a : Action Int32}

theorem records (h : Follows verdict failed a) (args : List Int32) {s : State} (hb : s.host.bound) :
    m.Records call a.run s fun steps r s' => (∀ x ∈ steps, x.WasConsiderate) →
      Disciplined m.setup.module (verdict.or (verdict? args steps)) failed s steps r s' := by
  cases verdict with
  | some e =>
    rw [show a = Syscall.fail e failed from h]
    exact Syscall.records_fail e failed hb
  | none =>
    refine (records_silent (h _ stays_silently) s).mono fun steps r s' hsilent hsteps => ?_
    exact (hsilent hsteps).disciplined m.setup.module args failed r

theorem meets (h : Follows verdict failed a) (args : List Int32) (s : State) :
    m.Meets call a.run s fun steps op _ => (verdict.or (verdict? args steps)).isSome → op.Tells := by
  cases verdict with
  | some e =>
    rw [show a = Syscall.fail e failed from h]
    exact (Machine.meets_sorted (Syscall.madeOf_fail e failed) s).mono fun _ _ _ hop _ => hop
  | none =>
    refine (Machine.meets_sorted_steps (h _ stays_asksNothing) s).mono fun steps op _ hsteps => ?_
    rw [Option.none_or, verdict?_eq_none hsteps]
    exact nofun

end Follows

namespace Inquires

variable {m : Machine} {call : Callee} {args : List Int32} {failed : Int32} {a : Action Int32}
  {s : State}

theorem records (h : Inquires m.setup args failed a) (hb : s.host.bound) :
    m.Records call a.run s fun steps r s' => (∀ x ∈ steps, x.WasConsiderate) →
      Disciplined m.setup.module (verdict? args steps) failed s steps r s' := by
  induction h with
  | silent h =>
    exact (records_silent (h _ stays_silently) s).mono fun steps r s' hsilent hsteps =>
      (hsilent hsteps).disciplined m.setup.module args failed r
  | survey _ ih =>
    rw [Action.run_lift_bind]
    refine Machine.records_op rfl (ih.mono fun steps r s' hrest hsteps => ?_)
    exact (hrest (List.forall_mem_cons.mp hsteps).2).cons id rfl
  | look _ ih =>
    rw [Action.run_lift_bind]
    refine Machine.records_op rfl ((ih s.host).mono fun steps r s' hrest hsteps => ?_)
    exact (hrest (List.forall_mem_cons.mp hsteps).2).cons id rfl
  | ask hfollows =>
    rw [Action.run_lift_bind]
    refine Machine.records_step.mpr fun t answer s₁ hends => ?_
    obtain ⟨_, _, hdone, -⟩ := Dialogue.ends_ask.mp hends
    cases hdone
    refine ((hfollows answer).records args hb).mono fun steps r s' hrest hsteps => ?_
    rw [verdict?_cons]
    exact (hrest (List.forall_mem_cons.mp hsteps).2).cons id rfl

/-- Once something has gone wrong, all that is left to do is to tell of it. -/
theorem meets (h : Inquires m.setup args failed a) :
    m.Meets call a.run s fun steps op _ => (verdict? args steps).isSome → op.Tells := by
  induction h with
  | silent h =>
    refine (Machine.meets_sorted_steps (h _ stays_asksNothing) s).mono fun steps op _ hsteps => ?_
    rw [verdict?_eq_none hsteps]
    exact nofun
  | survey _ ih =>
    rw [Action.run_lift_bind]
    refine Machine.meets_step.mpr ⟨nofun, fun t answer s₁ hends => ?_⟩
    cases hends
    exact ih
  | look _ ih =>
    rw [Action.run_lift_bind]
    refine Machine.meets_step.mpr ⟨nofun, fun t answer s₁ hends => ?_⟩
    cases hends
    exact ih s.host
  | ask hfollows =>
    rw [Action.run_lift_bind]
    refine Machine.meets_step.mpr ⟨nofun, fun t answer s₁ _ => ?_⟩
    refine ((hfollows answer).meets args s₁).mono fun steps op _ htells hwrong => htells ?_
    rwa [verdict?_cons] at hwrong

end Inquires

/-- On a bound instance off a worker, whatever the arguments, the table of numbers and the answers
are: a host-backed handler tells the guest of what went wrong, once and then at once, or is silent.
That takes a guest whose functions leave alone what the host keeps, and of which those that are needed
come to their end. -/
theorem Handler.tells_errors (m : Machine) (call : Callee) (h : Handler) (args : List Int32)
    (s : State) (hh : h.isHostBacked) (hlocal : m.setup.blocking = false) (hbound : s.host.bound)
    (hguest : m.Considerate call (h.program args).run s) :
    m.Records call (h.program args).run s (fun steps r s' =>
      Disciplined m.setup.module (verdict? args steps) h.failed s steps r s') ∧
    m.Meets call (h.program args).run s fun steps op s' => (verdict? args steps).isSome →
      ∃ x, m.performOp call op s' = .done x := by
  have hform := h.inquires hh hlocal args
  refine ⟨fun steps r s' htakes => ?_, fun steps op s' hnears hwrong => ?_⟩
  · exact hform.records hbound steps r s' htakes (hguest.records steps r s' htakes)
  · exact (hform.meets steps op s' hnears hwrong).completes (hguest steps op s' hnears)

/-- A guest whose global holds the error number that it was told of last. Its blocks lie outside of
memory, and to take one back it kills. -/
def errorKeeper : Module :=
  let word (w : UInt32) : Instr := .apply (.const (.i32 w)) []
  { memory := some ⟨1, none, some Module.memoryExport, none⟩
    table := none
    globals := [0]
    data := []
    imports := #[⟨Instantiation.namespaceOfHandlers, Handler.kill.name, ⟨[.i32, .i32], [.i32]⟩⟩]
    funcs := #[⟨⟨[.i32], []⟩, [], [.apply (.globalSet 0) [.apply (.localGet 0) []]]⟩,
      ⟨⟨[.i32], [.i32]⟩, [], [word 0xfffffff0]⟩,
      ⟨⟨[.i32], []⟩, [], [.apply .drop [.call 0 [word 1, word 0]]]⟩]
    exports := [("setErrno", 1), (Guest.allocator, 2), (Guest.deallocator, 3)]
    start := none }

def errorMachine : Machine :=
  Instantiation.machine .standard { directoryExists := fun _ => true } errorKeeper
    #[.function (.ofHandler .kill)]

def errorState : State :=
  { memory := .zeros 1, globals := #[0], fuel := none
    host := { bound := true, constants := some ⟨[(Errno.esrch.name, 71)]⟩ } }

def emptyHost : (r : Request) → r.Answer
  | .kill _ _ => .error (.os .esrch)
  | .workingDirectory => .ok "/w"
  | r => r.unsupported

/-- The guest is told of the number that its table gives. -/
theorem Handler.tells_errors_kill :
    let call := errorMachine.callFunction 20 10 .host
    ∃ steps s', Handler.kill.isHostBacked ∧ errorMachine.setup.blocking = false ∧
      errorState.host.bound ∧
      errorMachine.Considerate call (Handler.kill.program [1, 0]).run errorState ∧
      errorMachine.Takes call (Handler.kill.program [1, 0]).run errorState steps (.ok (-1)) s' ∧
      verdict? [1, 0] steps = some (.os .esrch) ∧ s'.host.lastErrno = 71 ∧
      reports steps = [(1, [.i32 71])] ∧ s'.globals[0]? = some 71 := by
  intro call
  have hguest : errorMachine.Considerate call (Handler.kill.program [1, 0]).run errorState := by
    refine Machine.meets_step.mpr ⟨trivial, fun t answer s hends => ?_⟩
    obtain ⟨_, _, hdone, -⟩ := Dialogue.ends_ask.mp hends
    cases hdone
    match answer with
    | .ok _ | .error (.unsupported _) => exact Machine.meets_done _
    | .error (.os e) =>
      -- What the host keeps is looked at and changed, and then the function is looked up.
      refine Machine.meets_op rfl trivial (Machine.meets_op rfl trivial ?_)
      refine Machine.meets_op rfl trivial (Machine.meets_op rfl trivial ?_)
      refine Machine.meets_op rfl trivial (Machine.meets_op rfl ⟨?_, ?_⟩ (Machine.meets_done _))
      · rintro t r s' ⟨⟩
        rfl
      · exact fun _ => ⟨_, _, rfl, rfl⟩
  have hrun : ((errorMachine.traced call emptyHost (Handler.kill.program [1, 0]).run
      errorState).any fun x => decide (verdict? [1, 0] x.1 = some (.os .esrch)) &&
        decide (resolved? errorKeeper "setErrno" x.1 = some 1) &&
        decide (x.2.2.globals[0]? = some 71)) = true := by
    decide +kernel
  obtain ⟨⟨steps, r, s'⟩, htraced, hchecked⟩ := (Option.any_eq_true _ _).mp hrun
  simp only [Bool.and_eq_true, decide_eq_true_eq] at hchecked
  obtain ⟨⟨hverdict, hresolved⟩, hglobal⟩ := hchecked
  have htakes := Machine.takes_of_traced htraced
  obtain ⟨hall, -⟩ := Handler.tells_errors errorMachine call .kill [1, 0] errorState rfl rfl rfl hguest
  obtain ⟨rfl, hkept, htold⟩ := (hall steps r s' htakes).reported .esrch hverdict
  have hnumber : Errno.guestNumber errorState.host.constants .esrch = 71 := by decide
  have hmodule : errorMachine.setup.module = errorKeeper := rfl
  rw [hmodule, hresolved, hnumber] at htold
  exact ⟨steps, s', rfl, rfl, rfl, hguest, htakes, hverdict, hkept.trans hnumber, htold, hglobal⟩

/-- Where nothing has gone wrong, the guest may be told of an error all the same: by the function that
takes back a block which could not be filled. Those that tell of errors and allocate are considerate. -/
theorem Handler.exists_error_without_cause :
    let call := errorMachine.callFunction 20 10 .host
    (∀ w s, s.fuel = none →
      (∃ s', (call 1 [.i32 w]).run.run s = .done (.ok [], s') ∧ s'.host = s.host) ∧
      (call 2 [.i32 w]).run.run s = .done (.ok [.i32 0xfffffff0], s)) ∧
    Handler.getcwd.isHostBacked ∧ errorMachine.setup.blocking = false ∧ errorState.host.bound ∧
    ∃ steps r s', errorMachine.Takes call (Handler.getcwd.program [0, 0]).run errorState steps r s' ∧
      verdict? [0, 0] steps = none ∧ errorState.host.lastErrno = 0 ∧ s'.host.lastErrno = 71 ∧
      s'.globals[0]? = some 71 := by
  intro call
  refine ⟨fun w s hs => ?_, rfl, rfl, rfl, ?_⟩
  · obtain ⟨memory, globals, fuel, host⟩ := s
    cases hs
    exact ⟨⟨_, rfl, rfl⟩, rfl⟩
  · have hrun : ((errorMachine.traced call emptyHost (Handler.getcwd.program [0, 0]).run
        errorState).any fun x => decide (verdict? [0, 0] x.1 = none) &&
          decide (x.2.2.host.lastErrno = 71) && decide (x.2.2.globals[0]? = some 71)) = true := by
      decide +kernel
    obtain ⟨⟨steps, r, s'⟩, htraced, hchecked⟩ := (Option.any_eq_true _ _).mp hrun
    simp only [Bool.and_eq_true, decide_eq_true_eq] at hchecked
    obtain ⟨⟨hverdict, hkept⟩, htold⟩ := hchecked
    exact ⟨steps, r, s', Machine.takes_of_traced htraced, hverdict, rfl, hkept, htold⟩

end SandboxHost
