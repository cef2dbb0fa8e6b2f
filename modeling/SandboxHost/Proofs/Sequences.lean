import SandboxHost.Host.Native
import SandboxHost.Proofs.ScratchBlock

namespace SandboxHost

structure Performed where
  op : Guest.Operation
  before : State
  steps : List Step
  result : Except Error op.Result
  after : State

namespace Performed

def Of (m : Machine) (call : Callee) (x : Performed) : Prop :=
  m.Takes call x.op.action.run x.before x.steps x.result x.after

/-- The operation's own steps, unless they are rolled back. -/
def lasting (x : Performed) : List Step :=
  match x.op with
  | .run _ => []
  | _ => x.steps

theorem lasting_of_shortText? {x : Performed} {size : Nat} (h : (x.op.shortText? size).isSome) :
    x.lasting = x.steps := by
  unfold lasting
  split
  · next hop =>
    rw [hop] at h
    cases h
  · rfl

end Performed

/-- Operations one after the other. What is done in between leaves the scratch pointer alone. -/
inductive Machine.Performs (m : Machine) (call : Callee) :
    State → List Performed → State → Prop where
  | nil {s s' : State} : s'.scratch = s.scratch → Performs m call s [] s'
  | cons {x : Performed} {xs : List Performed} {s s' : State} : x.before.scratch = s.scratch →
    x.Of m call → Performs m call x.after xs s' → Performs m call s (x :: xs) s'

section

variable {m : Machine} {call : Callee} (hcall : scratchKept.GovernsCallee call)

include hcall

theorem Performed.Of.adopts {x : Performed} (h : x.Of m call) :
    Adopts m.setup.smallStringSize x.before x.lasting x.after := by
  obtain ⟨op, before, steps, result, after⟩ := x
  cases op with
  | run argv =>
    have hpointers := Guest.run_pointers (Machine.ends_perform.mpr ⟨steps, h, rfl⟩)
    exact .still rfl (congrArg Pointers.scratch hpointers)
  | _ => exact Guest.records_operation_adopts hcall _ (by simp) before steps result after h

namespace Machine.Performs

variable {s s' : State} {xs : List Performed}

theorem adopts (h : m.Performs call s xs s') :
    Adopts m.setup.smallStringSize s (xs.flatMap Performed.lasting) s' := by
  induction h with
  | nil hs => exact .still rfl hs
  | cons hs hx _ ih =>
    have hbetween : Adopts m.setup.smallStringSize _ [] _ := .still rfl hs
    exact hbetween.trans ((hx.adopts hcall).trans ih)

/-- Whatever short string comes first or later goes through the block that is kept in the end. -/
theorem passes (h : m.Performs call s xs s') {x : Performed} (hx : x ∈ xs) {text : String}
    {extra : List Int64}
    (hshort : x.op.shortText? m.setup.smallStringSize = some (text, extra)) :
    ∀ y ∈ x.steps, y.op.IsFetch m.setup.smallStringSize ∨
      ∃ p, s'.scratch = some p ∧ y.before.scratch = some p ∧ y.op.Passes p text extra := by
  induction h with
  | nil _ => cases hx
  | cons _ hof hrest ih =>
    rcases List.mem_cons.mp hx with rfl | hx
    · intro y hy
      have hsteps := Guest.records_shortOperation hcall hshort _ _ _ _ hof
      refine (hsteps.passes y hy).imp id ?_
      rintro ⟨p, hafter, hpassed⟩
      exact ⟨p, (hrest.adopts hcall).stays p hafter, hpassed⟩
    · exact ih hx

theorem obtained_perm (h : m.Performs call s xs s')
    (hshort : ∀ x ∈ xs, (x.op.shortText? m.setup.smallStringSize).isSome) :
    (obtained (xs.flatMap Performed.steps)).Perm (kept (xs.flatMap Performed.lasting)) := by
  induction h with
  | nil _ => exact .refl _
  | @cons x xs _ _ _ hof hrest ih =>
    obtain ⟨hx, hxs⟩ := List.forall_mem_cons.mp hshort
    obtain ⟨⟨text, extra⟩, htext⟩ := Option.isSome_iff_exists.mp hx
    have hsteps := Guest.records_shortOperation hcall htext _ _ _ _ hof
    rw [List.flatMap_cons, List.flatMap_cons, obtained_append, kept_append,
      Performed.lasting_of_shortText? hx]
    exact hsteps.obtained.append (ih hxs)

end Machine.Performs

end

/-- Functions behind imports leave the scratch pointer alone, whoever supplies them. -/
theorem HostFunction.keepsScratch {m : Machine} {call : Callee}
    (hcall : scratchKept.GovernsCallee call) (f : HostFunction) (args : List Value) :
    scratchKept.GovernsProgram m call (f.program args).run (FailsWithin fun _ => True) :=
  (HostFunction.madeOf_program coversHost_true (fun _ _ => trivial) args).governed
    (Serving.keepsScratch hcall)

theorem Guest.Operation.keepsScratch {m : Machine} {call : Callee}
    (hcall : scratchKept.GovernsCallee call) {op : Operation} {s s' : State} {steps : List Step}
    {r : Except Error op.Result} (h : m.Takes call op.action.run s steps r s') (p : UInt32)
    (hp : s.scratch = some p) : s'.scratch = some p := by
  have hperformed : Performed.Of m call ⟨op, s, steps, r, s'⟩ := h
  exact (hperformed.adopts hcall).stays p hp

namespace Machine

/-- What becomes of the pointers that the host keeps, with so many levels for calls and imports. -/
structure KeptPointers (m : Machine) (depth hostDepth : Nat) : Prop where
  calls {caller : Caller} {f : Nat} {args : List Value} {s s' : State} {t : Trace}
    {r : Except Error (List Value)} :
    ((m.callFunction depth hostDepth caller f args).run.run s).Ends t (r, s') → s.KeepsPointers s'
  functions {f : HostFunction} {args : List Value} {s s' : State} {steps : List Step}
    {r : Except Error (Option Value)} :
    m.Takes (m.callFunction depth hostDepth .host) (f.program args).run s steps r s' →
    s.KeepsPointers s'
  operations (op : Guest.Operation) {s s' : State} {steps : List Step}
    {r : Except Error op.Result} :
    m.Takes (m.callFunction depth hostDepth .host) op.action.run s steps r s' → s.KeepsPointers s'
  /-- Runs leave both pointers as they found them, in the middle of a call too. -/
  runs {argv : List String} {s s' : State} {steps : List Step} {r : Except Error Int32} :
    m.Takes (m.callFunction depth hostDepth .host) (Guest.run argv).run s steps r s' ∨
      m.Takes (m.callFunction depth hostDepth .host) (Syscall.run argv).run s steps r s' →
    s'.host.pointers = s.host.pointers
  system {args : List Int32} {s s' : State} {steps : List Step} {r : Except Error Int32} :
    m.Takes (m.callFunction depth hostDepth .host) (Handler.system.program args).run s steps r s' →
    s'.host.pointers = s.host.pointers
  /-- Without a buffer, the terminal's path is in the block that is kept. -/
  terminalPath {s s' : State} {steps : List Step} {w : Int32} :
    m.Takes (m.callFunction depth hostDepth .host) (Handler.terminalPath 0).run s steps (.ok w) s' →
    w = 0 ∨ ∃ p, s'.terminalPath = some p ∧ w = p.toInt32
  /-- Where there is such a block already, nothing is called. -/
  keptTerminalPath {s s' : State} {steps : List Step} {r : Except Error Int32} {p : UInt32} :
    s.terminalPath = some p →
    m.Takes (m.callFunction depth hostDepth .host) (Handler.terminalPath 0).run s steps r s' →
    steps = [⟨.getHost, s.host, s, s, []⟩] ∧ r = .ok p.toInt32 ∧ s' = s
  /-- Outside of runs, one block at most becomes the scratch block, and none where there is one. -/
  adopts {s s' : State} {xs : List Performed} :
    m.Performs (m.callFunction depth hostDepth .host) s xs s' →
    Adopts m.setup.smallStringSize s (xs.flatMap Performed.lasting) s'
  /-- All short strings are passed through that block. -/
  passes {s s' : State} {xs : List Performed} {x : Performed} {text : String}
    {extra : List Int64} :
    m.Performs (m.callFunction depth hostDepth .host) s xs s' → x ∈ xs →
    x.op.shortText? m.setup.smallStringSize = some (text, extra) →
    ∀ y ∈ x.steps, y.op.IsFetch m.setup.smallStringSize ∨
      ∃ p, s'.scratch = some p ∧ y.before.scratch = some p ∧ y.op.Passes p text extra
  /-- For any number of short strings, the operations obtain one block at most. -/
  short {s s' : State} {xs : List Performed} :
    m.Performs (m.callFunction depth hostDepth .host) s xs s' →
    (∀ x ∈ xs, (x.op.shortText? m.setup.smallStringSize).isSome) →
    (obtained (xs.flatMap Performed.steps)).length ≤ 1

/-- At every depth of calls. -/
theorem kept_pointers_stay (m : Machine) (depth hostDepth : Nat) :
    m.KeptPointers depth hostDepth := by
  have hscratch := m.callFunction_keepsScratch depth hostDepth .host
  have hpath := m.callFunction_keepsPath depth hostDepth .host
  have hends {α : Type} {p : Program α} {s s' : State} {steps : List Step} {a : α}
      (h : m.Takes (m.callFunction depth hostDepth .host) p s steps a s') :
      (m.perform (m.callFunction depth hostDepth .host) p s).Ends (steps.flatMap Step.trace)
        (a, s') := ends_perform.mpr ⟨steps, h, rfl⟩
  refine
    { calls := fun {caller f args s s' t r} h => ⟨fun p hp => ?_, ?_⟩
      functions := fun {f args s s' steps r} h => ⟨fun p hp => ?_, ?_⟩
      operations := fun op s s' steps r h => ⟨op.keepsScratch hscratch h, ?_⟩
      runs := fun h => ?_
      system := fun {args s s' steps r} h => ?_
      terminalPath := fun h => Handler.records_terminalPath _ _ _ _ h _ rfl
      keptTerminalPath := fun hs h => Handler.records_keptTerminalPath hs _ _ _ h
      adopts := fun h => h.adopts hscratch
      passes := fun h hx hshort => h.passes hscratch hx hshort
      short := fun {s s' xs} h hshort => ?_ }
  · exact ((m.callFunction_keepsScratch depth hostDepth caller) f args s t r s' h).1.trans hp
  · exact ((m.callFunction_keepsPath depth hostDepth caller) f args s t r s' h).1
  · exact (f.keepsScratch hscratch args s _ _ s' (hends h)).1.trans hp
  · exact (PathKeeping.functions hpath f args s _ _ s' (hends h)).1
  · exact (PathKeeping.operations hpath op s _ _ s' (hends h)).1
  · rcases h with h | h
    · exact Guest.run_pointers (hends h)
    · obtain ⟨-, -, rfl⟩ | ⟨s₁, hrun, rfl⟩ := Syscall.ends_run (hends h)
      · rfl
      · have hpointers := Guest.run_pointers hrun
        exact hpointers
  · exact (Handler.command_undisturbing (m.callFunction_grows depth hostDepth .host) _
      (hends h)).pointers
  · rw [(h.obtained_perm hscratch hshort).length_eq]
    exact (h.adopts hscratch).length_kept

/-- A module whose allocator counts the blocks that it gives in the first global. If the second one
says so, it first asks for the terminal's path itself. No other function of the module calls it. -/
def countingAllocator : Module :=
  let word (w : UInt32) : Instr := .apply (.const (.i32 w)) []
  let global (i : Nat) : Instr := .apply (.globalGet i) []
  { memory := some ⟨1, none, some Module.memoryExport, none⟩
    table := none
    globals := [0, 0]
    data := []
    imports := #[⟨Instantiation.namespaceOfHandlers, Handler.getcwd.name, ⟨[.i32, .i32], [.i32]⟩⟩,
      ⟨Instantiation.namespaceOfHandlers, Handler.ctermid.name, ⟨[.i32], [.i32]⟩⟩]
    funcs := #[⟨⟨[.i32], [.i32]⟩, [], [.call 0 [word 0, word 0]]⟩,
      ⟨⟨[.i32], [.i32]⟩, [],
        [.ifElse [global 1]
          [.apply (.globalSet 1) [word 0], .apply .drop [.call 1 [word 0]]] [],
        .apply (.globalSet 0) [.apply (.word .add) [global 0, word 1]],
        .apply (.word .mul) [global 0, word 64]]⟩]
    exports := [("where", 2), (Handler.ctermid.name, 1), (Guest.allocator, 3)]
    start := none }

def countingMachine : Machine :=
  Instantiation.machine .standard { directoryExists := fun _ => true } countingAllocator
    #[.function (.ofHandler .getcwd), .function (.ofHandler .ctermid)]

def countingState (asks : UInt32) : State :=
  { memory := .zeros 1, globals := #[0, asks], fuel := none, host := { bound := true } }

def terminalHost : HostProcess :=
  { pid := 7, parentPid := 1, group := 7, uid := 0, gid := 0, hostName := "host"
    workingDirectory := "/work" }

/-- One short string has the allocator give two blocks, if the function that takes it asks where it
is. And for the terminal's path it gives two blocks if it asks for that path itself. -/
theorem allocations_of_handlers :
    let call := countingMachine.callFunction 20 10 .host
    (∃ steps r s', countingMachine.Takes call (Guest.callWithString "where" (.one "x") []).run
      (countingState 0) steps (.ok r) s' ∧ "x".utf8ByteSize < countingMachine.setup.smallStringSize ∧
      s'.globals[0]? = some 2) ∧
    ∃ steps r s', countingMachine.Takes call (Guest.call "ctermid" [0]).run
      (countingState 1) steps (.ok r) s' ∧ (countingState 1).terminalPath = none ∧
      s'.globals[0]? = some 2 := by
  intro call
  have hwhere : ((countingMachine.perform call (Guest.callWithString "where" (.one "x") []).run
      (countingState 0)).answered terminalHost.answer).any
        (fun x => x.1.isOk && x.2.globals[0]? == some 2) = true := by
    decide +kernel
  have hterminal : ((countingMachine.perform call (Guest.call "ctermid" [0]).run
      (countingState 1)).answered terminalHost.answer).any
        (fun x => x.1.isOk && x.2.globals[0]? == some 2) = true := by
    decide +kernel
  have hgiven {p : Action Json} {s : State} (h : ((countingMachine.perform call p.run s).answered
      terminalHost.answer).any (fun x => x.1.isOk && x.2.globals[0]? == some 2) = true) :
      ∃ steps r s', countingMachine.Takes call p.run s steps (.ok r) s' ∧
        s'.globals[0]? = some 2 := by
    obtain ⟨t, ⟨r, s'⟩, hends, hcounted⟩ := Dialogue.exists_ends_of_any_answered h
    obtain ⟨steps, htakes, -⟩ := ends_perform.mp hends
    obtain ⟨hok, hcount⟩ := (Bool.and_eq_true _ _).mp hcounted
    cases r with
    | ok r => exact ⟨steps, r, s', htakes, beq_iff_eq.mp hcount⟩
    | error e => cases hok
  obtain ⟨steps, r, s', htakes, hcount⟩ := hgiven hwhere
  obtain ⟨steps₁, r₁, s₁, htakes₁, hcount₁⟩ := hgiven hterminal
  exact ⟨⟨steps, r, s', htakes, by decide, hcount⟩, steps₁, r₁, s₁, htakes₁, rfl, hcount₁⟩

/-- The first of two short strings has the scratch block allocated, and the second one uses it. -/
theorem kept_pointers_stay_counting :
    let call := countingMachine.callFunction 20 10 .host
    ∃ x y s', countingMachine.Performs call (countingState 0) [x, y] s' ∧
      x.op = .callWithString "where" (.one "x") [] ∧
      y.op = .callWithString "where" (.one "yz") [] ∧ s'.scratch = some 64 ∧
      (obtained ([x, y].flatMap Performed.steps)).length ≤ 1 := by
  intro call
  have hboth : ((countingMachine.perform call
      ((Guest.callWithString "where" (.one "x") []).run.bind fun _ =>
        (Guest.callWithString "where" (.one "yz") []).run) (countingState 0)).answered
          terminalHost.answer).any (fun x => x.2.scratch == some 64) = true := by
    decide +kernel
  obtain ⟨t, ⟨r', s'⟩, hends, hscratch⟩ := Dialogue.exists_ends_of_any_answered hboth
  obtain ⟨_, htakes, -⟩ := ends_perform.mp hends
  obtain ⟨steps, r, s₁, steps', hfirst, hsecond, -⟩ := takes_bind.mp htakes
  let x : Performed := ⟨.callWithString "where" (.one "x") [], countingState 0, steps, r, s₁⟩
  let y : Performed := ⟨.callWithString "where" (.one "yz") [], s₁, steps', r', s'⟩
  have hperforms : countingMachine.Performs call (countingState 0) [x, y] s' :=
    .cons rfl hfirst (.cons rfl hsecond (.nil rfl))
  refine ⟨x, y, s', hperforms, rfl, rfl, beq_iff_eq.mp hscratch, ?_⟩
  have hshort (text : String) (h : text.utf8ByteSize < countingMachine.setup.smallStringSize) :
      (Guest.Operation.shortText? countingMachine.setup.smallStringSize
        (.callWithString "where" (.one text) [])).isSome := by
    rw [Guest.Operation.shortText?, if_pos h]
    rfl
  exact (kept_pointers_stay countingMachine 20 10).short hperforms
    (List.forall_mem_cons.mpr ⟨hshort "x" (by decide),
      List.forall_mem_singleton.mpr (hshort "yz" (by decide))⟩)

end Machine

end SandboxHost
