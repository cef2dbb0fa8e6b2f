import SandboxHost.Proofs.ErrorReports
import SandboxHost.Proofs.Relinking

namespace SandboxHost

mutual

/-- Whether the instruction calls none but these functions. An entry of the table may be any one. -/
def Instr.callsOnly (inside : Nat → Bool) : Instr → Bool
  | .call function code => inside function && codeCallsOnly inside code
  | .callIndirect _ _ => false
  | .apply _ code | .block _ code | .loop _ code | .branch _ code | .branchIf _ code
  | .leave code => codeCallsOnly inside code
  | .ifElse condition thenBody elseBody =>
    codeCallsOnly inside condition &&
      (codeCallsOnly inside thenBody && codeCallsOnly inside elseBody)

def codeCallsOnly (inside : Nat → Bool) : List Instr → Bool
  | [] => true
  | i :: rest => i.callsOnly inside && codeCallsOnly inside rest

end

/-- These functions are no imports and call nothing but each other. -/
structure Module.Encloses (m : Module) (inside : Nat → Bool) : Prop where
  own {f : Nat} : inside f → m.imports.size ≤ f
  callsOnly {f : Nat} {func : Func} : inside f → m.funcs[f - m.imports.size]? = some func →
    codeCallsOnly inside func.body

namespace Machine

variable {m : Machine} {inside : Nat → Bool}

variable {call call' : Callee}

mutual

theorem exec_within (hcall : ∀ f, inside f → call f = call' f) (i : Instr)
    (hi : i.callsOnly inside) : m.exec call i = m.exec call' i := by
  funext f
  cases i with
  | apply _ code | block _ code | branch _ code | branchIf _ code | leave code =>
    rw [exec, exec, execAll_within hcall code hi]
  | loop _ code =>
    rw [exec, exec, execAll_within hcall code hi]
  | call function code =>
    obtain ⟨hfunction, hcode⟩ := Bool.and_eq_true_iff.mp hi
    rw [exec, exec, execAll_within hcall code hcode]
    unfold callFrom
    rw [hcall function hfunction]
  | callIndirect _ _ => cases hi
  | ifElse condition thenBody elseBody =>
    obtain ⟨hcondition, hbodies⟩ := Bool.and_eq_true_iff.mp hi
    obtain ⟨hthen, helse⟩ := Bool.and_eq_true_iff.mp hbodies
    rw [exec, exec, execAll_within hcall condition hcondition,
      execAll_within hcall thenBody hthen, execAll_within hcall elseBody helse]

theorem execAll_within (hcall : ∀ f, inside f → call f = call' f) (code : List Instr)
    (hcode : codeCallsOnly inside code) : m.execAll call code = m.execAll call' code := by
  funext f
  cases code with
  | nil => rw [execAll, execAll]
  | cons i rest =>
    obtain ⟨hi, hrest⟩ := Bool.and_eq_true_iff.mp hcode
    rw [execAll, execAll, exec_within hcall i hi, execAll_within hcall rest hrest]

end

/-- A property that the machine's own steps have is one of every call of enclosed functions, whatever
the imports are. -/
theorem callFunction_enclosed {G : (α : Type) → Exec α → Prop} (hG : m.Composes G)
    (h : m.setup.module.Encloses inside) (depth hostDepth : Nat) (caller : Caller) {f : Nat}
    (hf : inside f) (args : List Value) : G _ (m.callFunction depth hostDepth caller f args) := by
  -- On the levels that are left: enclosed code makes calls of one level less.
  induction depth generalizing hostDepth caller f args with
  | zero => exact hG.trap _
  | succ depth ih =>
    by_cases htype : (m.setup.module.funcType? f).map FuncType.params = some (typesOf args)
    · rw [callFunction_succ m depth hostDepth caller htype, if_neg (Nat.not_lt.mpr (h.own hf))]
      cases hfunc : m.setup.module.funcs[f - m.setup.module.imports.size]? with
      | none => exact hG.trap _
      | some func =>
        -- The other functions may as well trap, as none of them is called.
        let call : Callee := fun g args =>
          if inside g then m.callFunction depth hostDepth .guest g args else Exec.trap .callDepth
        have hsame (g : Nat) (hg : inside g) : m.callFunction depth hostDepth .guest g = call g :=
          funext fun _ => (if_pos hg).symm
        have hcall : CalleesMatch (fun α e _ => G α e) call call := by
          intro g args
          dsimp only [call]
          split
          · next hg => exact ih hostDepth .guest hg args
          · exact hG.trap _
        have henter : m.enter (m.callFunction depth hostDepth .guest) func args =
            m.enter call func args := by
          unfold enter
          rw [execAll_within hsame func.body (h.callsOnly hf hfunc)]
        change G _ (pure func >>= _)
        rw [pure_bind, henter]
        exact hG.couples.enter hcall func (Couples.uses_of_mem hfunc) args
    · obtain ⟨t, htrap⟩ := m.callFunction_of_misfit (depth + 1) hostDepth caller htype
      rw [htrap]
      exact hG.trap t

def neededNames : List String := [Guest.allocator, Guest.deallocator, "setErrno"]

/-- The functions that system calls call are found under their names and are enclosed, and the one that
is told of errors comes to its end. -/
structure Secludes (m : Machine) (call : Callee) (inside : Nat → Bool) : Prop where
  encloses : m.setup.module.Encloses inside
  direct {name : String} : name ∈ neededNames → m.setup.module.callTable? = none ∨
    m.setup.module.exported? (Guest.accessorName name) = none
  exported {name : String} {f : Nat} : name ∈ neededNames →
    m.setup.module.exported? name = some f → inside f
  told {f : Nat} : m.setup.module.exported? "setErrno" = some f → ∀ w s, s.fuel = none →
    ∃ r s', (call f [.i32 w]).run.run s = .done (r, s') ∧ r.isOk

end Machine

/-- Nothing that the host keeps is changed, and no budget is come by. -/
def leavingHost : Law where
  keeps s _ s' := s'.host = s.host ∧ (s.fuel = none → s'.fuel = none)
  fails _ := True
  trans h h' := ⟨h'.1.trans h.1, fun hs => h'.2 (h.2 hs)⟩
  guest hhost _ hfuel := ⟨hhost, hfuel⟩
  trap _ := trivial

/-- Programs in whose course all calls are considerate, on an instance without a budget. -/
def Considering (m : Machine) (call : Callee) : BlockKind := fun _ p P => ∀ s, s.fuel = none →
  m.Considerate call p s ∧ m.Records call p s fun _ b s' => s'.fuel = none ∧ P b

section

variable {m : Machine} {call : Callee} {α : Type}

theorem considering_of_madeOf {p : Program α} {P : α → Prop} (hp : p.MadeOf (Considering m call) P) :
    Considering m call α p P := by
  induction hp with
  | done ha => exact fun s hs => ⟨Machine.meets_done _, Machine.records_done.mpr ⟨hs, ha⟩⟩
  | block hb _ ih =>
    intro s hs
    obtain ⟨hmeets, hrecords⟩ := hb s hs
    refine ⟨Machine.meets_bind.mpr ⟨hmeets, ?_⟩, Machine.records_bind.mpr ?_⟩
    · exact hrecords.mono fun _ b s₁ h => (ih b h.2 s₁ h.1).1
    · exact hrecords.mono fun _ b s₁ h => (ih b h.2 s₁ h.1).2

theorem considering_aside {op : Op} (h : ¬ op.isCall) :
    Considering m call op.Answer (.ofOp op) fun _ => True := by
  intro s hs
  refine ⟨Machine.meets_step.mpr ⟨?_, fun _ _ _ _ => Machine.meets_done _⟩,
    Machine.records_step.mpr fun t answer s₁ hends => Machine.records_done.mpr ⟨?_, trivial⟩⟩
  · cases op with
    | call _ _ _ => exact absurd rfl h
    | _ => trivial
  · cases op with
    | call _ _ _ => exact absurd rfl h
    | ask r =>
      obtain ⟨_, _, hdone, -⟩ := Dialogue.ends_ask.mp hends
      cases hdone
      exact hs
    | write _ _ =>
      rw [Machine.performOp] at hends
      split at hends <;> cases hends <;> exact hs
    | _ =>
      cases hends
      exact hs

theorem considering_setup : Considering m call Setup Program.setup (· = m.setup) := by
  refine fun s hs => ⟨Machine.meets_op rfl trivial (Machine.meets_done _), ?_⟩
  refine Machine.records_step.mpr ?_
  rintro t _ s₁ ⟨⟩
  exact Machine.records_done.mpr ⟨hs, rfl⟩

theorem considering_modifyHost (f : HostState → HostState) :
    (Program.modifyHost f).MadeOf (Considering m call) fun _ => True := by
  have hset (host : HostState) : Considering m call Unit (.ofOp (.setHost host)) fun _ => True :=
    considering_aside nofun
  have hget : Considering m call HostState (.ofOp .getHost) fun _ => True := considering_aside nofun
  exact Program.madeOf_bind (Program.madeOf_block hget) fun _ _ => Program.madeOf_block (hset _)

theorem considering_search {name : String} (h : m.setup.module.callTable? = none ∨
      m.setup.module.exported? (Guest.accessorName name) = none) :
    Considering m call (Option Nat) (Guest.function? name) fun found =>
      ∀ f, found = some f → m.setup.module.exported? name = some f := by
  intro s hs
  rw [Guest.function?_eq]
  refine ⟨Machine.meets_op rfl trivial ?_, Machine.records_step.mpr ?_⟩
  · rw [Guest.seek_direct h]
    exact Machine.meets_done _
  · rintro t _ s₁ ⟨⟩
    rw [Guest.seek_direct h]
    exact Machine.records_done.mpr ⟨hs, fun f hf => hf⟩

end

namespace Inquires

variable {setup : Setup} {args : List Int32} {failed : Int32} {a : Action Int32} {B : BlockKind}

theorem madeOf (h : Inquires setup args failed a) (hB : Stays B)
    (hsetup : B Setup Program.setup (· = setup))
    (hask : ∀ r, B r.Answer (.ofOp (.ask r)) fun _ => True)
    (hfail : ∀ e, Action.MadeOf B (fun _ => True) (Syscall.fail e failed)) :
    Action.MadeOf B (fun _ => True) a := by
  induction h with
  | silent hsilent => exact hsilent B hB
  | survey _ ih =>
    refine Action.madeOf_lift_bind (Program.madeOf_block hsetup) fun s hs => ?_
    rw [hs]
    exact ih
  | look _ ih =>
    exact Action.madeOf_lift_bind (Program.madeOf_block (hB.silent .getHost trivial))
      fun host _ => ih host
  | ask hfollows =>
    refine Action.madeOf_lift_bind (Program.madeOf_block (hask _)) fun answer _ => ?_
    have hnext := hfollows answer
    unfold Follows at hnext
    split at hnext
    · rw [hnext]
      exact hfail _
    · exact hnext B hB

end Inquires

namespace Machine.Secludes

variable {m : Machine} {inside : Nat → Bool} {depth hostDepth : Nat}
  (h : m.Secludes (m.callFunction depth hostDepth .host) inside)

include h

theorem considering_call {purpose : Purpose} {f : Nat} {args : List Value} (hf : inside f)
    (hneeded : purpose.isNeeded → ∀ s, s.fuel = none → ∃ r s',
      (m.callFunction depth hostDepth .host f args).run.run s = .done (r, s') ∧ r.isOk) :
    Considering m (m.callFunction depth hostDepth .host) (Except Error (List Value))
      (.ofOp (.call purpose f args)) (Op.Answers (fun _ => True) (.call purpose f args)) := by
  have hleaves : leavingHost.Governs (m.callFunction depth hostDepth .host f args) :=
    callFunction_enclosed (leavingHost.composes m) h.encloses depth hostDepth .host hf args
  refine fun s hs => ⟨meets_step.mpr ⟨⟨?_, fun hpurpose => hneeded hpurpose s hs⟩, ?_⟩, ?_⟩
  · exact fun t r s' hends => (hleaves s t r s' hends).1.1
  · exact fun _ _ _ _ => meets_done _
  · refine records_step.mpr fun t r s' hends => records_done.mpr ⟨?_, failsWithin_true r⟩
    exact (hleaves s t r s' hends).1.2 hs

theorem considering_function? {name : String} (hname : name ∈ neededNames) :
    (Guest.function? name).MadeOf (Considering m (m.callFunction depth hostDepth .host)) fun found =>
      ∀ f, found = some f → m.setup.module.exported? name = some f :=
  Program.madeOf_block (considering_search (h.direct hname))

theorem stays : Stays (Considering m (m.callFunction depth hostDepth .host)) where
  silent op hop := by
    have haside : ¬ op.isCall := by
      intro hcall
      cases op with
      | call _ _ _ => exact hop
      | _ => cases hcall
    exact fun s hs => ⟨(considering_aside haside s hs).1,
      (considering_aside haside s hs).2.mono fun _ b _ h => ⟨h.1, op.answers_true b⟩⟩
  setPointers _ := considering_modifyHost _
  allocate size := by
    have hname : Guest.allocator ∈ neededNames := .head _
    exact Guest.madeOf_allocateBy coversHost_true (h.considering_function? hname) size fun f hf =>
      h.considering_call (h.exported hname hf) nofun
  release address := by
    have hname : Guest.deallocator ∈ neededNames := .tail _ (.head _)
    have hgive := Guest.madeOf_giveBackBy coversHost_true (h.considering_function? hname) address
      fun f hf => h.considering_call (h.exported hname hf) nofun
    have hreport (r : Except Error Unit) : Considering m (m.callFunction depth hostDepth .host) Unit
        (.ofOp (.ask (.report (.released address r)))) fun _ => True := considering_aside nofun
    exact Guest.madeOf_releaseBy hgive fun r => Program.madeOf_block (hreport r)

theorem madeOf_fail (e : HostError) (failed : Int32) :
    Action.MadeOf (Considering m (m.callFunction depth hostDepth .host)) (fun _ => True)
      (Syscall.fail e failed) := by
  have hname : "setErrno" ∈ neededNames := .tail _ (.tail _ (.head _))
  cases e with
  | unsupported capability => exact Action.madeOf_throw trivial
  | os errno =>
    refine Action.madeOf_bind ?_ fun _ => Action.madeOf_pure failed
    refine Action.madeOf_lift_bind (Program.madeOf_block (h.stays.silent .getHost trivial))
      fun host _ => ?_
    refine Action.madeOf_lift_bind (considering_modifyHost _) fun _ _ => ?_
    refine Action.madeOf_bind h.stays.requireBound fun _ => ?_
    refine Action.madeOf_lift_bind (h.considering_function? hname) fun found hfound => ?_
    split
    · next f =>
      have hexported := hfound f rfl
      refine Action.madeOf_bind (Guest.madeOf_callRaw _ _ _ ?_) fun _ => Action.madeOf_pure _
      exact h.considering_call (h.exported hname hexported) fun _ => h.told hexported _
    · exact Action.madeOf_pure _

/-- Where the functions that are needed call no imports, the guest is considerate of every handler. -/
theorem considerate (handler : Handler) (hh : handler.isHostBacked) (hlocal : m.setup.blocking = false)
    (args : List Int32) {s : State} (hs : s.fuel = none) :
    m.Considerate (m.callFunction depth hostDepth .host) (handler.program args).run s := by
  have hmade := (handler.inquires hh hlocal args).madeOf h.stays considering_setup
    (fun r => considering_aside nofun) fun e => h.madeOf_fail e handler.failed
  exact (considering_of_madeOf hmade s hs).1

end Machine.Secludes

/-- A guest that kills, but not where a system call needs it. -/
def killer : Module :=
  let word (w : UInt32) : Instr := .apply (.const (.i32 w)) []
  { errorKeeper with
    funcs := #[⟨⟨[.i32], []⟩, [], [.apply (.globalSet 0) [.apply (.localGet 0) []]]⟩,
      ⟨⟨[.i32], [.i32]⟩, [], [word 0xfffffff0]⟩, ⟨⟨[.i32], []⟩, [], []⟩,
      ⟨⟨[], [.i32]⟩, [], [.call 0 [word 1, word 0]]⟩]
    exports := [("setErrno", 1), (Guest.allocator, 2), (Guest.deallocator, 3), ("stop", 4)] }

def killerMachine : Machine :=
  Instantiation.machine .standard { directoryExists := fun _ => true } killer
    #[.function (.ofHandler .kill)]

theorem killer_considerate (h : Handler) (hh : h.isHostBacked) (args : List Int32) (s : State)
    (hs : s.fuel = none) : killerMachine.Considerate (killerMachine.callFunction 20 10 .host)
      (h.program args).run s := by
  have hinside {f : Nat} (hf : (f == 1 || f == 2 || f == 3) = true) : f = 1 ∨ f = 2 ∨ f = 3 := by
    simpa [or_assoc] using hf
  have hsecludes : killerMachine.Secludes (killerMachine.callFunction 20 10 .host)
      fun f => f == 1 || f == 2 || f == 3 := by
    refine ⟨⟨fun hf => ?_, fun hf hfunc => ?_⟩, fun _ => .inl rfl, fun hname hf => ?_,
      fun hf w s hs => ?_⟩
    · obtain rfl | rfl | rfl := hinside hf <;> decide
    · obtain rfl | rfl | rfl := hinside hf <;> cases hfunc <;> rfl
    · simp only [Machine.neededNames, List.mem_cons, List.not_mem_nil, or_false] at hname
      obtain rfl | rfl | rfl := hname <;> cases hf <;> rfl
    · cases hf
      obtain ⟨memory, globals, fuel, host⟩ := s
      cases hs
      exact ⟨_, _, rfl, rfl⟩
  exact hsecludes.considerate h hh rfl args hs

end SandboxHost
