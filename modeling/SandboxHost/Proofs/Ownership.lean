import SandboxHost.Proofs.Ledger
import SandboxHost.Proofs.Rollback
import SandboxHost.Proofs.SystemCalls

namespace SandboxHost

/-- Calls leave the scratch block where it is: runs in them put it back. -/
def scratchKept : Law where
  keeps s _ s' := s'.scratch = s.scratch
  fails _ := True
  trans h h' := h'.trans h
  guest h _ _ := by rw [State.scratch, State.scratch, h]
  trap _ := trivial

section

variable {m : Machine} {call : Callee}

theorem Serving.keepsScratch (hcall : scratchKept.GovernsCallee call) (β : Type) (p : Program β)
    (R : β → Prop) (h : Serving m.setup (fun _ => True) β p R) :
    scratchKept.GovernsProgram m call p R := by
  cases h with
  | op op h => exact Machine.governs_plain (fun _ _ _ _ => rfl) hcall h.isPlain
  | setup => exact Machine.governs_setup
  | look _ => exact Machine.governs_look
  | edit hsame _ =>
    rintro s t _ s' ⟨⟩
    exact ⟨(hsame s.host).scratch, trivial⟩
  | signal signal =>
    intro s t _ s' h
    obtain ⟨⟨⟩, _, hdone, -⟩ := Dialogue.ends_ask.mp h
    cases hdone
    cases signal <;> exact ⟨rfl, trivial⟩
  | run _ =>
    intro s t r s' h
    refine ⟨?_, failsWithin_true r⟩
    obtain ⟨-, -, rfl⟩ | ⟨s₁, hrun, rfl⟩ := Syscall.ends_run h
    · rfl
    · have hpointers := Guest.run_pointers hrun
      exact congrArg Pointers.scratch hpointers

theorem Machine.callFunction_keepsScratch (m : Machine) (depth hostDepth : Nat) (caller : Caller) :
    scratchKept.GovernsCallee (m.callFunction depth hostDepth caller) :=
  governs_calls coversHost_true (fun _ _ _ _ _ => trivial) (fun _ => Serving.keepsScratch) depth
    hostDepth caller

end

theorem Op.IsIdle.block?_eq_none {op : Op} (h : op.IsIdle) (answer : op.Answer) (s s' : State)
    (t : Trace) : Step.block? ⟨op, answer, s, s', t⟩ = none := by
  cases op with
  | call purpose f args => cases purpose <;> first | exact h.elim | rfl
  | ask r =>
    cases r with
    | report e => cases e <;> first | exact h.elim | rfl
    | _ => rfl
  | setHost _ => exact h.elim
  | _ => rfl

theorem Op.IsIdle.freed?_eq_none {op : Op} (h : op.IsIdle) : op.freed? = none := by
  unfold freed?
  split
  · exact h.elim
  · rfl

theorem blocks_of_idle {steps : List Step} (h : ∀ x ∈ steps, x.op.IsIdle) : blocks steps = [] :=
  List.filterMap_eq_nil_iff.mpr fun x hx =>
    (h x hx).block?_eq_none x.answer x.before x.after x.trace

theorem freed_of_idle {steps : List Step} (h : ∀ x ∈ steps, x.op.IsIdle) : freed steps = [] :=
  List.filterMap_eq_nil_iff.mpr fun x hx => (h x hx).freed?_eq_none

namespace Guest

def Even (m : Machine) (call : Callee) : BlockKind := fun _ p R =>
  (∀ s, m.Records call p s fun steps _ s' => Ledger m.setup.module [] [] s steps s') ∧ ∀ b, R b

variable {m : Machine} {call : Callee}

theorem records_of_madeOf {α : Type} {p : Program α} {P : α → Prop} (hp : p.MadeOf (Even m call) P)
    (s : State) : m.Records call p s fun steps _ s' => Ledger m.setup.module [] [] s steps s' := by
  intro steps a s' h
  refine (hp.takes (K := Ledger m.setup.module [] []) Ledger.nil (fun _ _ _ _ _ => Ledger.trans) ?_ h).1
  exact fun β q R hq s steps b s' hsteps => ⟨hq.1 s steps b s' hsteps, hq.2 b⟩

section

variable (hcall : scratchKept.GovernsCallee call)

include hcall

theorem even_idle : BlockKind.Allows (Even m call) (fun _ => True) Op.IsIdle := by
  refine .of_ops (fun op hop => ⟨fun s steps answer s' h => ?_, fun answer => ?_⟩) trivial
  · obtain ⟨t, answer, s₁, rest, hstep, hdone, rfl⟩ := Machine.takes_step.mp h
    obtain ⟨rfl, rfl, rfl⟩ := Machine.takes_done.mp hdone
    have hidle : ∀ x ∈ [(⟨op, answer, s, s', t⟩ : Step)], x.op.IsIdle := by simpa using hop
    rw [← Machine.perform_ofOp] at hstep
    have hplain : scratchKept.GovernsProgram m call (.ofOp op) _ :=
      Machine.governs_plain (fun _ _ _ _ => rfl) hcall hop.isPlain
    have hkept : s'.scratch = s.scratch := (hplain s t answer s' hstep).1
    exact .still (blocks_of_idle hidle) (freed_of_idle hidle) hkept
  · cases op with
    | call _ _ _ => exact failsWithin_true answer
    | _ => trivial

theorem even_quiet : BlockKind.Allows (Even m call) (fun _ => True) Op.IsQuiet :=
  (even_idle hcall).mono Op.IsQuiet.isIdle

theorem even_access : BlockKind.Allows (Even m call) (fun _ => True) Op.IsAccess :=
  (even_quiet hcall).mono Op.IsAccess.isQuiet

def gained : Except Error UInt32 → List UInt32
  | .ok address => [address]
  | .error _ => []

theorem records_scratchKept {α : Type} {p : Program α} {P : α → Prop}
    (hp : p.MadeOf (StepsOf Op.IsPlain fun _ => True) P) (s : State) :
    m.Records call p s fun _ _ s' => s'.scratch = s.scratch := by
  intro steps a s' h
  refine (hp.governed (L := scratchKept) ?_ s _ a s' (Machine.ends_perform.mpr ⟨steps, h, rfl⟩)).1
  rintro _ _ _ ⟨op, hop⟩
  exact Machine.governs_plain (fun _ _ _ _ => rfl) hcall hop

theorem records_allocate (size : Nat) (s : State) :
    m.Records call (allocate size).run s fun steps r s' =>
      Ledger m.setup.module [] (gained r) s steps s' ∧ s'.scratch = s.scratch := by
  have hmade :=
    madeOf_allocateBlock (StepsOf.allows Op.IsMarshal.isPlain trivial) coversHost_true size
  have hscratch : m.Records call (allocate size).run s fun _ _ s' => s'.scratch = s.scratch :=
    records_scratchKept hcall hmade s
  suffices h : m.Records call (allocate size).run s fun steps r s' =>
      Ledger m.setup.module [] (gained r) s steps s' from
    fun steps r s' ht => ⟨h steps r s' ht, hscratch steps r s' ht⟩
  rw [allocate, Action.records_bind]
  have hlookup : Action.MadeOf (Even m call) (fun _ => True) (function allocator) :=
    madeOf_function (even_access hcall).lookup coversHost_true allocator
  refine (records_of_madeOf hlookup s).mono fun steps r s₁ hfound => ?_
  cases r with
  | error e => exact hfound
  | ok f =>
    refine Action.records_guard (fun _ => by rwa [List.append_nil]) fun _ => ?_
    rw [Action.records_bind, records_callRaw]
    intro t returned s' hreturned
    have hs : s'.scratch = s₁.scratch := (hcall f _ s₁ t returned s' hreturned).1
    -- Only an address that is not null is a block; what else comes back leaves nothing to own.
    have hnothing {steps' : List Step} (hblocks : blocks steps' = []) (hfreed : freed steps' = []) :
        Ledger m.setup.module [] [] s (steps ++ steps') s' := hfound.trans (.still hblocks hfreed hs)
    rcases returned with e | (_ | ⟨value, rest⟩)
    · exact hnothing rfl rfl
    · exact Machine.records_done.mpr (hnothing rfl rfl)
    · cases value with
      | i32 address =>
        have hblocks : blocks [⟨.call .allocate f [.i32 size.toUInt32],
            .ok (.i32 address :: rest), s₁, s', t⟩] =
            if address = 0 then [] else [.obtained address] := by
          split <;> simp [blocks, Step.block?, *]
        dsimp only [Except.map, List.head?]
        split
        · next hnull =>
          rw [if_pos hnull] at hblocks
          exact Machine.records_done.mpr (hnothing hblocks rfl)
        · next hblock =>
          rw [if_neg hblock] at hblocks
          exact Machine.records_done.mpr (hfound.trans (.obtain hblocks rfl hs))
      | _ => exact Machine.records_done.mpr (hnothing rfl rfl)

theorem records_giveBack (address : UInt32) (s : State) :
    m.Records call (giveBack address).run s fun steps r s' => blocks steps = [] ∧
      (freed steps = [address] ∨ freed steps = [] ∧ r.isOk = false) ∧
        Attempted m.setup.module address steps r ∧ s'.scratch = s.scratch := by
  have hmade : Action.MadeOf (StepsOf Op.IsPlain fun _ => True) (fun _ => True)
      (giveBack address) :=
    madeOf_giveBack (StepsOf.allows (fun h => h.isQuiet.isIdle.isPlain) trivial) coversHost_true
      address fun _ => .op _ trivial
  have hscratch : m.Records call (giveBack address).run s fun _ _ s' => s'.scratch = s.scratch :=
    records_scratchKept hcall hmade s
  have hidle : Action.MadeOf (StepsOf Op.IsIdle fun _ => True) (fun _ => True)
      (function deallocator) :=
    madeOf_function (StepsOf.allows (fun h => h.isQuiet.isIdle) trivial) coversHost_true
      deallocator
  suffices h : m.Records call (giveBack address).run s fun steps r _ => blocks steps = [] ∧
      (freed steps = [address] ∨ freed steps = [] ∧ r.isOk = false) ∧
        Attempted m.setup.module address steps r from
    fun steps r s' ht => ⟨(h steps r s' ht).1, (h steps r s' ht).2.1, (h steps r s' ht).2.2,
      hscratch steps r s' ht⟩
  rw [giveBack, Action.records_bind]
  intro steps r s₁ htakes
  have hsteps := hidle.sorted m call s steps r s₁ htakes
  have hsought := records_function deallocator s steps r s₁ htakes
  have hblocks := blocks_of_idle hsteps
  have hfreed := freed_of_idle hsteps
  -- Without the function nothing is freed; with it, the block is, even if the call fails.
  cases r with
  | error e => exact ⟨hblocks, .inr ⟨hfreed, rfl⟩, .missed e hsought⟩
  | ok f =>
    dsimp only
    rw [Action.records_bind, records_callRaw]
    intro t returned s' _
    have hcalled : blocks (steps ++ [⟨.call .release f [.i32 address], returned, s₁, s', t⟩]) = [] ∧
        freed (steps ++ [⟨.call .release f [.i32 address], returned, s₁, s', t⟩]) = [address] := by
      rw [blocks_append, freed_append, hblocks, hfreed]
      exact ⟨rfl, rfl⟩
    have hattempted : Attempted m.setup.module address (steps ++ [_]) (returned.map fun _ => ()) :=
      .called f returned s₁ s' t hsought
    cases returned with
    | error e => exact ⟨hcalled.1, .inl hcalled.2, hattempted⟩
    | ok results => exact Machine.records_done.mpr ⟨hcalled.1, .inl hcalled.2, hattempted⟩

theorem records_release_ledger (address : UInt32) (s : State) :
    m.Records call (release address).run s fun steps _ s' =>
      Ledger m.setup.module [address] [] s steps s' := by
  rw [records_release]
  refine (records_giveBack hcall address s).mono fun steps r s' h => ?_
  obtain ⟨hblocks, hfreed, hattempted, hs⟩ := h
  have hattempts : attempts steps = [] := attempts_of_blocks (by rw [hblocks]; rfl)
  refine .attempt r ?_ ?_ ?_ (.report hattempts hattempted) hs
  · rw [attempts_append, hattempts]
    rfl
  · rw [blocks_append, hblocks]
    rfl
  · rw [freed_append]
    rcases hfreed with hfreed | ⟨hfreed, hr⟩
    · exact .inl (by rw [hfreed]; rfl)
    · exact .inr ⟨by rw [hfreed]; rfl, hr⟩

theorem records_releaseAll_ledger (tracked : List UInt32) (s : State) :
    m.Records call (releaseAll tracked) s fun steps _ s' => Ledger m.setup.module tracked [] s steps s' := by
  induction tracked generalizing s with
  | nil => exact Machine.records_done.mpr (.nil s)
  | cons address rest ih =>
    show m.Records call
      ((release address).run.bind fun first => (releaseAll rest).bind fun later => _) s _
    rw [Machine.records_bind]
    refine (records_release_ledger hcall address s).mono fun steps first s₁ hfirst => ?_
    rw [Machine.records_bind]
    refine (ih s₁).mono fun steps' later s' hrest => ?_
    -- The other blocks are owned while the first is given back.
    have hall : Ledger m.setup.module (address :: rest) [] s (steps ++ steps') s' :=
      (hfirst.frame rest).trans hrest
    cases first <;> exact Machine.records_done.mpr (by rwa [List.append_nil])

/-- A block that cannot be filled is given back at once. -/
theorem records_send (bytes : List UInt8) (s : State) :
    m.Records call (send bytes).run s fun steps r s' => Ledger m.setup.module [] (gained r) s steps s' := by
  rw [send, Action.records_bind]
  refine (records_allocate hcall bytes.length s).mono fun steps r s₁ h => ?_
  obtain ⟨hgained, -⟩ := h
  cases r with
  | error e => exact hgained
  | ok address =>
    dsimp only
    rw [Action.run_attempt_bind, Machine.records_bind]
    have hwrite : Action.MadeOf (Even m call) (fun _ => True) (writeMemory address bytes) :=
      madeOf_writeMemory (even_access hcall) coversHost_true address bytes
    refine (records_of_madeOf hwrite s₁).mono fun steps' written s₂ hwritten => ?_
    have hfilled : Ledger m.setup.module [] [address] s (steps ++ steps') s₂ :=
      hgained.trans (hwritten.frame [address])
    cases written with
    | ok _ => exact Machine.records_done.mpr (by rwa [List.append_nil])
    | error e =>
      dsimp only
      rw [Action.run_attempt_bind, Machine.records_bind]
      refine (records_release_ledger hcall address s₂).mono fun steps'' _ s' hreleased => ?_
      exact Machine.records_done.mpr (by
        rw [List.append_nil, ← List.append_assoc]
        exact hfilled.trans hreleased)

namespace Scope

theorem records_of_sends {α : Type} {body : Scope α}
    (h : Scope.Sends (Even m call) (fun _ => True) body) (tracked : List UInt32) (s : State) :
    m.Records call (body.run.run tracked) s fun steps x s' =>
      ∃ new, x.2 = new ++ tracked ∧ Ledger m.setup.module [] new s steps s' := by
  -- On how the body is put together: what it has come to own is what it has tracked since.
  induction h generalizing tracked s with
  | pure a => exact Machine.records_done.mpr ⟨[], rfl, .nil s⟩
  | bind _ _ ih ih' =>
    rw [run_bind, Machine.records_bind]
    refine (ih tracked s).mono fun steps x s₁ h => ?_
    obtain ⟨new, hnew, hledger⟩ := h
    rcases x with ⟨e | a, tracked'⟩
    · exact Machine.records_done.mpr ⟨new, hnew, by rwa [List.append_nil]⟩
    · refine (ih' a tracked' s₁).mono fun steps' x' s' h' => ?_
      obtain ⟨new', hnew', hledger'⟩ := h'
      refine ⟨new' ++ new, ?_, hledger.trans (hledger'.frame new)⟩
      rw [hnew', List.append_assoc, ← hnew]
  | action ha =>
    rename_i a
    show m.Records call (a.run.bind fun r => .done (r, tracked)) s _
    rw [Machine.records_bind]
    refine (records_of_madeOf ha s).mono fun steps r s' h => ?_
    exact Machine.records_done.mpr ⟨[], rfl, by rwa [List.append_nil]⟩
  | send bytes =>
    rw [run_bind]
    show m.Records call
      (Program.bind ((Guest.send bytes).run.bind fun r => .done (r, tracked)) _) s _
    rw [Program.bind_assoc, Machine.records_bind]
    refine (records_send hcall bytes s).mono fun steps r s' h => ?_
    cases r with
    | error e => exact Machine.records_done.mpr ⟨[], rfl, by rwa [List.append_nil]⟩
    | ok address => exact Machine.records_done.mpr ⟨[address], rfl, by rwa [List.append_nil]⟩

end Scope

/-- A scope leaves nothing behind. -/
theorem even_inScope {α : Type} {body : Scope α}
    (h : Scope.Sends (Even m call) (fun _ => True) body) :
    Action.MadeOf (Even m call) (fun _ => True) (inScope body) := by
  refine Program.madeOf_block ⟨fun s => ?_, failsWithin_true⟩
  rw [records_inScope]
  refine (Scope.records_of_sends hcall h [] s).mono fun steps x s₁ hbody => ?_
  obtain ⟨new, hnew, hledger⟩ := hbody
  rw [List.append_nil] at hnew
  rw [hnew]
  refine (records_releaseAll_ledger hcall new s₁).mono fun steps' failure s' hreleased => ?_
  exact hledger.trans hreleased

theorem even_scratch : Action.MadeOf (Even m call) (fun _ => True) scratch := by
  refine Program.madeOf_block ⟨fun s => ?_, failsWithin_true⟩
  rw [scratch, Action.run_lift_bind]
  refine Machine.records_op rfl ?_
  dsimp only
  split
  · exact Machine.records_done.mpr (.still rfl rfl rfl)
  · next hs =>
    -- The allocator may run guest code, but that does not set the scratch block meanwhile.
    rw [Action.run_lift_bind]
    refine Machine.records_op rfl ?_
    rw [Action.records_bind]
    refine (records_allocate hcall _ s).mono fun steps r s₁ h => ?_
    obtain ⟨hgained, hs₁⟩ := h
    have hasked : Ledger m.setup.module [] [] s [⟨.getHost, s.host, s, s, []⟩, ⟨.setup, m.setup, s, s, []⟩] s :=
      .still rfl rfl rfl
    cases r with
    | error e => exact hasked.trans hgained
    | ok address =>
      have hnone : s₁.host.pointers.scratch = none := hs₁.trans hs
      dsimp only
      rw [Action.run_lift_bind, Machine.records_bind]
      refine Machine.records_modifyHost (Machine.records_done.mpr ?_)
      refine (hasked.trans hgained).trans (.keep ?_ rfl hnone rfl)
      rw [List.append_nil, blocks_edit, hnone]

theorem loads_even : Loads (Even m call) fun _ => True where
  quiet := even_quiet hcall
  invoke := by
    refine madeOf_invoke (even_idle hcall) coversHost_true ?_
    refine Program.madeOf_block ⟨fun s => ?_, fun _ => trivial⟩
    refine Machine.records_modifyHost (.still ?_ rfl rfl)
    rw [blocks_edit, HostState.fresh]
    cases s.host.pointers.scratch <;> rfl
  locate := madeOf_tableFunction? (even_idle hcall) trivial
  scratch := even_scratch hcall
  inScope := even_inScope hcall

theorem callWithString_balanced (name : String) (arg : StringArg) (extra : List Int64) (s : State) :
    m.Records call (callWithString name arg extra).run s fun steps _ _ => Balanced m.setup.module steps := by
  have hmade : Action.MadeOf (Even m call) (fun _ => True) (callWithString name arg extra) :=
    madeOf_callWithString (loads_even hcall) coversHost_true name arg extra
  exact (records_of_madeOf hmade s).mono fun _ _ _ h => h.balanced

theorem rolledBack_balanced (path : String) (argv : List String) (s : State) :
    m.Records call (rolledBack (loadAndExecute path argv)).run s fun steps _ _ =>
      Balanced m.setup.module steps := by
  have hmade : Action.MadeOf (Even m call) (fun _ => True) (loadAndExecute path argv) :=
    madeOf_loadAndExecute (loads_even hcall) coversHost_true path argv
  refine Machine.records_op rfl (Machine.records_op rfl (Machine.records_bind.mpr ?_))
  refine (records_of_madeOf hmade s).mono fun steps outcome s₁ hsteps => ?_
  refine Machine.records_op rfl (Machine.records_bind.mpr (Machine.records_modifyHost ?_))
  refine Machine.records_done.mpr (hsteps.balanced.around [_, _] rfl rfl ?_ rfl)
  -- Where there is no scratch block in the end, there was none before that could be put back.
  have hgone : s₁.host.pointers.scratch = none → s.host.pointers.scratch = none := by
    intro h
    rcases hsteps.keeps with ⟨-, hs⟩ | ⟨_, -, hs, -⟩
    · exact hs.symm.trans h
    · exact hs
  rw [List.append_nil]
  have hnone : Step.block? ⟨.restore s.memory, (), s₁,
      { s₁ with memory := s₁.memory.restore s.memory }, []⟩ = none := rfl
  rw [blocks, List.filterMap_cons_none hnone]
  refine (blocks_edit _ _ _).trans ?_
  dsimp only
  cases hs : s₁.host.pointers.scratch with
  | none => rw [hgone hs]
  | some _ => rfl

theorem run_balanced (argv : List String) (s : State) :
    m.Records call (run argv).run s fun steps _ _ => Balanced m.setup.module steps := by
  cases argv with
  | nil => exact Machine.records_done.mpr (Ledger.nil s).balanced
  | cons path rest =>
    rw [run_cons, Machine.records_step]
    rintro t ⟨⟩ s₁ hask
    rw [Machine.records_bind]
    refine (rolledBack_balanced hcall path (path :: rest) s₁).mono fun steps r s₂ hsteps => ?_
    rw [Machine.records_step]
    rintro t' ⟨⟩ s₃ hask'
    exact Machine.records_done.mpr (hsteps.around [_] rfl rfl rfl rfl)

end

/-- At every depth of calls and from every state, a call with strings and a run leave no block with
the host and give none back twice. Every scope attempts, after its body, each block that the body
noted, the newest first, and fails as its body did, or else as the first attempt that failed. -/
theorem every_block_given_back (m : Machine) (depth hostDepth : Nat) (s : State) :
    (∀ name arg extra, m.Records (m.callFunction depth hostDepth .host)
      (callWithString name arg extra).run s fun steps _ _ => Balanced m.setup.module steps) ∧
    (∀ argv, m.Records (m.callFunction depth hostDepth .host) (run argv).run s
      fun steps _ _ => Balanced m.setup.module steps) ∧
    ∀ (α : Type) (body : Scope α), m.Records (m.callFunction depth hostDepth .host)
      (inScope body).run s fun steps r _ => ∃ before outcome tracked s₁ after,
        m.Takes (m.callFunction depth hostDepth .host) (body.run.run []) s before
          (outcome, tracked) s₁ ∧
        steps = before ++ after ∧ (attempts after).map Prod.fst = tracked ∧
        r = scopeOutcome outcome (firstFailure after) := by
  have hcall := m.callFunction_keepsScratch depth hostDepth .host
  refine ⟨fun name arg extra => callWithString_balanced hcall name arg extra s,
    fun argv => run_balanced hcall argv s, fun α body => records_inScope.mpr ?_⟩
  intro before x s₁ hbody after failure s' hafter
  obtain ⟨hattempts, hfailure⟩ := records_releaseAll x.2 s₁ after failure s' hafter
  exact ⟨before, x.1, x.2, s₁, after, hbody, rfl, hattempts, by rw [hfailure]⟩

end Guest

end SandboxHost
