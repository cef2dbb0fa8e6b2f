import SandboxHost.Proofs.HostPrograms
import SandboxHost.Syscall.Context

namespace SandboxHost

/-- The state for a run in the middle of a call: nothing is set yet. -/
def State.fresh (s : State) : State := { s with host := s.host.fresh }

/-- The state after a run in the middle of a call, with the call state from before it. -/
def State.resumed (s before : State) : State :=
  { s with host :=
    { s.host with result := before.host.result, exception := before.host.exception } }

section

variable {m : Machine} {call : Callee}

namespace Guest

theorem perform_rolledBack {α : Type} (body : Action α) (s : State) :
    m.perform call (rolledBack body).run s = (m.perform call body.run s).bind fun x =>
      .done (x.1, { x.2 with
        memory := x.2.memory.restore s.memory
        host := { x.2.host with pointers := s.host.pointers } }) := by
  change m.perform call (body.run.bind _) s = _
  rw [Machine.perform_bind]
  rfl

theorem run_cons (path : String) (rest : List String) :
    (run (path :: rest)).run = .step (.ask (.report (.runBegan (path :: rest)))) fun _ =>
      (rolledBack (loadAndExecute path (path :: rest))).run.bind fun r =>
        .step (.ask (.report .runEnded)) fun _ => .done r := by
  rw [run, Action.run_lift_bind]
  change Program.step _ _ = _
  congr 1
  funext _
  exact Action.run_attempt_bind _ _

/-- A run is what is rolled back, between its marks. -/
theorem ends_run {path : String} {rest : List String} {s s' : State} {t : Trace}
    {r : Except Error Int32} (h : (m.perform call (run (path :: rest)).run s).Ends t (r, s')) :
    ∃ t₁, (m.perform call (rolledBack (loadAndExecute path (path :: rest))).run s).Ends t₁ (r, s') ∧
      t = ⟨.report (.runBegan (path :: rest)), ()⟩ :: (t₁ ++ [⟨.report .runEnded, ()⟩]) := by
  rw [run_cons, Machine.perform_step, Machine.performOp] at h
  obtain ⟨⟨⟩, t₀, hbody, rfl⟩ := Dialogue.ends_ask.mp h
  rw [Dialogue.bind, Machine.perform_bind, Dialogue.ends_bind] at hbody
  obtain ⟨t₁, ⟨r₁, s₁⟩, t₂, hbody, hend, rfl⟩ := hbody
  obtain ⟨⟨⟩, t₃, hdone, rfl⟩ := Dialogue.ends_ask.mp hend
  cases hdone
  exact ⟨t₁, hbody, rfl⟩

end Guest

namespace Syscall

theorem perform_requireBound (s : State) :
    m.perform call requireBound.run s =
      .done (if s.host.bound then .ok () else .error .notBound, s) := by
  rw [requireBound, Action.run_lift_bind, Machine.perform_bind]
  change m.perform call (if s.host.bound then pure () else throw .notBound : Action Unit).run s = _
  split <;> rfl

theorem perform_run {s : State} (hb : s.host.bound) (argv : List String) :
    m.perform call (run argv).run s =
      (m.perform call (Guest.run argv).run s.fresh).bind fun x => .done (x.1, x.2.resumed s) := by
  rw [run, Action.perform_bind, perform_requireBound, if_pos hb]
  change m.perform call (ExceptT.run (liftM Program.host >>= _)) s = _
  rw [Action.run_lift_bind, Machine.perform_bind]
  change m.perform call (ExceptT.run (liftM (Program.setHost _) >>= _)) s = _
  rw [Action.run_lift_bind, Machine.perform_bind]
  change m.perform call (ExceptT.run (Action.attempt _ >>= _)) s.fresh = _
  rw [Action.run_attempt_bind, Machine.perform_bind]
  rfl

/-- A run in the middle of a call is refused, or it begins with no call state and leaves none. -/
theorem ends_run {argv : List String} {s s' : State} {t : Trace} {r : Except Error Int32}
    (h : (m.perform call (run argv).run s).Ends t (r, s')) :
    (t = [] ∧ r = .error .notBound ∧ s' = s) ∨
      ∃ s₁, (m.perform call (Guest.run argv).run s.fresh).Ends t (r, s₁) ∧ s' = s₁.resumed s := by
  by_cases hb : s.host.bound
  · rw [perform_run hb, Dialogue.ends_bind] at h
    obtain ⟨t₁, ⟨r₁, s₁⟩, t₂, hrun, hdone, rfl⟩ := h
    cases hdone
    rw [List.append_nil]
    exact .inr ⟨s₁, hrun, rfl⟩
  · rw [run, Action.perform_bind, perform_requireBound, if_neg hb] at h
    cases h
    exact .inl ⟨rfl, rfl, rfl⟩

end Syscall

end

namespace Guest

variable {fails : Error → Prop} (hf : CoversHost fails)

include hf

theorem hosts_inner : Hosts (StepsOf Op.IsInner fails) fails :=
  .of_ops (StepsOf.allows id trivial) hf

theorem madeOf_rolledBack (path : String) (argv : List String) :
    Action.MadeOf (StepsOf Op.IsInner fails) fails (rolledBack (loadAndExecute path argv)) :=
  (hosts_inner hf).rolledBack (madeOf_loadAndExecute ((hosts_inner hf).loads hf) hf path argv)

end Guest

def nesting (fails : Error → Prop) (trap : ∀ t, fails (.trap t)) : Law where
  keeps _ t _ := WellNested t.events
  fails := fails
  trans h h' := by
    rw [Trace.events_append]
    exact h.concat h'
  guest _ _ _ := .nil
  trap := trap

namespace Trace

theorem events_single (x : Exchange) : events [x] = x.event?.toList := by
  cases h : x.event? <;> simp [events, h]

theorem wellNested_ask {r : Request} (h : (Op.ask r).IsInner) (answer : r.Answer) :
    WellNested (events [⟨r, answer⟩]) := by
  rw [events_single]
  cases r with
  | report e =>
    cases e with
    | signal s => exact .signal s
    | released address outcome => exact .released address outcome
    | delivered d => exact .delivered d
    | note message => exact .note message
    | runBegan _ | runEnded => exact h.elim
  | _ => exact .nil

end Trace

namespace Machine

variable {fails : Error → Prop} {trap : ∀ t, fails (.trap t)} {m : Machine} {call : Callee}

theorem governs_inner (hcall : (nesting fails trap).GovernsCallee call) {op : Op} (h : op.IsInner) :
    (nesting fails trap).GovernsProgram m call (.ofOp op) (op.Answers fails) := by
  intro s t answer s' hend
  rw [perform_ofOp] at hend
  cases op with
  | call purpose f args => exact hcall f args s t answer s' hend
  | ask r =>
    obtain ⟨given, t, hdone, rfl⟩ := Dialogue.ends_ask.mp hend
    obtain ⟨rfl, -⟩ := Dialogue.ends_done.mp hdone
    exact ⟨Trace.wellNested_ask h given, trivial⟩
  | write address bytes =>
    rw [performOp] at hend
    split at hend <;> cases hend <;> exact ⟨.nil, trivial⟩
  | _ =>
    cases hend
    exact ⟨.nil, trivial⟩

/-- What is inside the marks of a run nests, and fails as the calls and the host do. -/
theorem governs_rolledBack (hf : CoversHost fails) (hcall : (nesting fails trap).GovernsCallee call)
    (path : String) (argv : List String) :
    (nesting fails trap).GovernsProgram m call
      (Guest.rolledBack (Guest.loadAndExecute path argv)).run (FailsWithin fails) := by
  refine (Guest.madeOf_rolledBack hf path argv).governed ?_
  rintro _ _ _ ⟨op, h⟩
  exact governs_inner hcall h

/-- A run nests, and refuses nothing but an empty argument list on its own account. -/
theorem governs_run (hf : CoversHost fails) (hcall : (nesting fails trap).GovernsCallee call)
    {argv : List String} (hargv : argv = [] → fails (.invalidArgument .emptyArgv)) :
    (nesting fails trap).GovernsProgram m call (Guest.run argv).run (FailsWithin fails) := by
  intro s t r s' h
  cases argv with
  | nil =>
    cases h
    exact ⟨.nil, hargv rfl⟩
  | cons path rest =>
    obtain ⟨t₁, hbody, rfl⟩ := Guest.ends_run h
    obtain ⟨hnested, hr⟩ := governs_rolledBack hf hcall path (path :: rest) s t₁ r s' hbody
    refine ⟨?_, hr⟩
    change WellNested (.runBegan (path :: rest) :: Trace.events (t₁ ++ _))
    rw [Trace.events_append]
    exact .run hnested

end Machine

end SandboxHost
