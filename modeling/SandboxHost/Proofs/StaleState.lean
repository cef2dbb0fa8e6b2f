import SandboxHost.Proofs.CallContract
import SandboxHost.Proofs.Pairing

namespace SandboxHost

instance (op : Op) : Decidable op.IsEntry :=
  match op with
  | .call (.entry _) _ _ => .isTrue trivial
  | .call (.accessor _) _ _ | .call .allocate _ _ | .call .release _ _ | .call .findSymbol _ _
  | .call .closeLibrary _ _ | .call .reportErrno _ _ | .call .constants _ _ => .isFalse id
  | .setup | .getHost | .setHost _ | .memory | .table _ | .write _ _ | .restore _ | .ask _ =>
    .isFalse id

namespace Program

variable {α β : Type}

/-- The program, and whether it entered a function in the name of a caller. -/
def noting : Program α → Program (α × Bool)
  | .done a => .done (a, false)
  | .step op next => .step op fun answer =>
    (next answer).noting.bind fun x => .done (x.1, decide op.IsEntry || x.2)

theorem noting_forget (p : Program α) : (p.noting.bind fun x => .done x.1) = p := by
  induction p with
  | done a => rfl
  | step op next ih => simp only [noting, Program.bind, bind_assoc, ih]

theorem noting_bind (p : Program α) (f : α → Program β) :
    (p.bind f).noting = p.noting.bind fun x =>
      (f x.1).noting.bind fun y => .done (y.1, x.2 || y.2) := by
  induction p with
  | done a =>
    simp only [noting, Program.bind, Bool.false_or]
    exact (bind_done _).symm
  | step op next ih => simp only [noting, Program.bind, ih, bind_assoc, Bool.or_assoc]

end Program

/-- To note it changes nothing else, and what is noted is whether one of the steps is an entry. -/
theorem Machine.takes_noting {m : Machine} {call : Callee} {α : Type} {p : Program α} {s s' : State}
    {steps : List Step} {a : α} {entered : Bool} :
    m.Takes call p.noting s steps (a, entered) s' ↔
      m.Takes call p s steps a s' ∧ entered = steps.any fun x => x.op.IsEntry := by
  induction p generalizing s steps entered with
  | done b =>
    simp only [Program.noting, takes_done, Prod.mk.injEq]
    constructor
    · rintro ⟨rfl, ⟨rfl, rfl⟩, rfl⟩
      exact ⟨⟨rfl, rfl, rfl⟩, rfl⟩
    · rintro ⟨⟨rfl, rfl, rfl⟩, rfl⟩
      exact ⟨rfl, ⟨rfl, rfl⟩, rfl⟩
  | step op next ih =>
    simp only [Program.noting, takes_step, takes_bind, takes_done]
    constructor
    · rintro ⟨t, answer, s₁, _, h, ⟨rest, x, s₂, _, hrest, ⟨rfl, hx, rfl⟩, rfl⟩, rfl⟩
      cases hx
      obtain ⟨hrest, hentered⟩ := (ih answer).mp hrest
      refine ⟨⟨t, answer, s₁, rest, h, hrest, by rw [List.append_nil]⟩, ?_⟩
      rw [List.append_nil, List.any_cons, hentered]
    · rintro ⟨⟨t, answer, s₁, rest, h, hrest, rfl⟩, rfl⟩
      have hnoted := (ih answer).mpr ⟨hrest, rfl⟩
      exact ⟨t, answer, s₁, rest, h, ⟨rest, _, s', [], hnoted, ⟨rfl, rfl, rfl⟩,
        (List.append_nil rest).symm⟩, rfl⟩

namespace Machine

variable {m : Machine} {call : Callee} {α β : Type}

/-- From states that are alike, a program keeps step with itself, and if it has entered a function
then the states in the end agree on the call state too. -/
def PairsNoted (m : Machine) (call : Callee) (p : Program α) (P : α → Prop) : Prop :=
  ∀ told s s', s.Alike told s' → (m.perform call p.noting s).InStep
    (fun x y => m.Twin (told || x.1.2) s x y ∧ P x.1.1) (m.perform call p.noting s')

theorem pairsNoted_done {a : α} {P : α → Prop} (ha : P a) : m.PairsNoted call (.done a) P :=
  fun told s _ h => .done ⟨⟨rfl, by rwa [Bool.or_false], .refl s⟩, ha⟩

theorem pairsNoted_bind {p : Program α} {f : α → Program β} {P : α → Prop} {Q : β → Prop}
    (hp : m.PairsNoted call p P) (hf : ∀ a, P a → m.PairsNoted call (f a) Q) :
    m.PairsNoted call (p.bind f) Q := by
  intro told s s' h
  rw [Program.noting_bind, perform_bind, perform_bind]
  refine (hp told s s' h).bind ?_
  rintro ⟨⟨a, entered⟩, s₁⟩ ⟨_, s₁'⟩ ⟨⟨rfl, halike, hframe⟩, ha⟩
  rw [perform_bind, perform_bind]
  refine (hf a ha _ s₁ s₁' halike).bind ?_
  rintro ⟨⟨b, entered'⟩, s₂⟩ ⟨_, s₂'⟩ ⟨⟨rfl, halike', hframe'⟩, hb⟩
  rw [Bool.or_assoc] at halike'
  exact .done ⟨⟨rfl, halike', hframe.trans hframe'⟩, hb⟩

theorem PairsNoted.pairsProgram {p : Program α} {P : α → Prop} (hp : m.PairsNoted call p P) :
    m.PairsProgram call p P := by
  intro told s s' h
  have hforget (s : State) : m.perform call p s =
      (m.perform call p.noting s).bind fun x => .done (x.1.1, x.2) := by
    conv => lhs; rw [← p.noting_forget, perform_bind]
    rfl
  rw [hforget, hforget]
  refine (hp told s s' h).bind ?_
  rintro ⟨⟨a, entered⟩, s₁⟩ ⟨_, s₁'⟩ ⟨⟨rfl, halike, hframe⟩, ha⟩
  exact .done ⟨⟨rfl, halike.weaken fun ht => by rw [ht, Bool.true_or], hframe⟩, ha⟩

theorem PairsProgram.noted {p : Program α} {P : α → Prop} (hp : m.PairsProgram call p P)
    (hnever : p.noting = p.bind fun a => .done (a, false)) : m.PairsNoted call p P := by
  intro told s s' h
  rw [hnever, perform_bind, perform_bind]
  refine (hp told s s' h).bind ?_
  rintro ⟨a, s₁⟩ ⟨_, s₁'⟩ ⟨⟨rfl, halike, hframe⟩, ha⟩
  exact .done ⟨⟨rfl, by rwa [Bool.or_false], hframe⟩, ha⟩

def Noted (m : Machine) (call : Callee) : BlockKind := fun _ p R => m.PairsNoted call p R

theorem pairsNoted_of_madeOf {P : α → Prop} {p : Program α} (hp : p.MadeOf (m.Noted call) P) :
    m.PairsNoted call p P := by
  induction hp with
  | done ha => exact pairsNoted_done ha
  | block hb _ ih => exact pairsNoted_bind hb ih

end Machine

namespace Guest

variable {m : Machine} {call : Callee}

/-- What a call gives once its function has returned. -/
def given (name : String) (h : HostState) : Except Error (List Value) → Except Error Json
  | .error e => .error e
  | .ok results =>
    if h.exception then .error (.raised name)
    else .ok (h.result.getD ((results.head?.map Value.toJson).getD .null))

theorem run_invoke (name : String) (f : Nat) (args : List Value) :
    (invoke name f args).run = (Program.modifyHost HostState.fresh).bind fun _ =>
      (Program.call (.entry name) f args).bind fun returned =>
        match returned with
        | .error e => .done (.error e)
        | .ok results => Program.host.bind fun h => .done (given name h (.ok results)) := by
  rw [invoke, Action.run_lift_bind]
  congr 1
  funext _
  change Program.bind (.step _ _) _ = Program.bind (.step _ _) _
  simp only [Program.bind]
  congr 1
  funext returned
  cases returned with
  | error e => rfl
  | ok results =>
    change Program.step _ _ = Program.step _ _
    congr 1
    funext h
    simp only [Program.bind, Function.comp_apply, ExceptT.bindCont, given]
    split <;> rfl

theorem perform_invoke (name : String) (f : Nat) (args : List Value) (s : State) :
    m.perform call (invoke name f args).run.noting s =
      ((call f args).run.run s.fresh).bind fun x =>
        .done ((given name x.2.host x.1, true), x.2) := by
  rw [run_invoke]
  change Dialogue.bind _ _ = _
  congr 1
  funext x
  rcases x with ⟨_ | results, s₁⟩ <;> rfl

section

variable (hcall : Machine.CalleeHas (fun _ => m.Pairs) call)

include hcall

/-- What a function is entered with does not depend on what was there before, so neither does what
the call gives in the end. -/
theorem noted_invoke (name : String) (f : Nat) (args : List Value) :
    m.PairsNoted call (invoke name f args).run (FailsWithin fun _ => True) := by
  intro told s s' h
  rw [perform_invoke, perform_invoke]
  -- Both begin with no call state, so they agree on it from here on, whatever they were told.
  refine (hcall f args true _ _ h.fresh).bind ?_
  rintro ⟨returned, s₁⟩ ⟨_, s₁'⟩ ⟨rfl, halike, hframe⟩
  have hgiven : given name s₁.host returned = given name s₁'.host returned := by
    unfold given
    rw [halike.host.result rfl, halike.host.exception rfl]
  have hframe' : m.Frame s s₁ := (Machine.Frame.fresh s).trans hframe
  refine .done ⟨⟨?_, by rwa [Bool.or_true], hframe'⟩, failsWithin_true _⟩
  dsimp only
  rw [hgiven]

theorem noted_op (op : Op) (hop : op.IsBlind) (hentry : ¬ op.IsEntry) :
    m.Noted call _ (.ofOp op) (op.Answers fun _ => True) := by
  refine (Machine.pairs_op hcall op hop).noted ?_
  simp [Program.ofOp, Program.noting, Program.bind, hentry]

theorem noted_marshals : (m.Noted call).Allows (fun _ => True) Op.IsMarshal :=
  .of_ops (fun _ h => noted_op hcall _ h.isBlind h.not_isEntry) trivial

omit hcall in
theorem noted_look {γ : Type} {g : HostState → γ} (hg : HostState.Blind g) :
    m.Noted call _ (Program.host.bind fun h => .done (g h)) fun a => ∃ h, g h = a :=
  (Machine.pairs_look hg).noted rfl

omit hcall in
theorem noted_edit {f : HostState → HostState} (hf : HostState.Edit m.setup f) :
    m.Noted call _ (Program.modifyHost f) fun _ => True :=
  (Machine.pairs_edit hf).noted rfl

theorem hosts_noted : Hosts (m.Noted call) fun _ => True where
  marshals := noted_marshals hcall
  look hg := Program.madeOf_block (noted_look fun h h' hh => hg h h' hh.pointers.symm)
  setPointers f := Program.madeOf_block (noted_edit (.pointers f))
  invoke name f args := Program.madeOf_block (noted_invoke hcall name f args)
  restore saved := Program.madeOf_block (noted_op hcall (.restore saved) trivial nofun)

theorem noted_run (argv : List String) :
    m.PairsNoted call (run argv).run (FailsWithin fun _ => True) := by
  have hreport (e : Event) : (Program.report e).MadeOf (m.Noted call) fun _ => True :=
    Program.madeOf_block (noted_op hcall (.ask (.report e)) trivial nofun)
  exact Machine.pairsNoted_of_madeOf
    ((hosts_noted hcall).run coversHost_true trivial (fun _ => hreport _) (hreport _) argv)

theorem noted_call (name : String) (args : List Int64) :
    m.PairsNoted call (Guest.call name args).run (FailsWithin fun _ => True) :=
  Machine.pairsNoted_of_madeOf
    (madeOf_call ((hosts_noted hcall).loads coversHost_true) coversHost_true name args)

theorem noted_callWithString (name : String) (arg : StringArg) (extra : List Int64) :
    m.PairsNoted call (callWithString name arg extra).run (FailsWithin fun _ => True) :=
  Machine.pairsNoted_of_madeOf
    (madeOf_callWithString ((hosts_noted hcall).loads coversHost_true) coversHost_true name arg
      extra)

end

end Guest

section

variable {m : Machine} {call : Callee}

/-- A run in the middle of a call begins with no call state, and the old one comes back after it. -/
theorem Syscall.pairs_run (hcall : Machine.CalleeHas (fun _ => m.Pairs) call) (argv : List String) :
    m.PairsProgram call (run argv).run (FailsWithin fun _ => True) := by
  intro told s s' h
  by_cases hbound : s.host.bound
  · have hbound' : s'.host.bound := by rwa [h.host.bound]
    rw [perform_run hbound, perform_run hbound']
    -- That the run itself agrees on the call state does not outlive it: the old one comes back.
    refine ((Guest.noted_run hcall argv).pairsProgram true _ _ h.fresh).bind ?_
    rintro ⟨r, s₁⟩ ⟨_, s₁'⟩ ⟨⟨rfl, halike, hframe⟩, hr⟩
    have hframe' := ((Machine.Frame.fresh s).trans hframe).trans (.resumed s₁ s)
    exact .done ⟨⟨rfl, halike.resumed h, hframe'⟩, hr⟩
  · have hbound' : ¬ s'.host.bound := by rwa [h.host.bound]
    rw [run, Action.perform_bind, Action.perform_bind, perform_requireBound, perform_requireBound,
      if_neg hbound, if_neg hbound']
    exact .done ⟨⟨rfl, h, .refl s⟩, trivial⟩

theorem Serving.pairs (hcall : Machine.CalleeHas (fun _ => m.Pairs) call) (β : Type) (p : Program β)
    (R : β → Prop) (h : Serving m.setup (fun _ => True) β p R) : m.PairsProgram call p R := by
  cases h with
  | op op h => exact Machine.pairs_op hcall op h.isBlind
  | setup => exact Machine.pairs_setup
  | look hblind => exact Machine.pairs_look hblind
  | edit _ hedit => exact Machine.pairs_edit hedit
  | signal signal => exact Machine.pairs_signal hcall signal
  | run _ => exact Syscall.pairs_run hcall _

/-- At every depth, a call keeps step with itself from states that are alike. -/
theorem Machine.callFunction_pairs (m : Machine) (depth hostDepth : Nat) (caller : Caller) :
    CalleeHas (fun _ => m.Pairs) (m.callFunction depth hostDepth caller) := by
  refine (composes_pairs m).callFunction (fun i f _ call hcall args => ?_) depth hostDepth caller
  have hmade : Action.MadeOf (Serving m.setup fun _ => True) (fun _ => True) (f.program args) :=
    HostFunction.madeOf_program coversHost_true (fun _ _ => trivial) args
  intro told s s' h
  exact ((pairsProgram_of_madeOf (Serving.pairs hcall) hmade) told s s' h).mono fun _ _ hxy => hxy.1

end

def State.stale (s : State) (result : Option Json) (exception : Bool) (errno : Int32) : State :=
  { s with host := { s.host with result, exception, lastErrno := errno } }

namespace Guest

/-- Whatever earlier calls have left, the action asks the same, gives the same, enters a function or
not as before, and leaves states that are alike; and these agree on the call state too if it entered
one. -/
def Unaffected {α : Type} (a : Action α) : Prop :=
  ∀ (m : Machine) (depth hostDepth : Nat) (s : State) (result : Option Json) (exception : Bool)
    (errno : Int32),
    (m.perform (m.callFunction depth hostDepth .host) a.run.noting s).InStep
      (fun x y => x.1 = y.1 ∧ x.2.Alike x.1.2 y.2)
      (m.perform (m.callFunction depth hostDepth .host) a.run.noting
        (s.stale result exception errno))

theorem unaffected_of_noted {α : Type} {a : Action α}
    (h : ∀ (m : Machine) (call : Callee), Machine.CalleeHas (fun _ => m.Pairs) call →
      m.PairsNoted call a.run (FailsWithin fun _ => True)) : Unaffected a := by
  intro m depth hostDepth s result exception errno
  have halike : s.Alike false (s.stale result exception errno) :=
    { State.Alike.refl false s with host := ⟨rfl, rfl, rfl, rfl, nofun, nofun⟩ }
  refine (h m _ (m.callFunction_pairs depth hostDepth .host) false _ _ halike).mono ?_
  rintro x y ⟨htwin, -⟩
  exact ⟨htwin.value, by simpa using htwin.alike⟩

/-- No call and no run is affected by a result, an exception or an error number from before. -/
theorem stale_state_unseen :
    (∀ name args, Unaffected (Guest.call name args)) ∧
    (∀ name arg extra, Unaffected (callWithString name arg extra)) ∧
    ∀ argv, Unaffected (run argv) :=
  ⟨fun name args => unaffected_of_noted fun _ _ hcall => noted_call hcall name args,
    fun name arg extra =>
      unaffected_of_noted fun _ _ hcall => noted_callWithString hcall name arg extra,
    fun argv => unaffected_of_noted fun _ _ hcall => noted_run hcall argv⟩

end Guest

end SandboxHost
