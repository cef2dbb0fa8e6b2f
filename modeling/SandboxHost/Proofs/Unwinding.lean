import SandboxHost.Host.Native
import SandboxHost.Proofs.Heeding
import SandboxHost.Proofs.Interruption

namespace SandboxHost

theorem Dialogue.Ends.unique {α : Type} {d : Dialogue α} {t : Trace} {a b : α} (h : d.Ends t a)
    (h' : d.Ends t b) : a = b := by
  induction h with
  | done a =>
    cases h'
    rfl
  | ask _ ih =>
    cases h' with
    | ask h' => exact ih h'

/-- A call of a function by its number, as it happened. -/
structure Called where
  function : Nat
  args : List Value
  before : State
  trace : Trace
  answer : Except Error (List Value)
  after : State

namespace Called

def Of (call : Callee) (c : Called) : Prop :=
  ((call c.function c.args).run.run c.before).Ends c.trace (c.answer, c.after)

def step (c : Called) (purpose : Purpose) : Step :=
  ⟨.call purpose c.function c.args, c.answer, c.before, c.after, c.trace⟩

end Called

section

variable {α : Type} {failure : α → Option Error}

namespace Program

/-- The program goes on as another one after steps with these answers. -/
inductive Leads : Program α → List Step → Program α → Prop where
  | nil (p : Program α) : Leads p [] p
  | cons {op : Op} {next : op.Answer → Program α} {answer : op.Answer} {s s' : State} {t : Trace}
    {steps : List Step} {p : Program α} :
    Leads (next answer) steps p → Leads (.step op next) (⟨op, answer, s, s', t⟩ :: steps) p

/-- After these steps, the program cleans up for a failure. -/
def HasFailed (failure : α → Option Error) (p : Program α) (steps : List Step) : Prop :=
  ∃ q e, p.Leads steps q ∧ q.Unwinds failure e

theorem Leads.unique {p q q' : Program α} {steps : List Step} (h : p.Leads steps q)
    (h' : p.Leads steps q') : q = q' := by
  induction h with
  | nil _ =>
    cases h'
    rfl
  | cons _ ih =>
    cases h' with
    | cons h' => exact ih h'

theorem Heeds.leads {p q : Program α} {steps : List Step} (hp : p.Heeds failure)
    (h : p.Leads steps q) : q.Heeds failure := by
  induction h with
  | nil _ => exact hp
  | cons _ ih =>
    refine ih ?_
    cases hp with
    | failing e hunwinds => exact .failing e (hunwinds.of_step _).2
    | step _ hnext => exact hnext _

variable {m : Machine} {call : Callee} {s s' : State} {steps before after : List Step} {a : α}
  {p : Program α}

theorem exists_leads (h : m.Takes call p s (before ++ after) a s') :
    ∃ q s₁, p.Leads before q ∧ m.Takes call q s₁ after a s' := by
  induction before generalizing p s with
  | nil => exact ⟨p, s, .nil p, h⟩
  | cons x before ih =>
    cases h with
    | step _ hrest =>
      obtain ⟨q, s₁, hleads, hafter⟩ := ih hrest
      exact ⟨q, s₁, .cons hleads, hafter⟩

theorem Unwinds.takes {e : Error} (h : p.Unwinds failure e) (ht : m.Takes call p s steps a s') :
    (∀ x ∈ steps, x.op.IsCleanup) ∧ failure a = some e := h.sorted_value m call s steps a s' ht

/-- After a failure, the program does nothing but clean up, and fails. -/
theorem HasFailed.takes (h : p.HasFailed failure before)
    (ht : m.Takes call p s (before ++ after) a s') :
    (∀ x ∈ after, x.op.IsCleanup) ∧ (failure a).isSome := by
  obtain ⟨q, e, hleads, hunwinds⟩ := h
  obtain ⟨q', s₁, hleads', hafter⟩ := exists_leads ht
  cases hleads.unique hleads'
  obtain ⟨hcleanup, he⟩ := Unwinds.takes hunwinds hafter
  exact ⟨hcleanup, by rw [he]; rfl⟩

theorem of_step {purpose : Purpose} {c : Called}
    (h : m.Takes call p s (before ++ c.step purpose :: after) a s') : c.Of call := by
  obtain ⟨q, s₁, -, hafter⟩ := exists_leads h
  cases hafter with
  | step hcall _ => exact hcall

theorem Heeds.passes (hp : p.Heeds failure) {purpose : Purpose} {c : Called} {e : Error}
    (h : m.Takes call p s (before ++ c.step purpose :: after) a s') (hpurpose : purpose.IsHeeded)
    (hnot : ¬ p.HasFailed failure before) (hc : c.answer = .error e) : failure a = some e := by
  obtain ⟨q, s₁, hleads, hafter⟩ := exists_leads h
  obtain ⟨function, args, before', trace, answer, after'⟩ := c
  cases hc
  cases hafter with
  | step _ hrest =>
    cases hp.leads hleads with
    | failing e' hunwinds => exact absurd ⟨_, e', hleads, hunwinds⟩ hnot
    | step hminds _ => exact (Unwinds.takes ((minds_call hpurpose).mp hminds e) hrest).2

end Program

end

namespace Machine

/-- What the machine does by itself in one step. -/
inductive OwnStep (m : Machine) : {α : Type} → Exec α → Prop where
  | pure {α : Type} (a : α) : OwnStep m (Pure.pure a)
  | trap {α : Type} (t : Trap) : OwnStep m (Exec.trap t : Exec α)
  | charge : OwnStep m Exec.charge
  | look : OwnStep m (getThe State)
  | grow (delta : UInt32) : OwnStep m (m.growMemory delta)
  | store (address : UInt32) (bytes : List UInt8) : OwnStep m (storeBytes address bytes)
  | setGlobal (i : Nat) (w : UInt32) : OwnStep m
    (modifyThe State fun s => { s with globals := s.globals.setIfInBounds i w })
  | changeTable (change : Table → Option Table) : OwnStep m (changeTable change)
  | growTable (delta : UInt32) (function : Option Nat) : OwnStep m (growTable delta function)
  | close (descriptor : UInt32) : OwnStep m (closeDescriptor descriptor)

/-- An execution makes these calls, one after the other, between steps of the machine's own. -/
inductive Makes (m : Machine) (call : Callee) :
    {α : Type} → Exec α → State → List Called → Except Error α → State → Prop where
  | own {α : Type} {e : Exec α} {s s' : State} {r : Except Error α} :
    m.OwnStep e → (e.run.run s).Ends [] (r, s') → Makes m call e s [] r s'
  | call {c : Called} : c.Of call →
    Makes m call (call c.function c.args) c.before [c] c.answer c.after
  | bind {α β : Type} {e : Exec α} {f : α → Exec β} {s s₁ s' : State} {a : α}
    {calls calls' : List Called} {r : Except Error β} :
    Makes m call e s calls (.ok a) s₁ → Makes m call (f a) s₁ calls' r s' →
    Makes m call (e >>= f) s (calls ++ calls') r s'
  | fail {α β : Type} {e : Exec α} {f : α → Exec β} {s s' : State} {calls : List Called}
    {error : Error} : Makes m call e s calls (.error error) s' →
    Makes m call (e >>= f) s calls (.error error) s'

variable {m : Machine} {call : Callee} {α : Type} {e : Exec α} {s s' : State} {r : Except Error α}
  {calls : List Called} {c : Called} {error : Error}

theorem OwnStep.ends {t : Trace} (h : m.OwnStep e) (hends : (e.run.run s).Ends t (r, s')) :
    t = [] ∧ ∀ error, r = .error error → ∃ trap, error = .trap trap := by
  cases h with
  | charge =>
    rw [Exec.run_charge] at hends
    split at hends <;> cases hends <;> exact ⟨rfl, by rintro _ ⟨⟩; try exact ⟨_, rfl⟩⟩
  | grow delta =>
    rw [run_growMemory] at hends
    split at hends <;> cases hends <;> exact ⟨rfl, by rintro _ ⟨⟩⟩
  | store address bytes =>
    rw [run_storeBytes] at hends
    split at hends <;> cases hends <;> exact ⟨rfl, by rintro _ ⟨⟩; try exact ⟨_, rfl⟩⟩
  | changeTable change =>
    rw [run_changeTable] at hends
    split at hends <;> cases hends <;> exact ⟨rfl, by rintro _ ⟨⟩; try exact ⟨_, rfl⟩⟩
  | growTable delta function =>
    rw [run_growTable] at hends
    split at hends <;> cases hends <;> exact ⟨rfl, by rintro _ ⟨⟩⟩
  | close descriptor =>
    rw [run_closeDescriptor] at hends
    split at hends <;> cases hends <;> exact ⟨rfl, by rintro _ ⟨⟩⟩
  | _ => cases hends; exact ⟨rfl, by rintro _ ⟨⟩; try exact ⟨_, rfl⟩⟩

namespace Makes

theorem ends (h : m.Makes call e s calls r s') :
    (e.run.run s).Ends (calls.flatMap Called.trace) (r, s') := by
  induction h with
  | own _ hends => exact hends
  | call hc =>
    rw [List.flatMap_singleton]
    exact hc
  | bind _ _ ih ih' =>
    rw [Exec.run_bind, Dialogue.ends_bind, List.flatMap_append]
    exact ⟨_, _, _, ih, ih', rfl⟩
  | fail _ ih =>
    rw [Exec.run_bind, Dialogue.ends_bind]
    exact ⟨_, _, [], ih, .done _, (List.append_nil _).symm⟩

theorem of_mem (h : m.Makes call e s calls r s') (hc : c ∈ calls) : c.Of call := by
  induction h with
  | own => cases hc
  | call h => rwa [List.mem_singleton.mp hc]
  | bind _ _ ih ih' => exact (List.mem_append.mp hc).elim ih ih'
  | fail _ ih => exact ih hc

/-- The failure of a call is the failure of the execution that made it. -/
theorem failed (h : m.Makes call e s calls r s') (hc : c ∈ calls) (he : c.answer = .error error) :
    r = .error error := by
  induction h with
  | own => cases hc
  | call =>
    rw [List.mem_singleton.mp hc] at he
    exact he
  | bind _ _ ih ih' =>
    rcases List.mem_append.mp hc with hc | hc
    · cases ih hc
    · exact ih' hc
  | fail _ ih =>
    cases ih hc
    rfl

theorem cause (h : m.Makes call e s calls r s') (hr : r = .error error) :
    (∃ t, error = .trap t) ∨ ∃ c ∈ calls, c.answer = .error error := by
  induction h with
  | own hown hends => exact .inl ((hown.ends hends).2 error hr)
  | call => exact .inr ⟨_, List.mem_singleton_self _, hr⟩
  | bind _ _ _ ih =>
    rcases ih hr with ht | ⟨c, hc, he⟩
    · exact .inl ht
    · exact .inr ⟨c, List.mem_append_right _ hc, he⟩
  | fail _ ih =>
    cases hr
    exact ih rfl

end Makes

def MakesCalls (m : Machine) (call : Callee) (e : Exec α) : Prop :=
  ∀ s t r s', (e.run.run s).Ends t (r, s') →
    ∃ calls, m.Makes call e s calls r s' ∧ t = calls.flatMap Called.trace

theorem OwnStep.makesCalls (h : m.OwnStep e) : m.MakesCalls call e := by
  intro s t r s' hends
  obtain ⟨rfl, -⟩ := h.ends hends
  exact ⟨[], .own h hends, rfl⟩

theorem makesCalls_bind {β : Type} {f : α → Exec β} (he : m.MakesCalls call e)
    (hf : ∀ a, m.MakesCalls call (f a)) : m.MakesCalls call (e >>= f) := by
  intro s t r s' hends
  rw [Exec.run_bind, Dialogue.ends_bind] at hends
  obtain ⟨t₁, ⟨a | a, s₁⟩, t₂, h₁, h₂, rfl⟩ := hends
  · obtain ⟨calls, hcalls, rfl⟩ := he s t₁ _ s₁ h₁
    cases h₂
    exact ⟨calls, .fail hcalls, List.append_nil _⟩
  · obtain ⟨calls, hcalls, rfl⟩ := he s t₁ _ s₁ h₁
    obtain ⟨calls', hcalls', rfl⟩ := hf a s₁ t₂ r s' h₂
    exact ⟨calls ++ calls', .bind hcalls hcalls', List.flatMap_append.symm⟩

/-- Guest code is made of the machine's own steps and calls. -/
theorem composes_makesCalls (m : Machine) (call : Callee) :
    m.Composes fun _ => m.MakesCalls call where
  pure a := (OwnStep.pure a).makesCalls
  bind := makesCalls_bind
  trap t := (OwnStep.trap t).makesCalls
  diverge _ _ _ _ h := absurd h Dialogue.not_ends_diverged
  charge := OwnStep.charge.makesCalls
  look hf := makesCalls_bind OwnStep.look.makesCalls fun s => hf s.memory s.table s.globals
  grow delta := (OwnStep.grow delta).makesCalls
  store address bytes := (OwnStep.store address bytes).makesCalls
  setGlobal i w _ := (OwnStep.setGlobal i w).makesCalls
  changeTable change _ := (OwnStep.changeTable change).makesCalls
  growTable delta function _ := (OwnStep.growTable delta function).makesCalls
  close descriptor _ := (OwnStep.close descriptor).makesCalls

theorem exists_makes {func : Func} {i : Nat} (hfunc : m.setup.module.funcs[i]? = some func)
    {args : List Value} {t : Trace} {r : Except Error (List Value)}
    (h : ((m.enter call func args).run.run s).Ends t (r, s')) :
    ∃ calls, m.Makes call (m.enter call func args) s calls r s' ∧
      t = calls.flatMap Called.trace := by
  have hcall : CalleesMatch (fun _ e _ => m.MakesCalls call e) call call := by
    intro f args s t r s' h
    exact ⟨_, @Makes.call _ _ ⟨f, args, s, t, r, s'⟩ h, (List.append_nil t).symm⟩
  exact (composes_makesCalls m call).couples.enter hcall func (Couples.uses_of_mem hfunc) args
    s t r s' h

/-- The number is that of an import behind which there is this function, and it takes the
arguments. -/
structure EntersHost (m : Machine) (i : Nat) (args : List Value) (f : HostFunction) : Prop where
  type : (m.setup.module.funcType? i).map FuncType.params = some (typesOf args)
  lt : i < m.setup.module.imports.size
  target : m.targets[i]? = some (.function f)

structure EntersGuest (m : Machine) (i : Nat) (args : List Value) (func : Func) : Prop where
  type : (m.setup.module.funcType? i).map FuncType.params = some (typesOf args)
  le : m.setup.module.imports.size ≤ i
  found : m.setup.module.funcs[i - m.setup.module.imports.size]? = some func

theorem callFunction_succ (m : Machine) (depth hostDepth : Nat) (caller : Caller) {i : Nat}
    {args : List Value}
    (h : (m.setup.module.funcType? i).map FuncType.params = some (typesOf args)) :
    m.callFunction (depth + 1) hostDepth caller i args =
      if i < m.setup.module.imports.size then
        match hostDepth with
        | 0 => Exec.trap .callDepth
        | hostDepth + 1 => m.importCall (m.callFunction depth hostDepth .host) caller i args
      else Exec.orTrap .invalidCode m.setup.module.funcs[i - m.setup.module.imports.size]? >>=
        fun func => m.enter (m.callFunction depth hostDepth .guest) func args := by
  obtain ⟨type, htype, hparams⟩ := Option.map_eq_some_iff.mp h
  cases hostDepth <;> simp [callFunction, htype, hparams, Exec.orTrap]

theorem EntersHost.callFunction {i : Nat} {args : List Value} {f : HostFunction}
    (h : m.EntersHost i args f) (depth hostDepth : Nat) (caller : Caller) :
    m.callFunction (depth + 1) (hostDepth + 1) caller i args =
      m.hostCall (m.callFunction depth hostDepth .host) f args := by
  rw [callFunction_succ m depth _ caller h.type, if_pos h.lt]
  dsimp only
  rw [importCall, h.target]

theorem EntersGuest.callFunction {i : Nat} {args : List Value} {func : Func}
    (h : m.EntersGuest i args func) (depth hostDepth : Nat) (caller : Caller) :
    m.callFunction (depth + 1) hostDepth caller i args =
      m.enter (m.callFunction depth hostDepth .guest) func args := by
  rw [callFunction_succ m depth _ caller h.type, if_neg (Nat.not_lt.mpr h.le), h.found]
  exact pure_bind func _

/-- A call enters a function behind an import, whose program takes these steps. -/
structure Serves (m : Machine) (call : Callee) (c : Called) (f : HostFunction) (steps : List Step)
    (r : Except Error (Option Value)) : Prop extends m.EntersHost c.function c.args f where
  takes : m.Takes call (f.program c.args).run c.before steps r c.after
  trace : c.trace = steps.flatMap Step.trace

/-- With so many levels left for calls and for imports, a call fails because of a handler: the one
that it enters, or one at the end of a path of calls. On the path, a call is made by guest code, or
it is heeded by a function of the host's own behind an import. -/
inductive Raised (m : Machine) (e : Error) : Nat → Nat → Called → Prop where
  | handler {depth hostDepth : Nat} {c : Called} {f : HostFunction} {steps : List Step} :
    m.Serves (m.callFunction depth hostDepth .host) c f steps (.error e) →
    Raised m e (depth + 1) (hostDepth + 1) c
  | host {depth hostDepth : Nat} {c c' : Called} {f : HostFunction} {before after : List Step}
    {purpose : Purpose} {r : Except Error (Option Value)} :
    m.Serves (m.callFunction depth hostDepth .host) c f (before ++ c'.step purpose :: after) r →
    ¬ f.IsSupplied → purpose.IsHeeded → ¬ (f.program c.args).run.HasFailed failure? before →
    Raised m e depth hostDepth c' → Raised m e (depth + 1) (hostDepth + 1) c
  | guest {depth hostDepth : Nat} {c c' : Called} {func : Func} {calls : List Called} :
    m.EntersGuest c.function c.args func →
    m.Makes (m.callFunction depth hostDepth .guest)
      (m.enter (m.callFunction depth hostDepth .guest) func c.args) c.before calls c.answer
      c.after →
    c' ∈ calls → Raised m e depth hostDepth c' → Raised m e (depth + 1) hostDepth c

theorem Serves.answer {depth hostDepth : Nat} {caller : Caller} {f : HostFunction}
    {steps : List Step}
    (h : m.Serves (m.callFunction depth hostDepth .host) c f steps (.error error))
    (hc : c.Of (m.callFunction (depth + 1) (hostDepth + 1) caller)) : c.answer = .error error := by
  rw [Called.Of, h.callFunction] at hc
  have hprogram := ends_perform.mpr ⟨steps, h.takes, h.trace⟩
  refine congrArg Prod.fst (hc.unique (b := (.error error, c.after)) ?_)
  rw [hostCall, Exec.run_bind, Dialogue.ends_bind]
  exact ⟨_, _, [], hprogram, .done _, (List.append_nil _).symm⟩

/-- Along the path, the failure stays the same. -/
theorem Raised.answer {depth hostDepth : Nat} (h : m.Raised error depth hostDepth c)
    {caller : Caller} (hc : c.Of (m.callFunction depth hostDepth caller)) :
    c.answer = .error error := by
  -- On the path, from the handler back to the call.
  induction h generalizing caller with
  | handler hserves => exact hserves.answer hc
  | host hserves hown hpurpose hnot _ ih =>
    have hinner := ih (Program.of_step hserves.takes)
    have hheeds := (Heeding.attends.serves coversHost_true).own coversHost_true hown
    have hfailed := (hheeds _).passes hserves.takes hpurpose hnot hinner
    rename_i r _
    cases r with
    | ok _ => cases hfailed
    | error _ =>
      cases hfailed
      exact hserves.answer hc
  | guest _ hmakes hmem _ ih => exact hmakes.failed hmem (ih (hmakes.of_mem hmem))

def trapping : Law where
  keeps _ _ _ := True
  fails e := ∃ t, e = .trap t
  trans _ _ := trivial
  guest _ _ _ := trivial
  trap t := ⟨t, rfl⟩

theorem trapping_error {a : Exec α} (ha : trapping.Governs a) {s s' : State} {t : Trace}
    (h : (a.run.run s).Ends t (.error error, s')) : ∃ trap, error = .trap trap :=
  (ha s t _ s' h).2

theorem callFunction_zero (m : Machine) (hostDepth : Nat) (caller : Caller) (i : Nat)
    (args : List Value) : m.callFunction 0 hostDepth caller i args = Exec.trap .callDepth := by
  rw [callFunction]

/-- Without the arguments that it takes, no function runs. -/
theorem callFunction_of_misfit (m : Machine) (depth hostDepth : Nat) (caller : Caller) {i : Nat}
    {args : List Value}
    (h : (m.setup.module.funcType? i).map FuncType.params ≠ some (typesOf args)) :
    ∃ t, m.callFunction depth hostDepth caller i args = Exec.trap t := by
  cases depth with
  | zero => exact ⟨_, callFunction_zero m hostDepth caller i args⟩
  | succ depth =>
    cases htype : m.setup.module.funcType? i with
    | none =>
      refine ⟨.invalidCode, ?_⟩
      cases hostDepth <;> simp [callFunction, htype, Exec.orTrap, Exec.trap]
    | some type =>
      have hmisfit : typesOf args ≠ type.params := fun heq => h (by rw [htype, heq]; rfl)
      refine ⟨.callMismatch, ?_⟩
      cases hostDepth <;> simp [callFunction, htype, Exec.orTrap, hmisfit, Exec.trap]

theorem importCall_error {depth hostDepth : Nat} {caller : Caller}
    (htype : (m.setup.module.funcType? c.function).map FuncType.params = some (typesOf c.args))
    (hlt : c.function < m.setup.module.imports.size)
    (hc : ((m.importCall (m.callFunction depth hostDepth .host) caller c.function c.args).run.run
      c.before).Ends c.trace (.error error, c.after)) :
    (∃ t, error = .trap t) ∨ m.Raised error (depth + 1) (hostDepth + 1) c := by
  rw [importCall] at hc
  split at hc
  · next f htarget =>
    rw [hostCall, Exec.run_bind, Dialogue.ends_bind] at hc
    obtain ⟨t₁, ⟨r, s₁⟩, t₂, hprogram, hresult, htrace⟩ := hc
    cases r with
    | ok given =>
      have horTrap :
          trapping.Governs (Exec.orTrap .badResult (importResults f.type.results given)) :=
        (Law.composes m).couples.orTrap _ _
      exact .inl (trapping_error horTrap hresult)
    | error e =>
      cases hresult
      obtain ⟨steps, htakes, rfl⟩ := ends_perform.mp hprogram
      rw [List.append_nil] at htrace
      exact .inr (.handler ⟨⟨htype, hlt, htarget⟩, htakes, htrace⟩)
  · next w hw =>
    have hclose : w = .closeDescriptor → m.closesDescriptors = true := fun hclose =>
      Couples.closesDescriptors_of_target (hclose ▸ hw)
    exact .inl (trapping_error ((Law.composes m).couples.wasiCall _ w hclose _) hc)
  · split at hc <;> exact .inl (trapping_error (Law.governs_trap _) hc)

/-- No call fails otherwise than because of a handler or by a trap. -/
theorem raised_of_error {depth hostDepth : Nat} {caller : Caller}
    (hc : c.Of (m.callFunction depth hostDepth caller)) (he : c.answer = .error error) :
    (∃ t, error = .trap t) ∨ m.Raised error depth hostDepth c := by
  -- On the levels that are left: guest code fails by a trap or with a call of one level less.
  induction depth generalizing hostDepth caller c with
  | zero =>
    rw [Called.Of, he] at hc
    exact .inl (trapping_error (Law.governs_trap .callDepth) hc)
  | succ depth ih =>
    rw [Called.Of, he] at hc
    by_cases htype : (m.setup.module.funcType? c.function).map FuncType.params =
        some (typesOf c.args)
    · rw [callFunction_succ m depth hostDepth caller htype] at hc
      split at hc
      · next hlt =>
        cases hostDepth with
        | zero => exact .inl (trapping_error (Law.governs_trap _) hc)
        | succ hostDepth => exact importCall_error htype hlt hc
      · next hle =>
        cases hfunc : m.setup.module.funcs[c.function - m.setup.module.imports.size]? with
        | none =>
          rw [hfunc] at hc
          exact .inl (trapping_error (Law.governs_trap .invalidCode) hc)
        | some func =>
          rw [hfunc] at hc
          obtain ⟨calls, hmakes, -⟩ := exists_makes hfunc hc
          rcases hmakes.cause rfl with htrap | ⟨c', hmem, he'⟩
          · exact .inl htrap
          · rcases ih (hmakes.of_mem hmem) he' with htrap | hraised
            · exact .inl htrap
            · exact .inr (.guest ⟨htype, Nat.not_lt.mp hle, hfunc⟩ (he ▸ hmakes) hmem hraised)
    · obtain ⟨t, htrap⟩ := callFunction_of_misfit m (depth + 1) hostDepth caller htype
      rw [htrap] at hc
      exact .inl (trapping_error (Law.governs_trap t) hc)

end Machine

section

variable {m : Machine} {call : Callee}

namespace Guest

theorem records_function? (name : String) (s : State) :
    m.Records call (function? name) s fun steps found _ => ∀ symbol (c : Called) e,
      c.step (.accessor symbol) ∈ steps → c.answer = .error e → found = none := by
  refine Machine.records_op rfl ?_
  dsimp only
  split
  · next accessor _ _ =>
    refine Machine.records_step.mpr fun t answer s₁ _ => ?_
    refine Machine.records_op rfl (Machine.records_done.mpr fun symbol c e hc he => ?_)
    obtain ⟨function, args, before, trace, _, after⟩ := c
    cases he
    -- The one call that was made is that one, so it failed and tells of nothing.
    rcases List.mem_cons.mp hc with hc | hc
    · cases hc
    · rcases List.mem_cons.mp hc with hc | hc
      · cases hc
        rfl
      · cases List.mem_singleton.mp hc
  · refine Machine.records_done.mpr fun symbol c e hc _ => ?_
    cases List.mem_singleton.mp hc

theorem function_of_failed {name symbol : String} {s s' : State} {steps : List Step}
    {r : Except Error Nat} {c : Called} {e : Error}
    (h : m.Takes call (function name).run s steps r s') (hc : c.step (.accessor symbol) ∈ steps)
    (he : c.answer = .error e) : r = .error (.notFound name) := by
  rw [function, Action.run_lift_bind] at h
  obtain ⟨steps₁, found, s₁, steps₂, hfound, hrest, rfl⟩ := Machine.takes_bind.mp h
  cases found with
  | none =>
    obtain ⟨-, rfl, -⟩ := Machine.takes_done.mp hrest
    rfl
  | some f =>
    obtain ⟨rfl, -, -⟩ := Machine.takes_done.mp hrest
    rw [List.append_nil] at hc
    cases records_function? name s steps₁ _ s₁ hfound symbol c e hc he

end Guest

theorem Syscall.run_restores (hcall : growth.GovernsCallee call) (argv : List String)
    {s s' : State} {t : Trace} {r : Except Error Int32}
    (h : (m.perform call (run argv).run s).Ends t (r, s')) : RolledBack s s' := by
  obtain ⟨-, -, rfl⟩ | ⟨s₁, hrun, rfl⟩ := ends_run h
  · exact .refl s'
  · exact (Guest.run_restores hcall argv hrun).resumed.toRolledBack

end

namespace Machine

/-- Failures keep their identity, with so many levels for calls and for imports. -/
structure PassesFailures (m : Machine) (depth hostDepth : Nat) : Prop where
  /-- What a handler failed with is what the operation gives, unless it had failed before. -/
  returned (op : Guest.Operation) {s s' : State} {before after : List Step} {purpose : Purpose}
    {c : Called} {r : Except Error op.Result} {e : Error} :
    m.Takes (m.callFunction depth hostDepth .host) op.action.run s
      (before ++ c.step purpose :: after) r s' →
    purpose.IsHeeded → ¬ op.action.run.HasFailed failure? before → m.Raised e depth hostDepth c →
    r = .error e
  /-- An operation that has failed cleans up, and fails. -/
  failed (op : Guest.Operation) {s s' : State} {before after : List Step}
    {r : Except Error op.Result} :
    m.Takes (m.callFunction depth hostDepth .host) op.action.run s (before ++ after) r s' →
    op.action.run.HasFailed failure? before → (∀ x ∈ after, x.op.IsCleanup) ∧ ∃ e, r = .error e
  /-- On the way, every call gives what the handler failed with. -/
  passed {caller : Caller} {c : Called} {e : Error} :
    c.Of (m.callFunction depth hostDepth caller) → m.Raised e depth hostDepth c →
    c.answer = .error e
  /-- A call that does not trap fails because of a handler. -/
  raised {caller : Caller} {c : Called} {e : Error} :
    c.Of (m.callFunction depth hostDepth caller) → c.answer = .error e → (∀ t, e ≠ .trap t) →
    m.Raised e depth hostDepth c
  operations (op : Guest.Operation) : op.action.run.Heeds failure?
  handlers {f : HostFunction} : ¬ f.IsSupplied → ∀ args, (f.program args).run.Heeds failure?
  supplied (op : Supplied.Op) : op.program.Heeds op.failure?
  notFound {name symbol : String} {s s' : State} {steps : List Step} {r : Except Error Nat}
    {c : Called} {e : Error} :
    m.Takes (m.callFunction depth hostDepth .host) (Guest.function name).run s steps r s' →
    c.step (.accessor symbol) ∈ steps → c.answer = .error e → r = .error (.notFound name)
  /-- However a run ends, it leaves memory as it found it, in the middle of a call too. -/
  rolledBack (argv : List String) (s : State) :
    (m.perform (m.callFunction depth hostDepth .host) (Guest.run argv).run s).Always
      (fun (_, s') => RolledBack s s') ∧
    (m.perform (m.callFunction depth hostDepth .host) (Syscall.run argv).run s).Always
      fun (_, s') => RolledBack s s'

/-- At every depth of calls. -/
theorem failures_keep_identity (m : Machine) (depth hostDepth : Nat) :
    m.PassesFailures depth hostDepth where
  returned op _ _ before after purpose c r e h hpurpose hnot hraised := by
    have hc : c.answer = .error e := hraised.answer (Program.of_step h)
    have hr := (Guest.heeding_operation op).passes h hpurpose hnot hc
    cases r with
    | ok _ => cases hr
    | error _ =>
      cases hr
      rfl
  failed op _ _ _ _ r h hfailed := by
    obtain ⟨hcleanup, hr⟩ := hfailed.takes h
    refine ⟨hcleanup, ?_⟩
    cases r with
    | ok _ => cases hr
    | error e => exact ⟨e, rfl⟩
  passed hc hraised := hraised.answer hc
  raised hc he hnot := by
    rcases raised_of_error hc he with ⟨t, ht⟩ | hraised
    · exact absurd ht (hnot t)
    · exact hraised
  operations := Guest.heeding_operation
  handlers hown := (Heeding.attends.serves coversHost_true).own coversHost_true hown
  supplied := Supplied.heeds_op
  notFound := Guest.function_of_failed
  rolledBack argv s := by
    have hgrows := m.callFunction_grows depth hostDepth .host
    constructor
    · exact Dialogue.always_iff_ends.mpr fun _ _ h => Guest.run_restores hgrows argv h
    · exact Dialogue.always_iff_ends.mpr fun _ _ h => Syscall.run_restores hgrows argv h

/-- A module whose one function runs a library by `system`. The entry point of the library needs
what the host does not support, and from then on blocks cannot be given back. -/
def unsupportedInside : Module :=
  let word (w : UInt32) : Instr := .apply (.const (.i32 w)) []
  let byte (address w : UInt32) : Instr := .apply .storeByte [word address, word w]
  { memory := some ⟨1, none, some Module.memoryExport, none⟩
    table := some ⟨2, some Module.tableExport, [(1, 7)]⟩
    globals := []
    data := []
    imports := #[⟨Instantiation.namespaceOfHandlers, Handler.system.name, ⟨[.i32], [.i32]⟩⟩,
      ⟨Instantiation.namespaceOfHandlers, Handler.statvfs.name, ⟨[.i32, .i32], [.i32]⟩⟩]
    funcs := #[⟨⟨[], [.i32]⟩, [], [byte 8 97, .call 0 [word 8]]⟩,
      ⟨⟨[.i32], [.i32]⟩, [], [word 64]⟩,
      ⟨⟨[.i32], []⟩, [], [.ifElse [.apply .loadByte [word 12]] [.apply .unreachable []] []]⟩,
      ⟨⟨[.i32], [.i32]⟩, [], [word 3]⟩, ⟨⟨[.i32, .i32], [.i32]⟩, [], [word 1]⟩,
      ⟨⟨[.i32, .i32], [.i32]⟩, [], [byte 12 1, .call 1 [word 0, word 0]]⟩]
    exports := [("start", 2), (Guest.allocator, 3), (Guest.deallocator, 4), ("dlopen", 5),
      ("dlsym", 6)]
    start := none }

/-- The refusal comes from inside the run, past blocks that could not be given back. -/
theorem failures_keep_identity_inside :
    let targets := #[.function (.ofHandler .system), .function (.ofHandler .statvfs)]
    let m := Instantiation.machine .standard { directoryExists := fun _ => true }
      unsupportedInside targets
    let s : State :=
      { memory := .zeros 1, table := unsupportedInside.initialTable, globals := #[], fuel := none
        host := { bound := true } }
    ∃ before c r s', m.Takes (m.callFunction 20 10 .host) (Guest.call "start" []).run s
        (before ++ [c.step (.entry "start")]) r s' ∧
      m.Raised (.notImplemented "statvfs") 20 10 c ∧ r = .error (.notImplemented "statvfs") := by
  intro targets m s
  have hentry : (((m.callFunction 20 10 .host 2 []).run.run s).answered Request.unsupported).any
      (fun x => match x.1 with
        | .error (.notImplemented capability) => capability == "statvfs"
        | _ => false) = true := by
    decide +kernel
  obtain ⟨t, ⟨answer, s'⟩, hends, hanswer⟩ := Dialogue.exists_ends_of_any_answered hentry
  have hrefused : answer = .error (.notImplemented "statvfs") := by
    revert hanswer
    dsimp only
    split
    · simp_all
    · simp
  subst hrefused
  let c : Called := ⟨2, [], s, t, .error (.notImplemented "statvfs"), s'⟩
  let before : List Step := [⟨.setup, m.setup, s, s, []⟩, ⟨.setup, m.setup, s, s, []⟩,
    ⟨.getHost, s.host, s, s, []⟩, ⟨.setHost s.host, (), s, s, []⟩]
  have htakes : m.Takes (m.callFunction 20 10 .host) (Guest.call "start" []).run s
      (before ++ c.step (.entry "start") :: []) (.error (.notImplemented "statvfs")) s' :=
    .step (.done _) (.step (.done _) (.step (.done _) (.step (.done _) (.step hends (.done _ _)))))
  have hpasses := failures_keep_identity m 20 10
  have hraised := hpasses.raised (c := c) hends rfl (by simp)
  have hnot : ¬ (Guest.Operation.call "start" []).action.run.HasFailed failure? before :=
    fun hfailed => (hpasses.failed (.call "start" []) htakes hfailed).1 _ (.head _)
  exact ⟨before, c, _, s', htakes, hraised,
    hpasses.returned (.call "start" []) htakes trivial hnot hraised⟩

end Machine

end SandboxHost
