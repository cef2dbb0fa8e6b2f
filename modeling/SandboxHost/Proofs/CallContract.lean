import SandboxHost.Proofs.Refusals
import SandboxHost.Proofs.Signals

namespace SandboxHost

def Op.IsEntry : Op → Prop
  | .call (.entry _) _ _ => True
  | _ => False

theorem Op.IsMarshal.not_isEntry {op : Op} (h : op.IsMarshal) : ¬ op.IsEntry := by
  intro hentry
  unfold IsEntry at hentry
  split at hentry
  · exact h
  · exact hentry

theorem Op.IsQuiet.not_isEntry {op : Op} (h : op.IsQuiet) : ¬ op.IsEntry := h.isMarshal.not_isEntry

/-- What a call promises to give: how the function failed; else that it raised an exception; else
what it set last; else the first number it returned, if any. -/
def promised (name : String) (signals : List Signal) :
    Except Error (List Value) → Except Error Json
  | .error e => .error e
  | .ok results =>
    if signals.any Signal.isException then .error (.raised name)
    else .ok ((signals.filterMap Signal.value?).getLast?.getD
      ((results.head?.map Value.toJson).getD .null))

/-- A call fails for one of these reasons before it enters a function, or enters one, once, and gives
what is promised, unless a block cannot be given back afterwards. -/
inductive Contract (why : List Step → Error → Prop) (name : String) :
    List Step → Except Error Json → Prop where
  | refused {steps : List Step} (e : Error) :
    (∀ x ∈ steps, ¬ x.op.IsEntry) → why steps e → Contract why name steps (.error e)
  | entered {before later : List Step} (f : Nat) (args : List Value)
    (returned : Except Error (List Value)) (s s' : State) (t : Trace) :
    (∀ x ∈ before, ¬ x.op.IsEntry) → (∀ x ∈ later, ¬ x.op.IsEntry) →
    Contract why name (before ++ ⟨.call (.entry name) f args, returned, s, s', t⟩ :: later)
      (Guest.scopeOutcome (promised name t.signals returned) (firstFailure later))

namespace Contract

variable {why why' : List Step → Error → Prop} {name : String} {steps steps' : List Step}
  {r : Except Error Json}

theorem after (h : Contract why name steps' r) (hsteps : ∀ x ∈ steps, ¬ x.op.IsEntry)
    (hwhy : ∀ e, why steps' e → why' (steps ++ steps') e) : Contract why' name (steps ++ steps') r := by
  cases h with
  | refused e h he =>
    exact .refused e (fun x hx => (List.mem_append.mp hx).elim (hsteps x) (h x)) (hwhy e he)
  | entered f args returned s s' t hbefore hlater =>
    rw [← List.append_assoc]
    exact .entered f args returned s s' t
      (fun x hx => (List.mem_append.mp hx).elim (hsteps x) (hbefore x)) hlater

theorem scopeOutcome_append (r : Except Error Json) (steps steps' : List Step) :
    Guest.scopeOutcome (Guest.scopeOutcome r (firstFailure steps)) (firstFailure steps') =
      Guest.scopeOutcome r (firstFailure (steps ++ steps')) := by
  rw [firstFailure, firstFailure, firstFailure, attempts_append, List.findSome?_append]
  cases r with
  | error e => rfl
  | ok a => cases List.findSome? (failure? ·.2) (attempts steps) <;> rfl

theorem release (h : Contract why name steps r) (hwhy : Lasting why)
    (hsteps : ∀ x ∈ steps', ¬ x.op.IsEntry) :
    Contract why name (steps ++ steps') (Guest.scopeOutcome r (firstFailure steps')) := by
  cases h with
  | refused e h he =>
    exact .refused e (fun x hx => (List.mem_append.mp hx).elim (h x) (hsteps x))
      (hwhy _ _ e he (List.prefix_append _ _).isInfix)
  | entered f args returned s s' t hbefore hlater =>
    rw [scopeOutcome_append, List.append_assoc, List.cons_append]
    exact .entered f args returned s s' t hbefore
      fun x hx => (List.mem_append.mp hx).elim (hlater x) (hsteps x)

theorem alone (name : String) {later : List Step} (hlater : ∀ x ∈ later, ¬ x.op.IsEntry)
    (hnone : attempts later = []) (f : Nat) (args : List Value)
    (returned : Except Error (List Value)) (s s' : State) (t : Trace) :
    Contract why name (⟨.call (.entry name) f args, returned, s, s', t⟩ :: later)
      (promised name t.signals returned) := by
  have h : Contract why name ([] ++ ⟨.call (.entry name) f args, returned, s, s', t⟩ :: later) _ :=
    entered f args returned s s' t (fun _ hx => absurd hx List.not_mem_nil) hlater
  have hfailure : firstFailure later = none := by rw [firstFailure, hnone, List.findSome?_nil]
  rw [hfailure, Guest.scopeOutcome_none] at h
  exact h

end Contract

/-- What is promised can be read off the state that the function leaves. -/
theorem promised_ok (name : String) (signals : List Signal) (results : List Value) {h : HostState}
    (hstate : h.callState = signals.foldl Signal.apply .fresh) :
    promised name signals (.ok results) =
      if h.exception then .error (.raised name)
      else .ok (h.result.getD ((results.head?.map Value.toJson).getD .null)) := by
  have hexception : h.callState.exception = signals.any Signal.isException := by
    rw [hstate, Signal.exception_foldl, CallState.fresh, Bool.false_or]
  have hresult : h.callState.result = (signals.filterMap Signal.value?).getLast? := by
    rw [hstate, Signal.result_foldl, CallState.fresh, Option.or_none]
  rw [promised, ← hexception, ← hresult]
  rfl

namespace Guest

variable {m : Machine} {call : Callee} {why : List Step → Error → Prop}

theorem records_entry (hcall : tracking.GovernsCallee call) (name : String) (f : Nat)
    (args : List Value) {s : State} (hs : s.host.callState = .fresh) :
    m.Records call (ExceptT.run do
      let raw ← callRaw (.entry name) f args
      let h ← Program.host
      if h.exception then throw (.raised name)
      return h.result.getD ((raw.map Value.toJson).getD .null)) s fun steps r _ =>
        Contract (fun _ _ => False) name steps r ∧ attempts steps = [] := by
  rw [Action.records_bind, records_callRaw]
  intro t returned s' hreturned
  have hstate : s'.host.callState = t.signals.foldl Signal.apply .fresh :=
    hs ▸ (hcall f args s t returned s' hreturned).1.2
  cases returned with
  | error e => exact ⟨.alone name (by simp) rfl f args (.error e) s s' t, rfl⟩
  | ok results =>
    have hlooked : ∀ x ∈ [(⟨.getHost, s'.host, s', s', []⟩ : Step)], ¬ x.op.IsEntry := by
      simp [Op.IsEntry]
    have hcontract : Contract (fun _ _ => False) name _ _ := Contract.alone name hlooked rfl f args (.ok results) s s' t
    rw [promised_ok name t.signals results hstate] at hcontract
    dsimp only [Except.map]
    rw [Action.run_lift_bind]
    refine Machine.records_op rfl (Action.records_guard (fun hraised => ?_) fun hraised => ?_)
    · rw [if_pos hraised] at hcontract
      exact ⟨hcontract, rfl⟩
    · rw [if_neg hraised] at hcontract
      exact Machine.records_done.mpr ⟨hcontract, rfl⟩

theorem records_invoke (hcall : tracking.GovernsCallee call) (name : String) (f : Nat)
    (args : List Value) (s : State) : m.Records call (invoke name f args).run s fun steps r _ =>
      Contract why name steps r ∧ attempts steps = [] := by
  rw [invoke, Action.run_lift_bind, Machine.records_bind]
  refine Machine.records_modifyHost ?_
  -- Nothing is set now, whatever was signalled before: the contract counts from here.
  refine (records_entry hcall name f args rfl).mono fun steps r s' h =>
    ⟨h.1.after ?_ nofun, ?_⟩
  · simp [Op.IsEntry]
  · rw [attempts_append, h.2]
    rfl

/-- Other steps than entries. -/
abbrev Aside : BlockKind := StepsOf (¬ Op.IsEntry ·) fun _ => True

theorem Aside.marshals : Aside.Allows (fun _ => True) Op.IsMarshal :=
  StepsOf.allows Op.IsMarshal.not_isEntry trivial

theorem Aside.access : Aside.Allows (fun _ => True) Op.IsAccess :=
  Aside.marshals.mono Op.IsAccess.isMarshal

/-- Wherever the action starts, it honours the contract. -/
def Honours (m : Machine) (call : Callee) (why : List Step → Error → Prop) (name : String)
    (a : Action Json) : Prop :=
  ∀ s, m.Records call a.run s fun steps r _ => Contract why name steps r

theorem honours_bind {α : Type} {name : String} {a : Action α} {f : α → Action Json}
    (hwhy : Lasting why) (ha : Action.MadeOf Aside (fun _ => True) a)
    (hshows : Shows m call why a) (hf : ∀ x, Honours m call why name (f x)) :
    Honours m call why name (a >>= f) := by
  intro s
  rw [Action.records_bind]
  intro steps r s₁ htakes
  have hsteps := ha.sorted m call s steps r s₁ htakes
  cases r with
  | error e => exact .refused e hsteps (hshows s steps _ s₁ htakes e rfl)
  | ok x =>
    exact (hf x s₁).mono fun steps' r' s' h =>
      h.after hsteps fun e he => hwhy _ _ e he (List.suffix_append _ _).isInfix

/-- The function is found first. Then what is left to do keeps its contract for reasons that are
those of a call once the function is found. -/
theorem honours_function {name : String} {arg : Option StringArg} {extra : List Int64}
    {f : Nat → Action Json}
    (hf : ∀ i, Honours m call (Unready m.setup i arg extra) name (f i)) :
    Honours m call (Refusal m.setup name arg extra) name (function name >>= f) := by
  have hmade := madeOf_function Aside.access.lookup coversHost_true name
  intro s
  rw [Action.records_bind]
  intro steps r s₁ htakes
  have hsteps := hmade.sorted m call s steps r s₁ htakes
  have hsought := records_function name s steps r s₁ htakes
  cases r with
  | error e =>
    cases hsought with
    | missed _ _ hmissed => exact .refused _ hsteps (.missed hmissed)
  | ok i =>
    have hfound := hsought.to_found
    refine (hf i s₁).mono fun steps' r' s' h => h.after hsteps fun e he => ?_
    exact .unready i (hfound.mono (List.prefix_append _ _).isInfix)
      (Unready.lasting _ _ _ _ _ _ e he (List.suffix_append _ _).isInfix)

theorem honours_setup_bind {name : String} (hwhy : Lasting why) {f : Setup → Action Json}
    (hf : Honours m call why name (f m.setup)) :
    Honours m call why name (liftM Program.setup >>= f) := by
  intro s
  rw [Action.run_lift_bind]
  refine Machine.records_op rfl ((hf s).mono fun steps r s' h => ?_)
  have hsetup : ∀ x ∈ [(⟨.setup, m.setup, s, s, []⟩ : Step)], ¬ x.op.IsEntry := by
    simp [Op.IsEntry]
  refine h.after hsetup fun e he => ?_
  exact hwhy _ _ e he (List.suffix_cons _ _).isInfix

theorem honours_invoke (hcall : tracking.GovernsCallee call) (name : String) (f : Nat)
    (args : List Value) : Honours m call why name (invoke name f args) :=
  fun s => (records_invoke hcall name f args s).mono fun _ _ _ h => h.1

/-- The arguments are settled before the function is entered. -/
theorem honours_arguments (hcall : tracking.GovernsCallee call) (name : String) (f : Nat)
    {arg : Option StringArg} {addresses : List UInt32}
    (hcount : addresses.length = pointerCount arg) (extra : List Int64) :
    Honours m call (Unready m.setup f arg extra) name
      (do invoke name f (← argumentsFor f addresses extra)) :=
  honours_bind (Unready.lasting _ _ _ _)
    (madeOf_argumentsFor Aside.access.lookup coversHost_true f addresses extra)
    (shows_argumentsFor hcount f extra) fun args => honours_invoke hcall name f args

namespace Scope

def Honours (m : Machine) (call : Callee) (why : List Step → Error → Prop) (name : String)
    (body : Scope Json) : Prop :=
  ∀ tracked s, m.Records call (body.run.run tracked) s fun steps x _ => Contract why name steps x.1

theorem honours_bind {α : Type} {name : String} {body : Scope α} {f : α → Scope Json}
    (hwhy : Lasting why) (hbody : Scope.MadeOf Aside (fun _ => True) body)
    (hshows : Scope.Shows m call why body) (hf : ∀ a, Honours m call why name (f a)) :
    Honours m call why name (body >>= f) := by
  intro tracked s
  rw [run_bind, Machine.records_bind]
  intro steps x s₁ htakes
  have hsteps := (hbody tracked).sorted m call s steps x s₁ htakes
  rcases x with ⟨e | a, tracked'⟩
  · rw [Machine.records_done, List.append_nil]
    exact .refused e hsteps (hshows tracked s steps _ s₁ htakes e rfl)
  · exact (hf a tracked' s₁).mono fun steps' x' s' h =>
      h.after hsteps fun e he => hwhy _ _ e he (List.suffix_append _ _).isInfix

theorem honours_lift {name : String} {a : Action Json} (ha : Guest.Honours m call why name a) :
    Honours m call why name (liftM a) := by
  intro tracked s
  show m.Records call (a.run.bind fun r => .done (r, tracked)) s _
  rw [Machine.records_bind]
  refine (ha s).mono fun steps r s' h => ?_
  rwa [Machine.records_done, List.append_nil]

theorem honours_arguments (hcall : tracking.GovernsCallee call) (name : String) (f : Nat)
    {arg : Option StringArg} {addresses : List UInt32}
    (hcount : addresses.length = pointerCount arg) (extra : List Int64) :
    Honours m call (Unready m.setup f arg extra) name (do
      invoke name f (← argumentsFor f addresses extra)) :=
  honours_bind (Unready.lasting _ _ _ _)
    (Scope.madeOf_lift
      (madeOf_argumentsFor Aside.access.lookup coversHost_true f addresses extra))
    (shows_lift (shows_argumentsFor hcount f extra)) fun args =>
      honours_lift (honours_invoke hcall name f args)

end Scope

theorem honours_inScope {name : String} {body : Scope Json} (hwhy : Lasting why)
    (hbody : Scope.Honours m call why name body) : Honours m call why name (inScope body) := by
  intro s
  rw [records_inScope]
  refine (hbody [] s).mono fun steps x s₁ hsteps steps' failure s' hreleases => ?_
  have hmade := madeOf_releaseAll (Aside.marshals.mono Op.IsRelease.isMarshal) coversHost_true x.2
  have haside : ∀ y ∈ steps', ¬ y.op.IsEntry := hmade.sorted m call s₁ steps' failure s' hreleases
  rw [(records_releaseAll x.2 s₁ steps' failure s' hreleases).2]
  exact hsteps.release hwhy haside

theorem honours_callWithString (hcall : tracking.GovernsCallee call) (name : String)
    (arg : StringArg) (extra : List Int64) :
    Honours m call (Refusal m.setup name (some arg) extra) name (callWithString name arg extra) := by
  refine honours_function fun f => ?_
  have hwhy := Unready.lasting m.setup f (some arg) extra
  have hsent {steps : List Step} {e : Error}
      (h : Unsent m.setup.module (blockSizes m.setup.smallStringSize (some arg)) steps e) :
      Unready m.setup f (some arg) extra steps e := .unsent h
  refine honours_setup_bind hwhy ?_
  cases arg with
  | one text =>
    dsimp only
    split
    · next hshort =>
      -- A short text goes into the scratch block, which is not given back.
      have hscratch : Action.MadeOf Aside (fun _ => True) scratch :=
        (Keeps.of_ops Aside.marshals (.op .getHost nofun) fun h => .op (.setHost h) nofun).scratch
          coversHost_true
      refine honours_bind hwhy hscratch (shows_scratch.mono fun _ _ h => hsent ?_) fun address => ?_
      · rwa [blockSizes, if_pos hshort]
      have hwritten := madeOf_writeCString Aside.access coversHost_true address text
      refine honours_bind hwhy hwritten
        ((shows_writeCString _ address text).mono fun _ _ => hsent) fun _ => ?_
      exact honours_arguments hcall name f rfl extra
    · next hlong =>
      -- A long one has a block of its own, which the scope gives back after the call.
      have hsend := madeOf_sendString Aside.marshals coversHost_true text none
      refine honours_inScope hwhy ?_
      refine Scope.honours_bind hwhy (Scope.madeOf_lift hsend)
        (Scope.shows_lift ((shows_sendText text).mono fun _ _ h => hsent ?_)) fun _ => ?_
      · rwa [blockSizes, if_neg hlong]
      refine Scope.honours_bind hwhy (Scope.madeOf_track _) (Scope.shows_track _) fun address => ?_
      exact Scope.honours_arguments hcall name f rfl extra
  | many texts =>
    have hsends := (sends_sendStrings texts).madeOf Aside.marshals coversHost_true
    refine honours_inScope hwhy ?_
    refine Scope.honours_bind hwhy hsends
      ((Scope.shows_sendStrings _ texts).mono fun _ _ => hsent) fun argv => ?_
    exact Scope.honours_arguments hcall name f rfl extra

end Guest

end SandboxHost
