import SandboxHost.Proofs.HostPrograms

namespace SandboxHost

/-- The attempt to give a block back that the step reports, and how it went. -/
def Op.attempt? : Op → Option (UInt32 × Except Error Unit)
  | .ask (.report (.released address outcome)) => some (address, outcome)
  | _ => none

def attempts (steps : List Step) : List (UInt32 × Except Error Unit) :=
  steps.filterMap (·.op.attempt?)

def failure? {α : Type} : Except Error α → Option Error
  | .error e => some e
  | .ok _ => none

/-- Why the first attempt to give a block back that failed did so. -/
def firstFailure (steps : List Step) : Option Error := (attempts steps).findSome? (failure? ·.2)

@[simp] theorem attempts_append (steps steps' : List Step) :
    attempts (steps ++ steps') = attempts steps ++ attempts steps' := List.filterMap_append ..

theorem attempts_eq_nil {steps : List Step} (h : ∀ x ∈ steps, x.op.attempt? = none) :
    attempts steps = [] := List.filterMap_eq_nil_iff.mpr h

theorem Op.IsQuiet.attempt?_eq_none {op : Op} (h : op.IsQuiet) : op.attempt? = none := by
  unfold attempt?
  split
  · exact h.elim
  · rfl

namespace Guest

variable {m : Machine} {call : Callee} {α : Type}

theorem records_release {address : UInt32} {s : State}
    {P : List Step → Except Error Unit → State → Prop} :
    m.Records call (release address).run s P ↔
      m.Records call (giveBack address).run s fun steps r s' =>
        P (steps ++ [⟨.ask (.report (.released address r)), (), s', s',
          [⟨.report (.released address r), ()⟩]⟩]) r s' := by
  show m.Records call ((giveBack address).run.bind fun r =>
    .step (.ask (.report (.released address r))) fun _ => .done r) s P ↔ _
  rw [Machine.records_bind]
  refine Machine.records_congr fun steps r s' => ?_
  rw [Machine.records_step]
  constructor
  · exact fun h => Machine.records_done.mp (h _ () s' (.ask (.done _)))
  · rintro h t ⟨⟩ s₂ hask
    obtain ⟨_, _, hdone, rfl⟩ := Dialogue.ends_ask.mp hask
    cases hdone
    exact Machine.records_done.mpr h

theorem attempts_release (address : UInt32) (s : State) :
    m.Records call (release address).run s fun steps r _ => attempts steps = [(address, r)] := by
  have hnone : Action.MadeOf (StepsOf (·.attempt? = none) fun _ => True) (fun _ => True)
      (giveBack address) :=
    madeOf_giveBack (StepsOf.allows (fun h => h.isQuiet.attempt?_eq_none) trivial) coversHost_true
      address
      fun _ => .op _ rfl
  rw [records_release]
  refine (hnone.sorted m call s).mono fun steps r s' hsteps => ?_
  rw [attempts_append, attempts_eq_nil hsteps]
  rfl

/-- Every block is attempted once, in order, also after failures; the first failure counts. -/
theorem records_releaseAll (tracked : List UInt32) (s : State) :
    m.Records call (releaseAll tracked) s fun steps failure _ =>
      (attempts steps).map Prod.fst = tracked ∧ failure = firstFailure steps := by
  induction tracked generalizing s with
  | nil => exact Machine.records_done.mpr ⟨rfl, rfl⟩
  | cons address rest ih =>
    show m.Records call ((release address).run.bind _) s _
    rw [Machine.records_bind]
    refine (attempts_release address s).mono fun steps first s₁ hfirst => ?_
    show m.Records call ((releaseAll rest).bind _) s₁ _
    rw [Machine.records_bind]
    refine (ih s₁).mono fun steps' later s₂ hlater => ?_
    have hattempts : attempts (steps ++ steps') = (address, first) :: attempts steps' := by
      rw [attempts_append, hfirst, List.singleton_append]
    have hfailure : firstFailure (steps ++ steps') = (failure? first).or later := by
      rw [firstFailure, hattempts, List.findSome?_cons, hlater.2]
      cases first <;> rfl
    have haddresses : (attempts (steps ++ steps')).map Prod.fst = address :: rest := by
      rw [hattempts, List.map_cons, hlater.1]
    cases first <;>
      exact Machine.records_done.mpr ⟨by rwa [List.append_nil],
        by rw [List.append_nil, hfailure]; rfl⟩

/-- What a scope gives, from what its body gave and the first failure to give a block back. -/
def scopeOutcome : Except Error α → Option Error → Except Error α
  | .ok _, some e => .error e
  | r, _ => r

@[simp] theorem scopeOutcome_none (r : Except Error α) : scopeOutcome r none = r := by
  cases r <;> rfl

theorem records_inScope {body : Scope α} {s : State}
    {P : List Step → Except Error α → State → Prop} :
    m.Records call (inScope body).run s P ↔
      m.Records call (body.run.run []) s fun steps x s₁ =>
        m.Records call (releaseAll x.2) s₁ fun steps' failure s' =>
          P (steps ++ steps') (scopeOutcome x.1 failure) s' := by
  show m.Records call
    ((body.run.run []).bind fun x => (releaseAll x.2).bind fun failure => _) s P ↔ _
  rw [Machine.records_bind]
  refine Machine.records_congr fun steps x s₁ => ?_
  rw [Machine.records_bind]
  refine Machine.records_congr fun steps' failure s' => ?_
  rcases x with ⟨_ | _, tracked⟩ <;> cases failure <;>
    exact Machine.records_done.trans (by rw [List.append_nil]; rfl)

namespace Scope

theorem records_track {a : Action UInt32} {tracked : List UInt32} {s : State}
    {P : List Step → Except Error UInt32 × List UInt32 → State → Prop} :
    m.Records call ((do track (← a) : Scope UInt32).run.run tracked) s P ↔
      m.Records call a.run s fun steps r s' =>
        P steps (r, r.toOption.toList ++ tracked) s' := by
  rw [run_bind]
  show m.Records call (Program.bind (a.run.bind fun r => .done (r, tracked)) _) s P ↔ _
  rw [Program.bind_assoc, Machine.records_bind]
  refine Machine.records_congr fun steps r s₁ => ?_
  cases r <;> exact Machine.records_done.trans (by rw [List.append_nil]; rfl)

theorem records_track_bind {β : Type} {a : Action UInt32} {f : UInt32 → Scope β}
    {tracked : List UInt32} {s : State}
    {P : List Step → Except Error β × List UInt32 → State → Prop} :
    m.Records call ((do f (← track (← a)) : Scope β).run.run tracked) s P ↔
      m.Records call a.run s fun steps r s₁ =>
        match r with
        | .ok address => m.Records call ((f address).run.run (address :: tracked)) s₁
            fun steps' x s' => P (steps ++ steps') x s'
        | .error e => P steps (.error e, tracked) s₁ := by
  rw [← bind_assoc, run_bind, Machine.records_bind, records_track]
  refine Machine.records_congr fun steps r s₁ => ?_
  cases r with
  | error e => exact Machine.records_done.trans (by rw [List.append_nil]; rfl)
  | ok address => exact Iff.rfl

end Scope

theorem records_sendEach_cons {text : String} {rest : List String} {tracked : List UInt32}
    {s : State} {P : List Step → Except Error (List UInt32) × List UInt32 → State → Prop} :
    m.Records call ((sendEach (text :: rest)).run.run tracked) s P ↔
      m.Records call (sendString text none).run s fun steps r s₁ =>
        match r with
        | .ok address => m.Records call ((sendEach rest).run.run (address :: tracked)) s₁
            fun steps' x s' => P (steps ++ steps') (x.1.map (address :: ·), x.2) s'
        | .error e => P steps (.error e, tracked) s₁ := by
  refine Scope.records_track_bind.trans (Machine.records_congr fun steps r s₁ => ?_)
  cases r with
  | error e => exact Iff.rfl
  | ok address =>
    dsimp only
    rw [Scope.run_bind, Machine.records_bind]
    refine Machine.records_congr fun steps' x s' => ?_
    rcases x with ⟨_ | _, tracked'⟩ <;>
      exact Machine.records_done.trans (by rw [List.append_nil]; rfl)

theorem records_sendEach_noted (texts : List String) (tracked : List UInt32) (s : State) :
    m.Records call ((sendEach texts).run.run tracked) s fun _ x _ => ∀ addresses,
      x.1 = .ok addresses →
        x.2 = addresses.reverse ++ tracked ∧ addresses.length = texts.length := by
  induction texts generalizing tracked s with
  | nil =>
    refine Machine.records_done.mpr ?_
    rintro _ ⟨⟩
    exact ⟨rfl, rfl⟩
  | cons text rest ih =>
    rw [records_sendEach_cons]
    intro steps r s₁ _
    cases r with
    | error e => exact nofun
    | ok address =>
      refine (ih (address :: tracked) s₁).mono fun steps' x s' hrest => ?_
      rcases x with ⟨e | addresses, tracked'⟩
      · exact nofun
      · obtain ⟨hnoted, hlength⟩ := hrest addresses rfl
        rintro _ ⟨⟩
        refine ⟨?_, congrArg Nat.succ hlength⟩
        rw [List.reverse_cons, List.append_assoc]
        exact hnoted

end Guest

end SandboxHost
