import SandboxHost.Proofs.HostPrograms

namespace SandboxHost

namespace Step

/-- The function that the accessor for a name told of in this step, in the table as it left that. -/
def located? (name : String) : Step → Option Nat
  | ⟨.call (.accessor symbol) _ _, returned, _, after, _⟩ =>
    if symbol = name then Guest.told? after.table returned else none
  | _ => none

end Step

def Op.Locates (name : String) : Op → Prop
  | .call (.accessor symbol) _ _ => symbol = name
  | _ => False

theorem Op.IsNote.not_locates {op : Op} (h : op.IsNote) (name : String) : ¬ op.Locates name := by
  cases op with
  | getHost | setHost _ => exact id
  | _ => exact h.elim

theorem Step.located?_eq_none {name : String} {x : Step} (h : ¬ x.op.Locates name) :
    x.located? name = none := by
  unfold located?
  split
  · exact if_neg h
  · rfl

/-- The function that a name stands for after these steps. -/
def resolved? (m : Module) (name : String) (steps : List Step) : Option Nat :=
  match m.callTable?, m.exported? (Guest.accessorName name) with
  | some _, some _ => steps.findSome? (Step.located? name)
  | _, _ => m.exported? name

section

variable {m : Module} {name : String} {steps steps' : List Step}

/-- Steps in which other things are done do not count. -/
theorem resolved?_append_left (h : ∀ x ∈ steps, ¬ x.op.Locates name) :
    resolved? m name (steps ++ steps') = resolved? m name steps' := by
  unfold resolved?
  split
  · have hnone : steps.findSome? (Step.located? name) = none :=
      List.findSome?_eq_none_iff.mpr fun x hx => Step.located?_eq_none (h x hx)
    rw [List.findSome?_append, hnone, Option.none_or]
  · rfl

theorem resolved?_append_right (h : ∀ x ∈ steps', ¬ x.op.Locates name) :
    resolved? m name (steps ++ steps') = resolved? m name steps := by
  unfold resolved?
  split
  · have hnone : steps'.findSome? (Step.located? name) = none :=
      List.findSome?_eq_none_iff.mpr fun x hx => Step.located?_eq_none (h x hx)
    rw [List.findSome?_append, hnone, Option.or_none]
  · rfl

theorem resolved?_cons {x : Step} (h : ¬ x.op.Locates name) :
    resolved? m name (x :: steps) = resolved? m name steps :=
  resolved?_append_left (List.forall_mem_singleton.mpr h)

end

/-- Steps in which this name alone is looked up. -/
def Op.Seeks (name : String) : Op → Prop
  | .setup => True
  | .table symbol => symbol = some name
  | op => op.Locates name

/-- Somewhere in these steps the name was looked up, and stood for the function. -/
def Found (m : Module) (name : String) (steps : List Step) (f : Nat) : Prop :=
  ∃ search, search <:+: steps ∧ (∀ x ∈ search, x.op.Seeks name) ∧ resolved? m name search = some f

section

variable {m : Module} {name : String} {steps steps' : List Step} {f : Nat}

theorem Found.mono (h : Found m name steps f) (hsteps : steps <:+: steps') :
    Found m name steps' f := by
  obtain ⟨search, hsearch, hseeks, hf⟩ := h
  exact ⟨search, hsearch.trans hsteps, hseeks, hf⟩

theorem resolved?_eq_none (h : resolved? m name steps' = none) (hsteps : steps <:+: steps') :
    resolved? m name steps = none := by
  obtain ⟨before, after, rfl⟩ := hsteps
  unfold resolved? at h ⊢
  split at h
  · rw [List.findSome?_append, List.findSome?_append, Option.or_eq_none_iff, Option.or_eq_none_iff]
      at h
    exact h.1.2
  · exact h

def Missed (m : Module) (name : String) (steps : List Step) : Prop :=
  match m.callTable?, m.exported? (Guest.accessorName name) with
  | some _, some _ => ∃ x ∈ steps, x.op.Locates name ∧ x.located? name = none
  | _, _ => m.exported? name = none

theorem Missed.mono (h : Missed m name steps) (hsteps : steps <:+: steps') :
    Missed m name steps' := by
  unfold Missed at h ⊢
  split at h
  · obtain ⟨x, hx, hlocates⟩ := h
    exact ⟨x, hsteps.subset hx, hlocates⟩
  · exact h

theorem Found.resolved?_ne_none (h : Found m name steps f) : resolved? m name steps ≠ none := by
  obtain ⟨search, hsearch, -, hf⟩ := h
  intro hnone
  rw [resolved?_eq_none hnone hsearch] at hf
  cases hf

end

/-- What these steps come to, in which a name alone is looked up. -/
inductive Sought (m : Module) (name : String) (steps : List Step) : Except Error Nat → Prop where
  | found (f : Nat) : (∀ x ∈ steps, x.op.Seeks name) → resolved? m name steps = some f →
    Sought m name steps (.ok f)
  | missed : (∀ x ∈ steps, x.op.Seeks name) → resolved? m name steps = none → Missed m name steps →
    Sought m name steps (.error (.notFound name))

theorem Sought.to_found {m : Module} {name : String} {steps : List Step} {f : Nat}
    (h : Sought m name steps (.ok f)) : Found m name steps f := by
  cases h with
  | found _ hseeks hf => exact ⟨steps, List.infix_rfl, hseeks, hf⟩

namespace Guest

variable {m : Machine} {call : Callee}

theorem madeOf_seek {sort : Op → Prop} {name : String} (h : ∀ {op : Op}, op.Seeks name → sort op) :
    (function? name).MadeOf (StepsOf sort fun _ => True) fun _ => True := by
  refine Program.madeOf_bind (Program.madeOf_block (.op .setup (h trivial))) fun setup _ => ?_
  dsimp only
  split
  · next accessor _ _ =>
    have hcall : sort (.call (.accessor name) accessor []) := h rfl
    refine Program.madeOf_bind (Program.madeOf_block (.op _ hcall)) fun returned _ => ?_
    have hlook : sort (.table (some name)) := h rfl
    exact Program.madeOf_bind (Program.madeOf_block (.op _ hlook)) fun _ _ => .done trivial
  · exact .done trivial

/-- What is found is what the name stands for by the steps of the search. -/
theorem records_resolved (name : String) (s : State) :
    m.Records call (function? name) s fun steps found _ =>
      found = resolved? m.setup.module name steps := by
  refine Machine.records_op rfl ?_
  dsimp only
  split
  · next declared accessor hdeclared haccessor =>
    refine Machine.records_step.mpr fun t returned s₁ _ => ?_
    refine Machine.records_op rfl (Machine.records_done.mpr ?_)
    have htold : resolved? m.setup.module name
        [⟨.setup, m.setup, s, s, []⟩, ⟨.call (.accessor name) accessor [], returned, s, s₁, t⟩,
          ⟨.table (some name), s₁.table, s₁, s₁, []⟩] =
        told? s₁.table returned := by
      unfold resolved?
      rw [hdeclared, haccessor]
      simp only [List.findSome?_cons, List.findSome?_nil, Step.located?, if_true]
      cases told? s₁.table returned <;> rfl
    exact htold.symm
  · next hdirect =>
    refine Machine.records_done.mpr ?_
    unfold resolved?
    split
    · next declared accessor hdeclared haccessor =>
      exact (hdirect declared accessor hdeclared haccessor).elim
    · rfl

theorem records_missed (name : String) (s : State) :
    m.Records call (function? name) s fun steps found _ =>
      found = none → Missed m.setup.module name steps := by
  refine Machine.records_op rfl ?_
  dsimp only
  split
  · next declared accessor hdeclared haccessor =>
    refine Machine.records_step.mpr fun t returned s₁ _ => ?_
    refine Machine.records_op rfl (Machine.records_done.mpr fun hnone => ?_)
    unfold Missed
    rw [hdeclared, haccessor]
    exact ⟨_, List.mem_cons_of_mem _ (.head _), rfl, (if_pos rfl).trans hnone⟩
  · next hdirect =>
    refine Machine.records_done.mpr fun hnone => ?_
    unfold Missed
    split
    · next declared accessor hdeclared haccessor =>
      exact (hdirect declared accessor hdeclared haccessor).elim
    · exact hnone

theorem records_found (name : String) (s : State) :
    m.Records call (function? name) s fun steps found _ =>
      ∀ f, found = some f → Found m.setup.module name steps f := by
  rintro steps _ s' htakes f rfl
  have hmade : (function? name).MadeOf (StepsOf (Op.Seeks name) fun _ => True) fun _ => True :=
    madeOf_seek id
  have hseeks := hmade.sorted m call s steps _ s' htakes
  exact ⟨steps, List.infix_rfl, hseeks, (records_resolved name s steps _ s' htakes).symm⟩

theorem records_function (name : String) (s : State) :
    m.Records call (function name).run s fun steps r _ => Sought m.setup.module name steps r := by
  have hmade : (function? name).MadeOf (StepsOf (Op.Seeks name) fun _ => True) fun _ => True :=
    madeOf_seek id
  rw [function, Action.run_lift_bind, Machine.records_bind]
  intro steps found s₁ htakes
  have hseeks := hmade.sorted m call s steps found s₁ htakes
  cases found with
  | none =>
    refine Machine.records_done.mpr ?_
    rw [List.append_nil]
    exact .missed hseeks (records_resolved name s steps _ s₁ htakes).symm
      (records_missed name s steps none s₁ htakes rfl)
  | some f =>
    refine Machine.records_done.mpr ?_
    rw [List.append_nil]
    exact .found f hseeks (records_resolved name s steps _ s₁ htakes).symm

end Guest

end SandboxHost
