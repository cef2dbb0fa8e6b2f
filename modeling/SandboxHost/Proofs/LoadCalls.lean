import SandboxHost.Proofs.PassedText
import SandboxHost.Proofs.Resolution

namespace SandboxHost

namespace Op

/-- The calls by which a run opens a library, looks for its entry point, enters that, and closes the
library. -/
def isLoading : Op → Bool
  | .call (.entry _) _ _ | .call .findSymbol _ _ | .call .closeLibrary _ _ => true
  | _ => false

/-- Steps that are no such call and report no attempt to give a block back. -/
structure IsCalm (op : Op) : Prop where
  isLoading_eq : op.isLoading = false
  attempt?_eq : op.attempt? = none

theorem IsNote.isCalm {op : Op} (h : op.IsNote) : op.IsCalm := by
  cases op with
  | getHost | setHost _ => exact ⟨rfl, rfl⟩
  | _ => exact h.elim

theorem IsLookup.isCalm {op : Op} (h : op.IsLookup) : op.IsCalm := by
  unfold IsLookup at h
  split at h
  · exact ⟨rfl, rfl⟩
  · exact ⟨rfl, rfl⟩
  · exact ⟨rfl, rfl⟩
  · exact h.elim

theorem IsAccess.isCalm {op : Op} (h : op.IsAccess) : op.IsCalm := by
  unfold IsAccess at h
  split at h
  · exact ⟨rfl, rfl⟩
  · exact ⟨rfl, rfl⟩
  · exact h.isCalm

theorem IsSend.isLoading_eq {op : Op} (h : op.IsSend) : op.isLoading = false := by
  unfold IsSend IsRelease at h
  split at h
  · rfl
  · split at h
    · rfl
    · rfl
    · exact h.isCalm.isLoading_eq

theorem attempt?_of_isLoading {op : Op} (h : op.isLoading) : op.attempt? = none := by
  unfold attempt?
  split
  · cases h
  · rfl

end Op

def loading (steps : List Step) : List Step := steps.filter (·.op.isLoading)

section

variable {steps steps' : List Step}

@[simp] theorem loading_append : loading (steps ++ steps') = loading steps ++ loading steps' :=
  List.filter_append ..

theorem loading_eq_nil : loading steps = [] ↔ ∀ x ∈ steps, x.op.isLoading = false := by
  simp [loading]

theorem loading_of_calm (h : ∀ x ∈ steps, x.op.IsCalm) : loading steps = [] :=
  loading_eq_nil.mpr fun x hx => (h x hx).isLoading_eq

theorem attempts_of_calm (h : ∀ x ∈ steps, x.op.IsCalm) : attempts steps = [] :=
  attempts_eq_nil fun x hx => (h x hx).attempt?_eq

theorem firstFailure_append :
    firstFailure (steps ++ steps') = (firstFailure steps).or (firstFailure steps') := by
  rw [firstFailure, attempts_append, List.findSome?_append, firstFailure, firstFailure]

theorem firstFailure_eq_none (h : attempts steps = []) : firstFailure steps = none := by
  rw [firstFailure, h, List.findSome?_nil]

end

/-- One call at most is made in these steps. Where it is made and gives a value, and all blocks are
given back, that is the value. -/
structure Phase {α : Type} (value? : Step → Option α) (steps : List Step) (r : Except Error α) :
    Prop where
  ok (a : α) : r = .ok a → ∃ x, loading steps = [x] ∧ value? x = some a ∧ firstFailure steps = none
  error (e : Error) : r = .error e → loading steps = [] ∨
    ∃ x, loading steps = [x] ∧ (value? x = none ∨ firstFailure steps = some e)

namespace Phase

variable {α β : Type} {value? : Step → Option α} {before steps after : List Step}
  {r : Except Error α}

theorem refused (e : Error) (h : loading steps = []) : Phase value? steps (.error e) :=
  ⟨nofun, fun _ _ => .inl h⟩

theorem single {x : Step} (hx : x.op.isLoading) (hvalue : value? x = r.toOption) :
    Phase value? [x] r where
  ok a ha := by
    subst ha
    refine ⟨x, List.filter_cons_of_pos hx, hvalue, firstFailure_eq_none ?_⟩
    exact attempts_eq_nil (List.forall_mem_singleton.mpr (Op.attempt?_of_isLoading hx))
  error e he := by
    subst he
    exact .inr ⟨x, List.filter_cons_of_pos hx, .inl hvalue⟩

theorem bind (h : Phase value? steps r) (g : α → Except Error β) :
    Phase (fun x => (value? x).bind fun a => (g a).toOption) steps (r.bind g) := by
  cases r with
  | error e =>
    refine ⟨nofun, fun e' he' => ?_⟩
    cases he'
    refine (h.error e rfl).imp_right ?_
    rintro ⟨x, hx, hnone | hfailure⟩
    · exact ⟨x, hx, .inl (by rw [hnone]; rfl)⟩
    · exact ⟨x, hx, .inr hfailure⟩
  | ok a =>
    obtain ⟨x, hx, hvalue, hnone⟩ := h.ok a rfl
    refine ⟨fun b hb => ⟨x, hx, ?_, hnone⟩, fun e he => .inr ⟨x, hx, .inl ?_⟩⟩
    · have hgiven : g a = .ok b := hb
      rw [hvalue, Option.bind_some, hgiven]
      rfl
    · have hrefused : g a = .error e := he
      rw [hvalue, Option.bind_some, hrefused]
      rfl

theorem map (h : Phase value? steps r) (g : α → β) :
    Phase (fun x => (value? x).map g) steps (r.map g) := by
  have hbind := h.bind fun a => .ok (g a)
  simp only [Option.map_eq_bind]
  cases r <;> exact hbind

theorem around (h : Phase value? steps r) (hbefore : ∀ x ∈ before, x.op.IsCalm)
    (hsteps : attempts steps = []) (hafter : loading after = []) :
    Phase value? (before ++ (steps ++ after)) (Guest.scopeOutcome r (firstFailure after)) := by
  have hload : loading (before ++ (steps ++ after)) = loading steps := by
    rw [loading_append, loading_append, loading_of_calm hbefore, hafter, List.append_nil,
      List.nil_append]
  have hfailure : firstFailure (before ++ (steps ++ after)) = firstFailure after := by
    rw [firstFailure_append, firstFailure_append, firstFailure_eq_none (attempts_of_calm hbefore),
      firstFailure_eq_none hsteps, Option.none_or, Option.none_or]
  cases r with
  | error e =>
    refine ⟨nofun, fun e' he' => ?_⟩
    rw [hload]
    cases he'
    refine (h.error e rfl).imp_right ?_
    rintro ⟨x, hx, hnone | hfirst⟩
    · exact ⟨x, hx, .inl hnone⟩
    · rw [firstFailure_eq_none hsteps] at hfirst
      cases hfirst
  | ok a =>
    obtain ⟨x, hx, hvalue, -⟩ := h.ok a rfl
    cases hfirst : firstFailure after with
    | none =>
      refine ⟨fun a' ha' => ⟨x, hload.trans hx, ?_, hfailure.trans hfirst⟩, nofun⟩
      cases ha'
      exact hvalue
    | some e =>
      refine ⟨nofun, fun e' he' => .inr ⟨x, hload.trans hx, .inr (hfailure.trans ?_)⟩⟩
      cases he'
      exact hfirst

end Phase

namespace Step

def output? (name : String) : Step → Option Json
  | ⟨.call (.entry entered) _ _, returned, _, _, t⟩ =>
    if entered = name then (promised name t.signals returned).toOption else none
  | _ => none

/-- The handle of the library: the low 32 bits of the integer that the loader gave. -/
def opened? (x : Step) : Option Int32 :=
  (x.output? "dlopen").bind fun output => output.toInt64?.map Int32.ofInt

/-- The address of the entry point. What is no word counts as a null pointer. -/
def found? : Step → Option UInt32
  | ⟨.call .findSymbol _ _, .ok results, _, _, _⟩ =>
    match results.head? with
    | some (.i32 address) => some address
    | _ => some 0
  | _ => none

/-- The exit code. What is no integer counts as zero. -/
def exited? (x : Step) : Option Int32 :=
  (x.output? Guest.entryPoint).map fun output => Int32.ofInt (output.toInt64?.getD 0)

end Step

/-- Where such a call is next, nothing has been given back before, and it is one of these. -/
def Comes (Q : Op → State → Prop) (steps : List Step) (op : Op) (s : State) : Prop :=
  op.isLoading → (∀ x ∈ steps, x.op.IsCalm) ∧ Q op s

section

variable {Q : Op → State → Prop} {steps steps' : List Step} {op : Op} {s : State}

theorem comes_of_not (h : op.isLoading = false) : Comes Q steps op s := by
  intro hop
  rw [h] at hop
  cases hop

theorem Comes.after (h : Comes Q steps' op s) (hsteps : ∀ x ∈ steps, x.op.IsCalm) :
    Comes Q (steps ++ steps') op s :=
  fun hop => ⟨List.forall_mem_append.mpr ⟨hsteps, (h hop).1⟩, (h hop).2⟩

end

namespace Guest

variable {m : Machine} {call : Callee} {Q : Op → State → Prop} {Q' : List Step → Op → State → Prop}

abbrev Calm : BlockKind := StepsOf Op.IsCalm fun _ => True

theorem Calm.access : Calm.Allows (fun _ => True) Op.IsAccess :=
  StepsOf.allows Op.IsAccess.isCalm trivial

theorem Calm.scratch : Action.MadeOf Calm (fun _ => True) scratch :=
  madeOf_scratch Calm.access.lookup coversHost_true
    (fun _ => Program.madeOf_bind (Program.madeOf_block (.op .getHost ⟨rfl, rfl⟩)) fun h _ =>
      .done ⟨h, rfl⟩)
    (fun _ => Program.madeOf_bind (Program.madeOf_block (.op .getHost ⟨rfl, rfl⟩)) fun _ _ =>
      Program.madeOf_block (.op (.setHost _) ⟨rfl, rfl⟩))
    fun _ _ => .op _ ⟨rfl, rfl⟩

theorem Calm.locate (address : UInt32) : (tableFunction? address).MadeOf Calm fun _ => True :=
  have hcalm : Calm.Allows (fun _ => True) Op.IsCalm := StepsOf.allows id ⟨rfl, rfl⟩
  madeOf_tableFunction? hcalm ⟨rfl, rfl⟩ address

theorem meets_comes_calm {α : Type} {R : α → Prop} {p : Program α} (hp : p.MadeOf Calm R)
    (s : State) : m.Meets call p s (Comes Q) :=
  (Machine.meets_sorted hp s).mono fun _ _ _ hop => comes_of_not hop.isLoading_eq

theorem meets_comes_bind {α β : Type} {a : Action α} {f : α → Action β} {s : State}
    (ha : Action.MadeOf Calm (fun _ => True) a)
    (hf : ∀ x s, m.Meets call (f x).run s (Comes Q)) : m.Meets call (a >>= f).run s (Comes Q) := by
  refine Action.meets_bind.mpr ⟨meets_comes_calm ha s, fun steps r s₁ htakes x _ => ?_⟩
  exact (hf x s₁).mono fun steps' op s' hcomes => hcomes.after (ha.sorted m call s steps r s₁ htakes)

theorem meets_comes_invoke {name : String} {f : Nat} {args : List Value} {s : State}
    (h : Q (.call (.entry name) f args) s.fresh) :
    m.Meets call (invoke name f args).run s (Comes Q) := by
  refine meets_enter (fun _ _ _ hop => comes_of_not hop.isCalm.isLoading_eq) fun _ => ⟨?_, h⟩
  exact List.forall_mem_cons.mpr ⟨⟨rfl, rfl⟩, List.forall_mem_singleton.mpr ⟨rfl, rfl⟩⟩

abbrev Sending : BlockKind := StepsOf Op.IsSend fun _ => True

theorem Sending.allows : Sending.Allows (fun _ => True) Op.IsSend := StepsOf.allows id trivial

theorem meets_comes_sending {α : Type} {R : α → Prop} {p : Program α} (hp : p.MadeOf Sending R)
    (s : State) : m.Meets call p s fun steps op s' => Comes (Q' steps) steps op s' :=
  (Machine.meets_sorted hp s).mono fun _ _ _ hop => comes_of_not hop.isLoading_eq

theorem loading_of_sending {α : Type} {R : α → Prop} {p : Program α} (hp : p.MadeOf Sending R)
    (s : State) : m.Records call p s fun steps _ _ => loading steps = [] :=
  (hp.sorted m call s).mono fun _ _ _ hsteps =>
    loading_eq_nil.mpr fun x hx => (hsteps x hx).isLoading_eq

theorem meets_comes_scope {α : Type} {body : Scope α} {s : State}
    (h : m.Meets call (body.run.run []) s fun steps op s' => Comes (Q' steps) steps op s') :
    m.Meets call (inScope body).run s fun steps op s' => Comes (Q' steps) steps op s' :=
  meets_scope (fun _ _ _ hop => comes_of_not hop.isRelease.isSend.isLoading_eq) h

theorem records_send_calm (bytes : List UInt8) (s : State) :
    m.Records call (send bytes).run s fun steps r _ => r.isOk → ∀ x ∈ steps, x.op.IsCalm := by
  have hallocate : Action.MadeOf Calm (fun _ => True) (allocate bytes.length) :=
    madeOf_allocate Calm.access.lookup coversHost_true _ fun _ => .op _ ⟨rfl, rfl⟩
  rw [send, Action.records_bind]
  refine (hallocate.sorted m call s).mono fun steps r s₁ hgiven => ?_
  cases r with
  | error e => rintro ⟨⟩
  | ok address =>
    dsimp only
    have hwrite := madeOf_writeMemory Calm.access coversHost_true address bytes
    rw [Action.run_attempt_bind, Machine.records_bind]
    refine (hwrite.sorted m call s₁).mono fun steps' written s₂ hwritten => ?_
    cases written with
    | ok _ =>
      refine Machine.records_done.mpr fun _ => ?_
      rw [List.append_nil]
      exact List.forall_mem_append.mpr ⟨hgiven, hwritten⟩
    | error e =>
      dsimp only
      rw [Action.run_attempt_bind, Machine.records_bind]
      exact fun _ _ _ _ => Machine.records_done.mpr (by rintro ⟨⟩)

theorem records_sendEach_calm (texts : List String) (tracked : List UInt32) (s : State) :
    m.Records call ((sendEach texts).run.run tracked) s fun steps x _ =>
      x.1.isOk → ∀ x ∈ steps, x.op.IsCalm := by
  induction texts generalizing tracked s with
  | nil => exact Machine.records_done.mpr fun _ => List.forall_mem_nil _
  | cons text rest ih =>
    rw [records_sendEach_cons]
    refine (records_send_calm _ s).mono fun steps r s₁ hfirst => ?_
    cases r with
    | error e => exact nofun
    | ok address =>
      refine (ih (address :: tracked) s₁).mono fun steps' x s' hrest => ?_
      rcases x with ⟨e | addresses, tracked'⟩
      · exact nofun
      · exact fun _ => List.forall_mem_append.mpr ⟨hfirst rfl, hrest rfl⟩

theorem records_sendStrings_calm (texts : List String) (tracked : List UInt32) (s : State) :
    m.Records call ((sendStrings texts).run.run tracked) s fun steps x _ =>
      x.1.isOk → ∀ x ∈ steps, x.op.IsCalm := by
  rw [sendStrings]
  split
  · exact Machine.records_done.mpr fun _ => List.forall_mem_nil _
  · rw [Scope.run_bind, Machine.records_bind]
    refine (records_sendEach_calm texts tracked s).mono fun steps x s₁ hsent => ?_
    rcases x with ⟨e | addresses, tracked'⟩
    · exact Machine.records_done.mpr (by rintro ⟨⟩)
    · dsimp only
      rw [Scope.records_track]
      refine (records_send_calm _ s₁).mono fun steps' r s' hrow hr => ?_
      exact List.forall_mem_append.mpr ⟨hsent rfl, hrow hr⟩

theorem length_arguments {types : List ValueType} {pointers : List UInt32} {extra : List Int64}
    {args : List Value} (h : arguments types pointers extra = .ok args) :
    args.length = pointers.length + extra.length := by
  have hall (given : List (ValueType × Int64)) {args : List Value}
      (h : given.mapM (m := Except Error) (fun x => argument x.1 x.2) = .ok args) :
      args.length = given.length := by
    induction given generalizing args with
    | nil =>
      cases h
      rfl
    | cons x rest ih =>
      rw [List.mapM_cons] at h
      cases hvalue : argument x.1 x.2 with
      | error e =>
        rw [hvalue] at h
        cases h
      | ok value =>
        cases hmore : rest.mapM (m := Except Error) fun x => argument x.1 x.2 with
        | error e =>
          rw [hvalue, hmore] at h
          cases h
        | ok values =>
          rw [hvalue, hmore] at h
          cases h
          exact congrArg Nat.succ (ih hmore)
  unfold arguments at h
  dsimp only at h
  split at h
  · next hlength =>
    rw [hall _ h, List.length_zip, hlength, Nat.min_self, List.length_append, List.length_map]
  · cases h

theorem meets_comes_tell (name : String) (f : Nat) (address : UInt32) (extra : List Int64)
    (s : State) :
    m.Meets call (do invoke name f (← argumentsFor f [address] extra) : Action Json).run s
      (Comes fun op _ => ∃ args, op = .call (.entry name) f args ∧
        args.length = extra.length + 1) := by
  have harguments := madeOf_argumentsFor Calm.access.lookup coversHost_true f [address] extra
  refine Action.meets_bind.mpr ⟨meets_comes_calm harguments s, ?_⟩
  rw [argumentsFor, Action.run_lift_bind]
  refine Machine.records_op rfl (Machine.records_done.mpr fun args hargs => ?_)
  have hlength : args.length = extra.length + 1 := by
    rw [length_arguments hargs, List.length_singleton, Nat.add_comm]
  refine (meets_comes_invoke ⟨args, rfl, hlength⟩).mono fun steps op s' hcomes => hcomes.after ?_
  exact List.forall_mem_singleton.mpr ⟨rfl, rfl⟩

theorem meets_comes_pass (name : String) (f : Nat) (text : String) (extra : List Int64)
    (small : Nat) (s : State) :
    m.Meets call (if text.utf8ByteSize < small then do
        let address ← scratch
        writeCString address text
        invoke name f (← argumentsFor f [address] extra)
      else inScope do
        let address ← Scope.track (← sendString text none)
        invoke name f (← argumentsFor f [address] extra) : Action Json).run s
      (Comes fun op _ => ∃ args, op = .call (.entry name) f args ∧
        args.length = extra.length + 1) := by
  split
  · refine meets_comes_bind Calm.scratch fun address s => ?_
    refine meets_comes_bind (madeOf_writeCString Calm.access coversHost_true address text) ?_
    exact fun _ s => meets_comes_tell name f address extra s
  · refine meets_comes_scope (Scope.meets_track_bind.mpr ⟨?_, fun steps r s₁ hsent address hr => ?_⟩)
    · exact meets_comes_sending (madeOf_sendText Sending.allows coversHost_true text none) s
    · rw [Scope.run_lift_bind]
      refine Scope.meets_lift ((meets_comes_tell name f address extra s₁).mono ?_)
      refine fun steps' op s' hcomes => hcomes.after ?_
      exact records_send_calm _ s steps r s₁ hsent (by rw [hr]; rfl)

theorem meets_comes_call (name text : String) (extra : List Int64) (s : State) :
    m.Meets call (callWithString name (.one text) extra).run s fun steps op s' =>
      Comes (fun op _ => ∃ f args, op = .call (.entry name) f args ∧
        args.length = extra.length + 1 ∧ Found m.setup.module name steps f) steps op s' := by
  have hcalm := madeOf_function Calm.access.lookup coversHost_true name
  rw [callWithString]
  refine Action.meets_bind.mpr ⟨?_, fun steps r s₁ htakes f hr => ?_⟩
  · exact (Machine.meets_sorted hcalm s).mono fun _ _ _ hop => comes_of_not hop.isLoading_eq
  · have hsteps := hcalm.sorted m call s steps r s₁ htakes
    have hfound := (hr ▸ records_function name s steps r s₁ htakes).to_found
    rw [Action.run_lift_bind]
    refine Machine.meets_op rfl (comes_of_not rfl) ?_
    refine (meets_comes_pass name f text extra m.setup.smallStringSize s₁).mono ?_
    intro steps' op s' hcomes hop
    obtain ⟨hsteps', args, hargs, hlength⟩ := hcomes hop
    refine ⟨List.forall_mem_append.mpr ⟨hsteps, List.forall_mem_cons.mpr ⟨⟨rfl, rfl⟩, hsteps'⟩⟩, ?_⟩
    exact ⟨f, args, hargs, hlength, hfound.mono (List.prefix_append _ _).isInfix⟩

theorem meets_comes_find (f : Nat) (library : Int32) (s : State) :
    m.Meets call (findEntryPoint f library).run s (Comes fun op s' => ∃ symbol,
      op = .call .findSymbol f [.ofInt32 library, .i32 symbol] ∧
        Packet.LiesIn ⟨symbol, Utf8.encode entryPoint ++ [0]⟩ s'.memory) := by
  refine meets_comes_scope (Scope.meets_track_bind.mpr ⟨?_, fun steps r s₁ hsent symbol hr => ?_⟩)
  · exact meets_comes_sending (madeOf_sendText Sending.allows coversHost_true entryPoint none) s
  · have hcalm := records_send_calm _ s steps r s₁ hsent (by rw [hr]; rfl)
    obtain ⟨-, hlies, -⟩ := records_sent _ s steps r s₁ hsent symbol hr
    refine Scope.meets_bind.mpr ⟨Scope.meets_lift ?_, fun steps' x s₂ _ found _ => ?_⟩
    · refine Machine.meets_bind.mpr ⟨Machine.meets_step.mpr ⟨fun _ => ?_, ?_⟩, ?_⟩
      · rw [List.append_nil]
        exact ⟨hcalm, symbol, rfl, hlies⟩
      · exact fun _ _ _ _ => Machine.meets_done _
      · intro _ returned _ _
        cases returned <;> exact Machine.meets_done _
    · split <;> exact Machine.meets_done _

theorem meets_comes_enter (hcall : growth.GovernsCallee call) (main : Nat) (argv : List String)
    (s : State) :
    m.Meets call (callEntryPoint main argv).run s fun steps op s' =>
      Comes (fun op s' => ∃ array,
        op = .call (.entry entryPoint) main [.i32 argv.length.toUInt32, .i32 array] ∧
          ∀ held, Honest held steps → ListPassed s'.memory argv.length.toUInt32 array argv)
        steps op s' := by
  have hmade := (sends_sendStrings argv).madeOf_sends Sending.allows coversHost_true []
  refine meets_comes_scope (Scope.meets_bind.mpr ⟨?_, fun steps x s₁ hsent array hx => ?_⟩)
  · exact meets_comes_sending hmade s
  · have hcalm := records_sendStrings_calm argv [] s steps x s₁ hsent (by rw [hx]; rfl)
    refine Scope.meets_bind.mpr ⟨Scope.meets_lift ?_, fun _ _ _ _ _ _ => Machine.meets_done _⟩
    refine meets_enter (fun _ _ _ hop => comes_of_not hop.isCalm.isLoading_eq) fun _ => ⟨?_, ?_⟩
    · refine List.forall_mem_append.mpr ⟨hcalm, List.forall_mem_cons.mpr ⟨⟨rfl, rfl⟩, ?_⟩⟩
      exact List.forall_mem_singleton.mpr ⟨rfl, rfl⟩
    · refine ⟨array, rfl, fun held h => ?_⟩
      exact records_deliverAll hcall argv [] s steps x s₁ hsent held (honest_append.mp h).1 array hx

theorem Scope.records_lift_bind {α β : Type} {a : Action α} {f : α → Scope β}
    {tracked : List UInt32} {s : State}
    {P : List Step → Except Error β × List UInt32 → State → Prop} :
    m.Records call ((liftM a >>= f : Scope β).run.run tracked) s P ↔
      m.Records call a.run s fun steps r s₁ =>
        match r with
        | .ok x => m.Records call ((f x).run.run tracked) s₁
            fun steps' y s' => P (steps ++ steps') y s'
        | .error e => P steps (.error e, tracked) s₁ := by
  rw [run_bind]
  show m.Records call (Program.bind (a.run.bind fun r => .done (r, tracked)) _) s P ↔ _
  rw [Program.bind_assoc, Machine.records_bind]
  refine Machine.records_congr fun steps r s₁ => ?_
  cases r with
  | error e => exact Machine.records_done.trans (by rw [List.append_nil])
  | ok x => exact Iff.rfl

/-- A scope whose body sends something and then makes one call. -/
theorem phase_scope {α β : Type} {value? : Step → Option β} {first : Scope α}
    {rest : α → Scope β} {s : State}
    (hfirst : m.Records call (first.run.run []) s fun steps x _ =>
      loading steps = [] ∧ (x.1.isOk → ∀ y ∈ steps, y.op.IsCalm))
    (hrest : ∀ a tracked s, m.Records call ((rest a).run.run tracked) s fun steps x _ =>
      Phase value? steps x.1 ∧ attempts steps = []) :
    m.Records call (inScope (first >>= rest)).run s fun steps r _ => Phase value? steps r := by
  have hreleases (tracked : List UInt32) (s : State) :
      m.Records call (releaseAll tracked) s fun steps failure _ =>
        loading steps = [] ∧ failure = firstFailure steps := by
    have hmade := madeOf_releaseAll (Sending.allows.mono Op.IsRelease.isSend) coversHost_true tracked
    intro steps failure s' htakes
    exact ⟨loading_of_sending hmade s _ _ s' htakes, (records_releaseAll tracked s _ _ s' htakes).2⟩
  rw [records_inScope, Scope.run_bind, Machine.records_bind]
  refine hfirst.mono fun before x s₁ hsent => ?_
  rcases x with ⟨e | a, tracked⟩
  · refine Machine.records_done.mpr ((hreleases tracked s₁).mono fun after failure s' hafter => ?_)
    refine .refused e ?_
    rw [loading_append, loading_append, hsent.1, hafter.1]
    rfl
  · refine (hrest a tracked s₁).mono fun steps x s₂ hphase => ?_
    refine (hreleases x.2 s₂).mono fun after failure s' hafter => ?_
    rw [hafter.2, List.append_assoc]
    exact hphase.1.around (hsent.2 rfl) hphase.2 hafter.1

/-- Where a call keeps its contract and comes to no other calls, it is one call that is made. -/
theorem phase_of_contract {name : String} {steps : List Step} {r : Except Error Json}
    {why : List Step → Error → Prop} (h : Contract why name steps r)
    (hcalls : ∀ before x after, steps = before ++ x :: after → x.op.isLoading →
      (∀ y ∈ before, y.op.IsCalm) ∧ x.op.IsEntry) : Phase (Step.output? name) steps r := by
  have hentry {x : Step} (hx : x ∈ steps) (hnot : ¬ x.op.IsEntry) : x.op.isLoading = false := by
    obtain ⟨before, after, hsteps⟩ := List.append_of_mem hx
    exact Bool.eq_false_iff.mpr fun hload => hnot (hcalls before x after hsteps hload).2
  cases h with
  | refused e hnone _ =>
    exact .refused e (loading_eq_nil.mpr fun x hx => hentry hx (hnone x hx))
  | @entered before later f args returned s s' t hbefore hlater =>
    have hcalm := (hcalls before _ later rfl rfl).1
    have hafter : loading later = [] := loading_eq_nil.mpr fun x hx =>
      hentry (List.mem_append_right _ (List.mem_cons_of_mem _ hx)) (hlater x hx)
    have hsingle : Phase (Step.output? name) [⟨.call (.entry name) f args, returned, s, s', t⟩]
        (promised name t.signals returned) := .single rfl (if_pos rfl)
    exact hsingle.around hcalm rfl hafter

section

variable (hcall : tracking.GovernsCallee call)

include hcall

theorem phase_call (name text : String) (s : State) :
    m.Records call (callWithString name (.one text) []).run s fun steps r _ =>
      Phase (Step.output? name) steps r := by
  intro steps r s' htakes
  refine phase_of_contract (honours_callWithString hcall name (.one text) [] s steps r s' htakes) ?_
  intro before x after hsteps hload
  obtain ⟨hcalm, f, args, hop, -⟩ :=
    (meets_comes_call name text [] s).records steps r s' htakes before x after hsteps hload
  exact ⟨hcalm, by rw [hop]; trivial⟩

theorem phase_open (path : String) (s : State) :
    m.Records call (ExceptT.run do
      Action.ofExcept (asInt32 (← callWithString "dlopen" (.one path) []) "dlopen")) s
        fun steps r _ => Phase Step.opened? steps r := by
  have hopened : Step.opened? =
      fun x => (x.output? "dlopen").bind fun output => (asInt32 output "dlopen").toOption := by
    funext x
    refine congrArg (x.output? "dlopen").bind (funext fun output => ?_)
    unfold asInt32
    cases output.toInt64? <;> rfl
  rw [hopened, Action.records_bind]
  refine (phase_call hcall "dlopen" path s).mono fun steps r s' hphase => ?_
  have hbind := hphase.bind (asInt32 · "dlopen")
  cases r with
  | error e => exact hbind
  | ok output => exact Machine.records_done.mpr (by rwa [List.append_nil])

theorem phase_invoke (name : String) (f : Nat) (args : List Value) (s : State) :
    m.Records call (invoke name f args).run s fun steps r _ =>
      Phase (Step.output? name) steps r ∧ attempts steps = [] := by
  intro steps r s' htakes
  have hcontract : Contract (fun _ _ => False) name steps r ∧ attempts steps = [] :=
    records_invoke hcall name f args s steps r s' htakes
  refine ⟨phase_of_contract hcontract.1 fun before x after hsteps => ?_, hcontract.2⟩
  have hmeets : m.Meets call (invoke name f args).run s (Comes fun op _ => op.IsEntry) :=
    meets_comes_invoke trivial
  exact hmeets.records steps r s' htakes before x after hsteps

theorem phase_callEntryPoint (main : Nat) (argv : List String) (s : State) :
    m.Records call (callEntryPoint main argv).run s fun steps r _ => Phase Step.exited? steps r := by
  have hmade := (sends_sendStrings argv).madeOf_sends Sending.allows coversHost_true []
  refine phase_scope (fun steps x s₁ hsent => ⟨?_, ?_⟩) fun array tracked s => ?_
  · exact loading_of_sending hmade s steps x s₁ hsent
  · exact records_sendStrings_calm argv [] s steps x s₁ hsent
  · rw [Scope.records_lift_bind]
    refine (phase_invoke hcall entryPoint main _ s).mono fun steps r s' hphase => ?_
    have hexited := hphase.1.map fun output => Int32.ofInt (output.toInt64?.getD 0)
    cases r with
    | error e => exact ⟨hexited, hphase.2⟩
    | ok output =>
      refine Machine.records_done.mpr ?_
      rw [List.append_nil]
      exact ⟨hexited, hphase.2⟩

end

theorem phase_findEntryPoint (f : Nat) (library : Int32) (s : State) :
    m.Records call (findEntryPoint f library).run s fun steps r _ => Phase Step.found? steps r := by
  have hscope : findEntryPoint f library = inScope (
      (do Scope.track (← sendString entryPoint none)) >>= fun symbol => do
        match ← callRaw .findSymbol f [.ofInt32 library, .i32 symbol] with
        | some (.i32 address) => return address
        | _ => return 0) := by
    rw [bind_assoc]
    rfl
  have hmade := madeOf_sendText Sending.allows coversHost_true entryPoint none
  rw [hscope]
  refine phase_scope (Scope.records_track.mpr fun steps r s₁ hsent => ⟨?_, ?_⟩) ?_
  · exact loading_of_sending hmade s steps r s₁ hsent
  · exact records_send_calm _ s steps r s₁ hsent
  · intro symbol tracked s
    rw [Scope.records_lift_bind, records_callRaw]
    intro t returned s' _
    cases returned with
    | error e => exact ⟨.single rfl rfl, rfl⟩
    | ok results =>
      dsimp only [Except.map]
      split
      · next address hhead =>
        refine Machine.records_done.mpr ⟨.single rfl ?_, rfl⟩
        rw [Step.found?, hhead]
        rfl
      · next hnone =>
        refine Machine.records_done.mpr ⟨.single rfl ?_, rfl⟩
        rw [Step.found?]
        split
        · next address hhead => exact absurd hhead (hnone address)
        · rfl

end Guest

end SandboxHost
