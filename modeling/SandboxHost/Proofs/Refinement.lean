import Mathlib.Data.List.Induction
import SandboxHost.Proofs.Abandonment
import SandboxHost.Proofs.Placement

namespace SandboxHost

namespace Dialogue

variable {α β : Type}

def value? : Dialogue α → Option α
  | .done a => some a
  | _ => none

theorem ends_of_value? {d : Dialogue α} {a : α} (h : d.value? = some a) : d.Ends [] a := by
  cases d with
  | done b =>
    cases h
    exact .done a
  | diverged | ask r next => cases h

theorem Reaches.bind {d d' : Dialogue α} {t : Trace} (h : d.Reaches t d') (f : α → Dialogue β) :
    (d.bind f).Reaches t (d'.bind f) := by
  induction h with
  | refl => exact .refl _
  | ask _ ih => exact .ask ih

theorem Ends.reaches {d : Dialogue α} {t : Trace} {a : α} (h : d.Ends t a) :
    d.Reaches t (.done a) := by
  induction h with
  | done => exact .refl _
  | ask _ ih => exact .ask ih

/-- How a dialogue goes on depends on the answers alone. -/
theorem Reaches.exists_ends {d d' : Dialogue α} {t t' : Trace} {a : α} (h : d.Reaches t d')
    (hends : d.Ends (t ++ t') a) : d'.Ends t' a := by
  induction h with
  | refl => exact hends
  | ask _ ih =>
    cases hends with
    | ask hnext => exact ih hnext

/-- With these answers, or the first of them, the dialogue comes to wait. -/
def Waits (d : Dialogue α) (t : Trace) : Prop :=
  ∃ t₁ r next, t₁ <+: t ∧ r.waits = true ∧ d.Reaches t₁ (.ask r next)

theorem Waits.later {d : Dialogue α} {t t' : Trace} (h : d.Waits t) (hpre : t <+: t') :
    d.Waits t' := by
  obtain ⟨t₁, r, next, ht, hr, hreaches⟩ := h
  exact ⟨t₁, r, next, ht.trans hpre, hr, hreaches⟩

theorem Waits.bind {d : Dialogue α} {t : Trace} (h : d.Waits t) (f : α → Dialogue β) :
    (d.bind f).Waits t := by
  obtain ⟨t₁, r, next, ht, hr, hreaches⟩ := h
  exact ⟨t₁, r, _, ht, hr, hreaches.bind f⟩

theorem Ends.not_waits {d : Dialogue α} {t t' : Trace} {a : α} (h : d.Ends t' a)
    (hcalm : ∀ x ∈ t', x.request.waits = false) (hpre : t <+: t') : ¬ d.Waits t := by
  rintro ⟨t₁, r, next, ht, hr, hreaches⟩
  obtain ⟨rest, rfl⟩ := ht.trans hpre
  obtain ⟨answer, rest, -, rfl⟩ := ends_ask.mp (hreaches.exists_ends h)
  have hnot : r.waits = false := hcalm ⟨r, answer⟩ (by simp)
  simp [hr] at hnot

end Dialogue

namespace Worker

def loadDirectly (s : Surroundings) (name : String) (o : Options) :
    Dialogue (Except Error Instance) :=
  match o.config.check with
  | .error e => .done (.error e)
  | .ok () =>
    match s.module? name with
    | none => .done (.error (.engine .loadFailed))
    | some m =>
      instantiate o.config { directoryExists := s.directoryExists } ⟨FileName.stem name, m⟩

theorem load_mirrors (s : Surroundings) (name : String) (o : Options) :
    (loadDirectly s name o).Mirrors Instance.Both (load s name o) := by
  unfold loadDirectly load
  cases o.config.check with
  | error e => exact .done (.error _)
  | ok _ =>
    cases s.module? name with
    | none => exact .done (.error _)
    | some m =>
      exact instantiate_mirrors o.config (e := { directoryExists := s.directoryExists }) rfl nofun _

inductive Operation where
  | call (name : String) (args : List Int64)
  | callWithString (name : String) (arg : Guest.StringArg) (args : List Int64)

namespace Operation

def action : Operation → Action Json
  | .call name args => Guest.call name args
  | .callWithString name arg args => Guest.callWithString name arg args

def job : Operation → UInt64 → Job
  | .call name args => .call name args
  | .callWithString name arg args => .callWithString name arg args

theorem id?_job (op : Operation) (id : UInt64) : (op.job id).id? = some id := by cases op <;> rfl

theorem work_job (s : Surroundings) (inst : Option Instance) (op : Operation) (id : UInt64) :
    work s inst (op.job id) = (carryOutOn inst op.action).bind fun x =>
      .done ⟨.reply (.ofOutcome id x.1), x.2⟩ := by
  rw [work_eq]
  cases op <;> rfl

end Operation

/-- How a module was loaded, what the operations on it gave, and the instance after them. -/
structure Outcomes where
  loaded : Except Error Instance
  outputs : List (Except Error Json)
  inst : Option Instance

namespace Outcomes

def next (x : Outcomes) (op : Operation) : Dialogue Outcomes :=
  (carryOutOn x.inst op.action).bind fun y =>
    .done { x with outputs := x.outputs ++ [y.1], inst := y.2 }

def told (x : Outcomes) : List (Except Error Json) :=
  loadOutcome x.loaded :: x.outputs.map relayed

end Outcomes

/-- Loads a module and carries out operations on the instance, one after the other, without a
worker. -/
def session (s : Surroundings) (name : String) (o : Options) (ops : List Operation) :
    Dialogue Outcomes :=
  ops.foldl (fun d op => d.bind (·.next op))
    ((loadDirectly s name o).bind fun loaded => .done ⟨loaded, [], loaded.toOption⟩)

theorem session_concat (s : Surroundings) (name : String) (o : Options) (ops : List Operation)
    (op : Operation) :
    session s name o (ops ++ [op]) = (session s name o ops).bind (·.next op) :=
  List.foldl_append ..

def Mark.exchange? : Mark → Option Exchange
  | .talked x => some x
  | _ => none

/-- What was asked of the outside of a worker, but for its owner, and answered. -/
def exchanges (ks : List Mark) : Trace := ks.filterMap Mark.exchange?

theorem exchanges_concat (ks : List Mark) (k : Mark) :
    exchanges (ks ++ [k]) = exchanges ks ++ k.exchange?.toList := by
  cases h : k.exchange? <;> simp [exchanges, h]

theorem exchanges_of_exchange?_eq_none (ks : List Mark) {k : Mark} (h : k.exchange? = none) :
    exchanges (ks ++ [k]) = exchanges ks := by
  rw [exchanges_concat, h, Option.toList_none, List.append_nil]

namespace Channel

/-- An owner of a new worker loads a module and gives operations, each once it has been told the
outcome of the one before. -/
inductive Session (s : Surroundings) (name : String) (o : Options) :
    List Operation → List (Except Error Json) → List Mark → Channel → Prop where
  | load : Session s name o [] [] [.resized o.stdinBufferSize.toNat] ((spawn s).requestLoad name o)
  | works {ops : List Operation} {told : List (Except Error Json)} {ks : List Mark} {k : Mark}
    {c c' : Channel} :
    Session s name o ops told ks c → c.Works k c' → Session s name o ops told (ks ++ [k]) c'
  | serves {ops : List Operation} {told : List (Except Error Json)} {ks : List Mark} {k : Mark}
    {c c' : Channel} :
    Session s name o ops told ks c → c.Serves k c' → Session s name o ops told (ks ++ [k]) c'
  | stir {ops : List Operation} {told : List (Except Error Json)} {ks : List Mark} {c : Channel}
    {resume : List UInt8 → Dialogue Finished} :
    Session s name o ops told ks c → c.thread = .posted .asleep resume →
    Session s name o ops told (ks ++ [.waited]) { c with thread := .posted .looking resume }
  | next {ops : List Operation} {told : List (Except Error Json)} {ks : List Mark} {c : Channel}
    {outcome : Except Error Json} (op : Operation) :
    Session s name o ops told ks c → c.owner = .free outcome →
    Session s name o (ops ++ [op]) (told ++ [outcome]) (ks ++ [.sent (op.job (c.lastId + 1))])
      (c.requestCall op.job)

theorem Session.run {s : Surroundings} {name : String} {o : Options} {ops : List Operation}
    {told : List (Except Error Json)} {ks : List Mark} {c : Channel}
    (h : Session s name o ops told ks c) : Run (spawn s) ks c := by
  induction h with
  | load => exact .concat .nil (.load name o rfl)
  | works _ h ih => exact ih.concat (.worker h)
  | serves _ h ih => exact ih.concat (.owner h)
  | stir _ h ih => exact ih.concat (.stir h)
  | next op _ h ih => exact ih.concat (.call op.id?_job h)

/-- How the message at the end of a job ends what the owner waits for. -/
structure Fits (told : List (Except Error Json)) (goal : Goal) (x : Outcomes) (f : Finished) :
    Prop where
  receive : ∃ outcome, x.told = told ++ [outcome] ∧
    ∀ c : Channel, c.receive goal f.message = c.finish outcome
  inst : f.inst = x.inst.map (·.placed true)
  plain : ∀ i ∈ x.inst, i.machine.IsPlain

/-- Where a worker and its owner stand when the same session without a worker has come so far, and
how many more steps they take, talking to the outside apart. -/
inductive Stands (d : Dialogue Outcomes) (told : List (Except Error Json)) (t : Trace)
    (c : Channel) : Nat → Prop where
  | resized {name : String} {o : Options} {inst : Option Instance} {e : Dialogue Outcomes} :
    c.owner = .resized name o → c.thread = .idle inst → c.jobs = [] → c.outbox = [] →
    d.Reaches t e → e.Mirrors (Fits told .loaded) (work c.surroundings inst (.load name o)) →
    Stands d told t c 4
  | queued {goal : Goal} {inst : Option Instance} {job : Job} {e : Dialogue Outcomes} :
    c.owner = .expecting goal → c.thread = .idle inst → c.jobs = [job] → c.outbox = [] →
    d.Reaches t e → e.Mirrors (Fits told goal) (work c.surroundings inst job) →
    Stands d told t c 3
  | busy {goal : Goal} {w : Dialogue Finished} {e : Dialogue Outcomes} :
    c.owner = .expecting goal → c.thread = .busy w → c.jobs = [] → c.outbox = [] →
    d.Reaches t e → e.Mirrors (Fits told goal) w → Stands d told t c 2
  | finished {goal : Goal} {f : Finished} {x : Outcomes} :
    c.owner = .expecting goal → c.thread = .idle f.inst → c.jobs = [] → c.outbox = [f.message] →
    d.Ends t x → Fits told goal x f → Stands d told t c 1
  | free {outcome : Except Error Json} {x : Outcomes} :
    c.owner = .free outcome → c.thread = .idle (x.inst.map (·.placed true)) → c.jobs = [] →
    c.outbox = [] → d.Ends t x → x.told = told ++ [outcome] → (∀ i ∈ x.inst, i.machine.IsPlain) →
    Stands d told t c 0

theorem carryOutOn_mirrors {inst : Option Instance} (hplain : ∀ i ∈ inst, i.machine.IsPlain)
    (op : Operation) : (carryOutOn inst op.action).Mirrors
      (fun x y => y = (x.1, x.2.map (·.placed true)) ∧ ∀ i ∈ x.2, i.machine.IsPlain)
      (carryOutOn (inst.map (·.placed true)) op.action) := by
  cases inst with
  | none => exact .done ⟨rfl, by rintro _ ⟨⟩⟩
  | some i =>
    have hi := hplain i rfl
    have hacts : i.machine.ActsAlike op.action := by
      cases op with
      | call name args => exact i.machine.actsAlike_call name args
      | callWithString name arg args => exact i.machine.actsAlike_callWithString name arg args
    refine (i.act_mirrors hi hacts).bind ?_
    rintro ⟨outcome, i⟩ _ ⟨rfl, hi⟩
    exact .done ⟨rfl, by rintro _ ⟨⟩; exact hi⟩

/-- What a worker does to load a module fits to loading it without a worker. -/
theorem load_fits (s : Surroundings) (name : String) (o : Options) :
    (session s name o []).Mirrors (Fits [] .loaded) (work s none (.load name o)) := by
  refine (load_mirrors s name o).bind ?_
  rintro _ _ (e | ⟨hi⟩)
  · exact .done ⟨⟨_, rfl, fun _ => rfl⟩, rfl, by rintro _ ⟨⟩⟩
  · refine .done ⟨⟨_, rfl, fun _ => rfl⟩, rfl, ?_⟩
    rintro _ ⟨⟩
    exact hi

/-- What a worker does for a call fits to the call without a worker. -/
theorem next_fits (s : Surroundings) {x : Outcomes} (hplain : ∀ i ∈ x.inst, i.machine.IsPlain)
    (op : Operation) (id : UInt64) : (x.next op).Mirrors (Fits x.told (.reply id))
      (work s (x.inst.map (·.placed true)) (op.job id)) := by
  rw [op.work_job]
  refine (carryOutOn_mirrors hplain op).bind ?_
  rintro ⟨output, inst⟩ _ ⟨rfl, hinst⟩
  refine .done ⟨⟨relayed output, ?_, fun c => ?_⟩, rfl, hinst⟩
  · simp [Outcomes.told]
  · simp [receive]

variable {d : Dialogue Outcomes} {told : List (Except Error Json)} {t : Trace} {c c' : Channel}
  {k : Mark} {left : Nat}

theorem not_works_of_idle {inst : Option Instance} (hthread : c.thread = .idle inst)
    (hjobs : c.jobs = []) : ¬ c.Works k c' := by
  intro h
  cases h with
  | begin _ hjob => cases hjobs.symm.trans hjob
  | finish h | armToSleep h | armToRead h | talk _ _ h | post h | look h | wake h | doze h
    | take h =>
    cases hthread.symm.trans h

/-- A step brings a session nearer to its end, unless it only talks to the outside. -/
inductive Advances (t : Trace) : Mark → Nat → Trace → Nat → Prop where
  | onward {k : Mark} {left : Nat} : k.exchange? = none → Advances t k (left + 1) t left
  | talked (x : Exchange) {left : Nat} : Advances t (.talked x) left (t ++ [x]) left

theorem Advances.concat {ks : List Mark} {t : Trace} {left' : Nat}
    (h : Advances (exchanges ks) k left t left') :
    exchanges (ks ++ [k]) = t ∧ left + t.length = left' + 1 + (exchanges ks).length := by
  cases h with
  | onward hnone => exact ⟨exchanges_of_exchange?_eq_none ks hnone, rfl⟩
  | talked x =>
    refine ⟨exchanges_concat ks _, ?_⟩
    rw [List.length_append, List.length_singleton]
    omega

theorem Stands.works (h : Stands d told t c left) (hstep : c.Works k c') :
    d.Waits t ∨ ∃ t' left', Advances t k left t' left' ∧ Stands d told t' c' left' := by
  cases h with
  | resized _ hthread hjobs | finished _ hthread hjobs | free _ hthread hjobs =>
    exact absurd hstep (not_works_of_idle hthread hjobs)
  | queued howner hthread hjobs hbox hreaches hmirrors =>
    cases hstep with
    | begin hidle hqueue =>
      cases hthread.symm.trans hidle
      cases hjobs.symm.trans hqueue
      exact .inr ⟨t, 2, .onward rfl, .busy howner rfl rfl hbox hreaches hmirrors⟩
    | finish h | armToSleep h | armToRead h | talk _ _ h | post h | look h | wake h | doze h
      | take h => cases hthread.symm.trans h
  | busy howner hthread hjobs hbox hreaches hmirrors =>
    -- Either the worker does what is done without it, or the guest has come to wait.
    have hwaits {r : Request} {next : r.Answer → Dialogue Outcomes} (hr : r.waits = true)
        (h : d.Reaches t (.ask r next)) : d.Waits t := ⟨t, r, next, List.prefix_rfl, hr, h⟩
    cases hstep with
    | finish hbusy =>
      cases hthread.symm.trans hbusy
      cases hmirrors with
      | done hfits =>
        have hends := hreaches.ends (.done _)
        rw [List.append_nil] at hends
        exact .inr ⟨t, 1, .onward rfl, .finished howner rfl hjobs (by simp [hbox]) hends hfits⟩
      | waits hr => exact .inl (hwaits hr hreaches)
    | talk answer _ hbusy =>
      cases hthread.symm.trans hbusy
      cases hmirrors with
      | ask _ hnext =>
        exact .inr ⟨_, 2, .talked _,
          .busy howner rfl hjobs hbox (hreaches.answer answer) (hnext answer)⟩
      | waits hr => exact .inl (hwaits hr hreaches)
    | armToSleep hbusy | armToRead hbusy =>
      cases hthread.symm.trans hbusy
      cases hmirrors with
      | ask hr => cases hr
      | waits hr => exact .inl (hwaits hr hreaches)
    | begin h | post h | look h | wake h | doze h | take h =>
      cases hthread.symm.trans h

theorem Stands.serves (h : Stands d told t c left) (hstep : c.Serves k c') :
    ∃ left', Advances t k left t left' ∧ Stands d told t c' left' := by
  cases hstep with
  | send howner =>
    cases h with
    | resized ho hthread hjobs hbox hreaches hmirrors =>
      cases howner.symm.trans ho
      exact ⟨3, .onward rfl, .queued rfl hthread (by simp [hjobs]) hbox hreaches hmirrors⟩
    | queued ho | busy ho | finished ho | free ho => cases howner.symm.trans ho
  | receive howner hfull =>
    cases h with
    | queued _ _ _ hbox | busy _ _ _ hbox => cases hbox.symm.trans hfull
    | finished ho hthread hjobs hbox hends hfits =>
      cases howner.symm.trans ho
      cases hbox.symm.trans hfull
      obtain ⟨⟨outcome, htold, hreceive⟩, hinst, hplain⟩ := hfits
      rw [hreceive]
      exact ⟨0, .onward rfl, .free rfl (hinst ▸ hthread) hjobs rfl hends htold hplain⟩
    | resized ho | free ho => cases howner.symm.trans ho
  | sleep howner | read _ howner | refuse howner | store howner | call howner =>
    cases h with
    | resized ho | queued ho | busy ho | finished ho | free ho =>
      cases howner.symm.trans ho

theorem Stands.not_asleep (h : Stands d told t c left) (resume : List UInt8 → Dialogue Finished) :
    c.thread ≠ .posted .asleep resume := by
  cases h with
  | resized _ hthread | queued _ hthread | busy _ hthread | finished _ hthread | free _ hthread =>
    rw [hthread]
    exact nofun

theorem Stands.next (h : Stands d told t c left) {outcome : Except Error Json}
    (howner : c.owner = .free outcome) (op : Operation) : left = 0 ∧
      Stands (d.bind (·.next op)) (told ++ [outcome]) t (c.requestCall op.job) 3 := by
  cases h with
  | free ho hthread hjobs hbox hends htold hplain =>
    cases howner.symm.trans ho
    have hfits := next_fits c.surroundings hplain op (c.lastId + 1)
    rw [htold] at hfits
    refine ⟨rfl, .queued rfl hthread ?_ hbox (hends.reaches.bind _) hfits⟩
    simp [requestCall, hjobs]
  | resized ho | queued ho | busy ho | finished ho => cases howner.symm.trans ho

/-- How many steps a session takes, talking to the outside apart. Loading takes one more than an
operation, since the buffer gets its new size first. -/
def stepsFor (ops : List Operation) : Nat := 5 + 4 * ops.length

/-- How far a session has come: it is where the same session without a worker is, or the guest has
come to wait. -/
def Follows (d : Dialogue Outcomes) (steps : Nat) (told : List (Except Error Json))
    (ks : List Mark) (c : Channel) : Prop :=
  d.Waits (exchanges ks) ∨ ∃ left, Stands d told (exchanges ks) c left ∧
    ks.length + left = steps + (exchanges ks).length

theorem Follows.step {ks : List Mark} {steps : Nat} (h : Follows d steps told ks c)
    (hstep : ∀ left, Stands d told (exchanges ks) c left → d.Waits (exchanges ks) ∨
      ∃ t left', Advances (exchanges ks) k left t left' ∧ Stands d told t c' left') :
    Follows d steps told (ks ++ [k]) c' := by
  have hlater (hwaits : d.Waits (exchanges ks)) : d.Waits (exchanges (ks ++ [k])) := by
    rw [exchanges_concat]
    exact hwaits.later (List.prefix_append ..)
  obtain hwaits | ⟨left, hstands, hsteps⟩ := h
  · exact .inl (hlater hwaits)
  · obtain hwaits | ⟨t, left', hk, hstands'⟩ := hstep left hstands
    · exact .inl (hlater hwaits)
    · obtain ⟨rfl, hleft⟩ := hk.concat
      refine .inr ⟨left', hstands', ?_⟩
      rw [List.length_append, List.length_singleton]
      omega

theorem Session.follows {s : Surroundings} {name : String} {o : Options} {ops : List Operation}
    {told : List (Except Error Json)} {ks : List Mark} {c : Channel}
    (h : Session s name o ops told ks c) :
    Follows (session s name o ops) (stepsFor ops) told ks c := by
  induction h with
  | load => exact .inr ⟨4, .resized rfl rfl rfl rfl (.refl _) (load_fits s name o), rfl⟩
  | works _ hstep ih => exact ih.step fun _ hstands => hstands.works hstep
  | serves _ hstep ih => exact ih.step fun _ hstands => .inr ⟨_, hstands.serves hstep⟩
  | stir _ hthread ih =>
    exact ih.step fun _ hstands => absurd hthread (hstands.not_asleep _)
  | @next ops _ ks c _ op _ howner ih =>
    have hsame := exchanges_of_exchange?_eq_none ks (k := .sent (op.job (c.lastId + 1))) rfl
    rw [session_concat]
    obtain hwaits | ⟨left, hstands, hsteps⟩ := ih
    · exact .inl (hsame ▸ hwaits.bind _)
    · obtain ⟨rfl, hstands'⟩ := hstands.next howner op
      refine .inr ⟨3, hsame ▸ hstands', ?_⟩
      rw [hsame, List.length_append, List.length_singleton, stepsFor, List.length_append,
        List.length_singleton]
      rw [stepsFor] at hsteps
      omega

/-- A session without a worker that does not wait leads the one on a worker on: unless the owner has
been told the last outcome, one of both takes a step. -/
theorem Stands.progress {t' : Trace} {x : Outcomes} (h : Stands d told t c left)
    (hends : d.Ends (t ++ t') x) (hcalm : ∀ x ∈ t ++ t', x.request.waits = false) :
    (∃ outcome, c.owner = .free outcome) ∨ ∃ k c', (c.Works k c' ∨ c.Serves k c') ∧
      k.exchange?.toList <+: t' := by
  have hcalm' := hends.not_waits hcalm (List.prefix_append t t')
  cases h with
  | resized howner => exact .inr ⟨_, _, .inr (.send howner), List.nil_prefix⟩
  | queued _ hthread hjobs => exact .inr ⟨_, _, .inl (.begin hthread hjobs), List.nil_prefix⟩
  | busy _ hthread _ _ hreaches hmirrors =>
    have hrest := hreaches.exists_ends hends
    cases hmirrors with
    | done => exact .inr ⟨_, _, .inl (.finish hthread), List.nil_prefix⟩
    | diverged => cases hrest
    | ask hr =>
      obtain ⟨answer, t'', -, rfl⟩ := Dialogue.ends_ask.mp hrest
      exact .inr ⟨_, _, .inl (.talk answer hr hthread), ⟨t'', rfl⟩⟩
    | waits hr => exact absurd ⟨t, _, _, List.prefix_rfl, hr, hreaches⟩ hcalm'
  | finished howner _ _ hbox => exact .inr ⟨_, _, .inr (.receive howner hbox), List.nil_prefix⟩
  | free howner => exact .inl ⟨_, howner⟩

section

variable {s : Surroundings} {name : String} {o : Options} {ops : List Operation} {ks : List Mark}
  {x : Outcomes}

/-- With the answers of a session without a worker that does not wait, the one on a worker can go
on, and has no more than so many steps. -/
theorem Session.goes_on (h : Session s name o ops told ks c)
    (hends : (session s name o ops).Ends t x)
    (hcalm : ∀ x ∈ t, x.request.waits = false) (hpre : exchanges ks <+: t) :
    ks.length ≤ stepsFor ops + t.length ∧ ((∃ outcome, c.owner = .free outcome) ∨
      ∃ k c', (c.Works k c' ∨ c.Serves k c') ∧ exchanges (ks ++ [k]) <+: t) := by
  obtain hwaits | ⟨left, hstands, hsteps⟩ := h.follows
  · exact absurd hwaits (hends.not_waits hcalm hpre)
  · obtain ⟨t', rfl⟩ := hpre
    refine ⟨by rw [List.length_append]; omega, (hstands.progress hends hcalm).imp_right ?_⟩
    rintro ⟨k, c', hstep, hk⟩
    refine ⟨k, c', hstep, ?_⟩
    rw [exchanges_concat]
    exact (List.prefix_append_right_inj _).mpr hk

theorem Session.told_eq (h : Session s name o ops told ks c)
    (hends : (session s name o ops).Ends t x) (hcalm : ∀ x ∈ t, x.request.waits = false)
    (hpre : exchanges ks <+: t) {outcome : Except Error Json}
    (howner : c.owner = .free outcome) : exchanges ks = t ∧ told ++ [outcome] = x.told := by
  obtain hwaits | ⟨left, hstands, -⟩ := h.follows
  · exact absurd hwaits (hends.not_waits hcalm hpre)
  · cases hstands with
    | free ho _ _ _ hown htold =>
      cases howner.symm.trans ho
      obtain ⟨t', rfl⟩ := hpre
      obtain ⟨rfl, rfl⟩ := Dialogue.ends_done.mp (hown.reaches.exists_ends hends)
      exact ⟨(List.append_nil _).symm, htold.symm⟩
    | resized ho | queued ho | busy ho | finished ho => cases howner.symm.trans ho

/-- A session that goes on comes to its end. -/
theorem Session.exists_end (h : Session s name o ops told ks c)
    (hends : (session s name o ops).Ends t x) (hcalm : ∀ x ∈ t, x.request.waits = false)
    (hpre : exchanges ks <+: t) : ∃ ks' c' outcome, Session s name o ops told ks' c' ∧
      exchanges ks' = t ∧ c'.owner = .free outcome ∧ told ++ [outcome] = x.told := by
  -- Of the steps that it may have in all, one less is left after each.
  induction hleft : stepsFor ops + t.length - ks.length using Nat.strongRecOn generalizing ks c with
  | ind left ih =>
    obtain ⟨-, ⟨outcome, howner⟩ | ⟨k, c', hstep, hk⟩⟩ := h.goes_on hends hcalm hpre
    · obtain ⟨rfl, htold⟩ := h.told_eq hends hcalm hpre howner
      exact ⟨ks, c, outcome, h, rfl, howner, htold⟩
    · have hnext := hstep.elim h.works h.serves
      have hsteps := (hnext.goes_on hends hcalm hk).1
      refine ih _ ?_ hnext hk rfl
      rw [List.length_append, List.length_singleton] at hsteps ⊢
      omega

theorem exists_session (hends : (session s name o ops).Ends t x)
    (hcalm : ∀ x ∈ t, x.request.waits = false) : ∃ told ks c outcome,
      Session s name o ops told ks c ∧ exchanges ks = t ∧ c.owner = .free outcome ∧
        told ++ [outcome] = x.told := by
  induction ops using List.reverseRecOn generalizing t x with
  | nil =>
    exact ⟨[], (Session.load).exists_end hends hcalm List.nil_prefix⟩
  | append_singleton ops op ih =>
    rw [session_concat] at hends
    obtain ⟨t₁, x₁, t₂, hbefore, -, rfl⟩ := Dialogue.ends_bind.mp hends
    obtain ⟨told, ks, c, outcome, h, rfl, howner, -⟩ :=
      ih hbefore fun x hx => hcalm x (List.mem_append_left _ hx)
    rw [← session_concat] at hends
    have hsame := exchanges_of_exchange?_eq_none ks (k := .sent (op.job (c.lastId + 1))) rfl
    refine ⟨_, (h.next op howner).exists_end hends hcalm ?_⟩
    rw [hsame]
    exact List.prefix_append ..

end

/-- Loading a module on a new worker and giving operations, compared to the same without a worker
and with the same answers from outside. -/
structure Refines (s : Surroundings) (name : String) (o : Options) (ops : List Operation) :
    Prop where
  /-- Whatever turns both sides took: unless the guest has come to wait, the owner has been told
  what comes out without a worker, and the worker is at rest, with the same instance. -/
  told (told : List (Except Error Json)) (ks : List Mark) (c : Channel)
    (outcome : Except Error Json) :
    Session s name o ops told ks c → c.owner = .free outcome →
      (session s name o ops).Waits (exchanges ks) ∨
        ∃ x, (session s name o ops).Ends (exchanges ks) x ∧ told ++ [outcome] = x.told ∧
          c.thread = .idle (x.inst.map (·.placed true)) ∧ c.jobs = [] ∧ c.outbox = []
  /-- What comes out without a worker and without waiting is told. -/
  reached (t : Trace) (x : Outcomes) : (session s name o ops).Ends t x →
    (∀ e ∈ t, e.request.waits = false) → ∃ told ks c outcome,
      Session s name o ops told ks c ∧ exchanges ks = t ∧ c.owner = .free outcome ∧
        told ++ [outcome] = x.told
  /-- And however both sides go about it, they neither stop before nor go on forever. -/
  returns (t : Trace) (x : Outcomes) : (session s name o ops).Ends t x →
    (∀ e ∈ t, e.request.waits = false) → ∀ told ks c, Session s name o ops told ks c →
      exchanges ks <+: t → ks.length ≤ stepsFor ops + t.length ∧
        ((∃ outcome, c.owner = .free outcome) ∨
          ∃ k c', (c.Works k c' ∨ c.Serves k c') ∧ exchanges (ks ++ [k]) <+: t)

/-- For every module, all options and all operations, loading and calling on a worker comes to the
same as without one. -/
theorem worker_refines (s : Surroundings) (name : String) (o : Options) (ops : List Operation) :
    Refines s name o ops where
  told told ks c outcome h howner := by
    refine h.follows.imp_right ?_
    rintro ⟨left, hstands, -⟩
    cases hstands with
    | free ho hthread hjobs hbox hends htold =>
      cases howner.symm.trans ho
      exact ⟨_, hends, htold.symm, hthread, hjobs, hbox⟩
    | resized ho | queued ho | busy ho | finished ho => cases howner.symm.trans ho
  reached _ _ := exists_session
  returns _ _ hends hcalm _ _ _ h := h.goes_on hends hcalm

def oneOrTrap : Module :=
  { inputReader with
    imports := #[]
    funcs := #[⟨⟨[], [.i32]⟩, [], [.apply (.const (.i32 1)) []]⟩,
      ⟨⟨[], [.i32]⟩, [], [.apply .unreachable []]⟩]
    exports := [("one", 0), ("trap", 1)] }

/-- A call that fails between two that do not. -/
theorem worker_refines_failing : ∃ (x : Outcomes) (told : List (Except Error Json)) (ks : List Mark)
    (c : Channel) (outcome : Except Error Json),
      x.outputs.map (·.toOption.bind Json.toInt64?) = [some 1, none, some 1] ∧
      Session ⟨fun _ => some oneOrTrap, fun _ => true⟩ "calls" { config := .standard }
        [.call "one" [], .call "trap" [], .call "one" []] told ks c ∧
      c.owner = .free outcome ∧ told ++ [outcome] = x.told := by
  have h : ((session ⟨fun _ => some oneOrTrap, fun _ => true⟩ "calls" { config := .standard }
      [.call "one" [], .call "trap" [], .call "one" []]).value?.any fun x =>
        x.outputs.map (·.toOption.bind Json.toInt64?) = [some 1, none, some 1]) = true := by
    decide +kernel
  obtain ⟨x, hx, hout⟩ := (Option.any_eq_true _ _).mp h
  obtain ⟨told, ks, c, outcome, hsession, -, howner, htold⟩ :=
    (worker_refines _ _ _ _).reached [] x (Dialogue.ends_of_value? hx) nofun
  exact ⟨x, told, ks, c, outcome, of_decide_eq_true hout, hsession, howner, htold⟩

end Channel

end Worker

end SandboxHost
