import SandboxHost.Proofs.Correlation

namespace SandboxHost.Worker

def loadOutcome {α : Type} : Except Error α → Except Error Json
  | .ok _ => .ok .null
  | .error e => .error (.workerInit e.message)

/-- How an owner that has asked for a module takes a result, of this load or of another job. -/
def Result.asLoad : Result → Except Error Json
  | (.load _ _, own) => loadOutcome own
  | (.call _ _ id, _) | (.callWithString _ _ _ id, _) => .error (.protocol (.replyDuringInit id))

/-- What came out of the last operation if it was a load. -/
def Owner.Told (last : Option Job) (received : List Result) : Owner → Prop
  | .free outcome => ∀ name o, last = some (.load name o) →
    (∃ text, outcome = .error (.io text)) ∨
      ∃ earlier r, received = earlier ++ [r] ∧ outcome = r.asLoad
  | _ => True

/-- How many results an owner still has to receive, if it gives nothing up. -/
def Owner.due (o : Owner) : Nat := if o.isElsewhere then 0 else 1

theorem Receives.messages {received received' : List Result} {k : Mark}
    (h : Receives received k received') :
    received'.map Result.message = received.map Result.message ++ [k].filterMap Mark.final? := by
  cases h with
  | none hk => simp [hk]
  | one r => simp [Mark.final?, Result.message, r.1.final_not_asks r.2]

namespace Channel

/-- An operation has ended with a failed read before. -/
def GaveUp (s : Surroundings) (ks : List Mark) (c : Channel) : Prop :=
  ∃ ks₁ ks₂ c₁ text, ks = ks₁ ++ ks₂ ∧ Run (spawn s) ks₁ c₁ ∧ Run c₁ ks₂ c ∧
    c₁.owner = .free (.error (.io text))

theorem GaveUp.step {s : Surroundings} {ks : List Mark} {k : Mark} {c c' : Channel}
    (h : GaveUp s ks c) (hstep : c.Step k c') : GaveUp s (ks ++ [k]) c' := by
  obtain ⟨ks₁, ks₂, c₁, text, rfl, hbefore, hafter, hfailed⟩ := h
  exact ⟨ks₁, ks₂ ++ [k], c₁, text, List.append_assoc .., hbefore, hafter.concat hstep, hfailed⟩

theorem receive_loaded (c : Channel) (r : Result) :
    c.receive .loaded r.message = c.finish r.asLoad := by
  obtain ⟨job, own⟩ := r
  cases job with
  | load => cases own <;> rfl
  | call | callWithString => cases own <;> rfl

theorem receive_own {c : Channel} {goal : Goal} {r : Result} (hgoal : goal.IsOf (some r.1)) :
    (c.receive goal r.message).owner.due = 0 := by
  obtain ⟨job, own⟩ := r
  cases goal with
  | loaded =>
    rw [receive_loaded]
    rfl
  | reply id =>
    have hid : job.id? = some id := hgoal
    cases job with
    | load => cases hid
    | call | callWithString =>
      cases hid
      simp only [Result.message, Job.final, receive, Reply.id_ofOutcome, if_true]
      rfl

theorem receive_asks_due {c : Channel} {goal : Goal} {m : Message} (hm : m.asks = true) :
    (c.receive goal m).owner.due = 1 := by
  cases m with
  | reply r => cases hm
  | notice n =>
    rw [receive_of_asks hm]
    rfl

theorem Standing.asks {c : Channel} {opened : List Mark} {goal : Goal} {n : Notice}
    (hs : c.Standing opened) (howner : c.owner = .serving goal n) : n.asks = true := by
  cases hs with
  | received _ hn _ ho =>
    cases howner.symm.trans ho
    exact hn
  | apart _ _ ho | armed _ _ _ ho | posted _ _ _ ho | stored _ _ ho | woken _ _ ho =>
    simp [howner, Owner.isAnswering] at ho
  | filled _ _ ho => cases howner.symm.trans ho

/-- What an owner has been told, and what it has not received yet. -/
structure Attended (s : Surroundings) (ks : List Mark) (c : Channel) (received : List Result) :
    Prop where
  told : c.owner.Told (sentJobs ks).getLast? received
  due_eq : GaveUp s ks c ∨ received.length + c.owner.due = (sentJobs ks).length

theorem Attended.same {s : Surroundings} {ks : List Mark} {k : Mark} {c c' : Channel}
    {received : List Result} (ha : Attended s ks c received) (hstep : c.Step k c')
    (hsent : k.sent? = none) (hdue : c'.owner.due = c.owner.due)
    (htold : c'.owner.Told (sentJobs ks).getLast? received) :
    Attended s (ks ++ [k]) c' received := by
  have hjobs := sentJobs_of_sent?_eq_none ks hsent
  refine ⟨by rwa [hjobs], ?_⟩
  rw [hjobs, hdue]
  exact ha.due_eq.imp_left (·.step hstep)

theorem Attended.sent {s : Surroundings} {ks : List Mark} {c c' : Channel} {job : Job}
    {received : List Result} (ha : Attended s ks c received) (hstep : c.Step (.sent job) c')
    (hbefore : c.owner.due = 0) {goal : Goal} (hafter : c'.owner = .expecting goal) :
    Attended s (ks ++ [.sent job]) c' received := by
  refine ⟨by rw [hafter]; trivial, ha.due_eq.imp (·.step hstep) fun hdue => ?_⟩
  rw [sentJobs_concat, List.length_append, ← hdue, hafter, hbefore]
  rfl

/-- When every job has had its result received, nothing of them is left. -/
theorem Tracked.nothing_open {ks : List Mark} {c : Channel} {received waiting : List Result}
    {current : Option Job} (ht : Tracked ks c received waiting current)
    (hlength : received.length = (sentJobs ks).length) :
    waiting = [] ∧ current = none ∧ c.jobs = [] ∧ sentJobs ks = received.map Prod.fst := by
  have hsent := ht.progress.sent_eq
  have hcount := congrArg List.length hsent
  simp only [List.length_append, List.length_map] at hcount
  have hwaiting : waiting = [] := List.length_eq_zero_iff.mp (by omega)
  have hcurrent : current.toList = [] := List.length_eq_zero_iff.mp (by omega)
  have hjobs : c.jobs = [] := List.length_eq_zero_iff.mp (by omega)
  rw [hwaiting, hcurrent, hjobs, List.append_nil, List.append_nil, List.append_nil] at hsent
  exact ⟨hwaiting, Option.toList_eq_nil_iff.mp hcurrent, hjobs, hsent⟩

theorem Attended.receive {s : Surroundings} {ks : List Mark} {c : Channel} {goal : Goal}
    {m : Message} {rest : List Message} {received received' waiting' : List Result}
    {current' : Option Job} (ha : Attended s ks c received) (howner : c.owner = .expecting goal)
    (hbox : c.outbox = m :: rest) (hgoal : goal.IsOf (sentJobs ks).getLast?)
    (ht : Tracked (ks ++ [.received m]) ({ c with outbox := rest }.receive goal m) received'
      waiting' current')
    (hreceives : Receives received (.received m) received') :
    Attended s (ks ++ [.received m]) ({ c with outbox := rest }.receive goal m) received' := by
  have hstep : c.Step (.received m) _ := .owner (.receive howner hbox)
  have hjobs : sentJobs (ks ++ [.received m]) = sentJobs ks := sentJobs_of_sent?_eq_none ks rfl
  have hdue : c.owner.due = 1 := by rw [howner]; rfl
  cases hreceives with
  | none hm =>
    have hasks : m.asks = true := by
      cases hasks : m.asks with
      | true => rfl
      | false => simp [Mark.final?, hasks] at hm
    refine ha.same hstep rfl (by rw [receive_asks_due hasks, hdue]) ?_
    cases m with
    | reply r => cases hasks
    | notice n =>
      rw [receive_of_asks hasks]
      trivial
  | one r =>
    refine ⟨?_, ha.due_eq.imp (·.step hstep) fun hlength => ?_⟩
    · cases goal with
      | loaded =>
        rw [receive_loaded]
        exact fun _ _ _ => .inr ⟨received, r, rfl, rfl⟩
      | reply id =>
        rw [hjobs]
        cases howner' : ({ c with outbox := rest }.receive (.reply id) r.message).owner with
        | free outcome =>
          intro name o hlast
          rw [hlast] at hgoal
          cases hgoal
        | _ => trivial
    -- Every job before the last has been answered, so this is the answer to the last.
    · rw [hdue, ← hjobs, ← List.length_singleton, ← List.length_append] at hlength
      obtain ⟨-, -, -, hsent⟩ := ht.nothing_open hlength
      rw [← hjobs, hsent, List.map_append, List.map_singleton, List.getLast?_concat] at hgoal
      rw [receive_own hgoal]
      exact hlength

theorem Attended.serves {s : Surroundings} {ks : List Mark} {k : Mark} {c c' : Channel}
    {received received' waiting waiting' : List Result} {current current' : Option Job}
    {opened : List Mark} (ha : Attended s ks c received) (hrun : Run (spawn s) ks c)
    (hstanding : c.Standing opened) (ht : Tracked ks c received waiting current)
    (ht' : Tracked (ks ++ [k]) c' received' waiting' current')
    (hreceives : Receives received k received') (h : c.Serves k c') :
    Attended s (ks ++ [k]) c' received' := by
  have hstep : c.Step k c' := .owner h
  have hfollows := ht.owner
  cases h with
  | send howner =>
    cases hreceives
    exact ha.sent hstep (by rw [howner]; rfl) rfl
  | receive howner hbox =>
    rw [howner] at hfollows
    exact ha.receive howner hbox hfollows ht' hreceives
  | refuse howner => exact absurd (hstanding.asks howner) nofun
  | sleep howner =>
    cases hreceives
    exact ha.same hstep rfl (by rw [howner]; rfl) trivial
  | read answer howner =>
    cases hreceives
    cases answer <;> exact ha.same hstep rfl (by rw [howner]; rfl) trivial
  | store howner =>
    cases hreceives
    exact ha.same hstep rfl (by rw [howner]; rfl) trivial
  | @call goal failure howner =>
    cases hreceives
    cases failure with
    | none => exact ha.same hstep rfl (by rw [howner]; rfl) trivial
    | some text =>
      exact ⟨fun _ _ _ => .inl ⟨text, rfl⟩,
        .inl ⟨ks ++ [.called], [], _, text, (List.append_nil _).symm, hrun.concat hstep, .nil, rfl⟩⟩

theorem Attended.next {s : Surroundings} {ks : List Mark} {k : Mark} {c c' : Channel}
    {received received' waiting waiting' : List Result} {current current' : Option Job}
    {opened : List Mark} (ha : Attended s ks c received) (hrun : Run (spawn s) ks c)
    (hstanding : c.Standing opened) (ht : Tracked ks c received waiting current)
    (ht' : Tracked (ks ++ [k]) c' received' waiting' current')
    (hreceives : Receives received k received') (hstep : c.Step k c') :
    Attended s (ks ++ [k]) c' received' := by
  cases hstep with
  | worker h =>
    have hbeside : k.final? = none ∧ k.sent? = none ∧ c'.owner = c.owner := by
      cases h <;> exact ⟨rfl, rfl, rfl⟩
    obtain ⟨hfinal, hsent, howner⟩ := hbeside
    have hsame : received' = received := by
      cases hreceives with
      | none => rfl
      | one r => cases h
    subst hsame
    exact ha.same (.worker h) hsent (by rw [howner]) (howner ▸ ha.told)
  | owner h => exact ha.serves hrun hstanding ht ht' hreceives h
  | load name o howner =>
    cases hreceives
    exact ha.same (.load name o howner) rfl (by rw [howner]; rfl) trivial
  | call hjob howner =>
    cases hreceives
    exact ha.sent (.call hjob howner) (by rw [howner]; rfl) rfl
  | stir hthread =>
    cases hreceives
    exact ha.same (.stir hthread) rfl rfl ha.told

/-- After every run: what the owner has received, what is on the way, and what it has been told. -/
theorem run_attended {s : Surroundings} {ks : List Mark} {c : Channel} (h : Run (spawn s) ks c) :
    ∃ received waiting current, Tracked ks c received waiting current ∧
      Attended s ks c received ∧ ks.filterMap Mark.final? = received.map Result.message := by
  refine (h.preserves (P := fun ks c => Run (spawn s) ks c ∧ ∃ received waiting current,
    Tracked ks c received waiting current ∧ Attended s ks c received ∧
      ks.filterMap Mark.final? = received.map Result.message) ?_ ?_).2
  · exact ⟨.nil, [], [], none, tracked_spawn s, ⟨nofun, .inr rfl⟩, rfl⟩
  · rintro ks k c₁ c' ⟨hrun, received, waiting, current, ht, ha, hreceived⟩ hstep
    obtain ⟨_, _, -, hstanding⟩ := run_standing hrun
    obtain ⟨received', waiting', current', ht', hreceives⟩ := ht.next hstep
    refine ⟨hrun.concat hstep, received', waiting', current', ht',
      ha.next hrun hstanding ht ht' hreceives hstep, ?_⟩
    rw [List.filterMap_append, hreceived, hreceives.messages]

/-- Unless an operation has been given up before, a worker whose owner is at no operation has
nothing to do and waits for nothing. So an owner that drops it finds it at rest, and the buffer
changes its size only while the word is not pending. -/
theorem idle_between_operations (s : Surroundings) {ks : List Mark} {c : Channel}
    (h : Run (spawn s) ks c) (helsewhere : c.owner.isElsewhere = true) :
    GaveUp s ks c ∨ ((∃ inst, c.thread = .idle inst) ∧ c.jobs = [] ∧ c.outbox = [] ∧
      c.shared.isPending = false) := by
  obtain ⟨received, waiting, current, ht, ha, -⟩ := run_attended h
  obtain ⟨_, _, -, hstanding⟩ := run_standing h
  refine ha.due_eq.imp_right fun hdue => ?_
  rw [Owner.due, if_pos helsewhere, Nat.add_zero] at hdue
  obtain ⟨rfl, rfl, hjobs, -⟩ := ht.nothing_open hdue
  obtain ⟨inst, -, hidle⟩ := ht.progress.worked
  have hthread : c.thread = .idle inst := hidle
  obtain ⟨-, hpending, -, hquiet⟩ := hstanding.of_isApart (by rw [hthread]; rfl)
  have hbox : c.outbox = [] := by
    rw [← ht.outbox_eq.trans List.map_nil, eq_comm, List.filter_eq_self]
    exact fun m hm => by rw [hquiet m hm]; rfl
  exact ⟨⟨inst, hthread⟩, hjobs, hbox, hpending⟩

/-- A worker that has read three bytes for a call is at rest again. -/
theorem idle_between_operations_reading : ∃ ks c outcome,
    Run (spawn ⟨fun _ => some inputReader, fun _ => true⟩) ks c ∧ c.owner = .free outcome ∧
      outcome.toOption.bind Json.toInt64? = some 3 ∧
      (GaveUp ⟨fun _ => some inputReader, fun _ => true⟩ ks c ∨
        ((∃ inst, c.thread = .idle inst) ∧ c.jobs = [] ∧ c.outbox = [] ∧
          c.shared.isPending = false)) := by
  obtain ⟨ks, c, outcome, hrun, howner, hout, -⟩ := exists_reading_run
  exact ⟨ks, c, outcome, hrun, howner, hout,
    idle_between_operations _ hrun (by rw [howner]; rfl)⟩

theorem Run.surroundings {c c' : Channel} {ks : List Mark} (h : Run c ks c') :
    c'.surroundings = c.surroundings :=
  h.preserves (P := fun _ c' => c'.surroundings = c.surroundings) rfl
    fun _ _ _ _ hsame hstep => hstep.surroundings.trans hsame

/-- How a job came out is how the load came out. -/
theorem exists_load_of_worked {s : Surroundings} {done : List Result} {inst : Option Instance}
    {name : String} {o : Options} {own : Except Error Json}
    (h : Worked s (done ++ [(.load name o, own)]) inst) :
    ∃ t outcome, (load s name o).Ends t outcome ∧ loadOutcome own = loadOutcome outcome := by
  generalize hall : done ++ [(Job.load name o, own)] = all at h
  cases h with
  | nil => simp at hall
  | concat _ hout =>
    obtain ⟨-, hlast⟩ := List.append_inj' hall rfl
    cases hlast
    obtain ⟨t, outcome, _, hload, hend, -⟩ := Dialogue.ends_bind.mp hout
    refine ⟨t, outcome, hload, ?_⟩
    cases outcome <;> cases hend <;> rfl

/-- What an owner that asked for a module is told, if no read failed meanwhile: how the job came out
whose result it has received last, the oldest that was still on the way. Unless an operation has
been given up before, that job is this very load. -/
theorem load_told (s : Surroundings) {ks : List Mark} {c : Channel} {name : String} {o : Options}
    {outcome : Except Error Json} (h : Run (spawn s) ks c) (hfree : c.owner = .free outcome)
    (hlast : (sentJobs ks).getLast? = some (.load name o))
    (hread : ∀ text, outcome ≠ .error (.io text)) :
    ∃ earlier r later current, Progress ks c (earlier ++ r :: later) current ∧
      ks.filterMap Mark.final? = (earlier ++ [r]).map Result.message ∧ outcome = r.asLoad ∧
      (GaveUp s ks c ∨ (later = [] ∧ current = none ∧ c.jobs = [] ∧ r.1 = .load name o ∧
        ∃ t loaded, (load s name o).Ends t loaded ∧ outcome = loadOutcome loaded)) := by
  obtain ⟨received, waiting, current, ht, ha, hreceived⟩ := run_attended h
  have htold := ha.told
  rw [hfree] at htold
  obtain ⟨text, hfailed⟩ | ⟨earlier, r, rfl, rfl⟩ := htold name o hlast
  · exact absurd hfailed (hread text)
  have hprogress := ht.progress
  rw [List.append_assoc, List.singleton_append] at hprogress
  refine ⟨earlier, r, waiting, current, hprogress, hreceived, rfl,
    ha.due_eq.imp_right fun hdue => ?_⟩
  rw [hfree] at hdue
  obtain ⟨rfl, rfl, hjobs, hsent⟩ := ht.nothing_open hdue
  rw [hsent, List.map_append, List.map_singleton, List.getLast?_concat] at hlast
  obtain ⟨job, own⟩ := r
  cases hlast
  obtain ⟨inst, hworked, -⟩ := hprogress.worked
  rw [h.surroundings] at hworked
  exact ⟨rfl, rfl, hjobs, rfl, exists_load_of_worked hworked⟩

theorem run_of_work_eq_done {s : Surroundings} {name : String} {o : Options} {f : Finished}
    (h : work s none (.load name o) = .done f) : ∃ c, Run (spawn s)
      [.resized o.stdinBufferSize.toNat, .sent (.load name o), .began (.load name o),
        .finished f.message, .received f.message] c ∧
      c.owner = ((spawn s).receive .loaded f.message).owner := by
  have hbegan := (run_load_sent s name o).concat (.worker (.begin rfl rfl))
  have hfinished := hbegan.concat (.worker (.finish (congrArg Thread.busy h)))
  refine ⟨_, hfinished.concat (.owner (.receive rfl rfl)), ?_⟩
  generalize f.message = m
  cases m with
  | reply r => rfl
  | notice n =>
    cases n with
    | loaded status text => cases status <;> rfl
    | _ => rfl

/-- Whether a job asks for nothing and reports a load that succeeded. -/
def isLoaded : Dialogue Finished → Bool
  | .done ⟨.notice (.loaded .ok none), _⟩ => true
  | _ => false

theorem exists_of_isLoaded {d : Dialogue Finished} (h : isLoaded d = true) :
    ∃ inst, d = .done ⟨.notice (.loaded .ok none), inst⟩ := by
  unfold isLoaded at h
  split at h
  · exact ⟨_, rfl⟩
  · cases h

/-- A first load that succeeds is told as such. -/
theorem load_told_first : ∃ ks c,
    Run (spawn ⟨fun _ => some inputReader, fun _ => true⟩) ks c ∧ c.owner = .free (.ok .null) ∧
      (sentJobs ks).getLast? = some (.load "reader" { config := .standard }) ∧
      ∃ earlier r later current, Progress ks c (earlier ++ r :: later) current ∧
        ks.filterMap Mark.final? = (earlier ++ [r]).map Result.message ∧ .ok .null = r.asLoad ∧
        (GaveUp ⟨fun _ => some inputReader, fun _ => true⟩ ks c ∨ (later = [] ∧ current = none ∧
          c.jobs = [] ∧ r.1 = .load "reader" { config := .standard } ∧
          ∃ t loaded, (load ⟨fun _ => some inputReader, fun _ => true⟩ "reader"
            { config := .standard }).Ends t loaded ∧ .ok .null = loadOutcome loaded)) := by
  have h : isLoaded (work ⟨fun _ => some inputReader, fun _ => true⟩ none
      (.load "reader" { config := .standard })) = true := by
    decide +kernel
  obtain ⟨inst, hwork⟩ := exists_of_isLoaded h
  obtain ⟨c, hrun, howner⟩ := run_of_work_eq_done hwork
  exact ⟨_, c, hrun, howner, rfl, load_told _ hrun howner rfl nofun⟩

/-- A module that reads input twice before it gives its table of constants, which is empty. -/
def eagerReader : Module :=
  let read : Instr :=
    .apply .drop [.call 0 [.apply (.const (.i32 8)) [], .apply (.const (.i32 3)) []]]
  { inputReader with
    data := [(16, "\x7b\"names\":[],\"values\":[]\x7d".toUTF8.toList)]
    funcs := #[⟨⟨[], [.i32]⟩, [], [read, read, .apply (.const (.i32 16)) []]⟩]
    exports := [(Guest.constantsExport, 1)] }

def eagerSurroundings : Surroundings where
  module? name := if name = "reader" then some eagerReader else none
  directoryExists _ := true

def workOn : Nat → Channel → Dialogue Channel
  | 0, c => .done c
  | patience + 1, c =>
    match c.threadMove with
    | .stuck => .done c
    | .to c => workOn patience c
    | .ask r next => .ask r fun a => workOn patience (next a)

theorem workOn_runs {patience : Nat} {c c' : Channel} {t : Trace}
    (h : (workOn patience c).Ends t c') : (∃ ks, Run c ks c') ∧ c'.owner = c.owner := by
  have hgoes {c₁ c₂ : Channel} (hmove : c₁.threadMove.Leads c₂)
      (hrest : (∃ ks, Run c₂ ks c') ∧ c'.owner = c₂.owner) :
      (∃ ks, Run c₁ ks c') ∧ c'.owner = c₁.owner := by
    obtain ⟨k, hk⟩ := exists_works_of_leads hmove
    have howner : c₂.owner = c₁.owner := by cases hk <;> rfl
    obtain ⟨⟨ks, hks⟩, hsame⟩ := hrest
    exact ⟨⟨_, (Step.worker hk).run.trans hks⟩, hsame.trans howner⟩
  induction patience generalizing c t with
  | zero =>
    obtain ⟨-, rfl⟩ := Dialogue.ends_done.mp h
    exact ⟨⟨[], .nil⟩, rfl⟩
  | succ patience ih =>
    rw [workOn] at h
    split at h
    · obtain ⟨-, rfl⟩ := Dialogue.ends_done.mp h
      exact ⟨⟨[], .nil⟩, rfl⟩
    · next hmove => exact hgoes (hmove ▸ .to _) (ih h)
    · next hmove =>
      obtain ⟨answer, t', h, -⟩ := Dialogue.ends_ask.mp h
      exact hgoes (hmove ▸ .ask answer) (ih h)

def giveUp : Dialogue Channel :=
  ((spawn eagerSurroundings).loadModule "reader"
    { config := .standard, stdinBufferSize := 1 }).bind fun x => workOn 20 x.2

def oneByteFails : (r : Request) → r.Answer
  | .readOwner 1 => .error "closed"
  | r => r.unsupported

theorem giveUp_runs {c : Channel} {t : Trace} (h : giveUp.Ends t c) :
    (∃ ks, Run (spawn eagerSurroundings) ks c) ∧ ∃ outcome, c.owner = .free outcome := by
  obtain ⟨_, ⟨outcome, c₁⟩, _, hload, hwork, -⟩ := Dialogue.ends_bind.mp h
  obtain ⟨⟨ks, hrun⟩, hfree⟩ := loadModule_runs rfl hload
  obtain ⟨⟨ks', hrun'⟩, howner⟩ := workOn_runs hwork
  exact ⟨⟨_, hrun.trans hrun'⟩, outcome, howner.trans hfree⟩

/-- Whether the worker sleeps over a pending word. -/
def isStranded (c : Channel) : Bool :=
  match c.thread with
  | .posted .asleep _ => c.shared.isPending
  | _ => false

/-- A worker may be left asleep over a pending word: the module reads once more after the read that
its owner gave up at. -/
theorem exists_stranded : ∃ ks c outcome resume, Run (spawn eagerSurroundings) ks c ∧
    c.owner = .free outcome ∧ c.thread = .posted .asleep resume ∧ c.shared.isPending = true := by
  have h : (giveUp.answered oneByteFails).any isStranded = true := by decide +kernel
  obtain ⟨t, c, hends, hstranded⟩ := Dialogue.exists_ends_of_any_answered h
  obtain ⟨⟨ks, hrun⟩, outcome, hfree⟩ := giveUp_runs hends
  unfold isStranded at hstranded
  split at hstranded
  · next resume hthread => exact ⟨ks, c, outcome, resume, hrun, hfree, hthread, hstranded⟩
  · cases hstranded

def isToldLoaded : Except Error Json → Bool
  | .ok .null => true
  | _ => false

/-- The notice of a load that was given up is taken for the next one's, which asked for a module
that does not exist. -/
theorem exists_load_mistaken : ∃ ks c c' t, Run (spawn eagerSurroundings) ks c ∧
    (∃ outcome, c.owner = .free outcome) ∧
    (c.loadModule "missing" { config := .standard }).Ends t (.ok .null, c') ∧
    load eagerSurroundings "missing" { config := .standard } =
      .done (.error (.engine .loadFailed)) := by
  have h : ((giveUp.bind fun c => (c.loadModule "missing" { config := .standard }).bind fun x =>
      .done (c, x)).answered oneByteFails).any (fun x => isToldLoaded x.2.1) = true := by
    decide +kernel
  obtain ⟨t, ⟨c, outcome, c'⟩, hends, haccepted⟩ := Dialogue.exists_ends_of_any_answered h
  obtain ⟨_, c₁, _, hgiven, hrest, -⟩ := Dialogue.ends_bind.mp hends
  obtain ⟨t₁, x, _, hload, hdone, -⟩ := Dialogue.ends_bind.mp hrest
  cases hdone
  obtain ⟨⟨ks, hrun⟩, hfree⟩ := giveUp_runs hgiven
  refine ⟨ks, c, c', t₁, hrun, hfree, ?_, rfl⟩
  unfold isToldLoaded at haccepted
  split at haccepted
  · next hok =>
    cases hok
    exact hload
  · cases haccepted

end Channel

end SandboxHost.Worker
