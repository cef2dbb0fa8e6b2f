import SandboxHost.Proofs.Jobs

namespace SandboxHost

/-- Whether an operation of an owner fails this way on the owner's side. -/
def Error.isOfOwner : Error → Bool
  | .io _ | .protocol _ | .workerDisconnected => true
  | _ => false

namespace Worker

/-- How the outcome of a call on the worker comes to its owner: an error only by its wording. -/
def relayed : Except Error Json → Except Error Json
  | .ok output => .ok output
  | .error e => .error (.workerCall e.message)

@[simp] theorem Reply.outcome_ofOutcome (id : UInt64) (outcome : Except Error Json) :
    (Reply.ofOutcome id outcome).outcome = relayed outcome := by
  cases outcome <;> rfl

@[simp] theorem Reply.id_ofOutcome (id : UInt64) (outcome : Except Error Json) :
    (Reply.ofOutcome id outcome).id = id := by
  cases outcome <;> rfl

theorem Job.id?_of_final_reply {job : Job} {outcome : Except Error Json} {r : Reply}
    (h : job.final outcome = .reply r) : job.id? = some r.id ∧ r.outcome = relayed outcome := by
  cases job with
  | load => cases outcome <;> cases h
  | call | callWithString =>
    cases h
    exact ⟨congrArg some (Reply.id_ofOutcome _ _).symm, Reply.outcome_ofOutcome _ _⟩

def numbering (n : Nat) : List UInt64 := (List.range n).map fun i => UInt64.ofNat (i + 1)

theorem numbering_succ (n : Nat) : numbering (n + 1) = numbering n ++ [UInt64.ofNat n + 1] := by
  rw [numbering, List.range_succ, List.map_append, numbering]
  simp [UInt64.ofNat_add]

/-- A number comes again only after all the others. -/
theorem numbering_repeats {n : Nat} {id : UInt64} {before between : List UInt64}
    (h : numbering n = before ++ id :: (between ++ [id])) : UInt64.size ≤ between.length + 1 := by
  have hlength := congrArg List.length h
  simp only [numbering, List.length_map, List.length_range, List.length_append, List.length_cons,
    List.length_nil] at hlength
  have hat (i : Nat) (hi : i < n) : (numbering n)[i]? = some (UInt64.ofNat (i + 1)) := by
    simp [numbering, hi]
  have hfirst : some id = some (UInt64.ofNat (before.length + 1)) := by
    rw [← hat _ (by omega), h, List.getElem?_append_right (Nat.le_refl _)]
    simp
  have hlast : some id = some (UInt64.ofNat (before.length + between.length + 2)) := by
    rw [← hat _ (by omega), h, List.getElem?_append_right (by omega)]
    simp [show before.length + between.length + 1 - before.length = between.length + 1 by omega]
  -- The same number at two places: they lie a multiple of all numbers apart.
  have heq : (before.length + 1) % UInt64.size =
      (before.length + between.length + 2) % UInt64.size := by
    have hnum := congrArg UInt64.toNat (Option.some.inj (hfirst.symm.trans hlast))
    simpa only [UInt64.toNat_ofNat'] using hnum
  rw [UInt64.size] at *
  omega

def Goal.IsOf (last : Option Job) : Goal → Prop
  | .loaded => last.bind Job.id? = none
  | .reply id => last.bind Job.id? = some id

/-- What came out of the last call is an answer to a call with its number, or the owner failed. -/
def Received (received : List Result) (id : UInt64) (outcome : Except Error Json) : Prop :=
  (∃ e, outcome = .error e ∧ e.isOfOwner = true) ∨
    ∃ earlier job own, received = earlier ++ [(job, own)] ∧ job.id? = some id ∧
      outcome = relayed own

def Mark.final? : Mark → Option Message
  | .received m => if m.asks then none else some m
  | _ => none

inductive Receives (received : List Result) : Mark → List Result → Prop where
  | none {k : Mark} : k.final? = none → Receives received k received
  | one (r : Result) : Receives received (.received r.message) (received ++ [r])

/-- How the owner stands to the job that it gave last and to the results it has received. -/
def Owner.Follows (last : Option Job) (received : List Result) : Owner → Prop
  | .free outcome => ∀ id, last.bind Job.id? = some id → Received received id outcome
  | .resized _ _ => True
  | .expecting goal | .serving goal _ | .filled goal _ _ | .stored goal _ => goal.IsOf last

namespace Channel

/-- Which results have been received after a run, and which are on the way. -/
structure Tracked (ks : List Mark) (c : Channel) (received waiting : List Result)
    (current : Option Job) : Prop where
  progress : Progress ks c (received ++ waiting) current
  outbox_eq : c.outbox.filter (!·.asks) = waiting.map Result.message
  numbered : ∃ n, (sentJobs ks).filterMap Job.id? = numbering n ∧ c.lastId = UInt64.ofNat n
  owner : c.owner.Follows (sentJobs ks).getLast? received

theorem follows_fault {last : Option Job} {received : List Result} {e : Error}
    (he : e.isOfOwner = true) : (Owner.free (.error e)).Follows last received :=
  fun _ _ => .inl ⟨e, rfl, he⟩

theorem follows_receive_of_asks {c : Channel} {goal : Goal} {m : Message} {last : Option Job}
    {received : List Result} (hm : m.asks = true) (hgoal : goal.IsOf last) :
    (c.receive goal m).owner.Follows last received := by
  cases m with
  | reply r => cases hm
  | notice n =>
    rw [receive_of_asks hm]
    exact hgoal

/-- The reply to another call is dropped, and the one that the owner waits for is its outcome. -/
theorem follows_receive {c : Channel} {goal : Goal} {last : Option Job} {received : List Result}
    {r : Result} (howner : c.owner = .expecting goal) (hgoal : goal.IsOf last) :
    (c.receive goal r.message).owner.Follows last (received ++ [r]) := by
  obtain ⟨job, own⟩ := r
  cases hm : Result.message (job, own) with
  | notice n =>
    cases n with
    | loaded status text =>
      cases goal with
      | loaded =>
        have hnone : last.bind Job.id? = none := hgoal
        cases status <;> exact fun id hid => absurd (hnone.symm.trans hid) nofun
      | reply id => exact follows_fault rfl
    | sleep | waitForInput =>
      have hquiet := job.final_not_asks own
      rw [show job.final own = _ from hm] at hquiet
      cases hquiet
  | reply reply =>
    cases goal with
    | loaded => exact follows_fault rfl
    | reply id =>
      rw [receive]
      split
      -- With the right number it is an answer to a call with that number; which one, is seen later.
      · next hid =>
        subst hid
        obtain ⟨hjob, houtcome⟩ := Job.id?_of_final_reply hm
        intro id' hlast
        cases hlast.symm.trans hgoal
        exact .inr ⟨received, job, own, rfl, hjob, houtcome⟩
      · rw [howner]
        exact hgoal

theorem Tracked.step {ks : List Mark} {k : Mark} {c c' : Channel}
    {received received' waiting waiting' : List Result} {current current' : Option Job}
    (ht : Tracked ks c received waiting current) (hsent : k.sent? = none)
    (hlast : c'.lastId = c.lastId)
    (hprogress : Progress (ks ++ [k]) c' (received' ++ waiting') current')
    (hbox : c'.outbox.filter (!·.asks) = waiting'.map Result.message)
    (howner : c'.owner.Follows (sentJobs ks).getLast? received') :
    Tracked (ks ++ [k]) c' received' waiting' current' := by
  have hjobs := sentJobs_of_sent?_eq_none ks hsent
  refine ⟨hprogress, hbox, ?_, ?_⟩
  · rw [hjobs, hlast]
    exact ht.numbered
  · rwa [hjobs]

theorem Tracked.works {ks : List Mark} {k : Mark} {c c' : Channel} {received waiting : List Result}
    {current : Option Job} (ht : Tracked ks c received waiting current) (h : c.Works k c') :
    ∃ waiting' current',
      Tracked (ks ++ [k]) c' received waiting' current' ∧ Receives received k received := by
  obtain ⟨new, current', hprogress, hbox⟩ := ht.progress.works h
  refine ⟨waiting ++ new, current', ?_, .none (by cases h <;> rfl)⟩
  have hbeside : k.sent? = none ∧ c'.lastId = c.lastId ∧ c'.owner = c.owner := by
    cases h <;> exact ⟨rfl, rfl, rfl⟩
  obtain ⟨hsent, hlast, howner⟩ := hbeside
  refine ht.step hsent hlast (by rwa [← List.append_assoc]) ?_ (howner ▸ ht.owner)
  rw [hbox, ht.outbox_eq, List.map_append]

theorem Tracked.receive {ks : List Mark} {c : Channel} {received waiting : List Result}
    {current : Option Job} {goal : Goal} {m : Message} {rest : List Message}
    (ht : Tracked ks c received waiting current) (howner : c.owner = .expecting goal)
    (hbox : c.outbox = m :: rest) : ∃ received' waiting',
      Tracked (ks ++ [.received m]) ({ c with outbox := rest }.receive goal m) received' waiting'
        current ∧ Receives received (.received m) received' := by
  have hgoal : goal.IsOf (sentJobs ks).getLast? := by
    have hfollows := ht.owner
    rwa [howner] at hfollows
  have hprogress := ht.progress.serves (.receive howner hbox)
  have hlast : ({ c with outbox := rest }.receive goal m).lastId = c.lastId := by rw [receive_eq]
  have hrest : ({ c with outbox := rest }.receive goal m).outbox = rest := by rw [receive_eq]
  have hwaiting := ht.outbox_eq
  rw [hbox] at hwaiting
  cases hasks : m.asks with
  | true =>
    rw [List.filter_cons_of_neg (by simp [hasks])] at hwaiting
    refine ⟨received, waiting, ht.step rfl hlast hprogress (by rw [hrest, hwaiting]) ?_,
      .none (by rw [Mark.final?, hasks]; rfl)⟩
    exact follows_receive_of_asks hasks hgoal
  | false =>
    rw [List.filter_cons_of_pos (by simp [hasks])] at hwaiting
    obtain ⟨r, waiting', rfl, rfl, htail⟩ := List.map_eq_cons_iff.mp hwaiting.symm
    refine ⟨received ++ [r], waiting', ht.step rfl hlast ?_ (by rw [hrest, htail]) ?_, .one r⟩
    · simpa using hprogress
    · exact follows_receive howner hgoal

theorem Tracked.serves {ks : List Mark} {k : Mark} {c c' : Channel} {received waiting : List Result}
    {current : Option Job} (ht : Tracked ks c received waiting current) (h : c.Serves k c') :
    ∃ received' waiting',
      Tracked (ks ++ [k]) c' received' waiting' current ∧ Receives received k received' := by
  have hprogress := ht.progress.serves h
  have hfollows := ht.owner
  cases h with
  | @send name o howner =>
    have hids : (sentJobs (ks ++ [.sent (.load name o)])).filterMap Job.id? =
        (sentJobs ks).filterMap Job.id? := by
      rw [sentJobs_concat, List.filterMap_append]
      exact List.append_nil _
    refine ⟨received, waiting, ⟨hprogress, ht.outbox_eq, ?_, ?_⟩, .none rfl⟩
    · rw [hids]
      exact ht.numbered
    · rw [sentJobs_concat]
      simp [Mark.sent?, Job.id?, Owner.Follows, Goal.IsOf]
  | receive howner hbox => exact ht.receive howner hbox
  | refuse howner =>
    exact ⟨received, waiting, ht.step rfl rfl hprogress ht.outbox_eq (follows_fault rfl), .none rfl⟩
  | read answer howner =>
    rw [howner] at hfollows
    cases answer <;>
      exact ⟨received, waiting, ht.step rfl rfl hprogress ht.outbox_eq hfollows, .none rfl⟩
  | sleep howner | store howner =>
    rw [howner] at hfollows
    exact ⟨received, waiting, ht.step rfl rfl hprogress ht.outbox_eq hfollows, .none rfl⟩
  | @call goal failed howner =>
    rw [howner] at hfollows
    refine ⟨received, waiting, ht.step rfl ?_ hprogress ?_ ?_, .none rfl⟩
    · rw [goOn_eq, rouse_eq]
    · rw [goOn_eq, rouse_eq]
      exact ht.outbox_eq
    · cases failed with
      | none => exact hfollows
      | some text => exact follows_fault rfl

theorem Tracked.next {ks : List Mark} {k : Mark} {c c' : Channel} {received waiting : List Result}
    {current : Option Job} (ht : Tracked ks c received waiting current) (h : c.Step k c') :
    ∃ received' waiting' current',
      Tracked (ks ++ [k]) c' received' waiting' current' ∧ Receives received k received' := by
  cases h with
  | worker h => exact ⟨received, ht.works h⟩
  | owner h =>
    obtain ⟨received', waiting', ht'⟩ := ht.serves h
    exact ⟨received', waiting', current, ht'⟩
  | load name o howner =>
    refine ⟨received, waiting, current, ht.step rfl rfl ?_ ht.outbox_eq trivial, .none rfl⟩
    exact ht.progress.same rfl rfl rfl rfl ht.progress.worked
  | @call _ job hjob howner =>
    refine ⟨received, waiting, current, ⟨ht.progress.sent rfl rfl rfl, ht.outbox_eq, ?_, ?_⟩,
      .none rfl⟩
    · obtain ⟨n, hids, hlast⟩ := ht.numbered
      refine ⟨n + 1, ?_, ?_⟩
      · rw [sentJobs_concat, List.filterMap_append, hids, numbering_succ, hlast]
        simp [Mark.sent?, hjob]
      · simp [requestCall, hlast, UInt64.ofNat_add]
    · rw [sentJobs_concat]
      simp [Mark.sent?, requestCall, Owner.Follows, Goal.IsOf, hjob]
  | stir hthread =>
    refine ⟨received, waiting, current, ht.step rfl rfl ?_ ht.outbox_eq ht.owner, .none rfl⟩
    obtain ⟨inst, hworked, hat⟩ := ht.progress.worked
    refine ht.progress.same rfl rfl rfl rfl ⟨inst, hworked, ?_⟩
    rw [hthread] at hat
    cases current with
    | none => cases hat
    | some job => exact hat

theorem tracked_spawn (s : Surroundings) : Tracked [] (spawn s) [] [] none :=
  ⟨⟨⟨none, .nil, rfl⟩, rfl, rfl⟩, rfl, ⟨0, rfl, rfl⟩, fun _ hid => nomatch hid⟩

theorem run_tracked {s : Surroundings} {ks : List Mark} {c : Channel} (h : Run (spawn s) ks c) :
    ∃ received waiting current, Tracked ks c received waiting current := by
  refine h.preserves (P := fun ks c => ∃ received waiting current,
    Tracked ks c received waiting current) ?_ ?_
  · exact ⟨[], [], none, tracked_spawn s⟩
  · rintro ks k c₁ c' ⟨received, waiting, current, ht⟩ hstep
    obtain ⟨received', waiting', current', ht', -⟩ := ht.next hstep
    exact ⟨received', waiting', current', ht'⟩

/-- How many numbers are in use: one for each job and each reply on the way, and one for the job
that the worker is at. -/
def onTheWay (c : Channel) : Nat := c.jobs.length + c.outbox.length + 1

/-- Which job an answer belongs to, as it stands after a run with these marks. -/
structure Correlated (ks : List Mark) (c : Channel) (done : List Result) (current : Option Job) :
    Prop where
  /-- The jobs are worked off in the order in which they were given. -/
  sent_eq : sentJobs ks = done.map Prod.fst ++ current.toList ++ c.jobs
  /-- Each came out as it does on the instance that the ones before it left. -/
  worked : ∃ inst, Worked c.surroundings done inst
  /-- Each has had its one message, and no other job has had one. -/
  finals_eq : finals ks = done.map Result.message
  /-- A call that has returned has failed on the owner's side, or it returned how it came out
  itself, and no call came after it. Numbers start again once all have been given out, so there must
  not be as many messages on the way as there are numbers. -/
  returned (outcome : Except Error Json) (job : Job) (id : UInt64) :
    c.owner = .free outcome → (sentJobs ks).getLast? = some job → job.id? = some id →
      c.onTheWay < UInt64.size →
        (∃ e, outcome = .error e ∧ e.isOfOwner = true) ∨
          ∃ earlier own, done = earlier ++ [(job, own)] ∧ current = none ∧ c.jobs = [] ∧
            outcome = relayed own

/-- A result that was received under the number of the last call is that call's own. -/
theorem Tracked.own {ks : List Mark} {c : Channel} {earlier waiting : List Result}
    {current : Option Job} {job job' : Job} {own : Except Error Json} {id : UInt64}
    (ht : Tracked ks c (earlier ++ [(job', own)]) waiting current)
    (hlast : (sentJobs ks).getLast? = some job) (hid : job.id? = some id)
    (hid' : job'.id? = some id) (hfew : c.onTheWay < UInt64.size) :
    job' = job ∧ waiting = [] ∧ current = none ∧ c.jobs = [] := by
  have hsent : sentJobs ks = earlier.map Prod.fst ++ job' ::
      (waiting.map Prod.fst ++ current.toList ++ c.jobs) := by
    simp [ht.progress.sent_eq]
  generalize htail : waiting.map Prod.fst ++ current.toList ++ c.jobs = tail at hsent
  obtain rfl | ⟨between, last, rfl⟩ := List.eq_nil_or_concat tail
  · rw [hsent] at hlast
    simp only [List.append_eq_nil_iff, List.map_eq_nil_iff, Option.toList_eq_nil_iff] at htail
    exact ⟨by simpa using hlast, htail.1.1, htail.1.2, htail.2⟩
  · exfalso
    rw [List.concat_eq_append] at hsent htail
    have hjob : last = job := by
      rw [hsent, ← List.cons_append, ← List.append_assoc, List.getLast?_concat] at hlast
      exact Option.some.inj hlast
    obtain ⟨n, hids, -⟩ := ht.numbered
    have hrepeats : numbering n = (earlier.map Prod.fst).filterMap Job.id? ++
        id :: (between.filterMap Job.id? ++ [id]) := by
      rw [← hids, hsent]
      simp [hid', hjob, hid]
    -- Then all other numbers were given out in between, and each of their jobs is on the way.
    have hmany := numbering_repeats hrepeats
    have hbetween := List.length_filterMap_le Job.id? between
    have hwaiting : waiting.length ≤ c.outbox.length := by
      have := List.length_filter_le (!·.asks) c.outbox
      rwa [ht.outbox_eq, List.length_map] at this
    have hcurrent : current.toList.length ≤ 1 := by cases current <;> simp
    have hlength := congrArg List.length htail
    simp only [List.length_append, List.length_map, List.length_singleton] at hlength
    unfold onTheWay at hfew
    omega

/-- However the two sides take turns, whatever the modules, the host and the owner's input do, and
whichever operations fail: the worker answers each job once and in order, and no call gets the
answer to another. -/
theorem calls_correlated (s : Surroundings) {ks : List Mark} {c : Channel}
    (h : Run (spawn s) ks c) : ∃ done current, Correlated ks c done current := by
  obtain ⟨received, waiting, current, ht⟩ := run_tracked h
  obtain ⟨inst, hworked, -⟩ := ht.progress.worked
  refine ⟨received ++ waiting, current, ht.progress.sent_eq, ⟨inst, hworked⟩,
    ht.progress.finals_eq, ?_⟩
  intro outcome job id hfree hlast hid hfew
  have hfollows := ht.owner
  rw [hfree] at hfollows
  obtain hfault | ⟨earlier, job', own, rfl, hid', houtcome⟩ :=
    hfollows id (by rw [hlast]; exact hid)
  · exact .inl hfault
  · obtain ⟨rfl, rfl, hcurrent, hjobs⟩ := ht.own hlast hid hid' hfew
    exact .inr ⟨earlier, own, List.append_nil _, hcurrent, hjobs, houtcome⟩

/-- The number of bytes that a module read comes back as the outcome of the call that read them. -/
theorem calls_correlated_reading : ∃ ks c outcome done current,
    Run (spawn ⟨fun _ => some inputReader, fun _ => true⟩) ks c ∧ c.owner = .free outcome ∧
      outcome.toOption.bind Json.toInt64? = some 3 ∧ c.onTheWay < UInt64.size ∧
      Correlated ks c done current := by
  obtain ⟨ks, c, outcome, hrun, howner, hout, hjobs, hbox⟩ := exists_reading_run
  obtain ⟨done, current, hcorrelated⟩ := calls_correlated _ hrun
  refine ⟨ks, c, outcome, done, current, hrun, howner, hout, ?_, hcorrelated⟩
  rw [onTheWay, hjobs, hbox]
  decide

end Channel

end Worker

end SandboxHost
