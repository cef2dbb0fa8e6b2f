import SandboxHost.Proofs.Handshake

namespace SandboxHost.Worker

def carryOutOn (inst : Option Instance) (a : Action Json) :
    Dialogue (Except Error Json × Option Instance) :=
  match inst with
  | none => .done (.error (.protocol .noModule), none)
  | some i => (i.act a).bind fun (outcome, i) => .done (outcome, some i)

/-- How a job comes out. A module that is loaded takes the place of the one before. -/
def carryOut (s : Surroundings) (inst : Option Instance) :
    Job → Dialogue (Except Error Json × Option Instance)
  | .load name options => (load s name options).bind fun outcome =>
    match outcome with
    | .ok i => .done (.ok .null, some i)
    | .error e => .done (.error e, inst)
  | .call name args _ => carryOutOn inst (Guest.call name args)
  | .callWithString name arg args _ => carryOutOn inst (Guest.callWithString name arg args)

def Job.final : Job → Except Error Json → Message
  | .load _ _, .ok _ => .notice (.loaded .ok none)
  | .load _ _, .error e => .notice (.loaded .error (some e.message))
  | .call _ _ id, outcome | .callWithString _ _ _ id, outcome => .reply (.ofOutcome id outcome)

theorem Job.final_not_asks (job : Job) (outcome : Except Error Json) :
    (job.final outcome).asks = false := by
  cases job with
  | load => cases outcome <;> rfl
  | call | callWithString => rfl

abbrev Result := Job × Except Error Json

def Result.message (r : Result) : Message := r.1.final r.2

theorem work_eq (s : Surroundings) (inst : Option Instance) (job : Job) :
    work s inst job = (carryOut s inst job).bind fun x => .done ⟨job.final x.1, x.2⟩ := by
  have hanswer (a : Action Json) (id : UInt64) : answer inst a id =
      (carryOutOn inst a).bind fun x => .done ⟨.reply (.ofOutcome id x.1), x.2⟩ := by
    cases inst with
    | none => rfl
    | some i =>
      rw [answer, carryOutOn, Dialogue.bind_assoc]
      rfl
  cases job with
  | load name o =>
    rw [work, carryOut, Dialogue.bind_assoc]
    congr 1
    funext outcome
    cases outcome <;> rfl
  | call name args id => exact hanswer _ _
  | callWithString name arg args id => exact hanswer _ _

/-- Jobs that came out one after the other, the first of them on a worker without a module. -/
inductive Worked (s : Surroundings) : List Result → Option Instance → Prop where
  | nil : Worked s [] none
  | concat {done : List Result} {inst inst' : Option Instance} {job : Job} {t : Trace}
    {outcome : Except Error Json} : Worked s done inst →
    (carryOut s inst job).Ends t (outcome, inst') → Worked s (done ++ [(job, outcome)]) inst'

/-- The thread is somewhere in the middle of a piece of work. -/
def Thread.Carries (d : Dialogue Finished) : Thread → Prop
  | .idle _ => False
  | .busy d' => ∃ t, d.Reaches t d'
  | .armed n resume => n.asks = true ∧ ∀ bytes, ∃ t, d.Reaches t (resume bytes)
  | .posted _ resume | .woken _ resume => ∀ bytes, ∃ t, d.Reaches t (resume bytes)

def Thread.IsAt (s : Surroundings) (inst : Option Instance) : Option Job → Thread → Prop
  | none, thread => thread = .idle inst
  | some job, thread => thread.Carries (work s inst job)

namespace Mark

def sent? : Mark → Option Job
  | .sent job => some job
  | _ => none

def message? : Mark → Option Message
  | .posted n => some (.notice n)
  | .finished m => some m
  | _ => none

end Mark

def sentJobs (ks : List Mark) : List Job := ks.filterMap Mark.sent?

/-- The messages of the worker that ask for nothing, in order. -/
def finals (ks : List Mark) : List Message := (ks.filterMap Mark.message?).filter (!·.asks)

theorem sentJobs_concat (ks : List Mark) (k : Mark) :
    sentJobs (ks ++ [k]) = sentJobs ks ++ k.sent?.toList := by
  cases h : k.sent? <;> simp [sentJobs, h]

theorem sentJobs_of_sent?_eq_none (ks : List Mark) {k : Mark} (h : k.sent? = none) :
    sentJobs (ks ++ [k]) = sentJobs ks := by
  rw [sentJobs_concat, h, Option.toList_none, List.append_nil]

theorem finals_concat (ks : List Mark) (k : Mark) :
    finals (ks ++ [k]) = finals ks ++ (k.message?.filter (!·.asks)).toList := by
  cases h : k.message? with
  | none => simp [finals, h]
  | some m => cases hm : m.asks <;> simp [finals, h, hm, Option.filter]

namespace Channel

/-- Which jobs are done after a run, and which one the worker is at. -/
structure Progress (ks : List Mark) (c : Channel) (done : List Result) (current : Option Job) :
    Prop where
  worked : ∃ inst, Worked c.surroundings done inst ∧ c.thread.IsAt c.surroundings inst current
  sent_eq : sentJobs ks = done.map Prod.fst ++ current.toList ++ c.jobs
  finals_eq : finals ks = done.map Result.message

theorem Progress.same {ks : List Mark} {k : Mark} {c c' : Channel} {done : List Result}
    {current : Option Job} (hp : Progress ks c done current)
    (hsurroundings : c'.surroundings = c.surroundings) (hjobs : c'.jobs = c.jobs)
    (hsent : k.sent? = none) (hfinal : k.message?.filter (!·.asks) = none)
    (hworked : ∃ inst, Worked c.surroundings done inst ∧
      c'.thread.IsAt c.surroundings inst current) : Progress (ks ++ [k]) c' done current where
  worked := by rwa [hsurroundings]
  sent_eq := by rw [sentJobs_of_sent?_eq_none ks hsent, hjobs, hp.sent_eq]
  finals_eq := by rw [finals_concat, hfinal, hp.finals_eq, Option.toList_none, List.append_nil]

theorem Works.carries {c c' : Channel} {k : Mark} {d : Dialogue Finished} (h : c.Works k c')
    (hd : c.thread.Carries d) :
    (c'.thread.Carries d ∧ c'.jobs = c.jobs ∧ k.sent? = none ∧
      k.message?.filter (!·.asks) = none ∧
      c'.outbox.filter (!·.asks) = c.outbox.filter (!·.asks)) ∨
    ∃ f t, d.Ends t f ∧ k = .finished f.message ∧
      c' = { c with thread := .idle f.inst, outbox := c.outbox ++ [f.message] } := by
  cases h with
  | begin hthread =>
    rw [hthread] at hd
    exact hd.elim
  | @finish f hthread =>
    rw [hthread] at hd
    obtain ⟨t, ht⟩ := hd
    exact .inr ⟨f, _, ht.ends (.done f), rfl, rfl⟩
  | armToSleep hthread =>
    rw [hthread] at hd
    obtain ⟨t, ht⟩ := hd
    exact .inl ⟨⟨rfl, fun _ => ⟨_, ht.answer ()⟩⟩, rfl, rfl, rfl, rfl⟩
  | armToRead hthread =>
    rw [hthread] at hd
    obtain ⟨t, ht⟩ := hd
    exact .inl ⟨⟨rfl, fun bytes => ⟨_, ht.answer bytes⟩⟩, rfl, rfl, rfl, rfl⟩
  | talk answer _ hthread =>
    rw [hthread] at hd
    obtain ⟨t, ht⟩ := hd
    exact .inl ⟨⟨_, ht.answer answer⟩, rfl, rfl, rfl, rfl⟩
  | post hthread =>
    rw [hthread] at hd
    -- The notice that goes out asks for something, so it is none of the answers.
    refine .inl ⟨hd.2, rfl, rfl, ?_, ?_⟩
    · simp [Mark.message?, Option.filter, Message.asks, hd.1]
    · simp [Message.asks, hd.1]
  | take hthread =>
    rw [hthread] at hd
    exact .inl ⟨hd _, rfl, rfl, rfl, rfl⟩
  | look hthread | wake hthread | doze hthread =>
    rw [hthread] at hd
    exact .inl ⟨hd, rfl, rfl, rfl, rfl⟩

/-- A step of the worker adds what has come out to what is done, and sends the message for it. -/
theorem Progress.works {ks : List Mark} {k : Mark} {c c' : Channel} {done : List Result}
    {current : Option Job} (hp : Progress ks c done current) (h : c.Works k c') :
    ∃ new current', Progress (ks ++ [k]) c' (done ++ new) current' ∧
      c'.outbox.filter (!·.asks) = c.outbox.filter (!·.asks) ++ new.map Result.message := by
  have hsurroundings : c'.surroundings = c.surroundings := (Step.worker h).surroundings
  obtain ⟨inst, hworked, hat⟩ := hp.worked
  cases current with
  | none =>
    have hidle : c.thread = .idle inst := hat
    cases h with
    | @begin inst' job rest hthread hjobs =>
      cases hidle.symm.trans hthread
      refine ⟨[], some job, ⟨⟨inst, by simpa using hworked, ?_⟩, ?_, ?_⟩, by simp⟩
      · exact ⟨[], .refl _⟩
      · rw [sentJobs_concat, hp.sent_eq, hjobs]
        simp [Mark.sent?]
      · rw [finals_concat, hp.finals_eq]
        simp [Mark.message?]
    | finish ht | armToSleep ht | armToRead ht | talk _ _ ht | post ht | look ht | wake ht | doze ht
      | take ht => exact absurd (hidle.symm.trans ht) nofun
  | some job =>
    have hcarries : c.thread.Carries (work c.surroundings inst job) := hat
    obtain ⟨hon, hjobs, hsent, hfinal, hbox⟩ | ⟨f, t, hends, rfl, rfl⟩ := h.carries hcarries
    · have hsame := hp.same hsurroundings hjobs hsent hfinal ⟨inst, hworked, hon⟩
      exact ⟨[], some job, by rwa [List.append_nil], by rw [hbox]; simp⟩
    -- At the end of the work the outcome and the message come from the same job.
    · rw [work_eq] at hends
      obtain ⟨t₁, ⟨outcome, inst'⟩, t₂, hout, hdone, -⟩ := Dialogue.ends_bind.mp hends
      cases hdone
      have hquiet := job.final_not_asks outcome
      refine ⟨[(job, outcome)], none, ⟨⟨inst', hworked.concat hout, rfl⟩, ?_, ?_⟩, ?_⟩
      · rw [sentJobs_concat, hp.sent_eq]
        simp [Mark.sent?]
      · rw [finals_concat, hp.finals_eq]
        simp [Mark.message?, Option.filter, hquiet, Result.message]
      · simp [hquiet, Result.message]

theorem rouse_isAt {c : Channel} {inst : Option Instance} {current : Option Job}
    (h : c.thread.IsAt c.surroundings inst current) :
    c.rouse.thread.IsAt c.surroundings inst current := by
  unfold rouse
  split
  · next hthread =>
    rw [hthread] at h
    cases current with
    | none => cases h
    | some job => exact h
  · exact h

theorem Serves.same {c c' : Channel} {k : Mark} (h : c.Serves k c') :
    (∃ name o, c.owner = .resized name o ∧ k = .sent (.load name o) ∧
      c' = { c with jobs := c.jobs ++ [.load name o], owner := .expecting .loaded }) ∨
    (c'.jobs = c.jobs ∧ c'.lastId = c.lastId ∧ k.sent? = none ∧ k.message? = none) := by
  cases h with
  | send howner => exact .inl ⟨_, _, howner, rfl, rfl⟩
  | receive =>
    rw [receive_eq]
    exact .inr ⟨rfl, rfl, rfl, rfl⟩
  | read answer => cases answer <;> exact .inr ⟨rfl, rfl, rfl, rfl⟩
  | call =>
    rw [goOn_eq, rouse_eq]
    exact .inr ⟨rfl, rfl, rfl, rfl⟩
  | sleep | refuse | store => exact .inr ⟨rfl, rfl, rfl, rfl⟩

theorem Progress.sent {ks : List Mark} {c c' : Channel} {done : List Result}
    {current : Option Job} {job : Job} (hp : Progress ks c done current)
    (hsurroundings : c'.surroundings = c.surroundings) (hthread : c'.thread = c.thread)
    (hjobs : c'.jobs = c.jobs ++ [job]) : Progress (ks ++ [.sent job]) c' done current where
  worked := by
    rw [hsurroundings, hthread]
    exact hp.worked
  sent_eq := by
    rw [sentJobs_concat, hp.sent_eq, hjobs, ← List.append_assoc]
    rfl
  finals_eq := by
    rw [finals_concat, hp.finals_eq]
    exact List.append_nil _

/-- Nothing that the owner does is done by the worker: it can only give one more job. -/
theorem Progress.serves {ks : List Mark} {k : Mark} {c c' : Channel} {done : List Result}
    {current : Option Job} (hp : Progress ks c done current) (h : c.Serves k c') :
    Progress (ks ++ [k]) c' done current := by
  obtain ⟨inst, hworked, hat⟩ := hp.worked
  obtain ⟨name, o, -, rfl, rfl⟩ | ⟨hjobs, -, hsent, hmessage⟩ := h.same
  · exact hp.sent rfl rfl rfl
  · refine hp.same (Step.owner h).surroundings hjobs hsent (by rw [hmessage]; rfl)
      ⟨inst, hworked, ?_⟩
    obtain hthread | hthread := h.thread
    · rwa [hthread]
    · rw [hthread]
      exact rouse_isAt hat

end Channel

end SandboxHost.Worker
