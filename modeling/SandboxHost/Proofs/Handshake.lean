import SandboxHost.Proofs.ChannelSteps
import SandboxHost.Proofs.SharedBuffer

namespace SandboxHost.Worker

/-- Whether the worker waits until the owner has done something. -/
def Notice.asks : Notice → Bool
  | .loaded _ _ => false
  | .sleep _ | .waitForInput => true

def Message.asks : Message → Bool
  | .notice n => n.asks
  | .reply _ => false

/-- Whether a mark belongs to handing something over. -/
def Mark.isHandover : Mark → Bool
  | .armed | .posted _ | .filled _ _ | .stored _ | .woke _ | .took _ => true
  | .received m => m.asks
  | _ => false

/-- The message at the end of a job asks for nothing. -/
def Finished.IsFinal (f : Finished) : Prop := f.message.asks = false

/-- After which marks of a handover the word waits for the owner. -/
def Mark.isOpen : Mark → Bool
  | .armed | .posted _ | .received _ | .filled _ _ => true
  | _ => false

/-- The worker has neither armed the word nor anything left to take. -/
def Thread.isApart : Thread → Bool
  | .idle _ | .busy _ => true
  | _ => false

def Owner.isAnswering : Owner → Bool
  | .serving _ _ | .filled _ _ _ => true
  | _ => false

def Owner.isElsewhere : Owner → Bool
  | .free _ | .resized _ _ => true
  | _ => false

/-- What a worker asked for, what the owner had for it, and the size of the buffer then. -/
structure Handover where
  notice : Notice
  bytes : List UInt8
  capacity : Nat

namespace Handover

def count (h : Handover) : Nat := min (min h.bytes.length h.capacity) 0x7fffffff

def word (h : Handover) : Int32 := Int32.ofNat h.count

def marks (h : Handover) : List Mark :=
  [.armed, .posted h.notice, .received (.notice h.notice), .filled h.bytes h.capacity,
    .stored h.word, .woke h.word, .took (h.bytes.take h.count)]

theorem count_lt (h : Handover) : h.count < 0x80000000 :=
  Nat.lt_of_le_of_lt (Nat.min_le_right _ _) (by decide)

@[simp] theorem toNatClampNeg_word (h : Handover) : h.word.toNatClampNeg = h.count :=
  Int32.toNatClampNeg_ofNat_of_lt h.count_lt

theorem word_ne_pending (h : Handover) : h.word ≠ SharedBlock.pending :=
  SharedBlock.ofNat_ne_pending h.count_lt

end Handover

namespace SharedBlock

theorem isPending_of_word {b : SharedBlock} {h : Handover} (hword : b.word = h.word) :
    b.isPending = false := by
  rw [isPending, hword, beq_eq_false_iff_ne]
  exact h.word_ne_pending

end SharedBlock

namespace Channel

/-- The bytes of a handover lie in the buffer, and the owner leaves it alone as long as there are
any. -/
structure Holds (c : Channel) (h : Handover) : Prop where
  outbox : c.outbox = []
  data : c.shared.data.take h.count = h.bytes.take h.count
  owner : h.count = 0 ∨ ∃ goal, c.owner = .expecting goal ∨ c.owner = .stored goal none

/-- Where a channel stands after the marks of a handover that has begun. -/
inductive Standing (c : Channel) : List Mark → Prop where
  | apart : c.thread.isApart = true → c.shared.isPending = false → c.owner.isAnswering = false →
    (∀ m ∈ c.outbox, m.asks = false) → Standing c []
  | armed {n : Notice} {resume : List UInt8 → Dialogue Finished} :
    c.thread = .armed n resume → n.asks = true → c.shared.isPending = true →
    c.owner.isAnswering = false → (∀ m ∈ c.outbox, m.asks = false) → Standing c [.armed]
  | posted {n : Notice} {wait : Wait} {resume : List UInt8 → Dialogue Finished}
    {earlier : List Message} :
    c.thread = .posted wait resume → n.asks = true → c.shared.isPending = true →
    c.owner.isAnswering = false → c.outbox = earlier ++ [.notice n] →
    (∀ m ∈ earlier, m.asks = false) → Standing c [.armed, .posted n]
  | received {n : Notice} {wait : Wait} {resume : List UInt8 → Dialogue Finished} {goal : Goal} :
    c.thread = .posted wait resume → n.asks = true → c.shared.isPending = true →
    c.owner = .serving goal n → c.outbox = [] →
    Standing c [.armed, .posted n, .received (.notice n)]
  | filled {h : Handover} {wait : Wait} {resume : List UInt8 → Dialogue Finished} {goal : Goal}
    {failure : Option String} :
    c.thread = .posted wait resume → c.shared.isPending = true →
    c.owner = .filled goal h.word failure → c.outbox = [] →
    c.shared.data.take h.count = h.bytes.take h.count → (failure ≠ none → h.count = 0) →
    Standing c (h.marks.take 4)
  | stored {h : Handover} {wait : Wait} {resume : List UInt8 → Dialogue Finished} :
    c.thread = .posted wait resume → c.shared.word = h.word → c.owner.isAnswering = false →
    c.Holds h → (wait = .asleep → ∃ goal failure, c.owner = .stored goal failure) →
    Standing c (h.marks.take 5)
  | woken {h : Handover} {resume : List UInt8 → Dialogue Finished} :
    c.thread = .woken h.word resume → c.shared.isPending = false → c.owner.isAnswering = false →
    c.Holds h → Standing c (h.marks.take 6)

/-- How the marks of a handover that has begun go on with one more mark. -/
inductive Goes (ks : List Mark) (k : Mark) : List Mark → Prop where
  | aside : k.isHandover = false → Goes ks k ks
  | onward : k.isHandover = true → Goes ks k (ks ++ [k])
  | whole (h : Handover) : k.isHandover = true → ks ++ [k] = h.marks → Goes ks k []

theorem Standing.of_isApart {c : Channel} {ks : List Mark} (hs : c.Standing ks)
    (hthread : c.thread.isApart = true) : ks = [] ∧ c.shared.isPending = false ∧
      c.owner.isAnswering = false ∧ ∀ m ∈ c.outbox, m.asks = false := by
  cases hs with
  | apart _ hpending howner hbox => exact ⟨rfl, hpending, howner, hbox⟩
  | armed ht | posted ht | received ht | filled ht | stored ht | woken ht =>
    simp [ht, Thread.isApart] at hthread

theorem Standing.waiting {c : Channel} {ks : List Mark} {wait wait' : Wait}
    {resume : List UInt8 → Dialogue Finished} (hs : c.Standing ks)
    (hthread : c.thread = .posted wait resume)
    (hasleep : wait' = .asleep → c.shared.isPending = true) :
    ({ c with thread := .posted wait' resume } : Channel).Standing ks := by
  cases hs with
  | posted _ hn hpending howner hbox hearlier =>
    exact .posted rfl hn hpending howner hbox hearlier
  | received _ hn hpending howner hbox => exact .received rfl hn hpending howner hbox
  | filled _ hpending howner hbox hdata hfailure =>
    exact .filled rfl hpending howner hbox hdata hfailure
  | stored _ hword howner hold =>
    have hset := SharedBlock.isPending_of_word hword
    refine .stored rfl hword howner ⟨hold.outbox, hold.data, hold.owner⟩ fun h => ?_
    exact absurd (hasleep h) (by simp [hset])
  | apart ht => simp [hthread, Thread.isApart] at ht
  | armed ht | woken ht => exact absurd (hthread.symm.trans ht) nofun

theorem standing_works {c c' : Channel} {ks : List Mark} {k : Mark} (hs : c.Standing ks)
    (hcalm : c.thread.EndsWith Finished.IsFinal) (h : c.Works k c') :
    ∃ ks', Goes ks k ks' ∧ c'.Standing ks' := by
  cases h with
  | begin hthread | talk _ _ hthread =>
    obtain ⟨rfl, hpending, howner, hbox⟩ := hs.of_isApart (by rw [hthread]; rfl)
    exact ⟨_, .aside rfl, .apart rfl hpending howner hbox⟩
  | finish hthread =>
    obtain ⟨rfl, hpending, howner, hbox⟩ := hs.of_isApart (by rw [hthread]; rfl)
    rw [hthread] at hcalm
    refine ⟨_, .aside rfl, .apart rfl hpending howner fun m hm => ?_⟩
    obtain hm | hm := List.mem_append.mp hm
    · exact hbox m hm
    -- The message at the end of a job asks for nothing, so there is still no notice on the way.
    · have hfinal : Finished.IsFinal _ := Dialogue.always_done.mp hcalm
      rw [List.mem_singleton.mp hm]
      exact hfinal
  | armToSleep hthread | armToRead hthread =>
    obtain ⟨rfl, -, howner, hbox⟩ := hs.of_isApart (by rw [hthread]; rfl)
    exact ⟨_, .onward rfl, .armed rfl rfl rfl howner hbox⟩
  | post hthread =>
    cases hs with
    | armed ht hn hpending howner hbox =>
      cases hthread.symm.trans ht
      exact ⟨_, .onward rfl, .posted rfl hn hpending howner rfl hbox⟩
    | apart ht => simp [hthread, Thread.isApart] at ht
    | posted ht | received ht | filled ht | stored ht | woken ht =>
      exact absurd (hthread.symm.trans ht) nofun
  | look hthread => exact ⟨_, .aside rfl, hs.waiting hthread nofun⟩
  | doze hthread =>
    refine ⟨_, .aside rfl, hs.waiting hthread fun h => ?_⟩
    split at h
    · assumption
    · cases h
  | wake hthread hpending =>
    -- The word is set, so the owner has done that for this very notice.
    cases hs with
    | stored ht hword howner hold =>
      refine ⟨_, .onward rfl, ?_⟩
      rw [hword]
      exact .woken rfl hpending howner ⟨hold.outbox, hold.data, hold.owner⟩
    | posted ht _ hp | received ht _ hp | filled ht hp => simp [hpending] at hp
    | apart ht => simp [hthread, Thread.isApart] at ht
    | armed ht | woken ht => exact absurd (hthread.symm.trans ht) nofun
  | take hthread =>
    cases hs with
    | @woken h _ ht hpending howner hold =>
      cases hthread.symm.trans ht
      -- Nobody has touched the buffer since, as far as there is anything to take.
      refine ⟨_, .whole h rfl ?_, .apart rfl hpending howner ?_⟩
      · rw [Handover.toNatClampNeg_word, SharedBlock.take, hold.data]
        rfl
      · rw [hold.outbox]
        exact nofun
    | apart ht => simp [hthread, Thread.isApart] at ht
    | armed ht | posted ht | received ht | filled ht | stored ht =>
      exact absurd (hthread.symm.trans ht) nofun

theorem Holds.count_eq_zero {c : Channel} {h : Handover} (hold : c.Holds h)
    (helsewhere : c.owner.isElsewhere = true) : h.count = 0 := by
  obtain hzero | ⟨goal, howner | howner⟩ := hold.owner
  · exact hzero
  all_goals simp [howner, Owner.isElsewhere] at helsewhere

theorem Standing.elsewhere {c c' : Channel} {ks : List Mark} (hs : c.Standing ks)
    (helsewhere : c.owner.isElsewhere = true) (hthread : c'.thread = c.thread)
    (hbox : c'.outbox = c.outbox) (hword : c'.shared.word = c.shared.word)
    (howner : c'.owner.isAnswering = false) : c'.Standing ks := by
  have hpending : c'.shared.isPending = c.shared.isPending := by
    rw [SharedBlock.isPending, hword, SharedBlock.isPending]
  have hholds {h : Handover} (hold : c.Holds h) : c'.Holds h := by
    -- The buffer may have been cut meanwhile, but there is nothing in it to wait for.
    have hzero := hold.count_eq_zero helsewhere
    refine ⟨hbox.trans hold.outbox, ?_, .inl hzero⟩
    rw [hzero, List.take_zero, List.take_zero]
  cases hs with
  | apart ht hp _ hquiet => exact .apart (hthread ▸ ht) (hpending.trans hp) howner (hbox ▸ hquiet)
  | armed ht hn hp _ hquiet =>
    exact .armed (hthread.trans ht) hn (hpending.trans hp) howner (hbox ▸ hquiet)
  | posted ht hn hp _ hearlier hquiet =>
    exact .posted (hthread.trans ht) hn (hpending.trans hp) howner (hbox.trans hearlier) hquiet
  | received _ _ _ ho | filled _ _ ho => simp [ho, Owner.isElsewhere] at helsewhere
  | stored ht hw _ hold hasleep =>
    refine .stored (hthread.trans ht) (hword.trans hw) howner (hholds hold) fun h => ?_
    obtain ⟨goal, failure, ho⟩ := hasleep h
    simp [ho, Owner.isElsewhere] at helsewhere
  | woken ht hp _ hold => exact .woken (hthread.trans ht) (hpending.trans hp) howner (hholds hold)

theorem receive_of_not_asks {c : Channel} {goal : Goal} {m : Message} (hm : m.asks = false)
    (howner : c.owner.isAnswering = false) :
    ∃ o : Owner, o.isAnswering = false ∧ c.receive goal m = { c with owner := o } := by
  cases m with
  | reply r =>
    cases goal with
    | loaded => exact ⟨_, rfl, rfl⟩
    | reply id =>
      rw [receive]
      split
      · exact ⟨_, rfl, rfl⟩
      · exact ⟨c.owner, howner, rfl⟩
  | notice n =>
    cases n with
    | loaded status text => cases goal <;> cases status <;> exact ⟨_, rfl, rfl⟩
    | _ => cases hm

theorem receive_of_asks {c : Channel} {goal : Goal} {n : Notice} (h : n.asks = true) :
    c.receive goal (.notice n) = { c with owner := .serving goal n } := by
  cases n with
  | loaded status text => cases h
  | _ => cases goal <;> rfl

theorem standing_fill {c : Channel} {goal : Goal} {n : Notice} {ks : List Mark}
    (hs : c.Standing ks) (howner : c.owner = .serving goal n) (bytes : List UInt8)
    {failure : Option String} (hfailure : failure ≠ none → bytes = []) :
    ∃ ks', Goes ks (.filled bytes c.shared.capacity) ks' ∧
      (c.fill goal bytes failure).Standing ks' := by
  cases hs with
  | received ht _ hpending ho hbox =>
    cases howner.symm.trans ho
    refine ⟨_, .onward rfl, ?_⟩
    refine .filled (h := ⟨n, bytes, c.shared.capacity⟩) ht hpending rfl hbox ?_ fun hf => ?_
    · exact c.shared.take_fill bytes
    · simp [Handover.count, hfailure hf]
  | apart _ _ ho | armed _ _ _ ho | posted _ _ _ ho | stored _ _ ho | woken _ _ ho =>
    simp [howner, Owner.isAnswering] at ho
  | filled _ _ ho => exact absurd (howner.symm.trans ho) nofun

theorem standing_receive {c : Channel} {goal : Goal} {m : Message} {rest : List Message}
    {ks : List Mark} (hs : c.Standing ks) (howner : c.owner = .expecting goal)
    (hbox : c.outbox = m :: rest) : ∃ ks', Goes ks (.received m) ks' ∧
      ({ c with outbox := rest }.receive goal m).Standing ks' := by
  have hfree : ({ c with outbox := rest } : Channel).owner.isAnswering = false := by
    simp [howner, Owner.isAnswering]
  have haside (hm : m.asks = false) : ∃ o : Owner, o.isAnswering = false ∧
      { c with outbox := rest }.receive goal m = { c with outbox := rest, owner := o } :=
    receive_of_not_asks hm hfree
  cases hs with
  | apart ht hpending _ hquiet =>
    obtain ⟨hm, hrest⟩ := List.forall_mem_cons.mp (hbox ▸ hquiet)
    obtain ⟨o, ho, heq⟩ := haside hm
    rw [heq]
    exact ⟨_, .aside hm, .apart ht hpending ho hrest⟩
  | armed ht hn hpending _ hquiet =>
    obtain ⟨hm, hrest⟩ := List.forall_mem_cons.mp (hbox ▸ hquiet)
    obtain ⟨o, ho, heq⟩ := haside hm
    rw [heq]
    exact ⟨_, .aside hm, .armed ht hn hpending ho hrest⟩
  | @posted n _ _ earlier ht hn hpending _ hposted hquiet =>
    -- What was sent before the notice is received before it.
    cases earlier with
    | nil =>
      cases hbox.symm.trans hposted
      rw [receive_of_asks hn]
      exact ⟨_, .onward hn, .received ht hn hpending rfl rfl⟩
    | cons first earlier =>
      cases hbox.symm.trans hposted
      obtain ⟨hm, hrest⟩ := List.forall_mem_cons.mp hquiet
      obtain ⟨o, ho, heq⟩ := haside hm
      rw [heq]
      exact ⟨_, .aside hm, .posted ht hn hpending ho rfl hrest⟩
  | received _ _ _ ho | filled _ _ ho => exact absurd (howner.symm.trans ho) nofun
  | stored _ _ _ hold | woken _ _ _ hold => exact absurd (hbox.symm.trans hold.outbox) nofun

theorem Standing.roused {c : Channel} {ks : List Mark} (hs : c.Standing ks) :
    c.rouse.Standing ks := by
  unfold rouse
  split
  · next hthread => exact hs.waiting hthread nofun
  · exact hs

theorem rouse_not_asleep (c : Channel) (resume : List UInt8 → Dialogue Finished) :
    c.rouse.thread ≠ .posted .asleep resume := by
  unfold rouse
  split
  · exact nofun
  · next hasleep => exact hasleep resume

theorem goOn_owner (c : Channel) (goal : Goal) (failure : Option String) :
    (c.goOn goal failure).owner.isAnswering = false ∧
      (failure = none → (c.goOn goal failure).owner = .expecting goal) := by
  cases failure with
  | none => exact ⟨rfl, fun _ => rfl⟩
  | some text => exact ⟨rfl, nofun⟩

theorem standing_call {c : Channel} {goal : Goal} {failure : Option String} {ks : List Mark}
    (hs : c.Standing ks) (howner : c.owner = .stored goal failure) :
    (c.rouse.goOn goal failure).Standing ks := by
  have hawake := c.rouse_not_asleep
  obtain ⟨ho, hgoal⟩ := c.rouse.goOn_owner goal failure
  replace hs := hs.roused
  replace howner : c.rouse.owner = .stored goal failure := by rw [rouse_eq, howner]
  rw [goOn_eq]
  generalize (c.rouse.goOn goal failure).owner = o at ho hgoal
  generalize c.rouse = c at *
  have hholds {h : Handover} (hold : c.Holds h) : h.count = 0 ∨
      ∃ goal, o = .expecting goal ∨ o = .stored goal none := by
    refine hold.owner.imp_right ?_
    rintro ⟨goal', h | h⟩
    · exact absurd (howner.symm.trans h) nofun
    · cases howner.symm.trans h
      exact ⟨goal, .inl (hgoal rfl)⟩
  cases hs with
  | apart ht hpending _ hquiet => exact .apart ht hpending ho hquiet
  | armed ht hn hpending _ hquiet => exact .armed ht hn hpending ho hquiet
  | posted ht hn hpending _ hbox hquiet => exact .posted ht hn hpending ho hbox hquiet
  | @stored _ _ resume ht hword _ hold =>
    refine .stored ht hword ho ⟨hold.outbox, hold.data, hholds hold⟩ fun h => ?_
    rw [h] at ht
    exact absurd ht (hawake resume)
  | woken ht hpending _ hold => exact .woken ht hpending ho ⟨hold.outbox, hold.data, hholds hold⟩
  | received _ _ _ h | filled _ _ h => exact absurd (howner.symm.trans h) nofun

theorem standing_serves {c c' : Channel} {ks : List Mark} {k : Mark} (hs : c.Standing ks)
    (h : c.Serves k c') : ∃ ks', Goes ks k ks' ∧ c'.Standing ks' := by
  cases h with
  | send howner =>
    exact ⟨_, .aside rfl, hs.elsewhere (by simp [howner, Owner.isElsewhere]) rfl rfl rfl rfl⟩
  | receive howner hbox => exact standing_receive hs howner hbox
  | sleep howner => exact standing_fill hs howner [] (absurd rfl)
  | read answer howner =>
    cases answer with
    | ok bytes => exact standing_fill hs howner bytes (absurd rfl)
    | error text => exact standing_fill hs howner [] fun _ => rfl
  | refuse howner =>
    cases hs with
    | received _ hn _ ho =>
      cases howner.symm.trans ho
      cases hn
    | apart _ _ ho | armed _ _ _ ho | posted _ _ _ ho | stored _ _ ho | woken _ _ ho =>
      simp [howner, Owner.isAnswering] at ho
    | filled _ _ ho => exact absurd (howner.symm.trans ho) nofun
  | @store goal _ failure howner =>
    cases hs with
    | filled ht _ ho hbox hdata hfailure =>
      cases howner.symm.trans ho
      refine ⟨_, .onward rfl, .stored ht rfl rfl ⟨hbox, hdata, ?_⟩ fun _ => ⟨_, _, rfl⟩⟩
      cases failure with
      | none => exact .inr ⟨goal, .inr rfl⟩
      -- After a failed read the owner is soon free to cut the buffer; nothing was put into it.
      | some text => exact .inl (hfailure nofun)
    | apart _ _ ho | armed _ _ _ ho | posted _ _ _ ho | stored _ _ ho | woken _ _ ho =>
      simp [howner, Owner.isAnswering] at ho
    | received _ _ _ ho => exact absurd (howner.symm.trans ho) nofun
  | call howner => exact ⟨_, .aside rfl, standing_call hs howner⟩

theorem standing_step {c c' : Channel} {ks : List Mark} {k : Mark} (hs : c.Standing ks)
    (hcalm : c.thread.EndsWith Finished.IsFinal) (h : c.Step k c') :
    ∃ ks', Goes ks k ks' ∧ c'.Standing ks' := by
  cases h with
  | worker h => exact standing_works hs hcalm h
  | owner h => exact standing_serves hs h
  | load name o howner =>
    exact ⟨_, .aside rfl, hs.elsewhere (by simp [howner, Owner.isElsewhere]) rfl rfl rfl rfl⟩
  | call _ howner =>
    exact ⟨_, .aside rfl, hs.elsewhere (by simp [howner, Owner.isElsewhere]) rfl rfl rfl rfl⟩
  | stir hthread => exact ⟨_, .aside rfl, hs.waiting hthread nofun⟩

theorem work_final (s : Surroundings) (inst : Option Instance) (job : Job) :
    (work s inst job).Always Finished.IsFinal := by
  have hanswer (a : Action Json) (id : UInt64) : (answer inst a id).Always Finished.IsFinal := by
    cases inst with
    | none => exact .done (show Finished.IsFinal _ from rfl)
    | some i =>
      refine Dialogue.always_bind (fun _ => ?_) _
      exact .done (show Finished.IsFinal _ from rfl)
  cases job with
  | load name o =>
    refine Dialogue.always_bind (fun outcome => ?_) _
    cases outcome <;> exact .done (show Finished.IsFinal _ from rfl)
  | call name args id => exact hanswer _ _
  | callWithString name arg args id => exact hanswer _ _

def handovers (ks : List Mark) : List Mark := ks.filter Mark.isHandover

theorem handovers_append (ks ks' : List Mark) :
    handovers (ks ++ ks') = handovers ks ++ handovers ks' := List.filter_append ..

theorem handovers_singleton (k : Mark) : handovers [k] = if k.isHandover then [k] else [] := by
  simp [handovers, List.filter_cons]

theorem handovers_concat (ks : List Mark) (k : Mark) :
    handovers (ks ++ [k]) = handovers ks ++ if k.isHandover then [k] else [] := by
  rw [handovers_append, handovers_singleton]

/-- After every run: whole handovers, and then the marks of one that has begun. -/
theorem run_standing {s : Surroundings} {ks : List Mark} {c : Channel} (h : Run (spawn s) ks c) :
    ∃ (hs : List Handover) (opened : List Mark),
      handovers ks = hs.flatMap Handover.marks ++ opened ∧ c.Standing opened := by
  refine (h.preserves (P := fun ks c => c.thread.EndsWith Finished.IsFinal ∧
    ∃ (hs : List Handover) (opened : List Mark),
      handovers ks = hs.flatMap Handover.marks ++ opened ∧ c.Standing opened) ?_ ?_).2
  · exact ⟨trivial, [], [], rfl, .apart rfl rfl rfl nofun⟩
  · rintro ks k c₁ c' ⟨hcalm, hs, opened, hmarks, hstanding⟩ hstep
    obtain ⟨opened', hgoes, hstanding'⟩ := standing_step hstanding hcalm hstep
    refine ⟨hstep.endsWith (work_final _) hcalm, ?_⟩
    rw [handovers_concat, hmarks, List.append_assoc]
    cases hgoes with
    | aside hk => exact ⟨hs, opened, by simp [hk], hstanding'⟩
    | onward hk => exact ⟨hs, opened ++ [k], by rw [if_pos hk], hstanding'⟩
    | whole done hk heq =>
      refine ⟨hs ++ [done], [], ?_, hstanding'⟩
      rw [if_pos hk, heq]
      simp

/-- A notice has been armed for, and the word not been set since. -/
def isOutstanding (ks : List Mark) : Bool := (handovers ks).getLast?.any Mark.isOpen

/-- How many notices are sent and not answered yet. -/
def unanswered (c : Channel) : Nat :=
  c.outbox.countP Message.asks + if c.owner.isAnswering then 1 else 0

/-- The handshake, as it stands after a run with these marks. -/
structure Handshake (ks : List Mark) (c : Channel) : Prop where
  /-- The marks are those of whole handovers one after the other, up to where the run has come: what
  a worker takes is what was put there for its own notice. -/
  marks_in_order : ∃ hs : List Handover, handovers ks <+: hs.flatMap Handover.marks
  pending_iff : c.shared.isPending = true ↔ isOutstanding ks = true
  /-- There is one slot. -/
  unanswered_le_one : c.unanswered ≤ 1
  nothing_behind (earlier : List Message) (n : Notice) (later : List Message) :
    c.outbox = earlier ++ .notice n :: later → n.asks = true → later = []
  /-- The owner fills the buffer and sets the word only while the word is pending. -/
  answers_pending : c.owner.isAnswering = true → c.shared.isPending = true ∧ c.outbox = []
  /-- A worker sleeps only over an open notice, or is about to be woken. -/
  asleep (resume : List UInt8 → Dialogue Finished) : c.thread = .posted .asleep resume →
    c.shared.isPending = true ∨ ∃ goal failure, c.owner = .stored goal failure
  /-- A wait that has been answered comes to its end, however far it was when the answer came. -/
  wakes (wait : Wait) (resume : List UInt8 → Dialogue Finished) :
    c.thread = .posted wait resume → c.shared.isPending = false →
      ∃ ks' c', Run c ks' c' ∧ c'.thread = .woken c.shared.word resume

theorem Standing.exists_prefix {c : Channel} {opened : List Mark} (hs : c.Standing opened) :
    ∃ h : Handover, opened <+: h.marks := by
  cases hs with
  | apart => exact ⟨⟨.waitForInput, [], 0⟩, List.nil_prefix⟩
  | armed => exact ⟨⟨.waitForInput, [], 0⟩, by simp [Handover.marks]⟩
  | @posted n => exact ⟨⟨n, [], 0⟩, by simp [Handover.marks]⟩
  | @received n => exact ⟨⟨n, [], 0⟩, by simp [Handover.marks]⟩
  | @filled h | @stored h | @woken h => exact ⟨h, List.take_prefix _ _⟩

theorem Standing.isPending_eq {c : Channel} {opened : List Mark} (hs : c.Standing opened) :
    c.shared.isPending = opened.getLast?.any Mark.isOpen := by
  cases hs with
  | apart _ hpending | woken _ hpending => exact hpending
  | armed _ _ hpending | posted _ _ hpending | received _ _ hpending | filled _ hpending =>
    exact hpending
  | stored _ hword => exact SharedBlock.isPending_of_word hword

theorem isOpen_getLast_marks (hs : List Handover) :
    (hs.flatMap Handover.marks).getLast?.any Mark.isOpen = false := by
  induction hs with
  | nil => rfl
  | cons h rest ih =>
    rw [List.flatMap_cons, List.getLast?_append]
    cases hlast : (rest.flatMap Handover.marks).getLast? with
    | none => rfl
    | some k => rwa [hlast] at ih

theorem Standing.isPending_iff {c : Channel} {ks opened : List Mark} {hs : List Handover}
    (hmarks : handovers ks = hs.flatMap Handover.marks ++ opened) (h : c.Standing opened) :
    c.shared.isPending = true ↔ isOutstanding ks = true := by
  rw [h.isPending_eq, isOutstanding, hmarks, List.getLast?_append]
  cases hlast : opened.getLast? with
  | none => simp [isOpen_getLast_marks]
  | some k => simp

theorem Standing.unanswered_le_one {c : Channel} {opened : List Mark} (hs : c.Standing opened) :
    c.unanswered ≤ 1 := by
  have hquiet {box : List Message} (h : ∀ m ∈ box, m.asks = false) :
      box.countP Message.asks = 0 := List.countP_eq_zero.mpr fun m hm => by simp [h m hm]
  cases hs with
  | apart _ _ howner hbox => simp [unanswered, howner, hquiet hbox]
  | armed _ _ _ howner hbox => simp [unanswered, howner, hquiet hbox]
  | posted _ hn _ howner hbox hearlier =>
    simp [unanswered, howner, hbox, hquiet hearlier, Message.asks, hn]
  | received _ _ _ howner hbox => simp [unanswered, howner, hbox, Owner.isAnswering]
  | filled _ _ howner hbox => simp [unanswered, howner, hbox, Owner.isAnswering]
  | stored _ _ howner hold | woken _ _ howner hold => simp [unanswered, howner, hold.outbox]

theorem Standing.nothing_behind {c : Channel} {opened : List Mark} (hs : c.Standing opened)
    {earlier later : List Message} {n : Notice} (hbox : c.outbox = earlier ++ .notice n :: later)
    (hn : n.asks = true) : later = [] := by
  have hmem : Message.notice n ∈ c.outbox := by simp [hbox]
  have hnone (h : ∀ m ∈ c.outbox, m.asks = false) : later = [] := by
    have : n.asks = false := h _ hmem
    simp [hn] at this
  cases hs with
  | apart _ _ _ hquiet => exact hnone hquiet
  | armed _ _ _ _ hquiet => exact hnone hquiet
  | posted _ _ _ _ hposted hquiet =>
    obtain ⟨rfl, -⟩ | ⟨rest, -, hrest⟩ := concat_eq_append_cons (hposted.symm.trans hbox)
    · rfl
    · have hasked : n.asks = false := hquiet (.notice n) (by simp [hrest])
      simp [hn] at hasked
  | received _ _ _ _ hempty => simp [hempty] at hmem
  | filled _ _ _ hempty => simp [hempty] at hmem
  | stored _ _ _ hold | woken _ _ _ hold => simp [hold.outbox] at hmem

theorem Standing.answers_pending {c : Channel} {opened : List Mark} (hs : c.Standing opened)
    (howner : c.owner.isAnswering = true) : c.shared.isPending = true ∧ c.outbox = [] := by
  cases hs with
  | received _ _ hpending _ hbox => exact ⟨hpending, hbox⟩
  | filled _ hpending _ hbox => exact ⟨hpending, hbox⟩
  | apart _ _ h | armed _ _ _ h | posted _ _ _ h | stored _ _ h | woken _ _ h =>
    simp [howner] at h

theorem Standing.asleep {c : Channel} {opened : List Mark} (hs : c.Standing opened)
    {resume : List UInt8 → Dialogue Finished} (hthread : c.thread = .posted .asleep resume) :
    c.shared.isPending = true ∨ ∃ goal failure, c.owner = .stored goal failure := by
  cases hs with
  | posted _ _ hpending | received _ _ hpending | filled _ hpending => exact .inl hpending
  | stored ht _ _ _ hasleep =>
    cases hthread.symm.trans ht
    exact .inr (hasleep rfl)
  | apart ht => simp [hthread, Thread.isApart] at ht
  | armed ht | woken ht => exact absurd (hthread.symm.trans ht) nofun

theorem run_wake {c : Channel} {resume : List UInt8 → Dialogue Finished}
    (hthread : c.thread = .posted .looking resume) (hpending : c.shared.isPending = false) :
    ∃ ks c', Run c ks c' ∧ c'.thread = .woken c.shared.word resume :=
  ⟨_, _, (Step.worker (.wake hthread hpending)).run, rfl⟩

/-- A worker that dozes sees that the word has changed; one that is asleep is woken, since the owner
is about to do so. -/
theorem Standing.wakes {c : Channel} {opened : List Mark} (hs : c.Standing opened) {wait : Wait}
    {resume : List UInt8 → Dialogue Finished} (hthread : c.thread = .posted wait resume)
    (hpending : c.shared.isPending = false) :
    ∃ ks c', Run c ks c' ∧ c'.thread = .woken c.shared.word resume := by
  have hgoes {c₁ : Channel} {k : Mark} (hstep : c.Step k c₁) (hshared : c₁.shared = c.shared)
      (hlooking : c₁.thread = .posted .looking resume) :
      ∃ ks c', Run c ks c' ∧ c'.thread = .woken c.shared.word resume := by
    obtain ⟨ks, c', hrun, hwoken⟩ := run_wake hlooking (hshared ▸ hpending)
    exact ⟨[k] ++ ks, c', hstep.run.trans hrun, hshared ▸ hwoken⟩
  cases wait with
  | looking => exact run_wake hthread hpending
  | dozing => exact hgoes (.worker (.doze hthread)) rfl (by simp [hpending])
  | asleep =>
    obtain h | ⟨goal, failure, howner⟩ := hs.asleep hthread
    · simp [hpending] at h
    · refine hgoes (.owner (.call howner)) ?_ ?_
      · rw [goOn_eq, rouse_eq]
      · rw [goOn_eq, rouse, hthread]

/-- However the two sides take turns, and whatever module runs, host and owner answer, and
operations fail: they keep their handshake. -/
theorem handshake_kept (s : Surroundings) {ks : List Mark} {c : Channel} (h : Run (spawn s) ks c) :
    Handshake ks c := by
  obtain ⟨hs, opened, hmarks, hstanding⟩ := run_standing h
  refine ⟨?_, hstanding.isPending_iff hmarks, hstanding.unanswered_le_one,
    fun _ _ _ => hstanding.nothing_behind, hstanding.answers_pending, fun _ => hstanding.asleep,
    fun _ _ => hstanding.wakes⟩
  obtain ⟨next, hnext⟩ := hstanding.exists_prefix
  refine ⟨hs ++ [next], ?_⟩
  rw [hmarks, List.flatMap_append, List.flatMap_singleton]
  exact (List.prefix_append_right_inj _).mpr hnext

/-- Three bytes of input on their way through a handshake. -/
theorem handshake_kept_reading : ∃ ks c outcome,
    Run (spawn ⟨fun _ => some inputReader, fun _ => true⟩) ks c ∧ c.owner = .free outcome ∧
      outcome.toOption.bind Json.toInt64? = some 3 ∧ Handshake ks c := by
  obtain ⟨ks, c, outcome, hrun, howner, hout, -⟩ := exists_reading_run
  exact ⟨ks, c, outcome, hrun, howner, hout, handshake_kept _ hrun⟩

end Channel

end SandboxHost.Worker
