import SandboxHost.Proofs.Abandonment
import SandboxHost.Proofs.InputStream

namespace SandboxHost.Worker

namespace SharedBlock

theorem take_resize_congr {b b' : SharedBlock} {n : Nat} (hsize : b'.capacity = b.capacity)
    (hdata : b'.data.take n = b.data.take n) (capacity : Nat) :
    (b'.resize capacity).data.take n = (b.resize capacity).data.take n := by
  have hlength : b'.data.length = b.data.length := hsize
  simp only [resize, List.take_append, List.take_take, List.length_take, hlength]
  rw [Nat.min_comm n, ← List.take_take, hdata, List.take_take]

theorem room_congr {b b' : SharedBlock} (hsize : b'.capacity = b.capacity) (count : Nat) :
    b'.room count = b.room count := by rw [room, hsize, room]

theorem take_fill_congr {b b' : SharedBlock} {n : Nat} (hsize : b'.capacity = b.capacity)
    (hdata : b'.data.take n = b.data.take n) (bytes : List UInt8) :
    (b'.fill bytes).data.take (max n (b.room bytes.length)) =
      (b.fill bytes).data.take (max n (b.room bytes.length)) := by
  have hroom := b.room_le bytes.length
  rw [data_fill, data_fill, room_congr hsize]
  generalize b.room bytes.length = r at hroom ⊢
  rw [List.take_append, List.take_append]
  congr 1
  rw [List.length_take, Nat.min_eq_left hroom]
  obtain hle | hle := Nat.le_total n r
  · rw [Nat.max_eq_right hle, Nat.sub_self, List.take_zero, List.take_zero]
  · rw [Nat.max_eq_left hle, ← List.drop_take, ← List.drop_take, hdata]

end SharedBlock

/-- The owner waits for this, or serves the worker meanwhile. -/
def Owner.IsAfter (goal : Goal) : Owner → Prop
  | .expecting g | .serving g _ | .filled g _ _ | .stored g _ => g = goal
  | .free _ | .resized _ _ => False

namespace Channel

/-- Channels that differ only in what nobody looks at any more: in the buffer beyond its first `n`
bytes, in a word that nobody waits for, and in how the last operation came out. -/
structure Resembles (n : Nat) (c c' : Channel) : Prop where
  surroundings : c'.surroundings = c.surroundings
  thread : c'.thread = c.thread
  jobs : c'.jobs = c.jobs
  outbox : c'.outbox = c.outbox
  lastId : c'.lastId = c.lastId
  capacity : c'.shared.capacity = c.shared.capacity
  data : c'.shared.data.take n = c.shared.data.take n
  word : c.thread.isApart = true ∨
    c'.shared.word = c.shared.word ∧ c.shared.word.toNatClampNeg ≤ n
  woken (count : Int32) (resume : List UInt8 → Dialogue Finished) :
    c.thread = .woken count resume → count.toNatClampNeg ≤ n
  filled (goal : Goal) (count : Int32) (failure : Option String) :
    c.owner = .filled goal count failure → count.toNatClampNeg ≤ n
  owner : c'.owner = c.owner ∨ (∃ o, c.owner = .free o) ∧ ∃ o, c'.owner = .free o

namespace Resembles

variable {n : Nat} {c c' d : Channel} {k : Mark}

theorem symm (h : Resembles n c c') : Resembles n c' c where
  surroundings := h.surroundings.symm
  thread := h.thread.symm
  jobs := h.jobs.symm
  outbox := h.outbox.symm
  lastId := h.lastId.symm
  capacity := h.capacity.symm
  data := h.data.symm
  word := by
    rw [h.thread]
    exact h.word.imp_right fun ⟨hword, hle⟩ => ⟨hword.symm, hword ▸ hle⟩
  woken count resume hthread := h.woken count resume (h.thread ▸ hthread)
  filled goal count failure howner := by
    obtain heq | ⟨-, o, ho⟩ := h.owner
    · exact h.filled goal count failure (heq ▸ howner)
    · exact absurd (howner.symm.trans ho) nofun
  owner := h.owner.imp Eq.symm And.symm

theorem word_of_not_isApart (h : Resembles n c c') (hthread : c.thread.isApart = false) :
    c'.shared.word = c.shared.word ∧ c.shared.word.toNatClampNeg ≤ n :=
  h.word.resolve_left (by simp [hthread])

theorem isPending_eq (h : Resembles n c c') (hthread : c.thread.isApart = false) :
    c'.shared.isPending = c.shared.isPending := by
  rw [SharedBlock.isPending, (h.word_of_not_isApart hthread).1, SharedBlock.isPending]

/-- Channels that resemble each other differ only in what the two sides share and in their
owners. -/
theorem exists_eq (h : Resembles n c c') :
    ∃ b o, c' = { c with shared := b, owner := o } := by
  obtain ⟨surroundings, thread, jobs, outbox, shared, owner, lastId⟩ := c'
  obtain ⟨rfl, rfl, rfl, rfl, rfl, -⟩ := h
  exact ⟨_, _, rfl⟩

theorem moved {b : SharedBlock} {o : Owner} {thread : Thread} {jobs : List Job}
    {outbox : List Message} (h : Resembles n c { c with shared := b, owner := o })
    (hword : thread.isApart = true ∨
      b.word = c.shared.word ∧ c.shared.word.toNatClampNeg ≤ n)
    (hwoken : ∀ count resume, thread = .woken count resume → count.toNatClampNeg ≤ n) :
    Resembles n { c with thread := thread, jobs := jobs, outbox := outbox }
      { c with thread := thread, jobs := jobs, outbox := outbox, shared := b, owner := o } :=
  ⟨rfl, rfl, rfl, rfl, rfl, h.capacity, h.data, hword, hwoken, h.filled, h.owner⟩

theorem armed {b : SharedBlock} {o : Owner} {thread : Thread}
    (h : Resembles n c { c with shared := b, owner := o })
    (hwoken : ∀ count resume, thread = .woken count resume → count.toNatClampNeg ≤ n) :
    Resembles n { c with thread := thread, shared := c.shared.arm }
      { c with thread := thread, shared := b.arm, owner := o } :=
  ⟨rfl, rfl, rfl, rfl, rfl, h.capacity, h.data, .inr ⟨rfl, Nat.zero_le n⟩, hwoken, h.filled,
    h.owner⟩

theorem works (h : Resembles n c c') (hstep : c.Works k d) :
    ∃ d', c'.Works k d' ∧ Resembles n d d' ∧ d'.owner = c'.owner := by
  obtain ⟨b, o, rfl⟩ := h.exists_eq
  cases hstep with
  | begin hthread hjobs => exact ⟨_, .begin hthread hjobs, h.moved (.inl rfl) nofun, rfl⟩
  | finish hthread => exact ⟨_, .finish hthread, h.moved (.inl rfl) nofun, rfl⟩
  | armToSleep hthread => exact ⟨_, .armToSleep hthread, h.armed nofun, rfl⟩
  | armToRead hthread => exact ⟨_, .armToRead hthread, h.armed nofun, rfl⟩
  | talk answer hr hthread => exact ⟨_, .talk answer hr hthread, h.moved (.inl rfl) nofun, rfl⟩
  | post hthread =>
    have hword := h.word_of_not_isApart (by rw [hthread]; rfl)
    exact ⟨_, .post hthread, h.moved (.inr hword) nofun, rfl⟩
  | look hthread hpending =>
    have hword := h.word_of_not_isApart (by rw [hthread]; rfl)
    have hsame := h.isPending_eq (by rw [hthread]; rfl)
    exact ⟨_, .look hthread (hsame.trans hpending), h.moved (.inr hword) nofun, rfl⟩
  | wake hthread hpending =>
    have hword := h.word_of_not_isApart (by rw [hthread]; rfl)
    have hsame := h.isPending_eq (by rw [hthread]; rfl)
    have hwake := Works.wake (c := { c with shared := b, owner := o }) hthread
      (hsame.trans hpending)
    rw [show (Channel.shared { c with shared := b, owner := o }).word = c.shared.word from
      hword.1] at hwake
    refine ⟨_, hwake, h.moved (.inr hword) ?_, rfl⟩
    rintro _ _ ⟨⟩
    exact hword.2
  | doze hthread =>
    have hword := h.word_of_not_isApart (by rw [hthread]; rfl)
    have hsame := h.isPending_eq (by rw [hthread]; rfl)
    have hdoze := Works.doze (c := { c with shared := b, owner := o }) hthread
    rw [hsame] at hdoze
    exact ⟨_, hdoze, h.moved (.inr hword) nofun, rfl⟩
  | @take count resume hthread =>
    -- What is taken lies where the two buffers agree.
    have htaken : b.take count.toNatClampNeg = c.shared.take count.toNatClampNeg := by
      have hdata := congrArg (List.take count.toNatClampNeg) h.data
      rwa [List.take_take, List.take_take, Nat.min_eq_left (h.woken count resume hthread)] at hdata
    have htake := Works.take (c := { c with shared := b, owner := o }) hthread
    rw [show (Channel.shared { c with shared := b, owner := o }).take count.toNatClampNeg = _ from
      htaken] at htake
    exact ⟨_, htake, h.moved (.inl rfl) nofun, rfl⟩

theorem withOutbox (h : Resembles n c c') (outbox : List Message) :
    Resembles n { c with outbox := outbox } { c' with outbox := outbox } :=
  ⟨h.surroundings, h.thread, h.jobs, rfl, h.lastId, h.capacity, h.data, h.word, h.woken, h.filled,
    h.owner⟩

theorem exists_free {outcome : Except Error Json} (h : Resembles n c c')
    (hfree : c.owner = .free outcome) : ∃ outcome', c'.owner = .free outcome' :=
  h.owner.elim (fun heq => ⟨outcome, heq.trans hfree⟩) And.right

theorem withOwner {o : Owner} (h : Resembles n c c')
    (ho : ∀ goal count failure, o ≠ .filled goal count failure) :
    Resembles n { c with owner := o } { c' with owner := o } :=
  ⟨h.surroundings, h.thread, h.jobs, h.outbox, h.lastId, h.capacity, h.data, h.word, h.woken,
    fun _ _ _ howner => absurd howner (ho _ _ _), .inl rfl⟩

theorem given {id id' : UInt64} (h : Resembles n c c') (job : Job) (goal : Goal) (hid : id' = id) :
    Resembles n { c with jobs := c.jobs ++ [job], owner := .expecting goal, lastId := id }
      { c' with jobs := c'.jobs ++ [job], owner := .expecting goal, lastId := id' } :=
  ⟨h.surroundings, h.thread, congrArg (· ++ [job]) h.jobs, h.outbox, hid, h.capacity, h.data,
    h.word, h.woken, nofun, .inl rfl⟩

theorem stirred (h : Resembles n c c') {resume : List UInt8 → Dialogue Finished}
    (hthread : c.thread = .posted .asleep resume) :
    Resembles n { c with thread := .posted .looking resume }
      { c' with thread := .posted .looking resume } :=
  ⟨h.surroundings, rfl, h.jobs, h.outbox, h.lastId, h.capacity, h.data,
    .inr (h.word_of_not_isApart (by rw [hthread]; rfl)), nofun, h.filled, h.owner⟩

theorem rouse (h : Resembles n c c') : Resembles n c.rouse c'.rouse := by
  unfold Channel.rouse
  rw [h.thread]
  split
  · next hthread => exact h.stirred hthread
  · exact h

theorem receive {goal : Goal} {m : Message} (h : Resembles n c c') (howner : c'.owner = c.owner) :
    Resembles n (c.receive goal m) (c'.receive goal m) ∧
      (c'.receive goal m).owner = (c.receive goal m).owner := by
  unfold Channel.receive
  split <;> try exact ⟨h.withOwner nofun, rfl⟩
  split
  · exact ⟨h.withOwner nofun, rfl⟩
  · exact ⟨h, howner⟩

theorem goOn {goal : Goal} {failure : Option String} (h : Resembles n c c') :
    Resembles n (c.goOn goal failure) (c'.goOn goal failure) ∧
      (c'.goOn goal failure).owner = (c.goOn goal failure).owner := by
  cases failure <;> exact ⟨h.withOwner nofun, rfl⟩

theorem fill (h : Resembles n c c') (goal : Goal) (bytes : List UInt8) (failure : Option String) :
    Resembles (max n (c.shared.room bytes.length)) (c.fill goal bytes failure)
        (c'.fill goal bytes failure) ∧
      (c'.fill goal bytes failure).owner = (c.fill goal bytes failure).owner := by
  have hroom : c'.shared.room bytes.length = c.shared.room bytes.length :=
    SharedBlock.room_congr h.capacity _
  have howner : (c'.fill goal bytes failure).owner = (c.fill goal bytes failure).owner := by
    rw [Channel.fill, Channel.fill, hroom]
  have hle : n ≤ max n (c.shared.room bytes.length) := Nat.le_max_left _ _
  refine ⟨⟨h.surroundings, h.thread, h.jobs, h.outbox, h.lastId, ?_,
    SharedBlock.take_fill_congr h.capacity h.data bytes,
    h.word.imp_right fun hword => ⟨hword.1, Nat.le_trans hword.2 hle⟩,
    fun count resume hthread => Nat.le_trans (h.woken count resume hthread) hle, ?_,
    .inl howner⟩, howner⟩
  · rw [Channel.fill, Channel.fill, SharedBlock.capacity_fill, SharedBlock.capacity_fill]
    exact h.capacity
  · rintro _ _ _ ⟨⟩
    rw [Int32.toNatClampNeg_ofNat_of_lt (c.shared.room_lt _)]
    exact Nat.le_max_right _ _

theorem store (h : Resembles n c c') {goal : Goal} {count : Int32} {failure : Option String}
    (howner : c.owner = .filled goal count failure) :
    Resembles n { c with shared := c.shared.complete count, owner := .stored goal failure }
      { c' with shared := c'.shared.complete count, owner := .stored goal failure } :=
  ⟨h.surroundings, h.thread, h.jobs, h.outbox, h.lastId, h.capacity, h.data,
    .inr ⟨rfl, h.filled goal count failure howner⟩, h.woken, nofun, .inl rfl⟩

theorem serves (h : Resembles n c c') (howner : c'.owner = c.owner) (hstep : c.Serves k d) :
    ∃ n' d', c'.Serves k d' ∧ Resembles n' d d' ∧ d'.owner = d.owner := by
  cases hstep with
  | send hresized =>
    rw [← howner] at hresized
    exact ⟨n, _, .send hresized, h.given _ _ h.lastId, rfl⟩
  | receive hexpecting hbox =>
    rw [← howner] at hexpecting
    exact ⟨n, _, .receive hexpecting (h.outbox.trans hbox), (h.withOutbox _).receive howner⟩
  | sleep hserving =>
    rw [← howner] at hserving
    rw [← h.capacity]
    exact ⟨_, _, .sleep hserving, h.fill _ _ _⟩
  | read answer hserving =>
    rw [← howner] at hserving
    rw [← h.capacity]
    cases answer <;> exact ⟨_, _, .read _ hserving, h.fill _ _ _⟩
  | refuse hserving =>
    rw [← howner] at hserving
    exact ⟨n, _, .refuse hserving, h.withOwner nofun, rfl⟩
  | store hfilled =>
    exact ⟨n, _, .store (howner.trans hfilled), h.store hfilled, rfl⟩
  | call hstored =>
    rw [← howner] at hstored
    exact ⟨n, _, .call hstored, h.rouse.goOn⟩

/-- Whatever one of the channels does the other can do as well, and they resemble each other again.
Once a job has been given, the owners are at the same too. -/
theorem step (h : Resembles n c c') (hstep : c.Step k d) :
    ∃ n' d', c'.Step k d' ∧ Resembles n' d d' ∧
      (c'.owner = c.owner ∨ k.sent?.isSome → d'.owner = d.owner) := by
  cases hstep with
  | worker hstep =>
    have hsame : d.owner = c.owner ∧ k.sent? = none := by cases hstep <;> exact ⟨rfl, rfl⟩
    obtain ⟨d', hstep', hd, howner⟩ := h.works hstep
    refine ⟨n, d', .worker hstep', hd, fun halike => ?_⟩
    rw [howner, hsame.1]
    exact halike.resolve_right (by simp [hsame.2])
  | owner hstep =>
    have hbusy : ¬ ∃ o, c.owner = .free o := by
      rintro ⟨o, ho⟩
      cases hstep <;> simp_all
    have howner : c'.owner = c.owner := h.owner.resolve_right fun hfree => hbusy hfree.1
    obtain ⟨n', d', hstep', hd, howner'⟩ := h.serves howner hstep
    exact ⟨n', d', .owner hstep', hd, fun _ => howner'⟩
  | load name o hfree =>
    obtain ⟨outcome, hfree'⟩ := h.exists_free hfree
    refine ⟨n, _, .load name o hfree', ⟨h.surroundings, h.thread, h.jobs, h.outbox, h.lastId, ?_,
      SharedBlock.take_resize_congr h.capacity h.data _, h.word, h.woken, ?_, .inl rfl⟩,
      fun _ => rfl⟩
    · rw [requestLoad, requestLoad, SharedBlock.capacity_resize, SharedBlock.capacity_resize]
    · rintro _ _ _ ⟨⟩
  | @call _ job hjob hfree =>
    obtain ⟨outcome, hfree'⟩ := h.exists_free hfree
    have hcall := Step.call hjob hfree'
    unfold requestCall at hcall ⊢
    rw [h.lastId] at hcall
    exact ⟨n, _, hcall, h.given _ _ rfl, fun _ => rfl⟩
  | stir hthread =>
    refine ⟨n, _, .stir (h.thread.trans hthread), h.stirred hthread, fun halike => ?_⟩
    exact halike.resolve_right (by simp [Mark.sent?])

theorem run {ks : List Mark} (h : Resembles n c c') (hrun : Run c ks d) :
    ∃ n' d', Run c' ks d' ∧ Resembles n' d d' ∧
      (c'.owner = c.owner ∨ sentJobs ks ≠ [] → d'.owner = d.owner) := by
  induction hrun with
  | nil => exact ⟨n, c', .nil, h, fun halike => halike.resolve_right (absurd rfl)⟩
  | @concat ks k c₁ d _ hstep ih =>
    obtain ⟨n₁, c₁', hrun', hc₁, howner⟩ := ih
    obtain ⟨n', d', hstep', hd, howner'⟩ := hc₁.step hstep
    refine ⟨n', d', hrun'.concat hstep', hd, fun halike => howner' ?_⟩
    rw [sentJobs_concat] at halike
    by_cases hsent : k.sent?.isSome
    · exact .inr hsent
    · refine .inl (howner (halike.imp_right ?_))
      simp [Option.not_isSome_iff_eq_none.mp hsent]

end Resembles

/-- Whatever can come of the first channel can come of the second as well: with the same steps, the
same worker and the same messages on the way, and, once a job has been given, the same outcome. -/
def Matches (c c' : Channel) : Prop :=
  ∀ ks d, Run c ks d → ∃ d', Run c' ks d' ∧ d'.thread = d.thread ∧ d'.jobs = d.jobs ∧
    d'.outbox = d.outbox ∧ d'.shared.capacity = d.shared.capacity ∧
      (sentJobs ks ≠ [] → d'.owner = d.owner)

/-- Nobody can tell one of the channels from the other by what comes of it. -/
def Alike (c c' : Channel) : Prop := c.Matches c' ∧ c'.Matches c

theorem Resembles.matches {n : Nat} {c c' : Channel} (h : Resembles n c c') : c.Matches c' := by
  intro ks d hrun
  obtain ⟨n', d', hrun', hd, howner⟩ := h.run hrun
  exact ⟨d', hrun', hd.thread, hd.jobs, hd.outbox, hd.capacity, fun hsent => howner (.inr hsent)⟩

theorem Resembles.alike {n : Nat} {c c' : Channel} (h : Resembles n c c') : c.Alike c' :=
  ⟨h.matches, h.symm.matches⟩

/-- Steps in a row of one operation: before each of them, the owner is still at it. -/
inductive Operates (c : Channel) : List Mark → Channel → Prop where
  | nil : Operates c [] c
  | concat {ks : List Mark} {k : Mark} {c₁ c' : Channel} :
    Operates c ks c₁ → (∀ outcome, c₁.owner ≠ .free outcome) → Step c₁ k c' →
      Operates c (ks ++ [k]) c'

theorem Step.operating {c c' : Channel} {k : Mark} (h : c.Step k c')
    (hbusy : ∀ outcome, c.owner ≠ .free outcome) :
    c'.shared.capacity = c.shared.capacity ∧ c'.lastId = c.lastId := by
  refine ⟨h.capacity ?_, ?_⟩
  · rintro _ rfl
    cases h with
    | load _ _ hfree => exact hbusy _ hfree
    | worker h | owner h => cases h
  · cases h with
    | worker h => cases h <;> rfl
    | owner h =>
      obtain ⟨_, _, -, -, rfl⟩ | ⟨-, hlast, -⟩ := h.same
      · rfl
      · exact hlast
    | load _ _ hfree | call _ hfree => exact absurd hfree (hbusy _)
    | stir => rfl

/-- Where a load stands that was asked of a worker at rest, with this instance. -/
inductive Loading (inst : Option Instance) (name : String) (o : Options) (c : Channel) : Prop where
  | asked : c.thread = .idle inst → c.jobs = [] → c.outbox = [] → c.owner = .resized name o →
    Loading inst name o c
  | given : c.thread = .idle inst → c.jobs = [.load name o] → c.outbox = [] →
    c.owner = .expecting .loaded → Loading inst name o c
  | working : c.thread.Carries (work c.surroundings inst (.load name o)) → c.jobs = [] →
    c.outbox.filter (!·.asks) = [] → c.owner.IsAfter .loaded → Loading inst name o c
  | worked {f : Finished} {t : Trace} {asking : List Message} :
    (work c.surroundings inst (.load name o)).Ends t f → c.thread = .idle f.inst → c.jobs = [] →
    c.outbox = asking ++ [f.message] → asking.filter (!·.asks) = [] → c.owner.IsAfter .loaded →
    Loading inst name o c
  | ended {outcome : Except Error Json} : c.owner = .free outcome →
    (∀ text, outcome = .error (.workerInit text) →
      c.thread = .idle inst ∧ c.jobs = [] ∧ c.outbox = []) → Loading inst name o c

/-- A module that fails to load leaves the one before in place. -/
theorem message_of_ends {s : Surroundings} {inst : Option Instance} {name : String} {o : Options}
    {t : Trace} {f : Finished} (h : (work s inst (.load name o)).Ends t f) :
    f.message = .notice (.loaded .ok none) ∨
      ∃ text, f.message = .notice (.loaded .error (some text)) ∧ f.inst = inst := by
  obtain ⟨_, loaded, _, -, hend, -⟩ := Dialogue.ends_bind.mp h
  cases loaded with
  | ok i =>
    cases hend
    exact .inl rfl
  | error e =>
    cases hend
    exact .inr ⟨_, rfl, rfl⟩

theorem Serves.loading {c c' : Channel} {k : Mark} (h : c.Serves k c')
    (howner : c.owner.IsAfter .loaded) :
    (∃ m rest, c.outbox = m :: rest ∧ c' = { c with outbox := rest }.receive .loaded m) ∨
    ((c'.thread = c.thread ∨ c'.thread = c.rouse.thread) ∧ c'.jobs = c.jobs ∧
      c'.outbox = c.outbox ∧ (c'.owner.IsAfter .loaded ∨
        ∃ e : Error, e.isOfOwner = true ∧ c'.owner = .free (.error e))) := by
  have hthread := h.thread
  cases h with
  | send hresized =>
    rw [hresized] at howner
    exact howner.elim
  | receive hexpecting hbox =>
    rw [hexpecting] at howner
    obtain rfl : _ = Goal.loaded := howner
    exact .inl ⟨_, _, hbox, rfl⟩
  | sleep hserving =>
    rw [hserving] at howner
    exact .inr ⟨hthread, rfl, rfl, .inl howner⟩
  | read answer hserving =>
    rw [hserving] at howner
    cases answer <;> exact .inr ⟨hthread, rfl, rfl, .inl howner⟩
  | refuse => exact .inr ⟨hthread, rfl, rfl, .inr ⟨_, rfl, rfl⟩⟩
  | store hfilled =>
    rw [hfilled] at howner
    exact .inr ⟨hthread, rfl, rfl, .inl howner⟩
  | @call _ failure hstored =>
    rw [hstored] at howner
    refine .inr ⟨hthread, by rw [goOn_eq, rouse_eq], by rw [goOn_eq, rouse_eq], ?_⟩
    cases failure with
    | none => exact .inl howner
    | some text => exact .inr ⟨_, rfl, rfl⟩

theorem Works.of_idle {c c' : Channel} {k : Mark} {inst : Option Instance} (h : c.Works k c')
    (hthread : c.thread = .idle inst) : ∃ job rest, c.jobs = job :: rest ∧
      c' = { c with jobs := rest, thread := .busy (work c.surroundings inst job) } := by
  cases h with
  | begin ht hjobs =>
    cases hthread.symm.trans ht
    exact ⟨_, _, hjobs, rfl⟩
  | finish ht | armToSleep ht | armToRead ht | talk _ _ ht | post ht | look ht | wake ht | doze ht
    | take ht => exact absurd (hthread.symm.trans ht) nofun

namespace Loading

variable {inst : Option Instance} {name : String} {o : Options} {c c' : Channel} {k : Mark}

theorem of_isOfOwner {e : Error} (he : e.isOfOwner = true) (howner : c.owner = .free (.error e)) :
    Loading inst name o c := by
  refine .ended howner fun text htext => ?_
  cases htext
  cases he

theorem works (h : Loading inst name o c) (hbusy : ∀ outcome, c.owner ≠ .free outcome)
    (hstep : c.Works k c') : Loading inst name o c' := by
  have howner : c'.owner = c.owner := by cases hstep <;> rfl
  cases h with
  | asked hthread hjobs =>
    obtain ⟨job, rest, hjob, -⟩ := hstep.of_idle hthread
    exact absurd (hjobs.symm.trans hjob) nofun
  | given hthread hjobs hbox hexpecting =>
    obtain ⟨job, rest, hjob, rfl⟩ := hstep.of_idle hthread
    cases hjobs.symm.trans hjob
    exact .working ⟨[], .refl _⟩ rfl (by rw [hbox]; rfl) (by rw [hexpecting]; rfl)
  | working hcarries hjobs hbox hafter =>
    obtain ⟨hcarries', hjobs', -, -, hbox'⟩ | ⟨f, t, hends, -, rfl⟩ := hstep.carries hcarries
    · rw [← (Step.worker hstep).surroundings] at hcarries'
      exact .working hcarries' (hjobs'.trans hjobs) (hbox'.trans hbox) (howner ▸ hafter)
    · exact .worked hends rfl hjobs rfl hbox hafter
  | worked _ hthread hjobs =>
    obtain ⟨job, rest, hjob, -⟩ := hstep.of_idle hthread
    exact absurd (hjobs.symm.trans hjob) nofun
  | ended hfree => exact absurd hfree (hbusy _)

theorem isAfter_receive {m : Message} (hm : m.asks = true) :
    (c.receive .loaded m).owner.IsAfter .loaded := by
  cases m with
  | reply r => cases hm
  | notice n =>
    rw [receive_of_asks hm]
    rfl

theorem filter_asking {m : Message} {rest : List Message}
    (h : (m :: rest).filter (!·.asks) = []) : m.asks = true ∧ rest.filter (!·.asks) = [] := by
  rw [List.filter_eq_nil_iff, List.forall_mem_cons] at h
  exact ⟨by simpa using h.1, List.filter_eq_nil_iff.mpr h.2⟩

/-- The owner is told how the load came out. -/
theorem told {f : Finished} {t : Trace} (hends : (work c.surroundings inst (.load name o)).Ends t f)
    (hthread : c.thread = .idle f.inst) (hjobs : c.jobs = []) :
    Loading inst name o ({ c with outbox := [] }.receive .loaded f.message) := by
  obtain hok | ⟨text, hfailed, hinst⟩ := message_of_ends hends
  · rw [hok]
    exact .ended rfl nofun
  · rw [hfailed]
    exact .ended rfl fun _ _ => ⟨hinst ▸ hthread, hjobs, rfl⟩

theorem serves (h : Loading inst name o c) (hbusy : ∀ outcome, c.owner ≠ .free outcome)
    (hstep : c.Serves k c') : Loading inst name o c' := by
  have hsurroundings : c'.surroundings = c.surroundings := (Step.owner hstep).surroundings
  cases h with
  | asked hthread hjobs hbox hresized =>
    cases hstep with
    -- The buffer has its new size, so the request for the load is sent next.
    | send hsend =>
      cases hresized.symm.trans hsend
      exact .given hthread (by rw [hjobs]; rfl) hbox rfl
    | receive ho | sleep ho | read _ ho | refuse ho | store ho | call ho =>
      exact absurd (hresized.symm.trans ho) nofun
  | given hthread hjobs hbox hexpecting =>
    cases hstep with
    -- The worker has said nothing yet, so there is nothing to receive.
    | receive _ hout => exact absurd (hbox.symm.trans hout) nofun
    | send ho | sleep ho | read _ ho | refuse ho | store ho | call ho =>
      exact absurd (hexpecting.symm.trans ho) nofun
  | working hcarries hjobs hbox hafter =>
    -- Either a question of the guest is received, or one that was received is answered.
    obtain ⟨m, rest, hout, rfl⟩ | ⟨hthread, hjobs', hbox', hafter' | ⟨e, he, hfailed⟩⟩ :=
      hstep.loading hafter
    · rw [hout] at hbox
      obtain ⟨hm, hrest⟩ := filter_asking hbox
      have hnext := isAfter_receive (c := { c with outbox := rest }) hm
      rw [receive_eq] at hnext ⊢
      exact .working hcarries hjobs hrest hnext
    · refine .working ?_ (hjobs'.trans hjobs) (hbox' ▸ hbox) hafter'
      rw [hsurroundings]
      obtain heq | heq := hthread
      · rwa [heq]
      · have hat : c.thread.IsAt c.surroundings inst (some (.load name o)) := hcarries
        rw [heq]
        exact rouse_isAt hat
    · exact of_isOfOwner he hfailed
  | @worked f _ asking hends hthread hjobs hbox hasking hafter =>
    obtain ⟨m, rest, hout, rfl⟩ | ⟨hthread', hjobs', hbox', hafter' | ⟨e, he, hfailed⟩⟩ :=
      hstep.loading hafter
    · cases asking with
      | nil =>
        -- All that the guest asked is received, so this is how the load ended.
        cases hbox.symm.trans hout
        exact told hends hthread hjobs
      | cons first asking =>
        cases hbox.symm.trans hout
        obtain ⟨hm, hrest⟩ := filter_asking hasking
        have hnext := isAfter_receive (c := { c with outbox := asking ++ [f.message] }) hm
        rw [receive_eq] at hnext ⊢
        exact .worked hends hthread hjobs rfl hrest hnext
    · refine .worked (hsurroundings ▸ hends) ?_ (hjobs'.trans hjobs) (hbox'.trans hbox) hasking
        hafter'
      obtain heq | heq := hthread'
      · exact heq.trans hthread
      · rw [heq, rouse, hthread]
        exact hthread
    · exact of_isOfOwner he hfailed
  | ended hfree => exact absurd hfree (hbusy _)

theorem step (h : Loading inst name o c) (hbusy : ∀ outcome, c.owner ≠ .free outcome)
    (hstep : c.Step k c') : Loading inst name o c' := by
  cases hstep with
  | worker hstep => exact h.works hbusy hstep
  | owner hstep => exact h.serves hbusy hstep
  | load _ _ hfree | call _ hfree => exact absurd hfree (hbusy _)
  | stir hasleep =>
    cases h with
    | working hcarries hjobs hbox hafter =>
      rw [hasleep] at hcarries
      exact .working hcarries hjobs hbox hafter
    | asked hthread | given hthread | worked _ hthread =>
      exact absurd (hthread.symm.trans hasleep) nofun
    | ended hfree => exact absurd hfree (hbusy _)

end Loading

theorem Operates.loading {inst : Option Instance} {name : String} {o : Options} {c c' : Channel}
    {ks : List Mark} (h : (c.requestLoad name o).Operates ks c') (hthread : c.thread = .idle inst)
    (hjobs : c.jobs = []) (hbox : c.outbox = []) : Loading inst name o c' ∧
      c'.surroundings = c.surroundings ∧ c'.shared.capacity = o.stdinBufferSize.toNat ∧
      c'.lastId = c.lastId := by
  induction h with
  | nil => exact ⟨.asked hthread hjobs hbox rfl, rfl, c.shared.capacity_resize _, rfl⟩
  | concat _ hbusy hstep ih =>
    obtain ⟨hloading, hsurroundings, hcapacity, hlast⟩ := ih
    obtain ⟨hsize, hid⟩ := hstep.operating hbusy
    exact ⟨hloading.step hbusy hstep, hstep.surroundings.trans hsurroundings,
      hsize.trans hcapacity, hid.trans hlast⟩

/-- Channels at rest with the same worker and a buffer of the same size resemble each other. -/
theorem resembles_of_idle {inst : Option Instance} {c c' : Channel}
    {outcome outcome' : Except Error Json} (hthread : c.thread = .idle inst)
    (hthread' : c'.thread = .idle inst) (hsurroundings : c'.surroundings = c.surroundings)
    (hjobs : c'.jobs = c.jobs) (hbox : c'.outbox = c.outbox) (hlast : c'.lastId = c.lastId)
    (hsize : c'.shared.capacity = c.shared.capacity) (hfree : c.owner = .free outcome)
    (hfree' : c'.owner = .free outcome') : Resembles 0 c c' where
  surroundings := hsurroundings
  thread := hthread'.trans hthread.symm
  jobs := hjobs
  outbox := hbox
  lastId := hlast
  capacity := hsize
  data := by rw [List.take_zero, List.take_zero]
  word := .inl (by rw [hthread]; rfl)
  woken _ _ hwoken := absurd (hthread.symm.trans hwoken) nofun
  filled _ _ _ hfilled := absurd (hfree.symm.trans hfilled) nofun
  owner := .inr ⟨⟨_, hfree⟩, _, hfree'⟩

/-- What a load that fails leaves behind is the size of the buffer that came with it, and nothing
else: the worker keeps its instance, and all that can come of it then is what could have come of it
with a buffer of that size and no load. -/
theorem failed_load_keeps (s : Surroundings) {ks ks' : List Mark} {c c' : Channel}
    {outcome : Except Error Json} {name text : String} {o : Options} (h : Run (spawn s) ks c)
    (hfree : c.owner = .free outcome) (hload : (c.requestLoad name o).Operates ks' c')
    (hfailed : c'.owner = .free (.error (.workerInit text))) :
    GaveUp s ks c ∨ (c'.thread = c.thread ∧ c'.shared.capacity = o.stdinBufferSize.toNat ∧
      { c with shared := c.shared.resize o.stdinBufferSize.toNat }.Alike c' ∧
      (c.shared.capacity = o.stdinBufferSize.toNat → c.Alike c')) := by
  refine (idle_between_operations s h (by rw [hfree]; rfl)).imp_right ?_
  rintro ⟨⟨inst, hthread⟩, hjobs, hbox, -⟩
  obtain ⟨hloading, hsurroundings, hcapacity, hlast⟩ := hload.loading hthread hjobs hbox
  cases hloading with
  | ended hend htold =>
    cases hfailed.symm.trans hend
    obtain ⟨hthread', hjobs', hbox'⟩ := htold text rfl
    refine ⟨hthread'.trans hthread.symm, hcapacity, ?_, fun hsize => ?_⟩
    · refine (resembles_of_idle (c := { c with shared := c.shared.resize o.stdinBufferSize.toNat })
        hthread hthread' hsurroundings (hjobs'.trans hjobs.symm) (hbox'.trans hbox.symm) hlast ?_
        hfree hfailed).alike
      exact hcapacity.trans (c.shared.capacity_resize _).symm
    · exact (resembles_of_idle hthread hthread' hsurroundings (hjobs'.trans hjobs.symm)
        (hbox'.trans hbox.symm) hlast (hcapacity.trans hsize.symm) hfree hfailed).alike
  | asked _ _ _ ho | given _ _ _ ho => exact absurd (hfailed.symm.trans ho) nofun
  | working _ _ _ ho | worked _ _ _ _ _ ho =>
    rw [hfailed] at ho
    exact ho.elim

def soleReader : Surroundings where
  module? name := if name = "reader" then some inputReader else none
  directoryExists _ := true

theorem run_loaded {s : Surroundings} {name : String} {o : Options} {inst : Option Instance}
    (h : work s none (.load name o) = .done ⟨.notice (.loaded .ok none), inst⟩) :
    ∃ ks shared, Run (spawn s) ks ⟨s, .idle inst, [], [], shared, .free (.ok .null), 0⟩ := by
  have hbegan := (run_load_sent s name o).concat (.worker (.begin rfl rfl))
  have hfinished := hbegan.concat (.worker (.finish (congrArg Thread.busy h)))
  have htold := hfinished.concat (.owner (.receive rfl rfl))
  exact ⟨_, _, htold⟩

theorem exists_operates_failed {s : Surroundings} {inst : Option Instance} {shared : SharedBlock}
    {outcome : Except Error Json} {id : UInt64} {name text : String} {o : Options}
    (h : work s inst (.load name o) = .done ⟨.notice (.loaded .error (some text)), inst⟩) :
    ∃ ks c, (Channel.requestLoad ⟨s, .idle inst, [], [], shared, .free outcome, id⟩ name o).Operates
      ks c ∧ c.owner = .free (.error (.workerInit text)) := by
  have hsent := Operates.nil.concat (c := Channel.requestLoad ⟨s, .idle inst, [], [], shared,
    .free outcome, id⟩ name o) nofun (.owner (.send rfl))
  have hbegan := hsent.concat nofun (.worker (.begin rfl rfl))
  have hfinished := hbegan.concat nofun (.worker (.finish (congrArg Thread.busy h)))
  exact ⟨_, _, hfinished.concat nofun (.owner (.receive rfl rfl)), rfl⟩

/-- A worker with a module is asked for one that does not exist. -/
theorem failed_load_keeps_missing : ∃ ks c i ks' c' outcome text,
    Run (spawn soleReader) ks c ∧ c.thread = .idle (some i) ∧ c.owner = .free outcome ∧
    (c.requestLoad "missing" { config := .standard, stdinBufferSize := 2 }).Operates ks' c' ∧
    c'.owner = .free (.error (.workerInit text)) ∧
    (GaveUp soleReader ks c ∨ (c'.thread = c.thread ∧ c'.shared.capacity = 2 ∧
      { c with shared := c.shared.resize 2 }.Alike c' ∧
      (c.shared.capacity = 2 → c.Alike c'))) := by
  have h : isLoaded (work soleReader none (.load "reader" { config := .standard })) = true := by
    decide +kernel
  obtain ⟨inst, hwork⟩ := exists_of_isLoaded h
  have hleaves := work_load_streams soleReader none "reader" { config := .standard }
  rw [hwork] at hleaves
  cases hleaves with
  | done hleaves =>
    obtain ⟨i, rfl, -⟩ := hleaves.leaves rfl
    obtain ⟨ks, shared, hrun⟩ := run_loaded hwork
    have hmissing : work soleReader (some i)
        (.load "missing" { config := .standard, stdinBufferSize := 2 }) =
        .done ⟨.notice (.loaded .error (some (Error.engine .loadFailed).message)), some i⟩ := rfl
    obtain ⟨ks', c', hload, hfailed⟩ := exists_operates_failed hmissing
    exact ⟨ks, _, i, ks', c', _, _, hrun, rfl, rfl, hload, hfailed,
      failed_load_keeps _ hrun rfl hload hfailed⟩

def inputUpTo : (r : Request) → r.Answer
  | .readOwner room => .ok (input.take room)
  | r => r.unsupported

/-- Loads a module, and then fails to load another one with no room for input. -/
def loadBoth : Dialogue (Channel × Except Error Json × Channel) :=
  ((spawn soleReader).loadModule "reader" { config := .standard }).bind fun x =>
    (x.2.loadModule "missing" { config := .standard, stdinBufferSize := 0 }).bind fun y =>
      .done (x.2, y)

def readResult (c : Channel) : Option Int :=
  ((c.call "read" []).answered inputUpTo).bind fun x => x.1.toOption.bind Json.toInt64?

def isInitError : Except Error Json → Bool
  | .error (.workerInit _) => true
  | _ => false

/-- A load that fails may be felt afterwards: the module that stays loaded reads three bytes without
the load, and the end of input after it. -/
theorem exists_failed_load_felt : ∃ ks c c' t text, Run (spawn soleReader) ks c ∧
    (∃ outcome, c.owner = .free outcome) ∧
    (c.loadModule "missing" { config := .standard, stdinBufferSize := 0 }).Ends t
      (.error (.workerInit text), c') ∧ readResult c = some 3 ∧ readResult c' = some 0 := by
  have h : (loadBoth.answered inputUpTo).any (fun x =>
      isInitError x.2.1 && readResult x.1 = some 3 && readResult x.2.2 = some 0) = true := by
    decide +kernel
  obtain ⟨_, ⟨c, outcome, c'⟩, hends, hall⟩ := Dialogue.exists_ends_of_any_answered h
  simp only [Bool.and_eq_true, decide_eq_true_eq] at hall
  obtain ⟨⟨hinit, hbefore⟩, hafter⟩ := hall
  obtain ⟨_, ⟨outcome₁, c₁⟩, _, hfirst, hrest, -⟩ := Dialogue.ends_bind.mp hends
  obtain ⟨t, ⟨outcome₂, c₂⟩, _, hload, hdone, -⟩ := Dialogue.ends_bind.mp hrest
  cases hdone
  obtain ⟨⟨ks, hrun⟩, hfree⟩ := loadModule_runs rfl hfirst
  unfold isInitError at hinit
  split at hinit
  · exact ⟨ks, _, _, t, _, hrun, ⟨_, hfree⟩, hload, hbefore, hafter⟩
  · cases hinit

end Channel

end SandboxHost.Worker
