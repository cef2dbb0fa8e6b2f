import SandboxHost.Proofs.Handshake
import SandboxHost.Proofs.Reading

namespace SandboxHost.Worker

def Job.isLoad : Job → Bool
  | .load _ _ => true
  | _ => false

def Message.isFailedLoad : Message → Bool
  | .notice (.loaded .error _) => true
  | _ => false

def KeepsInput (kept : List UInt8) (inst : Option Instance) : Prop :=
  ∃ i, inst = some i ∧ i.Keeps kept

/-- Unless its job was a load that failed, the worker has an instance that keeps these bytes. -/
def Finished.Leaves (kept : List UInt8) (f : Finished) : Prop :=
  f.message.isFailedLoad = false → KeepsInput kept f.inst

structure Finished.Loads (before : Option Instance) (kept : List UInt8) (f : Finished) : Prop where
  failed : f.message.isFailedLoad = true → f.inst = before
  leaves : f.Leaves kept

theorem load_streams (s : Surroundings) (name : String) (o : Options) :
    (load s name o).Streams (fun kept r => ∀ i, r = .ok i → i.Keeps kept) false [] := by
  unfold load
  split
  · exact .done (by rintro _ ⟨⟩)
  · split
    · exact .done (by rintro _ ⟨⟩)
    · exact instantiate_streams o.config rfl (by rintro _ ⟨⟩) _

theorem work_load_streams (s : Surroundings) (inst : Option Instance) (name : String)
    (o : Options) : (work s inst (.load name o)).Streams (Finished.Loads inst) false [] := by
  refine (load_streams s name o).bind fun kept r hr => ?_
  cases r with
  | ok i => exact .done ⟨nofun, fun _ => ⟨i, rfl, hr i rfl⟩⟩
  | error e => exact .done ⟨fun _ => rfl, nofun⟩

def Finished.Replies (I : List UInt8 → Option Instance → Prop) (kept : List UInt8) (f : Finished) :
    Prop := f.message.isFailedLoad = false ∧ I kept f.inst

theorem work_call_streams (s : Surroundings) {i : Instance} {kept : List UInt8} (hi : i.Keeps kept)
    {job : Job} (hjob : job.isLoad = false) :
    (work s (some i) job).Streams (Finished.Replies KeepsInput) false kept := by
  cases job with
  | load => cases hjob
  | call name args id =>
    exact (hi.call_streams name args).bind fun _ x hx => .done ⟨rfl, x.2, rfl, hx⟩
  | callWithString name arg args id =>
    exact (hi.callWithString_streams name arg args).bind fun _ x hx => .done ⟨rfl, x.2, rfl, hx⟩

namespace Mark

def delivery? : Mark → Option Delivery
  | .talked ⟨.report (.delivered d), _⟩ => some d
  | _ => none

def filled? : Mark → Option (List UInt8)
  | .filled bytes _ => some bytes
  | _ => none

def reading? : Mark → Option Bool
  | .posted .waitForInput => some true
  | .talked ⟨.report (.delivered _), _⟩ => some false
  | _ => none

/-- No other module is asked for or loaded, no load fails, what is delivered fits into the guest's
memory, and the owner reads no more than it has room for. -/
def isSteady : Mark → Bool
  | .resized _ => false
  | .began job => !job.isLoad
  | .finished m => !m.isFailedLoad
  | .talked ⟨.report (.delivered d), _⟩ => d.outcome.isOk
  | .filled bytes capacity => bytes.length ≤ capacity
  | _ => true

/-- What the owner reads goes through the buffer: the buffer is not too long for the word, and the
owner reads no more than it has room for. -/
def isFitting : Mark → Bool
  | .resized capacity => capacity ≤ 0x7fffffff
  | .filled bytes capacity => bytes.length ≤ capacity
  | _ => true

theorem isFitting_of_isSteady {k : Mark} (h : k.isSteady = true) : k.isFitting = true := by
  cases k with
  | resized => cases h
  | filled => exact h
  | _ => rfl

end Mark

def deliveries (ks : List Mark) : List Delivery := ks.filterMap Mark.delivery?

def received (ks : List Mark) : List UInt8 := (deliveries ks).flatMap Delivery.bytes

/-- The bytes that are kept for later reads since the last one. -/
def keptBy (ks : List Mark) : List UInt8 := ((deliveries ks).getLast?.map Delivery.kept).getD []

def ownerRead (ks : List Mark) : List UInt8 := (ks.filterMap Mark.filled?).flatten

/-- The guest has asked for input that is not delivered yet. -/
def isReading (ks : List Mark) : Bool := (ks.filterMap Mark.reading?).getLast?.getD false

theorem delivery?_talked {r : Request} (h : r.isBeside = true) (answer : r.Answer) :
    (Mark.talked ⟨r, answer⟩).delivery? = none := by
  cases r with
  | report e =>
    cases e with
    | delivered => cases h
    | _ => rfl
  | _ => rfl

section

variable (ks : List Mark) (k : Mark)

theorem deliveries_concat : deliveries (ks ++ [k]) = deliveries ks ++ k.delivery?.toList := by
  cases h : k.delivery? <;> simp [deliveries, h]

theorem ownerRead_concat : ownerRead (ks ++ [k]) = ownerRead ks ++ k.filled?.getD [] := by
  cases h : k.filled? <;> simp [ownerRead, h]

theorem isReading_concat : isReading (ks ++ [k]) = k.reading?.getD (isReading ks) := by
  cases h : k.reading? <;> simp [isReading, h]

end

theorem deliveries_of_delivery?_eq_none (ks : List Mark) {k : Mark} (h : k.delivery? = none) :
    deliveries (ks ++ [k]) = deliveries ks := by
  rw [deliveries_concat, h, Option.toList_none, List.append_nil]

theorem Handover.marks_eq (h : Handover) :
    h.marks = h.marks.take 6 ++ [.took (h.bytes.take h.count)] := rfl

theorem ownerRead_marks_take (h : Handover) : ownerRead (h.marks.take 6) = h.bytes :=
  List.append_nil _

/-- A read of the owner has failed, and the owner is about to give up what it waited for. -/
def Owner.hasFailed : Owner → Bool
  | .filled _ _ (some _) | .stored _ (some _) => true
  | _ => false

/-- What a thread does with what it waits for: it gets fresh input, or it only has slept. -/
inductive Resumes (Q : List UInt8 → Finished → Prop) :
    Notice → List UInt8 → (List UInt8 → Dialogue Finished) → Prop where
  | read {resume : List UInt8 → Dialogue Finished} :
    (∀ bytes, (resume bytes).Streams Q true bytes) → Resumes Q .waitForInput [] resume
  | slept {kept : List UInt8} {ms : UInt64} {resume : List UInt8 → Dialogue Finished} :
    (∀ bytes, (resume bytes).Streams Q false kept) → Resumes Q (.sleep ms) kept resume

/-- A thread that keeps these bytes, or has just been handed them, passes its input on in order.
Between jobs, and when it ends one, it has the instance that goes with what it keeps. -/
inductive Thread.Passes (I : List UInt8 → Option Instance → Prop) (Q : List UInt8 → Finished → Prop)
    (opened : List Mark) : Bool → List UInt8 → Thread → Prop where
  | idle {inst : Option Instance} {kept : List UInt8} : I kept inst →
    Passes I Q opened false kept (.idle inst)
  | busy {fresh : Bool} {kept : List UInt8} {d : Dialogue Finished} :
    d.Streams Q fresh kept → Passes I Q opened fresh kept (.busy d)
  | armed {n : Notice} {kept : List UInt8} {resume : List UInt8 → Dialogue Finished} :
    Resumes Q n kept resume → Passes I Q opened false kept (.armed n resume)
  | posted {n : Notice} {kept : List UInt8} {wait : Wait}
    {resume : List UInt8 → Dialogue Finished} :
    .posted n ∈ opened → Resumes Q n kept resume →
      Passes I Q opened false kept (.posted wait resume)
  | woken {n : Notice} {kept : List UInt8} {count : Int32}
    {resume : List UInt8 → Dialogue Finished} :
    .posted n ∈ opened → Resumes Q n kept resume →
      Passes I Q opened false kept (.woken count resume)

variable {I : List UInt8 → Option Instance → Prop} {Q : List UInt8 → Finished → Prop}

theorem Thread.Passes.mono {opened opened' : List Mark} {fresh : Bool} {kept : List UInt8}
    {thread : Thread} (h : thread.Passes I Q opened fresh kept) (hsub : opened ⊆ opened') :
    thread.Passes I Q opened' fresh kept := by
  cases h with
  | idle hi => exact .idle hi
  | busy hd => exact .busy hd
  | armed hresume => exact .armed hresume
  | posted hmem hresume => exact .posted (hsub hmem) hresume
  | woken hmem hresume => exact .woken (hsub hmem) hresume

namespace Channel

/-- A read is under way for which the owner has read nothing. -/
def ReadNothing (ks : List Mark) : Prop :=
  isReading ks = true ∧
    ∃ capacity, (Handover.mk .waitForInput [] capacity).marks <:+ handovers ks

/-- Steps in a row, none of which asks for another module, gives the guest what its memory has no
room for, or is a read of the owner that fails. -/
inductive Steady (c : Channel) : List Mark → Channel → Prop where
  | nil : Steady c [] c
  | concat {ks : List Mark} {k : Mark} {c₁ c' : Channel} :
    Steady c ks c₁ → Step c₁ k c' → k.isSteady = true → c'.owner.hasFailed = false →
      Steady c (ks ++ [k]) c'

/-- Where the handover stands that has begun after a stretch of a run. -/
structure Opened (ks : List Mark) (c : Channel) (opened : List Mark) : Prop where
  standing : c.Standing opened
  calm : c.thread.EndsWith Finished.IsFinal
  capacity_le : c.shared.capacity ≤ 0x7fffffff
  suffix : opened <:+ handovers ks
  /-- All that the owner has read for it fits into the buffer. -/
  fits (bytes : List UInt8) (capacity : Nat) : .filled bytes capacity ∈ opened →
    bytes.length ≤ capacity ∧ capacity ≤ 0x7fffffff
  /-- Nothing is read for a worker that sleeps. -/
  quiet : isReading opened = false → ownerRead opened = []

/-- How the owner's input stands after a stretch of a run: what the worker keeps, and whether it has
just been handed that. -/
structure Flow (I : List UInt8 → Option Instance → Prop) (Q : List UInt8 → Finished → Prop)
    (ks : List Mark) (c : Channel) (opened : List Mark) (fresh : Bool) (kept : List UInt8) :
    Prop extends Opened ks c opened where
  thread : c.thread.Passes I Q opened fresh kept
  conserved : received ks ++ kept ++ ownerRead opened = ownerRead ks
  kept_eq : fresh = false → kept = keptBy ks
  reading_eq : isReading ks = (fresh || isReading opened)
  handed : fresh = true →
    ∃ capacity, (Handover.mk .waitForInput kept capacity).marks <:+ handovers ks

theorem ownerRead_handovers (opened : List Mark) (k : Mark) :
    ownerRead (opened ++ handovers [k]) = ownerRead (opened ++ [k]) := by
  rw [handovers_singleton]
  split
  · rfl
  · next hk =>
    have hnone : k.filled? = none := by
      cases k with
      | filled => exact absurd rfl hk
      | _ => rfl
    rw [List.append_nil, ownerRead_concat, hnone, Option.getD_none, List.append_nil]

theorem isReading_handovers (opened : List Mark) {k : Mark} (hk : k.delivery? = none) :
    isReading (opened ++ handovers [k]) = isReading (opened ++ [k]) := by
  rw [handovers_singleton]
  split
  · rfl
  · next hbeside =>
    have hnone : k.reading? = none := by
      unfold Mark.reading?
      split
      · exact absurd rfl hbeside
      · cases hk
      · rfl
    rw [List.append_nil, isReading_concat, hnone, Option.getD_none]

theorem reading?_eq_true {k : Mark} (hk : k.delivery? = none) {b : Bool}
    (h : k.reading? = some b) : b = true := by
  unfold Mark.reading? at h
  split at h
  · exact (Option.some.inj h).symm
  · cases hk
  · cases h

theorem isReading_of_append {opened : List Mark} {k : Mark}
    (h : isReading (opened ++ handovers [k]) = false) : isReading opened = false := by
  cases hdelivery : k.delivery? with
  | none =>
    rw [isReading_handovers _ hdelivery, isReading_concat] at h
    cases hreading : k.reading? with
    | none => rwa [hreading] at h
    | some b => simp [hreading, reading?_eq_true hdelivery hreading] at h
  | some d =>
    unfold Mark.delivery? at hdelivery
    split at hdelivery
    · simpa [handovers, Mark.isHandover] using h
    · cases hdelivery

/-- Steps other than taking what was handed over only add to the handover that has begun. -/
theorem Goes.eq_append {opened opened' : List Mark} {k : Mark} (h : Goes opened k opened')
    (hk : ∀ bytes, k ≠ .took bytes) : opened' = opened ++ handovers [k] := by
  cases h with
  | aside hside => rw [handovers_singleton, if_neg (by simp [hside]), List.append_nil]
  | onward hon => rw [handovers_singleton, if_pos hon]
  | whole h _ heq =>
    obtain ⟨-, hlast⟩ := List.append_inj' (heq.trans h.marks_eq) rfl
    exact absurd (List.head_eq_of_cons_eq hlast) (hk _)

theorem Goes.exists_whole {opened : List Mark} {k : Mark} (h : Goes opened k [])
    (hk : k.isHandover = true) : ∃ h : Handover, opened ++ [k] = h.marks := by
  generalize hnone : ([] : List Mark) = rest at h
  cases h with
  | aside hside => simp [hk] at hside
  | onward => simp at hnone
  | whole h _ heq => exact ⟨h, heq⟩

theorem Step.capacity {c c' : Channel} {k : Mark} (h : c.Step k c')
    (hk : ∀ capacity, k ≠ .resized capacity) : c'.shared.capacity = c.shared.capacity := by
  cases h with
  | worker h => cases h <;> rfl
  | owner h =>
    cases h with
    | receive => rw [receive_eq]
    | read answer => cases answer <;> exact c.shared.capacity_fill _
    | sleep => exact c.shared.capacity_fill _
    | call => rw [goOn_eq, rouse_eq]
    | _ => rfl
  | load name o => exact absurd rfl (hk _)
  | _ => rfl

theorem Step.capacity_le {c c' : Channel} {k : Mark} (h : c.Step k c')
    (hsize : c.shared.capacity ≤ 0x7fffffff) (hk : k.isFitting = true) :
    c'.shared.capacity ≤ 0x7fffffff := by
  cases k with
  | resized capacity =>
    cases h with
    | worker h | owner h => cases h
    | load name o =>
      rw [requestLoad, SharedBlock.capacity_resize]
      exact of_decide_eq_true hk
  | _ =>
    rw [h.capacity nofun]
    exact hsize

theorem Step.filled {c c' : Channel} {bytes : List UInt8} {capacity : Nat}
    (h : c.Step (.filled bytes capacity) c') : capacity = c.shared.capacity ∧
      (bytes = [] ∨ ∃ goal, c.owner = .serving goal .waitForInput) := by
  cases h with
  | worker h => cases h
  | owner h =>
    cases h with
    | sleep => exact ⟨rfl, .inl rfl⟩
    | read answer howner => exact ⟨rfl, .inr ⟨_, howner⟩⟩

theorem Standing.isReading_of_serving {c : Channel} {opened : List Mark} {goal : Goal}
    (hs : c.Standing opened) (howner : c.owner = .serving goal .waitForInput) :
    isReading opened = true := by
  cases hs with
  | received _ _ _ ho =>
    cases howner.symm.trans ho
    rfl
  | apart _ _ ho | armed _ _ _ ho | posted _ _ _ ho | stored _ _ ho | woken _ _ ho =>
    simp [howner, Owner.isAnswering] at ho
  | filled _ _ ho => cases howner.symm.trans ho

theorem Step.not_isHandover {c c' : Channel} {opened : List Mark} {k : Mark} {r : Request}
    {next : r.Answer → Dialogue Finished} (h : c.Step k c') (hs : c.Standing opened)
    (hr : r.isForOwner = false) (hthread : c.thread = .busy (.ask r next)) :
    k.isHandover = false := by
  obtain ⟨-, -, howner, hbox⟩ := hs.of_isApart (by rw [hthread]; rfl)
  cases h with
  | worker h =>
    cases h with
    | talk => rfl
    | armToSleep ht | armToRead ht =>
      cases hthread.symm.trans ht
      cases hr
    | begin ht | finish ht | post ht | look ht | wake ht | doze ht | take ht =>
      cases hthread.symm.trans ht
  | owner h =>
    cases h with
    | receive _ hout => exact hbox _ (by rw [hout]; exact List.mem_cons_self)
    | sleep ho | read _ ho | store ho => simp [ho, Owner.isAnswering] at howner
    | _ => rfl
  | _ => rfl

theorem Opened.step {ks opened : List Mark} {k : Mark} {c c' : Channel} (ho : Opened ks c opened)
    (hstep : c.Step k c') (hk : k.isFitting = true) (htook : ∀ bytes, k ≠ .took bytes) :
    Opened (ks ++ [k]) c' (opened ++ handovers [k]) := by
  obtain ⟨opened', hgoes, hstanding⟩ := standing_step ho.standing ho.calm hstep
  rw [hgoes.eq_append htook] at hstanding
  refine ⟨hstanding, hstep.endsWith (work_final _) ho.calm, ?_, ?_, ?_, ?_⟩
  · exact hstep.capacity_le ho.capacity_le hk
  · obtain ⟨earlier, hearlier⟩ := ho.suffix
    exact ⟨earlier, by rw [handovers_append, ← List.append_assoc, hearlier]⟩
  · intro bytes capacity hmem
    obtain hmem | hmem := List.mem_append.mp hmem
    · exact ho.fits bytes capacity hmem
    · cases List.mem_singleton.mp (List.mem_filter.mp hmem).1
      exact ⟨of_decide_eq_true hk, hstep.filled.1 ▸ ho.capacity_le⟩
  · rw [ownerRead_handovers, ownerRead_concat]
    intro hquiet
    have hcalm := isReading_of_append hquiet
    rw [ho.quiet hcalm, List.nil_append]
    -- Only for a worker that reads does the owner put anything into the buffer.
    cases k with
    | filled bytes capacity =>
      obtain rfl | ⟨goal, howner⟩ := hstep.filled.2
      · rfl
      · simp [ho.standing.isReading_of_serving howner] at hcalm
    | _ => rfl

theorem Opened.take {ks opened : List Mark} {c : Channel} {count : Int32}
    {resume : List UInt8 → Dialogue Finished} (ho : Opened ks c opened)
    (hthread : c.thread = .woken count resume) : ∃ h : Handover, opened = h.marks.take 6 ∧
      c.shared.take count.toNatClampNeg = h.bytes ∧
      h.marks <:+ handovers (ks ++ [.took h.bytes]) ∧
      Opened (ks ++ [.took h.bytes]) { c with thread := .busy (resume h.bytes) } [] := by
  have hstep := Step.worker (.take hthread)
  have hcalm := hstep.endsWith (work_final _) ho.calm
  obtain ⟨opened', hgoes, hstanding⟩ := standing_step ho.standing ho.calm hstep
  obtain ⟨rfl, -⟩ := hstanding.of_isApart rfl
  obtain ⟨h, heq⟩ := hgoes.exists_whole rfl
  generalize c.shared.take count.toNatClampNeg = bytes at *
  obtain ⟨rfl, hlast⟩ := List.append_inj' (heq.trans h.marks_eq) rfl
  have hfits := ho.fits h.bytes h.capacity (by simp [Handover.marks])
  have hcount : h.bytes.length ≤ h.count := by
    unfold Handover.count
    omega
  obtain rfl : bytes = h.bytes :=
    (Mark.took.inj (List.head_eq_of_cons_eq hlast)).trans (List.take_of_length_le hcount)
  obtain ⟨earlier, hearlier⟩ := ho.suffix
  refine ⟨h, rfl, rfl, ⟨earlier, ?_⟩,
    ⟨hstanding, hcalm, ho.capacity_le, List.nil_suffix, fun _ _ hmem => ?_, fun _ => rfl⟩⟩
  · rw [handovers_append, ← hearlier, List.append_assoc, ← heq]
    rfl
  · exact absurd hmem List.not_mem_nil

namespace Flow

variable {ks opened : List Mark} {k : Mark} {c c' : Channel} {fresh : Bool} {kept : List UInt8}

/-- Bytes that were just handed over are delivered next. -/
theorem exists_delivery (hf : Flow I Q ks c opened true kept) : ∃ (d : Delivery)
    (next : Unit → Dialogue Finished), c.thread = .busy (.ask (.report (.delivered d)) next) := by
  have hthread := hf.thread
  generalize c.thread = thread at hthread ⊢
  cases hthread with
  | busy hd =>
    cases hd with
    | deliver => exact ⟨_, _, rfl⟩

theorem beside (hf : Flow I Q ks c opened fresh kept) (hstep : c.Step k c')
    (hk : k.isFitting = true) (hdelivery : k.delivery? = none) (htook : ∀ bytes, k ≠ .took bytes)
    (hthread : c'.thread.Passes I Q (opened ++ handovers [k]) fresh kept) :
    Flow I Q (ks ++ [k]) c' (opened ++ handovers [k]) fresh kept := by
  have hsame := deliveries_of_delivery?_eq_none ks hdelivery
  refine ⟨hf.toOpened.step hstep hk htook, hthread, ?_, ?_, ?_, ?_⟩
  · rw [received, hsame, ownerRead_handovers, ownerRead_concat, ownerRead_concat, ← hf.conserved,
      received]
    simp only [List.append_assoc]
  · rw [keptBy, hsame]
    exact hf.kept_eq
  · rw [isReading_handovers _ hdelivery, isReading_concat, isReading_concat, hf.reading_eq]
    cases hreading : k.reading? with
    | none => rfl
    | some b => simp [reading?_eq_true hdelivery hreading]
  · rintro rfl
    -- The worker is about to deliver, so the other side hands nothing over meanwhile.
    obtain ⟨d, next, hbusy⟩ := hf.exists_delivery
    have hside := hstep.not_isHandover hf.standing rfl hbusy
    rw [handovers_append, handovers_singleton, if_neg (by simp [hside]), List.append_nil]
    exact hf.handed rfl

theorem delivers {d : Delivery} {next : Unit → Dialogue Finished}
    (hf : Flow I Q ks c opened fresh kept)
    (hthread : c.thread = .busy (.ask (.report (.delivered d)) next)) :
    d.Takes kept ∧ (kept = [] → d.room = 0 ∨ fresh = true) ∧
      (next ()).Streams Q false d.kept := by
  have hpasses := hf.thread
  rw [hthread] at hpasses
  cases hpasses with
  | busy hd =>
    cases hd with
    | beside hr => cases hr
    | deliver htakes hroom hnext => exact ⟨htakes, hroom, hnext⟩

/-- The guest gets what it has room for, and the rest is kept. -/
theorem deliver {d : Delivery} {next : Unit → Dialogue Finished}
    (hf : Flow I Q ks c opened fresh kept)
    (hthread : c.thread = .busy (.ask (.report (.delivered d)) next)) :
    Flow I Q (ks ++ [.talked ⟨.report (.delivered d), ()⟩]) { c with thread := .busy (next ()) } []
      false d.kept := by
  obtain ⟨htakes, -, hnext⟩ := hf.delivers hthread
  obtain ⟨rfl, -⟩ := hf.standing.of_isApart (by rw [hthread]; rfl)
  have hstep := Step.worker (.talk () rfl hthread)
  refine ⟨hf.toOpened.step hstep rfl nofun, .busy hnext, ?_, fun _ => ?_, ?_, nofun⟩
  · rw [ownerRead_concat, ← hf.conserved, received, deliveries_concat, List.flatMap_append]
    simp [Mark.delivery?, Mark.filled?, received, htakes.append_eq]
  · simp [keptBy, deliveries_concat, Mark.delivery?]
  · rw [isReading_concat]
    rfl

theorem take {count : Int32} {resume : List UInt8 → Dialogue Finished}
    (hf : Flow I Q ks c opened fresh kept) (hthread : c.thread = .woken count resume) :
    ∃ fresh' kept', Flow I Q (ks ++ [.took (c.shared.take count.toNatClampNeg)])
      { c with thread := .busy (resume (c.shared.take count.toNatClampNeg)) } [] fresh' kept' := by
  obtain ⟨⟨notice, bytes, capacity⟩, rfl, htaken, hsuffix, hopened⟩ := hf.toOpened.take hthread
  have hsame : deliveries (ks ++ [.took bytes]) = deliveries ks :=
    deliveries_of_delivery?_eq_none ks rfl
  have hpasses := hf.thread
  have hconserved := hf.conserved
  have hreading := hf.reading_eq
  rw [hthread] at hpasses
  rw [htaken]
  cases hpasses with
  | @woken n _ _ _ hmem hresume =>
    have hnotice : n = notice := by simpa [Handover.marks] using hmem
    subst hnotice
    cases hresume with
    | read hnext =>
      refine ⟨true, bytes, hopened, .busy (hnext bytes), ?_, fun h => Bool.noConfusion h, ?_,
        fun _ => ⟨capacity, hsuffix⟩⟩
      · rw [ownerRead_marks_take, List.append_nil] at hconserved
        rw [received, hsame, ownerRead_concat, ← hconserved]
        rfl
      · rw [isReading_concat]
        exact hreading
    | slept hnext =>
      refine ⟨false, kept, hopened, .busy (hnext bytes), ?_, fun _ => ?_, ?_,
        fun h => Bool.noConfusion h⟩
      · rw [hf.quiet rfl, List.append_nil] at hconserved
        rw [received, hsame, ownerRead_concat, ← hconserved]
        rfl
      · rw [keptBy, hsame]
        exact hf.kept_eq rfl
      · rw [isReading_concat]
        exact hreading

theorem works (hf : Flow I Q ks c opened fresh kept) (h : c.Works k c')
    (hbegin : ∀ inst job, k = .began job → I kept inst →
      (work c.surroundings inst job).Streams Q false kept)
    (hfinish : ∀ f, k = .finished f.message → Q kept f → I kept f.inst) :
    ∃ opened' fresh' kept', Flow I Q (ks ++ [k]) c' opened' fresh' kept' := by
  have hbeside (hdelivery : k.delivery? = none) (htook : ∀ bytes, k ≠ .took bytes)
      (hthread : c'.thread.Passes I Q (opened ++ handovers [k]) fresh kept) :
      ∃ opened' fresh' kept', Flow I Q (ks ++ [k]) c' opened' fresh' kept' :=
    ⟨_, _, _, hf.beside (.worker h) (by cases h <;> rfl) hdelivery htook hthread⟩
  have hpasses := hf.thread
  cases h with
  | take hthread =>
    obtain ⟨fresh', kept', hf'⟩ := hf.take hthread
    exact ⟨_, fresh', kept', hf'⟩
  | begin hthread =>
    rw [hthread] at hpasses
    cases hpasses with
    | idle hi => exact hbeside rfl nofun (.busy (hbegin _ _ rfl hi))
  | finish hthread =>
    rw [hthread] at hpasses
    cases hpasses with
    | busy hd =>
      cases hd with
      | done hleaves => exact hbeside rfl nofun (.idle (hfinish _ rfl hleaves))
  | armToSleep hthread =>
    rw [hthread] at hpasses
    cases hpasses with
    | busy hd =>
      cases hd with
      | beside _ hnext => exact hbeside rfl nofun (.armed (.slept fun _ => hnext ()))
  | armToRead hthread =>
    rw [hthread] at hpasses
    cases hpasses with
    | busy hd =>
      cases hd with
      | beside hr => cases hr
      | await hnext => exact hbeside rfl nofun (.armed (.read hnext))
  | talk answer hr hthread =>
    rw [hthread] at hpasses
    cases hpasses with
    | busy hd =>
      cases hd with
      | beside hside hnext =>
        exact hbeside (delivery?_talked hside answer) nofun (.busy (hnext answer))
      | await => cases hr
      | deliver => exact ⟨_, _, _, hf.deliver hthread⟩
  | post hthread =>
    rw [hthread] at hpasses
    cases hpasses with
    | armed hresume =>
      refine hbeside rfl nofun (.posted ?_ hresume)
      simp [handovers_singleton, Mark.isHandover]
  | look hthread | doze hthread =>
    rw [hthread] at hpasses
    cases hpasses with
    | posted hmem hresume =>
      exact hbeside rfl nofun (.posted (List.mem_append_left _ hmem) hresume)
  | wake hthread =>
    rw [hthread] at hpasses
    cases hpasses with
    | posted hmem hresume =>
      exact hbeside rfl nofun (.woken (List.mem_append_left _ hmem) hresume)

theorem rouse_passes (h : c.thread.Passes I Q opened fresh kept) :
    c.rouse.thread.Passes I Q opened fresh kept := by
  unfold rouse
  split
  · next hthread =>
    rw [hthread] at h
    cases h with
    | posted hmem hresume => exact .posted hmem hresume
  · exact h

theorem next (hf : Flow I Q ks c opened fresh kept) (h : c.Step k c') (hk : k.isFitting = true)
    (hbegin : ∀ inst job, k = .began job → I kept inst →
      (work c.surroundings inst job).Streams Q false kept)
    (hfinish : ∀ f, k = .finished f.message → Q kept f → I kept f.inst) :
    ∃ opened' fresh' kept', Flow I Q (ks ++ [k]) c' opened' fresh' kept' := by
  have hbeside (hdelivery : k.delivery? = none) (htook : ∀ bytes, k ≠ .took bytes)
      (hthread : c'.thread.Passes I Q opened fresh kept) :
      ∃ opened' fresh' kept', Flow I Q (ks ++ [k]) c' opened' fresh' kept' :=
    ⟨_, _, _, hf.beside h hk hdelivery htook (hthread.mono (List.subset_append_left _ _))⟩
  cases h with
  | worker h => exact hf.works h hbegin hfinish
  | owner h =>
    have hthread : c'.thread.Passes I Q opened fresh kept := by
      obtain heq | heq := h.thread
      · rw [heq]
        exact hf.thread
      · rw [heq]
        exact rouse_passes hf.thread
    refine hbeside ?_ ?_ hthread
    · cases h <;> rfl
    · cases h <;> nofun
  | load | call => exact hbeside rfl nofun hf.thread
  | stir hthread =>
    have hpasses := hf.thread
    rw [hthread] at hpasses
    cases hpasses with
    | posted hmem hresume => exact hbeside rfl nofun (.posted hmem hresume)

/-- Since a load began, with no other module asked for. -/
theorem step (hf : Flow KeepsInput Finished.Leaves ks c opened fresh kept) (h : c.Step k c')
    (hk : k.isSteady = true) : ∃ opened' fresh' kept',
      Flow KeepsInput Finished.Leaves (ks ++ [k]) c' opened' fresh' kept' := by
  refine hf.next h (Mark.isFitting_of_isSteady hk) ?_ ?_
  · rintro _ job rfl ⟨i, rfl, hi⟩
    have hjob : job.isLoad = false := by simpa [Mark.isSteady] using hk
    exact (work_call_streams _ hi hjob).mono fun _ _ hreplies _ => hreplies.2
  · rintro f rfl hleaves
    exact hleaves (by simpa [Mark.isSteady] using hk)

/-- What is delivered is no more than there is room for, and it is nothing only where there is no
room or where the owner has read nothing. -/
theorem fair {d : Delivery} (hf : Flow I Q ks c opened fresh kept)
    (h : c.Step (.talked ⟨.report (.delivered d), ()⟩) c') :
    d.bytes.length ≤ d.room ∧ (d.bytes = [] → d.room = 0 ∨ ReadNothing ks) := by
  cases h with
  | worker h =>
    cases h with
    | talk _ _ hthread =>
      obtain ⟨htakes, hroom, -⟩ := hf.delivers hthread
      refine ⟨htakes.length_le, fun hbytes => ?_⟩
      obtain hzero | rfl := htakes.room_eq_zero_or hbytes
      · exact .inl hzero
      · refine (hroom rfl).imp_right ?_
        rintro rfl
        exact ⟨hf.reading_eq, hf.handed rfl⟩
  | owner h => cases h

end Flow

/-- The owner's input as it stands after steps since a load began. -/
structure Stream (ks : List Mark) (c : Channel) : Prop where
  /-- While no read is under way, what the guest has received and what is kept is what the owner has
  read. -/
  conserved : isReading ks = false → received ks ++ keptBy ks = ownerRead ks
  /-- Between jobs no read is under way, and the instance keeps what the last delivery left. -/
  idle (inst : Option Instance) : c.thread = .idle inst →
    isReading ks = false ∧ ∃ i, inst = some i ∧ i.state.host.kept = keptBy ks
  /-- A guest is given no more than it has room for, and nothing only where it has no room or where
  the owner's read brought nothing. -/
  fair (earlier : List Mark) (d : Delivery) (later : List Mark) :
    ks = earlier ++ .talked ⟨.report (.delivered d), ()⟩ :: later →
      d.bytes.length ≤ d.room ∧ (d.bytes = [] → d.room = 0 ∨ ReadNothing earlier)
  /-- The deliveries are what the guest's reads return. -/
  returned (i : Instance) (call : Callee) (pointer length count : Int32) (s s' : State)
    (t : Trace) : c.thread = .idle (some i) →
      (i.machine.perform call (Handler.readStdin.program [pointer, length]).run s).Ends t
        (.ok count, s') → ∃ d, Machine.HasRead pointer length count s t s' d

theorem Flow.began {s : Surroundings} {ks : List Mark} {c c₀ : Channel} {name : String}
    {o : Options} (hbefore : Run (spawn s) ks c) (hbegan : c.Works (.began (.load name o)) c₀)
    (hsize : c₀.shared.capacity ≤ 0x7fffffff) :
    Flow KeepsInput Finished.Leaves [] c₀ [] false [] := by
  obtain ⟨hs, opened, -, hstanding⟩ := run_standing hbefore
  cases hbegan with
  | begin hthread =>
    obtain ⟨-, hpending, howner, hbox⟩ := hstanding.of_isApart (by rw [hthread]; rfl)
    exact ⟨⟨.apart rfl hpending howner hbox, work_final _ _ _, hsize, List.nil_suffix, nofun,
      fun _ => rfl⟩, .busy ((work_load_streams _ _ _ _).mono fun _ _ => Finished.Loads.leaves), rfl,
      fun _ => rfl, rfl, nofun⟩

theorem Flow.stream {ks opened : List Mark} {c : Channel} {fresh : Bool} {kept : List UInt8}
    (hf : Flow KeepsInput Finished.Leaves ks c opened fresh kept)
    (hfair : ∀ earlier d later, ks = earlier ++ .talked ⟨.report (.delivered d), ()⟩ :: later →
      d.bytes.length ≤ d.room ∧ (d.bytes = [] → d.room = 0 ∨ ReadNothing earlier)) :
    Stream ks c := by
  have hcalm (hreading : isReading ks = false) : fresh = false ∧ ownerRead opened = [] := by
    rw [hf.reading_eq, Bool.or_eq_false_iff] at hreading
    exact ⟨hreading.1, hf.quiet hreading.2⟩
  have hidle {inst : Option Instance} (hthread : c.thread = .idle inst) :
      isReading ks = false ∧ ∃ i, inst = some i ∧ i.Keeps (keptBy ks) := by
    obtain ⟨rfl, -⟩ := hf.standing.of_isApart (by rw [hthread]; rfl)
    have hpasses := hf.thread
    rw [hthread] at hpasses
    cases hpasses with
    | idle hi => exact ⟨hf.reading_eq, hf.kept_eq rfl ▸ hi⟩
  refine ⟨fun hreading => ?_, fun inst hthread => ?_, hfair, ?_⟩
  · obtain ⟨hfresh, hquiet⟩ := hcalm hreading
    rw [← hf.conserved, hquiet, List.append_nil, hf.kept_eq hfresh]
  · obtain ⟨hreading, i, rfl, hi⟩ := hidle hthread
    exact ⟨hreading, i, rfl, hi.kept_eq⟩
  · intro i call pointer length count s s' t hthread hread
    obtain ⟨-, _, ⟨⟩, hi⟩ := hidle hthread
    exact Machine.exists_hasRead hi.worker hread

/-- Whatever module a worker loads, and however its guest and its owner read: as long as no read of
the owner fails, what is delivered fits into memory, and no other module is asked for, the input
reaches the guest as the owner has read it. -/
theorem input_stream (s : Surroundings) {ks ks' : List Mark} {c c₀ c' : Channel} {name : String}
    {o : Options} (hbefore : Run (spawn s) ks c) (hbegan : c.Works (.began (.load name o)) c₀)
    (hsize : c₀.shared.capacity ≤ 0x7fffffff) (hsince : c₀.Steady ks' c') : Stream ks' c' := by
  suffices h : (∃ opened fresh kept, Flow KeepsInput Finished.Leaves ks' c' opened fresh kept) ∧
      ∀ earlier d later, ks' = earlier ++ .talked ⟨.report (.delivered d), ()⟩ :: later →
        d.bytes.length ≤ d.room ∧ (d.bytes = [] → d.room = 0 ∨ ReadNothing earlier) by
    obtain ⟨⟨opened, fresh, kept, hf⟩, hfair⟩ := h
    exact hf.stream hfair
  induction hsince with
  | nil => exact ⟨⟨_, _, _, .began hbefore hbegan hsize⟩, by simp⟩
  | concat _ hstep hk _ ih =>
    obtain ⟨⟨opened, fresh, kept, hf⟩, hfair⟩ := ih
    refine ⟨hf.step hstep hk, fun earlier d later heq => ?_⟩
    obtain rfl | ⟨later, last, rfl⟩ := List.eq_nil_or_concat later
    · obtain ⟨rfl, hlast⟩ := List.append_inj' heq rfl
      cases hlast
      exact hf.fair hstep
    · rw [List.concat_eq_append, ← List.cons_append, ← List.append_assoc] at heq
      exact hfair earlier d later (List.append_inj' heq rfl).1

def input : List UInt8 := [97, 98, 99, 100]

def isReplying : Dialogue Finished → Bool
  | .done ⟨.reply _, _⟩ => true
  | _ => false

/-- Whether the first three bytes are delivered, and the job then ends with a reply. -/
def isDelivering : Dialogue Finished → Bool
  | .ask (.report (.delivered d)) next =>
    d.outcome.isOk && d.bytes == [97, 98, 99] && d.kept == [100] && isReplying (next ())
  | _ => false

def isReadingOnce : Dialogue Finished → Bool
  | .ask .awaitInput next => isDelivering (next input)
  | _ => false

theorem exists_of_isReplying {d : Dialogue Finished} (h : isReplying d = true) :
    ∃ r inst, d = .done ⟨.reply r, inst⟩ := by
  unfold isReplying at h
  split at h
  · exact ⟨_, _, rfl⟩
  · cases h

theorem exists_of_isDelivering {work : Dialogue Finished} (h : isDelivering work = true) :
    ∃ d next r inst, work = .ask (.report (.delivered d)) next ∧ d.outcome.isOk = true ∧
      d.bytes = [97, 98, 99] ∧ d.kept = [100] ∧ next () = .done ⟨.reply r, inst⟩ := by
  cases work with
  | ask r next =>
    cases r with
    | report e =>
      cases e with
      | delivered d =>
        simp only [isDelivering, Bool.and_eq_true, beq_iff_eq] at h
        obtain ⟨⟨⟨hok, hbytes⟩, hkept⟩, hreplying⟩ := h
        obtain ⟨r, inst, hdone⟩ := exists_of_isReplying hreplying
        exact ⟨d, next, r, inst, rfl, hok, hbytes, hkept, hdone⟩
      | _ => cases h
    | _ => cases h
  | _ => cases h

theorem exists_of_isReadingOnce {work : Dialogue Finished} (h : isReadingOnce work = true) :
    ∃ next, work = .ask .awaitInput next ∧ isDelivering (next input) = true := by
  cases work with
  | ask r next =>
    cases r with
    | awaitInput => exact ⟨next, rfl, h⟩
    | _ => cases h
  | _ => cases h

def readerSurroundings : Surroundings := ⟨fun _ => some inputReader, fun _ => true⟩

def isLoadedToRead : Dialogue Finished → Bool
  | .done ⟨.notice (.loaded .ok none), inst⟩ =>
    isReadingOnce (work readerSurroundings inst (.call "read" [] 1))
  | _ => false

theorem exists_of_isLoadedToRead {d : Dialogue Finished} (h : isLoadedToRead d = true) :
    ∃ inst, d = .done ⟨.notice (.loaded .ok none), inst⟩ ∧
      isReadingOnce (work readerSurroundings inst (.call "read" [] 1)) = true := by
  unfold isLoadedToRead at h
  split at h
  · exact ⟨_, rfl, h⟩
  · cases h

theorem exists_steady_reading {s : Surroundings} {inst : Option Instance} {shared : SharedBlock}
    (hsize : 4 ≤ shared.capacity)
    (h : isReadingOnce (work s inst (.call "read" [] 1)) = true) :
    ∃ ks c, Steady ⟨s, .busy (.done ⟨.notice (.loaded .ok none), inst⟩), [], [], shared,
      .expecting .loaded, 0⟩ ks c ∧ isReading ks = false ∧ received ks = [97, 98, 99] ∧
        keptBy ks = [100] ∧ ownerRead ks = input := by
  obtain ⟨next, hawait, hnext⟩ := exists_of_isReadingOnce h
  obtain ⟨d, next', r, inst', hdeliver, hok, hbytes, hkept, hdone⟩ := exists_of_isDelivering hnext
  have hloaded := Steady.nil.concat (.worker (.finish (c := ⟨s, .busy (.done ⟨.notice (.loaded .ok
    none), inst⟩), [], [], shared, .expecting .loaded, 0⟩) rfl)) rfl rfl
  have htold := hloaded.concat (.owner (.receive rfl rfl)) rfl rfl
  have hsent := htold.concat (@Step.call _ _ (.call "read" []) (fun _ => rfl) rfl) rfl rfl
  have hbegan := hsent.concat (.worker (.begin rfl rfl)) rfl rfl
  have harmed := hbegan.concat (.worker (.armToRead (congrArg Thread.busy hawait))) rfl rfl
  have hposted := harmed.concat (.worker (.post rfl)) rfl rfl
  have hserving := hposted.concat (.owner (.receive rfl rfl)) rfl rfl
  have hfilled := hserving.concat (.owner (.read (.ok input) rfl)) (decide_eq_true hsize) rfl
  have hstored := hfilled.concat (.owner (.store rfl)) rfl rfl
  have hwoken := hstored.concat (.worker (.wake rfl (SharedBlock.isPending_of_word
    (h := ⟨.waitForInput, input, shared.capacity⟩) rfl))) rfl rfl
  have htook := hwoken.concat (.worker (.take rfl)) rfl rfl
  have hgiven : (shared.arm.publish input).take
      (shared.arm.publish input).word.toNatClampNeg = input := by
    rw [SharedBlock.take_publish, List.take_of_length_le]
    exact Nat.le_min.mpr ⟨Nat.le_min.mpr ⟨Nat.le_refl _, hsize⟩, by decide⟩
  have hdelivered := htook.concat (.worker (.talk () rfl
    (congrArg Thread.busy ((congrArg next hgiven).trans hdeliver)))) hok rfl
  have hended := hdelivered.concat (.worker (.finish (congrArg Thread.busy hdone))) rfl rfl
  refine ⟨_, _, hended, ?_, ?_, ?_, ?_⟩
  · simp only [isReading_concat, Mark.reading?, Option.getD_none, Option.getD_some]
  · simp only [received, deliveries_concat, Mark.delivery?, Option.toList_none, Option.toList_some,
      List.append_nil]
    exact (List.append_nil _).trans hbytes
  · simp only [keptBy, deliveries_concat, Mark.delivery?, Option.toList_none, Option.toList_some,
      List.append_nil]
    exact hkept
  · simp only [ownerRead_concat, Mark.filled?, Option.getD_none, Option.getD_some]
    rfl

theorem exists_reading_since_load {s : Surroundings} {name : String} {o : Options}
    {inst : Option Instance} (hsize : 4 ≤ o.stdinBufferSize.toNat)
    (hload : work s none (.load name o) = .done ⟨.notice (.loaded .ok none), inst⟩)
    (hcall : isReadingOnce (work s inst (.call "read" [] 1)) = true) :
    ∃ ks c c₀ ks' c', Run (spawn s) ks c ∧ c.Works (.began (.load name o)) c₀ ∧
      c₀.shared.capacity = o.stdinBufferSize.toNat ∧ c₀.Steady ks' c' ∧ isReading ks' = false ∧
      received ks' = [97, 98, 99] ∧ keptBy ks' = [100] ∧ ownerRead ks' = input := by
  have hsent := run_load_sent s name o
  have hcapacity := (SharedBlock.new defaultBufferSize.toNat).capacity_resize
    o.stdinBufferSize.toNat
  generalize (SharedBlock.new defaultBufferSize.toNat).resize o.stdinBufferSize.toNat = shared
    at hsent hcapacity
  have hbegan : Works ⟨s, .idle none, [.load name o], [], shared, .expecting .loaded, 0⟩
      (.began (.load name o)) ⟨s, .busy (.done ⟨.notice (.loaded .ok none), inst⟩), [], [], shared,
        .expecting .loaded, 0⟩ := by
    rw [← hload]
    exact .begin rfl rfl
  obtain ⟨ks, c, hsteady, hread⟩ := exists_steady_reading (hcapacity ▸ hsize) hcall
  exact ⟨_, _, _, ks, c, hsent, hbegan, hcapacity, hsteady, hread⟩

/-- Of four bytes that the owner reads at once, the guest receives three, and one is kept. -/
theorem input_stream_reading : ∃ ks c c₀ ks' c', Run (spawn readerSurroundings) ks c ∧
    c.Works (.began (.load "reader" { config := .standard })) c₀ ∧
    c₀.shared.capacity ≤ 0x7fffffff ∧ c₀.Steady ks' c' ∧ isReading ks' = false ∧
    received ks' = [97, 98, 99] ∧ keptBy ks' = [100] ∧ ownerRead ks' = input ∧ Stream ks' c' := by
  have h : isLoadedToRead (work readerSurroundings none (.load "reader" { config := .standard })) =
      true := by
    decide +kernel
  obtain ⟨inst, hload, hcall⟩ := exists_of_isLoadedToRead h
  obtain ⟨ks, c, c₀, ks', c', hbefore, hbegan, hcapacity, hsince, hread⟩ :=
    exists_reading_since_load (by decide) hload hcall
  have hsize : c₀.shared.capacity ≤ 0x7fffffff := by
    rw [hcapacity]
    decide
  exact ⟨ks, c, c₀, ks', c', hbefore, hbegan, hsize, hsince, hread.1, hread.2.1, hread.2.2.1,
    hread.2.2.2, input_stream _ hbefore hbegan hsize hsince⟩

end Channel

end SandboxHost.Worker
