import Mathlib.Data.List.Induction
import Mathlib.Data.List.Perm.Basic
import SandboxHost.Proofs.InputStream

namespace SandboxHost.Worker

/-- Between jobs a worker has an instance that keeps these bytes, or neither an instance nor any
bytes. -/
def Rests (kept : List UInt8) (inst : Option Instance) : Prop :=
  (inst = none ∧ kept = []) ∨ KeepsInput kept inst

theorem work_call_rests (s : Surroundings) {inst : Option Instance} {kept : List UInt8} {job : Job}
    (hrests : Rests kept inst) (hjob : job.isLoad = false) :
    (work s inst job).Streams (Finished.Replies Rests) false kept := by
  obtain ⟨rfl, rfl⟩ | ⟨i, rfl, hi⟩ := hrests
  · cases job with
    | load => cases hjob
    | call | callWithString => exact .done ⟨rfl, .inl ⟨rfl, rfl⟩⟩
  · exact (work_call_streams s hi hjob).mono fun _ _ hreplies => ⟨hreplies.1, .inr hreplies.2⟩

/-- The marks of a run, sorted by the module whose input they are about. -/
structure Shares where
  /-- For modules that have failed to load or been replaced, and for the time before the first. -/
  gone : List (List Mark) := []
  loaded : List Mark := []
  loading : Option (List Mark) := none

namespace Shares

def add (sh : Shares) (k : Mark) : Shares :=
  match sh.loading, k with
  | none, .began (.load _ _) => { sh with loading := some [k] }
  | none, _ => { sh with loaded := sh.loaded ++ [k] }
  | some l, .finished m =>
    if m.isFailedLoad then { sh with gone := sh.gone ++ [l ++ [k]], loading := none }
    else { gone := sh.gone ++ [sh.loaded], loaded := l ++ [k] }
  | some l, _ => { sh with loading := some (l ++ [k]) }

def all (sh : Shares) : List (List Mark) := sh.gone ++ sh.loaded :: sh.loading.toList

inductive Adds (sh : Shares) : Mark → Shares → Prop where
  | call {k : Mark} : sh.loading = none → (∀ name o, k ≠ .began (.load name o)) →
    Adds sh k { sh with loaded := sh.loaded ++ [k] }
  | began (name : String) (o : Options) : sh.loading = none →
    Adds sh (.began (.load name o)) { sh with loading := some [.began (.load name o)] }
  | load {k : Mark} {l : List Mark} : sh.loading = some l → (∀ m, k ≠ .finished m) →
    Adds sh k { sh with loading := some (l ++ [k]) }
  | failed {m : Message} {l : List Mark} : sh.loading = some l → m.isFailedLoad = true →
    Adds sh (.finished m) { sh with gone := sh.gone ++ [l ++ [.finished m]], loading := none }
  | loaded {m : Message} {l : List Mark} : sh.loading = some l → m.isFailedLoad = false →
    Adds sh (.finished m) { gone := sh.gone ++ [sh.loaded], loaded := l ++ [.finished m] }

theorem adds_add (sh : Shares) (k : Mark) : sh.Adds k (sh.add k) := by
  unfold add
  split
  · next hloading => exact .began _ _ hloading
  · next hloading hk => exact .call hloading fun name o => hk name o
  · next hloading =>
    split
    · next hm => exact .failed hloading hm
    · next hm => exact .loaded hloading (by simpa using hm)
  · next hloading hk => exact .load hloading fun m => hk m

variable {sh sh' : Shares} {k : Mark}

theorem Adds.flatten_perm (h : sh.Adds k sh') : sh'.all.flatten.Perm (sh.all.flatten ++ [k]) := by
  cases h with
  | call hloading | began _ _ hloading | load hloading | loaded hloading =>
    rw [all, all, hloading]
    simp
  | failed hloading =>
    rw [all, all, hloading]
    simp only [Option.toList_none, Option.toList_some, List.flatten_append, List.flatten_cons,
      List.flatten_nil, List.append_nil, List.append_assoc]
    refine List.Perm.append_left _ ?_
    rw [← List.append_assoc]
    exact List.perm_append_comm

theorem Adds.exists_of_mem {l : List Mark} (h : sh.Adds k sh') (hl : l ∈ sh'.all) :
    l ∈ sh.all ∨ l = [k] ∨ ∃ l' ∈ sh.all, l = l' ++ [k] := by
  cases h with
  | call hloading | began _ _ hloading | load hloading | loaded hloading | failed hloading =>
    rw [all, hloading]
    simp only [all, hloading, Option.toList_none, Option.toList_some, List.mem_append,
      List.mem_cons, List.not_mem_nil, or_false] at hl ⊢
    grind

end Shares

def shares (ks : List Mark) : Shares := ks.foldl Shares.add {}

theorem adds_shares (ks : List Mark) (k : Mark) : (shares ks).Adds k (shares (ks ++ [k])) := by
  rw [shares, shares, List.foldl_append]
  exact Shares.adds_add _ k

/-- The shares divide the run: each of them has its marks in their order, and together they have all
of them. -/
theorem shares_divide (ks : List Mark) :
    (shares ks).all.flatten.Perm ks ∧ ∀ l ∈ (shares ks).all, l.Sublist ks := by
  induction ks using List.reverseRecOn with
  | nil => simp [shares, Shares.all]
  | append_singleton ks k ih =>
    obtain ⟨hperm, hsub⟩ := ih
    refine ⟨(adds_shares ks k).flatten_perm.trans (hperm.append_right _), fun l hl => ?_⟩
    obtain hold | rfl | ⟨l', hl', rfl⟩ := (adds_shares ks k).exists_of_mem hl
    · exact (hsub l hold).trans (List.sublist_append_left ks [k])
    · exact List.sublist_append_right ks _
    · exact (hsub l' hl').append_right [k]

/-- No read is under way for a module, and what was read for it is what it has been handed and then
what is kept for it. -/
structure Settled (l : List Mark) (kept : List UInt8) : Prop where
  conserved : received l ++ kept = ownerRead l
  kept_eq : kept = keptBy l
  reading_eq : isReading l = false

theorem Settled.concat {l : List Mark} {kept : List UInt8} {k : Mark} (h : Settled l kept)
    (hdelivery : k.delivery? = none) (hfilled : k.filled? = none) (hreading : k.reading? = none) :
    Settled (l ++ [k]) kept := by
  have hsame := deliveries_of_delivery?_eq_none l hdelivery
  refine ⟨?_, ?_, ?_⟩
  · rw [received, hsame, ownerRead_concat, hfilled, Option.getD_none, List.append_nil]
    exact h.conserved
  · rw [keptBy, hsame]
    exact h.kept_eq
  · rw [isReading_concat, hreading]
    exact h.reading_eq

namespace Channel

variable {I : List UInt8 → Option Instance → Prop} {Q Q' : List UInt8 → Finished → Prop}
  {l opened : List Mark} {c c' : Channel} {fresh : Bool} {kept : List UInt8}
  {inst : Option Instance}

theorem Flow.of_idle (hf : Flow I Q l c opened fresh kept) (hthread : c.thread = .idle inst) :
    I kept inst ∧ Settled l kept ∧ opened = [] := by
  obtain ⟨rfl, -⟩ := hf.standing.of_isApart (by rw [hthread]; rfl)
  have hpasses := hf.thread
  rw [hthread] at hpasses
  cases hpasses with
  | idle hi =>
    refine ⟨hi, ⟨?_, hf.kept_eq rfl, hf.reading_eq⟩, rfl⟩
    rw [← hf.conserved]
    exact (List.append_nil _).symm

theorem Flow.rest (hs : Settled l kept) (hi : I kept inst) (hthread : c.thread = .idle inst)
    (hstanding : c.Standing []) (hsize : c.shared.capacity ≤ 0x7fffffff) :
    Flow I Q l c [] false kept where
  standing := hstanding
  calm := by rw [hthread]; trivial
  capacity_le := hsize
  suffix := List.nil_suffix
  fits _ _ := nofun
  quiet _ := rfl
  thread := by rw [hthread]; exact .idle hi
  conserved := (List.append_nil _).trans hs.conserved
  kept_eq _ := hs.kept_eq
  reading_eq := hs.reading_eq
  handed := nofun

/-- How the input of all modules stands: what is not under way at present is settled. -/
inductive Books (sh : Shares) (c : Channel) : Prop where
  | calling {opened : List Mark} {fresh : Bool} {kept : List UInt8} : sh.loading = none →
    (∀ l ∈ sh.gone, Settled l (keptBy l)) →
    Flow Rests (Finished.Replies Rests) sh.loaded c opened fresh kept → Books sh c
  | loading {inst : Option Instance} {l opened : List Mark} {fresh : Bool}
    {keptBefore kept : List UInt8} : sh.loading = some l →
    (∀ l ∈ sh.gone, Settled l (keptBy l)) → Settled sh.loaded keptBefore → Rests keptBefore inst →
    (∀ inst, c.thread ≠ .idle inst) →
    Flow Rests (Finished.Loads inst) l c opened fresh kept → Books sh c

theorem rouse_idle (h : c.rouse.thread = .idle inst) : c.thread = .idle inst := by
  unfold rouse at h
  split at h
  · cases h
  · exact h

theorem Step.idle {k : Mark} (h : c.Step k c') (hk : ∀ m, k ≠ .finished m)
    (hidle : c'.thread = .idle inst) : c.thread = .idle inst := by
  cases h with
  | worker h =>
    cases h with
    | finish => exact absurd rfl (hk _)
    | _ => cases hidle
  | owner h =>
    obtain heq | heq := h.thread
    · exact heq.symm.trans hidle
    · exact rouse_idle (heq.symm.trans hidle)
  | load | call => exact hidle
  | stir => cases hidle

theorem Step.of_began {job : Job} (h : c.Step (.began job) c') :
    ∃ inst, c.thread = .idle inst ∧ c'.thread = .busy (work c.surroundings inst job) := by
  cases h with
  | owner h => cases h
  | worker h =>
    cases h with
    | begin hthread => exact ⟨_, hthread, rfl⟩

theorem Step.of_finished {m : Message} (h : c.Step (.finished m) c') :
    ∃ f, f.message = m ∧ c.thread = .busy (.done f) ∧ c'.thread = .idle f.inst := by
  cases h with
  | owner h => cases h
  | worker h =>
    cases h with
    | finish hthread => exact ⟨_, rfl, hthread, rfl⟩

theorem Flow.of_finished {f : Finished} (hf : Flow I Q l c opened fresh kept)
    (hthread : c.thread = .busy (.done f)) : Q kept f ∧ Settled l kept := by
  obtain ⟨rfl, -⟩ := hf.standing.of_isApart (by rw [hthread]; rfl)
  have hpasses := hf.thread
  rw [hthread] at hpasses
  cases hpasses with
  | busy hd =>
    cases hd with
    | done hq =>
      refine ⟨hq, ?_, hf.kept_eq rfl, hf.reading_eq⟩
      rw [← hf.conserved]
      exact (List.append_nil _).symm

theorem Flow.loading {name : String} {o : Options} {s : Surroundings}
    (hthread : c.thread = .busy (work s inst (.load name o))) (hstanding : c.Standing [])
    (hsize : c.shared.capacity ≤ 0x7fffffff) :
    Flow I (Finished.Loads inst) [.began (.load name o)] c [] false [] where
  standing := hstanding
  calm := by rw [hthread]; exact work_final _ _ _
  capacity_le := hsize
  suffix := List.nil_suffix
  fits _ _ := nofun
  quiet _ := rfl
  thread := by rw [hthread]; exact .busy (work_load_streams _ _ _ _)
  conserved := rfl
  kept_eq _ := rfl
  reading_eq := rfl
  handed := nofun

theorem Books.step {sh sh' : Shares} {k : Mark} (hb : Books sh c) (hsh : sh.Adds k sh')
    (h : c.Step k c') (hk : k.isFitting = true) : Books sh' c' := by
  cases hb with
  | calling hnone hgone hf =>
    have hsize := h.capacity_le hf.capacity_le hk
    cases hsh with
    | call _ hcall =>
      -- If a job begins it is a call, and a call leaves the module where it is.
      have hcalls (job : Job) (hjob : k = .began job) : job.isLoad = false := by
        cases job with
        | load name o => exact absurd hjob (hcall name o)
        | _ => rfl
      obtain ⟨_, _, _, hf'⟩ := hf.next h hk
        (fun _ job hjob hi => work_call_rests _ hi (hcalls job hjob)) fun _ _ hreplies => hreplies.2
      exact .calling hnone hgone hf'
    | began name o =>
      obtain ⟨_, -, hstanding⟩ := standing_step hf.standing hf.calm h
      obtain ⟨inst, hidle, hbusy⟩ := h.of_began
      obtain ⟨hi, hsettled, -⟩ := hf.of_idle hidle
      obtain ⟨rfl, -⟩ := hstanding.of_isApart (by rw [hbusy]; rfl)
      exact .loading rfl hgone hsettled hi (by simp [hbusy]) (Flow.loading hbusy hstanding hsize)
    | load hsome | failed hsome | loaded hsome => cases hnone.symm.trans hsome
  | loading hsome hgone hsettled hi hbusy hf =>
    have hsize := h.capacity_le hf.capacity_le hk
    cases hsh with
    | load hsome' hother =>
      cases hsome.symm.trans hsome'
      -- The worker is busy with the load, so no job begins.
      have hnew (job : Job) (hjob : k = .began job) : False := by
        subst hjob
        obtain ⟨inst, hidle, -⟩ := h.of_began
        exact hbusy inst hidle
      obtain ⟨_, _, _, hf'⟩ := hf.next h hk (fun _ job hjob _ => (hnew job hjob).elim)
        fun f hfinish _ => absurd hfinish (hother _)
      exact .loading rfl hgone hsettled hi (fun inst hidle => hbusy inst (h.idle hother hidle)) hf'
    | failed hsome' hm =>
      cases hsome.symm.trans hsome'
      obtain ⟨_, -, hstanding⟩ := standing_step hf.standing hf.calm h
      obtain ⟨f, rfl, hdone, hidle⟩ := h.of_finished
      obtain ⟨hloads, hgiven⟩ := hf.of_finished hdone
      obtain ⟨rfl, -⟩ := hstanding.of_isApart (by rw [hidle]; rfl)
      -- The module from before is there again, with what was kept for it.
      rw [hloads.failed hm] at hidle
      refine .calling rfl (fun l hl => ?_) (Flow.rest hsettled hi hidle hstanding hsize)
      obtain hl | hl := List.mem_append.mp hl
      · exact hgone l hl
      · obtain rfl := List.mem_singleton.mp hl
        have hlast := hgiven.concat (k := .finished f.message) rfl rfl rfl
        exact hlast.kept_eq ▸ hlast
    | loaded hsome' hm =>
      cases hsome.symm.trans hsome'
      obtain ⟨_, -, hstanding⟩ := standing_step hf.standing hf.calm h
      obtain ⟨f, rfl, hdone, hidle⟩ := h.of_finished
      obtain ⟨hloads, hgiven⟩ := hf.of_finished hdone
      obtain ⟨rfl, -⟩ := hstanding.of_isApart (by rw [hidle]; rfl)
      refine .calling rfl (fun l hl => ?_) (Flow.rest (hgiven.concat rfl rfl rfl)
        (.inr (hloads.leaves hm)) hidle hstanding hsize)
      obtain hl | hl := List.mem_append.mp hl
      · exact hgone l hl
      · obtain rfl := List.mem_singleton.mp hl
        exact hsettled.kept_eq ▸ hsettled
    | call hnone | began _ _ hnone => cases hsome.symm.trans hnone

theorem books_spawn (s : Surroundings) : Books {} (spawn s) := by
  have hsize : (spawn s).shared.capacity ≤ 0x7fffffff := by
    rw [spawn, SharedBlock.capacity, SharedBlock.new, List.length_replicate]
    decide
  have hstanding : (spawn s).Standing [] :=
    .apart rfl rfl rfl fun m hm => absurd hm (by simp [spawn])
  exact .calling rfl (by simp) (.rest ⟨rfl, rfl, rfl⟩ (.inl ⟨rfl, rfl⟩) rfl hstanding hsize)

theorem run_books {s : Surroundings} {ks : List Mark} (h : Run (spawn s) ks c)
    (hfits : ∀ k ∈ ks, k.isFitting = true) : Books (shares ks) c := by
  induction h with
  | nil => exact books_spawn s
  | concat _ hstep ih =>
    obtain ⟨hbefore, hlast⟩ := List.forall_mem_append.mp hfits
    exact (ih hbefore).step (adds_shares _ _) hstep (hlast _ (List.mem_singleton_self _))

end Channel

def written (ks : List Mark) : List UInt8 :=
  ((deliveries ks).filter (·.outcome.isOk)).flatMap Delivery.bytes

def spilled (ks : List Mark) : List UInt8 :=
  ((deliveries ks).filter (!·.outcome.isOk)).flatMap Delivery.bytes

theorem received_perm (ks : List Mark) : (received ks).Perm (written ks ++ spilled ks) := by
  rw [received, written, spilled, ← List.flatMap_append]
  exact (List.filter_append_perm _ _).symm.flatMap_right _

theorem received_append (ks ks' : List Mark) :
    received (ks ++ ks') = received ks ++ received ks' := by
  rw [received, deliveries, List.filterMap_append, List.flatMap_append]
  rfl

theorem ownerRead_append (ks ks' : List Mark) :
    ownerRead (ks ++ ks') = ownerRead ks ++ ownerRead ks' := by
  rw [ownerRead, List.filterMap_append, List.flatten_append]
  rfl

theorem received_flatten (ls : List (List Mark)) :
    received ls.flatten = ls.flatMap received := by
  induction ls with
  | nil => rfl
  | cons l ls ih => rw [List.flatten_cons, received_append, ih, List.flatMap_cons]

theorem ownerRead_flatten (ls : List (List Mark)) :
    ownerRead ls.flatten = ls.flatMap ownerRead := by
  induction ls with
  | nil => rfl
  | cons l ls ih => rw [List.flatten_cons, ownerRead_append, ih, List.flatMap_cons]

/-- Where the bytes are that the owner has read, after a run with these marks. -/
structure Account (ks : List Mark) (c : Channel) : Prop where
  /-- Each step of the run is about the input of one module. -/
  divided : (shares ks).all.flatten.Perm ks ∧ ∀ l ∈ (shares ks).all, l.Sublist ks
  /-- A module is handed what was read for it, in order. -/
  in_order (l : List Mark) : l ∈ (shares ks).all → received l <+: ownerRead l
  /-- While it does not read, the rest is kept for it. -/
  conserved (l : List Mark) : l ∈ (shares ks).all → isReading l = false →
    received l ++ keptBy l = ownerRead l
  gone (l : List Mark) : l ∈ (shares ks).gone → isReading l = false
  /-- Between jobs no module reads, and the one that is loaded has what is kept for it. -/
  idle (inst : Option Instance) : c.thread = .idle inst →
    (∀ l ∈ (shares ks).all, isReading l = false) ∧
      ∀ i, inst = some i → i.state.host.kept = keptBy (shares ks).loaded
  /-- While no module reads, a byte has been written for a guest, or it has not fitted there, or it
  is kept for a module. -/
  total : (∀ l ∈ (shares ks).all, isReading l = false) → (ownerRead ks).Perm
    (written ks ++ spilled ks ++ (shares ks).all.flatMap keptBy)

namespace Channel

theorem Flow.in_order {I : List UInt8 → Option Instance → Prop} {Q : List UInt8 → Finished → Prop}
    {l opened : List Mark} {c : Channel} {fresh : Bool} {kept : List UInt8}
    (hf : Flow I Q l c opened fresh kept) : received l <+: ownerRead l :=
  ⟨kept ++ ownerRead opened, by rw [← List.append_assoc, hf.conserved]⟩

theorem Flow.settled {I : List UInt8 → Option Instance → Prop} {Q : List UInt8 → Finished → Prop}
    {l opened : List Mark} {c : Channel} {fresh : Bool} {kept : List UInt8}
    (hf : Flow I Q l c opened fresh kept) (hreading : isReading l = false) :
    received l ++ keptBy l = ownerRead l := by
  rw [hf.reading_eq, Bool.or_eq_false_iff] at hreading
  rw [← hf.conserved, hf.quiet hreading.2, List.append_nil, hf.kept_eq hreading.1]

theorem Books.share {sh : Shares} {c : Channel} {l : List Mark} (hb : Books sh c)
    (hl : l ∈ sh.all) : received l <+: ownerRead l ∧
      (isReading l = false → received l ++ keptBy l = ownerRead l) := by
  have hsettled {l : List Mark} {kept : List UInt8} (hs : Settled l kept) :
      received l <+: ownerRead l ∧ (isReading l = false → received l ++ keptBy l = ownerRead l) :=
    ⟨⟨kept, hs.conserved⟩, fun _ => hs.kept_eq ▸ hs.conserved⟩
  cases hb with
  | calling hnone hgone hf =>
    rw [Shares.all, hnone, Option.toList_none, List.mem_append, List.mem_singleton] at hl
    obtain hl | rfl := hl
    · exact hsettled (hgone l hl)
    · exact ⟨hf.in_order, hf.settled⟩
  | loading hsome hgone hloaded _ _ hf =>
    rw [Shares.all, hsome, Option.toList_some, List.mem_append, List.mem_pair] at hl
    obtain hl | rfl | rfl := hl
    · exact hsettled (hgone l hl)
    · exact hsettled hloaded
    · exact ⟨hf.in_order, hf.settled⟩

theorem Books.gone {sh : Shares} {c : Channel} {l : List Mark} (hb : Books sh c)
    (hl : l ∈ sh.gone) : isReading l = false := by
  cases hb with
  | calling _ hgone | loading _ hgone => exact (hgone l hl).reading_eq

theorem Books.idle {sh : Shares} {c : Channel} {inst : Option Instance} (hb : Books sh c)
    (hthread : c.thread = .idle inst) : (∀ l ∈ sh.all, isReading l = false) ∧
      ∀ i, inst = some i → i.state.host.kept = keptBy sh.loaded := by
  cases hb with
  | loading _ _ _ _ hbusy => exact absurd hthread (hbusy inst)
  | calling hnone hgone hf =>
    obtain ⟨hrests, hsettled, -⟩ := hf.of_idle hthread
    refine ⟨fun l hl => ?_, ?_⟩
    · rw [Shares.all, hnone, Option.toList_none, List.mem_append, List.mem_singleton] at hl
      obtain hl | rfl := hl
      · exact (hgone l hl).reading_eq
      · exact hsettled.reading_eq
    · rintro i rfl
      obtain ⟨hnone, -⟩ | ⟨_, hsome, hi⟩ := hrests
      · cases hnone
      · cases hsome
        exact hi.kept_eq.trans hsettled.kept_eq

open scoped List in
/-- What was read for the modules altogether. -/
theorem total_perm {ks : List Mark} {ls : List (List Mark)} (hdivided : ls.flatten.Perm ks)
    (hconserved : ∀ l ∈ ls, received l ++ keptBy l = ownerRead l) :
    (ownerRead ks).Perm (written ks ++ spilled ks ++ ls.flatMap keptBy) := by
  have hread : (ls.flatMap received).Perm (received ks) := by
    rw [← received_flatten]
    exact (hdivided.filterMap _).flatMap_right _
  calc ownerRead ks
    _ ~ ownerRead ls.flatten := (hdivided.symm.filterMap _).flatten
    _ = ls.flatMap fun l => received l ++ keptBy l := by
      rw [ownerRead_flatten]
      exact List.flatMap_congr fun l hl => (hconserved l hl).symm
    _ ~ ls.flatMap received ++ ls.flatMap keptBy := (List.flatMap_append_perm _ _ _).symm
    _ ~ written ks ++ spilled ks ++ ls.flatMap keptBy :=
      (hread.trans (received_perm ks)).append_right _

/-- Over the whole life of a worker, whichever of its loads succeed and fail and wherever its guests
read to: no byte of the owner's input is lost on its way to the module it was read for, doubled or
put in another order. It is lost where the guest's buffer lies outside its memory, and with the
module that it is kept for. -/
theorem input_account (s : Surroundings) {ks : List Mark} {c : Channel} (h : Run (spawn s) ks c)
    (hfits : ∀ k ∈ ks, k.isFitting = true) : Account ks c := by
  have hbooks := run_books h hfits
  have hdivided := shares_divide ks
  exact {
    divided := hdivided
    in_order := fun l hl => (hbooks.share hl).1
    conserved := fun l hl => (hbooks.share hl).2
    gone := fun l => hbooks.gone
    idle := fun inst => hbooks.idle
    total := fun hquiet =>
      total_perm hdivided.1 fun l hl => (hbooks.share hl).2 (hquiet l hl) }

theorem Steady.run {c c' : Channel} {ks : List Mark} (h : c.Steady ks c') :
    Run c ks c' ∧ ∀ k ∈ ks, k.isFitting = true := by
  induction h with
  | nil => exact ⟨.nil, nofun⟩
  | concat _ hstep hk _ ih =>
    refine ⟨ih.1.concat hstep, List.forall_mem_append.mpr ⟨ih.2, fun k hmem => ?_⟩⟩
    rw [List.mem_singleton.mp hmem]
    exact Mark.isFitting_of_isSteady hk

theorem exists_run_reading {s : Surroundings} {name : String} {o : Options}
    {inst : Option Instance} (hsize : 4 ≤ o.stdinBufferSize.toNat)
    (hsmall : o.stdinBufferSize.toNat ≤ 0x7fffffff)
    (hload : work s none (.load name o) = .done ⟨.notice (.loaded .ok none), inst⟩)
    (hcall : isReadingOnce (work s inst (.call "read" [] 1)) = true) :
    ∃ ks c, Run (spawn s) ks c ∧ (∀ k ∈ ks, k.isFitting = true) ∧ ownerRead ks = input ∧
      received ks = [97, 98, 99] := by
  have hbegan := (run_load_sent s name o).concat (.worker (.begin rfl rfl))
  have hcapacity := (SharedBlock.new defaultBufferSize.toNat).capacity_resize
    o.stdinBufferSize.toNat
  generalize (SharedBlock.new defaultBufferSize.toNat).resize o.stdinBufferSize.toNat = shared
    at hbegan hcapacity
  obtain ⟨ks, c, hsteady, -, hreceived, -, hread⟩ := exists_steady_reading (hcapacity ▸ hsize) hcall
  obtain ⟨hrun, hfits⟩ := hsteady.run
  rw [← hload] at hrun
  have hfirst : ∀ k ∈ [.resized o.stdinBufferSize.toNat, .sent (.load name o)] ++
      [Mark.began (.load name o)], k.isFitting = true := by
    simp only [List.cons_append, List.nil_append, List.forall_mem_cons]
    exact ⟨decide_eq_true hsmall, rfl, rfl, nofun⟩
  refine ⟨_, c, hbegan.trans hrun, List.forall_mem_append.mpr ⟨hfirst, hfits⟩, ?_, ?_⟩
  · rw [ownerRead_append, hread]
    rfl
  · rw [received_append, hreceived]
    rfl

/-- Of four bytes that the owner has read for a module, three are in its memory. -/
theorem input_account_reading : ∃ ks c, Run (spawn readerSurroundings) ks c ∧
    (∀ k ∈ ks, k.isFitting = true) ∧ ownerRead ks = input ∧ received ks = [97, 98, 99] ∧
      Account ks c := by
  have h : isLoadedToRead (work readerSurroundings none (.load "reader" { config := .standard })) =
      true := by
    decide +kernel
  obtain ⟨inst, hload, hcall⟩ := exists_of_isLoadedToRead h
  obtain ⟨ks, c, hrun, hfits, hread, hreceived⟩ :=
    exists_run_reading (by decide) (by decide) hload hcall
  exact ⟨ks, c, hrun, hfits, hread, hreceived, input_account _ hrun hfits⟩

def keptNow (c : Channel) : Option (List UInt8) :=
  match c.thread with
  | .idle (some i) => some i.state.host.kept
  | _ => none

/-- Whether a byte is kept that no longer is after a load, in the course of which nothing is asked
or delivered. -/
def isLosing (c : Channel) : Bool :=
  keptNow c == some [100] &&
    match c.loadModule "reader" { config := .standard } with
    | .done (.ok .null, c') => keptNow c' == some []
    | _ => false

/-- A byte that the owner has read may be lost: it is kept for a module, and another load of that
very module drops it. -/
theorem exists_input_lost : ∃ ks c c', Run (spawn ⟨fun _ => some inputReader, fun _ => true⟩) ks c ∧
    (∃ outcome, c.owner = .free outcome) ∧ keptNow c = some [100] ∧
    (c.loadModule "reader" { config := .standard }).Ends [] (.ok .null, c') ∧
    keptNow c' = some [] := by
  have h : (readOnce.answered fourBytes).any (fun x => isLosing x.2) = true := by decide +kernel
  obtain ⟨t, ⟨outcome, c⟩, hends, hlosing⟩ := Dialogue.exists_ends_of_any_answered h
  obtain ⟨_, ⟨_, c₁⟩, _, hload, hcall, -⟩ := Dialogue.ends_bind.mp hends
  obtain ⟨⟨ks, hrun⟩, hfree⟩ := loadModule_runs rfl hload
  obtain ⟨⟨ks', hrun'⟩, hfree'⟩ := requestCall_runs (fun _ => rfl) hfree hcall
  simp only [isLosing, Bool.and_eq_true, beq_iff_eq] at hlosing
  obtain ⟨hkept, hreload⟩ := hlosing
  split at hreload
  · next c' hdone =>
    exact ⟨_, c, c', hrun.trans hrun', ⟨_, hfree'⟩, hkept, hdone ▸ .done _, beq_iff_eq.mp hreload⟩
  · cases hreload

end Channel

end SandboxHost.Worker
