import SandboxHost.Worker.SharedBlock

namespace SandboxHost.Worker

theorem concat_eq_append_cons {α : Type} {as before after : List α} {a x : α}
    (h : as ++ [a] = before ++ x :: after) :
    (after = [] ∧ before = as ∧ x = a) ∨
      ∃ rest, after = rest ++ [a] ∧ as = before ++ x :: rest := by
  obtain rfl | ⟨rest, last, rfl⟩ := List.eq_nil_or_concat after
  · obtain ⟨rfl, hlast⟩ := List.append_inj' h rfl
    exact .inl ⟨rfl, rfl, (List.cons.inj hlast).1.symm⟩
  · rw [List.concat_eq_append, ← List.cons_append, ← List.append_assoc] at h
    obtain ⟨rfl, hlast⟩ := List.append_inj' h rfl
    cases hlast
    exact .inr ⟨rest, List.concat_eq_append, rfl⟩

namespace SharedBlock

theorem room_le (b : SharedBlock) (count : Nat) : b.room count ≤ count :=
  Nat.le_trans (Nat.min_le_left _ _) (Nat.min_le_left _ _)

theorem room_lt (b : SharedBlock) (count : Nat) : b.room count < 0x80000000 :=
  Nat.lt_of_le_of_lt (Nat.min_le_right _ _) (by decide)

/-- No number of bytes is taken for the mark of an owner that has not answered. -/
theorem ofNat_ne_pending {n : Nat} (h : n < 0x80000000) : Int32.ofNat n ≠ pending := by
  intro heq
  have hint : (Int32.ofNat n).toInt = -1 := by rw [heq]; rfl
  rw [Int32.toInt_ofNat_of_lt h] at hint
  omega

theorem data_fill (b : SharedBlock) (bytes : List UInt8) :
    (b.fill bytes).data = bytes.take (b.room bytes.length) ++ b.data.drop (b.room bytes.length) :=
  rfl

theorem getElem?_fill (b : SharedBlock) (bytes : List UInt8) (i : Nat) :
    (b.fill bytes).data[i]? = if i < b.room bytes.length then bytes[i]? else b.data[i]? := by
  have hlength : (bytes.take (b.room bytes.length)).length = b.room bytes.length := by
    rw [List.length_take, Nat.min_eq_left (b.room_le _)]
  rw [data_fill, List.getElem?_append, hlength]
  split
  · next hi => exact List.getElem?_take_of_lt hi
  · next hi => rw [List.getElem?_drop, Nat.add_sub_cancel' (Nat.le_of_not_lt hi)]

theorem getElem?_resize (b : SharedBlock) (capacity i : Nat) :
    (b.resize capacity).data[i]? =
      if i < capacity then some (b.data[i]?.getD 0) else none := by
  have hlength : (b.data.take capacity).length = min capacity b.data.length := List.length_take
  rw [resize, List.getElem?_append, hlength, List.getElem?_replicate]
  by_cases hi : i < capacity
  · by_cases hold : i < b.data.length
    · rw [if_pos (Nat.lt_min.mpr ⟨hi, hold⟩), if_pos hi, List.getElem?_take_of_lt hi,
        List.getElem?_eq_getElem hold]
      rfl
    · rw [if_neg (by omega), if_pos (by omega), if_pos hi,
        List.getElem?_eq_none (Nat.le_of_not_lt hold)]
      rfl
  · rw [if_neg (by omega), if_neg (by omega), if_neg hi]

theorem capacity_fill (b : SharedBlock) (bytes : List UInt8) :
    (b.fill bytes).capacity = b.capacity := by
  simp only [capacity, fill, room, List.length_append, List.length_take, List.length_drop]
  omega

theorem capacity_resize (b : SharedBlock) (capacity : Nat) :
    (b.resize capacity).capacity = capacity := by
  simp only [SharedBlock.capacity, resize, List.length_append, List.length_take,
    List.length_replicate]
  omega

theorem take_fill (b : SharedBlock) (bytes : List UInt8) :
    (b.fill bytes).data.take (b.room bytes.length) = bytes.take (b.room bytes.length) := by
  have hle := b.room_le bytes.length
  rw [data_fill, List.take_append_of_le_length (by rw [List.length_take]; omega), List.take_take,
    Nat.min_self]

/-- Where a publisher was not interrupted, what it put there is taken. -/
theorem take_publish (b : SharedBlock) (bytes : List UInt8) :
    (b.publish bytes).take (b.publish bytes).word.toNatClampNeg =
      bytes.take (b.room bytes.length) := by
  have hword : (b.publish bytes).word.toNatClampNeg = b.room bytes.length :=
    Int32.toNatClampNeg_ofNat_of_lt (b.room_lt _)
  rw [hword]
  exact b.take_fill bytes

/-- What may be done with a block, apart from waiting. -/
inductive Use where
  | arm
  | publish (bytes : List UInt8)
  | resize (capacity : Nat)
  | take (count : Nat)

namespace Use

def Answer : Use → Type
  | .publish _ => Nat
  | .take _ => List UInt8
  | .arm | .resize _ => Unit

def capacity? : Use → Option Nat
  | .resize capacity => some capacity
  | .arm | .publish _ | .take _ => none

def setsWord : Use → Bool
  | .arm | .publish _ => true
  | .resize _ | .take _ => false

def put? (capacity i : Nat) : Use → Option UInt8
  | .publish bytes => if i < min (min bytes.length capacity) 0x7fffffff then bytes[i]? else none
  | .arm | .resize _ | .take _ => none

end Use

/-- What the user is told, and the block after it. -/
def step (b : SharedBlock) : (u : Use) → u.Answer × SharedBlock
  | .arm => ((), b.arm)
  | .publish bytes => (b.room bytes.length, b.publish bytes)
  | .resize capacity => ((), b.resize capacity)
  | .take count => (b.take count, b)

def after (b : SharedBlock) (uses : List Use) : SharedBlock :=
  uses.foldl (fun b u => (b.step u).2) b

def lastCapacity (initial : Nat) (uses : List Use) : Nat :=
  (uses.filterMap Use.capacity?).getLast?.getD initial

/-- After these uses, one more makes the buffer grow to include a position. -/
def Grows (initial : Nat) (uses : List Use) (u : Use) (i : Nat) : Prop :=
  lastCapacity initial uses ≤ i ∧ i < lastCapacity initial (uses ++ [u])

/-- The byte most recently published at a position since the buffer last grew to include it. -/
def Latest (initial : Nat) (uses : List Use) (i : Nat) (byte : UInt8) : Prop :=
  ∃ earlier u later, uses = earlier ++ u :: later ∧
    u.put? (lastCapacity initial earlier) i = some byte ∧
    ∀ between v rest, later = between ++ v :: rest →
      v.put? (lastCapacity initial (earlier ++ u :: between)) i = none ∧
        ¬ Grows initial (earlier ++ u :: between) v i

/-- What is to be found at a position: the byte published there last, or zero if there is none. -/
structure Holds (initial : Nat) (uses : List Use) (i : Nat) (found : Option UInt8) : Prop where
  latest : ∀ byte, Latest initial uses i byte → found = some byte
  blank : (∀ byte, ¬ Latest initial uses i byte) → found = some 0

/-- The buffer has the size and the contents that it should have after these uses. -/
structure Keeps (initial : Nat) (uses : List Use) (b : SharedBlock) : Prop where
  capacity : b.capacity = lastCapacity initial uses
  holds : ∀ i < b.capacity, Holds initial uses i b.data[i]?

structure Published (before : SharedBlock) (capacity : Nat) (bytes : List UInt8) (told : Nat)
    (b : SharedBlock) : Prop where
  told_eq : told = min (min bytes.length capacity) 0x7fffffff
  word : b.word.toInt = told
  not_pending : b.isPending = false
  /-- A wait that follows does not block, whatever is done with the buffer meanwhile. -/
  wait : ∀ later, (∀ u ∈ later, u.setsWord = false) → (b.after later).wait? = some b.word
  beyond : ∀ i, told ≤ i → b.data[i]? = before.data[i]?
  taken : (b.step (.take told)).1 = bytes.take told

structure Taken (initial : Nat) (uses : List Use) (count : Nat) (taken : List UInt8) : Prop where
  length : taken.length = min count (lastCapacity initial uses)
  holds : ∀ i < taken.length, Holds initial uses i taken[i]?

/-- What a block of this size at first gives to its next user after these uses. -/
structure HandsOver (initial : Nat) (uses : List Use) (b : SharedBlock) : Prop where
  capacity : b.capacity = lastCapacity initial uses
  publish : ∀ bytes, Published b (lastCapacity initial uses) bytes (b.step (.publish bytes)).1
    (b.step (.publish bytes)).2
  take : ∀ count, Taken initial uses count (b.step (.take count)).1

variable {initial : Nat} {uses : List Use} {u : Use} {i : Nat} {byte : UInt8} {b : SharedBlock}

theorem lastCapacity_concat (initial : Nat) (uses : List Use) (u : Use) :
    lastCapacity initial (uses ++ [u]) = u.capacity?.getD (lastCapacity initial uses) := by
  rw [lastCapacity, List.filterMap_append, List.getLast?_append]
  cases u <;> rfl

theorem capacity_step (b : SharedBlock) (u : Use) :
    (b.step u).2.capacity = u.capacity?.getD b.capacity := by
  cases u with
  | publish bytes => exact b.capacity_fill bytes
  | resize capacity => exact b.capacity_resize capacity
  | arm | take => rfl

theorem word_after {uses : List Use} (huses : ∀ u ∈ uses, u.setsWord = false) (b : SharedBlock) :
    (b.after uses).word = b.word := by
  induction uses generalizing b with
  | nil => rfl
  | cons u uses ih =>
    obtain ⟨hu, huses⟩ := List.forall_mem_cons.mp huses
    refine (ih huses (b.step u).2).trans ?_
    cases u with
    | arm | publish => cases hu
    | resize | take => rfl

theorem latest_concat_iff : Latest initial (uses ++ [u]) i byte ↔
    u.put? (lastCapacity initial uses) i = some byte ∨
      u.put? (lastCapacity initial uses) i = none ∧ ¬ Grows initial uses u i ∧
        Latest initial uses i byte := by
  constructor
  · rintro ⟨earlier, v, later, heq, hput, hlater⟩
    obtain ⟨rfl, rfl, rfl⟩ | ⟨later, rfl, rfl⟩ := concat_eq_append_cons heq
    · exact .inl hput
    · obtain ⟨hnone, hstays⟩ := hlater later u [] rfl
      refine .inr ⟨hnone, hstays, earlier, v, later, rfl, hput, fun between w rest hbetween => ?_⟩
      refine hlater between w (rest ++ [u]) ?_
      rw [hbetween, List.append_assoc, List.cons_append]
  · rintro (hput | ⟨hnone, hstays, earlier, v, later, rfl, hput, hlater⟩)
    · refine ⟨uses, u, [], rfl, hput, fun between v rest hbetween => ?_⟩
      exact absurd hbetween.symm (List.append_ne_nil_of_right_ne_nil _ (List.cons_ne_nil v rest))
    · refine ⟨earlier, v, later ++ [u], List.append_assoc .., hput, fun between w rest heq => ?_⟩
      obtain ⟨rfl, rfl, rfl⟩ | ⟨rest, -, hbetween⟩ := concat_eq_append_cons heq
      · exact ⟨hnone, hstays⟩
      · exact hlater between w rest hbetween

/-- A use either publishes at a position, or leaves what is there, or makes room that is blank. -/
theorem getElem?_step (hi : i < (b.step u).2.capacity) :
    (b.step u).2.data[i]? = some (((u.put? b.capacity i).or b.data[i]?).getD 0) := by
  have hkept (h : i < b.capacity) : b.data[i]? = some (b.data[i]?.getD 0) := by
    rw [List.getElem?_eq_getElem h]
    rfl
  rw [capacity_step] at hi
  cases u with
  | arm | take => exact hkept hi
  | publish bytes =>
    have hput : (Use.publish bytes).put? b.capacity i =
        if i < b.room bytes.length then bytes[i]? else none := rfl
    rw [hput]
    refine (b.getElem?_fill bytes i).trans ?_
    split
    · next hroom =>
      rw [List.getElem?_eq_getElem (Nat.lt_of_lt_of_le hroom (b.room_le _))]
      rfl
    · exact hkept hi
  | resize capacity => exact (b.getElem?_resize capacity i).trans (if_pos hi)

theorem holds_put (hput : u.put? (lastCapacity initial uses) i = some byte) :
    Holds initial (uses ++ [u]) i (some byte) := by
  refine ⟨fun other hlatest => ?_, fun hnone => ?_⟩
  · obtain hother | ⟨hnone, -⟩ := latest_concat_iff.mp hlatest
    · exact hput.symm.trans hother
    · cases hput.symm.trans hnone
  · exact absurd (latest_concat_iff.mpr (.inl hput)) (hnone byte)

theorem holds_grown (hput : u.put? (lastCapacity initial uses) i = none)
    (hgrows : Grows initial uses u i) : Holds initial (uses ++ [u]) i (some 0) := by
  refine ⟨fun byte hlatest => ?_, fun _ => rfl⟩
  obtain hbyte | ⟨-, hstays, -⟩ := latest_concat_iff.mp hlatest
  · cases hput.symm.trans hbyte
  · exact absurd hgrows hstays

theorem Holds.kept {found : Option UInt8} (h : Holds initial uses i found)
    (hput : u.put? (lastCapacity initial uses) i = none) (hstays : ¬ Grows initial uses u i) :
    Holds initial (uses ++ [u]) i found := by
  refine ⟨fun byte hlatest => ?_, fun hnone => h.blank fun byte hlatest => ?_⟩
  · obtain hbyte | ⟨-, -, hbefore⟩ := latest_concat_iff.mp hlatest
    · cases hput.symm.trans hbyte
    · exact h.latest byte hbefore
  · exact hnone byte (latest_concat_iff.mpr (.inr ⟨hput, hstays, hlatest⟩))

theorem Keeps.step (h : Keeps initial uses b) (u : Use) :
    Keeps initial (uses ++ [u]) (b.step u).2 := by
  have hcapacity : (b.step u).2.capacity = lastCapacity initial (uses ++ [u]) := by
    rw [capacity_step, h.capacity, lastCapacity_concat]
  refine ⟨hcapacity, fun i hi => ?_⟩
  rw [getElem?_step hi, h.capacity]
  cases hput : u.put? (lastCapacity initial uses) i with
  | some byte => exact holds_put hput
  | none =>
    rw [Option.none_or]
    by_cases hold : i < b.capacity
    · have hstays : ¬ Grows initial uses u i := by
        rw [Grows, ← h.capacity]
        omega
      have hkept := (h.holds i hold).kept hput hstays
      rw [List.getElem?_eq_getElem hold] at hkept ⊢
      exact hkept
    · -- The position is there, and was not before.
      have hle : b.capacity ≤ i := Nat.le_of_not_lt hold
      rw [List.getElem?_eq_none hle]
      exact holds_grown hput ⟨h.capacity ▸ hle, hcapacity ▸ hi⟩

theorem keeps_new (initial : Nat) : Keeps initial [] (new initial) := by
  refine ⟨List.length_replicate, fun i hi => ⟨fun byte hlatest => ?_, fun _ => ?_⟩⟩
  · obtain ⟨earlier, u, later, heq, -⟩ := hlatest
    exact absurd heq.symm (List.append_ne_nil_of_right_ne_nil _ (List.cons_ne_nil u later))
  · rw [new, capacity, List.length_replicate] at hi
    exact List.getElem?_replicate_of_lt hi

theorem Keeps.after (h : Keeps initial uses b) (later : List Use) :
    Keeps initial (uses ++ later) (b.after later) := by
  induction later generalizing uses b with
  | nil =>
    rw [List.append_nil]
    exact h
  | cons u later ih =>
    rw [List.append_cons]
    exact ih (h.step u)

theorem Keeps.published (h : Keeps initial uses b) (bytes : List UInt8) :
    Published b (lastCapacity initial uses) bytes (b.room bytes.length) (b.publish bytes) := by
  have hlt := b.room_lt bytes.length
  have hpending : (b.publish bytes).isPending = false :=
    beq_eq_false_iff_ne.mpr (ofNat_ne_pending hlt)
  refine ⟨?_, Int32.toInt_ofNat_of_lt hlt, hpending, fun later hlater => ?_, fun i hi => ?_,
    b.take_fill bytes⟩
  · rw [room, h.capacity]
  · have hword := word_after hlater (b.publish bytes)
    rw [wait?, isPending, hword, ← isPending, hpending]
    rfl
  · exact (b.getElem?_fill bytes i).trans (if_neg (Nat.not_lt.mpr hi))

theorem Keeps.taken (h : Keeps initial uses b) (count : Nat) :
    Taken initial uses count (b.take count) := by
  have hlength : (b.take count).length = min count b.capacity := List.length_take
  refine ⟨h.capacity ▸ hlength, fun i hi => ?_⟩
  rw [hlength, Nat.lt_min] at hi
  have hdata : (b.take count)[i]? = b.data[i]? := List.getElem?_take_of_lt hi.1
  rw [hdata]
  exact h.holds i hi.2

/-- However a block has been used, what is published next is handed over as far as there is room,
and what is taken next is what was published there last. -/
theorem hands_over (initial : Nat) (uses : List Use) :
    HandsOver initial uses ((new initial).after uses) := by
  have hkeeps : Keeps initial uses ((new initial).after uses) := (keeps_new initial).after uses
  exact ⟨hkeeps.capacity, hkeeps.published, hkeeps.taken⟩

/-- A shorter text leaves the end of a longer one, and what was cut off does not come back. -/
example : ((new 4).after
    [.publish [97, 98, 99, 100], .publish [120], .resize 3, .resize 5]).take 5 =
      [120, 98, 99, 0, 0] := by
  decide

end SharedBlock

end SandboxHost.Worker
