import SandboxHost.Proofs.ArgumentLists

namespace SandboxHost

def ValueType.isReference : ValueType → Bool
  | .i32 | .i64 | .f32 | .f64 => false
  | .ref _ => true

namespace Guest

/-- The value of a type that stands for an integer. -/
inductive Stands (n : Int64) : ValueType → Value → Prop where
  /-- The integer modulo 2 to the 32. -/
  | word {w : UInt32} : (w.toNat : Int) = n.toInt % 0x100000000 → Stands n .i32 (.i32 w)
  /-- The integer itself. -/
  | long {w : UInt64} : w.toInt64 = n → Stands n .i64 (.i64 w)
  /-- The nearest number. -/
  | single : Stands n .f32 (.f32 (binary32.ofInt n.toInt).toUInt32)
  | double : Stands n .f64 (.f64 (binary64.ofInt n.toInt).toUInt64)

theorem Stands.type_eq {n : Int64} {type : ValueType} {v : Value} (h : Stands n type v) :
    v.type = type := by
  cases h <;> rfl

theorem toNat_word (n : Int64) : (n.toUInt64.toUInt32.toNat : Int) = n.toInt % 0x100000000 := by
  have hlong : n.toInt = n.toUInt64.toNat ∨
      n.toInt = n.toUInt64.toNat - 0x10000000000000000 := by
    rw [Int64.toInt, BitVec.toInt_eq_toNat_cond]
    split
    · exact .inl rfl
    · exact .inr rfl
  rw [UInt64.toNat_toUInt32]
  omega

theorem stands_of_argument {type : ValueType} {n : Int64} {v : Value}
    (h : argument type n = .ok v) : Stands n type v := by
  cases type with
  | i32 =>
    cases h
    exact .word (toNat_word n)
  | i64 =>
    cases h
    exact .long rfl
  | f32 =>
    cases h
    exact .single
  | f64 =>
    cases h
    exact .double
  | ref t => cases h

/-- What is given to a function: pointers, read as signed numbers, and then integers. -/
def integers (pointers : List UInt32) (extra : List Int64) : List Int64 :=
  pointers.map (·.toInt32.toInt64) ++ extra

/-- The arguments are one for each parameter, of its type, and stand for what is given. -/
structure Fits (types : List ValueType) (pointers : List UInt32) (extra : List Int64)
    (args : List Value) : Prop where
  count : types.length = pointers.length + extra.length
  typed : typesOf args = types
  stands (i : Nat) (n : Int64) (type : ValueType) : (integers pointers extra)[i]? = some n →
    types[i]? = some type → ∃ v, args[i]? = some v ∧ Stands n type v
  /-- A pointer that is taken for a word is unchanged. -/
  pointer (i : Nat) (p : UInt32) : pointers[i]? = some p → types[i]? = some .i32 →
    args[i]? = some (.i32 p)

section

variable {types : List ValueType} {pointers : List UInt32} {extra : List Int64}

theorem getElem?_of_mapM {α β ε : Type} {f : α → Except ε β} {as : List α} {bs : List β}
    (h : as.mapM f = .ok bs) : bs.length = as.length ∧
      ∀ (i : Nat) (a : α), as[i]? = some a → ∃ b, bs[i]? = some b ∧ f a = .ok b := by
  induction as generalizing bs with
  | nil =>
    cases h
    exact ⟨rfl, by rintro i a ⟨⟩⟩
  | cons first rest ih =>
    rw [List.mapM_cons] at h
    cases hfirst : f first with
    | error e =>
      rw [hfirst] at h
      cases h
    | ok b =>
      cases hrest : rest.mapM f with
      | error e =>
        rw [hfirst, hrest] at h
        cases h
      | ok bs' =>
        rw [hfirst, hrest] at h
        cases h
        obtain ⟨hlength, hall⟩ := ih hrest
        refine ⟨congrArg Nat.succ hlength, fun i a hi => ?_⟩
        cases i with
        | zero =>
          cases hi
          exact ⟨b, rfl, hfirst⟩
        | succ i => exact hall i a hi

theorem fits_of_arguments {args : List Value} (h : arguments types pointers extra = .ok args) :
    Fits types pointers extra args := by
  rw [show arguments types pointers extra = if types.length = (integers pointers extra).length then
    (types.zip (integers pointers extra)).mapM fun x => argument x.1 x.2 else _ from rfl] at h
  split at h
  · next hcount =>
    obtain ⟨hlength, hall⟩ := getElem?_of_mapM h
    have hstands (i : Nat) (n : Int64) (type : ValueType)
        (hn : (integers pointers extra)[i]? = some n) (htype : types[i]? = some type) :
        ∃ v, args[i]? = some v ∧ argument type n = .ok v :=
      hall i (type, n) (List.getElem?_zip_eq_some.mpr ⟨htype, hn⟩)
    rw [List.length_zip, ← hcount, Nat.min_self] at hlength
    refine ⟨?_, ?_, fun i n type hn htype => ?_, fun i p hp htype => ?_⟩
    · rw [hcount, integers, List.length_append, List.length_map]
    · refine List.ext_getElem? fun i => ?_
      cases htype : types[i]? with
      | none =>
        rw [List.getElem?_eq_none_iff] at htype ⊢
        rw [typesOf, List.length_map, hlength]
        exact htype
      | some type =>
        obtain ⟨hlt, -⟩ := List.getElem?_eq_some_iff.mp htype
        obtain ⟨v, hv, hargument⟩ := hstands i _ type
          (List.getElem?_eq_getElem (hcount ▸ hlt)) htype
        rw [typesOf, List.getElem?_map, hv, Option.map_some, (stands_of_argument hargument).type_eq]
    · obtain ⟨v, hv, hargument⟩ := hstands i n type hn htype
      exact ⟨v, hv, stands_of_argument hargument⟩
    · obtain ⟨hlt, -⟩ := List.getElem?_eq_some_iff.mp hp
      have hn : (integers pointers extra)[i]? = some p.toInt32.toInt64 := by
        rw [integers, List.getElem?_append_left (by rwa [List.length_map]), List.getElem?_map, hp]
        rfl
      obtain ⟨v, hv, hargument⟩ := hstands i _ .i32 hn htype
      rw [argument, toUInt32_toInt64] at hargument
      rw [hv, Except.ok.inj hargument]
  · cases h

/-- Why there are no arguments: there are more or fewer parameters, or one is a reference. -/
def misfit? (types : List ValueType) (count : Nat) : Option ArgumentFault :=
  if types.length = count then (types.find? ValueType.isReference).map .parameterType
  else some (.argumentCount types.length count)

theorem misfit?_isSome (count : Nat) : (misfit? types count).isSome ↔
    types.length ≠ count ∨ ∃ t, .ref t ∈ types := by
  have hreference : (types.find? ValueType.isReference).isSome ↔ ∃ t, .ref t ∈ types := by
    rw [List.find?_isSome]
    constructor
    · rintro ⟨type, hmem, htype⟩
      cases type with
      | ref t => exact ⟨t, hmem⟩
      | _ => cases htype
    · rintro ⟨t, hmem⟩
      exact ⟨_, hmem, rfl⟩
  unfold misfit?
  split
  · next hcount =>
    rw [Option.isSome_map, hreference]
    exact (or_iff_right (not_not_intro hcount)).symm
  · next hcount => exact iff_of_true rfl (.inl hcount)

theorem exists_arguments (hcount : types.length = pointers.length + extra.length)
    (hreference : ∀ t, .ref t ∉ types) : ∃ args, arguments types pointers extra = .ok args := by
  have hgiven : types.length = (integers pointers extra).length := by
    rw [integers, List.length_append, List.length_map, hcount]
  rw [show arguments types pointers extra = if types.length = (integers pointers extra).length then
    (types.zip (integers pointers extra)).mapM fun x => argument x.1 x.2 else _ from rfl,
    if_pos hgiven]
  generalize integers pointers extra = ns
  clear hcount hgiven
  induction types generalizing ns with
  | nil => exact ⟨[], rfl⟩
  | cons first rest ih =>
    cases ns with
    | nil => exact ⟨[], rfl⟩
    | cons n ns =>
      obtain ⟨args, hargs⟩ := ih (fun t hmem => hreference t (List.mem_cons_of_mem _ hmem)) ns
      have hvalue : ∃ v, argument first n = .ok v := by
        cases first with
        | ref t => exact absurd List.mem_cons_self (hreference t)
        | _ => exact ⟨_, rfl⟩
      obtain ⟨v, hv⟩ := hvalue
      refine ⟨v :: args, ?_⟩
      rw [List.zip_cons_cons, List.mapM_cons, hv, hargs]
      rfl

/-- The first reference among the parameters is what is reported. -/
theorem arguments_of_misfit? {fault : ArgumentFault}
    (h : misfit? types (pointers.length + extra.length) = some fault) :
    arguments types pointers extra = .error (.invalidArgument fault) := by
  have hlength : (integers pointers extra).length = pointers.length + extra.length := by
    rw [integers, List.length_append, List.length_map]
  rw [show arguments types pointers extra = if types.length = (integers pointers extra).length then
    (types.zip (integers pointers extra)).mapM fun x => argument x.1 x.2 else
      .error (.invalidArgument (.argumentCount types.length (integers pointers extra).length))
    from rfl, hlength]
  unfold misfit? at h
  split at h
  · next hcount =>
    rw [if_pos hcount]
    obtain ⟨type, hfound, rfl⟩ := Option.map_eq_some_iff.mp h
    rw [← hlength] at hcount
    -- The first reference among the parameters decides, whatever the numbers are.
    clear h hlength
    generalize integers pointers extra = ns at hcount
    induction types generalizing ns with
    | nil => cases hfound
    | cons first rest ih =>
      obtain ⟨n, ns, rfl⟩ := List.exists_cons_of_length_eq_add_one hcount.symm
      have hrest : first.isReference = false → (rest.zip ns).mapM (m := Except Error)
          (fun x => argument x.1 x.2) = .error (.invalidArgument (.parameterType type)) := by
        intro hfirst
        rw [List.find?_cons_of_neg (by rw [hfirst]; exact Bool.false_ne_true)] at hfound
        exact ih hfound ns (Nat.succ.inj hcount)
      rw [List.zip_cons_cons, List.mapM_cons]
      cases first with
      | ref t =>
        cases hfound
        rfl
      | _ =>
        rw [hrest rfl]
        rfl
  · next hcount =>
    rw [if_neg hcount]
    cases h
    rfl

end

end Guest

end SandboxHost
