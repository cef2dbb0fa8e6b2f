import SandboxHost.Proofs.Interruption

namespace SandboxHost

namespace Page

theorem get_set_self (p : Page) {i : Nat} (hi : i < pageSize) (v : UInt8) :
    (p.set i hi v).get i hi = v := by
  obtain ⟨⟨data⟩, hsize⟩ := p
  have hdata : i < data.size := Nat.lt_of_lt_of_eq hi hsize.symm
  exact Array.getElem_set_self hdata

theorem get_set_of_ne (p : Page) {i j : Nat} (hi : i < pageSize) (hj : j < pageSize) (v : UInt8)
    (h : j ≠ i) : (p.set i hi v).get j hj = p.get j hj := by
  obtain ⟨⟨data⟩, hsize⟩ := p
  have hdata : i < data.size := Nat.lt_of_lt_of_eq hi hsize.symm
  have hdata' : j < data.size := Nat.lt_of_lt_of_eq hj hsize.symm
  exact Array.getElem_set_ne hdata hdata' h.symm

end Page

namespace Memory

theorem get_set_self {m : Memory} {a : Nat} (ha : a < m.size) (v : UInt8) :
    (m.set a v).get a = v := by
  have hpage : a / pageSize < (m.set a v).pages.size := by
    simpa [set] using page_lt_iff.mpr ha
  rw [get, dif_pos hpage]
  simp [set, Array.getElem_modify, Page.get_set_self]

theorem get_set_of_ne {m : Memory} {a b : Nat} (v : UInt8) (h : b ≠ a) :
    (m.set a v).get b = m.get b := by
  have hsize : (m.set a v).pages.size = m.pages.size := by simp [set]
  by_cases hb : b / pageSize < m.pages.size
  · rw [get, dif_pos (hsize ▸ hb), get, dif_pos hb]
    simp only [set, Array.getElem_modify]
    split
    · next hpage =>
      apply Page.get_set_of_ne
      intro hoffset
      apply h
      rw [← Nat.div_add_mod a pageSize, ← Nat.div_add_mod b pageSize, hpage, hoffset]
    · rfl
  · rw [get, dif_neg (hsize ▸ hb), get, dif_neg hb]

theorem get_zeros (pageCount a : Nat) : (zeros pageCount).get a = 0 := by
  unfold get
  split
  · next hpage =>
    have hzero : (zeros pageCount).pages[a / pageSize] = Page.zero := by simp [zeros]
    rw [hzero, get_zero_page]
  · rfl

theorem get_writeAll_outside {m : Memory} {a b : Nat} {bytes : List UInt8}
    (h : b < a ∨ a + bytes.length ≤ b) : (m.writeAll a bytes).get b = m.get b := by
  induction bytes generalizing m a with
  | nil => rfl
  | cons v rest ih =>
    rw [List.length_cons] at h
    rw [writeAll, ih (by omega), get_set_of_ne v (by omega)]

theorem get_writeAll_inside {m : Memory} {a i : Nat} {bytes : List UInt8}
    (ha : a + bytes.length ≤ m.size) (hi : i < bytes.length) :
    (m.writeAll a bytes).get (a + i) = bytes[i] := by
  induction bytes generalizing m a i with
  | nil => cases hi
  | cons v rest ih =>
    rw [List.length_cons] at ha hi
    rw [writeAll]
    cases i with
    | zero =>
      rw [get_writeAll_outside (by omega), Nat.add_zero, get_set_self (by omega)]
      rfl
    | succ i =>
      have hrest : a + 1 + rest.length ≤ (m.set a v).size := by
        rw [size_set]
        omega
      rw [show a + (i + 1) = a + 1 + i by omega, ih hrest (by omega)]
      rfl

theorem writeAll_append (m : Memory) (a : Nat) (bytes bytes' : List UInt8) :
    m.writeAll a (bytes ++ bytes') = (m.writeAll a bytes).writeAll (a + bytes.length) bytes' := by
  induction bytes generalizing m a with
  | nil => rfl
  | cons v rest ih =>
    rw [List.cons_append, writeAll, writeAll, ih, List.length_cons, Nat.add_assoc, Nat.add_comm 1]

theorem gather_eq_map (m : Memory) (a n : Nat) (tail : List UInt8) :
    m.gather a n tail = (List.range n).map (fun i => m.get (a + i)) ++ tail := by
  induction n generalizing tail with
  | zero => rfl
  | succ n ih => simp [gather, ih, List.range_succ]

theorem slice_eq_map (m : Memory) (a n : Nat) :
    m.slice a n = (List.range n).map fun i => m.get (a + i) := by
  rw [slice, gather_eq_map, List.append_nil]

@[simp] theorem length_slice (m : Memory) (a n : Nat) : (m.slice a n).length = n := by
  simp [slice_eq_map]

theorem slice_add (m : Memory) (a n k : Nat) :
    m.slice a (n + k) = m.slice a n ++ m.slice (a + n) k := by
  simp only [slice_eq_map, List.range_add, List.map_append, List.map_map, Nat.add_assoc,
    Function.comp_def]

theorem slice_congr {m m' : Memory} {a n : Nat} (h : ∀ i, i < n → m'.get (a + i) = m.get (a + i)) :
    m'.slice a n = m.slice a n := by
  rw [slice_eq_map, slice_eq_map]
  exact List.map_congr_left fun i hi => h i (List.mem_range.mp hi)

theorem get_of_slice {m : Memory} {a i : Nat} {bytes : List UInt8}
    (h : m.slice a bytes.length = bytes) (hi : i < bytes.length) : m.get (a + i) = bytes[i] := by
  have hget : (m.slice a bytes.length)[i]? = some (m.get (a + i)) := by
    simp [slice_eq_map, hi]
  rw [h, List.getElem?_eq_getElem hi] at hget
  exact (Option.some.inj hget).symm

theorem findZero_eq {m : Memory} {a limit n k : Nat} (hbefore : ∀ i, i < k → m.get (a + n + i) ≠ 0)
    (hzero : m.get (a + n + k) = 0) (hk : k < limit) : m.findZero a limit n = some (n + k) := by
  induction limit generalizing n k with
  | zero => cases hk
  | succ limit ih =>
    rw [findZero]
    cases k with
    | zero => exact if_pos hzero
    | succ k =>
      have hshift (i : Nat) : a + n + (i + 1) = a + (n + 1) + i := by omega
      have hrest : m.findZero a limit (n + 1) = some (n + 1 + k) := by
        refine ih (fun i hi => ?_) (hshift k ▸ hzero) (Nat.lt_of_succ_lt_succ hk)
        rw [← hshift]
        exact hbefore (i + 1) (Nat.succ_lt_succ hi)
      have hfirst : m.get (a + n) ≠ 0 := hbefore 0 (Nat.succ_pos k)
      rw [if_neg hfirst, hrest, Nat.add_assoc, Nat.add_comm 1]

/-- Bytes with a zero byte after them are read back up to there. -/
theorem cstring?_of_slice {m : Memory} {a n : Nat} {bytes rest : List UInt8} (hn : a + n ≤ m.size)
    (h : m.slice a n = bytes ++ 0 :: rest) (hbytes : 0 ∉ bytes) : m.cstring? a = some bytes := by
  have hlength : n = bytes.length + (rest.length + 1) := by
    simpa using congrArg List.length h
  have hslice : m.slice a bytes.length = bytes ∧
      m.slice (a + bytes.length) (rest.length + 1) = 0 :: rest := by
    rw [hlength, slice_add] at h
    exact List.append_inj h (length_slice ..)
  have hzero : m.get (a + bytes.length + 0) = (0 :: rest)[0] :=
    get_of_slice hslice.2 (Nat.succ_pos _)
  rw [cstring?, findZero_eq (k := bytes.length) ?_ hzero (by omega), Option.map_some, Nat.zero_add,
    hslice.1]
  intro i hi heq
  rw [Nat.add_zero, get_of_slice hslice.1 hi] at heq
  exact hbytes (heq ▸ List.getElem_mem hi)

theorem toUInt32_bytes (w : UInt32) : (w.toUInt8.toUInt32 ||| (w >>> 8).toUInt8.toUInt32 <<< 8 |||
    (w >>> 16).toUInt8.toUInt32 <<< 16 ||| (w >>> 24).toUInt8.toUInt32 <<< 24) = w := by
  apply UInt32.toNat_inj.mp
  apply Nat.eq_of_testBit_eq
  intro i
  have hhigh : 32 ≤ i → w.toNat.testBit i = false := fun h =>
    Nat.testBit_lt_two_pow (Nat.lt_of_lt_of_le w.toNat_lt (Nat.pow_le_pow_right (by decide) h))
  -- Each bit of the word is in one of the four bytes.
  simp only [UInt32.toNat_or, UInt32.toNat_shiftLeft, UInt8.toNat_toUInt32, UInt32.toNat_toUInt8,
    UInt32.toNat_shiftRight, UInt32.reduceToNat, Nat.reduceMod, Nat.testBit_or,
    Nat.testBit_shiftLeft, Nat.testBit_mod_two_pow, Nat.testBit_shiftRight]
  grind

theorem word?_of_slice {m : Memory} {a : Nat} {w : UInt32} (hfits : a + 4 ≤ m.size)
    (h : m.slice a 4 = wordBytes w) : m.word? a = some w := by
  simp only [slice, gather, wordBytes, List.cons.injEq] at h
  obtain ⟨h₀, h₁, h₂, h₃, -⟩ := h
  rw [Nat.add_zero] at h₀
  rw [word?, if_pos hfits, h₀, h₁, h₂, h₃, toUInt32_bytes]

theorem word?_of_row {m : Memory} {a : Nat} {row : List UInt32}
    (hfits : a + (row.flatMap wordBytes).length ≤ m.size)
    (h : m.slice a (row.flatMap wordBytes).length = row.flatMap wordBytes) {i : Nat} {w : UInt32}
    (hi : row[i]? = some w) : m.word? (a + 4 * i) = some w := by
  induction row generalizing a i with
  | nil => cases hi
  | cons w' rest ih =>
    have hlength : ((w' :: rest).flatMap wordBytes).length =
        4 + (rest.flatMap wordBytes).length := by
      rw [List.flatMap_cons, List.length_append]
      rfl
    rw [hlength] at hfits h
    rw [slice_add, List.flatMap_cons] at h
    obtain ⟨hword, hrest⟩ := List.append_inj h (length_slice ..)
    cases i with
    | zero =>
      obtain rfl := Option.some.inj hi
      exact word?_of_slice (by omega) hword
    | succ i =>
      rw [show a + 4 * (i + 1) = a + 4 + 4 * i by omega]
      exact ih (by omega) hrest hi

/-- Bytes have been put at an address: they lie there, within memory, and nothing else changed. -/
structure Puts (m : Memory) (a : Nat) (bytes : List UInt8) (m' : Memory) : Prop where
  fits : a + bytes.length ≤ m.size
  size_eq : m'.size = m.size
  slice_eq : m'.slice a bytes.length = bytes
  get_eq (b : Nat) : b < a ∨ a + bytes.length ≤ b → m'.get b = m.get b

theorem puts_writeAll {m : Memory} {a : Nat} {bytes : List UInt8}
    (h : a + bytes.length ≤ m.size) : m.Puts a bytes (m.writeAll a bytes) where
  fits := h
  size_eq := size_writeAll m a bytes
  slice_eq := by
    refine List.ext_getElem (length_slice ..) fun i _ hi => ?_
    simp only [slice_eq_map, List.getElem_map, List.getElem_range]
    exact get_writeAll_inside h hi
  get_eq _ hb := get_writeAll_outside hb

end Memory

end SandboxHost
