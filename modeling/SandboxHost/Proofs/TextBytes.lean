import SandboxHost.Text.Utf8

namespace SandboxHost.Utf8

theorem toNat_byte {n : Nat} (h : n < 256) : (UInt8.ofNat n).toNat = n := by
  simpa using h

section Scan

variable {a b c d : UInt8} (rest : List UInt8) (done : List (Option Char))

theorem lead?_two (ha : 0xc2 ≤ a.toNat) (ha' : a.toNat < 0xe0) :
    lead? a = some ⟨1, 0x80, 0xbf⟩ := by
  simp only [lead?, UInt8.lt_iff_toNat_lt, ← UInt8.toNat_inj]
  grind

theorem lead?_three (ha : 0xe0 ≤ a.toNat) (ha' : a.toNat < 0xf0) : lead? a =
    some ⟨2, if a.toNat = 0xe0 then 0xa0 else 0x80, if a.toNat = 0xed then 0x9f else 0xbf⟩ := by
  simp only [lead?, UInt8.lt_iff_toNat_lt, ← UInt8.toNat_inj]
  grind

theorem lead?_four (ha : 0xf0 ≤ a.toNat) (ha' : a.toNat ≤ 0xf4) : lead? a =
    some ⟨3, if a.toNat = 0xf0 then 0x90 else 0x80, if a.toNat = 0xf4 then 0x8f else 0xbf⟩ := by
  simp only [lead?, UInt8.lt_iff_toNat_lt, ← UInt8.toNat_inj]
  grind

theorem not_lt_of_le (ha : 0x80 ≤ a.toNat) : ¬ a < 0x80 := by
  simpa [UInt8.lt_iff_toNat_lt] using ha

theorem continues_of_le (ha : 0x80 ≤ a.toNat) (ha' : a.toNat ≤ 0xbf) : continues a = true := by
  simp [continues, UInt8.le_iff_toNat_le, ha, ha']

theorem scan_one (ha : a.toNat < 0x80) :
    scan (a :: rest) done = scan rest (some (.ofNat a.toNat) :: done) := by
  rw [scan, if_pos (by simpa [UInt8.lt_iff_toNat_lt] using ha)]

theorem scan_two (ha : 0xc2 ≤ a.toNat) (ha' : a.toNat < 0xe0) (hb : 0x80 ≤ b.toNat)
    (hb' : b.toNat ≤ 0xbf) :
    scan (a :: b :: rest) done = scan rest (some (char2 a b) :: done) := by
  rw [scan, if_neg (not_lt_of_le (by omega)), lead?_two ha ha']
  simp [UInt8.le_iff_toNat_le, hb, hb']

theorem scan_three (ha : 0xe0 ≤ a.toNat) (ha' : a.toNat < 0xf0) (hb : 0x80 ≤ b.toNat)
    (hb' : b.toNat ≤ 0xbf) (hlow : a.toNat = 0xe0 → 0xa0 ≤ b.toNat)
    (hhigh : a.toNat = 0xed → b.toNat ≤ 0x9f) (hc : 0x80 ≤ c.toNat) (hc' : c.toNat ≤ 0xbf) :
    scan (a :: b :: c :: rest) done = scan rest (some (char3 a b c) :: done) := by
  have hsecond : (if a.toNat = 0xe0 then (0xa0 : UInt8) else 0x80) ≤ b ∧
      b ≤ if a.toNat = 0xed then (0x9f : UInt8) else 0xbf := by
    simp only [UInt8.le_iff_toNat_le]
    constructor <;> split <;> simp_all
  rw [scan, if_neg (not_lt_of_le (by omega)), lead?_three ha ha']
  simp [hsecond, continues_of_le hc hc']

theorem scan_four (ha : 0xf0 ≤ a.toNat) (ha' : a.toNat ≤ 0xf4) (hb : 0x80 ≤ b.toNat)
    (hb' : b.toNat ≤ 0xbf) (hlow : a.toNat = 0xf0 → 0x90 ≤ b.toNat)
    (hhigh : a.toNat = 0xf4 → b.toNat ≤ 0x8f) (hc : 0x80 ≤ c.toNat) (hc' : c.toNat ≤ 0xbf)
    (hd : 0x80 ≤ d.toNat) (hd' : d.toNat ≤ 0xbf) :
    scan (a :: b :: c :: d :: rest) done = scan rest (some (char4 a b c d) :: done) := by
  have hsecond : (if a.toNat = 0xf0 then (0x90 : UInt8) else 0x80) ≤ b ∧
      b ≤ if a.toNat = 0xf4 then (0x8f : UInt8) else 0xbf := by
    simp only [UInt8.le_iff_toNat_le]
    constructor <;> split <;> simp_all
  rw [scan, if_neg (not_lt_of_le (by omega)), lead?_four ha ha']
  simp [hsecond, continues_of_le hc hc', continues_of_le hd hd']

end Scan

theorem scan_encodeChar (c : Char) (rest : List UInt8) (done : List (Option Char)) :
    scan (String.utf8EncodeChar c ++ rest) done = scan rest (some c :: done) := by
  have hvalid : c.toNat < 0xd800 ∨ 0xdfff < c.toNat ∧ c.toNat < 0x110000 := c.valid
  have hc : c.val.toNat = c.toNat := rfl
  have hread {n : Nat} (hn : n = c.toNat) : Char.ofNat n = c := by rw [hn, Char.ofNat_toNat]
  unfold String.utf8EncodeChar
  simp only [hc]
  generalize c.toNat = v at *
  split
  · rw [List.cons_append, List.nil_append, scan_one, hread]
    · exact toNat_byte (by omega)
    · rw [toNat_byte] <;> omega
  · split
    · rw [List.cons_append, List.cons_append, List.nil_append, scan_two, char2, payload, hread]
      all_goals simp only [UInt8.toNat_ofNat']
      all_goals omega
    · split
      · rw [List.cons_append, List.cons_append, List.cons_append, List.nil_append, scan_three,
          char3, payload, payload, hread]
        all_goals simp only [UInt8.toNat_ofNat']
        all_goals omega
      · rw [List.cons_append, List.cons_append, List.cons_append, List.cons_append,
          List.nil_append, scan_four, char4, payload, payload, payload, hread]
        all_goals simp only [UInt8.toNat_ofNat']
        all_goals omega


theorem encodeChars_cons (c : Char) (cs : List Char) :
    encodeChars (c :: cs) = String.utf8EncodeChar c ++ encodeChars cs := List.flatMap_cons

theorem length_encode (text : String) : (encode text).length = text.utf8ByteSize := by
  rw [← String.size_toByteArray, ← String.utf8Encode_toList, List.utf8Encode]
  simp [encode, encodeChars]

theorem scan_encodeChars (cs : List Char) (done : List (Option Char)) :
    scan (encodeChars cs) done = done.reverse ++ cs.map some := by
  induction cs generalizing done with
  | nil => simp [encodeChars, scan]
  | cons c rest ih => rw [encodeChars_cons, scan_encodeChar, ih, List.reverse_cons]; simp

/-- What has been written is read back as it was, without a replacement character. -/
theorem decodeLossy_encodeChars (cs : List Char) : decodeLossy (encodeChars cs) = .ofList cs := by
  rw [decodeLossy, decodeParts, scan_encodeChars]
  simp [Function.comp_def]

theorem zero_notMem_encodeChar {c : Char} (hc : c ≠ '\x00') : 0 ∉ String.utf8EncodeChar c := by
  have hpos : c.val.toNat ≠ 0 := fun h => hc (Char.ext (UInt32.toNat_inj.mp h))
  have hvalid : c.val.toNat < 0xd800 ∨ 0xdfff < c.val.toNat ∧ c.val.toNat < 0x110000 := c.valid
  unfold String.utf8EncodeChar
  generalize c.val.toNat = v at *
  simp only
  repeat' split
  all_goals
    simp only [List.mem_cons, List.not_mem_nil, or_false, ← UInt8.toNat_inj, UInt8.toNat_ofNat',
      UInt8.toNat_ofNat]
    omega

theorem zero_notMem_encodeChars {cs : List Char} (h : '\x00' ∉ cs) : 0 ∉ encodeChars cs := by
  intro hzero
  obtain ⟨c, hc, hzero⟩ := List.mem_flatMap.mp hzero
  exact zero_notMem_encodeChar (fun heq => h (heq ▸ hc)) hzero

/-- With a zero byte put after it, a text's bytes go on to the first null character and then have a
zero byte. -/
theorem exists_encodeChars_zero (cs : List Char) : ∃ rest,
    encodeChars cs ++ [0] = encodeChars (cs.takeWhile (· ≠ '\x00')) ++ 0 :: rest := by
  induction cs with
  | nil => exact ⟨[], rfl⟩
  | cons c cs ih =>
    by_cases hc : c = '\x00'
    · subst hc
      exact ⟨encodeChars cs ++ [0], rfl⟩
    · obtain ⟨rest, hrest⟩ := ih
      refine ⟨rest, ?_⟩
      rw [List.takeWhile_cons_of_pos (by simpa using hc), encodeChars_cons, encodeChars_cons,
        List.append_assoc, hrest, List.append_assoc]

theorem fitting_eq (room : Nat) (cs : List Char) (count : Nat) :
    fitting room cs count = count + fitting room cs 0 := by
  induction cs generalizing room count with
  | nil => rfl
  | cons c rest ih =>
    simp only [fitting]
    split
    · rw [ih _ (count + 1), ih _ (0 + 1)]
      omega
    · rfl

theorem length_take_fitting (room : Nat) (cs : List Char) :
    (encodeChars (cs.take (fitting room cs 0))).length ≤ room := by
  induction cs generalizing room with
  | nil => exact Nat.zero_le _
  | cons c rest ih =>
    rw [fitting]
    split
    · next hfits =>
      have hrest := ih (room - c.utf8Size)
      rw [fitting_eq, Nat.zero_add, Nat.add_comm, List.take_succ_cons, encodeChars_cons,
        List.length_append, String.length_utf8EncodeChar]
      omega
    · exact Nat.zero_le _

theorem prefix_take_fitting {room : Nat} {cs start : List Char} (hstart : start <+: cs)
    (hfits : (encodeChars start).length ≤ room) : start <+: cs.take (fitting room cs 0) := by
  induction start generalizing room cs with
  | nil => exact List.nil_prefix
  | cons c start ih =>
    obtain ⟨rest, rfl⟩ := hstart
    rw [encodeChars_cons, List.length_append, String.length_utf8EncodeChar] at hfits
    rw [List.cons_append, fitting, if_pos (by omega), fitting_eq, Nat.zero_add, Nat.add_comm,
      List.take_succ_cons]
    exact List.cons_prefix_cons.mpr ⟨rfl, ih ⟨rest, rfl⟩ (by omega)⟩

/-- The longest start of a text that consists of whole characters and takes no more bytes. -/
structure IsLongestFit (room : Nat) (text t : String) : Prop where
  start : t.toList <+: text.toList
  fits : (encode t).length ≤ room
  longest (t' : String) : t'.toList <+: text.toList → (encode t').length ≤ room →
    t'.toList <+: t.toList

theorem truncate_isLongestFit (room : Nat) (text : String) :
    IsLongestFit room text (truncate room text) := by
  unfold truncate
  split
  · next hfits => exact ⟨List.prefix_rfl, length_encode text ▸ hfits, fun _ h _ => h⟩
  · constructor
    · rw [String.toList_ofList]
      exact List.take_prefix _ _
    · rw [encode, String.toList_ofList]
      exact length_take_fitting room text.toList
    · intro t' hstart hfits
      rw [String.toList_ofList]
      exact prefix_take_fitting hstart hfits

end SandboxHost.Utf8
