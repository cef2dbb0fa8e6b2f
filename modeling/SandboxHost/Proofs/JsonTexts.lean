import SandboxHost.Json.Decoder
import SandboxHost.Json.Parser

namespace SandboxHost.Json

section Forms

def IsBlank (cs : List Char) : Prop := ∀ c ∈ cs, isSpace c

def Spaced (P : List Char → Prop) (cs : List Char) : Prop :=
  ∃ before written after, IsBlank before ∧ P written ∧ IsBlank after ∧
    cs = before ++ (written ++ after)

def IsHexDigit (c : Char) (n : Nat) : Prop :=
  n < 16 ∧ (c = n.digitChar ∨ c = n.digitChar.toUpper)

inductive WritesHex4 (n : Nat) : List Char → Prop where
  | digits {a b c d : Char} {i j k l : Nat} : IsHexDigit a i → IsHexDigit b j → IsHexDigit c k →
    IsHexDigit d l → n = ((i * 16 + j) * 16 + k) * 16 + l → WritesHex4 n [a, b, c, d]

def letterEscapes : List (Char × Char) :=
  [('"', '"'), ('\\', '\\'), ('/', '/'), ('\x08', 'b'), ('\x0c', 'f'), ('\n', 'n'), ('\r', 'r'),
    ('\t', 't')]

/-- The ways to write a character inside a text. -/
inductive WritesChar (c : Char) : List Char → Prop where
  | plain : ' ' ≤ c → c ≠ '"' → c ≠ '\\' → WritesChar c [c]
  | letter {e : Char} : (c, e) ∈ letterEscapes → WritesChar c ['\\', e]
  | number {digits : List Char} : WritesHex4 c.toNat digits → WritesChar c ('\\' :: 'u' :: digits)
  /-- Beyond four digits, two numbers without a character of their own make up that of the character. -/
  | pair {high low : Nat} {digits digits' : List Char} : isHigh high → isLow low →
    WritesHex4 high digits → WritesHex4 low digits' →
    c.toNat = 0x10000 + (high - 0xd800) * 0x400 + (low - 0xdc00) →
    WritesChar c ('\\' :: 'u' :: digits ++ '\\' :: 'u' :: digits')

inductive WritesChars : List Char → List Char → Prop where
  | nil : WritesChars [] []
  | cons {c : Char} {cs written rest : List Char} : WritesChar c written → WritesChars cs rest →
    WritesChars (c :: cs) (written ++ rest)

inductive WritesText (text : String) : List Char → Prop where
  | quoted {written : List Char} : WritesChars text.toList written →
    WritesText text ('"' :: (written ++ ['"']))

/-- An integer in decimal. A zero with a minus sign is none: JSON takes it for a floating-point
number. -/
inductive WritesInteger (n : Int) : List Char → Prop where
  | decimal : WritesInteger n (toString n).toList

inductive WritesItems {α : Type} (W : α → List Char → Prop) : List α → List Char → Prop where
  | last {a : α} {written : List Char} : Spaced (W a) written → WritesItems W [a] written
  | more {a : α} {as : List α} {written rest : List Char} : Spaced (W a) written →
    WritesItems W as rest → WritesItems W (a :: as) (written ++ ',' :: rest)

inductive WritesList {α : Type} (W : α → List Char → Prop) : List α → List Char → Prop where
  | empty {blank : List Char} : IsBlank blank → WritesList W [] ('[' :: (blank ++ [']']))
  | items {as : List α} {written : List Char} : WritesItems W as written →
    WritesList W as ('[' :: (written ++ [']']))

inductive WritesMember (name : String) (P : List Char → Prop) : List Char → Prop where
  | member {key before after value : List Char} : WritesText name key → IsBlank before →
    IsBlank after → P value → WritesMember name P (key ++ (before ++ ':' :: (after ++ value)))

inductive WritesObject {α : Type} (name : α → String) (W : α → List Char → Prop) :
    List α → List Char → Prop where
  | members {as : List α} {written : List Char} :
    WritesItems (fun a => WritesMember (name a) (W a)) as written →
    WritesObject name W as ('\x7b' :: (written ++ ['\x7d']))

theorem Spaced.bare {P : List Char → Prop} {written : List Char} (h : P written) :
    Spaced P written :=
  ⟨[], written, [], List.forall_mem_nil _, h, List.forall_mem_nil _, (List.append_nil _).symm⟩

/-- Characters that need no escape. -/
def isPlain (c : Char) : Bool := ' ' ≤ c && c != '"' && c != '\\'

theorem WritesText.plain {text : String} (h : text.toList.all isPlain = true) :
    WritesText text ('"' :: (text.toList ++ ['"'])) := by
  have hchars (cs : List Char) (h : cs.all isPlain = true) : WritesChars cs cs := by
    induction cs with
    | nil => exact .nil
    | cons c cs ih =>
      obtain ⟨hplain, hrest⟩ := Bool.and_eq_true_iff.mp (List.all_cons.symm.trans h)
      simp only [isPlain, Bool.and_eq_true, decide_eq_true_eq, bne_iff_ne] at hplain
      obtain ⟨⟨hprintable, hquote⟩, hescape⟩ := hplain
      exact .cons (.plain hprintable hquote hescape) (ih hrest)
  exact .quoted (hchars _ h)

end Forms

section Blanks

variable {blank rest : List Char}

theorem skipSpace_blank (h : IsBlank blank) (rest : List Char) :
    skipSpace (blank ++ rest) = skipSpace rest := List.dropWhile_append_of_pos h

theorem skipSpace_cons {c : Char} (h : isSpace c = false) : skipSpace (c :: rest) = c :: rest := by
  rw [skipSpace, List.dropWhile_cons_of_neg (by simp [h])]

theorem skipSpace_of_isBlank (h : IsBlank blank) : skipSpace blank = [] := by
  simpa [skipSpace] using skipSpace_blank h []

end Blanks

section Numbers

def numberEnds : List Char := [' ', '\n', '\t', '\r', ',', ']', '\x7d']

def EndsNumber (rest : List Char) : Prop := ∀ c ∈ rest.head?, c ∈ numberEnds

theorem endsNumber_cons {c : Char} {rest : List Char} (h : c ∈ numberEnds) :
    EndsNumber (c :: rest) := by
  rintro _ ⟨⟩
  exact h

theorem endsNumber_blank {blank rest : List Char} (h : IsBlank blank) (hrest : EndsNumber rest) :
    EndsNumber (blank ++ rest) := by
  cases blank with
  | nil => exact hrest
  | cons c blank =>
    have hc := h c List.mem_cons_self
    simp only [isSpace, Bool.or_eq_true, beq_iff_eq] at hc
    refine endsNumber_cons ?_
    rcases hc with ((rfl | rfl) | rfl) | rfl <;> decide

theorem digit?_digitChar : ∀ n < 10, Numeral.digit? n.digitChar = some n := by decide

theorem readDigits_toDigits {n : Nat} (h : n ≤ 0xffffffffffffffff) (rest : List Char) :
    ∃ kept, readDigits (Nat.toDigits 10 n ++ rest) 0 0 0 = readDigits rest n kept 0 := by
  -- Without its last digit, the number is read first; then there is one digit more to read.
  induction n using Nat.strongRecOn generalizing rest with
  | ind n ih =>
    by_cases hn : n < 10
    · rw [Nat.toDigits_of_lt_base hn, List.singleton_append, readDigits, digit?_digitChar n hn]
      refine ⟨1, ?_⟩
      simp [h]
    · have hdigit : n % 10 < 10 := Nat.mod_lt _ (by omega)
      have hwhole : n / 10 * 10 + n % 10 = n := by omega
      rw [Nat.toDigits_of_base_le (by omega) (by omega), List.append_assoc, List.singleton_append]
      obtain ⟨kept, hkept⟩ := ih (n / 10) (by omega) (by omega) ((n % 10).digitChar :: rest)
      rw [hkept, readDigits, digit?_digitChar _ hdigit]
      refine ⟨kept + 1, ?_⟩
      simp [hwhole, h]

theorem toDigits_eq_cons (n : Nat) : ∃ c digits, Nat.toDigits 10 n = c :: digits ∧
    (Numeral.digit? c).isSome ∧ (c = '0' → n = 0) := by
  induction n using Nat.strongRecOn with
  | ind n ih =>
    by_cases hn : n < 10
    · have hall : ∀ n < 10, (Numeral.digit? n.digitChar).isSome ∧ (n.digitChar = '0' → n = 0) := by
        decide
      exact ⟨n.digitChar, [], Nat.toDigits_of_lt_base hn, hall n hn⟩
    · obtain ⟨c, digits, hdigits, hc, hzero⟩ := ih (n / 10) (by omega)
      refine ⟨c, digits ++ [(n % 10).digitChar], ?_, hc, fun h => ?_⟩
      · rw [Nat.toDigits_of_base_le (by omega) (by omega), hdigits, List.cons_append]
      · have := hzero h
        omega

theorem digit?_of_endsNumber {rest : List Char} (h : EndsNumber rest) :
    rest.head?.bind Numeral.digit? = none := by
  have hall : ∀ c ∈ numberEnds, Numeral.digit? c = none := by
    simp only [numberEnds, List.forall_mem_cons]
    exact ⟨rfl, rfl, rfl, rfl, rfl, rfl, rfl, List.forall_mem_nil _⟩
  cases rest with
  | nil => rfl
  | cons c rest => exact hall c (h c rfl)

theorem readDigits_of_endsNumber {rest : List Char} (h : EndsNumber rest) (n kept : Nat) :
    readDigits rest n kept 0 = ⟨n, kept, 0, rest⟩ := by
  cases rest with
  | nil => rfl
  | cons c rest =>
    have hnone : Numeral.digit? c = none := digit?_of_endsNumber h
    rw [readDigits, hnone]

theorem readMagnitude_toDigits {n : Nat} (hn : n ≤ 0xffffffff) {rest : List Char}
    (h : EndsNumber rest) (negative : Bool) (hpositive : negative → 0 < n) :
    readMagnitude negative (Nat.toDigits 10 n ++ rest) =
      some (.int (if negative then -n else n), rest) := by
  obtain ⟨c, digits, hdigits, hc, hzero⟩ := toDigits_eq_cons n
  obtain ⟨kept, hkept⟩ := readDigits_toDigits (by omega : n ≤ 0xffffffffffffffff) rest
  rw [readDigits_of_endsNumber h, hdigits, List.cons_append] at hkept
  have hrun : ∃ kept, (if c = '0' then ⟨0, 1, 0, digits ++ rest⟩
      else readDigits (c :: (digits ++ rest)) 0 0 0 : DigitRun) = ⟨n, kept, 0, rest⟩ := by
    split
    · next hc =>
      obtain rfl := hzero hc
      subst hc
      rw [show digits = [] by simpa [Nat.toDigits_of_lt_base] using hdigits.symm]
      exact ⟨1, rfl⟩
    · exact ⟨kept, hkept⟩
  obtain ⟨kept, hrun⟩ := hrun
  have hstop := digit?_of_endsNumber h
  have hother {c : Char} (hc : c ∉ numberEnds) : rest.head? ≠ some c := fun heq => hc (h c heq)
  have hsome : (Numeral.digit? c).isNone = false := by simpa using hc
  rw [hdigits, List.cons_append, readMagnitude]
  simp only [hsome, hrun]
  rw [if_neg Bool.false_ne_true]
  split
  · exact (hother (c := '.') (by decide) rfl).elim
  · have hscaled : ¬ (rest.head? = some 'e' ∨ rest.head? = some 'E') :=
      not_or.mpr ⟨hother (by decide), hother (by decide)⟩
    rw [hstop, if_neg (by simp), if_neg (by simp [hscaled])]
    cases negative with
    | false => rfl
    | true =>
      rw [if_neg (by simp), if_pos ⟨hpositive rfl, by omega⟩]
      rfl

theorem toList_toString (n : Int) : (toString n).toList =
    if n < 0 then '-' :: Nat.toDigits 10 n.natAbs else Nat.toDigits 10 n.natAbs := by
  cases n with
  | ofNat n =>
    have hnonneg : ¬ Int.ofNat n < 0 := Int.not_lt.mpr (Int.natCast_nonneg n)
    rw [if_neg hnonneg]
    exact Nat.toList_repr
  | negSucc n =>
    rw [if_pos (Int.negSucc_lt_zero n)]
    change ("-" ++ (n + 1).repr).toList = _
    rw [String.toList_append, Nat.toList_repr]
    rfl

/-- An integer of at most 32 bits is read as it was written. -/
theorem readNumber_integer {n : Int} (hn : n.natAbs ≤ 0xffffffff) {written rest : List Char}
    (hwrites : WritesInteger n written) (h : EndsNumber rest) :
    readNumber (written ++ rest) = some (.int n, rest) := by
  obtain ⟨⟩ := hwrites
  rw [toList_toString]
  split
  · next hneg =>
    have hread := readMagnitude_toDigits hn h true fun _ => by omega
    rw [List.cons_append, readNumber, hread, if_pos rfl]
    congr
    omega
  · next hneg =>
    obtain ⟨c, digits, hdigits, hc, -⟩ := toDigits_eq_cons n.natAbs
    have hread := readMagnitude_toDigits hn h false nofun
    have hminus : c ≠ '-' := by
      rintro rfl
      cases hc
    rw [hdigits, List.cons_append] at hread ⊢
    rw [readNumber.eq_def]
    split
    · next heq =>
      obtain ⟨rfl, -⟩ := List.cons.inj heq
      exact (hminus rfl).elim
    · rw [hread, if_neg Bool.false_ne_true]
      congr
      omega

end Numbers

section Texts

theorem hexValue?_of_isHexDigit {c : Char} {n : Nat} (h : IsHexDigit c n) :
    hexValue? c = some n := by
  have hall : ∀ n < 16,
      hexValue? n.digitChar = some n ∧ hexValue? n.digitChar.toUpper = some n := by
    decide
  obtain ⟨hn, rfl | rfl⟩ := h
  · exact (hall n hn).1
  · exact (hall n hn).2

theorem exists_hex4? {n : Nat} {digits : List Char} (h : WritesHex4 n digits) :
    ∃ a b c d, digits = [a, b, c, d] ∧ hex4? a b c d = some n := by
  obtain ⟨ha, hb, hc, hd, rfl⟩ := h
  refine ⟨_, _, _, _, rfl, ?_⟩
  rw [hex4?, hexValue?_of_isHexDigit ha, hexValue?_of_isHexDigit hb, hexValue?_of_isHexDigit hc,
    hexValue?_of_isHexDigit hd]
  rfl

theorem not_isHigh_toNat (c : Char) : isHigh c.toNat = false ∧ isLow c.toNat = false := by
  have hvalid : c.toNat < 0xd800 ∨ 0xdfff < c.toNat ∧ c.toNat < 0x110000 := c.valid
  simp only [isHigh, isLow, Bool.and_eq_false_iff, decide_eq_false_iff_not]
  omega

theorem readString_char {c : Char} {written : List Char} (h : WritesChar c written)
    (rest done : List Char) : readString (written ++ rest) done = readString rest (c :: done) := by
  cases h with
  | plain hc hquote hescape =>
    have hcontrol : ¬ c.toNat < 0x20 := Nat.not_lt.mpr hc
    rw [List.singleton_append, readString.eq_def]
    simp [hescape, hcontrol]
  | letter he =>
    simp only [letterEscapes, List.mem_cons, Prod.mk.injEq, List.not_mem_nil, or_false] at he
    rcases he with ⟨rfl, rfl⟩ | ⟨rfl, rfl⟩ | ⟨rfl, rfl⟩ | ⟨rfl, rfl⟩ | ⟨rfl, rfl⟩ | ⟨rfl, rfl⟩ |
      ⟨rfl, rfl⟩ | ⟨rfl, rfl⟩ <;> rfl
  | number hdigits =>
    obtain ⟨i, j, k, l, rfl, hnumber⟩ := exists_hex4? hdigits
    obtain ⟨hhigh, hlow⟩ := not_isHigh_toNat c
    simp only [List.cons_append, List.nil_append]
    rw [readString, hnumber]
    simp [hhigh, hlow]
  | pair hhigh hlow hdigits hdigits' hc =>
    rename_i high low _ _
    obtain ⟨i, j, k, l, rfl, hfirst⟩ := exists_hex4? hdigits
    obtain ⟨i', j', k', l', rfl, hsecond⟩ := exists_hex4? hdigits'
    have hnotLow : isLow high = false := by
      simp only [isHigh, isLow, Bool.and_eq_true, Bool.and_eq_false_iff, decide_eq_true_eq,
        decide_eq_false_iff_not] at hhigh ⊢
      omega
    simp only [List.cons_append, List.nil_append]
    rw [readString, hfirst]
    simp [hhigh, hnotLow, hsecond, hlow, ← hc]

theorem readString_chars {cs written : List Char} (h : WritesChars cs written)
    (rest done : List Char) :
    readString (written ++ '"' :: rest) done = some (.ofList (done.reverse ++ cs), rest) := by
  induction h generalizing done with
  | nil =>
    rw [List.nil_append, readString, List.append_nil]
  | cons hc _ ih =>
    rw [List.append_assoc, readString_char hc, ih, List.reverse_cons, List.append_assoc]
    rfl

/-- What stands in quotes is read up to the closing one. -/
theorem readString_text {text : String} {written : List Char} (h : WritesText text written) :
    ∃ inner, written = '"' :: inner ∧
      ∀ rest, readString (inner ++ rest) [] = some (text, rest) := by
  obtain ⟨hchars⟩ := h
  refine ⟨_, rfl, fun rest => ?_⟩
  rw [List.append_assoc, List.singleton_append, readString_chars hchars, List.reverse_nil,
    List.nil_append, String.ofList_toList]

end Texts

section Values

variable {length depth : Nat}

theorem readValue_blank {blank : List Char} (h : IsBlank blank) (shape : Shape) (cs : List Char) :
    readValue length depth shape (blank ++ cs) = readValue length depth shape cs := by
  simp only [readValue.eq_def length depth shape, skipSpace_blank h]

/-- The reader reads the value wherever it is written, if what follows would end a number. -/
def ReadsAs (read : List Char → Option (Json × List Char)) (P : List Char → Prop) (j : Json) : Prop :=
  ∀ written rest, P written → EndsNumber rest → read (written ++ rest) = some (j, rest)

theorem reads_text (text : String) (shape : Shape) :
    ReadsAs (readValue length depth shape) (WritesText text) (.str text) := by
  intro written rest hwrites _
  obtain ⟨inner, rfl, hread⟩ := readString_text hwrites
  rw [List.cons_append, readValue.eq_def]
  simp only [skipSpace_cons (c := '"') rfl, hread]
  rfl

theorem readValue_number {c : Char} (hc : c = '-' ∨ (Numeral.digit? c).isSome) (shape : Shape)
    (cs : List Char) : readValue length depth shape (c :: cs) = readNumber (c :: cs) := by
  have hother {c' : Char} (h : c' ≠ '-' ∧ Numeral.digit? c' = none) : c ≠ c' := by
    rintro rfl
    rcases hc with rfl | hc
    · exact h.1 rfl
    · rw [h.2] at hc
      cases hc
  have hspace : isSpace c = false := by
    simp only [isSpace, Bool.or_eq_false_iff, beq_eq_false_iff_ne]
    exact ⟨⟨⟨hother (by decide), hother (by decide)⟩, hother (by decide)⟩, hother (by decide)⟩
  rw [readValue.eq_def]
  simp only [skipSpace_cons hspace]
  split
  case h_7 => rfl
  all_goals
    next heq => exact absurd (List.cons.inj heq).1 (hother (by decide))

theorem reads_integer {n : Int} (hn : n.natAbs ≤ 0xffffffff) (shape : Shape) :
    ReadsAs (readValue length depth shape) (WritesInteger n) (.int n) := by
  intro written rest hwrites hrest
  have hread := readNumber_integer hn hwrites hrest
  have hfirst : ∃ c cs, written = c :: cs ∧ (c = '-' ∨ (Numeral.digit? c).isSome) := by
    obtain ⟨⟩ := hwrites
    rw [toList_toString]
    split
    · exact ⟨_, _, rfl, .inl rfl⟩
    · obtain ⟨c, digits, hdigits, hc, -⟩ := toDigits_eq_cons n.natAbs
      exact ⟨c, digits, hdigits, .inr hc⟩
  obtain ⟨c, cs, rfl, hc⟩ := hfirst
  rw [List.cons_append] at hread ⊢
  rw [readValue_number hc, hread]

theorem reads_spaced {P : List Char → Prop} {j : Json} {shape : Shape}
    (h : ReadsAs (readValue length depth shape) P j) {written rest : List Char}
    (hwritten : Spaced P written) (hrest : EndsNumber rest) :
    ∃ after, IsBlank after ∧
      readValue length depth shape (written ++ rest) = some (j, after ++ rest) := by
  obtain ⟨before, inner, after, hbefore, hinner, hafter, rfl⟩ := hwritten
  refine ⟨after, hafter, ?_⟩
  rw [List.append_assoc, readValue_blank hbefore, List.append_assoc]
  exact h inner (after ++ rest) hinner (endsNumber_blank hafter hrest)

theorem readValue_of_bracket {cs rest : List Char} (h : skipSpace cs = ']' :: rest) (shape : Shape) :
    readValue length depth shape cs = none := by
  rw [readValue.eq_def]
  simp only [h]
  rfl

section Lists

variable {α : Type} {W : α → List Char → Prop} {value : α → Json} {as : List α}

theorem readItems_items (hitem : ∀ a, ReadsAs (readValue length depth .any) (W a) (value a))
    {written : List Char} (h : WritesItems W as written) {fuel : Nat} (hfuel : as.length ≤ fuel)
    (rest : List Char) (done : List Json) :
    readItems (readValue length depth) fuel [] (written ++ ']' :: rest) done =
      some (done.reverse ++ as.map value, rest) := by
  induction h generalizing fuel done with
  | last hspaced =>
    cases fuel with
    | zero => cases hfuel
    | succ fuel =>
      have hend : EndsNumber (']' :: rest) := endsNumber_cons (by decide)
      obtain ⟨after, hafter, hread⟩ := reads_spaced (hitem _) hspaced hend
      rw [readItems, List.headD_nil, hread]
      simp [skipSpace_blank hafter, skipSpace_cons (c := ']') rfl]
  | more hspaced _ ih =>
    cases fuel with
    | zero => cases hfuel
    | succ fuel =>
      rename_i a as written rest' _
      have hend : EndsNumber (',' :: (rest' ++ ']' :: rest)) := endsNumber_cons (by decide)
      obtain ⟨after, hafter, hread⟩ := reads_spaced (hitem _) hspaced hend
      rw [List.append_assoc, List.cons_append, readItems, List.headD_nil, hread]
      simp only [skipSpace_blank hafter, skipSpace_cons (c := ',') rfl, List.tail_nil]
      rw [ih (Nat.le_of_succ_le_succ hfuel)]
      simp

/-- A list is read if its items are and their number is within bounds. -/
theorem reads_list (hitem : ∀ a, ReadsAs (readValue length depth .any) (W a) (value a))
    (hlength : as.length ≤ length) :
    ReadsAs (readValue length (depth + 1) .any) (WritesList W as) (.arr (as.map value)) := by
  intro written rest hwrites _
  rw [readValue.eq_def]
  cases hwrites with
  | empty hblank =>
    simp only [List.cons_append, List.append_assoc, List.nil_append,
      skipSpace_cons (c := '[') rfl, skipSpace_blank hblank, skipSpace_cons (c := ']') rfl]
    rfl
  | items hitems =>
    rename_i written
    have hread := readItems_items hitem hitems hlength rest []
    simp only [List.cons_append, List.append_assoc, List.nil_append,
      skipSpace_cons (c := '[') rfl]
    split
    · next rest' hbracket =>
      cases length with
      | zero => cases hread
      | succ length =>
        rw [readItems.eq_def] at hread
        simp [readValue_of_bracket hbracket] at hread
    · rw [Shape.items, hread]
      rfl

end Lists

section Objects

variable {α : Type} {name : α → String} {W : α → List Char → Prop} {value : α → Json} {as : List α}
  {shape : Shape}

theorem readMembers_member {a : α} (hvalue : ReadsAs (readValue length depth .any) (W a) (value a))
    (hshape : shape.member? (name a) = some .any) {written rest : List Char}
    (h : Spaced (WritesMember (name a) (W a)) written) (hrest : EndsNumber rest) (fuel : Nat)
    (done : List (String × Json)) :
    readMembers (readValue length depth) length shape (fuel + 1) (written ++ rest) done =
      match skipSpace rest with
      | ',' :: rest => readMembers (readValue length depth) length shape fuel rest
          ((name a, value a) :: done)
      | '\x7d' :: rest => some (((name a, value a) :: done).reverse, rest)
      | _ => none := by
  obtain ⟨before, _, after, hbefore, ⟨hkey, hbeforeColon, hafterColon, hwritten⟩, hafter, rfl⟩ := h
  obtain ⟨inner, rfl, hname⟩ := readString_text hkey
  have hread := hvalue _ (after ++ rest) hwritten (endsNumber_blank hafter hrest)
  rw [readMembers]
  simp only [List.append_assoc, List.cons_append, skipSpace_blank hbefore,
    skipSpace_cons (c := '"') rfl, hname, skipSpace_blank hbeforeColon,
    skipSpace_cons (c := ':') rfl, readMember, hshape, readValue_blank hafterColon, hread,
    Option.map_some, skipSpace_blank hafter]
  rfl

theorem readMembers_items (hvalue : ∀ a, ReadsAs (readValue length depth .any) (W a) (value a))
    (hshape : ∀ a, shape.member? (name a) = some .any) {written : List Char}
    (h : WritesItems (fun a => WritesMember (name a) (W a)) as written) {fuel : Nat}
    (hfuel : as.length ≤ fuel) (rest : List Char) (done : List (String × Json)) :
    readMembers (readValue length depth) length shape fuel (written ++ '\x7d' :: rest) done =
      some (done.reverse ++ as.map (fun a => (name a, value a)), rest) := by
  induction h generalizing fuel done with
  | last hspaced =>
    cases fuel with
    | zero => cases hfuel
    | succ fuel =>
      rw [readMembers_member (hvalue _) (hshape _) hspaced (endsNumber_cons (by decide)),
        skipSpace_cons rfl]
      simp
  | more hspaced _ ih =>
    cases fuel with
    | zero => cases hfuel
    | succ fuel =>
      rw [List.append_assoc, List.cons_append,
        readMembers_member (hvalue _) (hshape _) hspaced (endsNumber_cons (by decide)),
        skipSpace_cons rfl]
      refine (ih (Nat.le_of_succ_le_succ hfuel) _).trans ?_
      simp

/-- An object is read if its values are, all of its members are wanted, and their number is within
bounds. -/
theorem reads_object (hvalue : ∀ a, ReadsAs (readValue length depth .any) (W a) (value a))
    (hshape : ∀ a, shape.member? (name a) = some .any) (hlength : as.length ≤ length) :
    ReadsAs (readValue length (depth + 1) shape) (WritesObject name W as)
      (.obj (as.map fun a => (name a, value a))) := by
  intro written rest hwrites _
  obtain ⟨hitems⟩ := hwrites
  rename_i written
  have hread := readMembers_items hvalue hshape hitems hlength rest []
  rw [readValue.eq_def]
  simp only [List.cons_append, List.append_assoc, List.nil_append,
    skipSpace_cons (c := '\x7b') rfl]
  split
  · next rest' hbrace =>
    -- No member begins with a closing brace.
    cases length with
    | zero => cases hread
    | succ length =>
      rw [readMembers.eq_def] at hread
      simp [hbrace] at hread
  · rw [hread]
    rfl

end Objects

end Values

section Nulls

variable {written : List Char}

theorem IsBlank.null_notMem (h : IsBlank written) : '\x00' ∉ written :=
  fun hmem => absurd (h _ hmem) (by decide)

theorem WritesHex4.null_notMem {n : Nat} (h : WritesHex4 n written) : '\x00' ∉ written := by
  have hall : ∀ n < 16, '\x00' ≠ n.digitChar ∧ '\x00' ≠ n.digitChar.toUpper := by decide
  have hdigit {c : Char} {n : Nat} (hc : IsHexDigit c n) : '\x00' ≠ c := by
    obtain ⟨hn, rfl | rfl⟩ := hc
    · exact (hall n hn).1
    · exact (hall n hn).2
  obtain ⟨ha, hb, hc, hd, -⟩ := h
  simp [hdigit ha, hdigit hb, hdigit hc, hdigit hd]

theorem WritesChar.null_notMem {c : Char} (h : WritesChar c written) : '\x00' ∉ written := by
  cases h with
  | plain hc =>
    rw [List.mem_singleton]
    rintro rfl
    exact absurd hc (by decide)
  | letter he =>
    have hall : ∀ x ∈ letterEscapes, '\x00' ≠ x.2 := by decide
    simp [hall _ he]
  | number hdigits => simp [hdigits.null_notMem]
  | pair _ _ hdigits hdigits' => simp [hdigits.null_notMem, hdigits'.null_notMem]

theorem WritesText.null_notMem {text : String} (h : WritesText text written) :
    '\x00' ∉ written := by
  obtain ⟨hchars⟩ := h
  have hnone : ∀ {cs written}, WritesChars cs written → '\x00' ∉ written := by
    intro cs written hchars
    induction hchars with
    | nil => exact List.not_mem_nil
    | cons hc _ ih => simp [hc.null_notMem, ih]
  simp [hnone hchars]

theorem WritesInteger.null_notMem {n : Int} (h : WritesInteger n written) : '\x00' ∉ written := by
  have hdigits (k : Nat) : '\x00' ∉ Nat.toDigits 10 k := fun hmem =>
    absurd (Nat.isDigit_of_mem_toDigits (by decide) (by decide) hmem) (by decide)
  obtain ⟨⟩ := h
  rw [toList_toString]
  split
  · simp [hdigits]
  · exact hdigits _

theorem Spaced.null_notMem {P : List Char → Prop} (hP : ∀ written, P written → '\x00' ∉ written)
    (h : Spaced P written) : '\x00' ∉ written := by
  obtain ⟨before, inner, after, hbefore, hinner, hafter, rfl⟩ := h
  simp [hbefore.null_notMem, hP _ hinner, hafter.null_notMem]

theorem WritesItems.null_notMem {α : Type} {W : α → List Char → Prop} {as : List α}
    (hW : ∀ a written, W a written → '\x00' ∉ written) (h : WritesItems W as written) :
    '\x00' ∉ written := by
  induction h with
  | last hspaced => exact hspaced.null_notMem (hW _)
  | more hspaced _ ih => simp [hspaced.null_notMem (hW _), ih]

theorem WritesList.null_notMem {α : Type} {W : α → List Char → Prop} {as : List α}
    (hW : ∀ a written, W a written → '\x00' ∉ written) (h : WritesList W as written) :
    '\x00' ∉ written := by
  cases h with
  | empty hblank => simp [hblank.null_notMem]
  | items hitems => simp [hitems.null_notMem hW]

theorem WritesObject.null_notMem {α : Type} {name : α → String} {W : α → List Char → Prop}
    {as : List α} (hW : ∀ a written, W a written → '\x00' ∉ written)
    (h : WritesObject name W as written) : '\x00' ∉ written := by
  obtain ⟨hitems⟩ := h
  have hmember (a : α) (written : List Char) (h : WritesMember (name a) (W a) written) :
      '\x00' ∉ written := by
    obtain ⟨hkey, hbefore, hafter, hvalue⟩ := h
    simp [hkey.null_notMem, hbefore.null_notMem, hafter.null_notMem, hW _ _ hvalue]
  simp [hitems.null_notMem hmember]

end Nulls

section Lengths

variable {α : Type} {W : α → List Char → Prop} {as : List α} {written : List Char}

theorem WritesItems.length_le (h : WritesItems W as written) : as.length ≤ written.length + 1 := by
  induction h with
  | last _ => simp
  | more _ _ ih => simp; omega

theorem WritesList.length_le (h : WritesList W as written) : as.length ≤ written.length := by
  cases h with
  | empty _ => simp
  | items hitems =>
    have := hitems.length_le
    simp
    omega

theorem WritesObject.length_le {name : α → String} (h : WritesObject name W as written) :
    as.length ≤ written.length := by
  obtain ⟨hitems⟩ := h
  have := hitems.length_le
  simp
  omega

theorem Spaced.exists_length_le {P : List Char → Prop} (h : Spaced P written) :
    ∃ inner, P inner ∧ inner.length ≤ written.length := by
  obtain ⟨before, inner, after, -, hinner, -, rfl⟩ := h
  refine ⟨inner, hinner, ?_⟩
  simp
  omega

theorem WritesItems.exists_of_mem (h : WritesItems W as written) {a : α} (ha : a ∈ as) :
    ∃ inner, W a inner ∧ inner.length ≤ written.length := by
  induction h with
  | last hspaced =>
    rw [List.mem_singleton.mp ha]
    exact hspaced.exists_length_le
  | more hspaced _ ih =>
    rcases List.mem_cons.mp ha with rfl | ha
    · obtain ⟨inner, hinner, hle⟩ := hspaced.exists_length_le
      exact ⟨inner, hinner, by simp; omega⟩
    · obtain ⟨inner, hinner, hle⟩ := ih ha
      exact ⟨inner, hinner, by simp; omega⟩

theorem WritesObject.exists_of_mem {name : α → String} (h : WritesObject name W as written) {a : α}
    (ha : a ∈ as) : ∃ inner, W a inner ∧ inner.length ≤ written.length := by
  obtain ⟨hitems⟩ := h
  obtain ⟨_, ⟨hkey, hbefore, hafter, hvalue⟩, hle⟩ := hitems.exists_of_mem ha
  refine ⟨_, hvalue, ?_⟩
  simp at hle ⊢
  omega

end Lengths

end SandboxHost.Json
