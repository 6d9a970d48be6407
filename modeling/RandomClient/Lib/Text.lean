import Mathlib.Data.List.Basic

/-!
# Text as a list of characters

A string is the list of its Unicode scalar values. It is read as UTF-8 bytes,
stripped of a pattern as often as it starts with it, cut at its first delimiter,
and read as an unsigned numeral with an optional sign.
-/

namespace Text

/-! ## UTF-8 -/

/-- The UTF-8 bytes of a string. -/
def utf8 (s : List Char) : List UInt8 := s.flatMap String.utf8EncodeChar

/-- The string some bytes encode, or `none` when they are not UTF-8. -/
def fromUtf8 (bytes : List UInt8) : Option (List Char) :=
  (ByteArray.utf8Decode? ⟨bytes.toArray⟩).map Array.toList

@[simp] theorem utf8_nil : utf8 [] = [] := rfl

@[simp] theorem utf8_cons (c : Char) (s : List Char) :
    utf8 (c :: s) = String.utf8EncodeChar c ++ utf8 s := rfl

theorem fromUtf8_utf8 (s : List Char) : fromUtf8 (utf8 s) = some s := by
  have h : (⟨(utf8 s).toArray⟩ : ByteArray) = s.utf8Encode := by
    apply ByteArray.ext
    exact List.data_toByteArray.symm
  unfold fromUtf8
  rw [h, List.utf8Decode?_utf8Encode]
  rfl

/-- A character below 128 is one byte. -/
theorem utf8EncodeChar_ascii {c : Char} (h : c.toNat < 128) :
    String.utf8EncodeChar c = [UInt8.ofNat c.toNat] := by
  have hle : c.val.toNat ≤ 0x7f := Nat.le_of_lt_succ h
  unfold String.utf8EncodeChar
  rw [if_pos hle]
  rfl

theorem utf8_ascii {s : List Char} (h : ∀ c ∈ s, c.toNat < 128) :
    utf8 s = s.map fun c => UInt8.ofNat c.toNat := by
  induction s with
  | nil => rfl
  | cons c s ih =>
    rw [utf8_cons, utf8EncodeChar_ascii (h c (by simp)), ih fun d hd => h d (by simp [hd])]
    rfl

/-- A character from 128 on starts with a byte from 128 on. -/
theorem utf8EncodeChar_wide {c : Char} (h : ¬ c.toNat < 128) :
    ∃ b ∈ String.utf8EncodeChar c, 128 ≤ b.toNat := by
  have hgt : ¬ c.val.toNat ≤ 0x7f := fun hle => h (Nat.lt_succ_of_le hle)
  unfold String.utf8EncodeChar
  simp only [if_neg hgt]
  -- two, three or four bytes: the leading one carries its length in the high bits
  split
  · refine ⟨_, List.mem_cons_self, ?_⟩
    simp only [UInt8.toNat_ofNat']
    omega
  · split
    · refine ⟨_, List.mem_cons_self, ?_⟩
      simp only [UInt8.toNat_ofNat']
      omega
    · refine ⟨_, List.mem_cons_self, ?_⟩
      simp only [UInt8.toNat_ofNat']
      omega

/-- The bytes are all below 128 only when the characters are. -/
theorem ascii_of_utf8 {s : List Char} (h : ∀ b ∈ utf8 s, b.toNat < 128) :
    ∀ c ∈ s, c.toNat < 128 := by
  intro c hc
  by_contra hwide
  rcases utf8EncodeChar_wide hwide with ⟨b, hb, hle⟩
  have hlt := h b (List.mem_flatMap.2 ⟨c, hc, hb⟩)
  omega

/-! ## Repeated prefixes -/

theorem le_length_flatten_replicate {α : Type*} {pattern : List α} (hne : pattern ≠ []) (k : Nat) :
    k ≤ (List.replicate k pattern).flatten.length := by
  have hpos := List.length_pos_of_ne_nil hne
  induction k with
  | zero => exact Nat.zero_le _
  | succ k ih =>
    rw [List.replicate_succ, List.flatten_cons, List.length_append]
    omega

section Trim

variable {α : Type*} [DecidableEq α]

/-- Strips `pattern` from the front at most `fuel` times. -/
def stripRepeated (pattern : List α) : Nat → List α → List α
  | 0, s => s
  | fuel + 1, s =>
    match s.dropPrefix? pattern with
    | some rest => stripRepeated pattern fuel rest
    | none => s

/-- Strips `pattern` from the front as often as it stands there. -/
def trimStartMatches (pattern s : List α) : List α := stripRepeated pattern s.length s

theorem dropPrefix?_eq_some {l p s : List α} : l.dropPrefix? p = some s ↔ l = p ++ s := by
  rw [List.dropPrefix?_eq_some_iff]
  constructor
  · rintro ⟨p', hl, hp⟩
    rw [hl, eq_of_beq hp]
  · intro hl
    exact ⟨p, hl, beq_self_eq_true p⟩

theorem dropPrefix?_eq_none {l p : List α} : l.dropPrefix? p = none ↔ ¬ p <+: l := by
  constructor
  · rintro h ⟨s, hs⟩
    have hsome : l.dropPrefix? p = some s := dropPrefix?_eq_some.2 hs.symm
    rw [h] at hsome
    cases hsome
  · intro h
    cases hdrop : l.dropPrefix? p with
    | none => rfl
    | some s => exact absurd ⟨s, (dropPrefix?_eq_some.1 hdrop).symm⟩ h

theorem stripRepeated_spec {pattern : List α} (hne : pattern ≠ []) :
    ∀ {fuel : Nat} {s : List α}, s.length ≤ fuel →
      (∃ k, s = (List.replicate k pattern).flatten ++ stripRepeated pattern fuel s) ∧
        ¬ pattern <+: stripRepeated pattern fuel s := by
  intro fuel
  induction fuel with
  | zero =>
    intro s hs
    have hnil : s = [] := List.eq_nil_of_length_eq_zero (Nat.le_zero.1 hs)
    subst hnil
    exact ⟨⟨0, rfl⟩, fun h => hne (List.prefix_nil.1 h)⟩
  | succ fuel ih =>
    intro s hs
    unfold stripRepeated
    cases hdrop : s.dropPrefix? pattern with
    | none => exact ⟨⟨0, rfl⟩, dropPrefix?_eq_none.1 hdrop⟩
    | some rest =>
      have hrest := dropPrefix?_eq_some.1 hdrop
      have hpos := List.length_pos_of_ne_nil hne
      have hlen : rest.length ≤ fuel := by
        rw [hrest, List.length_append] at hs
        omega
      rcases ih hlen with ⟨⟨k, hk⟩, hno⟩
      refine ⟨⟨k + 1, ?_⟩, hno⟩
      show s = (List.replicate (k + 1) pattern).flatten ++ stripRepeated pattern fuel rest
      rw [List.replicate_succ, List.flatten_cons, List.append_assoc, ← hk]
      exact hrest

/-- The text is the pattern some number of times before what is left. -/
theorem trimStartMatches_spec {pattern : List α} (hne : pattern ≠ []) (s : List α) :
    (∃ k, s = (List.replicate k pattern).flatten ++ trimStartMatches pattern s) ∧
      ¬ pattern <+: trimStartMatches pattern s :=
  stripRepeated_spec hne (Nat.le_refl _)

theorem stripRepeated_replicate {pattern : List α} {rest : List α} (hno : ¬ pattern <+: rest) :
    ∀ {k fuel : Nat}, k ≤ fuel →
      stripRepeated pattern fuel ((List.replicate k pattern).flatten ++ rest) = rest := by
  intro k
  induction k with
  | zero =>
    intro fuel _
    show stripRepeated pattern fuel rest = rest
    cases fuel with
    | zero => rfl
    | succ fuel =>
      unfold stripRepeated
      rw [dropPrefix?_eq_none.2 hno]
  | succ k ih =>
    intro fuel hk
    cases fuel with
    | zero => exact absurd hk (Nat.not_succ_le_zero k)
    | succ fuel =>
      have hdrop : ((List.replicate (k + 1) pattern).flatten ++ rest).dropPrefix? pattern =
          some ((List.replicate k pattern).flatten ++ rest) := by
        apply dropPrefix?_eq_some.2
        rw [List.replicate_succ, List.flatten_cons, List.append_assoc]
      unfold stripRepeated
      rw [hdrop]
      exact ih (Nat.le_of_succ_le_succ hk)

/-- However often the pattern is repeated, all of it goes. -/
theorem trimStartMatches_replicate {pattern rest : List α} (hne : pattern ≠ [])
    (hno : ¬ pattern <+: rest) (k : Nat) :
    trimStartMatches pattern ((List.replicate k pattern).flatten ++ rest) = rest := by
  apply stripRepeated_replicate hno
  have hk := le_length_flatten_replicate hne k
  rw [List.length_append]
  omega

end Trim

/-! ## The first delimiter -/

section Cut

variable {α : Type*}

/-- A text before its first delimiter, and the rest. -/
def splitFirst (delimiter : α → Bool) (s : List α) : List α × List α :=
  s.splitAt ((s.findIdx? delimiter).getD s.length)

/-- `front` has no delimiter, and `back` is empty or starts with one. -/
structure Cut (delimiter : α → Bool) (front back : List α) : Prop where
  front : ∀ c ∈ front, delimiter c = false
  back : ∀ c, back.head? = some c → delimiter c = true

variable {delimiter : α → Bool}

theorem splitFirst_eq (s : List α) :
    splitFirst delimiter s = (s.take (s.findIdx delimiter), s.drop (s.findIdx delimiter)) := by
  unfold splitFirst
  rw [List.splitAt_eq, ← List.findIdx_eq_getD_findIdx?]

theorem Cut.findIdx {front back : List α} (h : Cut delimiter front back) :
    (front ++ back).findIdx delimiter = front.length := by
  induction front with
  | nil =>
    cases back with
    | nil => rfl
    | cons c back =>
      have hc := h.back c rfl
      simp [List.findIdx_cons, hc]
  | cons c front ih =>
    have hc := h.front c (by simp)
    have hrest : Cut delimiter front back :=
      ⟨fun d hd => h.front d (by simp [hd]), h.back⟩
    rw [List.cons_append, List.findIdx_cons, hc, ih hrest]
    rfl

/-- A cut is found again. -/
theorem Cut.splitFirst {front back : List α} (h : Cut delimiter front back) :
    splitFirst delimiter (front ++ back) = (front, back) := by
  rw [splitFirst_eq, h.findIdx, List.take_left, List.drop_left]

theorem cut_splitFirst (s : List α) :
    Cut delimiter (splitFirst delimiter s).1 (splitFirst delimiter s).2 := by
  rw [splitFirst_eq]
  constructor
  · intro c hc
    rcases List.mem_take_iff_getElem.1 hc with ⟨i, hi, rfl⟩
    exact List.not_of_lt_findIdx (Nat.lt_of_lt_of_le hi (Nat.min_le_left _ _))
  · intro c hc
    rw [List.head?_drop] at hc
    rcases List.getElem?_eq_some_iff.1 hc with ⟨hlt, rfl⟩
    exact List.findIdx_getElem

end Cut

/-! ## Unsigned numerals -/

inductive ParseIntError where
  | empty
  | invalidDigit
  | posOverflow
deriving DecidableEq, Repr

/-- The value of an ASCII digit in a radix of at most 36. -/
def toDigit (radix : Nat) (b : UInt8) : Option Nat :=
  let value :=
    if 48 ≤ b.toNat ∧ b.toNat ≤ 57 then b.toNat - 48
    else if 97 ≤ b.toNat ∧ b.toNat ≤ 122 then b.toNat - 87
    else if 65 ≤ b.toNat ∧ b.toNat ≤ 90 then b.toNat - 55
    else radix
  if value < radix then some value else none

/-- Reads digits onto `acc`, every product and sum checked against `max`. -/
def readDigits (max radix : Nat) : Nat → List UInt8 → Except ParseIntError Nat
  | acc, [] => .ok acc
  | acc, b :: rest =>
    match toDigit radix b with
    | none => .error .invalidDigit
    | some digit =>
      if max < acc * radix then .error .posOverflow
      else if max < acc * radix + digit then .error .posOverflow
      else readDigits max radix (acc * radix + digit) rest

/-- `from_str_radix` of an unsigned type: a leading `+` is a sign, a sign alone and
a `-` are invalid digits. -/
def fromStrRadix (max radix : Nat) (src : List UInt8) : Except ParseIntError Nat :=
  match src with
  | [] => .error .empty
  | b :: rest =>
    if (b = 43 ∨ b = 45) ∧ rest = [] then .error .invalidDigit
    else if b = 43 then readDigits max radix 0 rest
    else readDigits max radix 0 (b :: rest)

/-- Two digits are read as one number when the radix has room for it. -/
theorem fromStrRadix_pair {max radix hi lo : Nat} {a b : UInt8} (hr : radix ≤ 36)
    (ha : toDigit radix a = some hi) (hb : toDigit radix b = some lo)
    (hfit : hi * radix + lo ≤ max) :
    fromStrRadix max radix [a, b] = .ok (hi * radix + lo) := by
  have hplus : toDigit radix 43 = none := by simp [toDigit]
  have hne : a ≠ 43 := by
    intro h
    rw [h, hplus] at ha
    cases ha
  have hhi : ¬ max < hi * radix := by omega
  have hhi' : ¬ max < hi := by
    intro h
    have hpos : 0 < radix := by
      by_contra hzero
      have : radix = 0 := by omega
      subst this
      simp [toDigit] at ha
    have : hi ≤ hi * radix := Nat.le_mul_of_pos_right hi hpos
    omega
  have hlo : ¬ max < hi * radix + lo := by omega
  simp [fromStrRadix, readDigits, hne, ha, hb, hhi, hhi', hlo]

end Text
