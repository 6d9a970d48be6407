import RandomClient.Lib.Text

/-!
# Decimal numerals

What `fromStrRadix` accepts in base ten: an optional sign before digits whose
value is within the limit. Leading zeros do not matter, and the numeral of every
number within the limit is read back.
-/

namespace Text

/-- The byte of a decimal digit. -/
def IsDigitByte (b : UInt8) : Prop := 48 ≤ b.toNat ∧ b.toNat ≤ 57

/-- The value of digits read after a number. -/
def decimalFrom (acc : Nat) (digits : List UInt8) : Nat :=
  digits.foldl (fun acc b => acc * 10 + (b.toNat - 48)) acc

theorem toDigit_ten (b : UInt8) :
    toDigit 10 b = if 48 ≤ b.toNat ∧ b.toNat ≤ 57 then some (b.toNat - 48) else none := by
  unfold toDigit
  dsimp only
  by_cases hdigit : 48 ≤ b.toNat ∧ b.toNat ≤ 57
  · rw [if_pos hdigit, if_pos hdigit, if_pos (by omega)]
  · rw [if_neg hdigit, if_neg hdigit, if_neg]
    split
    · omega
    · split
      · omega
      · omega

/-- Digits only raise a number. -/
theorem le_decimalFrom (acc : Nat) (digits : List UInt8) : acc ≤ decimalFrom acc digits := by
  induction digits generalizing acc with
  | nil => exact Nat.le_refl _
  | cons b digits ih =>
    have hnext := ih (acc * 10 + (b.toNat - 48))
    change _ ≤ decimalFrom (acc * 10 + (b.toNat - 48)) digits
    omega

/-- The loop accepts digits whose value is within the limit. The check of a
prefix of them fails only if the check of all of them does. -/
theorem readDigits_ten {max acc v : Nat} {src : List UInt8} (hacc : acc ≤ max) :
    readDigits max 10 acc src = .ok v ↔
      (∀ b ∈ src, IsDigitByte b) ∧ v = decimalFrom acc src ∧ v ≤ max := by
  induction src generalizing acc with
  | nil =>
    constructor
    · intro h
      cases h
      exact ⟨by simp, rfl, hacc⟩
    · rintro ⟨-, rfl, -⟩
      rfl
  | cons b src ih =>
    have hle := le_decimalFrom (acc * 10 + (b.toNat - 48)) src
    have hvalue : decimalFrom acc (b :: src) = decimalFrom (acc * 10 + (b.toNat - 48)) src := rfl
    unfold readDigits
    rw [toDigit_ten]
    by_cases hdigit : 48 ≤ b.toNat ∧ b.toNat ≤ 57
    · rw [if_pos hdigit]
      dsimp only
      by_cases hfits : acc * 10 + (b.toNat - 48) ≤ max
      · rw [if_neg (by omega), if_neg (by omega), ih hfits, hvalue]
        constructor
        · rintro ⟨hrest, hv, hmax⟩
          exact ⟨List.forall_mem_cons.2 ⟨hdigit, hrest⟩, hv, hmax⟩
        · rintro ⟨hall, hv, hmax⟩
          exact ⟨(List.forall_mem_cons.1 hall).2, hv, hmax⟩
      · -- the number is too large already
        constructor
        · intro h
          split at h
          · cases h
          · split at h
            · cases h
            · omega
        · rintro ⟨-, hv, hmax⟩
          rw [hvalue] at hv
          omega
    · rw [if_neg hdigit]
      constructor
      · intro h
        cases h
      · rintro ⟨hall, -⟩
        exact absurd (List.forall_mem_cons.1 hall).1 hdigit

/-- Digits, after a sign or not. -/
theorem fromStrRadix_ten {max v : Nat} {src : List UInt8} :
    fromStrRadix max 10 src = .ok v ↔
      ∃ digits, (src = digits ∨ src = 43 :: digits) ∧ digits ≠ [] ∧ (∀ b ∈ digits, IsDigitByte b) ∧
        v = decimalFrom 0 digits ∧ v ≤ max := by
  -- a sign is no digit, so the two readings exclude each other
  have hsign : ∀ b : UInt8, b = 43 ∨ b = 45 → ¬ IsDigitByte b := by
    rintro b hb ⟨hlo, hhi⟩
    rcases hb with rfl | rfl
    · simp at hlo
    · simp at hlo
  cases src with
  | nil => simp [fromStrRadix]
  | cons b rest =>
    unfold fromStrRadix
    dsimp only
    split
    · next hlone =>
      constructor
      · intro h
        cases h
      · rintro ⟨digits, hsrc | hsrc, hne, hall, -⟩
        · subst hsrc
          exact absurd (hall b (by simp)) (hsign b hlone.1)
        · rw [List.cons.injEq, hlone.2] at hsrc
          exact absurd hsrc.2.symm hne
    · next hlone =>
      split
      · next hplus =>
        subst hplus
        rw [readDigits_ten (Nat.zero_le _)]
        constructor
        · rintro ⟨hall, hv, hmax⟩
          refine ⟨rest, .inr rfl, ?_, hall, hv, hmax⟩
          rintro rfl
          exact hlone ⟨.inl rfl, rfl⟩
        · rintro ⟨digits, hsrc | hsrc, hne, hall, hv, hmax⟩
          · subst hsrc
            exact absurd (hall 43 (by simp)) (hsign 43 (.inl rfl))
          · rw [List.cons.injEq] at hsrc
            rw [hsrc.2]
            exact ⟨hall, hv, hmax⟩
      · next hplus =>
        rw [readDigits_ten (Nat.zero_le _)]
        constructor
        · rintro ⟨hall, hv, hmax⟩
          exact ⟨b :: rest, .inl rfl, by simp, hall, hv, hmax⟩
        · rintro ⟨digits, hsrc | hsrc, hne, hall, hv, hmax⟩
          · rw [hsrc]
            exact ⟨hall, hv, hmax⟩
          · rw [List.cons.injEq] at hsrc
            exact absurd hsrc.1 hplus

/-! ## As text -/

/-- An optional sign before decimal digits. -/
structure Numeral (text digits : List Char) : Prop where
  sign : text = digits ∨ text = '+' :: digits
  ne_nil : digits ≠ []
  digits : ∀ c ∈ digits, c.isDigit = true

theorem isDigit_iff {c : Char} : c.isDigit = true ↔ 48 ≤ c.toNat ∧ c.toNat ≤ 57 := by
  simp only [Char.isDigit, Bool.and_eq_true, decide_eq_true_eq]
  constructor
  · rintro ⟨hlo, hhi⟩
    exact ⟨hlo, hhi⟩
  · rintro ⟨hlo, hhi⟩
    exact ⟨hlo, hhi⟩

theorem ascii_of_isDigit {digits : List Char} (h : ∀ c ∈ digits, c.isDigit = true) :
    ∀ c ∈ digits, c.toNat < 128 := by
  intro c hc
  have hdigit := isDigit_iff.1 (h c hc)
  omega

theorem toNat_ofNat_toNat {c : Char} (h : c.toNat < 128) : (UInt8.ofNat c.toNat).toNat = c.toNat :=
  UInt8.toNat_ofNat_of_lt' (Nat.lt_trans h (by decide))

theorem decimalFrom_utf8 {digits : List Char} (h : ∀ c ∈ digits, c.isDigit = true) (acc : Nat) :
    decimalFrom acc (utf8 digits) = Nat.ofDigitChars 10 digits acc := by
  rw [utf8_ascii (ascii_of_isDigit h)]
  induction digits generalizing acc with
  | nil => rfl
  | cons c digits ih =>
    have hrest := ih fun d hd => h d (List.mem_cons_of_mem _ hd)
    have hc := toNat_ofNat_toNat (ascii_of_isDigit h c List.mem_cons_self)
    rw [List.map_cons, Nat.ofDigitChars_cons, ← hrest, Nat.mul_comm 10 acc]
    change decimalFrom (acc * 10 + ((UInt8.ofNat c.toNat).toNat - 48)) _ = _
    rw [hc]
    rfl

/-- Bytes of digits encode digits. -/
theorem isDigit_of_utf8 {digits : List Char} :
    (∀ b ∈ utf8 digits, IsDigitByte b) ↔ ∀ c ∈ digits, c.isDigit = true := by
  constructor
  · intro h c hc
    have hascii : ∀ c ∈ digits, c.toNat < 128 := by
      apply ascii_of_utf8
      intro b hb
      have hdigit := (h b hb).2
      omega
    have hbyte : IsDigitByte (UInt8.ofNat c.toNat) := by
      apply h
      rw [utf8_ascii hascii]
      exact List.mem_map_of_mem hc
    rw [IsDigitByte, toNat_ofNat_toNat (hascii c hc)] at hbyte
    exact isDigit_iff.2 hbyte
  · intro h b hb
    rw [utf8_ascii (ascii_of_isDigit h)] at hb
    rcases List.mem_map.1 hb with ⟨c, hc, rfl⟩
    rw [IsDigitByte, toNat_ofNat_toNat (ascii_of_isDigit h c hc)]
    exact isDigit_iff.1 (h c hc)

/-- The accepted texts are the numerals of numbers within the limit. -/
theorem fromStrRadix_numeral {max v : Nat} {text : List Char} :
    fromStrRadix max 10 (utf8 text) = .ok v ↔
      ∃ digits, Numeral text digits ∧ v = Nat.ofDigitChars 10 digits 0 ∧ v ≤ max := by
  rw [fromStrRadix_ten]
  constructor
  · rintro ⟨bytes, hsrc, hne, hall, hv, hmax⟩
    -- the digits are the text, or the text after its sign
    have hdigits : ∃ digits, bytes = utf8 digits ∧ (text = digits ∨ text = '+' :: digits) := by
      rcases hsrc with hsrc | hsrc
      · exact ⟨text, hsrc.symm, .inl rfl⟩
      · cases text with
        | nil => cases hsrc
        | cons c rest =>
          by_cases hc : c.toNat < 128
          · rw [utf8_cons, utf8EncodeChar_ascii hc, List.singleton_append, List.cons.injEq] at hsrc
            refine ⟨rest, hsrc.2.symm, .inr ?_⟩
            have hcode := congrArg UInt8.toNat hsrc.1
            rw [toNat_ofNat_toNat hc] at hcode
            have hplus : c = '+' := Char.toNat_inj.1 hcode
            rw [hplus]
          · -- a wide character has no byte below the digits
            exfalso
            rcases utf8EncodeChar_wide hc with ⟨b, hb, hwide⟩
            have hmem : b ∈ utf8 (c :: rest) := List.mem_append_left _ hb
            rw [hsrc] at hmem
            rcases List.mem_cons.1 hmem with rfl | hmem
            · simp at hwide
            · have hdigit := (hall b hmem).2
              omega
    rcases hdigits with ⟨digits, rfl, htext⟩
    have hisDigit := isDigit_of_utf8.1 hall
    refine ⟨digits, ⟨htext, ?_, hisDigit⟩, ?_, hmax⟩
    · rintro rfl
      exact hne rfl
    · rw [hv, decimalFrom_utf8 hisDigit]
  · rintro ⟨digits, h, hv, hmax⟩
    refine ⟨utf8 digits, ?_, ?_, isDigit_of_utf8.2 h.digits, ?_, hmax⟩
    · rcases h.sign with rfl | rfl
      · exact .inl rfl
      · exact .inr rfl
    · cases digits with
      | nil => exact absurd rfl h.ne_nil
      | cons c rest =>
        rw [utf8_cons, utf8EncodeChar_ascii (ascii_of_isDigit h.digits c List.mem_cons_self)]
        simp
    · rw [hv, decimalFrom_utf8 h.digits]

/-- Every number within the limit is read back from its numeral. -/
theorem fromStrRadix_repr {max v : Nat} (h : v ≤ max) :
    fromStrRadix max 10 (utf8 (Nat.toDigits 10 v)) = .ok v :=
  fromStrRadix_numeral.2 ⟨_, ⟨.inl rfl, Nat.toDigits_ne_nil,
    fun _ hc => Nat.isDigit_of_mem_toDigits (by decide) (by decide) hc⟩,
    Nat.ofDigitChars_ten_toDigits.symm, h⟩

end Text
