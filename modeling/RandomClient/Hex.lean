import Mathlib.Data.Bool.AllAny
import RandomClient.Basic
import RandomClient.Lib.Text

/-!
# The hexadecimal payloads of the Bob backend

`bytes_to_hex` writes nibbles, `decode_hex` reads UTF-8 checked pairs of bytes
through a general integer parser. `decodeHex_ok_iff` gives the language
`decode_hex` accepts; the prefix in front of it is stripped by a repeating trim.
-/

namespace RandomClient

/-! ## The codec -/

/-- `HEX` of `bytes_to_hex`. -/
def hexAlphabet : List Char :=
  ['0', '1', '2', '3', '4', '5', '6', '7', '8', '9', 'a', 'b', 'c', 'd', 'e', 'f']

theorem shiftRight_four_lt (byte : UInt8) : (byte >>> 4).toNat < hexAlphabet.length := by
  have hlt := byte.toNat_lt
  have hlen : hexAlphabet.length = 16 := by decide
  have hshift : (byte >>> 4).toNat = byte.toNat / 16 := by
    simp [UInt8.toNat_shiftRight, Nat.shiftRight_eq_div_pow]
  omega

theorem and_fifteen_lt (byte : UInt8) : (byte &&& 0x0F).toNat < hexAlphabet.length := by
  have hlen : hexAlphabet.length = 16 := by decide
  have hand : (byte &&& 0x0F).toNat = byte.toNat % 16 := by
    rw [UInt8.toNat_and]
    exact Nat.and_two_pow_sub_one_eq_mod byte.toNat 4
  omega

/-- `bytes_to_hex` -/
def bytesToHex (bytes : Bytes) : List Char :=
  bytes.flatMap fun (byte : UInt8) =>
    [hexAlphabet.get ⟨(byte >>> 4).toNat, shiftRight_four_lt byte⟩,
      hexAlphabet.get ⟨(byte &&& 0x0F).toNat, and_fifteen_lt byte⟩]

/-- The ways `decode_hex` fails, one for each exit of the source. -/
inductive HexError where
  | oddLength
  | nonHexDigit
  | invalidUtf8 (chunk : Bytes)
  | invalidNumber (err : Text.ParseIntError)
deriving DecidableEq

/-- The text of the error. The two exits inside the chunk loop append what the
standard library says of its own error. -/
def HexError.message (detail : HexError → String) : HexError → String
  | .oddLength => "hex output has an odd length"
  | .nonHexDigit => "hex output contains a non-hex digit"
  | err => "invalid hex output: " ++ detail err

/-- `u8::is_ascii_hexdigit` -/
def isAsciiHexdigit (byte : UInt8) : Bool :=
  (48 ≤ byte.toNat && byte.toNat ≤ 57) || (65 ≤ byte.toNat && byte.toNat ≤ 70) ||
    (97 ≤ byte.toNat && byte.toNat ≤ 102)

/-- `slice::chunks_exact(2)` -/
def chunksExact : Bytes → List Bytes
  | a :: b :: rest => [a, b] :: chunksExact rest
  | _ => []

/-- One pair of bytes, read through `str::from_utf8` and `u8::from_str_radix`. -/
def decodeChunk (chunk : Bytes) : Except HexError UInt8 :=
  match Text.fromUtf8 chunk with
  | none => .error (.invalidUtf8 chunk)
  | some text =>
    match Text.fromStrRadix 255 16 (Text.utf8 text) with
    | .error err => .error (.invalidNumber err)
    | .ok value => .ok (UInt8.ofNat value)

/-- `decode_hex` -/
def decodeHex (value : List Char) : Except HexError Bytes :=
  if (Text.utf8 value).length % 2 ≠ 0 then .error .oddLength
  else if (Text.utf8 value).all isAsciiHexdigit = false then .error .nonHexDigit
  else (chunksExact (Text.utf8 value)).mapM decodeChunk

/-! ## The query path -/

/-- The string fields the query loop reads from a result of
`qubic_querySmartContract`. -/
structure ContractQueryResult where
  data : Option (List Char)
  error : Option (List Char)

/-- One round of the query loop: the call failed, its envelope was an error, or a
result came back and the clock was read after it. -/
inductive QueryRound where
  | callFailed
  | envelopeError (message : String)
  | result (result : ContractQueryResult) (now : Nat)

/-- The `data` parameter of the request. -/
def hexParameter (input : Bytes) : List Char := '0' :: 'x' :: bytesToHex input

/-- `decode_hex(data.trim_start_matches("0x"))` -/
def decodeHexData (data : List Char) : Except HexError Bytes :=
  decodeHex (Text.trimStartMatches ['0', 'x'] data)

/-- What one round returns, or `none` when the loop goes on polling. -/
def queryRound (detail : HexError → String) (networkTimeoutMs deadline : Nat) :
    QueryRound → Option (Except String Bytes)
  | .callFailed => some (.error "Bob contract query failed")
  | .envelopeError message => some (.error message)
  | .result result now =>
    match result.data with
    | some data => some ((decodeHexData data).mapError (HexError.message detail))
    | none =>
      if result.error.isSome then some (.error "Bob contract query failed")
      else if deadline ≤ now then
        some (.error ("Bob contract query timed out after " ++ toString networkTimeoutMs ++ " ms"))
      else none

/-- `BobBackend::query_contract_function`: the first round that returns decides. -/
def queryContractFunction (detail : HexError → String) (networkTimeoutMs deadline : Nat)
    (rounds : List QueryRound) : Option (Except String Bytes) :=
  rounds.findSome? (queryRound detail networkTimeoutMs deadline)

/-! ## The accepted language -/

/-- The ASCII hexadecimal digits. -/
def hexDigits : List Char := hexAlphabet ++ ['A', 'B', 'C', 'D', 'E', 'F']

/-- Complete pairs of ASCII hexadecimal digits. -/
def HexPairs (s : List Char) : Prop := s.length % 2 = 0 ∧ ∀ c ∈ s, c ∈ hexDigits

instance : DecidablePred HexPairs := fun s =>
  decidable_of_iff (s.length % 2 = 0 ∧ (s.all fun c => c ∈ hexDigits) = true)
    (and_congr_right fun _ => List.all_iff_forall_prop)

/-- The value of a hexadecimal digit. -/
def hexValue (c : Char) : Nat := (Text.toDigit 16 (UInt8.ofNat c.toNat)).getD 0

/-- The bytes a string of digit pairs stands for. -/
def hexBytes : List Char → Bytes
  | a :: b :: rest => UInt8.ofNat (hexValue a * 16 + hexValue b) :: hexBytes rest
  | _ => []

theorem hexDigits_ascii : ∀ c ∈ hexDigits, c.toNat < 128 := List.all_iff_forall_prop.1 (by decide)

theorem toDigit_hexDigits :
    ∀ c ∈ hexDigits, Text.toDigit 16 (UInt8.ofNat c.toNat) = some (hexValue c) :=
  List.all_iff_forall_prop.1 (by decide)

theorem hexValue_lt : ∀ c ∈ hexDigits, hexValue c < 16 := List.all_iff_forall_prop.1 (by decide)

/-- The digit written for a value is the digit read, in lower case. -/
theorem hexAlphabet_hexValue :
    ∀ c ∈ hexDigits, hexAlphabet[hexValue c]? = some c.toLower :=
  List.all_iff_forall_prop.1 (by decide)

theorem isAsciiHexdigit_hexDigits : ∀ c ∈ hexDigits, isAsciiHexdigit (UInt8.ofNat c.toNat) :=
  List.all_iff_forall_prop.1 (by decide)

/-- A character whose byte is a digit is one of the digits. -/
theorem mem_hexDigits {c : Char} (hascii : c.toNat < 128)
    (h : isAsciiHexdigit (UInt8.ofNat c.toNat)) : c ∈ hexDigits := by
  have hall : ∀ n : Fin 128, isAsciiHexdigit (UInt8.ofNat n.val) → Char.ofNat n.val ∈ hexDigits := by
    decide +kernel
  have hmem := hall ⟨c.toNat, hascii⟩ h
  rwa [Char.ofNat_toNat] at hmem

theorem HexPairs.utf8 {s : List Char} (h : HexPairs s) :
    Text.utf8 s = s.map fun c => UInt8.ofNat c.toNat :=
  Text.utf8_ascii fun c hc => hexDigits_ascii c (h.2 c hc)

/-- Both guards of `decode_hex` pass on digit pairs and on nothing else. -/
theorem guards_iff (s : List Char) :
    ((Text.utf8 s).length % 2 = 0 ∧ (Text.utf8 s).all isAsciiHexdigit) ↔ HexPairs s := by
  constructor
  · rintro ⟨heven, hall⟩
    have hbytes : ∀ b ∈ Text.utf8 s, isAsciiHexdigit b := List.all_eq_true.1 hall
    have hascii : ∀ c ∈ s, c.toNat < 128 := by
      apply Text.ascii_of_utf8
      intro b hb
      have hdigit := hbytes b hb
      simp only [isAsciiHexdigit, Bool.or_eq_true, Bool.and_eq_true, decide_eq_true_eq] at hdigit
      omega
    rw [Text.utf8_ascii hascii] at heven hbytes
    rw [List.length_map] at heven
    refine ⟨heven, fun c hc => ?_⟩
    exact mem_hexDigits (hascii c hc) (hbytes _ (List.mem_map.2 ⟨c, hc, rfl⟩))
  · intro h
    rw [h.utf8, List.length_map]
    refine ⟨h.1, List.all_eq_true.2 ?_⟩
    intro b hb
    rcases List.mem_map.1 hb with ⟨c, hc, rfl⟩
    exact isAsciiHexdigit_hexDigits c (h.2 c hc)

/-- A pair of digits passes both parsers of the loop. -/
theorem decodeChunk_pair {a b : Char} (ha : a ∈ hexDigits) (hb : b ∈ hexDigits) :
    decodeChunk [UInt8.ofNat a.toNat, UInt8.ofNat b.toNat] =
      .ok (UInt8.ofNat (hexValue a * 16 + hexValue b)) := by
  have hutf8 : Text.utf8 [a, b] = [UInt8.ofNat a.toNat, UInt8.ofNat b.toNat] := by
    apply Text.utf8_ascii
    intro c hc
    rcases List.mem_cons.1 hc with rfl | hc
    · exact hexDigits_ascii _ ha
    · rw [List.mem_singleton.1 hc]
      exact hexDigits_ascii _ hb
  have hvalue : Text.fromStrRadix 255 16 [UInt8.ofNat a.toNat, UInt8.ofNat b.toNat] =
      .ok (hexValue a * 16 + hexValue b) := by
    have hlta := hexValue_lt a ha
    have hltb := hexValue_lt b hb
    apply Text.fromStrRadix_pair (by decide) (toDigit_hexDigits a ha) (toDigit_hexDigits b hb)
    omega
  unfold decodeChunk
  rw [← hutf8, Text.fromUtf8_utf8]
  simp only
  rw [hutf8, hvalue]

theorem HexPairs.tail {a b : Char} {rest : List Char} (h : HexPairs (a :: b :: rest)) :
    HexPairs rest := by
  refine ⟨?_, fun c hc => h.2 c (by simp [hc])⟩
  have heven := h.1
  simp only [List.length_cons] at heven
  omega

theorem HexPairs.not_single {a : Char} (h : HexPairs [a]) : False := by
  have heven := h.1
  simp at heven

/-- The chunk loop never fails on digit pairs. -/
theorem mapM_decodeChunk {s : List Char} (h : HexPairs s) :
    (chunksExact (s.map fun c => UInt8.ofNat c.toNat)).mapM decodeChunk = .ok (hexBytes s) := by
  induction s using hexBytes.induct with
  | case1 a b rest ih =>
    have hchunk := decodeChunk_pair (h.2 a (by simp)) (h.2 b (by simp))
    simp only [List.map_cons, chunksExact, List.mapM_cons, hchunk, ih h.tail]
    rfl
  | case2 s hshort =>
    match s, hshort, h with
    | [], _, _ => rfl
    | [a], _, h => exact absurd h HexPairs.not_single
    | a :: b :: rest, hshort, _ => exact absurd rfl (hshort a b rest)

theorem decodeHex_of_hexPairs {s : List Char} (h : HexPairs s) : decodeHex s = .ok (hexBytes s) := by
  have hguards := (guards_iff s).2 h
  unfold decodeHex
  rw [if_neg (not_not.2 hguards.1), if_neg (by simp [hguards.2]), h.utf8]
  exact mapM_decodeChunk h

/-- `decode_hex` accepts digit pairs and fails on its two guards otherwise. -/
theorem decodeHex_cases (s : List Char) :
    (HexPairs s ∧ decodeHex s = .ok (hexBytes s)) ∨
      (¬ HexPairs s ∧ (decodeHex s = .error .oddLength ∨ decodeHex s = .error .nonHexDigit)) := by
  by_cases h : HexPairs s
  · exact Or.inl ⟨h, decodeHex_of_hexPairs h⟩
  · refine Or.inr ⟨h, ?_⟩
    rw [← guards_iff] at h
    unfold decodeHex
    by_cases heven : (Text.utf8 s).length % 2 = 0
    · have hall : (Text.utf8 s).all isAsciiHexdigit = false :=
        Bool.eq_false_iff.2 fun hall => h ⟨heven, hall⟩
      rw [if_neg (not_not.2 heven), if_pos hall]
      exact Or.inr rfl
    · rw [if_pos heven]
      exact Or.inl rfl

theorem decodeHex_ok_iff {s : List Char} {bytes : Bytes} :
    decodeHex s = .ok bytes ↔ HexPairs s ∧ bytes = hexBytes s := by
  rcases decodeHex_cases s with ⟨h, hok⟩ | ⟨h, herr⟩
  · rw [hok, Except.ok.injEq]
    constructor
    · intro heq
      exact ⟨h, heq.symm⟩
    · intro heq
      exact heq.2.symm
  · constructor
    · intro hok
      rcases herr with herr | herr <;> rw [herr] at hok <;> cases hok
    · intro heq
      exact absurd heq.1 h

/-! ## Both directions of the codec -/

theorem get_hexAlphabet {i : Nat} {c : Char} (hi : i < hexAlphabet.length)
    (h : hexAlphabet[i]? = some c) : hexAlphabet.get ⟨i, hi⟩ = c := by
  rw [List.getElem?_eq_getElem hi] at h
  exact Option.some.inj h

theorem toNat_shiftRight_four (byte : UInt8) : (byte >>> 4).toNat = byte.toNat / 16 := by
  simp [UInt8.toNat_shiftRight, Nat.shiftRight_eq_div_pow]

theorem toNat_and_fifteen (byte : UInt8) : (byte &&& 0x0F).toNat = byte.toNat % 16 := by
  rw [UInt8.toNat_and]
  exact Nat.and_two_pow_sub_one_eq_mod byte.toNat 4

theorem bytesToHex_cons (byte : UInt8) (bytes : Bytes) :
    bytesToHex (byte :: bytes) =
      hexAlphabet.get ⟨(byte >>> 4).toNat, shiftRight_four_lt byte⟩ ::
        hexAlphabet.get ⟨(byte &&& 0x0F).toNat, and_fifteen_lt byte⟩ :: bytesToHex bytes := rfl

/-- The encoder writes digit pairs only. -/
theorem bytesToHex_hexPairs (bytes : Bytes) : HexPairs (bytesToHex bytes) := by
  induction bytes with
  | nil => exact ⟨rfl, fun c hc => absurd hc List.not_mem_nil⟩
  | cons byte bytes ih =>
    have hdigit : ∀ i, hexAlphabet.get i ∈ hexDigits := fun i =>
      List.mem_append_left _ (List.get_mem _ i)
    rw [bytesToHex_cons]
    constructor
    · have heven := ih.1
      simp only [List.length_cons]
      omega
    · intro c hc
      rcases List.mem_cons.1 hc with rfl | hc
      · exact hdigit _
      · rcases List.mem_cons.1 hc with rfl | hc
        · exact hdigit _
        · exact ih.2 c hc

theorem hexBytes_bytesToHex (bytes : Bytes) : hexBytes (bytesToHex bytes) = bytes := by
  induction bytes with
  | nil => rfl
  | cons byte bytes ih =>
    have hvalue : ∀ i : Fin hexAlphabet.length, hexValue (hexAlphabet.get i) = i := by decide
    have hbyte : UInt8.ofNat ((byte >>> 4).toNat * 16 + (byte &&& 0x0F).toNat) = byte := by
      rw [toNat_shiftRight_four, toNat_and_fifteen]
      have hsum : byte.toNat / 16 * 16 + byte.toNat % 16 = byte.toNat := by omega
      rw [hsum]
      exact UInt8.ofNat_toNat
    rw [bytesToHex_cons]
    show UInt8.ofNat (_ * 16 + _) :: hexBytes (bytesToHex bytes) = byte :: bytes
    rw [hvalue, hvalue, hbyte, ih]

/-- Encoding what was decoded writes the same digits in lower case. -/
theorem bytesToHex_hexBytes {s : List Char} (h : HexPairs s) :
    bytesToHex (hexBytes s) = s.map Char.toLower := by
  induction s using hexBytes.induct with
  | case1 a b rest ih =>
    have ha := h.2 a (by simp)
    have hb := h.2 b (by simp)
    have hlta := hexValue_lt a ha
    have hltb := hexValue_lt b hb
    have hnat : (UInt8.ofNat (hexValue a * 16 + hexValue b)).toNat = hexValue a * 16 + hexValue b := by
      rw [UInt8.toNat_ofNat']
      omega
    have hhigh : (UInt8.ofNat (hexValue a * 16 + hexValue b) >>> 4).toNat = hexValue a := by
      rw [toNat_shiftRight_four, hnat]
      omega
    have hlow : (UInt8.ofNat (hexValue a * 16 + hexValue b) &&& 0x0F).toNat = hexValue b := by
      rw [toNat_and_fifteen, hnat]
      omega
    show bytesToHex (UInt8.ofNat (hexValue a * 16 + hexValue b) :: hexBytes rest) = _
    rw [bytesToHex_cons, ih h.tail]
    rw [get_hexAlphabet _ (by rw [hhigh]; exact hexAlphabet_hexValue a ha)]
    rw [get_hexAlphabet _ (by rw [hlow]; exact hexAlphabet_hexValue b hb)]
    rfl
  | case2 s hshort =>
    match s, hshort, h with
    | [], _, _ => rfl
    | [a], _, h => exact absurd h HexPairs.not_single
    | a :: b :: rest, hshort, _ => exact absurd rfl (hshort a b rest)

theorem length_hexBytes {s : List Char} (h : HexPairs s) : 2 * (hexBytes s).length = s.length := by
  induction s using hexBytes.induct with
  | case1 a b rest ih =>
    have hrest := ih h.tail
    simp only [hexBytes, List.length_cons]
    omega
  | case2 s hshort =>
    match s, hshort, h with
    | [], _, _ => rfl
    | [a], _, h => exact absurd h HexPairs.not_single
    | a :: b :: rest, hshort, _ => exact absurd rfl (hshort a b rest)

/-! ## What the query path accepts -/

/-- At most one `0x` in front of complete digit pairs. -/
def SinglePrefix (data : List Char) : Prop :=
  ∃ digits, HexPairs digits ∧ (data = digits ∨ data = '0' :: 'x' :: digits)

/-- Two or more `0x` one after the other in front of complete digit pairs. -/
def RepeatedPrefix (data : List Char) : Prop :=
  ∃ count digits, 2 ≤ count ∧ HexPairs digits ∧
    data = (List.replicate count ['0', 'x']).flatten ++ digits

theorem HexPairs.not_marked {digits : List Char} (h : HexPairs digits) :
    ¬ ['0', 'x'] <+: digits := by
  rintro ⟨rest, hrest⟩
  have hx : 'x' ∈ hexDigits := h.2 'x' (by rw [← hrest]; simp)
  exact absurd hx (by decide)

/-- The trim takes every marker away, and what is left decides. -/
theorem decodeHexData_replicate {digits : List Char} (h : HexPairs digits) (count : Nat) :
    decodeHexData ((List.replicate count ['0', 'x']).flatten ++ digits) = .ok (hexBytes digits) := by
  unfold decodeHexData
  rw [Text.trimStartMatches_replicate (by simp) h.not_marked]
  exact decodeHex_of_hexPairs h

/-- Accepted data is some number of markers before digit pairs. -/
theorem decodeHexData_ok {data : List Char} {bytes : Bytes} (h : decodeHexData data = .ok bytes) :
    ∃ count digits, HexPairs digits ∧ bytes = hexBytes digits ∧
      data = (List.replicate count ['0', 'x']).flatten ++ digits := by
  have hpairs := decodeHex_ok_iff.1 h
  have hspec := @Text.trimStartMatches_spec _ _ ['0', 'x'] (by simp) data
  rcases hspec.1 with ⟨count, hdata⟩
  exact ⟨count, _, hpairs.1, hpairs.2, hdata⟩

theorem not_singlePrefix_of_repeated {data : List Char} (h : RepeatedPrefix data) :
    ¬ SinglePrefix data := by
  rcases h with ⟨count, digits, hcount, _, hdata⟩
  have hsplit : ∃ rest, data = '0' :: 'x' :: '0' :: 'x' :: rest := by
    rcases Nat.exists_eq_add_of_le hcount with ⟨more, rfl⟩
    refine ⟨(List.replicate more ['0', 'x']).flatten ++ digits, ?_⟩
    rw [hdata, Nat.add_comm, List.replicate_succ, List.replicate_succ]
    rfl
  rcases hsplit with ⟨rest, hrest⟩
  rintro ⟨payload, hpayload, heq | heq⟩
  · apply hpayload.not_marked
    rw [← heq, hrest]
    exact ⟨'0' :: 'x' :: rest, rfl⟩
  · apply hpayload.not_marked
    rw [hrest] at heq
    injection heq with _ heq
    injection heq with _ heq
    rw [← heq]
    exact ⟨rest, rfl⟩

/-- The codec inverts itself in both directions, `decode_hex` accepts complete digit
pairs and nothing else, and the query path takes more than one prefix exactly from data
that repeats it in front of digit pairs. -/
theorem hex_payload_codec (bytes : Bytes) (s data : List Char) :
    decodeHexData (hexParameter bytes) = .ok bytes ∧
      (((∃ bytes, decodeHex s = .ok bytes) ↔ HexPairs s) ∧
        (∀ err, decodeHex s = .error err → err = .oddLength ∨ err = .nonHexDigit) ∧
        ∀ bytes, decodeHex s = .ok bytes →
          2 * bytes.length = s.length ∧ bytesToHex bytes = s.map Char.toLower) ∧
      (((∃ bytes, decodeHexData data = .ok bytes) → SinglePrefix data) ↔
        ¬ RepeatedPrefix data) := by
  refine ⟨?_, ?_, ?_⟩
  · have h := decodeHexData_replicate (bytesToHex_hexPairs bytes) 1
    rw [hexBytes_bytesToHex] at h
    exact h
  · refine ⟨?_, ?_, ?_⟩
    · constructor
      · rintro ⟨bytes, hok⟩
        exact (decodeHex_ok_iff.1 hok).1
      · intro h
        exact ⟨_, decodeHex_of_hexPairs h⟩
    · intro err herr
      rcases decodeHex_cases s with ⟨_, hok⟩ | ⟨_, hodd | hdigit⟩
      · rw [hok] at herr
        cases herr
      · rw [hodd] at herr
        exact Or.inl (Except.error.inj herr).symm
      · rw [hdigit] at herr
        exact Or.inr (Except.error.inj herr).symm
    · intro bytes hok
      rcases decodeHex_ok_iff.1 hok with ⟨hpairs, rfl⟩
      exact ⟨length_hexBytes hpairs, bytesToHex_hexBytes hpairs⟩
  · constructor
    · intro hsingle hrepeated
      apply not_singlePrefix_of_repeated hrepeated
      rcases hrepeated with ⟨count, digits, _, hpairs, rfl⟩
      exact hsingle ⟨_, decodeHexData_replicate hpairs count⟩
    · rintro hnot ⟨bytes, hok⟩
      rcases decodeHexData_ok hok with ⟨count, digits, hpairs, _, hdata⟩
      match count, hdata with
      | 0, hdata => exact ⟨digits, hpairs, Or.inl hdata⟩
      | 1, hdata => exact ⟨digits, hpairs, Or.inr hdata⟩
      | count + 2, hdata => exact absurd ⟨count + 2, digits, by omega, hpairs, hdata⟩ hnot

/-- `0x0x00` is accepted as the byte 0 although it is not one prefix before digits. -/
theorem double_prefix_accepted :
    decodeHexData "0x0x00".toList = .ok [0] ∧ ¬ SinglePrefix "0x0x00".toList := by
  have hpairs : HexPairs ['0', '0'] := by decide
  constructor
  · exact decodeHexData_replicate hpairs 2
  · exact not_singlePrefix_of_repeated ⟨2, _, Nat.le_refl _, hpairs, rfl⟩

end RandomClient
