import Mathlib.Data.Fintype.Prod
import RandomClient.Acceptance
import RandomClient.Codec
import RandomClient.Lib.Layout

/-!
# The status output of the contract

`GetProviderStatus` fills six arrays of 32 entries with the entries of a
provider, and the host lays them out as 680 little-endian bytes. In a state the
contract reaches, a provider has one entry at most for each stream and tier
(`StateData.WellFormed`), so the arrays hold every entry, and decoding them
gives them back (`status_decodes_to_the_truth`).
-/

namespace RandomClient.Contract

/-! ## GetProviderStatus -/

/-- `GetProviderStatus_output`: the arrays by index, zero where nothing was set. -/
structure GetProviderStatusOutput where
  count : Nat
  stream : Nat → Nat
  collateralTier : Nat → Nat
  lockedCollateral : Nat → Nat
  contributedToEntropy : Nat → Nat
  lastUpdateTick : Nat → Nat

/-- The output the host passes in: all bytes zero. -/
def GetProviderStatusOutput.zero : GetProviderStatusOutput where
  count := 0
  stream _ := 0
  collateralTier _ := 0
  lockedCollateral _ := 0
  contributedToEntropy _ := 0
  lastUpdateTick _ := 0

/-- The body of the loop for an entry that belongs to the provider. -/
def GetProviderStatusOutput.report (stream : Fin 3) (p : Provider)
    (output : GetProviderStatusOutput) : GetProviderStatusOutput where
  count := output.count + 1
  stream := Function.update output.stream output.count stream
  collateralTier := Function.update output.collateralTier output.count p.collateralTier
  lockedCollateral := Function.update output.lockedCollateral output.count p.lockedCollateralAmount
  contributedToEntropy := Function.update output.contributedToEntropy output.count
    (if p.contributedToEntropyFlag then 1 else 0)
  lastUpdateTick := Function.update output.lastUpdateTick output.count p.lastUpdateTick

/-- One round of the inner loop. -/
def GetProviderStatusOutput.scan (provider : Digest) (stream : Fin 3)
    (output : GetProviderStatusOutput) (p : Provider) : GetProviderStatusOutput :=
  if p.provider = provider ∧ output.count < 32 then output.report stream p else output

/-- `GetProviderStatus`. -/
def getProviderStatus (provider : Digest) (s : StateData) : GetProviderStatusOutput :=
  (List.finRange 3).foldl
    (fun output stream => (s.streams stream).foldl (.scan provider stream) output) .zero

/-! ## The layout of the output -/

/-- The low `width` bytes of a number, the lowest first. -/
def toLeBytes : Nat → Nat → Bytes
  | 0, _ => []
  | width + 1, n => UInt8.ofNat n :: toLeBytes width (n / 256)

/-- `Array<uint, 32>` in memory. -/
def leArray (width : Nat) (values : Nat → Nat) : Bytes :=
  Layout.array 32 fun i => toLeBytes width (values i)

/-- The output in memory. The 64-bit array is aligned to eight bytes. -/
def GetProviderStatusOutput.encode (output : GetProviderStatusOutput) : Bytes :=
  toLeBytes 4 output.count ++ leArray 4 output.stream ++ leArray 4 output.collateralTier ++
    List.replicate 4 0 ++ leArray 8 output.lockedCollateral ++
    leArray 1 output.contributedToEntropy ++ leArray 4 output.lastUpdateTick

@[simp] theorem length_toLeBytes (width n : Nat) : (toLeBytes width n).length = width := by
  induction width generalizing n with
  | zero => rfl
  | succ width ih => simp [toLeBytes, ih]

@[simp] theorem length_leArray (width : Nat) (values : Nat → Nat) :
    (leArray width values).length = 32 * width :=
  Layout.length_array (fun _ => length_toLeBytes _ _) 32

theorem length_encode (output : GetProviderStatusOutput) :
    output.encode.length = providerStatusSize := by
  simp [GetProviderStatusOutput.encode]

theorem fromLeBytes_toLeBytes {width n : Nat} (h : n < 256 ^ width) :
    fromLeBytes (toLeBytes width n) = n := by
  induction width generalizing n with
  | zero =>
    rw [Nat.pow_zero, Nat.lt_one_iff] at h
    rw [h]
    rfl
  | succ width ih =>
    have hrest : n / 256 < 256 ^ width := by
      rw [Nat.pow_succ, Nat.mul_comm] at h
      exact Nat.div_lt_of_lt_mul h
    have hlow : (UInt8.ofNat n).toNat = n % 256 := by simp
    rw [toLeBytes, fromLeBytes, ih hrest, hlow]
    omega

theorem getRange_eq_slice {bytes : Bytes} {offset width : Nat}
    (h : offset + width ≤ bytes.length) :
    getRange bytes offset width = some (Layout.slice bytes offset width) := if_pos h

/-- A field of an array is read back where the array stands. -/
theorem fromLeBytes_leArray {width i : Nat} {values : Nat → Nat} (hi : i < 32)
    (hvalue : values i < 256 ^ width) (pre post : Bytes) :
    getRange (pre ++ (leArray width values ++ post)) (pre.length + i * width) width =
      some (toLeBytes width (values i)) ∧ fromLeBytes (toLeBytes width (values i)) = values i := by
  refine ⟨?_, fromLeBytes_toLeBytes hvalue⟩
  rw [getRange_eq_slice]
  · exact congrArg some (Layout.slice_array (fun _ => length_toLeBytes _ _) hi pre post)
  · have hle : (i + 1) * width ≤ 32 * width := Nat.mul_le_mul_right width hi
    rw [Nat.add_mul, Nat.one_mul] at hle
    simp only [List.length_append, length_leArray]
    omega

section Reading

variable (output : GetProviderStatusOutput) {i : Nat}

theorem readU32_count (h : output.count < 2 ^ 32) :
    readU32 output.encode 0 = .ok output.count := by
  have hslice : Layout.slice output.encode 0 4 = toLeBytes 4 output.count := by
    simp only [GetProviderStatusOutput.encode, List.append_assoc]
    exact Layout.slice_of_length (length_toLeBytes 4 _) _
  have hlength : 0 + 4 ≤ output.encode.length := by
    rw [length_encode]
    decide
  rw [readU32, getRange_eq_slice hlength, hslice]
  exact congrArg Except.ok (fromLeBytes_toLeBytes h)

theorem readU32_stream (hi : i < 32) (h : output.stream i < 2 ^ 32) :
    readU32 output.encode (streamsOffset + i * 4) = .ok (output.stream i) := by
  have hread := @fromLeBytes_leArray 4 i output.stream hi h (toLeBytes 4 output.count)
    (leArray 4 output.collateralTier ++ (List.replicate 4 0 ++ (leArray 8 output.lockedCollateral ++
      (leArray 1 output.contributedToEntropy ++ leArray 4 output.lastUpdateTick))))
  simp only [length_toLeBytes] at hread
  simp only [readU32, GetProviderStatusOutput.encode, List.append_assoc, streamsOffset, hread.1,
    hread.2]

theorem readU32_tier (hi : i < 32) (h : output.collateralTier i < 2 ^ 32) :
    readU32 output.encode (tiersOffset + i * 4) = .ok (output.collateralTier i) := by
  have hread := @fromLeBytes_leArray 4 i output.collateralTier hi h
    (toLeBytes 4 output.count ++ leArray 4 output.stream)
    (List.replicate 4 0 ++ (leArray 8 output.lockedCollateral ++
      (leArray 1 output.contributedToEntropy ++ leArray 4 output.lastUpdateTick)))
  simp only [List.length_append, length_toLeBytes, length_leArray, List.append_assoc] at hread
  simp only [readU32, GetProviderStatusOutput.encode, List.append_assoc, tiersOffset, hread.1,
    hread.2]

theorem readU64_collateral (hi : i < 32) (h : output.lockedCollateral i < 2 ^ 64) :
    readU64 output.encode (collateralOffset + i * 8) = .ok (output.lockedCollateral i) := by
  have hread := @fromLeBytes_leArray 8 i output.lockedCollateral hi h
    (toLeBytes 4 output.count ++ leArray 4 output.stream ++ leArray 4 output.collateralTier ++
      List.replicate 4 0)
    (leArray 1 output.contributedToEntropy ++ leArray 4 output.lastUpdateTick)
  simp only [List.length_append, length_toLeBytes, length_leArray, List.length_replicate,
    List.append_assoc] at hread
  simp only [readU64, GetProviderStatusOutput.encode, List.append_assoc, collateralOffset, hread.1,
    hread.2]

theorem readU32_lastUpdate (hi : i < 32) (h : output.lastUpdateTick i < 2 ^ 32) :
    readU32 output.encode (lastUpdateOffset + i * 4) = .ok (output.lastUpdateTick i) := by
  have hread := @fromLeBytes_leArray 4 i output.lastUpdateTick hi h
    (toLeBytes 4 output.count ++ leArray 4 output.stream ++ leArray 4 output.collateralTier ++
      List.replicate 4 0 ++ leArray 8 output.lockedCollateral ++
      leArray 1 output.contributedToEntropy) []
  simp only [List.length_append, length_toLeBytes, length_leArray, List.length_replicate,
    List.append_assoc, List.append_nil] at hread
  simp only [readU32, GetProviderStatusOutput.encode, List.append_assoc, lastUpdateOffset, hread.1,
    hread.2]

theorem getD_contributed (hi : i < 32) (h : output.contributedToEntropy i < 256) :
    (output.encode.getD (contributedOffset + i) 0).toNat = output.contributedToEntropy i := by
  have hread := @Layout.slice_array _ (fun i => toLeBytes 1 (output.contributedToEntropy i)) 1
    (fun _ => length_toLeBytes _ _) 32 i hi
    (toLeBytes 4 output.count ++ leArray 4 output.stream ++ leArray 4 output.collateralTier ++
      List.replicate 4 0 ++ leArray 8 output.lockedCollateral) (leArray 4 output.lastUpdateTick)
  have hbytes : toLeBytes 4 output.count ++ leArray 4 output.stream ++
      leArray 4 output.collateralTier ++ List.replicate 4 0 ++ leArray 8 output.lockedCollateral ++
      (Layout.array 32 (fun i => toLeBytes 1 (output.contributedToEntropy i)) ++
        leArray 4 output.lastUpdateTick) = output.encode := by
    simp only [GetProviderStatusOutput.encode, leArray, List.append_assoc]
  rw [hbytes] at hread
  simp only [List.length_append, length_toLeBytes, length_leArray, List.length_replicate,
    Nat.mul_one] at hread
  change Layout.slice output.encode (contributedOffset + i) 1 = _ at hread
  have hget : output.encode[contributedOffset + i]? =
      some (UInt8.ofNat (output.contributedToEntropy i)) := by
    have hhead := congrArg List.head? hread
    simpa [Layout.slice, toLeBytes, List.head?_take, List.head?_drop] using hhead
  rw [List.getD_eq_getElem?_getD, hget, Option.getD_some]
  simp
  omega

end Reading

/-! ## What the output holds -/

/-- The stream and the tier of an entry. -/
def entryKey (entry : Fin 3 × Provider) : Fin 3 × Fin 10 := (entry.1, entry.2.collateralTier)

/-- The bit of a key in the mask of `ProviderStatus::decode`. -/
def keyBit (key : Fin 3 × Fin 10) : Nat := key.1 * 10 + key.2

theorem keyBit_injective : Function.Injective keyBit := by
  rintro ⟨stream, tier⟩ ⟨stream', tier'⟩ h
  unfold keyBit at h
  dsimp only at h
  ext <;> dsimp only <;> omega

/-- The decoded slot of an entry. -/
def slotOf (entry : Fin 3 × Provider) : ProviderSlot where
  key := { stream := entry.1, collateralTier := entry.2.collateralTier }
  lockedCollateral := entry.2.lockedCollateralAmount
  contributedToEntropy := entry.2.contributedToEntropyFlag
  lastUpdateTick := entry.2.lastUpdateTick

/-- The arrays hold the entry at the index. -/
structure GetProviderStatusOutput.HoldsAt (output : GetProviderStatusOutput) (i : Nat)
    (entry : Fin 3 × Provider) : Prop where
  stream : output.stream i = entry.1
  tier : output.collateralTier i = entry.2.collateralTier
  locked : output.lockedCollateral i = entry.2.lockedCollateralAmount
  contributed : output.contributedToEntropy i = if entry.2.contributedToEntropyFlag then 1 else 0
  updated : output.lastUpdateTick i = entry.2.lastUpdateTick

/-- The output holds the entries of the list, in order. -/
structure GetProviderStatusOutput.Holds (output : GetProviderStatusOutput)
    (entries : List (Fin 3 × Provider)) : Prop where
  count : output.count = entries.length
  at_index : ∀ i entry, entries[i]? = some entry → output.HoldsAt i entry

/-- The entries of a provider, stream by stream. -/
def heldBy (provider : Digest) (s : StateData) : List (Fin 3 × Provider) :=
  (List.finRange 3).flatMap fun stream =>
    ((s.streams stream).filter fun p => p.provider = provider).map (Prod.mk stream)

section Scan

variable {provider : Digest} {stream : Fin 3} {output : GetProviderStatusOutput}
  {entries : List (Fin 3 × Provider)}

theorem GetProviderStatusOutput.Holds.report (h : output.Holds entries) (p : Provider) :
    (output.report stream p).Holds (entries ++ [(stream, p)]) where
  count := by
    rw [List.length_append, ← h.count]
    rfl
  at_index := by
    intro i entry hget
    unfold GetProviderStatusOutput.report
    by_cases hi : i = output.count
    · rw [hi, h.count, List.getElem?_concat_length] at hget
      cases hget
      rw [hi]
      constructor <;> exact Function.update_self ..
    · have hold : entries[i]? = some entry := by
        rw [List.getElem?_append] at hget
        split at hget
        · exact hget
        · rw [h.count] at hi
          rw [List.getElem?_eq_none (by simp; omega)] at hget
          cases hget
      have hat := h.at_index i entry hold
      constructor <;> dsimp only <;> rw [Function.update_of_ne hi]
      · exact hat.stream
      · exact hat.tier
      · exact hat.locked
      · exact hat.contributed
      · exact hat.updated

/-- The loop over a stream adds the entries of the provider while there is room. -/
theorem GetProviderStatusOutput.Holds.scan (h : output.Holds entries) (providers : List Provider)
    (hroom : entries.length + (providers.filter fun p => p.provider = provider).length ≤ 32) :
    (providers.foldl (GetProviderStatusOutput.scan provider stream) output).Holds
      (entries ++ (providers.filter fun p => p.provider = provider).map (Prod.mk stream)) := by
  induction providers generalizing output entries with
  | nil => simpa using h
  | cons p providers ih =>
    rw [List.foldl_cons]
    by_cases hown : p.provider = provider
    · have hfilter : (p :: providers).filter (fun p => p.provider = provider) =
          p :: providers.filter fun p => p.provider = provider := by simp [hown]
      rw [hfilter] at hroom ⊢
      rw [List.length_cons] at hroom
      have hscan : GetProviderStatusOutput.scan provider stream output p =
          output.report stream p := by
        unfold GetProviderStatusOutput.scan
        rw [if_pos ⟨hown, by rw [h.count]; omega⟩]
      have hnext : (output.report stream p).Holds (entries ++ [(stream, p)]) := h.report p
      rw [hscan]
      have hrest := ih hnext (by
        rw [List.length_append, List.length_singleton]
        omega)
      simpa using hrest
    · have hfilter : (p :: providers).filter (fun p => p.provider = provider) =
          providers.filter fun p => p.provider = provider := by simp [hown]
      have hscan : GetProviderStatusOutput.scan provider stream output p = output := by
        unfold GetProviderStatusOutput.scan
        rw [if_neg fun hboth => hown hboth.1]
      rw [hfilter] at hroom ⊢
      rw [hscan]
      exact ih h hroom

theorem getProviderStatus_holds (s : StateData) (hroom : (heldBy provider s).length ≤ 32) :
    (getProviderStatus provider s).Holds (heldBy provider s) := by
  have hstreams : ∀ (streams : List (Fin 3)) (output : GetProviderStatusOutput)
      (entries : List (Fin 3 × Provider)), output.Holds entries →
        (entries ++ streams.flatMap fun stream => ((s.streams stream).filter
          fun p => p.provider = provider).map (Prod.mk stream)).length ≤ 32 →
        (streams.foldl (fun output stream =>
          (s.streams stream).foldl (.scan provider stream) output) output).Holds
            (entries ++ streams.flatMap fun stream => ((s.streams stream).filter
              fun p => p.provider = provider).map (Prod.mk stream)) := by
    intro streams
    induction streams with
    | nil =>
      intro output entries h _
      simpa using h
    | cons stream streams ih =>
      intro output entries h hroom
      rw [List.flatMap_cons, ← List.append_assoc] at hroom ⊢
      refine ih _ _ (h.scan (s.streams stream) ?_) hroom
      rw [List.length_append, List.length_append, List.length_map] at hroom
      omega
  have hzero : GetProviderStatusOutput.zero.Holds [] := ⟨rfl, by simp⟩
  exact hstreams (List.finRange 3) .zero [] hzero hroom

end Scan

/-! ## Decoding -/

section Decoding

variable {output : GetProviderStatusOutput} {entry : Fin 3 × Provider}

/-- The amounts and ticks of the entry fit their fields. -/
structure Provider.Fits (p : Provider) : Prop where
  locked : p.lockedCollateralAmount < 2 ^ 64
  updated : p.lastUpdateTick < 2 ^ 32

theorem decodeEntry_ok {i seen : Nat} (hi : i < 32) (h : output.HoldsAt i entry)
    (hfits : entry.2.Fits) (hnew : seen.testBit (keyBit (entryKey entry)) = false) :
    decodeEntry output.encode i seen =
      .ok (slotOf entry, seen ||| 1 <<< keyBit (entryKey entry)) := by
  have hstream := entry.1.isLt
  have htier := entry.2.collateralTier.isLt
  have hcontributed : output.contributedToEntropy i ≤ 1 := by
    rw [h.contributed]
    split <;> omega
  have hmask : seen &&& 1 <<< keyBit (entryKey entry) = 0 := by
    rw [Nat.one_shiftLeft, Nat.and_two_pow, hnew]
    simp
  unfold decodeEntry
  rw [readU32_stream output hi (by rw [h.stream]; omega),
    readU32_tier output hi (by rw [h.tier]; omega),
    getD_contributed output hi (by omega),
    readU64_collateral output hi (by rw [h.locked]; exact hfits.locked),
    readU32_lastUpdate output hi (by rw [h.updated]; exact hfits.updated)]
  simp only [bind, Except.bind, h.stream, h.tier, h.locked, h.contributed, h.updated]
  change seen &&& 1 <<< (entry.1.val * 10 + entry.2.collateralTier.val) = 0 at hmask
  rw [if_neg (by omega), if_neg (by omega), if_neg (by split <;> omega), if_neg (by simp [hmask])]
  cases hflag : entry.2.contributedToEntropyFlag <;> simp [slotOf, keyBit, entryKey, hflag]

/-- The loop of the decoder returns the entries the output holds. -/
theorem decodeEntries_ok {before entries : List (Fin 3 × Provider)} {seen : Nat}
    (h : output.Holds (before ++ entries)) (hroom : (before ++ entries).length ≤ 32)
    (hfits : ∀ entry ∈ entries, entry.2.Fits) (hkeys : (entries.map entryKey).Nodup)
    (hseen : ∀ entry ∈ entries, seen.testBit (keyBit (entryKey entry)) = false) :
    decodeEntries output.encode before.length entries.length seen = .ok (entries.map slotOf) := by
  induction entries generalizing before seen with
  | nil => rfl
  | cons entry entries ih =>
    have hat := h.at_index before.length entry (by simp)
    have hi : before.length < 32 := by
      simp only [List.length_append, List.length_cons] at hroom
      omega
    rw [List.map_cons, List.nodup_cons] at hkeys
    have hentry := decodeEntry_ok hi hat (hfits entry (by simp)) (hseen entry (by simp))
    have hrest : decodeEntries output.encode (before ++ [entry]).length entries.length
        (seen ||| 1 <<< keyBit (entryKey entry)) = .ok (entries.map slotOf) := by
      apply ih
      · simpa using h
      · simpa using hroom
      · intro other hmem
        exact hfits other (List.mem_cons_of_mem _ hmem)
      · exact hkeys.2
      · -- the bit just set is that of another key
        intro other hmem
        have hne : keyBit (entryKey entry) ≠ keyBit (entryKey other) := by
          intro heq
          apply hkeys.1
          rw [keyBit_injective heq]
          exact List.mem_map_of_mem hmem
        rw [Nat.testBit_or, hseen other (List.mem_cons_of_mem _ hmem), Nat.one_shiftLeft,
          Nat.testBit_two_pow_of_ne hne, Bool.or_false]
    rw [List.length_append, List.length_singleton] at hrest
    simp only [List.length_cons, decodeEntries, hentry, bind, Except.bind, hrest, List.map_cons]

/-- Entries with distinct keys are decoded, all of them. -/
theorem decode_ok {provider : Digest} {s : StateData}
    (hkeys : ((heldBy provider s).map entryKey).Nodup)
    (hfits : ∀ entry ∈ heldBy provider s, entry.2.Fits) :
    ProviderStatus.decode (getProviderStatus provider s).encode =
      .ok { slots := (heldBy provider s).map slotOf } := by
  have hlength : (heldBy provider s).length ≤ 30 := by
    have hle := List.Nodup.length_le_card hkeys
    simpa using hle
  have hholds := @getProviderStatus_holds provider s (by omega)
  have hentries := @decodeEntries_ok _ [] (heldBy provider s) 0 hholds (by
    rw [List.nil_append]
    omega) hfits hkeys (by simp)
  have hcount := hholds.count
  unfold ProviderStatus.decode
  rw [if_neg (by simp [length_encode]), readU32_count _ (by omega)]
  simp only [bind, Except.bind]
  rw [if_neg (by rw [hcount]; simp only [maxProviderSlots]; omega), hcount]
  simp only [List.length_nil] at hentries
  rw [hentries]

end Decoding

/-! ## Reachable states -/

/-- The states of the contract in a tick, from the one `INITIALIZE` leaves: calls
come within the tick, and its end takes the contract to a later one. Ticks are
32-bit. -/
inductive Reached (qpi : Qpi) : Nat → StateData → Prop where
  | initial {tick : Nat} (htick : tick ≤ u32Max) : Reached qpi tick emptyContract
  | call {tick : Nat} {s : StateData} (h : Reached qpi tick s) (invocator : Digest)
      (invocationReward : Nat) (input : RevealAndCommitInput) :
      Reached qpi tick (revealAndCommit qpi tick invocator invocationReward input s).1
  | endTick {tick next : Nat} {s : StateData} (h : Reached qpi tick s) (hlater : tick < next)
      (hnext : next ≤ u32Max) : Reached qpi next (endTick tick s).1

theorem Reached.tick_le {qpi : Qpi} {tick : Nat} {s : StateData} (h : Reached qpi tick s) :
    tick ≤ u32Max := by
  induction h with
  | initial htick => exact htick
  | call _ _ _ _ ih => exact ih
  | endTick _ _ hnext => exact hnext

/-- A provider has one entry at most for each stream and tier, and the entries
fit their fields. -/
structure StateData.WellFormed (s : StateData) : Prop where
  unique : ∀ stream provider tier, (s.enrolment stream provider tier).length ≤ 1
  fits : ∀ stream, ∀ p ∈ s.streams stream, p.Fits

section WellFormed

variable {qpi : Qpi} {tick : Nat} {s : StateData}

theorem emptyContract_wellFormed : emptyContract.WellFormed where
  unique _ _ _ := Nat.zero_le 1
  fits _ p hp := by cases hp

theorem collateralTierOf_le {invocationReward : Nat} {tier : Fin 10}
    (h : collateralTierOf invocationReward = some tier) : invocationReward < 2 ^ 64 := by
  have hreward : invocationReward = 10 ^ tier.val := by
    have hfound := List.find?_some h
    simpa using hfound
  have hle : 10 ^ tier.val ≤ 10 ^ 9 := Nat.pow_le_pow_right (by decide) (by omega)
  rw [hreward]
  exact lt_of_le_of_lt hle (by decide)

/-- Entries of a stream that a call or a tick leaves keep the state well formed. -/
theorem StateData.WellFormed.of_streams (h : s.WellFormed) {s' : StateData} {stream : Fin 3}
    (hother : ∀ other, other ≠ stream → s'.streams other = s.streams other)
    (hunique : ∀ provider tier,
      ((s'.streams stream).filter (isOwn provider tier)).length ≤ 1)
    (hfits : ∀ p ∈ s'.streams stream, p.Fits) : s'.WellFormed where
  unique other provider tier := by
    by_cases hsame : other = stream
    · rw [hsame]
      exact hunique provider tier
    · have hunique := h.unique other provider tier
      unfold StateData.enrolment at hunique ⊢
      rw [hother other hsame]
      exact hunique
  fits other := by
    by_cases hsame : other = stream
    · rw [hsame]
      exact hfits
    · rw [hother other hsame]
      exact h.fits other

theorem setStream_other {stream other : Fin 3} (h : other ≠ stream) (providers : List Provider) :
    (s.setStream stream providers).streams other = s.streams other :=
  Function.update_of_ne h _ _

theorem setStream_self (stream : Fin 3) (providers : List Provider) :
    (s.setStream stream providers).streams stream = providers := Function.update_self _ _ _

theorem revealAndCommit_wellFormed (h : s.WellFormed) (htick : tick ≤ u32Max)
    (invocator : Digest) (invocationReward : Nat) (input : RevealAndCommitInput) :
    (revealAndCommit qpi tick invocator invocationReward input s).1.WellFormed := by
  have hupdated : tick < 2 ^ 32 := by
    have hmax : u32Max < 2 ^ 32 := by decide
    omega
  rcases revealAndCommit_cases qpi tick invocator invocationReward input s with heq |
    ⟨tier', i, p, lockedAmount, htier, hlocked, hverified, heq⟩ | ⟨tier', htier, hnone, heq⟩
  · rw [heq]
    exact h
  · -- an entry is answered in its place
    rw [heq]
    rcases verifiedProvider_eq_some hverified with ⟨hget, -, -⟩
    rcases split_of_getElem? hget with ⟨front, back, hsplit, hset⟩
    apply h.of_streams (fun other hne => setStream_other hne _)
    · intro provider tier
      have hunique := h.unique (streamOf tick) provider tier
      rw [StateData.enrolment, hsplit, List.filter_append, List.filter_cons] at hunique
      rw [setStream_self, hset, List.filter_append, List.filter_cons, isOwn_revealed]
      split at hunique
      · rw [if_pos ‹_›]
        simpa using hunique
      · rw [if_neg ‹_›]
        exact hunique
    · intro p' hp'
      rw [setStream_self] at hp'
      rcases List.mem_or_eq_of_mem_set hp' with hp' | rfl
      · exact h.fits _ p' hp'
      · exact ⟨lt_of_le_of_lt hlocked (collateralTierOf_le htier), hupdated⟩
  · -- a provider without an entry enrols
    rw [heq]
    apply h.of_streams (fun other hne => setStream_other hne _)
    · intro provider tier
      have hunique := h.unique (streamOf tick) provider tier
      rw [StateData.enrolment] at hunique
      rw [setStream_self, List.filter_append, List.length_append]
      cases hown : isOwn provider tier
        (.enrolled invocator tier' input.commit invocationReward tick) with
      | false =>
        rw [List.filter_cons_of_neg (by simp [hown])]
        exact hunique
      | true =>
        rcases isOwn_iff.1 hown with ⟨rfl, rfl⟩
        have hempty := findProvider_eq_none.1 hnone
        change (List.filter (isOwn invocator tier') _).length + _ ≤ 1
        rw [hempty, List.length_nil, Nat.zero_add]
        exact List.length_filter_le _ _
    · intro p' hp'
      rw [setStream_self] at hp'
      rcases List.mem_append.1 hp' with hp' | hp'
      · exact h.fits _ p' hp'
      · rw [List.mem_singleton.1 hp']
        exact ⟨collateralTierOf_le htier, hupdated⟩

/-- A walk that keeps keys, amounts and ticks keeps a stream well formed. -/
theorem endTick_wellFormed (h : s.WellFormed) (tick : Nat) : (endTick tick s).1.WellFormed := by
  have hcleared : ∀ p ∈ s.cleared (streamOf tick), p.Fits := by
    intro p hp
    rcases List.mem_map.1 hp with ⟨p', hp', rfl⟩
    have hfits := h.fits _ p' hp'
    exact ⟨hfits.locked, hfits.updated⟩
  have hunique : ∀ provider tier,
      ((s.cleared (streamOf tick)).filter (isOwn provider tier)).length ≤ 1 := by
    intro provider tier
    rw [filter_cleared, List.length_map]
    exact h.unique _ provider tier
  have hother : ∀ other, other ≠ streamOf tick →
      (endTick tick s).1.streams other = s.streams other := by
    intro other hne
    unfold endTick
    dsimp only
    split <;> exact Function.update_of_ne hne _ _
  have hsilent : ∀ (p : Provider) (payments : List Payment), p.Fits →
      ∀ p' ∈ (visitSilent p payments).2, p'.Fits := by
    intro p payments hp p' hp'
    unfold visitSilent at hp'
    split at hp'
    · cases hp'
      exact ⟨hp.locked, hp.updated⟩
    · cases hp'
  have hrevealing : ∀ (p : Provider) (w : EndTick), p.Fits →
      ∀ p' ∈ (visitRevealing (streamOf tick) p w).2, p'.Fits := by
    intro p w hp p' hp'
    unfold visitRevealing at hp'
    split at hp'
    · dsimp only at hp'
      split at hp'
      · cases hp'
      · cases hp'
        exact ⟨hp.locked, hp.updated⟩
    · cases hp'
  rcases endTick_cases tick s with ⟨-, w, -, hstream, -⟩ | ⟨-, hstream, -⟩
  · apply h.of_streams hother
    · intro provider tier
      rw [hstream]
      exact (SwapDelete.walk_filter_length_le (visitRevealing_isOwn _) _ _).trans
        (hunique provider tier)
    · rw [hstream]
      exact SwapDelete.walk_forall Provider.Fits hrevealing hcleared _
  · apply h.of_streams hother
    · intro provider tier
      rw [hstream]
      exact (SwapDelete.walk_filter_length_le visitSilent_isOwn _ _).trans (hunique provider tier)
    · rw [hstream]
      exact SwapDelete.walk_forall Provider.Fits hsilent hcleared _

theorem Reached.wellFormed (h : Reached qpi tick s) : s.WellFormed := by
  induction h with
  | initial => exact emptyContract_wellFormed
  | call h invocator invocationReward input ih =>
    exact revealAndCommit_wellFormed ih h.tick_le invocator invocationReward input
  | endTick _ _ _ ih => exact endTick_wellFormed ih _

end WellFormed

/-! ## The result -/

section Truth

variable {provider : Digest} {s : StateData}

theorem mem_heldBy {entry : Fin 3 × Provider} :
    entry ∈ heldBy provider s ↔ entry.2 ∈ s.streams entry.1 ∧ entry.2.provider = provider := by
  rcases entry with ⟨stream, p⟩
  simp [heldBy]

/-- A provider holds each stream and tier once. -/
theorem StateData.WellFormed.keys_nodup (h : s.WellFormed) (provider : Digest) :
    ((heldBy provider s).map entryKey).Nodup := by
  have hstream : ∀ stream, (((s.streams stream).filter fun p => p.provider = provider).map
      fun p => entryKey (stream, p)).Nodup := by
    intro stream
    rw [List.nodup_iff_count_le_one]
    rintro ⟨stream', tier⟩
    refine le_trans ?_ (h.unique stream provider tier)
    rw [List.count, List.countP_map, List.countP_filter, List.countP_eq_length_filter]
    apply List.Sublist.length_le
    apply List.monotone_filter_right
    intro p hp
    simp only [Function.comp, entryKey, Bool.and_eq_true, beq_iff_eq, decide_eq_true_eq,
      Prod.mk.injEq] at hp
    exact isOwn_iff.2 ⟨hp.2, hp.1.2⟩
  unfold heldBy
  rw [List.map_flatMap, List.nodup_flatMap]
  constructor
  · intro stream _
    rw [List.map_map]
    exact hstream stream
  · apply (List.nodup_finRange 3).imp
    intro stream stream' hne
    refine List.disjoint_left.2 fun key hkey hkey' => ?_
    rcases List.mem_map.1 hkey with ⟨entry, hentry, rfl⟩
    rcases List.mem_map.1 hkey' with ⟨entry', hentry', heq⟩
    rcases List.mem_map.1 hentry with ⟨p, -, rfl⟩
    rcases List.mem_map.1 hentry' with ⟨p', -, rfl⟩
    exact hne (congrArg Prod.fst heq).symm

/-- The decoded slot of a key is that of the entry with the key. -/
theorem StateData.WellFormed.slot_eq (h : s.WellFormed) {entry : Fin 3 × Provider}
    (hmem : entry ∈ heldBy provider s) :
    ProviderStatus.slot { slots := (heldBy provider s).map slotOf } (slotOf entry).key =
      some (slotOf entry) := by
  unfold ProviderStatus.slot
  have hsome : ((heldBy provider s).map slotOf).find? (fun slot => slot.key = (slotOf entry).key) ≠
      none := by
    rw [ne_eq, List.find?_eq_none]
    intro hnone
    exact hnone _ (List.mem_map_of_mem hmem) (decide_eq_true rfl)
  rcases Option.ne_none_iff_exists'.1 hsome with ⟨slot, hslot⟩
  rw [hslot]
  rcases List.mem_map.1 (List.mem_of_find?_eq_some hslot) with ⟨other, hother, rfl⟩
  have hkey : (slotOf other).key = (slotOf entry).key := by
    have hfound := List.find?_some hslot
    simpa using hfound
  -- no other entry has the key
  have hsame : entryKey other = entryKey entry := by
    have hstream := congrArg SlotKey.stream hkey
    have htier := congrArg SlotKey.collateralTier hkey
    exact Prod.ext (Fin.ext hstream) (Fin.ext htier)
  rw [List.inj_on_of_nodup_map (h.keys_nodup provider) hother hmem hsame]

end Truth

/-- Every state the contract reaches has a status that decodes, for every
provider, and the decoded status has the slot of a stream and a tier exactly
when the provider has an entry there, with the collateral, the contribution and
the last update of that entry. -/
theorem status_decodes_to_the_truth {qpi : Qpi} {tick : Nat} {s : StateData}
    (h : Reached qpi tick s) (provider : Digest) :
    (getProviderStatus provider s).encode.length = 680 ∧
    ∃ status, ProviderStatus.decode (getProviderStatus provider s).encode = .ok status ∧
      ∀ (stream : Fin 3) (tier : Fin 10),
        ((status.slot { stream := stream, collateralTier := tier }).isSome ↔
          ∃ p ∈ s.streams stream, p.provider = provider ∧ p.collateralTier = tier) ∧
        ∀ p ∈ s.streams stream, p.provider = provider → p.collateralTier = tier →
          status.slot { stream := stream, collateralTier := tier } = some
            { key := { stream := stream, collateralTier := tier }
              lockedCollateral := p.lockedCollateralAmount
              contributedToEntropy := p.contributedToEntropyFlag
              lastUpdateTick := p.lastUpdateTick } := by
  have hwell := h.wellFormed
  have hdecode := decode_ok (hwell.keys_nodup provider) fun entry hmem =>
    hwell.fits entry.1 entry.2 (mem_heldBy.1 hmem).1
  refine ⟨length_encode _, _, hdecode, ?_⟩
  intro stream tier
  have hslot : ∀ p ∈ s.streams stream, p.provider = provider → p.collateralTier = tier →
      ProviderStatus.slot { slots := (heldBy provider s).map slotOf }
        { stream := stream, collateralTier := tier } = some (slotOf (stream, p)) := by
    rintro p hp hprovider rfl
    exact @StateData.WellFormed.slot_eq provider s hwell (stream, p) (mem_heldBy.2 ⟨hp, hprovider⟩)
  refine ⟨⟨?_, ?_⟩, ?_⟩
  · intro hsome
    rcases Option.isSome_iff_exists.1 hsome with ⟨slot, hfound⟩
    rcases List.mem_map.1 (List.mem_of_find?_eq_some hfound) with ⟨⟨stream', p⟩, hmem, rfl⟩
    have hkey : (slotOf (stream', p)).key = { stream := stream, collateralTier := tier } := by
      have hsame := List.find?_some hfound
      simpa using hsame
    have hstream : stream' = stream := Fin.ext (congrArg SlotKey.stream hkey)
    have htier : p.collateralTier = tier := Fin.ext (congrArg SlotKey.collateralTier hkey)
    rcases mem_heldBy.1 hmem with ⟨hp, hprovider⟩
    rw [← hstream]
    exact ⟨p, hp, hprovider, htier⟩
  · rintro ⟨p, hp, hprovider, htier⟩
    rw [hslot p hp hprovider htier]
    rfl
  · rintro p hp hprovider rfl
    exact hslot p hp hprovider rfl

/-- A provider of stream 1 at tier 1 after the tick of its first commit. -/
theorem status_decodes_to_the_truth_enrolled :
    let s := (endTick 7 (revealAndCommit sampleQpi 7 sampleProvider 10
      { reveal := Preimage.zero, commit := List.Vector.replicate 32 7 } emptyContract).1).1
    ∃ status, ProviderStatus.decode (getProviderStatus sampleProvider s).encode = .ok status ∧
      status.slot { stream := 1, collateralTier := 1 } = some
        { key := { stream := 1, collateralTier := 1 }
          lockedCollateral := 10
          contributedToEntropy := false
          lastUpdateTick := 7 } ∧
      status.slot { stream := 2, collateralTier := 1 } = none := by
  intro s
  have hinitial : Reached sampleQpi 7 emptyContract := .initial (by decide)
  have hreached : Reached sampleQpi 8 s := .endTick (.call hinitial _ _ _) (by decide) (by decide)
  rcases (status_decodes_to_the_truth hreached sampleProvider).2 with ⟨status, hdecode, hslots⟩
  refine ⟨status, hdecode, ?_, ?_⟩
  · exact (hslots 1 1).2 { Provider.enrolled sampleProvider 1 (List.Vector.replicate 32 7) 10 7 with
      revealOrCommitFlag := false } (by decide +kernel) rfl rfl
  · rw [← Option.not_isSome_iff_eq_none]
    intro hsome
    rcases (hslots 2 1).1.1 hsome with ⟨p, hp, -⟩
    have hnil : s.streams 2 = [] := by decide +kernel
    rw [hnil] at hp
    cases hp

end RandomClient.Contract
