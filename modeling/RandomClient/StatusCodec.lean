import RandomClient.StatusOutput

/-!
# The strict status codec

`ProviderStatus::decode` over all byte strings. Six arrays stand in the 680 bytes;
`Field` names the five of the entries with their offsets and widths, so that every
fact about reading and writing them is one fact about a field and an index.
`decode_ok_iff` says which strings are accepted and with what result.
-/

namespace RandomClient

open Contract

/-! ## Fields -/

/-- The arrays of the entries. -/
inductive Field where
  | stream
  | tier
  | collateral
  | contributed
  | lastUpdate
deriving DecidableEq

def Field.offset : Field → Nat
  | .stream => streamsOffset
  | .tier => tiersOffset
  | .collateral => collateralOffset
  | .contributed => contributedOffset
  | .lastUpdate => lastUpdateOffset

def Field.width : Field → Nat
  | .stream => 4
  | .tier => 4
  | .collateral => 8
  | .contributed => 1
  | .lastUpdate => 4

/-- Where the field of an entry starts. -/
def Field.start (f : Field) (k : Nat) : Nat := f.offset + k * f.width

theorem Field.end_le (f : Field) {k : Nat} (hk : k < maxProviderSlots) :
    f.start k + f.width ≤ providerStatusSize := by
  have hk' : k < 32 := hk
  show f.offset + k * f.width + f.width ≤ 680
  cases f <;> dsimp only [Field.offset, Field.width, streamsOffset,
    tiersOffset, collateralOffset, contributedOffset, lastUpdateOffset] <;> omega

/-- Two fields do not overlap. -/
theorem Field.apart {f g : Field} {j k : Nat} (hj : j < maxProviderSlots)
    (hk : k < maxProviderSlots) (hne : ¬ (f = g ∧ j = k)) :
    f.start j + f.width ≤ g.start k ∨ g.start k + g.width ≤ f.start j := by
  have hj' : j < 32 := hj
  have hk' : k < 32 := hk
  have hindex : f = g → j ≠ k := fun hf hindex => hne ⟨hf, hindex⟩
  unfold Field.start
  -- two fields of one array are apart by their indices, those of two arrays by the offsets
  cases f <;> cases g <;> dsimp only [Field.offset, Field.width, streamsOffset,
    tiersOffset, collateralOffset, contributedOffset, lastUpdateOffset] <;> simp at hindex <;> omega

/-- No field overlaps the count. -/
theorem Field.after_count (f : Field) (k : Nat) : 4 ≤ f.start k := by
  unfold Field.start
  cases f <;> dsimp only [Field.offset, Field.width, streamsOffset,
    tiersOffset, collateralOffset, contributedOffset, lastUpdateOffset] <;> omega

/-- The little-endian value of a field. -/
def fieldAt (bytes : Bytes) (f : Field) (k : Nat) : Nat :=
  fromLeBytes (Layout.slice bytes (f.start k) f.width)

/-- The little-endian count. -/
def countAt (bytes : Bytes) : Nat := fromLeBytes (Layout.slice bytes 0 4)

/-- The entry the fields at an index stand for. -/
def entryAt (bytes : Bytes) (k : Nat) : ProviderSlot where
  key := { stream := fieldAt bytes .stream k, collateralTier := fieldAt bytes .tier k }
  lockedCollateral := fieldAt bytes .collateral k
  contributedToEntropy := fieldAt bytes .contributed k = 1
  lastUpdateTick := fieldAt bytes .lastUpdate k

/-- The three checked fields are in range. -/
structure FieldsValid (bytes : Bytes) (k : Nat) : Prop where
  stream : fieldAt bytes .stream k ≤ 2
  tier : fieldAt bytes .tier k ≤ 9
  contributed : fieldAt bytes .contributed k ≤ 1

/-- The strings the codec is to accept. -/
structure Accepted (bytes : Bytes) : Prop where
  length : bytes.length = providerStatusSize
  count : countAt bytes ≤ maxProviderSlots
  fields : ∀ k < countAt bytes, FieldsValid bytes k
  distinct : ∀ j k, j < k → k < countAt bytes → (entryAt bytes j).key ≠ (entryAt bytes k).key

theorem fromLeBytes_lt (bytes : Bytes) : fromLeBytes bytes < 256 ^ bytes.length := by
  induction bytes with
  | nil => decide
  | cons b bytes ih =>
    have hb := b.toNat_lt
    rw [fromLeBytes, List.length_cons, Nat.pow_succ]
    omega

theorem fieldAt_lt (bytes : Bytes) (f : Field) (k : Nat) :
    fieldAt bytes f k < 256 ^ f.width := by
  refine lt_of_lt_of_le (fromLeBytes_lt _) ?_
  apply Nat.pow_le_pow_right (by decide)
  unfold Layout.slice
  exact List.length_take_le _ _

/-! ## Reading -/

section Reading

variable {bytes : Bytes} {k : Nat}

theorem readU32_eq {offset : Nat} (h : offset + 4 ≤ bytes.length) :
    readU32 bytes offset = .ok (fromLeBytes (Layout.slice bytes offset 4)) := by
  rw [readU32, getRange_eq_slice h]

theorem readU64_eq {offset : Nat} (h : offset + 8 ≤ bytes.length) :
    readU64 bytes offset = .ok (fromLeBytes (Layout.slice bytes offset 8)) := by
  rw [readU64, getRange_eq_slice h]

theorem getD_contributed_eq (hlen : bytes.length = providerStatusSize)
    (hk : k < maxProviderSlots) :
    (bytes.getD (contributedOffset + k) 0).toNat = fieldAt bytes .contributed k := by
  have hlt : contributedOffset + k < bytes.length := by
    rw [hlen]
    simp only [contributedOffset, providerStatusSize, maxProviderSlots] at hk ⊢
    omega
  have hslice : Layout.slice bytes (Field.contributed.start k) 1 = [bytes[contributedOffset + k]] := by
    unfold Layout.slice Field.start
    show (bytes.drop (contributedOffset + k * 1)).take 1 = _
    rw [Nat.mul_one, List.drop_eq_getElem_cons hlt]
    rfl
  show _ = fromLeBytes (Layout.slice bytes (Field.contributed.start k) 1)
  rw [hslice, List.getD_eq_getElem?_getD, List.getElem?_eq_getElem hlt]
  simp [fromLeBytes]

/-- The bit of the key in the mask of the loop. -/
def bitAt (bytes : Bytes) (k : Nat) : Nat :=
  fieldAt bytes .stream k * 10 + fieldAt bytes .tier k

/-- One round of the loop by the values of the fields. -/
theorem decodeEntry_eq (hlen : bytes.length = providerStatusSize) (hk : k < maxProviderSlots)
    (seen : Nat) :
    decodeEntry bytes k seen =
      if fieldAt bytes .stream k > 2 then
        .error s!"slot {k} has invalid stream {fieldAt bytes .stream k}"
      else if fieldAt bytes .tier k > 9 then
        .error s!"slot {k} has invalid collateral tier {fieldAt bytes .tier k}"
      else if fieldAt bytes .contributed k > 1 then
        .error s!"slot {k} has invalid contribution flag {fieldAt bytes .contributed k}"
      else if seen &&& 1 <<< bitAt bytes k ≠ 0 then
        .error s!"slot {k} duplicates stream {fieldAt bytes .stream k}, tier {fieldAt bytes .tier k}"
      else .ok (entryAt bytes k, seen ||| 1 <<< bitAt bytes k) := by
  have hend : ∀ f : Field, f.start k + f.width ≤ bytes.length := by
    intro f
    rw [hlen]
    exact f.end_le hk
  have hstream : readU32 bytes (streamsOffset + k * 4) = .ok (fieldAt bytes .stream k) :=
    readU32_eq (hend .stream)
  have htier : readU32 bytes (tiersOffset + k * 4) = .ok (fieldAt bytes .tier k) :=
    readU32_eq (hend .tier)
  have hcollateral : readU64 bytes (collateralOffset + k * 8) = .ok (fieldAt bytes .collateral k) :=
    readU64_eq (hend .collateral)
  have hupdated : readU32 bytes (lastUpdateOffset + k * 4) = .ok (fieldAt bytes .lastUpdate k) :=
    readU32_eq (hend .lastUpdate)
  unfold decodeEntry
  rw [hstream, htier, hcollateral, hupdated, getD_contributed_eq hlen hk]
  rfl

theorem and_shift_eq_zero {seen bit : Nat} :
    seen &&& 1 <<< bit = 0 ↔ seen.testBit bit = false := by
  rw [Nat.one_shiftLeft, Nat.and_two_pow]
  cases seen.testBit bit with
  | false => simp
  | true => simp

/-- An entry is decoded exactly when its fields are valid and its bit is new. -/
theorem decodeEntry_ok_iff (hlen : bytes.length = providerStatusSize) (hk : k < maxProviderSlots)
    {seen : Nat} {result : ProviderSlot × Nat} :
    decodeEntry bytes k seen = .ok result ↔
      FieldsValid bytes k ∧ seen.testBit (bitAt bytes k) = false ∧
        result = (entryAt bytes k, seen ||| 1 <<< bitAt bytes k) := by
  rw [decodeEntry_eq hlen hk]
  constructor
  · intro h
    split at h
    · cases h
    · next hstream =>
      split at h
      · cases h
      · next htier =>
        split at h
        · cases h
        · next hcontributed =>
          split at h
          · cases h
          · next hnew =>
            refine ⟨⟨by omega, by omega, by omega⟩, ?_, (Except.ok.inj h).symm⟩
            exact and_shift_eq_zero.1 (not_not.1 hnew)
  · rintro ⟨hvalid, hnew, rfl⟩
    have hstream := hvalid.stream
    have htier := hvalid.tier
    have hcontributed := hvalid.contributed
    rw [if_neg (by omega), if_neg (by omega), if_neg (by omega),
      if_neg (not_not.2 (and_shift_eq_zero.2 hnew))]

end Reading

/-! ## The loop -/

/-- The bits of two valid keys differ when the keys do. -/
theorem bitAt_inj {bytes : Bytes} {j k : Nat} (hj : FieldsValid bytes j) (hk : FieldsValid bytes k) :
    bitAt bytes j = bitAt bytes k ↔ (entryAt bytes j).key = (entryAt bytes k).key := by
  have htier := hj.tier
  have htier' := hk.tier
  simp only [entryAt, SlotKey.mk.injEq, bitAt]
  omega

theorem testBit_or_shift {seen bit other : Nat} :
    (seen ||| 1 <<< bit).testBit other = false ↔ seen.testBit other = false ∧ other ≠ bit := by
  rw [Nat.testBit_or, Nat.one_shiftLeft, Nat.testBit_two_pow, Bool.or_eq_false_iff,
    decide_eq_false_iff_not]
  exact and_congr_right fun _ => ne_comm

/-- The loop succeeds exactly when every entry is valid and every bit is new, to the
mask it starts with and among the entries. -/
theorem decodeEntries_ok_iff {bytes : Bytes} (hlen : bytes.length = providerStatusSize)
    {remaining index seen : Nat} {slots : List ProviderSlot}
    (hroom : index + remaining ≤ maxProviderSlots) :
    decodeEntries bytes index remaining seen = .ok slots ↔
      (∀ k, index ≤ k → k < index + remaining →
        FieldsValid bytes k ∧ seen.testBit (bitAt bytes k) = false) ∧
      (∀ j k, index ≤ j → j < k → k < index + remaining → bitAt bytes j ≠ bitAt bytes k) ∧
      slots = (List.range' index remaining).map (entryAt bytes) := by
  induction remaining generalizing index seen slots with
  | zero =>
    constructor
    · intro h
      refine ⟨fun k hlow hhigh => by omega, fun j k hlow hlt hhigh => by omega, ?_⟩
      exact (Except.ok.inj h).symm
    · rintro ⟨_, _, rfl⟩
      rfl
  | succ remaining ih =>
    have hindex : index < maxProviderSlots := by omega
    have hnext : index + 1 + remaining ≤ maxProviderSlots := by omega
    constructor
    · intro h
      rw [decodeEntries] at h
      cases hentry : decodeEntry bytes index seen with
      | error err =>
        rw [hentry] at h
        cases h
      | ok first =>
        rw [hentry] at h
        cases hrest : decodeEntries bytes (index + 1) remaining first.2 with
        | error err =>
          simp only [bind, Except.bind, hrest] at h
          cases h
        | ok rest =>
          simp only [bind, Except.bind, hrest] at h
          rcases (decodeEntry_ok_iff hlen hindex).1 hentry with ⟨hvalid, hnew, hfirst⟩
          rw [hfirst] at hrest h
          rcases (ih hnext).1 hrest with ⟨hfields, hdistinct, hslots⟩
          refine ⟨?_, ?_, ?_⟩
          · intro k hlow hhigh
            by_cases hk : k = index
            · rw [hk]
              exact ⟨hvalid, hnew⟩
            · have hlater := hfields k (by omega) (by omega)
              exact ⟨hlater.1, (testBit_or_shift.1 hlater.2).1⟩
          · intro j k hlow hlt hhigh
            by_cases hj : j = index
            · -- the mask of the rest holds the bit of the first entry
              have hlater := hfields k (by omega) (by omega)
              rw [hj]
              exact (testBit_or_shift.1 hlater.2).2.symm
            · exact hdistinct j k (by omega) hlt (by omega)
          · rw [List.range'_succ, List.map_cons, ← hslots]
            exact (Except.ok.inj h).symm
    · rintro ⟨hfields, hdistinct, rfl⟩
      have hfirst := hfields index (Nat.le_refl _) (by omega)
      have hentry := (@decodeEntry_ok_iff bytes index hlen hindex seen _).2 ⟨hfirst.1, hfirst.2, rfl⟩
      have hrest := (@ih (index + 1) (seen ||| 1 <<< bitAt bytes index) _ hnext).2 ⟨?_, ?_, rfl⟩
      · rw [decodeEntries, hentry]
        simp only [bind, Except.bind, hrest]
        rw [List.range'_succ, List.map_cons]
      · intro k hlow hhigh
        have hlater := hfields k (by omega) (by omega)
        refine ⟨hlater.1, testBit_or_shift.2 ⟨hlater.2, ?_⟩⟩
        exact (hdistinct index k (Nat.le_refl _) (by omega) (by omega)).symm
      · intro j k hlow hlt hhigh
        exact hdistinct j k (by omega) hlt (by omega)

/-- The codec accepts exactly the strings it is to accept, with the entries their
fields stand for. -/
theorem decode_ok_iff {bytes : Bytes} {status : ProviderStatus} :
    ProviderStatus.decode bytes = .ok status ↔
      Accepted bytes ∧ status.slots = (List.range (countAt bytes)).map (entryAt bytes) := by
  unfold ProviderStatus.decode
  by_cases hlen : bytes.length = providerStatusSize
  · have hcount : readU32 bytes 0 = .ok (countAt bytes) := by
      apply readU32_eq
      rw [hlen]
      decide
    rw [if_neg (not_not.2 hlen), hcount]
    simp only [bind, Except.bind]
    by_cases hover : countAt bytes > maxProviderSlots
    · rw [if_pos hover]
      constructor
      · intro h
        cases h
      · intro h
        have hle := h.1.count
        omega
    · have hroom : 0 + countAt bytes ≤ maxProviderSlots := by omega
      rw [if_neg hover]
      constructor
      · intro h
        cases hentries : decodeEntries bytes 0 (countAt bytes) 0 with
        | error err =>
          rw [hentries] at h
          cases h
        | ok slots =>
          rw [hentries] at h
          rcases (decodeEntries_ok_iff hlen hroom).1 hentries with ⟨hfields, hdistinct, hslots⟩
          have hvalid : ∀ k < countAt bytes, FieldsValid bytes k := fun k hk =>
            (hfields k (Nat.zero_le k) (by omega)).1
          refine ⟨⟨hlen, Nat.not_lt.1 hover, hvalid, ?_⟩, ?_⟩
          · intro j k hlt hk hkey
            exact hdistinct j k (Nat.zero_le j) hlt (by omega)
              ((bitAt_inj (hvalid j (by omega)) (hvalid k hk)).2 hkey)
          · rw [List.range_eq_range', ← hslots]
            exact congrArg ProviderStatus.slots (Except.ok.inj h).symm
      · rintro ⟨haccepted, hslots⟩
        have hentries := (@decodeEntries_ok_iff bytes hlen (countAt bytes) 0 0
          ((List.range' 0 (countAt bytes)).map (entryAt bytes)) hroom).2 ⟨?_, ?_, rfl⟩
        · rw [hentries, ← List.range_eq_range', ← hslots]
        · intro k _ hk
          exact ⟨haccepted.fields k (by omega), Nat.zero_testBit _⟩
        · intro j k _ hlt hk hbit
          apply haccepted.distinct j k hlt (by omega)
          exact (bitAt_inj (haccepted.fields j (by omega)) (haccepted.fields k (by omega))).1 hbit
  · rw [if_pos hlen]
    constructor
    · intro h
      cases h
    · intro h
      exact absurd h.1.length hlen

/-! ## No panic -/

/-- A computation that may panic (`none`), fail or return. -/
abbrev Checked := ExceptT String Option

/-- `bytes[index]` -/
def indexChecked (bytes : Bytes) (index : Nat) : Checked UInt8 := ExceptT.lift bytes[index]?

/-- `1u32 << amount`, with the overflow check on the amount. -/
def shiftChecked (amount : Nat) : Checked Nat :=
  ExceptT.lift (if amount < 32 then some (1 <<< amount) else none)

/-- `decodeEntry` with every index and shift checked. -/
def decodeEntryChecked (bytes : Bytes) (index seenSlots : Nat) : Checked (ProviderSlot × Nat) := do
  let stream ← ExceptT.mk (some (readU32 bytes (streamsOffset + index * 4)))
  let tier ← ExceptT.mk (some (readU32 bytes (tiersOffset + index * 4)))
  let contributed ← indexChecked bytes (contributedOffset + index)
  if stream > 2 then
    throw s!"slot {index} has invalid stream {stream}"
  else if tier > 9 then
    throw s!"slot {index} has invalid collateral tier {tier}"
  else if contributed.toNat > 1 then
    throw s!"slot {index} has invalid contribution flag {contributed.toNat}"
  else
    let slotBit ← shiftChecked (stream * 10 + tier)
    if seenSlots &&& slotBit ≠ 0 then
      throw s!"slot {index} duplicates stream {stream}, tier {tier}"
    else
      let lockedCollateral ← ExceptT.mk (some (readU64 bytes (collateralOffset + index * 8)))
      let lastUpdateTick ← ExceptT.mk (some (readU32 bytes (lastUpdateOffset + index * 4)))
      pure ({ key := { stream := stream, collateralTier := tier }
              lockedCollateral := lockedCollateral
              contributedToEntropy := contributed.toNat = 1
              lastUpdateTick := lastUpdateTick },
            seenSlots ||| slotBit)

/-- The loop with every index and shift checked. -/
def decodeEntriesChecked (bytes : Bytes) : Nat → Nat → Nat → Checked (List ProviderSlot)
  | _, 0, _ => pure []
  | index, remaining + 1, seenSlots => do
    let (slot, seen) ← decodeEntryChecked bytes index seenSlots
    let rest ← decodeEntriesChecked bytes (index + 1) remaining seen
    pure (slot :: rest)

/-- `ProviderStatus::decode` with every index and shift checked. -/
def ProviderStatus.decodeChecked (bytes : Bytes) : Checked ProviderStatus := do
  if bytes.length ≠ providerStatusSize then
    throw s!"provider status must be {providerStatusSize} bytes, got {bytes.length}"
  else
    let count ← ExceptT.mk (some (readU32 bytes 0))
    if count > maxProviderSlots then
      throw s!"provider status count exceeds {maxProviderSlots}: {count}"
    else
      let slots ← decodeEntriesChecked bytes 0 count 0
      pure { slots := slots }

theorem decodeEntryChecked_eq {bytes : Bytes} (hlen : bytes.length = providerStatusSize) {k : Nat}
    (hk : k < maxProviderSlots) (seen : Nat) :
    decodeEntryChecked bytes k seen = ExceptT.mk (some (decodeEntry bytes k seen)) := by
  have hend : ∀ f : Field, f.start k + f.width ≤ bytes.length := by
    intro f
    rw [hlen]
    exact f.end_le hk
  have hstream : readU32 bytes (streamsOffset + k * 4) = .ok (fieldAt bytes .stream k) :=
    readU32_eq (hend .stream)
  have htier : readU32 bytes (tiersOffset + k * 4) = .ok (fieldAt bytes .tier k) :=
    readU32_eq (hend .tier)
  have hcollateral : readU64 bytes (collateralOffset + k * 8) = .ok (fieldAt bytes .collateral k) :=
    readU64_eq (hend .collateral)
  have hupdated : readU32 bytes (lastUpdateOffset + k * 4) = .ok (fieldAt bytes .lastUpdate k) :=
    readU32_eq (hend .lastUpdate)
  have hindex : bytes[contributedOffset + k]? = some (bytes.getD (contributedOffset + k) 0) := by
    have hlt : contributedOffset + k < bytes.length := by
      have hcontributed := hend .contributed
      simp only [Field.start, Field.offset, Field.width] at hcontributed
      omega
    rw [List.getD_eq_getElem?_getD, List.getElem?_eq_getElem hlt]
    rfl
  unfold decodeEntryChecked decodeEntry indexChecked
  rw [hstream, htier, hcollateral, hupdated, hindex]
  simp only [bind, ExceptT.bind, ExceptT.bindCont, ExceptT.lift, ExceptT.mk, Functor.map,
    Except.bind, Option.bind, Option.map, throw, throwThe, MonadExceptOf.throw, pure, ExceptT.pure]
  by_cases hover : fieldAt bytes .stream k > 2
  · rw [if_pos hover, if_pos hover]
  · rw [if_neg hover, if_neg hover]
    by_cases hover' : fieldAt bytes .tier k > 9
    · rw [if_pos hover', if_pos hover']
    · rw [if_neg hover', if_neg hover']
      split
      · rfl
      · -- both values are checked before the shift, so it stays within 29
        have hshift : fieldAt bytes .stream k * 10 + fieldAt bytes .tier k < 32 := by omega
        simp only [shiftChecked, if_pos hshift, ExceptT.lift, ExceptT.mk, Functor.map, Option.map,
          ExceptT.bindCont]
        split <;> rfl

theorem decodeEntriesChecked_eq {bytes : Bytes} (hlen : bytes.length = providerStatusSize)
    {remaining index seen : Nat} (hroom : index + remaining ≤ maxProviderSlots) :
    decodeEntriesChecked bytes index remaining seen =
      ExceptT.mk (some (decodeEntries bytes index remaining seen)) := by
  induction remaining generalizing index seen with
  | zero => rfl
  | succ remaining ih =>
    rw [decodeEntriesChecked, decodeEntryChecked_eq hlen (by omega), decodeEntries]
    cases decodeEntry bytes index seen with
    | error err => rfl
    | ok first =>
      have hrest := @ih (index + 1) first.2 (by omega)
      simp only [bind, ExceptT.bind, ExceptT.mk, Option.bind, ExceptT.bindCont, hrest, Except.bind]
      cases decodeEntries bytes (index + 1) remaining first.2 <;> rfl

/-- The decoder never indexes out of range and never shifts past the word. -/
theorem decodeChecked_eq (bytes : Bytes) :
    (ProviderStatus.decodeChecked bytes).run = some (ProviderStatus.decode bytes) := by
  unfold ProviderStatus.decodeChecked ProviderStatus.decode
  by_cases hlen : bytes.length = providerStatusSize
  · have hcount : readU32 bytes 0 = .ok (countAt bytes) := by
      apply readU32_eq
      rw [hlen]
      decide
    rw [if_neg (not_not.2 hlen), if_neg (not_not.2 hlen), hcount]
    by_cases hover : countAt bytes > maxProviderSlots
    · simp only [bind, ExceptT.bind, ExceptT.mk, Option.bind, ExceptT.bindCont, Except.bind]
      rw [if_pos hover, if_pos hover]
      rfl
    · have hentries := @decodeEntriesChecked_eq bytes hlen (countAt bytes) 0 0 (by omega)
      simp only [bind, ExceptT.bind, ExceptT.mk, Option.bind, ExceptT.bindCont, Except.bind]
      rw [if_neg hover, if_neg hover, hentries]
      cases decodeEntries bytes 0 (countAt bytes) 0 <;> rfl
  · rw [if_pos hlen, if_pos hlen]
    rfl

/-! ## The bytes that matter -/

/-- The strings agree on the count and on the fields of the first `n` entries. -/
def AgreeOn (n : Nat) (bytes bytes' : Bytes) : Prop :=
  ∀ i, (i < 4 ∨ ∃ (f : Field) (k : Nat), k < n ∧ f.start k ≤ i ∧ i < f.start k + f.width) →
    bytes[i]? = bytes'[i]?

section Agree

variable {bytes bytes' : Bytes} {n : Nat}

theorem AgreeOn.countAt (h : AgreeOn n bytes bytes') : countAt bytes' = countAt bytes := by
  unfold RandomClient.countAt
  congr 1
  apply Layout.slice_congr
  intro i _ hi
  exact (h i (Or.inl (by omega))).symm

theorem AgreeOn.fieldAt (h : AgreeOn n bytes bytes') (f : Field) {k : Nat} (hk : k < n) :
    fieldAt bytes' f k = fieldAt bytes f k := by
  unfold RandomClient.fieldAt
  congr 1
  apply Layout.slice_congr
  intro i hlow hhigh
  exact (h i (Or.inr ⟨f, k, hk, hlow, hhigh⟩)).symm

theorem AgreeOn.entryAt (h : AgreeOn n bytes bytes') {k : Nat} (hk : k < n) :
    entryAt bytes' k = entryAt bytes k := by
  unfold RandomClient.entryAt
  simp only [h.fieldAt _ hk]

/-- Bytes outside the count and the entries it counts change nothing. -/
theorem decode_agree {status : ProviderStatus} (h : ProviderStatus.decode bytes = .ok status)
    (hlen : bytes'.length = providerStatusSize) (hagree : AgreeOn (countAt bytes) bytes bytes') :
    ProviderStatus.decode bytes' = .ok status := by
  rcases decode_ok_iff.1 h with ⟨haccepted, hslots⟩
  apply decode_ok_iff.2
  rw [hagree.countAt]
  constructor
  · refine ⟨hlen, ?_, ?_, ?_⟩
    · rw [hagree.countAt]
      exact haccepted.count
    · intro k hk
      rw [hagree.countAt] at hk
      have hvalid := haccepted.fields k hk
      constructor
      · rw [hagree.fieldAt _ hk]
        exact hvalid.stream
      · rw [hagree.fieldAt _ hk]
        exact hvalid.tier
      · rw [hagree.fieldAt _ hk]
        exact hvalid.contributed
    · intro j k hlt hk
      rw [hagree.countAt] at hk
      rw [hagree.entryAt hk, hagree.entryAt (by omega : j < RandomClient.countAt bytes)]
      exact haccepted.distinct j k hlt hk
  · rw [hslots]
    apply List.map_congr_left
    intro k hk
    exact (hagree.entryAt (List.mem_range.1 hk)).symm

end Agree

/-! ## The canonical encoding -/

/-- The value of a field of an entry. -/
def ProviderSlot.field (slot : ProviderSlot) : Field → Nat
  | .stream => slot.key.stream
  | .tier => slot.key.collateralTier
  | .collateral => slot.lockedCollateral
  | .contributed => if slot.contributedToEntropy then 1 else 0
  | .lastUpdate => slot.lastUpdateTick

/-- Writes the field of an entry over its bytes. -/
def writeField (bytes : Bytes) (f : Field) (k value : Nat) : Bytes :=
  Layout.write bytes (f.start k) (toLeBytes f.width value)

/-- One round of the loop of `encode_status`. -/
def encodeEntry (bytes : Bytes) (index : Nat) (slot : ProviderSlot) : Bytes :=
  let bytes := writeField bytes .stream index slot.key.stream
  let bytes := writeField bytes .tier index slot.key.collateralTier
  let bytes := writeField bytes .collateral index slot.lockedCollateral
  let bytes := writeField bytes .contributed index (if slot.contributedToEntropy then 1 else 0)
  writeField bytes .lastUpdate index slot.lastUpdateTick

def encodeEntries : Bytes → Nat → List ProviderSlot → Bytes
  | bytes, _, [] => bytes
  | bytes, index, slot :: rest => encodeEntries (encodeEntry bytes index slot) (index + 1) rest

/-- `encode_status`: the count and the entries over 680 zero bytes. -/
def encodeStatus (slots : List ProviderSlot) : Bytes :=
  encodeEntries (Layout.write (List.replicate providerStatusSize 0) 0 (toLeBytes 4 slots.length))
    0 slots

/-- The fields of the entry are in range and fit their widths. -/
structure ProviderSlot.Valid (slot : ProviderSlot) : Prop where
  stream : slot.key.stream ≤ 2
  tier : slot.key.collateralTier ≤ 9
  collateral : slot.lockedCollateral < 2 ^ 64
  updated : slot.lastUpdateTick < 2 ^ 32

theorem ProviderSlot.Valid.field_lt {slot : ProviderSlot} (h : slot.Valid) (f : Field) :
    slot.field f < 256 ^ f.width := by
  have hstream := h.stream
  have htier := h.tier
  cases f with
  | stream =>
    show slot.key.stream < 256 ^ 4
    omega
  | tier =>
    show slot.key.collateralTier < 256 ^ 4
    omega
  | collateral => exact h.collateral
  | contributed =>
    show (if slot.contributedToEntropy then 1 else 0) < 256 ^ 1
    split <;> omega
  | lastUpdate => exact h.updated

section Encode

variable {bytes : Bytes} {k : Nat}

theorem writeField_fits (hlen : bytes.length = providerStatusSize) (hk : k < maxProviderSlots)
    (f : Field) (value : Nat) :
    f.start k + (toLeBytes f.width value).length ≤ bytes.length := by
  rw [length_toLeBytes, hlen]
  exact f.end_le hk

theorem length_writeField (hlen : bytes.length = providerStatusSize) (hk : k < maxProviderSlots)
    (f : Field) (value : Nat) : (writeField bytes f k value).length = providerStatusSize :=
  (Layout.length_write (writeField_fits hlen hk f value)).trans hlen

/-- A field that was written is read back, and every other one as before. -/
theorem fieldAt_writeField (hlen : bytes.length = providerStatusSize) (hk : k < maxProviderSlots)
    {f g : Field} {j value : Nat} (hj : j < maxProviderSlots) (hvalue : value < 256 ^ f.width) :
    fieldAt (writeField bytes f k value) g j =
      if f = g ∧ k = j then value else fieldAt bytes g j := by
  have hfits := writeField_fits hlen hk f value
  by_cases hsame : f = g ∧ k = j
  · rcases hsame with ⟨rfl, rfl⟩
    have hslice := Layout.slice_write hfits
    rw [length_toLeBytes] at hslice
    rw [if_pos ⟨rfl, rfl⟩, fieldAt, writeField, hslice]
    exact fromLeBytes_toLeBytes hvalue
  · have hapart := Field.apart hk hj hsame
    rw [if_neg hsame, fieldAt, fieldAt, writeField, Layout.slice_write_disjoint hfits]
    rw [length_toLeBytes]
    exact hapart.symm

theorem countAt_writeField (hlen : bytes.length = providerStatusSize) (hk : k < maxProviderSlots)
    (f : Field) (value : Nat) : countAt (writeField bytes f k value) = countAt bytes := by
  rw [countAt, countAt, writeField, Layout.slice_write_disjoint (writeField_fits hlen hk f value)]
  exact Or.inl (f.after_count k)

theorem encodeEntry_spec (hlen : bytes.length = providerStatusSize) (hk : k < maxProviderSlots)
    {slot : ProviderSlot} (hvalid : slot.Valid) :
    (encodeEntry bytes k slot).length = providerStatusSize ∧
      countAt (encodeEntry bytes k slot) = countAt bytes ∧
      (∀ f, fieldAt (encodeEntry bytes k slot) f k = slot.field f) ∧
      ∀ f, ∀ j < maxProviderSlots, j ≠ k →
        fieldAt (encodeEntry bytes k slot) f j = fieldAt bytes f j := by
  unfold encodeEntry
  have hlen₁ := length_writeField hlen hk .stream slot.key.stream
  have hlen₂ := length_writeField hlen₁ hk .tier slot.key.collateralTier
  have hlen₃ := length_writeField hlen₂ hk .collateral slot.lockedCollateral
  have hlen₄ := length_writeField hlen₃ hk .contributed
    (if slot.contributedToEntropy then 1 else 0)
  have hlen₅ := length_writeField hlen₄ hk .lastUpdate slot.lastUpdateTick
  have hread : ∀ f, ∀ j < maxProviderSlots, fieldAt (writeField (writeField (writeField (writeField
      (writeField bytes .stream k slot.key.stream) .tier k slot.key.collateralTier)
      .collateral k slot.lockedCollateral) .contributed k
      (if slot.contributedToEntropy then 1 else 0)) .lastUpdate k slot.lastUpdateTick) f j =
        if k = j then slot.field f else fieldAt bytes f j := by
    intro f j hj
    have hstream : slot.key.stream < 256 ^ Field.stream.width := hvalid.field_lt .stream
    have htier : slot.key.collateralTier < 256 ^ Field.tier.width := hvalid.field_lt .tier
    have hcollateral : slot.lockedCollateral < 256 ^ Field.collateral.width :=
      hvalid.field_lt .collateral
    have hcontributed : (if slot.contributedToEntropy then 1 else 0) <
        256 ^ Field.contributed.width := hvalid.field_lt .contributed
    have hupdated : slot.lastUpdateTick < 256 ^ Field.lastUpdate.width :=
      hvalid.field_lt .lastUpdate
    rw [fieldAt_writeField hlen₄ hk hj hupdated, fieldAt_writeField hlen₃ hk hj hcontributed,
      fieldAt_writeField hlen₂ hk hj hcollateral, fieldAt_writeField hlen₁ hk hj htier,
      fieldAt_writeField hlen hk hj hstream]
    cases f <;> simp [ProviderSlot.field]
  refine ⟨hlen₅, ?_, ?_, ?_⟩
  · rw [countAt_writeField hlen₄ hk, countAt_writeField hlen₃ hk, countAt_writeField hlen₂ hk,
      countAt_writeField hlen₁ hk, countAt_writeField hlen hk]
  · intro f
    rw [hread f k hk, if_pos rfl]
  · intro f j hj hne
    rw [hread f j hj, if_neg (Ne.symm hne)]

/-- The loop writes each entry at its index and leaves the entries before it. -/
theorem encodeEntries_spec {slots : List ProviderSlot} {index : Nat}
    (hlen : bytes.length = providerStatusSize)
    (hroom : index + slots.length ≤ maxProviderSlots) (hvalid : ∀ slot ∈ slots, slot.Valid) :
    (encodeEntries bytes index slots).length = providerStatusSize ∧
      countAt (encodeEntries bytes index slots) = countAt bytes ∧
      (∀ f, ∀ j < index, fieldAt (encodeEntries bytes index slots) f j = fieldAt bytes f j) ∧
      ∀ i slot, slots[i]? = some slot →
        ∀ f, fieldAt (encodeEntries bytes index slots) f (index + i) = slot.field f := by
  induction slots generalizing bytes index with
  | nil => exact ⟨hlen, rfl, fun _ _ _ => rfl, by simp⟩
  | cons slot slots ih =>
    rw [List.length_cons] at hroom
    have hindex : index < maxProviderSlots := by omega
    rcases encodeEntry_spec hlen hindex (hvalid slot (by simp)) with
      ⟨hlen', hcount', hself, hother⟩
    have hroom' : index + 1 + slots.length ≤ maxProviderSlots := by omega
    have hvalid' : ∀ slot ∈ slots, slot.Valid := fun s hs => hvalid s (by simp [hs])
    rcases ih hlen' hroom' hvalid' with ⟨hlen'', hcount'', hbefore, hlater⟩
    refine ⟨hlen'', hcount''.trans hcount', ?_, ?_⟩
    · intro f j hj
      exact (hbefore f j (by omega)).trans (hother f j (by omega) (by omega))
    · intro i found hget f
      cases i with
      | zero =>
        rw [List.getElem?_cons_zero, Option.some.injEq] at hget
        rw [← hget]
        exact (hbefore f index (by omega)).trans (hself f)
      | succ i =>
        rw [List.getElem?_cons_succ] at hget
        have hfield := hlater i found hget f
        rw [Nat.add_assoc, Nat.add_comm 1 i] at hfield
        exact hfield

end Encode

section Canonical

variable {slots : List ProviderSlot}

theorem SlotKey.eq_of_fields {key key' : SlotKey} (hstream : key.stream = key'.stream)
    (htier : key.collateralTier = key'.collateralTier) : key = key' := by
  cases key
  cases key'
  simp only [SlotKey.mk.injEq]
  exact ⟨hstream, htier⟩

/-- There are 30 keys, so a list with distinct keys fits the arrays. -/
theorem length_le_of_keys_nodup (hvalid : ∀ slot ∈ slots, slot.Valid)
    (hkeys : (slots.map ProviderSlot.key).Nodup) : slots.length ≤ 30 := by
  let bit : SlotKey → Nat := fun key => key.stream * 10 + key.collateralTier
  have hbits : ((slots.map ProviderSlot.key).map bit).Nodup := by
    apply hkeys.map_on
    intro key hmem key' hmem' hbit
    rcases List.mem_map.1 hmem with ⟨slot, hslot, rfl⟩
    rcases List.mem_map.1 hmem' with ⟨slot', hslot', rfl⟩
    have htier := (hvalid slot hslot).tier
    have htier' := (hvalid slot' hslot').tier
    change slot.key.stream * 10 + slot.key.collateralTier =
      slot'.key.stream * 10 + slot'.key.collateralTier at hbit
    have hstream : slot.key.stream = slot'.key.stream := by omega
    have htiers : slot.key.collateralTier = slot'.key.collateralTier := by omega
    exact SlotKey.eq_of_fields hstream htiers
  have hsub : (slots.map ProviderSlot.key).map bit ⊆ List.range 30 := by
    intro n hn
    rcases List.mem_map.1 hn with ⟨key, hkey, rfl⟩
    rcases List.mem_map.1 hkey with ⟨slot, hslot, rfl⟩
    have hstream := (hvalid slot hslot).stream
    have htier := (hvalid slot hslot).tier
    apply List.mem_range.2
    show slot.key.stream * 10 + slot.key.collateralTier < 30
    omega
  have hle := (hbits.subperm hsub).length_le
  simpa using hle

theorem encodeStatus_spec (hroom : slots.length ≤ maxProviderSlots)
    (hvalid : ∀ slot ∈ slots, slot.Valid) :
    (encodeStatus slots).length = providerStatusSize ∧ countAt (encodeStatus slots) = slots.length ∧
      ∀ i slot, slots[i]? = some slot →
        ∀ f, fieldAt (encodeStatus slots) f i = slot.field f := by
  have hfits : 0 + (toLeBytes 4 slots.length).length ≤
      (List.replicate providerStatusSize (0 : UInt8)).length := by
    rw [length_toLeBytes, List.length_replicate]
    decide
  have hlen : (Layout.write (List.replicate providerStatusSize (0 : UInt8)) 0
      (toLeBytes 4 slots.length)).length = providerStatusSize := by
    rw [Layout.length_write hfits, List.length_replicate]
  have hcount : countAt (Layout.write (List.replicate providerStatusSize (0 : UInt8)) 0
      (toLeBytes 4 slots.length)) = slots.length := by
    have hslice := Layout.slice_write hfits
    rw [length_toLeBytes] at hslice
    have hlt : slots.length < 256 ^ 4 := by
      have hroom' : slots.length ≤ 32 := hroom
      omega
    rw [countAt, hslice, fromLeBytes_toLeBytes hlt]
  have hroom' : 0 + slots.length ≤ maxProviderSlots := by omega
  rcases encodeEntries_spec hlen hroom' hvalid with ⟨hlength, hcounted, _, hfields⟩
  refine ⟨hlength, hcounted.trans hcount, ?_⟩
  intro i slot hget f
  have hfield := hfields i slot hget f
  rw [Nat.zero_add] at hfield
  exact hfield

theorem entryAt_encodeStatus (hroom : slots.length ≤ maxProviderSlots)
    (hvalid : ∀ slot ∈ slots, slot.Valid) {i : Nat} {slot : ProviderSlot}
    (hget : slots[i]? = some slot) : entryAt (encodeStatus slots) i = slot := by
  have hfield := (encodeStatus_spec hroom hvalid).2.2 i slot hget
  unfold entryAt
  rw [hfield, hfield, hfield, hfield, hfield]
  have hflag : decide (slot.field .contributed = 1) = slot.contributedToEntropy := by
    unfold ProviderSlot.field
    cases slot.contributedToEntropy <;> rfl
  rw [hflag]
  rfl

/-- Valid entries with distinct keys are decoded from their encoding. -/
theorem decode_encodeStatus (hvalid : ∀ slot ∈ slots, slot.Valid)
    (hkeys : (slots.map ProviderSlot.key).Nodup) :
    ProviderStatus.decode (encodeStatus slots) = .ok { slots := slots } := by
  have hshort := length_le_of_keys_nodup hvalid hkeys
  have hroom : slots.length ≤ maxProviderSlots := le_trans hshort (by decide)
  rcases encodeStatus_spec hroom hvalid with ⟨hlen, hcount, hfields⟩
  have hget : ∀ k < slots.length, ∃ slot, slots[k]? = some slot ∧ slot ∈ slots := fun k hk =>
    ⟨slots[k], List.getElem?_eq_getElem hk, List.getElem_mem hk⟩
  apply decode_ok_iff.2
  rw [hcount]
  constructor
  · refine ⟨hlen, ?_, ?_, ?_⟩
    · rw [hcount]
      exact hroom
    · intro k hk
      rw [hcount] at hk
      rcases hget k hk with ⟨slot, hslot, hmem⟩
      have hfield := hfields k slot hslot
      constructor
      · rw [hfield]
        exact (hvalid slot hmem).stream
      · rw [hfield]
        exact (hvalid slot hmem).tier
      · rw [hfield]
        show (if slot.contributedToEntropy then 1 else 0) ≤ 1
        split <;> omega
    · intro j k hlt hk hkey
      rw [hcount] at hk
      rcases hget j (by omega) with ⟨slot, hslot, _⟩
      rcases hget k hk with ⟨slot', hslot', _⟩
      rw [entryAt_encodeStatus hroom hvalid hslot, entryAt_encodeStatus hroom hvalid hslot'] at hkey
      have hpos : (slots.map ProviderSlot.key)[j]? = (slots.map ProviderSlot.key)[k]? := by
        rw [List.getElem?_map, List.getElem?_map, hslot, hslot', Option.map_some, Option.map_some,
          hkey]
      have hjlen : j < (slots.map ProviderSlot.key).length := by
        rw [List.length_map]
        omega
      have heq := (List.getElem?_inj hjlen hkeys).1 hpos
      omega
  · show slots = _
    apply List.ext_getElem?
    intro i
    rw [List.getElem?_map]
    by_cases hi : i < slots.length
    · rcases hget i hi with ⟨slot, hslot, _⟩
      rw [List.getElem?_range hi, Option.map_some, entryAt_encodeStatus hroom hvalid hslot, hslot]
    · rw [List.getElem?_eq_none (by omega), List.getElem?_eq_none (by simp; omega)]
      rfl

/-- Decoded entries are valid and have distinct keys. -/
theorem decode_valid {bytes : Bytes} {status : ProviderStatus}
    (h : ProviderStatus.decode bytes = .ok status) :
    (∀ slot ∈ status.slots, slot.Valid) ∧ (status.slots.map ProviderSlot.key).Nodup := by
  rcases decode_ok_iff.1 h with ⟨haccepted, hslots⟩
  constructor
  · intro slot hmem
    rw [hslots] at hmem
    rcases List.mem_map.1 hmem with ⟨k, hk, rfl⟩
    have hvalid := haccepted.fields k (List.mem_range.1 hk)
    exact ⟨hvalid.stream, hvalid.tier, fieldAt_lt bytes .collateral k, fieldAt_lt bytes .lastUpdate k⟩
  · rw [hslots, List.map_map]
    apply List.Nodup.map_on _ List.nodup_range
    intro j hj k hk hkey
    rw [List.mem_range] at hj hk
    by_contra hne
    rcases Nat.lt_or_gt_of_ne hne with hlt | hlt
    · exact haccepted.distinct j k hlt hk hkey
    · exact haccepted.distinct k j hlt hj hkey.symm

/-- With distinct keys, `slot` returns the one entry with the key, or nothing. -/
theorem slot_of_keys_nodup (hkeys : (slots.map ProviderSlot.key).Nodup) (key : SlotKey) :
    (∀ slot ∈ slots, slot.key = key → ProviderStatus.slot { slots := slots } key = some slot) ∧
      ((∀ slot ∈ slots, slot.key ≠ key) → ProviderStatus.slot { slots := slots } key = none) := by
  unfold ProviderStatus.slot
  constructor
  · intro slot hmem hkey
    cases hfound : slots.find? fun slot => slot.key = key with
    | none =>
      have hnone := List.find?_eq_none.1 hfound slot hmem
      simp [hkey] at hnone
    | some found =>
      have hfoundKey := List.find?_some hfound
      rw [decide_eq_true_eq] at hfoundKey
      have hsame : found.key = slot.key := hfoundKey.trans hkey.symm
      rw [List.inj_on_of_nodup_map hkeys (List.mem_of_find?_eq_some hfound) hmem hsame]
  · intro hnone
    apply List.find?_eq_none.2
    intro slot hmem
    simp [hnone slot hmem]

end Canonical

/-- `ProviderStatus::decode` never panics, accepts exactly the strings `Accepted`
describes, reads from them only the count and the entries it counts, and inverts the
canonical encoding in both directions. -/
theorem strict_status_codec :
    (∀ bytes, (ProviderStatus.decodeChecked bytes).run = some (ProviderStatus.decode bytes)) ∧
      (∀ bytes, (∃ status, ProviderStatus.decode bytes = .ok status) ↔ Accepted bytes) ∧
      (∀ bytes status, ProviderStatus.decode bytes = .ok status →
        status.slots = (List.range (countAt bytes)).map (entryAt bytes) ∧
        (∀ bytes', bytes'.length = providerStatusSize → AgreeOn (countAt bytes) bytes bytes' →
          ProviderStatus.decode bytes' = .ok status) ∧
        ProviderStatus.decode (encodeStatus status.slots) = .ok status) ∧
      ∀ slots : List ProviderSlot, (∀ slot ∈ slots, slot.Valid) →
        (slots.map ProviderSlot.key).Nodup →
        ProviderStatus.decode (encodeStatus slots) = .ok { slots := slots } ∧
        ∀ key,
          (∀ slot ∈ slots, slot.key = key →
            ProviderStatus.slot { slots := slots } key = some slot) ∧
          ((∀ slot ∈ slots, slot.key ≠ key) →
            ProviderStatus.slot { slots := slots } key = none) := by
  refine ⟨decodeChecked_eq, ?_, ?_, ?_⟩
  · intro bytes
    constructor
    · rintro ⟨status, h⟩
      exact (decode_ok_iff.1 h).1
    · intro haccepted
      exact ⟨{ slots := _ }, decode_ok_iff.2 ⟨haccepted, rfl⟩⟩
  · intro bytes status h
    rcases decode_valid h with ⟨hvalid, hkeys⟩
    exact ⟨(decode_ok_iff.1 h).2, fun _ hlen hagree => decode_agree h hlen hagree,
      decode_encodeStatus hvalid hkeys⟩
  · intro slots hvalid hkeys
    exact ⟨decode_encodeStatus hvalid hkeys, slot_of_keys_nodup hkeys⟩

/-- Entries of three streams, two of them at one tier, encoded and decoded: each
is found under its own key, and nothing under another. -/
theorem strict_status_codec_three_entries :
    let slots : List ProviderSlot :=
      [⟨⟨2, 9⟩, 1000000000, true, 7⟩, ⟨⟨0, 1⟩, 10, false, 6⟩, ⟨⟨1, 1⟩, 10, true, 4294967295⟩]
    ProviderStatus.decode (encodeStatus slots) = .ok { slots := slots } ∧
      ProviderStatus.slot { slots := slots } ⟨1, 1⟩ = some ⟨⟨1, 1⟩, 10, true, 4294967295⟩ ∧
      ProviderStatus.slot { slots := slots } ⟨2, 1⟩ = none := by
  intro slots
  have hvalid : ∀ slot ∈ slots, slot.Valid := by
    intro slot hmem
    simp only [slots, List.mem_cons, List.not_mem_nil, or_false] at hmem
    rcases hmem with rfl | rfl | rfl <;> exact ⟨by decide, by decide, by decide, by decide⟩
  have hkeys : (slots.map ProviderSlot.key).Nodup := by decide
  rcases strict_status_codec.2.2.2 slots hvalid hkeys with ⟨hdecoded, hfound⟩
  refine ⟨hdecoded, (hfound ⟨1, 1⟩).1 _ (by simp [slots]) rfl, (hfound ⟨2, 1⟩).2 ?_⟩
  intro slot hmem
  simp only [slots, List.mem_cons, List.not_mem_nil, or_false] at hmem
  rcases hmem with rfl | rfl | rfl <;> decide

end RandomClient
