import RandomClient.Basic

/-!
# The provider-status codec

`ProviderStatus::decode` reads the 680-byte `GetProviderStatus` output: a
count, then six arrays of 32 entries at fixed offsets.
-/

namespace RandomClient

/-- One occupied slot of a provider. -/
structure ProviderSlot where
  key : SlotKey
  lockedCollateral : Nat
  contributedToEntropy : Bool
  lastUpdateTick : Nat
deriving DecidableEq, Repr

/-- The slots a provider holds. -/
structure ProviderStatus where
  slots : List ProviderSlot
deriving DecidableEq, Repr

/-- The entry of a key, if the provider holds it. -/
def ProviderStatus.slot (status : ProviderStatus) (key : SlotKey) : Option ProviderSlot :=
  status.slots.find? fun slot => slot.key = key

abbrev providerStatusSize : Nat := 680
abbrev maxProviderSlots : Nat := 32
abbrev streamsOffset : Nat := 4
abbrev tiersOffset : Nat := 132
abbrev collateralOffset : Nat := 264
abbrev contributedOffset : Nat := 520
abbrev lastUpdateOffset : Nat := 552

/-- A little-endian number. -/
def fromLeBytes : Bytes → Nat
  | [] => 0
  | b :: rest => b.toNat + 256 * fromLeBytes rest

/-- `bytes.get(offset..offset + width)`. -/
def getRange (bytes : Bytes) (offset width : Nat) : Option Bytes :=
  if offset + width ≤ bytes.length then some ((bytes.drop offset).take width) else none

def readU32 (bytes : Bytes) (offset : Nat) : Except String Nat :=
  match getRange bytes offset 4 with
  | some value => .ok (fromLeBytes value)
  | none => .error s!"missing uint32 at offset {offset}"

def readU64 (bytes : Bytes) (offset : Nat) : Except String Nat :=
  match getRange bytes offset 8 with
  | some value => .ok (fromLeBytes value)
  | none => .error s!"missing uint64 at offset {offset}"

/-- One round of the loop of `ProviderStatus::decode`: the entry at `index`,
or the error that rejects the response. `seenSlots` is the mask of the keys
before it. -/
def decodeEntry (bytes : Bytes) (index seenSlots : Nat) : Except String (ProviderSlot × Nat) := do
  let stream ← readU32 bytes (streamsOffset + index * 4)
  let tier ← readU32 bytes (tiersOffset + index * 4)
  let contributed := (bytes.getD (contributedOffset + index) 0).toNat
  if stream > 2 then
    .error s!"slot {index} has invalid stream {stream}"
  else if tier > 9 then
    .error s!"slot {index} has invalid collateral tier {tier}"
  else if contributed > 1 then
    .error s!"slot {index} has invalid contribution flag {contributed}"
  else
    let slotBit := 1 <<< (stream * 10 + tier)
    if seenSlots &&& slotBit ≠ 0 then
      .error s!"slot {index} duplicates stream {stream}, tier {tier}"
    else
      let lockedCollateral ← readU64 bytes (collateralOffset + index * 8)
      let lastUpdateTick ← readU32 bytes (lastUpdateOffset + index * 4)
      .ok ({ key := { stream := stream, collateralTier := tier }
             lockedCollateral := lockedCollateral
             contributedToEntropy := contributed = 1
             lastUpdateTick := lastUpdateTick },
           seenSlots ||| slotBit)

/-- The loop over `index..index + remaining`. -/
def decodeEntries (bytes : Bytes) : Nat → Nat → Nat → Except String (List ProviderSlot)
  | _, 0, _ => .ok []
  | index, remaining + 1, seenSlots => do
    let (slot, seen) ← decodeEntry bytes index seenSlots
    let rest ← decodeEntries bytes (index + 1) remaining seen
    .ok (slot :: rest)

/-- `ProviderStatus::decode`. -/
def ProviderStatus.decode (bytes : Bytes) : Except String ProviderStatus := do
  if bytes.length ≠ providerStatusSize then
    .error s!"provider status must be {providerStatusSize} bytes, got {bytes.length}"
  else
    let count ← readU32 bytes 0
    if count > maxProviderSlots then
      .error s!"provider status count exceeds {maxProviderSlots}: {count}"
    else
      let slots ← decodeEntries bytes 0 count 0
      .ok { slots := slots }

end RandomClient
