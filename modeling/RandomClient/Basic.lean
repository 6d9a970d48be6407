import Mathlib.Algebra.GroupWithZero.Nat
import Mathlib.Data.Nat.Log
import Mathlib.Data.Vector.Basic
import RandomClient.Lib.Bounded

/-!
# Constants and plain data

The constants of the engine, the byte strings it handles and the records it
exchanges with a backend. Ticks, epochs and amounts are naturals; the places
where the source relies on `u32` arithmetic use the checked and saturating
operations below `u32Max`. Instants are naturals counting milliseconds.
-/

namespace RandomClient

/-- The largest `u32`. -/
abbrev u32Max : Nat := 4294967295

/-- `u32::checked_add`. -/
abbrev checkedAdd (a b : Nat) : Option Nat := Bounded.checkedAdd u32Max a b

/-- `u32::saturating_add`. -/
abbrev saturatingAdd (a b : Nat) : Nat := Bounded.saturatingAdd u32Max a b

/-! ## Constants of `engine.rs` and `contract.rs` -/

abbrev streamCount : Nat := 3
abbrev sendLeadTicks : Nat := 6
abbrev revealSendLeadTicks : Nat := 4
abbrev redundantSendLeadTicks : Nat := 4
abbrev tickDataPublicationLeadTicks : Nat := 2
abbrev statusConfirmationsRequired : Nat := 3
abbrev pollIntervalMs : Nat := 100
abbrev statusQueryIntervalMs : Nat := 500
abbrev tickCheckWindow : Nat := 32
abbrev monitorLogIntervalMs : Nat := 60000
abbrev maxBroadcastAttemptMs : Nat := 2000
abbrev minBroadcastAttemptMs : Nat := 100

abbrev randomContractIndex : Nat := 3
abbrev revealAndCommitProcedure : Nat := 1

/-! ## Literals

Slot indices are literals of `Fin 3` and sample ticks of `Fin 256`; the closed
instances keep a proof of its own out of every definition that writes one. -/

instance neZero_three : NeZero 3 := ⟨by decide⟩

instance neZero_byte : NeZero 256 := ⟨by decide⟩

/-! ## Byte strings -/

abbrev Bytes := List UInt8

/-- A 4096-bit preimage, `[u8; 512]`. -/
abbrev Preimage := List.Vector UInt8 512

/-- A KangarooTwelve digest, `[u8; 32]`. -/
abbrev Digest := List.Vector UInt8 32

/-- The all-zero preimage, `[0; 512]`. -/
def Preimage.zero : Preimage := List.Vector.replicate 512 0

/-- The all-zero digest, `[0; 32]`. -/
def Digest.zero : Digest := List.Vector.replicate 32 0

/-- The input of the contract procedure. -/
structure RevealAndCommitInput where
  reveal : Preimage
  commit : Digest
deriving DecidableEq

/-- The 544 input bytes: the reveal followed by the commitment. -/
def RevealAndCommitInput.encode (input : RevealAndCommitInput) : Bytes :=
  input.reveal.toList ++ input.commit.toList

theorem RevealAndCommitInput.encode_length (input : RevealAndCommitInput) :
    input.encode.length = 544 := by
  simp [RevealAndCommitInput.encode]

theorem RevealAndCommitInput.encode_injective : Function.Injective encode := by
  rintro ⟨reveal, commit⟩ ⟨reveal', commit'⟩ h
  have hlen : reveal.toList.length = reveal'.toList.length := by simp
  obtain ⟨hr, hc⟩ := List.append_inj h hlen
  have hreveal : reveal = reveal' := Subtype.ext hr
  have hcommit : commit = commit' := Subtype.ext hc
  rw [hreveal, hcommit]

/-- A stream and a collateral tier: one enrolment slot of the contract. -/
structure SlotKey where
  stream : Nat
  collateralTier : Nat
deriving DecidableEq, Repr

/-! ## What a backend reports -/

/-- One report of the network's tick, every field a `u32`. -/
structure TickInfo where
  epoch : Nat
  tick : Nat
  initialTick : Nat
  tickDurationMs : Nat
  tick_le : tick ≤ u32Max
deriving DecidableEq, Repr

/-- The data of one historical tick. `transactionDigests` is present only when
the backend supplied the complete digest set. -/
structure TickTransactions where
  hasTransactions : Bool
  transactionDigests : Option (List Digest)
deriving DecidableEq

/-- Whether the complete digest set has the digest, when there is one. -/
def TickTransactions.contains (observation : TickTransactions) (digest : Digest) : Option Bool :=
  observation.transactionDigests.map fun digests => digests.contains digest

/-- An unsigned transaction: the arguments of `build_ticket_tx_bytes` beside the wallet. -/
structure Ticket where
  contractIndex : Nat
  amount : Nat
  tick : Nat
  inputType : Nat
  input : Bytes
deriving DecidableEq

/-- What a finished broadcast task returned: the backend accepted the
transaction or did not. The identifier and the error text are only logged. -/
inductive Delivery where
  | ok
  | err
deriving DecidableEq, Repr

/-- The run-time configuration of the engine. `commitDigest` and
`transactionDigest` are the two uses of KangarooTwelve. -/
structure Config where
  collateral : Nat
  epochStopLeadTimeSecs : Nat
  epochResumeDelayTicks : Nat
  emptyTickCheckIntervalMs : Nat
  revealCheckDelayTicks : Nat
  commitDigest : Preimage → Digest
  transactionDigest : Bytes → Digest

/-- `u64::ilog10` of the collateral. -/
def collateralTier (collateral : Nat) : Nat := Nat.log 10 collateral

/-- What one cycle draws and signs for a slot: the preimage drawn for a target
and the outcome of signing a ticket with the wallet. -/
structure SigningEnv where
  draw : Nat → Preimage
  sign : Ticket → Except String Bytes

end RandomClient
