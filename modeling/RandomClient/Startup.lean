import RandomClient.Client
import RandomClient.Lib.Decimal
import RandomClient.Reporting

/-!
# Starting the client

`AppConfig::from_cli` checks what the command line gives before the engine is
made of it. The client starts exactly with the amounts the contract takes as a
collateral, and its slots watch the key under which the contract files a call
with that amount (`started_client_watched`).
-/

namespace RandomClient

/-! ## Numbers -/

/-- A `u64`. -/
abbrev U64 := { n : Nat // n ≤ u64Max }

/-- `Display` of the errors of `str::parse`. -/
def parseIntMessage : Text.ParseIntError → String
  | .empty => "cannot parse integer from empty string"
  | .invalidDigit => "invalid digit found in string"
  | .posOverflow => "number too large to fit in target type"

/-- The two parsers of positive numbers, by the largest value of their type. -/
def parsePositive (max : Nat) (value : List Char) : Except String Nat :=
  match Text.fromStrRadix max 10 (Text.utf8 value) with
  | .error err => .error ("invalid positive integer: " ++ parseIntMessage err)
  | .ok value => if 0 < value then .ok value else .error "value must be greater than zero"

/-- `parse_positive_u64` -/
def parsePositiveU64 (value : List Char) : Except String Nat := parsePositive u64Max value

/-- `parse_positive_u32` -/
def parsePositiveU32 (value : List Char) : Except String Nat := parsePositive u32Max value

/-! ## The seed -/

/-- `u8::is_ascii_lowercase` -/
def isAsciiLowercase (byte : UInt8) : Bool := 97 ≤ byte.toNat && byte.toNat ≤ 122

/-- `Seed` -/
structure Seed where
  bytes : Bytes
  size : bytes.length = 55
  lowercase : bytes.all isAsciiLowercase = true

/-- What the program takes from its surroundings: the endpoint the client library
suggests for Bob, and whether a memory page can be locked. -/
structure Platform where
  defaultBobRpcEndpoint : List Char
  lockBytes : Bytes → Except String Unit

/-- `Seed::new` -/
def Seed.new (platform : Platform) (seed : List Char) : Except String Seed :=
  if hvalid : (Text.utf8 seed).length = 55 ∧ (Text.utf8 seed).all isAsciiLowercase = true then
    match platform.lockBytes (Text.utf8 seed) with
    | .error err => .error err
    | .ok _ => .ok ⟨Text.utf8 seed, hvalid.1, hvalid.2⟩
  else .error "seed must contain exactly 55 lowercase a-z characters"

/-- `Seed::expose`; the source panics where this is none. -/
def Seed.expose (seed : Seed) : Option (List Char) := Text.fromUtf8 seed.bytes

/-- Where `read_seed_from_stdin` reads: a terminal, after a prompt, or a pipe. -/
inductive Stdin where
  | terminal (flushed : Except String Unit) (password : Except String (List Char))
  | piped (line : Except String (List Char))

/-- The line that is read. -/
def Stdin.read : Stdin → Except String (List Char)
  | .terminal (.error err) _ => .error ("failed to flush stdout: " ++ err)
  | .terminal (.ok _) password => password.mapError fun err => "failed to read seed: " ++ err
  | .piped line => line.mapError fun err => "failed to read seed: " ++ err

/-- `read_seed_from_stdin` -/
def readSeedFromStdin (stdin : Stdin) : Except String (List Char) := do
  let input ← stdin.read
  if trim input = [] then .error "seed from stdin is empty"
  else return trim input

/-! ## The configuration -/

/-- The amounts `validate_collateral` lists. -/
def collaterals : List Nat :=
  [1, 10, 100, 1000, 10000, 100000, 1000000, 10000000, 100000000, 1000000000]

/-- `validate_collateral` -/
def validateCollateral (amount : Nat) : Except String Unit :=
  if amount ∈ collaterals then .ok ()
  else .error "--collateral must be a power of ten from 1 through 1000000000"

/-- `BackendKind::default_endpoint` -/
def BackendKind.defaultEndpoint (platform : Platform) : BackendKind → List Char
  | .rpc => "https://rpc.qubic.org".toList
  | .bob => platform.defaultBobRpcEndpoint
  | .grpc => "http://127.0.0.1:50051".toList

/-- The command line. An option that is left out has its default, which goes
through the parser of the option as well. -/
structure Arguments where
  seed : Option (List Char)
  backend : BackendKind
  endpoint : Option (List Char)
  collateral : U64
  emptyCheckMs : Option (List Char)
  revealVerifyAfter : Option (List Char)
  stopBeforeEpochEndSecs : U64
  resumeAfterEpochStartTicks : U32

/-- `DEFAULT_EMPTY_TICK_CHECK_INTERVAL_MS` -/
def defaultEmptyTickCheckIntervalMs : Nat := 600

/-- `DEFAULT_REVEAL_CHECK_DELAY_TICKS` -/
def defaultRevealCheckDelayTicks : Nat := 10

/-- `Cli` -/
structure Cli where
  seed : Option (List Char)
  backend : BackendKind
  endpoint : Option (List Char)
  collateral : Nat
  emptyTickCheckIntervalMs : Nat
  revealCheckDelayTicks : Nat
  epochStopLeadTimeSecs : Nat
  epochResumeDelayTicks : Nat

/-- `Cli::parse`, as far as the parsers are the program's own. -/
def Cli.parse (args : Arguments) : Except String Cli := do
  let emptyTickCheckIntervalMs ← parsePositiveU64
    (args.emptyCheckMs.getD (Nat.toDigits 10 defaultEmptyTickCheckIntervalMs))
  let revealCheckDelayTicks ← parsePositiveU32
    (args.revealVerifyAfter.getD (Nat.toDigits 10 defaultRevealCheckDelayTicks))
  return {
    seed := args.seed
    backend := args.backend
    endpoint := args.endpoint
    collateral := args.collateral
    emptyTickCheckIntervalMs := emptyTickCheckIntervalMs
    revealCheckDelayTicks := revealCheckDelayTicks
    epochStopLeadTimeSecs := args.stopBeforeEpochEndSecs
    epochResumeDelayTicks := args.resumeAfterEpochStartTicks }

/-- `AppConfig` -/
structure AppConfig where
  seed : Seed
  backend : BackendKind
  endpoint : List Char
  collateral : Nat
  emptyTickCheckIntervalMs : Nat
  revealCheckDelayTicks : Nat
  epochStopLeadTimeSecs : Nat
  epochResumeDelayTicks : Nat

/-- `AppConfig::from_cli` -/
def AppConfig.fromCli (platform : Platform) (stdin : Stdin) (args : Arguments) :
    Except String AppConfig := do
  let cli ← Cli.parse args
  let seed ← cli.seed.elim (readSeedFromStdin stdin) .ok
  let seed ← Seed.new platform seed
  validateCollateral cli.collateral
  return {
    seed := seed
    backend := cli.backend
    endpoint := normalizeEndpoint cli.backend
      (cli.endpoint.getD (cli.backend.defaultEndpoint platform))
    collateral := cli.collateral
    emptyTickCheckIntervalMs := cli.emptyTickCheckIntervalMs
    revealCheckDelayTicks := cli.revealCheckDelayTicks
    epochStopLeadTimeSecs := cli.epochStopLeadTimeSecs
    epochResumeDelayTicks := cli.epochResumeDelayTicks }

/-- What `app::run` gives the engine, with the two digests the engine computes. -/
def AppConfig.engineConfig (app : AppConfig) (commitDigest : Preimage → Digest)
    (transactionDigest : Bytes → Digest) : Config where
  collateral := app.collateral
  epochStopLeadTimeSecs := app.epochStopLeadTimeSecs
  epochResumeDelayTicks := app.epochResumeDelayTicks
  emptyTickCheckIntervalMs := app.emptyTickCheckIntervalMs
  revealCheckDelayTicks := app.revealCheckDelayTicks
  commitDigest := commitDigest
  transactionDigest := transactionDigest

/-! ## Positive numbers -/

theorem parsePositive_eq_ok {max v : Nat} {value : List Char} :
    parsePositive max value = .ok v ↔
      0 < v ∧ Text.fromStrRadix max 10 (Text.utf8 value) = .ok v := by
  unfold parsePositive
  cases hparse : Text.fromStrRadix max 10 (Text.utf8 value) with
  | error err => simp
  | ok n =>
    dsimp only
    split
    · next hpos =>
      constructor
      · intro h
        cases h
        exact ⟨hpos, rfl⟩
      · rintro ⟨-, h⟩
        cases h
        rfl
    · next hzero =>
      constructor
      · intro h
        cases h
      · rintro ⟨hpos, h⟩
        cases h
        exact absurd hpos hzero

/-- A number within the limit is read from its numeral, so the defaults pass
their own checks. -/
theorem parsePositive_toDigits {max v : Nat} (hpos : 0 < v) (h : v ≤ max) :
    parsePositive max (Nat.toDigits 10 v) = .ok v :=
  parsePositive_eq_ok.2 ⟨hpos, Text.fromStrRadix_repr h⟩

/-- Both parsers accept exactly the numerals of the positive numbers their type
holds, with a sign or leading zeros or without. -/
theorem positive_numerals (value : List Char) (v : Nat) :
    (parsePositiveU64 value = .ok v ↔ 0 < v ∧ v ≤ u64Max ∧
      ∃ digits, Text.Numeral value digits ∧ v = Nat.ofDigitChars 10 digits 0) ∧
    (parsePositiveU32 value = .ok v ↔ 0 < v ∧ v ≤ u32Max ∧
      ∃ digits, Text.Numeral value digits ∧ v = Nat.ofDigitChars 10 digits 0) := by
  have hparse : ∀ max, parsePositive max value = .ok v ↔ 0 < v ∧ v ≤ max ∧
      ∃ digits, Text.Numeral value digits ∧ v = Nat.ofDigitChars 10 digits 0 := by
    intro max
    rw [parsePositive_eq_ok, Text.fromStrRadix_numeral]
    constructor
    · rintro ⟨hpos, digits, hnumeral, hv, hmax⟩
      exact ⟨hpos, hmax, digits, hnumeral, hv⟩
    · rintro ⟨hpos, hmax, digits, hnumeral, hv⟩
      exact ⟨hpos, digits, hnumeral, hv, hmax⟩
  exact ⟨hparse u64Max, hparse u32Max⟩

/-! ## What starts -/

theorem Seed.new_eq_ok {platform : Platform} {text : List Char} {seed : Seed}
    (h : Seed.new platform text = .ok seed) :
    seed.bytes = Text.utf8 text ∧ platform.lockBytes (Text.utf8 text) = .ok () := by
  unfold Seed.new at h
  split at h
  · split at h
    · cases h
    · next hlock =>
      cases h
      exact ⟨rfl, hlock⟩
  · cases h

/-- A seed that was accepted is given back. -/
theorem Seed.expose_new {platform : Platform} {text : List Char} {seed : Seed}
    (h : Seed.new platform text = .ok seed) : seed.expose = some text := by
  unfold Seed.expose
  rw [(Seed.new_eq_ok h).1]
  exact Text.fromUtf8_utf8 text

/-- The amounts are the collaterals of the ten tiers. -/
theorem validateCollateral_eq_ok {amount : Nat} :
    validateCollateral amount = .ok () ↔ ∃ tier : Fin 10, amount = 10 ^ tier.val := by
  have hlist : amount ∈ collaterals ↔ ∃ tier : Fin 10, amount = 10 ^ tier.val := by
    constructor
    · intro hmem
      simp only [collaterals, List.mem_cons, List.not_mem_nil, or_false] at hmem
      rcases hmem with rfl | rfl | rfl | rfl | rfl | rfl | rfl | rfl | rfl | rfl
      · exact ⟨0, rfl⟩
      · exact ⟨1, rfl⟩
      · exact ⟨2, rfl⟩
      · exact ⟨3, rfl⟩
      · exact ⟨4, rfl⟩
      · exact ⟨5, rfl⟩
      · exact ⟨6, rfl⟩
      · exact ⟨7, rfl⟩
      · exact ⟨8, rfl⟩
      · exact ⟨9, rfl⟩
    · rintro ⟨tier, rfl⟩
      revert tier
      decide
  unfold validateCollateral
  rw [← hlist]
  split
  · next hmem => exact ⟨fun _ => hmem, fun _ => rfl⟩
  · next hmem =>
    constructor
    · intro h
      cases h
    · intro h
      exact absurd h hmem

theorem bind_eq_ok {α β : Type} {x : Except String α} {f : α → Except String β} {b : β} :
    x >>= f = .ok b ↔ ∃ a, x = .ok a ∧ f a = .ok b := by
  cases x with
  | error err =>
    constructor
    · intro h
      cases h
    · rintro ⟨a, h, -⟩
      cases h
  | ok a =>
    constructor
    · intro h
      exact ⟨a, rfl, h⟩
    · rintro ⟨a', h, hf⟩
      cases h
      exact hf

/-- What a client has of the command line: the seed it was given, and the defaults
for the numbers that were left out. -/
structure AppConfig.Given (app : AppConfig) (stdin : Stdin) (args : Arguments) : Prop where
  seed : ∃ text, args.seed.elim (readSeedFromStdin stdin) .ok = .ok text ∧
    app.seed.expose = some text
  emptyCheck : args.emptyCheckMs = none →
    app.emptyTickCheckIntervalMs = defaultEmptyTickCheckIntervalMs
  verifyAfter : args.revealVerifyAfter = none →
    app.revealCheckDelayTicks = defaultRevealCheckDelayTicks

theorem AppConfig.fromCli_given {platform : Platform} {stdin : Stdin} {args : Arguments}
    {app : AppConfig} (h : AppConfig.fromCli platform stdin args = .ok app) :
    app.Given stdin args := by
  rcases bind_eq_ok.1 h with ⟨cli, hcli, h⟩
  rcases bind_eq_ok.1 h with ⟨text, htext, h⟩
  rcases bind_eq_ok.1 h with ⟨seed, hseed, h⟩
  rcases bind_eq_ok.1 h with ⟨checked, -, h⟩
  cases h
  rcases bind_eq_ok.1 hcli with ⟨interval, hinterval, hcli⟩
  rcases bind_eq_ok.1 hcli with ⟨delay, hdelay, hcli⟩
  cases hcli
  refine ⟨⟨text, htext, Seed.expose_new hseed⟩, ?_, ?_⟩
  · intro hnone
    rw [hnone, Option.getD_none] at hinterval
    exact Except.ok.inj (hinterval.symm.trans (parsePositive_toDigits (by decide) (by decide)))
  · intro hnone
    rw [hnone, Option.getD_none] at hdelay
    exact Except.ok.inj (hdelay.symm.trans (parsePositive_toDigits (by decide) (by decide)))

/-- A client that starts has the collateral of a tier. -/
theorem AppConfig.fromCli_collateral {platform : Platform} {stdin : Stdin} {args : Arguments}
    {app : AppConfig} (h : AppConfig.fromCli platform stdin args = .ok app) :
    ∃ tier : Fin 10, app.collateral = 10 ^ tier.val := by
  rcases bind_eq_ok.1 h with ⟨cli, -, h⟩
  rcases bind_eq_ok.1 h with ⟨text, -, h⟩
  rcases bind_eq_ok.1 h with ⟨seed, -, h⟩
  rcases bind_eq_ok.1 h with ⟨checked, hvalid, h⟩
  cases h
  exact validateCollateral_eq_ok.1 hvalid

/-! ## What the contract does with it -/

namespace Contract

/-- A call is sent back, or it leaves its provider listed at the tier of the
amount, with its tick. -/
theorem revealAndCommit_listed (qpi : Qpi) (tick : Nat) (invocator : Digest)
    (invocationReward : Nat) (input : RevealAndCommitInput) (s : StateData) :
    revealAndCommit qpi tick invocator invocationReward input s =
      (s, [.transfer invocator invocationReward]) ∨
    ∃ tier, collateralTierOf invocationReward = some tier ∧
      ∃ p ∈ (revealAndCommit qpi tick invocator invocationReward input s).1.enrolment
        (streamOf tick) invocator tier, p.lastUpdateTick = tick := by
  have houtcome := revealAndCommit_outcome qpi tick invocator invocationReward input s
  generalize revealAndCommit qpi tick invocator invocationReward input s = after at *
  cases houtcome with
  | refused => exact .inl rfl
  | @answered tier i p htier hreveal hverified =>
    right
    rcases verifiedProvider_eq_some hverified with ⟨hget, hown, -⟩
    rcases List.getElem?_eq_some_iff.1 hget with ⟨hlt, -⟩
    refine ⟨tier, htier, p.revealed input
      (if input.commit = Digest.zero then 0 else invocationReward) tick, ?_, rfl⟩
    rw [enrolment_setStream, if_pos rfl]
    exact List.mem_filter.2 ⟨List.mem_set hlt _, hown⟩
  | @enrolled tier htier hreveal hcommit hnone =>
    right
    refine ⟨tier, htier, .enrolled invocator tier input.commit invocationReward tick, ?_, rfl⟩
    rw [enrolment_setStream, if_pos rfl]
    exact List.mem_filter.2 ⟨by simp, isOwn_iff.2 ⟨rfl, rfl⟩⟩

/-- A provider has at most one entry for a key. -/
theorem StateData.WellFormed.enrolment_eq {s : StateData} (h : s.WellFormed) (stream : Fin 3)
    (provider : Digest) (tier : Fin 10) :
    s.enrolment stream provider tier = (s.enrolment stream provider tier).head?.toList := by
  have hone := h.unique stream provider tier
  rcases hentries : s.enrolment stream provider tier with - | ⟨p, - | ⟨q, rest⟩⟩
  · rfl
  · rfl
  · rw [hentries] at hone
    simp at hone

/-- The status of a provider decodes, and shows for a key what its entry holds. -/
theorem decoded_status {s : StateData} (h : s.WellFormed) (provider : Digest) :
    ∃ status, ProviderStatus.decode (getProviderStatus provider s).encode = .ok status ∧
      ∀ (stream : Fin 3) (tier : Fin 10),
        status.slot { stream := stream, collateralTier := tier } =
          (s.enrolment stream provider tier).head?.map fun p => slotOf (stream, p) := by
  refine ⟨_, decode_ok (h.keys_nodup provider) ?_, ?_⟩
  · intro entry hmem
    exact h.fits _ _ (mem_heldBy.1 hmem).1
  · intro stream tier
    exact slot_of_enrolment h (h.enrolment_eq stream provider tier)

end Contract

open Contract

/-- Whatever the command line: if the client starts, it exposes the seed it was
given and has the defaults for what was left out, and the contract sends a call
with its collateral back, or the next status of its account shows the tick of the
call under the key its engine watches in the stream of the tick, and under every
other key what it showed before. With an amount that does not start a client,
the contract sends every call back. -/
theorem started_client_watched (platform : Platform) (commitDigest : Preimage → Digest)
    (transactionDigest : Bytes → Digest) (a b c : Nat) (qpi : Qpi) (tick : Nat) (s : StateData)
    (provider : Digest) (input : RevealAndCommitInput) (hreached : Reached qpi tick s) :
    (∀ stdin args app, AppConfig.fromCli platform stdin args = .ok app →
      let cfg := app.engineConfig commitDigest transactionDigest
      let after := revealAndCommit qpi tick provider cfg.collateral input s
      let key := ((Engine.new cfg a b c).slots (streamOf tick)).key
      app.Given stdin args ∧
      (after = (s, [.transfer provider cfg.collateral]) ∨
      ∃ old new, ProviderStatus.decode (getProviderStatus provider s).encode = .ok old ∧
        ProviderStatus.decode (getProviderStatus provider after.1).encode = .ok new ∧
        (new.slot key).map ProviderSlot.lastUpdateTick = some tick ∧
        ∀ (stream : Fin 3) (tier : Fin 10),
          let other : SlotKey := { stream := stream, collateralTier := tier }
          other ≠ key → new.slot other = old.slot other)) ∧
    ∀ amount, validateCollateral amount ≠ .ok () →
      revealAndCommit qpi tick provider amount input s = (s, [.transfer provider amount]) := by
  constructor
  · intro stdin args app hstart cfg after key
    refine ⟨AppConfig.fromCli_given hstart, ?_⟩
    rcases AppConfig.fromCli_collateral hstart with ⟨tier, hcollateral⟩
    -- contract and engine take one tier from the amount
    have htierOf : collateralTierOf cfg.collateral = some tier := by
      change collateralTierOf app.collateral = some tier
      rw [hcollateral, collateralTierOf_pow]
    have hkey : key = { stream := (streamOf tick).val, collateralTier := tier.val } := by
      change ({ stream := _, collateralTier := Nat.log 10 app.collateral } : SlotKey) = _
      rw [hcollateral, Nat.log_pow (by decide)]
    rcases revealAndCommit_listed qpi tick provider cfg.collateral input s with
      hback | ⟨tier', htier', p, hp, hupdate⟩
    · exact .inl hback
    · right
      rw [htierOf, Option.some.injEq] at htier'
      subst htier'
      have hafter : after.1.WellFormed := revealAndCommit_wellFormed hreached.wellFormed
        hreached.tick_le _ _ _
      rcases decoded_status hreached.wellFormed provider with ⟨old, hold, hshows⟩
      rcases decoded_status hafter provider with ⟨new, hnew, hshows'⟩
      refine ⟨old, new, hold, hnew, ?_, ?_⟩
      · -- the entry the call left is the only one of its key
        have hhead : (after.1.enrolment (streamOf tick) provider tier).head? = some p := by
          rw [hafter.enrolment_eq] at hp
          exact Option.mem_toList.1 hp
        rw [hkey, hshows', hhead, Option.map_some, Option.map_some]
        exact congrArg some hupdate
      · intro stream tier' other hother
        have hsame : after.1.enrolment stream provider tier' = s.enrolment stream provider tier' := by
          apply revealAndCommit_enrolment_of_other
          rintro ⟨hstream, -, htier'⟩
          rw [htierOf, Option.some.injEq] at htier'
          apply hother
          rw [hkey, hstream, htier']
        rw [hshows, hshows', hsame]
  · intro amount hamount
    rcases revealAndCommit_listed qpi tick provider amount input s with hback | ⟨tier, htier, -⟩
    · exact hback
    · exact absurd (validateCollateral_eq_ok.2 ⟨tier, collateralTierOf_eq htier⟩) hamount

/-- A platform that locks every page. -/
def samplePlatform : Platform where
  defaultBobRpcEndpoint := "http://localhost:40420".toList
  lockBytes _ := .ok ()

/-- A command line with a collateral of 10 and defaults; the seed comes through a pipe. -/
def sampleArguments : Arguments where
  seed := none
  backend := .grpc
  endpoint := none
  collateral := ⟨10, by decide⟩
  emptyCheckMs := none
  revealVerifyAfter := none
  stopBeforeEpochEndSecs := ⟨600, by decide⟩
  resumeAfterEpochStartTicks := ⟨50, by decide⟩

def sampleStdin : Stdin := .piped (.ok (List.replicate 55 'a' ++ ['\n']))

/-- What they start. -/
def sampleApp : AppConfig where
  seed := ⟨Text.utf8 (List.replicate 55 'a'), by decide, by decide⟩
  backend := .grpc
  endpoint := normalizeEndpoint .grpc "http://127.0.0.1:50051".toList
  collateral := 10
  emptyTickCheckIntervalMs := 600
  revealCheckDelayTicks := 10
  epochStopLeadTimeSecs := 600
  epochResumeDelayTicks := 50

/-- A first commit in tick 7. -/
def sampleFirstCommit : RevealAndCommitInput where
  reveal := Preimage.zero
  commit := List.Vector.replicate 32 7

theorem started_client_watched_first_commit :
    ∃ new, ProviderStatus.decode (getProviderStatus sampleProvider
        (revealAndCommit sampleQpi 7 sampleProvider 10 sampleFirstCommit emptyContract).1).encode =
          .ok new ∧
      (new.slot { stream := 1, collateralTier := 1 }).map ProviderSlot.lastUpdateTick = some 7 := by
  have hreached : Reached sampleQpi 7 emptyContract := .initial (by decide)
  have hstart : AppConfig.fromCli samplePlatform sampleStdin sampleArguments = .ok sampleApp := by
    rfl
  rcases ((started_client_watched samplePlatform sampleConfig.commitDigest
    sampleConfig.transactionDigest 0 0 0 sampleQpi 7 emptyContract sampleProvider sampleFirstCommit
      hreached).1 sampleStdin sampleArguments sampleApp hstart).2 with
    hback | ⟨old, new, hold, hnew, hslot, hothers⟩
  · -- the commit is not sent back
    have hpaid : (revealAndCommit sampleQpi 7 sampleProvider 10 sampleFirstCommit emptyContract).2 =
        [] := by decide +kernel
    have hpayment := congrArg Prod.snd hback
    change (revealAndCommit sampleQpi 7 sampleProvider 10 sampleFirstCommit emptyContract).2 = _
      at hpayment
    rw [hpaid] at hpayment
    cases hpayment
  · exact ⟨new, hnew, hslot⟩

end RandomClient
