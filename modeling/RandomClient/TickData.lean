import Mathlib.Data.Finset.Insert
import RandomClient.Basic

/-!
# Tick data over gRPC

A lightnode answers with the transactions of one tick. `qln_tick_has_transactions`
turns the answer into an observation of the tick, with the digests only when the
answer carries the complete list. `Complete` and `PresenceOnly` describe the two
kinds of answers it accepts.
-/

namespace RandomClient

/-- `GetTickTransactionsResponse`, without the error text that is not read. -/
structure GetTickTransactionsResponse where
  ok : Bool
  tick : Nat
  hasTransactions : Bool
  transactionDigests : List Bytes
  digestsComplete : Bool
deriving DecidableEq

/-- The most digests an answer may carry. -/
abbrev maxTickDigests : Nat := 4096

/-- `From<bool> for TickTransactions`. -/
def TickTransactions.ofPresence (hasTransactions : Bool) : TickTransactions where
  hasTransactions := hasTransactions
  transactionDigests := none

/-- `<[u8; 32]>::try_from` -/
def Digest.tryFrom (bytes : Bytes) : Option Digest :=
  if hsize : bytes.length = 32 then some ⟨bytes, hsize⟩ else none

/-- The loop over the digests: `seen` are the digests so far as a set, `digests`
as a list. -/
def readDigests (seen : Finset Digest) (digests : List Digest) :
    List Bytes → Except String (List Digest)
  | [] => .ok digests
  | bytes :: rest =>
    match Digest.tryFrom bytes with
    | none => .error "QLN returned an invalid digest size"
    | some digest =>
      if digest = Digest.zero ∨ digest ∈ seen then
        .error "QLN returned a zero or duplicate digest"
      else readDigests (insert digest seen) (digests ++ [digest]) rest

/-- `qln_tick_has_transactions`. -/
def qlnTickHasTransactions (response : GetTickTransactionsResponse) (requestedTick : Nat) :
    Except String TickTransactions :=
  if response.ok = false then .error "QLN tick-data query failed"
  else if response.tick ≠ requestedTick then .error "QLN returned a different tick"
  else if response.digestsComplete = false then
    if response.transactionDigests ≠ [] then .error "QLN returned an incomplete digest list"
    else .ok (TickTransactions.ofPresence response.hasTransactions)
  else if maxTickDigests < response.transactionDigests.length ∨
      response.hasTransactions = response.transactionDigests.isEmpty then
    .error "QLN returned inconsistent tick digests"
  else do
    let digests ← readDigests ∅ [] response.transactionDigests
    return {
      hasTransactions := response.hasTransactions
      transactionDigests := some digests }

/-! ## The digests of an answer -/

theorem toList_injective : Function.Injective (List.Vector.toList : Digest → Bytes) :=
  Subtype.val_injective

theorem Digest.tryFrom_eq_some {bytes : Bytes} {digest : Digest} :
    Digest.tryFrom bytes = some digest ↔ digest.toList = bytes := by
  unfold Digest.tryFrom
  constructor
  · intro h
    split at h
    · cases h
      rfl
    · cases h
  · rintro rfl
    exact dif_pos digest.2

/-- What the loop accepts, and in which order it keeps it. -/
theorem readDigests_eq_ok {seen : Finset Digest} {digests result : List Digest} {list : List Bytes} :
    readDigests seen digests list = .ok result ↔
      ∃ fresh : List Digest, result = digests ++ fresh ∧ fresh.map List.Vector.toList = list ∧
        Digest.zero ∉ fresh ∧ fresh.Nodup ∧ ∀ digest ∈ fresh, digest ∉ seen := by
  induction list generalizing seen digests with
  | nil =>
    unfold readDigests
    constructor
    · intro h
      cases h
      exact ⟨[], by simp⟩
    · rintro ⟨fresh, rfl, hmap, -⟩
      rw [List.map_eq_nil_iff.1 hmap, List.append_nil]
  | cons bytes rest ih =>
    unfold readDigests
    cases hfrom : Digest.tryFrom bytes with
    | none =>
      constructor
      · intro h
        cases h
      · rintro ⟨fresh, -, hmap, -⟩
        rcases List.map_eq_cons_iff.1 hmap with ⟨digest, others, rfl, hdigest, -⟩
        rw [Digest.tryFrom_eq_some.2 hdigest] at hfrom
        cases hfrom
    | some digest =>
      have hbytes := Digest.tryFrom_eq_some.1 hfrom
      dsimp only
      split
      · -- the loop stops at a zero or a second digest
        rename_i hbad
        constructor
        · intro h
          cases h
        · rintro ⟨fresh, -, hmap, hzero, hnodup, hseen⟩
          exfalso
          rcases List.map_eq_cons_iff.1 hmap with ⟨first, others, rfl, hfirst, -⟩
          cases toList_injective (hfirst.trans hbytes.symm)
          rcases hbad with hbad | hbad
          · exact hzero (hbad ▸ List.mem_cons_self)
          · exact hseen digest List.mem_cons_self hbad
      · rename_i hgood
        rw [not_or] at hgood
        rw [ih]
        constructor
        · rintro ⟨fresh, rfl, rfl, hzero, hnodup, hseen⟩
          refine ⟨digest :: fresh, by simp, by rw [List.map_cons, hbytes], ?_, ?_, ?_⟩
          · rw [List.mem_cons, not_or]
            exact ⟨Ne.symm hgood.1, hzero⟩
          · refine List.nodup_cons.2 ⟨?_, hnodup⟩
            intro hmem
            exact hseen _ hmem (Finset.mem_insert_self _ _)
          · intro other hmem
            rcases List.mem_cons.1 hmem with rfl | hmem
            · exact hgood.2
            · intro hold
              exact hseen other hmem (Finset.mem_insert_of_mem hold)
        · rintro ⟨fresh, rfl, hmap, hzero, hnodup, hseen⟩
          rcases List.map_eq_cons_iff.1 hmap with ⟨first, others, rfl, hfirst, rfl⟩
          cases toList_injective (hfirst.trans hbytes.symm)
          rw [List.nodup_cons] at hnodup
          rw [List.mem_cons, not_or] at hzero
          refine ⟨others, by simp, rfl, hzero.2, hnodup.2, ?_⟩
          intro other hmem hold
          rcases Finset.mem_insert.1 hold with rfl | hold
          · exact hnodup.1 hmem
          · exact hseen other (List.mem_cons_of_mem _ hmem) hold

/-! ## Accepted answers -/

/-- An answer with the complete digest list of the requested tick. -/
structure GetTickTransactionsResponse.Complete (response : GetTickTransactionsResponse)
    (requestedTick : Nat) : Prop where
  ok : response.ok = true
  tick : response.tick = requestedTick
  complete : response.digestsComplete = true
  bounded : response.transactionDigests.length ≤ maxTickDigests
  sized : ∀ bytes ∈ response.transactionDigests, bytes.length = 32
  nonzero : ∀ bytes ∈ response.transactionDigests, bytes ≠ List.replicate 32 0
  distinct : response.transactionDigests.Nodup
  consistent : response.hasTransactions = true ↔ response.transactionDigests ≠ []

/-- An answer that says only whether the requested tick has transactions. -/
structure GetTickTransactionsResponse.PresenceOnly (response : GetTickTransactionsResponse)
    (requestedTick : Nat) : Prop where
  ok : response.ok = true
  tick : response.tick = requestedTick
  incomplete : response.digestsComplete = false
  absent : response.transactionDigests = []

section Adapter

variable {response : GetTickTransactionsResponse} {requestedTick : Nat}

theorem toList_eq_zero {digest : Digest} :
    digest.toList = List.replicate 32 0 ↔ digest = Digest.zero :=
  ⟨fun h => toList_injective h, fun h => by rw [h]; rfl⟩

/-- The check on the presence bit says that it tells whether the list is empty. -/
theorem consistent_iff {hasTransactions : Bool} {list : List Bytes} :
    ¬ hasTransactions = list.isEmpty ↔ (hasTransactions = true ↔ list ≠ []) := by
  cases hasTransactions <;> cases list <;> simp

/-- The observations the adapter yields. -/
theorem qlnTickHasTransactions_eq_ok {observation : TickTransactions} :
    qlnTickHasTransactions response requestedTick = .ok observation ↔
      (response.PresenceOnly requestedTick ∧
        observation = TickTransactions.ofPresence response.hasTransactions) ∨
      (response.Complete requestedTick ∧ ∃ digests : List Digest,
        digests.map List.Vector.toList = response.transactionDigests ∧
        observation = { hasTransactions := response.hasTransactions
                        transactionDigests := some digests }) := by
  unfold qlnTickHasTransactions
  constructor
  · intro h
    split at h
    · cases h
    · rename_i hok
      split at h
      · cases h
      · rename_i htick
        rw [Bool.not_eq_false] at hok
        rw [not_not] at htick
        split at h
        · rename_i hincomplete
          split at h
          · cases h
          · rename_i habsent
            rw [not_not] at habsent
            cases h
            exact .inl ⟨⟨hok, htick, hincomplete, habsent⟩, rfl⟩
        · rename_i hcomplete
          rw [Bool.not_eq_false] at hcomplete
          split at h
          · cases h
          · rename_i hlist
            rw [not_or, Nat.not_lt] at hlist
            cases hread : readDigests ∅ [] response.transactionDigests with
            | error err =>
              rw [hread] at h
              cases h
            | ok digests =>
              rw [hread] at h
              cases h
              rcases readDigests_eq_ok.1 hread with ⟨fresh, rfl, hmap, hzero, hnodup, -⟩
              refine .inr ⟨⟨hok, htick, hcomplete, hlist.1, ?_, ?_, ?_, ?_⟩, _, hmap, rfl⟩
              · intro bytes hmem
                rw [← hmap] at hmem
                rcases List.mem_map.1 hmem with ⟨digest, -, rfl⟩
                exact digest.2
              · intro bytes hmem
                rw [← hmap] at hmem
                rcases List.mem_map.1 hmem with ⟨digest, hdigest, rfl⟩
                intro hbytes
                exact hzero (toList_eq_zero.1 hbytes ▸ hdigest)
              · rw [← hmap]
                exact hnodup.map toList_injective
              · exact consistent_iff.1 hlist.2
  · rintro (⟨hresponse, rfl⟩ | ⟨hresponse, digests, hmap, rfl⟩)
    · rw [if_neg (by simp [hresponse.ok]), if_neg (by simp [hresponse.tick]),
        if_pos hresponse.incomplete, if_neg (by simp [hresponse.absent])]
    · have hempty : ¬ (maxTickDigests < response.transactionDigests.length ∨
          response.hasTransactions = response.transactionDigests.isEmpty) := by
        rw [not_or]
        exact ⟨Nat.not_lt.2 hresponse.bounded, consistent_iff.2 hresponse.consistent⟩
      have hread : readDigests ∅ [] response.transactionDigests = .ok digests := by
        rw [readDigests_eq_ok]
        refine ⟨digests, rfl, hmap, ?_, ?_, by simp⟩
        · intro hmem
          apply hresponse.nonzero (List.Vector.toList Digest.zero)
          · rw [← hmap]
            exact List.mem_map_of_mem hmem
          · rfl
        · have hdistinct := hresponse.distinct
          rw [← hmap] at hdistinct
          exact hdistinct.of_map _
      rw [if_neg (by simp [hresponse.ok]), if_neg (by simp [hresponse.tick]),
        if_neg (by simp [hresponse.complete]), if_neg hempty, hread]
      rfl

/-- Whether an accepted answer has a digest is decided by its own byte strings. -/
theorem contains_of_response {observation : TickTransactions}
    (h : qlnTickHasTransactions response requestedTick = .ok observation) (digest : Digest) :
    observation.contains digest =
      if response.digestsComplete then some (decide (digest.toList ∈ response.transactionDigests))
      else none := by
  rcases qlnTickHasTransactions_eq_ok.1 h with ⟨hresponse, rfl⟩ | ⟨hresponse, digests, hmap, rfl⟩
  · rw [hresponse.incomplete]
    rfl
  · have hmem : digest.toList ∈ response.transactionDigests ↔ digest ∈ digests := by
      rw [← hmap]
      exact List.mem_map_of_injective toList_injective
    rw [hresponse.complete, if_pos rfl]
    show some (digests.contains digest) = _
    rw [decide_eq_decide.2 hmem, List.contains_eq_mem]

/-- A complete answer has a digest for each of its byte strings. -/
theorem GetTickTransactionsResponse.Complete.digests (h : response.Complete requestedTick) :
    ∃ digests : List Digest, digests.map List.Vector.toList = response.transactionDigests := by
  have hsized := h.sized
  generalize response.transactionDigests = list at hsized
  induction list with
  | nil => exact ⟨[], rfl⟩
  | cons bytes rest ih =>
    rcases ih fun other hmem => hsized other (List.mem_cons_of_mem _ hmem) with ⟨digests, rfl⟩
    exact ⟨⟨bytes, hsized bytes List.mem_cons_self⟩ :: digests, rfl⟩

/-- What is neither complete nor presence only is an error. -/
theorem qlnTickHasTransactions_error (hcomplete : ¬ response.Complete requestedTick)
    (hpresence : ¬ response.PresenceOnly requestedTick) :
    ∃ err, qlnTickHasTransactions response requestedTick = .error err := by
  cases h : qlnTickHasTransactions response requestedTick with
  | error err => exact ⟨err, rfl⟩
  | ok observation =>
    rcases qlnTickHasTransactions_eq_ok.1 h with ⟨hresponse, -⟩ | ⟨hresponse, -⟩
    · exact absurd hresponse hpresence
    · exact absurd hresponse hcomplete

end Adapter

end RandomClient
