import RandomClient.Run

/-!
# The loop returns

`run` has no way out but the shutdown observer, and once the observer reported a
request it returns at the first iteration in which the slots have drained or the
deadline of the request has passed, whatever the network does until then.
-/

namespace RandomClient

variable {cfg : Config}

/-- There is a deadline exactly once the shutdown was requested. -/
def RunState.Timed (s : RunState) : Prop := s.shuttingDown = s.shutdownDeadline.isSome

/-- The loop returned, or is shutting down since the instant of the request. -/
def RunState.Requested (requestedAt : Nat) (s : RunState) : Prop :=
  s.returned.isSome = true ∨
    (s.shuttingDown = true ∧ s.shutdownDeadline = some (requestedAt + shutdownTimeoutMs))

/-! ## One iteration -/

/-- An iteration finds the loop returned, returns at its top, or runs its cycle
and then looks at the observer. -/
theorem iterate_outcome (s : RunState) (input : RunInput) :
    (s.returned.isSome = true ∧ (s.iterate cfg input).1 = s) ∨
    (∃ result, s.result input.now = some result ∧
      (s.iterate cfg input).1 = { s with returned := some result }) ∨
    (s.returned = none ∧ s.result input.now = none ∧
      ∃ mid : RunState, mid.shuttingDown = s.shuttingDown ∧
        mid.shutdownDeadline = s.shutdownDeadline ∧ mid.returned = none ∧
        (s.iterate cfg input).1 = (mid.observe cfg input).1) := by
  unfold RunState.iterate
  split
  · next hreturned => exact .inl ⟨hreturned, rfl⟩
  · next hrunning =>
    have hnone : s.returned = none := Option.not_isSome_iff_eq_none.1 hrunning
    split
    · next result hresult => exact .inr (.inl ⟨result, hresult, rfl⟩)
    · next hresult =>
      refine .inr (.inr ⟨hnone, hresult, { s with
        engine := (engineStep cfg (.cycle (s.cycleInput input)) s.engine).engine
        cancelled := (s.cycleInput input).cancelled }, rfl, rfl, hnone, rfl⟩)

/-- The end of an iteration does nothing, returns an error of the observer, or
takes up the request. -/
theorem observe_outcome (s : RunState) (input : RunInput) :
    ((s.shuttingDown = true ∨ input.observer = none) ∧ (s.observe cfg input).1 = s) ∨
    (s.shuttingDown = false ∧ ∃ err, input.observer = some (.error err) ∧
      (s.observe cfg input).1 = { s with returned := some (.error err) }) ∨
    (s.shuttingDown = false ∧ ∃ requestedAt, input.observer = some (.ok requestedAt) ∧
      (s.observe cfg input).1.shuttingDown = true ∧
      (s.observe cfg input).1.shutdownDeadline = some (requestedAt + shutdownTimeoutMs)) := by
  unfold RunState.observe
  cases hshutting : s.shuttingDown with
  | true => exact .inl ⟨.inl rfl, rfl⟩
  | false =>
    cases hobserver : input.observer with
    | none => exact .inl ⟨.inr rfl, rfl⟩
    | some observed =>
      cases observed with
      | error err => exact .inr (.inl ⟨rfl, err, rfl, rfl⟩)
      | ok requestedAt => exact .inr (.inr ⟨rfl, requestedAt, rfl, rfl, rfl⟩)

/-- Without a request nothing is due. -/
theorem result_of_running {s : RunState} (h : s.Timed) (hrunning : s.shuttingDown = false)
    (now : Nat) : s.result now = none := by
  have hdeadline : s.shutdownDeadline = none := by
    rw [← Option.not_isSome_iff_eq_none, ← h, hrunning]
    decide
  unfold RunState.result
  simp [hrunning, hdeadline]

theorem RunState.Timed.iterate {s : RunState} (h : s.Timed) (input : RunInput) :
    (s.iterate cfg input).1.Timed := by
  rcases @iterate_outcome cfg s input with
    ⟨-, hsame⟩ | ⟨result, -, hsame⟩ | ⟨-, -, mid, hshutting, hdeadline, -, hsame⟩
  · rw [hsame]
    exact h
  · rw [hsame]
    exact h
  · have hmid : mid.Timed := by
      rw [RunState.Timed, hshutting, hdeadline]
      exact h
    rw [hsame]
    rcases @observe_outcome cfg mid input with
      ⟨-, hidle⟩ | ⟨-, err, -, hfailed⟩ | ⟨-, requestedAt, -, htaken, hset⟩
    · rw [hidle]
      exact hmid
    · rw [hfailed]
      exact hmid
    · rw [RunState.Timed, htaken, hset]
      rfl

/-- A request stays a request. -/
theorem RunState.Requested.iterate {s : RunState} {requestedAt : Nat} (h : s.Requested requestedAt)
    (input : RunInput) : (s.iterate cfg input).1.Requested requestedAt := by
  rcases @iterate_outcome cfg s input with
    ⟨-, hsame⟩ | ⟨result, -, hsame⟩ | ⟨hnone, -, mid, hshutting, hdeadline, -, hsame⟩
  · rw [hsame]
    exact h
  · rw [hsame]
    exact .inl rfl
  · rcases h with hreturned | ⟨hrequested, hat⟩
    · rw [hnone] at hreturned
      cases hreturned
    · rw [hsame]
      rcases @observe_outcome cfg mid input with ⟨-, hidle⟩ | ⟨hfree, -⟩ | ⟨hfree, -⟩
      · rw [hidle]
        exact .inr ⟨hshutting.trans hrequested, hdeadline.trans hat⟩
      · -- a loop that is shutting down does not look at the observer again
        rw [hshutting, hrequested] at hfree
        cases hfree
      · rw [hshutting, hrequested] at hfree
        cases hfree

/-- The iteration in which the observer reports a request takes it up. -/
theorem requested_of_observed {s : RunState} {input : RunInput} {requestedAt : Nat}
    (h : s.Timed) (hrunning : s.shuttingDown = false) (hnone : s.returned = none)
    (hobserver : input.observer = some (.ok requestedAt)) :
    (s.iterate cfg input).1.Requested requestedAt := by
  rcases @iterate_outcome cfg s input with
    ⟨hreturned, -⟩ | ⟨result, hresult, -⟩ | ⟨-, -, mid, hshutting, hdeadline, -, hsame⟩
  · rw [hnone] at hreturned
    cases hreturned
  · rw [result_of_running h hrunning] at hresult
    cases hresult
  · rw [hsame]
    rcases @observe_outcome cfg mid input with
      ⟨hidle | hidle, -⟩ | ⟨-, err, herr, -⟩ | ⟨-, requestedAt', hat, htaken, hset⟩
    · rw [hshutting, hrunning] at hidle
      cases hidle
    · rw [hobserver] at hidle
      cases hidle
    · rw [hobserver] at herr
      cases herr
    · rw [hobserver] at hat
      cases hat
      exact .inr ⟨htaken, hset⟩

/-- A loop with a request returns once its slots have drained or it is late. -/
theorem returns_of_requested {s : RunState} {input : RunInput} {requestedAt : Nat}
    (h : s.Requested requestedAt)
    (hdue : s.engine.shutdownComplete = true ∨ requestedAt + shutdownTimeoutMs ≤ input.now) :
    (s.iterate cfg input).1.returned.isSome = true := by
  rcases @iterate_outcome cfg s input with
    ⟨hreturned, hsame⟩ | ⟨result, -, hsame⟩ | ⟨hnone, hresult, -⟩
  · rw [hsame]
    exact hreturned
  · rw [hsame]
    rfl
  · -- at the top of the loop one of the two checks succeeds
    exfalso
    rcases h with hreturned | ⟨hrequested, hat⟩
    · rw [hnone] at hreturned
      cases hreturned
    · unfold RunState.result at hresult
      rw [hat] at hresult
      split at hresult
      · split at hresult <;> cases hresult
      · next hincomplete =>
        rcases hdue with hcomplete | hlate
        · exact hincomplete ⟨hrequested, hcomplete⟩
        · simp [hlate] at hresult

/-! ## Whole runs -/

theorem run_timed (a b c : Nat) (inputs : List RunInput) :
    ((runMachine cfg).state (RunState.new cfg a b c) inputs).Timed :=
  (runMachine cfg).state_invariant (RunState.new cfg a b c) RunState.Timed rfl
    (fun _ input h => h.iterate input) inputs

/-- Whatever the network and the slots do: the loop returns only after the
observer finished; and once the observer reported a request to a loop that runs,
the loop has returned at the end of every later iteration that starts with all
slots drained or with the deadline of the request passed. -/
theorem shutdown_bounded (cfg : Config) (a b c : Nat) :
    (∀ inputs, ((runMachine cfg).state (RunState.new cfg a b c) inputs).returned.isSome = true →
      ∃ input ∈ inputs, input.observer.isSome = true) ∧
    ∀ before input later last requestedAt,
      let s := (runMachine cfg).state (RunState.new cfg a b c) before
      let s' := (runMachine cfg).state (RunState.new cfg a b c) (before ++ input :: later)
      s.returned = none → s.shuttingDown = false → input.observer = some (.ok requestedAt) →
        (s'.engine.shutdownComplete = true ∨ requestedAt + shutdownTimeoutMs ≤ last.now) →
          ((runMachine cfg).state (RunState.new cfg a b c)
            (before ++ input :: later ++ [last])).returned.isSome = true := by
  constructor
  · intro inputs hreturned
    -- until the observer finishes the loop neither shuts down nor returns
    by_contra hnever
    have hinv : ∀ inputs : List RunInput, (∀ input ∈ inputs, input.observer = none) →
        ((runMachine cfg).state (RunState.new cfg a b c) inputs).shuttingDown = false ∧
          ((runMachine cfg).state (RunState.new cfg a b c) inputs).returned = none := by
      intro inputs
      induction inputs using List.reverseRecOn with
      | nil => exact fun _ => ⟨rfl, rfl⟩
      | append_singleton inputs input ih =>
        intro hsilent
        rcases ih fun other hmem => hsilent other (List.mem_append_left _ hmem) with
          ⟨hrunning, hnone⟩
        have htimed := @run_timed cfg a b c inputs
        rw [Machine.state_snoc]
        generalize (runMachine cfg).state (RunState.new cfg a b c) inputs = s at *
        change (s.iterate cfg input).1.shuttingDown = false ∧ (s.iterate cfg input).1.returned = none
        rcases @iterate_outcome cfg s input with
          ⟨hsome, -⟩ | ⟨result, hresult, -⟩ | ⟨-, -, mid, hshutting, -, hmid, hsame⟩
        · rw [hnone] at hsome
          cases hsome
        · rw [result_of_running htimed hrunning] at hresult
          cases hresult
        · have hobserver := hsilent input (by simp)
          rw [hsame]
          rcases @observe_outcome cfg mid input with
            ⟨-, hidle⟩ | ⟨-, err, herr, -⟩ | ⟨-, requestedAt, hat, -⟩
          · rw [hidle]
            exact ⟨hshutting.trans hrunning, hmid⟩
          · rw [hobserver] at herr
            cases herr
          · rw [hobserver] at hat
            cases hat
    have hsilent : ∀ input ∈ inputs, input.observer = none := by
      intro input hmem
      by_contra hsome
      exact hnever ⟨input, hmem, Option.isSome_iff_ne_none.2 hsome⟩
    rw [(hinv inputs hsilent).2] at hreturned
    cases hreturned
  · intro before input later last requestedAt s s' hnone hrunning hobserver hdue
    have hrequested : s'.Requested requestedAt := by
      change ((runMachine cfg).state _ (before ++ input :: later)).Requested requestedAt
      rw [Machine.state_append, Machine.state_cons]
      exact (runMachine cfg).state_invariant _ (RunState.Requested requestedAt)
        (requested_of_observed (run_timed a b c before) hrunning hnone hobserver)
        (fun _ input h => h.iterate input) later
    rw [Machine.state_snoc]
    exact returns_of_requested hrequested hdue

/-- An iteration in which the node answers nothing. -/
def deafInput (now : Nat) (observer : Option (Except String Nat)) : RunInput where
  now := now
  cycle :=
    { tick := .error "get tick info timed out after 2s"
      now := { timestamp := 0 }
      statusResult := none
      broadcastResults := fun _ _ => none
      cancelled := false
      env := fun _ => sampleEnv
      tickCheckResult := none
      clock :=
        { resetTickCheckAt := 0, resetStatusAt := 0, resetMonitorAt := 0, statusAt := 0
          statusStartedAt := 0, expireAt := 0, harvestAt := 0, ensureExpireAt := 0, ensureAt := 0 } }
  observer := observer
  env := fun _ => sampleEnv

theorem shutdown_bounded_deaf_node :
    ((runMachine sampleConfig).state (RunState.new sampleConfig 0 0 0)
      ([] ++ deafInput 500 (some (.ok 400)) :: [deafInput 80000 none] ++
        [deafInput 90400 none])).returned.isSome = true :=
  (shutdown_bounded sampleConfig 0 0 0).2 [] (deafInput 500 (some (.ok 400)))
    [deafInput 80000 none] (deafInput 90400 none) 400 rfl rfl rfl (.inr (by decide))

end RandomClient
