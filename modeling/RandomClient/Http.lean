import RandomClient.Basic

/-!
# Bounded HTTP bodies

`read_json` collects the chunks of a response body below a byte limit and parses
what it collected. `readBody_outcome` gives the outcome of the loop by the bytes
alone, whatever the chunks they came in.
-/

namespace RandomClient

/-- `MAX_RESPONSE_BYTES` -/
def maxResponseBytes : Nat := 16 * 1024 * 1024

/-- How the chunks of a body end: with `None`, or with a read error. -/
inductive BodyEnd where
  | complete
  | failed
deriving DecidableEq

/-- A response as `read_json` consumes it. -/
structure HttpResponse where
  status : Nat
  contentLength : Option Nat
  chunks : List Bytes
  ending : BodyEnd

/-- `StatusCode::is_success` -/
def HttpResponse.isSuccess (response : HttpResponse) : Bool :=
  200 ≤ response.status && response.status < 300

/-- The error texts of `read_json`. -/
inductive HttpError where
  | requestFailed
  | exceedsLimit
  | bodyReadFailed
  | invalidJson
deriving DecidableEq

def HttpError.message : HttpError → String
  | .requestFailed => "HTTP request failed"
  | .exceedsLimit => "HTTP response exceeds byte limit"
  | .bodyReadFailed => "HTTP body read failed"
  | .invalidJson => "Invalid HTTP JSON response"

/-- The outcome of a read, beside every value the buffer had on the way. -/
structure BodyRead (ε : Type) where
  buffers : List Bytes
  outcome : Except HttpError ε

section Read

variable {α : Type} (parse : Bytes → Option α) (limit : Nat)

/-- The chunk loop of `read_json` from the buffer `body` on. -/
def readBody (ending : BodyEnd) : Bytes → List Bytes → BodyRead Bytes
  | body, [] =>
    match ending with
    | .complete => ⟨[body], .ok body⟩
    | .failed => ⟨[body], .error .bodyReadFailed⟩
  | body, chunk :: chunks =>
    -- the subtraction saturates
    if limit - body.length < chunk.length then ⟨[body], .error .exceedsLimit⟩
    else
      let rest := readBody ending (body ++ chunk) chunks
      ⟨body :: rest.buffers, rest.outcome⟩

/-- `read_json`, with `serde_json::from_slice` as `parse`. -/
def readJson (response : HttpResponse) : BodyRead α :=
  if response.isSuccess = false then ⟨[], .error .requestFailed⟩
  else if response.contentLength.any fun len => decide (limit < len) then
    ⟨[], .error .exceedsLimit⟩
  else
    let read := readBody limit response.ending [] response.chunks
    match read.outcome with
    | .error err => ⟨read.buffers, .error err⟩
    | .ok body =>
      match parse body with
      | none => ⟨read.buffers, .error .invalidJson⟩
      | some value => ⟨read.buffers, .ok value⟩

/-- `get_json` and `post_json_url` once the request was sent; `none` when sending failed. -/
def sendJson (sent : Option HttpResponse) : Except HttpError α :=
  match sent with
  | none => .error .requestFailed
  | some response => (readJson parse maxResponseBytes response).outcome

variable {parse limit}

/-! ## The loop -/

/-- The buffer never grows past the limit. -/
theorem readBody_bounded {ending : BodyEnd} {chunks : List Bytes} :
    ∀ {body : Bytes}, body.length ≤ limit →
      ∀ buffer ∈ (readBody limit ending body chunks).buffers, buffer.length ≤ limit := by
  induction chunks with
  | nil =>
    intro body hbody buffer hmem
    have heq : buffer = body := by
      cases ending <;> exact List.mem_singleton.1 hmem
    rw [heq]
    exact hbody
  | cons chunk chunks ih =>
    intro body hbody buffer hmem
    unfold readBody at hmem
    split at hmem
    · rw [List.mem_singleton.1 hmem]
      exact hbody
    · next hfit =>
      rcases List.mem_cons.1 hmem with rfl | hmem
      · exact hbody
      · -- what the test admits still fits behind the buffer
        have hnext : (body ++ chunk).length ≤ limit := by
          rw [List.length_append]
          omega
        exact ih hnext buffer hmem

/-- The outcome depends on the bytes and on the ending, not on the chunks. -/
theorem readBody_outcome {ending : BodyEnd} {chunks : List Bytes} :
    ∀ {body : Bytes}, body.length ≤ limit →
      (readBody limit ending body chunks).outcome =
        if limit < (body ++ chunks.flatten).length then .error .exceedsLimit
        else if ending = .failed then .error .bodyReadFailed
        else .ok (body ++ chunks.flatten) := by
  induction chunks with
  | nil =>
    intro body hbody
    rw [List.flatten_nil, List.append_nil, if_neg (Nat.not_lt.2 hbody)]
    cases ending with
    | complete => rfl
    | failed => rfl
  | cons chunk chunks ih =>
    intro body hbody
    unfold readBody
    by_cases hover : limit - body.length < chunk.length
    · -- the chunk alone passes the limit, so the whole body does
      have htotal : limit < (body ++ (chunk :: chunks).flatten).length := by
        rw [List.flatten_cons, List.length_append, List.length_append]
        omega
      rw [if_pos hover, if_pos htotal]
    · have hnext : (body ++ chunk).length ≤ limit := by
        rw [List.length_append]
        omega
      have hstep := ih hnext
      rw [List.append_assoc, ← List.flatten_cons] at hstep
      rw [if_neg hover]
      exact hstep

/-! ## The whole read -/

/-- The declared length is absent or within the limit. -/
def HttpResponse.Admitted (limit : Nat) (response : HttpResponse) : Prop :=
  response.isSuccess = true ∧ ∀ len, response.contentLength = some len → len ≤ limit

/-- The bytes of the body, all chunks together. -/
def HttpResponse.bytes (response : HttpResponse) : Bytes := response.chunks.flatten

theorem HttpResponse.Admitted.declared {response : HttpResponse}
    (h : response.Admitted limit) :
    (response.contentLength.any fun len => decide (limit < len)) = false := by
  cases hlen : response.contentLength with
  | none => rfl
  | some len =>
    have hle := h.2 len hlen
    show decide (limit < len) = false
    rw [decide_eq_false_iff_not]
    omega

/-- A response that passes the status and length tests is decided by its bytes. -/
theorem readJson_admitted {response : HttpResponse} (h : response.Admitted limit) :
    (readJson parse limit response).outcome =
      if limit < response.bytes.length then .error .exceedsLimit
      else if response.ending = .failed then .error .bodyReadFailed
      else
        match parse response.bytes with
        | none => .error .invalidJson
        | some value => .ok value := by
  have hempty : ([] : Bytes).length ≤ limit := Nat.zero_le limit
  have hread := @readBody_outcome limit response.ending response.chunks [] hempty
  rw [List.nil_append] at hread
  unfold readJson
  rw [if_neg (by simp [h.1]), if_neg (by simp [h.declared])]
  simp only [hread]
  show _ = if limit < response.chunks.flatten.length then _ else _
  by_cases hover : limit < response.chunks.flatten.length
  · rw [if_pos hover, if_pos hover]
  · rw [if_neg hover, if_neg hover]
    by_cases hfailed : response.ending = .failed
    · rw [if_pos hfailed, if_pos hfailed]
    · rw [if_neg hfailed, if_neg hfailed]
      show (match parse response.chunks.flatten with
        | none => _
        | some value => _ : BodyRead α).outcome = match parse response.chunks.flatten with
        | none => _
        | some value => _
      cases parse response.chunks.flatten <;> rfl

theorem readJson_buffers {response : HttpResponse} :
    ∀ buffer ∈ (readJson parse limit response).buffers, buffer.length ≤ limit := by
  intro buffer hmem
  have hempty : ([] : Bytes).length ≤ limit := Nat.zero_le limit
  have hbounded := @readBody_bounded limit response.ending response.chunks [] hempty
  unfold readJson at hmem
  split at hmem
  · exact absurd hmem List.not_mem_nil
  · split at hmem
    · exact absurd hmem List.not_mem_nil
    · apply hbounded
      simp only at hmem
      split at hmem
      · exact hmem
      · split at hmem <;> exact hmem

/-- The parse of the bytes, a failure under the error `read_json` gives it. -/
def parseOutcome (parse : Bytes → Option α) (bytes : Bytes) : Except HttpError α :=
  match parse bytes with
  | none => .error .invalidJson
  | some value => .ok value

/-- A body that ends normally is decided by its bytes and their number. -/
theorem readJson_complete {response : HttpResponse} (h : response.Admitted limit)
    (hending : response.ending = .complete) :
    (readJson parse limit response).outcome =
      if response.bytes.length ≤ limit then parseOutcome parse response.bytes
      else .error .exceedsLimit := by
  rw [readJson_admitted h]
  by_cases hfit : response.bytes.length ≤ limit
  · rw [if_neg (Nat.not_lt.2 hfit), if_pos hfit, if_neg (by simp [hending])]
    rfl
  · rw [if_pos (Nat.lt_of_not_le hfit), if_neg hfit]

/-- A read error gives an error, whatever was collected before it. -/
theorem readJson_failed {response : HttpResponse} (h : response.Admitted limit)
    (hending : response.ending = .failed) :
    ∃ err, (readJson parse limit response).outcome = .error err := by
  rw [readJson_admitted h]
  by_cases hover : limit < response.bytes.length
  · exact ⟨_, if_pos hover⟩
  · rw [if_neg hover]
    exact ⟨_, if_pos hending⟩

theorem readJson_not_admitted {response : HttpResponse} (h : ¬ response.Admitted limit) :
    ∃ err, (readJson parse limit response).outcome = .error err := by
  unfold readJson
  by_cases hstatus : response.isSuccess = false
  · rw [if_pos hstatus]
    exact ⟨_, rfl⟩
  · have hdeclared : (response.contentLength.any fun len => decide (limit < len)) = true := by
      by_contra hwithin
      apply h
      refine ⟨Bool.not_eq_false _ ▸ hstatus, fun len hlen => ?_⟩
      rw [hlen] at hwithin
      simp at hwithin
      exact hwithin
    rw [if_neg hstatus, if_pos hdeclared]
    exact ⟨_, rfl⟩

/-- `read_json` keeps at most `limit` bytes, decides a complete body by its bytes
however they are split, and never returns a value past a bad status, a declared
length above the limit or a read error. -/
theorem read_json_independent_of_chunking (parse : Bytes → Option α) (limit : Nat)
    (response : HttpResponse) :
    (∀ buffer ∈ (readJson parse limit response).buffers, buffer.length ≤ limit) ∧
      (response.Admitted limit → response.ending = .complete →
        (readJson parse limit response).outcome =
          if response.bytes.length ≤ limit then parseOutcome parse response.bytes
          else .error .exceedsLimit) ∧
      (∀ other : HttpResponse, response.Admitted limit → other.Admitted limit →
        response.ending = .complete → other.ending = .complete →
        response.bytes = other.bytes →
        (readJson parse limit response).outcome = (readJson parse limit other).outcome) ∧
      ((response.isSuccess = false ∨
          (∃ len, response.contentLength = some len ∧ limit < len) ∨
          response.ending = .failed) →
        ∃ err, (readJson parse limit response).outcome = .error err) := by
  refine ⟨readJson_buffers, readJson_complete, ?_, ?_⟩
  · intro other hadmitted hadmitted' hending hending' hbytes
    rw [readJson_complete hadmitted hending, readJson_complete hadmitted' hending', hbytes]
  · intro hbad
    by_cases hadmitted : response.Admitted limit
    · rcases hbad with hstatus | ⟨len, hlen, hover⟩ | hfailed
      · rw [hadmitted.1] at hstatus
        cases hstatus
      · have hle := hadmitted.2 len hlen
        omega
      · exact readJson_failed hadmitted hfailed
    · exact readJson_not_admitted hadmitted

/-- The body `{}` in one chunk or in three, read under a limit of two bytes. -/
theorem read_json_split_body :
    (readJson some 2 ⟨200, none, [[123], [], [125]], .complete⟩).outcome =
      (readJson some 2 ⟨200, some 2, [[123, 125]], .complete⟩).outcome :=
  (read_json_independent_of_chunking some 2 ⟨200, none, [[123], [], [125]], .complete⟩).2.2.1
    ⟨200, some 2, [[123, 125]], .complete⟩
    ⟨rfl, by simp⟩ ⟨rfl, by simp⟩ rfl rfl rfl

end Read

end RandomClient
