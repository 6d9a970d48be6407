import Mathlib.Order.Bounds.Basic
import RandomClient.Lib.Labelled
import RandomClient.Trace

/-!
# The abstract planner

What the planning of one stream is for, with the queue, the delivery and the
status bookkeeping left out: at any time there is no chain (`idle`), a chain
that is being extended (`live`), a chain whose tail status froze (`frozen`), a
chain with a terminal reveal (`closing`), or nothing more will be signed in
this epoch (`closed`). `PlanStep` lists the transitions with the calls they
sign. `PlanInv` is the invariant of its runs: the calls of an epoch form a
sequence in which each follows the one before by the chain's rule or opens the
next chain, and the newest chain is a commit–reveal chain.

The slot of the engine refines this planner (`RandomClient.Refinement`).
-/

namespace RandomClient

variable (cfg : Config) (stream : Nat)

/-- The planner of one stream. `outstanding` is the preimage behind the
commitment at `last`. -/
inductive PlanState where
  | idle (restartAt : Nat)
  | live (first last : Nat) (outstanding : Preimage)
  | frozen (first last : Nat) (outstanding : Preimage)
  | closing (first last : Nat) (outstanding : Preimage) (reason : DrainReason)
  | closed

/-- The link rule of a slot's chains: three ticks apart, hashed by `commitDigest`. -/
abbrev Follows (k l : SignedCall) : Prop :=
  CommitReveal.Link.Follows cfg.commitDigest Digest.zero streamCount k.link l.link

/-- The signed calls are the links of one commit–reveal chain. -/
abbrev IsChainOf (calls : List SignedCall) : Prop :=
  CommitReveal.IsRevealChain cfg.commitDigest Preimage.zero Digest.zero streamCount
    (calls.map SignedCall.link)

/-- The call opens a chain at the least tick of the stream that is six ticks
ahead and not before `restartAt`. -/
structure Starts (restartAt : Nat) (call : SignedCall) (outstanding : Preimage) : Prop where
  kind : call.kind = .firstCommit
  reveal : call.input.reveal = Preimage.zero
  commit : call.input.commit = cfg.commitDigest outstanding
  preimage : call.preimage = some outstanding
  drain : call.drain = none
  target_le : call.targetTick ≤ u32Max
  least : ∃ currentTick, call.plannedAt = some currentTick ∧
    IsLeast {t | t % streamCount = stream ∧ currentTick + sendLeadTicks ≤ t ∧ restartAt ≤ t}
      call.targetTick

/-- The call continues a chain that ends at `last`. -/
structure Extends (last : Nat) (outstanding : Preimage) (call : SignedCall)
    (next : Preimage) : Prop where
  kind : call.kind = .revealAndCommit
  target : call.targetTick = last + streamCount
  target_le : call.targetTick ≤ u32Max
  target_mod : call.targetTick % streamCount = stream
  reveal : call.input.reveal = outstanding
  commit : call.input.commit = cfg.commitDigest next
  preimage : call.preimage = some next
  drain : call.drain = none

/-- The call closes a chain that ends at `last`. -/
structure Closes (last : Nat) (outstanding : Preimage) (reason : DrainReason)
    (call : SignedCall) : Prop where
  kind : call.kind = .terminalReveal
  target : call.targetTick = last + streamCount
  target_le : call.targetTick ≤ u32Max
  target_mod : call.targetTick % streamCount = stream
  reveal : call.input.reveal = outstanding
  commit : call.input.commit = Digest.zero
  preimage : call.preimage = none
  drain : call.drain = some reason

/-- The transitions of the planner, with their planning effects. -/
inductive PlanStep : PlanState → List Effect → PlanState → Prop where
  | start {restartAt : Nat} {call : SignedCall} {next : Preimage}
      (h : Starts cfg stream restartAt call next) :
      PlanStep (.idle restartAt) [.signed call] (.live call.targetTick call.targetTick next)
  | restart {first last : Nat} {outstanding next : Preimage} {call : SignedCall}
      (h : Starts cfg stream (last + streamCount) call next) :
      PlanStep (.frozen first last outstanding) [.signed call]
        (.live call.targetTick call.targetTick next)
  | extend {first last : Nat} {outstanding next : Preimage} {call : SignedCall}
      (h : Extends cfg stream last outstanding call next) :
      PlanStep (.live first last outstanding) [.signed call] (.live first call.targetTick next)
  | close {first last : Nat} {outstanding : Preimage} {reason : DrainReason} {call : SignedCall}
      (h : Closes stream last outstanding reason call) :
      PlanStep (.live first last outstanding) [.signed call]
        (.closing first last outstanding reason)
  | freeze {first last : Nat} {outstanding : Preimage} :
      PlanStep (.live first last outstanding) [.froze last true] (.frozen first last outstanding)
  | exhaust {first last : Nat} {outstanding : Preimage} :
      PlanStep (.live first last outstanding) [.froze last false] .closed
  | lose {first last : Nat} {outstanding : Preimage} :
      PlanStep (.live first last outstanding) [] (.idle (last + streamCount))
  | settle {first last : Nat} {outstanding : Preimage} :
      PlanStep (.frozen first last outstanding) [] (.idle (last + streamCount))
  | abandon {p : PlanState} : PlanStep p [] .closed
  | reset {p : PlanState} : PlanStep p [.reset] (.idle 0)

/-- Runs of the planner. -/
abbrev PlanRun : PlanState → List Effect → PlanState → Prop := LabelledRun (PlanStep cfg stream)

/-! ## Facts about the signed calls -/

variable {cfg stream}

theorem Starts.opens {restartAt : Nat} {call : SignedCall} {next : Preimage}
    (h : Starts cfg stream restartAt call next) :
    call.link.Opens cfg.commitDigest Preimage.zero Digest.zero where
  reveal := h.reveal
  secret := by simp [SignedCall.link, h.preimage]
  commits := by simp [CommitReveal.Link.Commits, SignedCall.link, h.preimage, h.commit]

theorem Starts.target_mod {restartAt : Nat} {call : SignedCall} {next : Preimage}
    (h : Starts cfg stream restartAt call next) : call.targetTick % streamCount = stream := by
  obtain ⟨_, _, hleast⟩ := h.least
  exact hleast.1.1

theorem Starts.restartAt_le {restartAt : Nat} {call : SignedCall} {next : Preimage}
    (h : Starts cfg stream restartAt call next) : restartAt ≤ call.targetTick := by
  obtain ⟨_, _, hleast⟩ := h.least
  exact hleast.1.2.2

theorem Extends.follows {last : Nat} {outstanding next : Preimage} {prev call : SignedCall}
    (h : Extends cfg stream last outstanding call next) (hlast : prev.targetTick = last)
    (hprev : prev.preimage = some outstanding) : Follows cfg prev call where
  target := by simp [SignedCall.link, h.target, hlast]
  reveal := by simp [SignedCall.link, h.reveal, hprev]
  commits := by simp [CommitReveal.Link.Commits, SignedCall.link, h.preimage, h.commit]

theorem Closes.follows {last : Nat} {outstanding : Preimage} {reason : DrainReason}
    {prev call : SignedCall} (h : Closes stream last outstanding reason call) (hlast : prev.targetTick = last)
    (hprev : prev.preimage = some outstanding) : Follows cfg prev call where
  target := by simp [SignedCall.link, h.target, hlast]
  reveal := by simp [SignedCall.link, h.reveal, hprev]
  commits := by simp [CommitReveal.Link.Commits, SignedCall.link, h.preimage, h.commit]

variable (cfg stream)

/-- How a signed call relates to the one signed before it in the same epoch:
it follows it in one chain, or it opens the chain after it. -/
def Succeeds (prev call : SignedCall) : Prop :=
  prev.kind ≠ .terminalReveal ∧ call.targetTick ≤ u32Max ∧
    ((call.kind ≠ .firstCommit ∧ call.targetTick % streamCount = stream ∧ Follows cfg prev call) ∨
      ∃ next, Starts cfg stream (prev.targetTick + streamCount) call next)

/-- The newest chain of a planner with a chain: its first target, its last
non-terminal call and the outstanding preimage. -/
structure ChainAt (calls : List SignedCall) (first last : Nat) (outstanding : Preimage) :
    Prop where
  linked : IsChainOf cfg calls
  head : ∃ x, calls.head? = some x ∧ x.targetTick = first ∧ x.kind = .firstCommit
  tail : ∃ y, calls.getLast? = some y ∧ y.targetTick = last ∧ y.preimage = some outstanding ∧
    y.kind ≠ .terminalReveal
  normal : ∀ call ∈ calls, call.kind ≠ .terminalReveal

/-- What the calls of the running epoch look like in a state of the planner. -/
def PlanShape (calls chain : List SignedCall) : PlanState → Prop
  | .idle restartAt =>
    (calls = [] ∧ chain = [] ∧ restartAt = 0) ∨
      ∃ x, calls.getLast? = some x ∧ x.kind ≠ .terminalReveal ∧
        restartAt = x.targetTick + streamCount
  | .live first last outstanding | .frozen first last outstanding =>
    ChainAt cfg chain first last outstanding ∧ calls.getLast? = chain.getLast?
  | .closing first last outstanding reason =>
    ∃ normal call, chain = normal ++ [call] ∧ ChainAt cfg normal first last outstanding ∧
      Closes stream last outstanding reason call
  | .closed => True

/-- The invariant of the planner's runs. -/
structure PlanInv (t : List Effect) (p : PlanState) : Prop where
  /-- The first call of an epoch starts a chain freely. -/
  first : ∀ call ∈ (periodCalls t).head?, ∃ next, Starts cfg stream 0 call next
  /-- Each later one succeeds the one before. -/
  succeeds : (periodCalls t).IsChain (Succeeds cfg stream)
  /-- The newest chain is a commit–reveal chain. -/
  linked : IsChainOf cfg (currentChain t)
  /-- The newest chain ends the calls of the epoch. -/
  suffix : currentChain t <:+ periodCalls t
  shape : PlanShape cfg stream (periodCalls t) (currentChain t) p

theorem PlanInv.init : PlanInv cfg stream [] (.idle 0) where
  first := by simp
  succeeds := .nil
  linked := .nil
  suffix := List.suffix_rfl
  shape := .inl ⟨rfl, rfl, rfl⟩

variable {cfg stream} {t : List Effect} {p : PlanState}

/-- A chain that starts is a chain of one link. -/
theorem Starts.chainAt {restartAt : Nat} {call : SignedCall} {next : Preimage}
    (h : Starts cfg stream restartAt call next) :
    ChainAt cfg [call] call.targetTick call.targetTick next where
  linked := .singleton h.opens
  head := ⟨call, rfl, rfl, h.kind⟩
  tail := ⟨call, rfl, rfl, h.preimage, by simp [h.kind]⟩
  normal := by simp [h.kind]

/-- A chain that is extended ends at the new call. -/
theorem ChainAt.extend {calls : List SignedCall} {first last : Nat} {outstanding next : Preimage}
    {call : SignedCall} (hc : ChainAt cfg calls first last outstanding)
    (h : Extends cfg stream last outstanding call next) :
    ChainAt cfg (calls ++ [call]) first call.targetTick next := by
  obtain ⟨y, hy, hylast, hypre, -⟩ := hc.tail
  refine ⟨?_, ?_, ⟨call, by simp, rfl, h.preimage, by simp [h.kind]⟩, ?_⟩
  · have hsnoc := hc.linked.snoc (k := y.link) (l := call.link) (by simp [hy])
      (h.follows hylast hypre)
    simpa [IsChainOf] using hsnoc
  · obtain ⟨x, hx, hfirst, hkind⟩ := hc.head
    exact ⟨x, by simp [List.head?_append, hx], hfirst, hkind⟩
  · intro c hmem
    rcases List.mem_append.1 hmem with hmem | hmem
    · exact hc.normal c hmem
    · rw [List.mem_singleton.1 hmem, h.kind]
      exact CallKind.noConfusion

/-- Signing one more call keeps the order of the calls of the epoch. -/
theorem PlanInv.sign (hinv : PlanInv cfg stream t p) {call : SignedCall}
    (hfirst : periodCalls t = [] → ∃ next, Starts cfg stream 0 call next)
    (hnext : ∀ y ∈ (periodCalls t).getLast?, Succeeds cfg stream y call) :
    (∀ x ∈ (periodCalls (t ++ [.signed call])).head?, ∃ next, Starts cfg stream 0 x next) ∧
      (periodCalls (t ++ [.signed call])).IsChain (Succeeds cfg stream) := by
  rw [periodCalls_signed]
  constructor
  · intro x hx
    by_cases hnil : periodCalls t = []
    · rw [hnil, List.nil_append, List.head?_cons, Option.mem_some_iff] at hx
      rw [← hx]
      exact hfirst hnil
    · rw [List.head?_append_of_ne_nil _ hnil] at hx
      exact hinv.first x hx
  · rw [List.isChain_append]
    refine ⟨hinv.succeeds, List.isChain_singleton call, ?_⟩
    intro y hy x hx
    rw [List.head?_cons, Option.mem_some_iff] at hx
    rw [← hx]
    exact hnext y hy

/-- In a planner with a chain the last call of the epoch is the chain's last call. -/
theorem PlanInv.last_of_chainAt {first last : Nat} {outstanding : Preimage}
    (hc : ChainAt cfg (currentChain t) first last outstanding)
    (hlast : (periodCalls t).getLast? = (currentChain t).getLast?) :
    ∃ y, (periodCalls t).getLast? = some y ∧ y.targetTick = last ∧
      y.preimage = some outstanding ∧ y.kind ≠ .terminalReveal := by
  obtain ⟨y, hy, hrest⟩ := hc.tail
  exact ⟨y, by rw [hlast, hy], hrest⟩

/-- A call signed in the newest chain stays at the end of the calls of the epoch. -/
theorem PlanInv.suffix_snoc (hinv : PlanInv cfg stream t p) {call : SignedCall} :
    currentChain t ++ [call] <:+ periodCalls t ++ [call] := by
  obtain ⟨pre, hpre⟩ := hinv.suffix
  exact ⟨pre, by rw [← hpre, List.append_assoc]⟩

theorem PlanInv.start {restartAt : Nat} {call : SignedCall} {next : Preimage}
    (hinv : PlanInv cfg stream t (.idle restartAt)) (h : Starts cfg stream restartAt call next) :
    PlanInv cfg stream (t ++ [.signed call]) (.live call.targetTick call.targetTick next) := by
  have hchain := currentChain_first h.kind t
  obtain ⟨hfirst, hsucc⟩ := hinv.sign
    (by
      intro hnil
      rcases hinv.shape with ⟨-, -, hzero⟩ | ⟨x, hx, -⟩
      · rw [hzero] at h
        exact ⟨next, h⟩
      · rw [hnil] at hx
        cases hx)
    (by
      intro y hy
      rcases hinv.shape with ⟨hnil, -⟩ | ⟨x, hx, hkind, hrestart⟩
      · rw [hnil] at hy
        cases hy
      · rw [hx, Option.mem_some_iff] at hy
        rw [← hy]
        rw [hrestart] at h
        exact ⟨hkind, h.target_le, .inr ⟨next, h⟩⟩)
  refine ⟨hfirst, hsucc, ?_, ?_, ?_⟩
  · rw [hchain]
    exact h.chainAt.linked
  · rw [hchain, periodCalls_signed]
    exact List.suffix_append _ _
  · rw [hchain, periodCalls_signed]
    exact ⟨h.chainAt, by simp⟩

theorem PlanInv.restart {first last : Nat} {outstanding next : Preimage} {call : SignedCall}
    (hinv : PlanInv cfg stream t (.frozen first last outstanding))
    (h : Starts cfg stream (last + streamCount) call next) :
    PlanInv cfg stream (t ++ [.signed call]) (.live call.targetTick call.targetTick next) := by
  have hchain := currentChain_first h.kind t
  obtain ⟨y, hy, hylast, -, hkind⟩ := PlanInv.last_of_chainAt hinv.shape.1 hinv.shape.2
  obtain ⟨hfirst, hsucc⟩ := hinv.sign
    (by
      intro hnil
      rw [hnil] at hy
      cases hy)
    (by
      intro x hx
      rw [hy, Option.mem_some_iff] at hx
      rw [← hx]
      rw [← hylast] at h
      exact ⟨hkind, h.target_le, .inr ⟨next, h⟩⟩)
  refine ⟨hfirst, hsucc, ?_, ?_, ?_⟩
  · rw [hchain]
    exact h.chainAt.linked
  · rw [hchain, periodCalls_signed]
    exact List.suffix_append _ _
  · rw [hchain, periodCalls_signed]
    exact ⟨h.chainAt, by simp⟩

theorem PlanInv.extend {first last : Nat} {outstanding next : Preimage} {call : SignedCall}
    (hinv : PlanInv cfg stream t (.live first last outstanding))
    (h : Extends cfg stream last outstanding call next) :
    PlanInv cfg stream (t ++ [.signed call]) (.live first call.targetTick next) := by
  have hlater : call.kind ≠ .firstCommit := by simp [h.kind]
  have hchain := currentChain_later hlater t
  obtain ⟨y, hy, hylast, hypre, hkind⟩ := PlanInv.last_of_chainAt hinv.shape.1 hinv.shape.2
  obtain ⟨hfirst, hsucc⟩ := hinv.sign
    (by
      intro hnil
      rw [hnil] at hy
      cases hy)
    (by
      intro x hx
      rw [hy, Option.mem_some_iff] at hx
      rw [← hx]
      exact ⟨hkind, h.target_le, .inl ⟨hlater, h.target_mod, h.follows hylast hypre⟩⟩)
  have hnew := hinv.shape.1.extend h
  refine ⟨hfirst, hsucc, ?_, ?_, ?_⟩
  · rw [hchain]
    exact hnew.linked
  · rw [hchain, periodCalls_signed]
    exact hinv.suffix_snoc
  · rw [hchain, periodCalls_signed]
    exact ⟨hnew, by simp⟩

theorem PlanInv.close {first last : Nat} {outstanding : Preimage} {reason : DrainReason}
    {call : SignedCall} (hinv : PlanInv cfg stream t (.live first last outstanding))
    (h : Closes stream last outstanding reason call) :
    PlanInv cfg stream (t ++ [.signed call]) (.closing first last outstanding reason) := by
  have hlater : call.kind ≠ .firstCommit := by simp [h.kind]
  have hchain := currentChain_later hlater t
  obtain ⟨y, hy, hylast, hypre, hkind⟩ := PlanInv.last_of_chainAt hinv.shape.1 hinv.shape.2
  have hfollows : Follows cfg y call := h.follows hylast hypre
  obtain ⟨hfirst, hsucc⟩ := hinv.sign
    (by
      intro hnil
      rw [hnil] at hy
      cases hy)
    (by
      intro x hx
      rw [hy, Option.mem_some_iff] at hx
      rw [← hx]
      exact ⟨hkind, h.target_le, .inl ⟨hlater, h.target_mod, hfollows⟩⟩)
  refine ⟨hfirst, hsucc, ?_, ?_, ?_⟩
  · rw [hchain]
    have hsnoc := hinv.linked.snoc (k := y.link) (l := call.link)
      (by simp [← hinv.shape.2, hy]) hfollows
    simpa [IsChainOf] using hsnoc
  · rw [hchain, periodCalls_signed]
    exact hinv.suffix_snoc
  · rw [hchain]
    exact ⟨currentChain t, call, rfl, hinv.shape.1, h⟩

/-- A step that signs nothing keeps the invariant when the shape of its target holds. -/
theorem PlanInv.quiet (hinv : PlanInv cfg stream t p) {u : List Effect} {q : PlanState}
    (hcalls : periodCalls (t ++ u) = periodCalls t)
    (hchain : currentChain (t ++ u) = currentChain t)
    (hshape : PlanShape cfg stream (periodCalls t) (currentChain t) q) :
    PlanInv cfg stream (t ++ u) q where
  first := by
    rw [hcalls]
    exact hinv.first
  succeeds := by
    rw [hcalls]
    exact hinv.succeeds
  linked := by
    rw [hchain]
    exact hinv.linked
  suffix := by
    rw [hcalls, hchain]
    exact hinv.suffix
  shape := by
    rw [hcalls, hchain]
    exact hshape

/-- A planner that gives up its chain waits for the tick after its tail. -/
theorem PlanShape.idle_of_chainAt {calls chain : List SignedCall} {first last : Nat}
    {outstanding : Preimage} (hc : ChainAt cfg chain first last outstanding)
    (hlast : calls.getLast? = chain.getLast?) :
    PlanShape cfg stream calls chain (.idle (last + streamCount)) := by
  obtain ⟨y, hy, hylast, -, hkind⟩ := hc.tail
  exact .inr ⟨y, by rw [hlast, hy], hkind, by rw [hylast]⟩

theorem PlanInv.step {q : PlanState} {u : List Effect} (hinv : PlanInv cfg stream t p)
    (h : PlanStep cfg stream p u q) : PlanInv cfg stream (t ++ u) q := by
  cases h with
  | start h => exact hinv.start h
  | restart h => exact hinv.restart h
  | extend h => exact hinv.extend h
  | close h => exact hinv.close h
  | freeze => exact hinv.quiet (by simp) (by simp) hinv.shape
  | exhaust => exact hinv.quiet (by simp) (by simp) trivial
  | lose =>
    exact hinv.quiet (by simp) (by simp) (.idle_of_chainAt hinv.shape.1 hinv.shape.2)
  | settle =>
    exact hinv.quiet (by simp) (by simp) (.idle_of_chainAt hinv.shape.1 hinv.shape.2)
  | abandon => exact hinv.quiet (by simp) (by simp) trivial
  | reset =>
    refine ⟨by simp, by simp, ?_, by simp, ?_⟩
    · rw [currentChain_reset]
      exact CommitReveal.IsRevealChain.nil
    exact .inl ⟨by simp, by simp, rfl⟩

/-- The invariant holds along every run of the planner. -/
theorem PlanInv.run {q : PlanState} {u : List Effect} (hinv : PlanInv cfg stream t p)
    (h : PlanRun cfg stream p u q) : PlanInv cfg stream (t ++ u) q :=
  h.invariant (fun q t => PlanInv cfg stream t q) (fun _ _ _ _ hq hstep => hq.step hstep) hinv

/-! ## Consequences of the invariant -/

theorem Succeeds.add_le {prev call : SignedCall} (h : Succeeds cfg stream prev call) :
    prev.targetTick + streamCount ≤ call.targetTick := by
  obtain ⟨-, -, ⟨-, -, hfollows⟩ | ⟨next, hstarts⟩⟩ := h
  · exact hfollows.target.ge
  · exact hstarts.restartAt_le

/-- Later in the list, at least three ticks later. -/
abbrev Spaced (calls : List SignedCall) : Prop :=
  calls.Pairwise fun k l => k.targetTick + streamCount ≤ l.targetTick

/-- The calls of an epoch are at least three ticks apart, in the order they were signed. -/
theorem PlanInv.spaced (hinv : PlanInv cfg stream t p) : Spaced (periodCalls t) := by
  let R (k l : SignedCall) : Prop := k.targetTick + streamCount ≤ l.targetTick
  have htrans : Trans R R R := ⟨fun {a b c} hab hbc => by
    change a.targetTick + streamCount ≤ c.targetTick
    change a.targetTick + streamCount ≤ b.targetTick at hab
    change b.targetTick + streamCount ≤ c.targetTick at hbc
    omega⟩
  have hchain : (periodCalls t).IsChain R := hinv.succeeds.imp fun _ _ h => h.add_le
  exact hchain.pairwise

theorem PlanInv.chain_spaced (hinv : PlanInv cfg stream t p) : Spaced (currentChain t) :=
  hinv.spaced.sublist hinv.suffix.sublist

/-- A list of spaced calls has one call for each target. -/
theorem Spaced.eq_of_target {calls : List SignedCall} (h : Spaced calls) {k l : SignedCall}
    (hk : k ∈ calls) (hl : l ∈ calls) (htarget : k.targetTick = l.targetTick) : k = l := by
  induction calls with
  | nil => cases hk
  | cons x calls ih =>
    obtain ⟨hx, hcalls⟩ := List.pairwise_cons.1 h
    rcases List.mem_cons.1 hk with rfl | hk'
    · rcases List.mem_cons.1 hl with rfl | hl'
      · rfl
      · have hle := hx l hl'
        simp only [streamCount] at hle
        omega
    · rcases List.mem_cons.1 hl with rfl | hl'
      · have hle := hx k hk'
        simp only [streamCount] at hle
        omega
      · exact ih hcalls hk' hl'

/-- Every call of an epoch targets a tick of the stream. -/
theorem PlanInv.target_mod (hinv : PlanInv cfg stream t p) {call : SignedCall} (hmem : call ∈ periodCalls t) :
    call.targetTick % streamCount = stream := by
  obtain ⟨pre, post, hsplit⟩ := List.append_of_mem hmem
  rcases List.eq_nil_or_concat pre with rfl | ⟨pre, previous, rfl⟩
  · obtain ⟨_, hstarts⟩ := hinv.first call (by simp [hsplit])
    exact hstarts.target_mod
  · have hsucc := hinv.succeeds
    rw [hsplit, List.isChain_append] at hsucc
    obtain ⟨-, -, ⟨-, hmod, -⟩ | ⟨_, hstarts⟩⟩ := hsucc.2.2 previous (by simp) call (by simp)
    · exact hmod
    · exact hstarts.target_mod

/-- A terminal reveal is the last call of its epoch. -/
theorem PlanInv.terminal_last (hinv : PlanInv cfg stream t p) {call : SignedCall}
    (hmem : call ∈ periodCalls t) (hkind : call.kind = .terminalReveal) :
    (periodCalls t).getLast? = some call := by
  obtain ⟨pre, post, hsplit⟩ := List.append_of_mem hmem
  cases post with
  | nil => simp [hsplit]
  | cons next post =>
    have hsucc := hinv.succeeds
    rw [hsplit, List.isChain_append] at hsucc
    have hnext := (List.isChain_cons_cons.1 hsucc.2.1).1
    exact absurd hkind hnext.1

/-- The first and the last non-terminal target of the planner's chain. -/
inductive PlanState.HasChain (first last : Nat) : PlanState → Prop where
  | live {outstanding : Preimage} : HasChain first last (.live first last outstanding)
  | frozen {outstanding : Preimage} : HasChain first last (.frozen first last outstanding)
  | closing {outstanding : Preimage} {reason : DrainReason} :
      HasChain first last (.closing first last outstanding reason)

theorem PlanInv.head_of_hasChain {first last : Nat} (hinv : PlanInv cfg stream t p)
    (hp : p.HasChain first last) : ∃ x, (currentChain t).head? = some x ∧ x.targetTick = first ∧
      x.kind = .firstCommit := by
  cases hp with
  | live => exact hinv.shape.1.head
  | frozen => exact hinv.shape.1.head
  | closing =>
    obtain ⟨normal, call, hchain, hat, -⟩ := hinv.shape
    obtain ⟨x, hx, hrest⟩ := hat.head
    exact ⟨x, by simp [hchain, List.head?_append, hx], hrest⟩

/-- The chain of the planner starts at its first target. -/
theorem PlanInv.first_le {first last : Nat} (hinv : PlanInv cfg stream t p)
    (hp : p.HasChain first last) {call : SignedCall} (hmem : call ∈ currentChain t) :
    first ≤ call.targetTick := by
  obtain ⟨x, hx, rfl, -⟩ := hinv.head_of_hasChain hp
  obtain ⟨rest, hrest⟩ := List.head?_eq_some_iff.1 hx
  have hspaced := hinv.chain_spaced
  rw [hrest] at hmem hspaced
  rcases List.mem_cons.1 hmem with rfl | hmem
  · exact le_rfl
  · have hle := (List.pairwise_cons.1 hspaced).1 call hmem
    omega

/-- Every call of the epoch before the newest chain lies before its first target. -/
theorem PlanInv.mem_chain_of_first_le {first last : Nat} (hinv : PlanInv cfg stream t p)
    (hp : p.HasChain first last) {call : SignedCall} (hmem : call ∈ periodCalls t)
    (hle : first ≤ call.targetTick) : call ∈ currentChain t := by
  obtain ⟨x, hx, rfl, -⟩ := hinv.head_of_hasChain hp
  have hxmem : x ∈ currentChain t := List.mem_of_mem_head? hx
  obtain ⟨pre, hpre⟩ := hinv.suffix
  rw [← hpre] at hmem
  rcases List.mem_append.1 hmem with hmem | hmem
  · have hspaced := hinv.spaced
    rw [← hpre] at hspaced
    have hlt := (List.pairwise_append.1 hspaced).2.2 call hmem x hxmem
    simp only [streamCount] at hlt
    omega
  · exact hmem

/-- With a terminal reveal signed, a planner with a chain is closing it. -/
theorem PlanInv.closing_of_terminal {first last : Nat} (hinv : PlanInv cfg stream t p)
    (hp : p.HasChain first last) {call : SignedCall} (hmem : call ∈ periodCalls t)
    (hkind : call.kind = .terminalReveal) : ∃ normal outstanding reason,
      p = .closing first last outstanding reason ∧ currentChain t = normal ++ [call] ∧
        ChainAt cfg normal first last outstanding ∧
          Closes stream last outstanding reason call := by
  have hlast := hinv.terminal_last hmem hkind
  cases hp with
  | live =>
    obtain ⟨y, hy, -, -, hykind⟩ := PlanInv.last_of_chainAt hinv.shape.1 hinv.shape.2
    rw [hlast, Option.some.injEq] at hy
    exact absurd (hy ▸ hkind) hykind
  | frozen =>
    obtain ⟨y, hy, -, -, hykind⟩ := PlanInv.last_of_chainAt hinv.shape.1 hinv.shape.2
    rw [hlast, Option.some.injEq] at hy
    exact absurd (hy ▸ hkind) hykind
  | closing =>
    obtain ⟨normal, call', hchain, hat, hcloses⟩ := hinv.shape
    have hmem' : call' ∈ periodCalls t := hinv.suffix.subset (by simp [hchain])
    have hlast' := hinv.terminal_last hmem' hcloses.kind
    rw [hlast, Option.some.injEq] at hlast'
    subst hlast'
    exact ⟨normal, _, _, rfl, hchain, hat, hcloses⟩

end RandomClient
