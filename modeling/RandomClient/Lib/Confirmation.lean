import Mathlib.Data.List.Chain
import Mathlib.Data.List.Induction

/-!
# Confirmation series

Items arrive one after another; each carries a key, and each is evidence for
something, clears what was collected, or is silent. The series of a sequence of
items collects the evidence that counts in a row: keys increase strictly along
it and each item agrees with the one before. An item whose key is no greater
than the last counted one is ignored, unless it advances: then it discards the
series first, whatever its key.

A rule that acts once `n` items counted in a row acts exactly when the series
gets length `n`. `thirdInRow_iff` spells that out for three.
-/

namespace Confirmation

/-- What an item contributes by itself. -/
inductive Verdict where
  | silent
  | cleared
  | evidence
deriving DecidableEq, Repr

structure Rules (ι : Type*) where
  key : ι → Nat
  advances : ι → Bool
  verdict : ι → Verdict
  agrees : ι → ι → Bool

namespace Rules

variable {ι : Type*} (R : Rules ι)

/-- The series once an advancing item has discarded it. -/
def kept (series : List ι) (x : ι) : List ι := if R.advances x then [] else series

/-- The series after one more item. -/
def step (series : List ι) (x : ι) : List ι :=
  match (R.kept series x).getLast?, R.verdict x with
  | none, .evidence => [x]
  | none, .silent | none, .cleared => []
  | some last, verdict =>
    if R.key x ≤ R.key last then series
    else
      match verdict with
      | .silent => series
      | .cleared => []
      | .evidence => if R.agrees last x then series ++ [x] else [x]

/-- The items that count in a row at the end of the sequence. -/
def series (items : List ι) : List ι := items.foldl R.step []

@[simp] theorem series_nil : R.series [] = [] := rfl

theorem series_snoc (items : List ι) (x : ι) :
    R.series (items ++ [x]) = R.step (R.series items) x := by
  simp [series, List.foldl_append]

/-- The item changes nothing in a series whose last key is `k`. -/
def Quiet (k : Nat) (x : ι) : Prop :=
  R.advances x = false ∧ (R.key x ≤ k ∨ R.verdict x = .silent)

/-- The item counts as the first of a new series. -/
def Begins (series : List ι) (x : ι) : Prop :=
  R.verdict x = .evidence ∧ (R.advances x = true ∨ ∀ last ∈ series.getLast?,
    R.key last < R.key x ∧ R.agrees last x = false)

/-- The item counts as the next one after `last`. -/
structure Follows (last x : ι) : Prop where
  evidence : R.verdict x = .evidence
  advances : R.advances x = false
  later : R.key last < R.key x
  agrees : R.agrees last x = true

variable {R} {series items : List ι} {x last : ι}

theorem kept_of_advances (h : R.advances x = true) : R.kept series x = [] := by
  simp [kept, h]

theorem kept_of_not_advances (h : R.advances x = false) : R.kept series x = series := by
  simp [kept, h]

theorem step_of_quiet (hlast : series.getLast? = some last) (h : R.Quiet (R.key last) x) :
    R.step series x = series := by
  obtain ⟨hadvances, hle | hsilent⟩ := h
  · simp [step, kept_of_not_advances hadvances, hlast, hle]
  · simp [step, kept_of_not_advances hadvances, hlast, hsilent]

theorem step_of_begins (h : R.Begins series x) : R.step series x = [x] := by
  obtain ⟨hevidence, hnew⟩ := h
  by_cases hadvances : R.advances x = true
  · simp [step, kept_of_advances hadvances, hevidence]
  · have hkept : R.kept series x = series := kept_of_not_advances (by simpa using hadvances)
    cases hlast : series.getLast? with
    | none => simp [step, hkept, hlast, hevidence]
    | some last =>
      obtain ⟨hlt, hagrees⟩ := hnew.resolve_left hadvances last hlast
      simp [step, hkept, hlast, hevidence, Nat.not_le.2 hlt, hagrees]

theorem step_of_follows (hlast : series.getLast? = some last) (h : R.Follows last x) :
    R.step series x = series ++ [x] := by
  simp [step, kept_of_not_advances h.advances, hlast, h.evidence, h.later, h.agrees]

theorem step_of_advances (h : R.advances x = true) : R.step series x = R.step [] x := by
  cases hverdict : R.verdict x <;> simp [step, kept, h, hverdict]

/-- Silence leaves any series. -/
theorem step_of_silent (hadvances : R.advances x = false) (h : R.verdict x = .silent) :
    R.step series x = series := by
  cases hlast : series.getLast? with
  | none =>
    rw [List.getLast?_eq_none_iff.1 hlast]
    simp [step, kept, h]
  | some last => exact step_of_quiet hlast ⟨hadvances, .inr h⟩

/-- What clears a series empties it unless its key is too small. -/
theorem step_of_cleared (h : R.verdict x = .cleared)
    (hlater : R.advances x = true ∨ ∀ last ∈ series.getLast?, R.key last < R.key x) :
    R.step series x = [] := by
  by_cases hadvances : R.advances x = true
  · simp [step, kept, hadvances, h]
  · have hkept : R.kept series x = series := kept_of_not_advances (by simpa using hadvances)
    cases hlast : series.getLast? with
    | none => simp [step, hkept, hlast, h]
    | some last =>
      have hlt := hlater.resolve_left hadvances last hlast
      simp [step, hkept, hlast, h, Nat.not_le.2 hlt]

/-- Evidence never leaves the series empty. -/
theorem step_ne_nil (h : R.verdict x = .evidence) : R.step series x ≠ [] := by
  unfold step
  rw [h]
  cases hlast : (R.kept series x).getLast? with
  | none => simp
  | some last =>
    have hne : series ≠ [] := by
      rintro rfl
      unfold kept at hlast
      split at hlast <;> cases hlast
    dsimp only
    split
    · exact hne
    · split <;> simp

/-- An item leaves the series, empties it, begins a new one, or counts as the next one. -/
theorem step_cases (series : List ι) (x : ι) :
    (∃ last, series.getLast? = some last ∧ R.Quiet (R.key last) x ∧ R.step series x = series) ∨
    R.step series x = [] ∨
    (R.Begins series x ∧ R.step series x = [x]) ∨
    ∃ last, series.getLast? = some last ∧ R.Follows last x ∧ R.step series x = series ++ [x] := by
  by_cases hadvances : R.advances x = true
  · right
    cases hverdict : R.verdict x with
    | silent => exact .inl (by simp [step, kept_of_advances hadvances, hverdict])
    | cleared => exact .inl (by simp [step, kept_of_advances hadvances, hverdict])
    | evidence =>
      have hbegins : R.Begins series x := ⟨hverdict, .inl hadvances⟩
      exact .inr (.inl ⟨hbegins, step_of_begins hbegins⟩)
  · have hfalse : R.advances x = false := by simpa using hadvances
    have hkept : R.kept series x = series := kept_of_not_advances hfalse
    cases hlast : series.getLast? with
    | none =>
      right
      cases hverdict : R.verdict x with
      | silent => exact .inl (by simp [step, hkept, hlast, hverdict])
      | cleared => exact .inl (by simp [step, hkept, hlast, hverdict])
      | evidence =>
        have hbegins : R.Begins series x := ⟨hverdict, .inr (by simp [hlast])⟩
        exact .inr (.inl ⟨hbegins, step_of_begins hbegins⟩)
    | some last =>
      by_cases hle : R.key x ≤ R.key last
      · have hquiet : R.Quiet (R.key last) x := ⟨hfalse, .inl hle⟩
        exact .inl ⟨last, rfl, hquiet, step_of_quiet hlast hquiet⟩
      · have hlt : R.key last < R.key x := Nat.not_le.1 hle
        cases hverdict : R.verdict x with
        | silent =>
          have hquiet : R.Quiet (R.key last) x := ⟨hfalse, .inr hverdict⟩
          exact .inl ⟨last, rfl, hquiet, step_of_quiet hlast hquiet⟩
        | cleared => exact .inr (.inl (by simp [step, hkept, hlast, hverdict, hle]))
        | evidence =>
          right; right
          by_cases hagrees : R.agrees last x = true
          · have hfollows : R.Follows last x := ⟨hverdict, hfalse, hlt, hagrees⟩
            exact .inr ⟨last, rfl, hfollows, step_of_follows hlast hfollows⟩
          · refine .inl ⟨⟨hverdict, .inr ?_⟩, ?_⟩
            · simp only [hlast, Option.mem_some_iff]
              rintro _ rfl
              exact ⟨hlt, by simpa using hagrees⟩
            · exact step_of_begins ⟨hverdict, .inr (by simp [hlast, hlt, hagrees])⟩

/-- Quiet items leave a series. -/
theorem series_append_quiet {more : List ι} (hlast : (R.series items).getLast? = some last)
    (h : ∀ x ∈ more, R.Quiet (R.key last) x) : R.series (items ++ more) = R.series items := by
  induction more using List.reverseRecOn with
  | nil => rw [List.append_nil]
  | append_singleton more x ih =>
    have hmore := ih fun y hy => h y (List.mem_append_left _ hy)
    rw [← List.append_assoc, series_snoc, hmore]
    exact step_of_quiet hlast (h x (by simp))

/-- The series that an item begins, after quiet items. -/
theorem series_first {pre between : List ι} (hbegins : R.Begins (R.series pre) x)
    (hbetween : ∀ m ∈ between, R.Quiet (R.key x) m) : R.series (pre ++ x :: between) = [x] := by
  have hx : R.series (pre ++ [x]) = [x] := by
    rw [series_snoc]
    exact step_of_begins hbegins
  rw [List.append_cons, series_append_quiet (by rw [hx]; rfl) hbetween, hx]

/-- The series once a second item has followed. -/
theorem series_second {pre between rest : List ι} {y : ι} (hbegins : R.Begins (R.series pre) x)
    (hbetween : ∀ m ∈ between, R.Quiet (R.key x) m) (hxy : R.Follows x y)
    (hrest : ∀ m ∈ rest, R.Quiet (R.key y) m) :
    R.series (pre ++ x :: (between ++ y :: rest)) = [x, y] := by
  have hy : R.series (pre ++ x :: between ++ [y]) = [x, y] := by
    rw [series_snoc, series_first hbegins hbetween]
    exact step_of_follows rfl hxy
  have hall : pre ++ x :: (between ++ y :: rest) = pre ++ x :: between ++ [y] ++ rest := by simp
  rw [hall, series_append_quiet (by rw [hy]; rfl) hrest, hy]

/-- The last item of a series counted when it arrived, and was followed by quiet items only. -/
theorem series_eq_snoc (front : List ι) (h : R.series items = front ++ [last]) :
    ∃ pre rest, items = pre ++ last :: rest ∧ (∀ x ∈ rest, R.Quiet (R.key last) x) ∧
      ((front = [] ∧ R.Begins (R.series pre) last) ∨
        ∃ previous, front.getLast? = some previous ∧ R.series pre = front ∧
          R.Follows previous last) := by
  induction items using List.reverseRecOn with
  | nil => simp at h
  | append_singleton items x ih =>
    rw [series_snoc] at h
    rcases R.step_cases (R.series items) x with ⟨y, hy, hquiet, heq⟩ | heq | ⟨hbegins, heq⟩ |
      ⟨y, hy, hfollows, heq⟩
    · rw [heq] at h
      obtain ⟨pre, rest, rfl, hrest, hlast⟩ := ih h
      refine ⟨pre, rest ++ [x], by simp, ?_, hlast⟩
      rw [h, List.getLast?_concat, Option.some.injEq] at hy
      intro z hz
      rcases List.mem_append.1 hz with hz | hz
      · exact hrest z hz
      · rw [List.mem_singleton.1 hz, hy]
        exact hquiet
    · rw [heq] at h
      simp at h
    · rw [heq] at h
      change [] ++ [x] = front ++ [last] at h
      obtain ⟨hfront, hx⟩ := List.append_inj' h rfl
      cases hx
      exact ⟨items, [], by simp, by simp, .inl ⟨hfront.symm, hbegins⟩⟩
    · rw [heq] at h
      obtain ⟨hfront, hx⟩ := List.append_inj' h rfl
      cases hx
      exact ⟨items, [], by simp, by simp, .inr ⟨y, by rw [← hfront]; exact hy, hfront, hfollows⟩⟩

variable (R) in
/-- `z` is the third of three items that count in a row: the first begins a
series, the next two follow, and between them everything is quiet. -/
def ThirdInRow (items : List ι) (z : ι) : Prop :=
  ∃ pre x between y rest, items = pre ++ x :: (between ++ y :: rest) ∧
    R.Begins (R.series pre) x ∧ (∀ m ∈ between, R.Quiet (R.key x) m) ∧
    R.Follows x y ∧ (∀ m ∈ rest, R.Quiet (R.key y) m) ∧ R.Follows y z

/-- The series gets its third item exactly when the new item is the third in a row. -/
theorem thirdInRow_iff (hshort : (R.series items).length < 3) (z : ι) :
    (R.series (items ++ [z])).length = 3 ↔ R.ThirdInRow items z := by
  rw [series_snoc]
  constructor
  · intro hthree
    rcases R.step_cases (R.series items) z with ⟨_, _, _, heq⟩ | heq | ⟨_, heq⟩ |
      ⟨y, hy, hyz, heq⟩
    · rw [heq] at hthree
      omega
    · simp [heq] at hthree
    · simp [heq] at hthree
    · -- the series had two items
      rw [heq, List.length_append, List.length_singleton] at hthree
      obtain ⟨x, y', hseries⟩ := List.length_eq_two.1 (by omega : (R.series items).length = 2)
      rw [hseries] at hy
      simp only [List.getLast?_cons_cons, List.getLast?_singleton, Option.some.injEq] at hy
      subst hy
      obtain ⟨pre', rest, rfl, hrest, hy⟩ := series_eq_snoc [x] hseries
      obtain ⟨previous, hprevious, hpre', hxy⟩ := hy.resolve_left (by simp)
      simp only [List.getLast?_singleton, Option.some.injEq] at hprevious
      subst hprevious
      obtain ⟨pre, between, rfl, hbetween, hx⟩ := series_eq_snoc [] hpre'
      obtain ⟨-, hbegins⟩ := hx.resolve_right (by simp)
      exact ⟨pre, x, between, y', rest, by simp, hbegins, hbetween, hxy, hrest, hyz⟩
  · rintro ⟨pre, x, between, y, rest, rfl, hbegins, hbetween, hxy, hrest, hyz⟩
    rw [series_second hbegins hbetween hxy hrest, step_of_follows rfl hyz]
    rfl

end Rules

end Confirmation
