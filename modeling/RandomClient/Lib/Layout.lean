import Mathlib.Data.List.Basic

/-!
# Arrays of fixed-width fields

A record laid out in memory is a list of sections, and a section is an array of
fields of one width. A field is found again at the offset of its section plus
its index times the width, whatever stands before and after the section
(`slice_array`). A field written in place is read back at its offset and disturbs
no other (`slice_write`, `slice_write_disjoint`).
-/

namespace Layout

variable {α : Type*}

/-- The stretch of a list at an offset. -/
def slice (l : List α) (offset width : Nat) : List α := (l.drop offset).take width

/-- `n` fields one after the other. -/
def array (n : Nat) (field : Nat → List α) : List α := (List.range n).flatMap field

variable {field : Nat → List α} {width : Nat}

theorem length_array (h : ∀ i, (field i).length = width) (n : Nat) :
    (array n field).length = n * width := by
  simp [array, List.length_flatMap, h]

theorem slice_append_left (pre l : List α) (offset width : Nat) :
    slice (pre ++ l) (pre.length + offset) width = slice l offset width := by
  unfold slice
  rw [List.drop_length_add_append]

theorem slice_of_length {l : List α} (h : l.length = width) (post : List α) :
    slice (l ++ post) 0 width = l := by
  unfold slice
  rw [List.drop_zero, ← h, List.take_left]

/-- The field of an array is found at its index. -/
theorem slice_array (h : ∀ i, (field i).length = width) {n i : Nat} (hi : i < n)
    (pre post : List α) :
    slice (pre ++ (array n field ++ post)) (pre.length + i * width) width = field i := by
  have hn : ∃ m, n = i + (1 + m) := ⟨n - (i + 1), by omega⟩
  rcases hn with ⟨m, rfl⟩
  have hsplit : array (i + (1 + m)) field =
      array i field ++ (field i ++ (List.range m).flatMap fun j => field (i + (1 + j))) := by
    unfold array
    rw [List.range_add, List.range_add]
    simp [List.flatMap_append, List.flatMap_map, Nat.add_assoc]
  rw [slice_append_left, hsplit, List.append_assoc, ← length_array h i]
  rw [← Nat.add_zero (array i field).length, slice_append_left, List.append_assoc]
  exact slice_of_length (h i) _

/-! ## Writing in place -/

/-- `value` over the stretch at an offset. -/
def write (l : List α) (offset : Nat) (value : List α) : List α :=
  l.take offset ++ (value ++ l.drop (offset + value.length))

section Write

variable {l value : List α} {offset : Nat}

theorem length_write (h : offset + value.length ≤ l.length) :
    (write l offset value).length = l.length := by
  simp only [write, List.length_append, List.length_take, List.length_drop]
  omega

theorem getElem?_write_before {i : Nat} (h : offset + value.length ≤ l.length) (hi : i < offset) :
    (write l offset value)[i]? = l[i]? := by
  have htake : i < (l.take offset).length := by
    rw [List.length_take]
    omega
  rw [write, List.getElem?_append_left htake, List.getElem?_take_of_lt hi]

theorem getElem?_write_after {i : Nat} (h : offset + value.length ≤ l.length)
    (hi : offset + value.length ≤ i) : (write l offset value)[i]? = l[i]? := by
  have htake : (l.take offset).length = offset := by
    rw [List.length_take]
    omega
  rw [write, List.getElem?_append_right (by omega), List.getElem?_append_right (by omega),
    List.getElem?_drop, htake]
  congr 1
  omega

theorem slice_write (h : offset + value.length ≤ l.length) :
    slice (write l offset value) offset value.length = value := by
  have htake : (l.take offset).length = offset := by
    rw [List.length_take]
    omega
  have hskip := slice_append_left (l.take offset)
    (value ++ l.drop (offset + value.length)) 0 value.length
  rw [htake, Nat.add_zero] at hskip
  rw [write, hskip]
  exact slice_of_length rfl _

/-- Lists that agree on a stretch have the same slice there. -/
theorem slice_congr {l' : List α} {offset width : Nat}
    (h : ∀ i, offset ≤ i → i < offset + width → l[i]? = l'[i]?) :
    slice l offset width = slice l' offset width := by
  apply List.ext_getElem?
  intro i
  unfold slice
  rw [List.getElem?_take, List.getElem?_take, List.getElem?_drop, List.getElem?_drop]
  split
  · exact h _ (Nat.le_add_right _ _) (by omega)
  · rfl

/-- A stretch apart from the written one is as before. -/
theorem slice_write_disjoint {offset' width : Nat} (h : offset + value.length ≤ l.length)
    (hapart : offset' + width ≤ offset ∨ offset + value.length ≤ offset') :
    slice (write l offset value) offset' width = slice l offset' width := by
  apply slice_congr
  intro i hlow hhigh
  rcases hapart with hbefore | hafter
  · exact getElem?_write_before h (by omega)
  · exact getElem?_write_after h (by omega)

end Write

end Layout
