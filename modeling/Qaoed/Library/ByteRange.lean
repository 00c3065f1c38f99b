import Mathlib.Data.List.Basic
import Mathlib.Logic.Nontrivial.Basic

/-!
# Ranges of a byte sequence

A file is a list, a buffer a function from offsets. `slice` reads a range of a
file, `writeAt` replaces one and extends the file when the range ends beyond
it, and `bytesAt` reads a range of a buffer.
-/

namespace Qaoed.Library

variable {α : Type*}

/-- At most `len` elements from position `pos` on. -/
def slice (file : List α) (pos len : Nat) : List α := (file.drop pos).take len

/-- Replace the range that starts at `pos`. A gap between the old end and `pos`
is filled, and an empty range changes nothing wherever it lies. -/
def writeAt (fill : α) (file : List α) (pos : Nat) (new : List α) : List α :=
  match new with
  | [] => file
  | _ :: _ =>
      file.take pos ++ List.replicate (pos - file.length) fill ++ new ++
        file.drop (pos + new.length)

/-- `len` elements of a buffer from offset `pos` on. -/
def bytesAt (buffer : Nat → α) (pos len : Nat) : List α :=
  (List.range len).map fun index => buffer (pos + index)

/-- The buffer starts with the given elements. -/
def Holds (buffer : Nat → α) (content : List α) : Prop :=
  ∀ (index : Nat) (inside : index < content.length), buffer index = content[index]

@[simp]
theorem slice_length (file : List α) (pos len : Nat) :
    (slice file pos len).length = min len (file.length - pos) := by
  rw [slice, List.length_take, List.length_drop]

theorem slice_getElem? (file : List α) (pos len index : Nat) :
    (slice file pos len)[index]? = if index < len then file[pos + index]? else none := by
  rw [slice, List.getElem?_take, List.getElem?_drop]

theorem slice_zero (file : List α) (pos : Nat) : slice file pos 0 = [] := List.take_zero

/-- A range of a range. -/
theorem slice_slice (file : List α) {pos len start count : Nat}
    (inside : start + count ≤ len) :
    slice (slice file pos len) start count = slice file (pos + start) count := by
  apply List.ext_getElem?
  intro index
  rw [slice_getElem?, slice_getElem?, slice_getElem?]
  by_cases small : index < count
  · rw [if_pos small, if_pos small, if_pos (by omega : start + index < len), Nat.add_assoc]
  · rw [if_neg small, if_neg small]

@[simp]
theorem writeAt_nil (fill : α) (file : List α) (pos : Nat) : writeAt fill file pos [] = file := rfl

theorem writeAt_length (fill : α) (file : List α) (pos : Nat) {new : List α} (some : new ≠ []) :
    (writeAt fill file pos new).length = max file.length (pos + new.length) := by
  cases new with
  | nil => exact absurd rfl some
  | cons first rest =>
      simp only [writeAt, List.length_append, List.length_take, List.length_replicate,
        List.length_drop]
      omega

/-- A range inside the file is replaced without changing the file's length. -/
theorem writeAt_length_inside (fill : α) (file : List α) {pos : Nat} {new : List α}
    (inside : pos + new.length ≤ file.length) :
    (writeAt fill file pos new).length = file.length := by
  by_cases empty : new = []
  · rw [empty, writeAt_nil]
  · rw [writeAt_length fill file pos empty, Nat.max_eq_left inside]

/-- No range makes a file shorter. -/
theorem length_le_writeAt (fill : α) (file : List α) (pos : Nat) (new : List α) :
    file.length ≤ (writeAt fill file pos new).length := by
  by_cases empty : new = []
  · rw [empty]
    exact Nat.le_refl _
  · rw [writeAt_length fill file pos empty]
    exact Nat.le_max_left _ _

/-- After a write inside the file the range holds the new elements, and every
other position what it held before. -/
theorem writeAt_getElem? (fill : α) (file : List α) {pos : Nat} {new : List α}
    (inside : pos + new.length ≤ file.length) (index : Nat) :
    (writeAt fill file pos new)[index]? =
      if pos ≤ index ∧ index < pos + new.length then new[index - pos]? else file[index]? := by
  cases new with
  | nil =>
      rw [writeAt_nil, if_neg]
      rintro ⟨low, high⟩
      simp only [List.length_nil, Nat.add_zero] at high
      omega
  | cons first rest =>
      simp only [writeAt]
      generalize first :: rest = new at inside ⊢
      have noGap : pos - file.length = 0 := by omega
      have prefixLength : (file.take pos).length = pos := by
        rw [List.length_take]
        omega
      rw [noGap, List.replicate_zero, List.append_nil, List.append_assoc]
      by_cases below : index < pos
      · rw [List.getElem?_append_left (by omega), List.getElem?_take, if_pos below,
          if_neg (by omega)]
      · rw [List.getElem?_append_right (by omega), prefixLength]
        by_cases within : index < pos + new.length
        · rw [List.getElem?_append_left (by omega), if_pos ⟨by omega, within⟩]
        · rw [List.getElem?_append_right (by omega), List.getElem?_drop,
            if_neg (by omega)]
          congr 1
          omega

/-- A range read where it was just written is what was written. -/
theorem slice_writeAt_same (fill : α) (file : List α) {pos : Nat} {new : List α}
    (inside : pos + new.length ≤ file.length) :
    slice (writeAt fill file pos new) pos new.length = new := by
  apply List.ext_getElem?
  intro index
  rw [slice_getElem?]
  by_cases small : index < new.length
  · rw [if_pos small, writeAt_getElem? fill file inside, if_pos ⟨by omega, by omega⟩,
      Nat.add_sub_cancel_left]
  · rw [if_neg small, List.getElem?_eq_none (by omega)]

/-- So it is with a range that starts or ends behind the file. -/
theorem slice_writeAt (fill : α) (file : List α) (pos : Nat) (new : List α) :
    slice (writeAt fill file pos new) pos new.length = new := by
  cases new with
  | nil => exact slice_zero _ pos
  | cons first rest =>
      have before : (file.take pos ++ List.replicate (pos - file.length) fill).length = pos := by
        rw [List.length_append, List.length_take, List.length_replicate]
        omega
      rw [writeAt, slice, List.append_assoc, List.drop_left' before, List.take_left' rfl]

/-- A range is written in vain exactly if it holds the new elements already. -/
theorem writeAt_eq_self_iff (fill : α) (file : List α) (pos : Nat) {new : List α}
    (some : new ≠ []) : writeAt fill file pos new = file ↔ slice file pos new.length = new := by
  have positive := List.length_pos_of_ne_nil some
  constructor
  · intro same
    have lengths := writeAt_length fill file pos some
    rw [same] at lengths
    have read := slice_writeAt_same fill file (by omega : pos + new.length ≤ file.length)
    rwa [same] at read
  · intro there
    have lengths := congrArg List.length there
    rw [slice_length] at lengths
    have inside : pos + new.length ≤ file.length := by omega
    apply List.ext_getElem?
    intro index
    rw [writeAt_getElem? fill file inside]
    split
    · next within =>
        have same := congrArg (fun range => range[index - pos]?) there
        rw [slice_getElem?, if_pos (by omega)] at same
        rw [← same]
        congr 1
        omega
    · rfl

/-- What was written can be written again, in part or in full, without a change. -/
theorem writeAt_again (fill : α) (file : List α) (pos : Nat) (new : List α) (count : Nat) :
    writeAt fill (writeAt fill file pos new) pos (new.take count) = writeAt fill file pos new := by
  by_cases none : new.take count = []
  · rw [none, writeAt_nil]
  · rw [writeAt_eq_self_iff fill _ pos none]
    have read := slice_writeAt fill file pos new
    rw [slice] at read ⊢
    rw [List.length_take, ← List.take_take, read, List.take_eq_take_min, List.take_eq_take_min]

/-- The rest of a range need not be written exactly if the file holds it already. -/
theorem writeAt_take_eq_iff (fill : α) (file : List α) (pos : Nat) {new : List α} {count : Nat}
    (some : 0 < count) (short : count ≤ new.length) :
    writeAt fill file pos (new.take count) = writeAt fill file pos new ↔
      slice file (pos + count) (new.length - count) = new.drop count := by
  have length : (new.take count).length = count := by
    rw [List.length_take, Nat.min_eq_left short]
  have unfolded (range : List α) (nonempty : range ≠ []) : writeAt fill file pos range =
      (file.take pos ++ List.replicate (pos - file.length) fill) ++
        (range ++ file.drop (pos + range.length)) := by
    cases range with
    | nil => exact absurd rfl nonempty
    | cons first rest => rw [writeAt, List.append_assoc, List.append_assoc]
  have whole : new ++ file.drop (pos + new.length) =
      new.take count ++ (new.drop count ++ file.drop (pos + new.length)) := by
    rw [← List.append_assoc, List.take_append_drop]
  have rest : file.drop (pos + count) =
      slice file (pos + count) (new.length - count) ++ file.drop (pos + new.length) := by
    have behind : file.drop (pos + new.length) =
        (file.drop (pos + count)).drop (new.length - count) := by
      rw [List.drop_drop]
      congr 1
      omega
    rw [slice, behind, List.take_append_drop]
  rw [unfolded _ (List.ne_nil_of_length_pos (by omega)),
    unfolded _ (List.ne_nil_of_length_pos (by omega)), List.append_cancel_left_eq, length, whole,
    List.append_cancel_left_eq, rest, List.append_cancel_right_eq]

/-- Writing a first part of a range changes nothing or does all of it exactly if the
part is the whole or the file holds the part already, or the rest. -/
theorem writeAt_take_iff (fill : α) (file : List α) (pos : Nat) {new : List α} {count : Nat}
    (some : 0 < count) (short : count ≤ new.length) :
    (writeAt fill file pos (new.take count) ≠ file →
        writeAt fill file pos (new.take count) = writeAt fill file pos new) ↔
      count = new.length ∨ slice file pos count = new.take count ∨
        slice file (pos + count) (new.length - count) = new.drop count := by
  have length : (new.take count).length = count := by
    rw [List.length_take, Nat.min_eq_left short]
  have there := writeAt_eq_self_iff fill file pos (List.ne_nil_of_length_pos (by omega) :
    new.take count ≠ [])
  have rest := writeAt_take_eq_iff fill file pos some short
  have whole (all : count = new.length) :
      slice file (pos + count) (new.length - count) = new.drop count := by
    rw [all, Nat.sub_self, slice_zero, List.drop_length]
  rw [length] at there
  rw [ne_eq, there, rest]
  constructor
  · intro changes
    by_cases held : slice file pos count = new.take count
    · exact Or.inr (Or.inl held)
    · exact Or.inr (Or.inr (changes held))
  · rintro (all | held | left) changed
    · exact whole all
    · exact absurd held changed
    · exact left

@[simp]
theorem bytesAt_length (buffer : Nat → α) (pos len : Nat) : (bytesAt buffer pos len).length = len := by
  rw [bytesAt, List.length_map, List.length_range]

theorem bytesAt_getElem? (buffer : Nat → α) (pos len index : Nat) :
    (bytesAt buffer pos len)[index]? = if index < len then some (buffer (pos + index)) else none := by
  by_cases small : index < len
  · rw [if_pos small, bytesAt, List.getElem?_map, List.getElem?_range small, Option.map_some]
  · rw [if_neg small, List.getElem?_eq_none]
    rw [bytesAt_length]
    omega

/-- A range of the first bytes of a buffer is that range of the buffer, as far
as it lies within those bytes. -/
theorem slice_bytesAt (buffer : Nat → α) {total pos len : Nat} (inside : pos + len ≤ total) :
    slice (bytesAt buffer 0 total) pos len = bytesAt buffer pos len := by
  apply List.ext_getElem?
  intro index
  rw [slice_getElem?, bytesAt_getElem?, bytesAt_getElem?]
  by_cases small : index < len
  · rw [if_pos small, if_pos small, if_pos (by omega), Nat.zero_add]
  · rw [if_neg small, if_neg small]

theorem bytesAt_take (buffer : Nat → α) (pos len : Nat) {count : Nat} (inside : count ≤ len) :
    (bytesAt buffer pos len).take count = bytesAt buffer pos count := by
  apply List.ext_getElem?
  intro index
  rw [List.getElem?_take, bytesAt_getElem?, bytesAt_getElem?]
  by_cases small : index < count
  · rw [if_pos small, if_pos small, if_pos (by omega)]
  · rw [if_neg small, if_neg small]

theorem bytesAt_congr {buffer buffer' : Nat → α} {pos len : Nat}
    (agree : ∀ index, index < len → buffer (pos + index) = buffer' (pos + index)) :
    bytesAt buffer pos len = bytesAt buffer' pos len := by
  unfold bytesAt
  apply List.map_congr_left
  intro index member
  exact agree index (List.mem_range.mp member)

end Qaoed.Library
