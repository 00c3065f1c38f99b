import Mathlib.Data.List.Induction
import Qaoed.Library.ByteRange

/-!
# Block stores

The purpose of a block device is a map from block numbers to blocks. A write
replaces consecutive blocks, and a read returns the block of the most recent
write that covers the number, or the initial block. A file of bytes read in
pieces of one size implements such a map as long as the writes stay inside it.
-/

namespace Qaoed.Library

/-- Consecutive blocks for the block numbers from `start` on. -/
structure BlockWrite (β : Type*) where
  start : Nat
  data : List β

namespace BlockWrite

variable {β : Type*}

/-- The block a write gives to one number, if it covers the number. -/
def block? (write : BlockWrite β) (number : Nat) : Option β :=
  if write.start ≤ number then write.data[number - write.start]? else none

/-- The map after one write. -/
def apply (write : BlockWrite β) (store : Nat → β) : Nat → β :=
  fun number => (write.block? number).getD (store number)

/-- The map after a sequence of writes, the earliest first. -/
def replay (initial : Nat → β) (writes : List (BlockWrite β)) : Nat → β :=
  writes.foldl (fun store write => write.apply store) initial

/-- The block of the most recent write covering a number, else the initial one. -/
def latest (initial : Nat → β) (writes : List (BlockWrite β)) (number : Nat) : β :=
  (writes.reverse.findSome? fun write => write.block? number).getD (initial number)

def Covers (write : BlockWrite β) (number : Nat) : Prop :=
  write.start ≤ number ∧ number < write.start + write.data.length

theorem block?_eq_none_iff (write : BlockWrite β) (number : Nat) :
    write.block? number = none ↔ ¬ write.Covers number := by
  unfold block? Covers
  by_cases low : write.start ≤ number
  · rw [if_pos low, List.getElem?_eq_none_iff]
    omega
  · rw [if_neg low]
    simp only [low, false_and, not_false_eq_true]

theorem replay_append (initial : Nat → β) (earlier later : List (BlockWrite β)) :
    replay initial (earlier ++ later) = replay (replay initial earlier) later :=
  List.foldl_append

theorem replay_snoc (initial : Nat → β) (writes : List (BlockWrite β)) (last : BlockWrite β) :
    replay initial (writes ++ [last]) = last.apply (replay initial writes) :=
  replay_append initial writes [last]

/-- Replaying the writes in order leaves in each number the block of the most
recent one that covers it. -/
theorem replay_eq_latest (initial : Nat → β) (writes : List (BlockWrite β)) :
    replay initial writes = latest initial writes := by
  induction writes using List.reverseRecOn with
  | nil => rfl
  | append_singleton earlier last ih =>
      funext number
      rw [replay_snoc, ih]
      unfold apply latest
      rw [List.reverse_append, List.reverse_singleton, List.singleton_append,
        List.findSome?_cons]
      cases last.block? number with
      | none => rfl
      | some block => rfl

/-- A number that no write covers keeps its initial block. -/
theorem latest_uncovered (initial : Nat → β) {writes : List (BlockWrite β)} {number : Nat}
    (uncovered : ∀ write ∈ writes, ¬ write.Covers number) :
    latest initial writes number = initial number := by
  have missing : (writes.reverse.findSome? fun write => write.block? number) = none := by
    rw [List.findSome?_eq_none_iff]
    intro write member
    exact (block?_eq_none_iff write number).mpr (uncovered write (List.mem_reverse.mp member))
  rw [latest, missing, Option.getD_none]

end BlockWrite

/-! ## Files read in blocks -/

variable {α : Type*}

/-- Block `number` of a file cut into pieces of `size` elements. -/
def blockAt (size : Nat) (file : List α) (number : Nat) : List α :=
  slice file (size * number) size

/-- The first `count` blocks of a file. -/
def blocksOf (size : Nat) (file : List α) (count : Nat) : List (List α) :=
  (List.range count).map (blockAt size file)

@[simp]
theorem blocksOf_length (size : Nat) (file : List α) (count : Nat) :
    (blocksOf size file count).length = count := by
  rw [blocksOf, List.length_map, List.length_range]

theorem blocksOf_getElem? (size : Nat) (file : List α) {count index : Nat} (small : index < count) :
    (blocksOf size file count)[index]? = some (blockAt size file index) := by
  rw [blocksOf, List.getElem?_map, List.getElem?_range small, Option.map_some]

/-- The blocks of a read of `count` whole blocks are the blocks of the file. -/
theorem blockAt_slice (size : Nat) (file : List α) (start : Nat) {count index : Nat}
    (small : index < count) :
    blockAt size (slice file (size * start) (size * count)) index =
      blockAt size file (start + index) := by
  have bound : size * index + size ≤ size * count := by
    have step := Nat.mul_le_mul_left size (Nat.succ_le_of_lt small)
    rwa [Nat.mul_succ] at step
  unfold blockAt
  rw [slice_slice file bound, ← Nat.mul_add]

/-- Outside the blocks of a write every block of the file stays. -/
theorem blockAt_writeAt_outside (fill : α) (size : Nat) {file new : List α} {start count number : Nat}
    (whole : new.length = size * count)
    (inside : size * start + new.length ≤ file.length)
    (outside : number < start ∨ start + count ≤ number) :
    blockAt size (writeAt fill file (size * start) new) number = blockAt size file number := by
  apply List.ext_getElem?
  intro index
  unfold blockAt
  rw [slice_getElem?, slice_getElem?]
  by_cases small : index < size
  · rw [if_pos small, if_pos small, writeAt_getElem? fill file inside, if_neg]
    rintro ⟨low, high⟩
    rcases outside with before | after
    · have step := Nat.mul_le_mul_left size (Nat.succ_le_of_lt before)
      rw [Nat.mul_succ] at step
      omega
    · have step := Nat.mul_le_mul_left size after
      rw [Nat.mul_add] at step
      omega
  · rw [if_neg small, if_neg small]

/-- Inside the blocks of a write the file holds the blocks written. -/
theorem blockAt_writeAt_inside (fill : α) (size : Nat) {file new : List α} {start count index : Nat}
    (whole : new.length = size * count)
    (inside : size * start + new.length ≤ file.length) (small : index < count) :
    blockAt size (writeAt fill file (size * start) new) (start + index) = blockAt size new index := by
  have bound : size * index + size ≤ size * count := by
    have step := Nat.mul_le_mul_left size (Nat.succ_le_of_lt small)
    rwa [Nat.mul_succ] at step
  have within := slice_writeAt_same fill file inside
  unfold blockAt
  rw [Nat.mul_add, ← slice_slice (writeAt fill file (size * start) new) bound, ← whole, within]

/-- A write of whole blocks inside the file is a write of the block map. -/
theorem blockAt_writeAt (fill : α) (size : Nat) {file new : List α} {start count : Nat}
    (whole : new.length = size * count)
    (inside : size * start + new.length ≤ file.length) :
    blockAt size (writeAt fill file (size * start) new) =
      BlockWrite.apply ⟨start, blocksOf size new count⟩ (blockAt size file) := by
  funext number
  unfold BlockWrite.apply BlockWrite.block?
  dsimp only
  by_cases low : start ≤ number
  · obtain ⟨index, rfl⟩ := Nat.exists_eq_add_of_le low
    rw [if_pos low, Nat.add_sub_cancel_left]
    by_cases small : index < count
    · rw [blocksOf_getElem? size new small, Option.getD_some,
        blockAt_writeAt_inside fill size whole inside small]
    · rw [List.getElem?_eq_none (by rw [blocksOf_length]; omega), Option.getD_none,
        blockAt_writeAt_outside fill size whole inside (Or.inr (by omega))]
  · rw [if_neg low, Option.getD_none,
      blockAt_writeAt_outside fill size whole inside (Or.inl (by omega))]

end Qaoed.Library
