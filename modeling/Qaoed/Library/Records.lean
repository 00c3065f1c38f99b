import Qaoed.Library.ByteRange

/-!
# Records of fields

A record of a fixed size is written field by field into memory that holds anything
before. If the fields lie inside the record and apart from each other, each is found
again where it was written, and a list of records is read back one after the other.
-/

namespace Qaoed.Library

variable {α β : Type*}

/-- A range with another one written over a part of the file apart from it. -/
theorem slice_writeAt_apart (fill : β) (file : List β) {pos start len : Nat} {new : List β}
    (inside : pos + new.length ≤ file.length)
    (apart : start + len ≤ pos ∨ pos + new.length ≤ start) :
    slice (writeAt fill file pos new) start len = slice file start len := by
  apply List.ext_getElem?
  intro index
  rw [slice_getElem?, slice_getElem?]
  by_cases small : index < len
  · rw [if_pos small, if_pos small, writeAt_getElem? fill file inside, if_neg (by omega)]
  · rw [if_neg small, if_neg small]

theorem slice_append_left (first second : List β) {start len : Nat}
    (inside : start + len ≤ first.length) :
    slice (first ++ second) start len = slice first start len := by
  rw [slice, slice, List.drop_append_of_le_length (by omega), List.take_append_of_le_length]
  rw [List.length_drop]
  omega

/-! ## One record -/

/-- Write fields, each given by its offset and its content. -/
def writeFields (fill : β) (memory : List β) (fields : List (Nat × List β)) : List β :=
  fields.foldl (fun memory field => writeAt fill memory field.1 field.2) memory

/-- Neither field begins before the other one ends. -/
def Apart (first second : Nat × List β) : Prop :=
  first.1 + first.2.length ≤ second.1 ∨ second.1 + second.2.length ≤ first.1

/-- The field is found where it belongs. -/
def HoldsField (memory : List β) (field : Nat × List β) : Prop :=
  slice memory field.1 field.2.length = field.2

theorem writeFields_length (fill : β) (memory : List β) {fields : List (Nat × List β)}
    (inside : ∀ field ∈ fields, field.1 + field.2.length ≤ memory.length) :
    (writeFields fill memory fields).length = memory.length := by
  induction fields generalizing memory with
  | nil => rfl
  | cons field fields ih =>
      have same := writeAt_length_inside fill memory (inside field List.mem_cons_self)
      rw [writeFields, List.foldl_cons, ← writeFields, ih, same]
      intro other member
      rw [same]
      exact inside other (List.mem_cons_of_mem _ member)

/-- A field stays while others are written apart from it. -/
theorem writeFields_kept (fill : β) (memory : List β) {fields : List (Nat × List β)}
    {kept : Nat × List β} (inside : ∀ field ∈ fields, field.1 + field.2.length ≤ memory.length)
    (apart : ∀ field ∈ fields, Apart kept field) (holds : HoldsField memory kept) :
    HoldsField (writeFields fill memory fields) kept := by
  induction fields generalizing memory with
  | nil => exact holds
  | cons field fields ih =>
      have fieldInside := inside field List.mem_cons_self
      have same := writeAt_length_inside fill memory fieldInside
      rw [writeFields, List.foldl_cons, ← writeFields]
      apply ih
      · intro other member
        rw [same]
        exact inside other (List.mem_cons_of_mem _ member)
      · exact fun other member => apart other (List.mem_cons_of_mem _ member)
      · rw [HoldsField, slice_writeAt_apart fill memory fieldInside (apart field List.mem_cons_self)]
        exact holds

/-- A field is found if those that are written later lie apart from it, whatever was there. -/
theorem writeFields_holds_later (fill : β) (memory : List β) {fields before after : List (Nat × List β)}
    {field : Nat × List β} (split : fields = before ++ field :: after)
    (inside : ∀ other ∈ fields, other.1 + other.2.length ≤ memory.length)
    (apart : ∀ other ∈ after, Apart field other) :
    HoldsField (writeFields fill memory fields) field := by
  subst split
  have length : (writeFields fill memory before).length = memory.length :=
    writeFields_length fill memory fun other member => inside other (List.mem_append_left _ member)
  have fieldInside := inside field (List.mem_append_right _ List.mem_cons_self)
  rw [← length] at fieldInside
  have same := writeAt_length_inside fill (writeFields fill memory before) fieldInside
  rw [writeFields, List.foldl_append, List.foldl_cons, ← writeFields, ← writeFields]
  refine writeFields_kept fill _ ?_ apart (slice_writeAt_same fill _ fieldInside)
  intro other member
  rw [same, length]
  exact inside other (List.mem_append_right _ (List.mem_cons_of_mem _ member))

theorem writeFields_holds (fill : β) (memory : List β) {fields : List (Nat × List β)}
    (inside : ∀ field ∈ fields, field.1 + field.2.length ≤ memory.length)
    (apart : fields.Pairwise Apart) :
    ∀ field ∈ fields, HoldsField (writeFields fill memory fields) field := by
  induction fields generalizing memory with
  | nil =>
      intro field member
      cases member
  | cons first fields ih =>
      have firstInside := inside first List.mem_cons_self
      have same := writeAt_length_inside fill memory firstInside
      have others : ∀ field ∈ fields, field.1 + field.2.length ≤
          (writeAt fill memory first.1 first.2).length := by
        intro other member
        rw [same]
        exact inside other (List.mem_cons_of_mem _ member)
      obtain ⟨apartFirst, apartOthers⟩ := List.pairwise_cons.mp apart
      rw [writeFields, List.foldl_cons, ← writeFields]
      intro field member
      rcases List.mem_cons.mp member with rfl | later
      · exact writeFields_kept fill _ others apartFirst (slice_writeAt_same fill memory firstInside)
      · exact ih _ others apartOthers field later

/-! ## Lists of records -/

/-- How a value lies in memory: its size, its fields in the order in which they are
written, and how it is read. -/
structure RecordFormat (α β : Type*) where
  size : Nat
  fill : β
  fields : α → List (Nat × List β)
  load : List β → α

namespace RecordFormat

variable (format : RecordFormat α β)

/-- The value has room in its record, and is what is read from its fields. -/
structure Fits (value : α) : Prop where
  inside : ∀ field ∈ format.fields value, field.1 + field.2.length ≤ format.size
  apart : (format.fields value).Pairwise Apart
  loads : ∀ memory, (∀ field ∈ format.fields value, HoldsField memory field) →
    format.load memory = value

/-- Write one value after the other. -/
def storeAll : List α → List β → List β
  | [], _ => []
  | value :: values, memory =>
      writeFields format.fill (memory.take format.size) (format.fields value) ++
        storeAll values (memory.drop format.size)

/-- Read a number of values, one after the other. -/
def loadAll : Nat → List β → List α
  | 0, _ => []
  | count + 1, memory => format.load memory :: loadAll count (memory.drop format.size)

theorem loadAll_length (count : Nat) (memory : List β) :
    (format.loadAll count memory).length = count := by
  induction count generalizing memory with
  | zero => rfl
  | succ count ih => rw [loadAll, List.length_cons, ih]

variable {format}

theorem record_length {value : α} (fits : format.Fits value) {memory : List β}
    (room : format.size ≤ memory.length) :
    (writeFields format.fill (memory.take format.size) (format.fields value)).length =
      format.size := by
  have whole : (memory.take format.size).length = format.size := List.length_take_of_le room
  rw [writeFields_length, whole]
  rw [whole]
  exact fits.inside

theorem storeAll_length {values : List α} (fits : ∀ value ∈ values, format.Fits value)
    {memory : List β} (room : memory.length = values.length * format.size) :
    (format.storeAll values memory).length = values.length * format.size := by
  induction values generalizing memory with
  | nil => exact (Nat.zero_mul _).symm
  | cons value values ih =>
      rw [List.length_cons, Nat.add_mul, Nat.one_mul] at room ⊢
      rw [storeAll, List.length_append, record_length (fits value List.mem_cons_self) (by omega), ih]
      · omega
      · exact fun other member => fits other (List.mem_cons_of_mem _ member)
      · rw [List.length_drop]
        omega

/-- Values that have room in their records are read back. -/
theorem loadAll_storeAll {values : List α} (fits : ∀ value ∈ values, format.Fits value)
    {memory : List β} (room : memory.length = values.length * format.size) :
    format.loadAll values.length (format.storeAll values memory) = values := by
  induction values generalizing memory with
  | nil => rfl
  | cons value values ih =>
      have first := fits value List.mem_cons_self
      rw [List.length_cons, Nat.add_mul, Nat.one_mul] at room
      have length := @record_length _ _ format value first memory (by omega)
      have whole : (memory.take format.size).length = format.size :=
        List.length_take_of_le (by omega)
      rw [storeAll, List.length_cons, loadAll, List.drop_left' length, ih, first.loads]
      · intro field member
        rw [HoldsField, slice_append_left]
        · apply writeFields_holds format.fill _ _ first.apart field member
          rw [whole]
          exact first.inside
        · rw [length]
          exact first.inside field member
      · exact fun other member => fits other (List.mem_cons_of_mem _ member)
      · rw [List.length_drop]
        omega

end RecordFormat

end Qaoed.Library
