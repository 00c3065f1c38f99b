import Mathlib.Algebra.Order.Ring.Int

/-!
# Two- and four-byte integers in memory

The order in which a host stores the bytes of an integer is a parameter.
`swab16` is the exchange of the two bytes of a sixteen-bit word, and a
conversion to network order is that exchange on a little-endian host and
nothing on a big-endian one.
-/

namespace Qaoed.Library

inductive ByteOrder where
  | little
  | big
  deriving DecidableEq, Repr

namespace ByteOrder

/-- The value of two consecutive bytes, the lower address first. -/
def load16 (order : ByteOrder) (first second : UInt8) : UInt16 :=
  match order with
  | .little => UInt16.ofNat (first.toNat + 256 * second.toNat)
  | .big => UInt16.ofNat (256 * first.toNat + second.toNat)

/-- The two bytes that hold a value, the lower address first. -/
def store16 (order : ByteOrder) (value : UInt16) : List UInt8 :=
  let low := UInt8.ofNat (value.toNat % 256)
  let high := UInt8.ofNat (value.toNat / 256)
  match order with
  | .little => [low, high]
  | .big => [high, low]

def load32 (order : ByteOrder) (b0 b1 b2 b3 : UInt8) : UInt32 :=
  match order with
  | .little =>
      UInt32.ofNat (b0.toNat + 256 * b1.toNat + 65536 * b2.toNat + 16777216 * b3.toNat)
  | .big =>
      UInt32.ofNat (16777216 * b0.toNat + 65536 * b1.toNat + 256 * b2.toNat + b3.toNat)

/-- Byte number `index` of a value, counted from the least significant one. -/
def byteOf (value index : Nat) : UInt8 := UInt8.ofNat (value / 256 ^ index % 256)

def store32 (order : ByteOrder) (value : UInt32) : List UInt8 :=
  let bytes := [byteOf value.toNat 0, byteOf value.toNat 1, byteOf value.toNat 2,
    byteOf value.toNat 3]
  match order with
  | .little => bytes
  | .big => bytes.reverse

def swab16 (value : UInt16) : UInt16 :=
  UInt16.ofNat (256 * (value.toNat % 256) + value.toNat / 256)

def htons (order : ByteOrder) (value : UInt16) : UInt16 :=
  match order with
  | .little => swab16 value
  | .big => value

/-- The inverse conversion is the same exchange. -/
def ntohs (order : ByteOrder) (value : UInt16) : UInt16 := htons order value

theorem swab16_toNat (value : UInt16) :
    (swab16 value).toNat = 256 * (value.toNat % 256) + value.toNat / 256 := by
  have bound := value.toNat_lt
  unfold swab16
  rw [UInt16.toNat_ofNat']
  omega

@[simp]
theorem swab16_swab16 (value : UInt16) : swab16 (swab16 value) = value := by
  apply UInt16.toNat_inj.mp
  have bound := value.toNat_lt
  rw [swab16_toNat, swab16_toNat]
  omega

@[simp]
theorem ntohs_htons (order : ByteOrder) (value : UInt16) :
    ntohs order (htons order value) = value := by
  cases order with
  | little => exact swab16_swab16 value
  | big => rfl

@[simp]
theorem store16_length (order : ByteOrder) (value : UInt16) :
    (store16 order value).length = 2 := by
  cases order <;> rfl

@[simp]
theorem store32_length (order : ByteOrder) (value : UInt32) :
    (store32 order value).length = 4 := by
  cases order <;> rfl

/-- A two-byte field read back at the address where it was stored. -/
theorem load16_store16 (order : ByteOrder) (value : UInt16) {first second : UInt8}
    (stored : store16 order value = [first, second]) :
    load16 order first second = value := by
  have bound := value.toNat_lt
  apply UInt16.toNat_inj.mp
  cases order with
  | little =>
      simp only [store16, List.cons.injEq, and_true] at stored
      obtain ⟨rfl, rfl⟩ := stored
      simp only [load16, UInt16.toNat_ofNat', UInt8.toNat_ofNat']
      omega
  | big =>
      simp only [store16, List.cons.injEq, and_true] at stored
      obtain ⟨rfl, rfl⟩ := stored
      simp only [load16, UInt16.toNat_ofNat', UInt8.toNat_ofNat']
      omega

/-- A four-byte field read back at the address where it was stored. -/
theorem load32_store32 (order : ByteOrder) (value : UInt32) {b0 b1 b2 b3 : UInt8}
    (stored : store32 order value = [b0, b1, b2, b3]) :
    load32 order b0 b1 b2 b3 = value := by
  have bound := value.toNat_lt
  apply UInt32.toNat_inj.mp
  cases order with
  | little =>
      simp only [store32, byteOf, List.cons.injEq, and_true] at stored
      obtain ⟨rfl, rfl, rfl, rfl⟩ := stored
      simp only [load32, UInt32.toNat_ofNat', UInt8.toNat_ofNat']
      omega
  | big =>
      simp only [store32, byteOf, List.reverse_cons, List.reverse_nil, List.nil_append,
        List.cons_append, List.cons.injEq, and_true] at stored
      obtain ⟨rfl, rfl, rfl, rfl⟩ := stored
      simp only [load32, UInt32.toNat_ofNat', UInt8.toNat_ofNat']
      omega

/-- The number in consecutive bytes, the least significant one first. -/
def leValue (bytes : List UInt8) : Nat :=
  bytes.foldr (fun byte value => byte.toNat + 256 * value) 0

@[simp]
theorem byteOf_toNat (value index : Nat) : (byteOf value index).toNat = value / 256 ^ index % 256 := by
  rw [byteOf, UInt8.toNat_ofNat', Nat.mod_mod]

/-- The bytes of a number are those of its quotients by 256. -/
theorem leValue_bytes (count value : Nat) :
    leValue ((List.range count).map (byteOf value)) = value % 256 ^ count := by
  induction count generalizing value with
  | zero =>
      rw [Nat.pow_zero, Nat.mod_one]
      rfl
  | succ count ih =>
      have shifted : (List.range count).map (fun index => byteOf value (index + 1)) =
          (List.range count).map (byteOf (value / 256)) := by
        apply List.map_congr_left
        intro index _
        rw [byteOf, byteOf, Nat.div_div_eq_div_mul, ← Nat.pow_succ']
      have first : (byteOf value 0).toNat = value % 256 := by
        rw [byteOf_toNat, Nat.pow_zero, Nat.div_one]
      rw [List.range_succ_eq_map, List.map_cons, List.map_map]
      have rest := ih (value / 256)
      rw [← shifted] at rest
      rw [leValue, List.foldr_cons, ← leValue, first, Nat.pow_succ', Nat.mod_mul]
      exact congrArg (fun later => value % 256 + 256 * later) rest

end ByteOrder

/-- What holds of each of the 256 bytes holds of every byte. -/
theorem forall_byte {P : UInt8 → Prop} (each : ∀ value : Fin 256, P (UInt8.ofFin value))
    (byte : UInt8) : P byte := by
  have holds := each byte.toFin
  rwa [UInt8.ofFin_toFin] at holds

end Qaoed.Library
