import Qaoed.Api.Client

/-!
# The reply buffer of the client

`readreply` allocates its buffer by one comparison of the announced size with 2048, and
rejects sizes by another one. Between them the sizes that are read have room in the buffer,
but for the one that neither of them covers.
-/

namespace Qaoed.Api

open Qaoed.Frame
open Qaoed.Library
open Qaoed.Library.ByteOrder

/-- What `readreply` allocates behind the header. -/
def allocatedBehind (apiHdr : ApiHdr) : Nat :=
  if apiHdr.argLen < 2048 then apiHdr.argLen.toNat else 0

/-- What it stores there, of a stream that goes on behind the header. -/
def storedBehind (apiHdr : ApiHdr) (rest : List UInt8) : Nat :=
  if apiHdr.argLen > 2048 then 0 else (rest.take apiHdr.argLen.toNat).length

/-- What is stored has room, and a payload of a size that is not rejected is returned. -/
structure BufferRespected (order : ByteOrder) (apiHdr : ApiHdr) (rest : List UInt8) : Prop where
  inside : storedBehind apiHdr rest ≤ allocatedBehind apiHdr
  safe : ∀ malloc, readreply order malloc (apiHdr.store order ++ rest) ≠ .error .overflow
  complete : apiHdr.argLen ≤ 2048 → apiHdr.argLen.toNat ≤ rest.length →
    readreply order true (apiHdr.store order ++ rest) =
      .ok (⟨apiHdr, rest.take apiHdr.argLen.toNat⟩, rest.drop apiHdr.argLen.toNat)

section Reading

variable {order : ByteOrder} {apiHdr : ApiHdr} {rest : List UInt8} {malloc : Bool}

theorem load_store_append :
    ApiHdr.load order ((apiHdr.store order ++ rest).take sizeofApihdr) = apiHdr :=
  (Qaoed.Api.apihdr order).decode_take apiHdr rest

theorem drop_store_append : (apiHdr.store order ++ rest).drop sizeofApihdr = rest :=
  (Qaoed.Api.apihdr order).drop_encode apiHdr rest

/-- The client writes behind its buffer exactly if it stores more than it has room for. -/
theorem readreply_overflow_iff :
    readreply order malloc (apiHdr.store order ++ rest) = .error .overflow ↔
      malloc = true ∧ allocatedBehind apiHdr < storedBehind apiHdr rest := by
  have header : ((apiHdr.store order ++ rest).take sizeofApihdr).length = sizeofApihdr := by
    have size := (Qaoed.Api.apihdr order).encode_length apiHdr
    have store : (apiHdr.store order).length = sizeofApihdr := size
    rw [List.length_take, List.length_append, store]
    omega
  unfold readreply
  rw [if_neg (not_not.mpr header), load_store_append, drop_store_append]
  dsimp only
  cases malloc with
  | false => exact iff_of_false (fun returned => nomatch returned) fun both => nomatch both.1
  | true =>
      rw [Bool.not_true, if_neg Bool.false_ne_true]
      by_cases bogus : apiHdr.argLen > 2048
      · rw [if_pos bogus, storedBehind, if_pos bogus]
        exact iff_of_false (fun returned => nomatch returned) fun both => Nat.not_lt_zero _ both.2
      · have room : (if apiHdr.argLen < 2048 then apiHdr.argLen.toNat + sizeofApihdr
            else sizeofApihdr) = sizeofApihdr + allocatedBehind apiHdr := by
          rw [allocatedBehind]
          split_ifs <;> omega
        rw [if_neg bogus, room, storedBehind, if_neg bogus]
        split_ifs with beyond short
        · exact iff_of_true rfl ⟨rfl, Nat.lt_of_add_lt_add_left beyond⟩
        · exact iff_of_false (fun returned => nomatch returned) fun both =>
            beyond (Nat.add_lt_add_left both.2 _)
        · exact iff_of_false (fun returned => nomatch returned) fun both =>
            beyond (Nat.add_lt_add_left both.2 _)

/-- A payload smaller than the limit is returned. -/
theorem readreply_payload (small : apiHdr.argLen < 2048) (all : apiHdr.argLen.toNat ≤ rest.length) :
    readreply order true (apiHdr.store order ++ rest) =
      .ok (⟨apiHdr, rest.take apiHdr.argLen.toNat⟩, rest.drop apiHdr.argLen.toNat) := by
  have whole : sizeofApihdr ≤ (apiHdr.store order ++ rest).length := by
    have size : (apiHdr.store order).length = sizeofApihdr :=
      (Qaoed.Api.apihdr order).encode_length apiHdr
    rw [List.length_append]
    omega
  rw [readreply_small whole (by rwa [load_store_append]), apihdr_read_iff, load_store_append,
    drop_store_append]
  exact ⟨whole, all, rfl⟩

/-- Only the limit itself is read without room for it. -/
theorem stored_le_allocated_iff :
    storedBehind apiHdr rest ≤ allocatedBehind apiHdr ↔ apiHdr.argLen ≠ 2048 ∨ rest = [] := by
  rw [storedBehind, allocatedBehind]
  by_cases small : apiHdr.argLen < 2048
  · have notLarge : ¬ apiHdr.argLen > 2048 := UInt32.not_lt.mpr (UInt32.le_of_lt small)
    rw [if_pos small, if_neg notLarge, List.length_take]
    exact iff_of_true (Nat.min_le_left _ _) (Or.inl (UInt32.ne_of_lt small))
  · rw [if_neg small]
    by_cases bogus : apiHdr.argLen > 2048
    · rw [if_pos bogus]
      exact iff_of_true (Nat.le_refl 0) (Or.inl (UInt32.ne_of_lt bogus).symm)
    · have limit : apiHdr.argLen = 2048 :=
        UInt32.le_antisymm (UInt32.not_lt.mp bogus) (UInt32.not_lt.mp small)
      rw [if_neg bogus, limit, Nat.le_zero, List.length_eq_zero_iff, List.take_eq_nil_iff]
      refine ⟨fun none => Or.inr (none.resolve_left (by decide)), ?_⟩
      rintro (other | none)
      · exact absurd rfl other
      · exact Or.inr none

end Reading

/-- For every header of a reply and whatever follows it in the stream: the client stores what
it has room for and returns the payload, if and only if the announced size is not the limit
itself, or nothing follows. -/
theorem bufferRespected_iff (order : ByteOrder) (apiHdr : ApiHdr) (rest : List UInt8) :
    BufferRespected order apiHdr rest ↔ apiHdr.argLen ≠ 2048 ∨ rest = [] := by
  constructor
  · exact fun respected => stored_le_allocated_iff.mp respected.inside
  · intro allowed
    have inside := stored_le_allocated_iff.mpr allowed
    refine ⟨inside, ?_, ?_⟩
    · intro malloc overflow
      exact absurd (readreply_overflow_iff.mp overflow).2 (Nat.not_lt.mpr inside)
    · intro accepted all
      refine readreply_payload (UInt32.lt_of_le_of_ne accepted ?_) all
      intro limit
      rcases allowed with other | none
      · exact other limit
      · rw [limit, none] at all
        exact absurd all (by decide)

/-- The header of a reply with sixteen access lists. -/
def sixteenAcls : ApiHdr := Reply.hdr Request.aclList.cmd 0 ⟨.allok, 2048, 2048, .acls []⟩

/-- The list is written behind the buffer, which has no room for any of it. -/
theorem bufferRespected_fails :
    sixteenAcls.argLen.toNat = 16 * sizeofAclInfo ∧
      readreply .little true (sixteenAcls.store .little ++ List.replicate 2048 0) =
        .error .overflow ∧
      ¬ BufferRespected .little sixteenAcls (List.replicate 2048 0) := by
  have outside : ¬ storedBehind sixteenAcls (List.replicate 2048 0) ≤ allocatedBehind sixteenAcls := by
    rw [stored_le_allocated_iff, not_or]
    exact ⟨fun other => other rfl, List.cons_ne_nil _ _⟩
  refine ⟨by decide, readreply_overflow_iff.mpr ⟨rfl, Nat.lt_of_not_le outside⟩, ?_⟩
  exact fun respected => outside respected.inside

end Qaoed.Api
