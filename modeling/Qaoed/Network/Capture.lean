import Qaoed.Library.Strides
import Qaoed.Network.Exchange
import Qaoed.Network.Service

/-!
# Buffers of the packet filter

On a system with the Berkeley packet filter a listener reads many frames at once. Each of them
lies behind a header of its own, and the next header begins at a multiple of the word size. The
listener goes from header to header, and hands what lies between them to `processpacket`.
-/

namespace Qaoed.Network

open Qaoed.Library
open Qaoed.Library.ByteOrder
open Qaoed.Frame
open Qaoed.Device

variable {Iface : Type}

/-! ## The loop -/

/-- Where a system has the fields of `struct bpf_hdr`, and `BPF_ALIGNMENT`. -/
structure BpfLayout where
  caplen : Nat
  hdrlen : Nat
  size : Nat
  alignment : Nat
  caplen_inside : caplen + 4 ≤ size
  hdrlen_inside : hdrlen + 2 ≤ size
  alignment_pos : 0 < alignment

/-- Memory from a position on. -/
def behind (raw : Mem) (pos : Nat) : Mem := fun index => raw (pos + index)

section Loop

variable (layout : BpfLayout) (order : ByteOrder)

def bhCaplen (bpfHeader : Mem) : UInt32 :=
  load32 order (bpfHeader layout.caplen) (bpfHeader (layout.caplen + 1))
    (bpfHeader (layout.caplen + 2)) (bpfHeader (layout.caplen + 3))

def bhHdrlen (bpfHeader : Mem) : UInt16 :=
  load16 order (bpfHeader layout.hdrlen) (bpfHeader (layout.hdrlen + 1))

/-- `BPF_WORDALIGN`. -/
def bpfWordalign (size : Nat) : Nat := (size + (layout.alignment - 1)) / layout.alignment * layout.alignment

/-- How far it is to the next header: the sum is one of 32 bits. -/
def bpfStride (raw : Mem) (pos : Nat) : Nat :=
  bpfWordalign layout (((bhHdrlen layout order (behind raw pos)).toNat +
    (bhCaplen layout order (behind raw pos)).toNat) % 2 ^ 32)

/-- A parameter of type `int` for a value of 32 bits. -/
def toInt (value : UInt32) : Int :=
  if value.toNat < 2 ^ 31 then value.toNat else value.toNat - 2 ^ 32

/-- The frame behind a header, and its length. -/
def bpfFrame (raw : Mem) (pos : Nat) : Mem × Int :=
  (behind raw (pos + (bhHdrlen layout order (behind raw pos)).toNat),
    toInt (bhCaplen layout order (behind raw pos)))

/-- What the listener does with a buffer in which `read` left `len` bytes, if the loop ends. -/
def bpfListener (devices : List (Aoedev Aclhdr Iface)) (ifentry : Ifst) (raw : Mem) (len : Int)
    (fuel : Nat) : Option (List (Dispatched Iface)) :=
  (strides (bpfStride layout order raw) len fuel 0).map fun visited =>
    visited.map fun pos =>
      processpacket order devices ifentry (bpfFrame layout order raw pos).1
        (bpfFrame layout order raw pos).2

end Loop

/-! ## Buffers -/

/-- A frame as the packet filter stores it. -/
structure Captured where
  header : List UInt8
  frame : List UInt8

/-- The header covers the fields, and says where the frame begins and ends. -/
structure WellFormed (layout : BpfLayout) (order : ByteOrder) (captured : Captured) : Prop where
  covers : layout.size ≤ captured.header.length
  small : captured.header.length < 2 ^ 16
  fits : captured.frame.length < 2 ^ 31
  caplen : (captured.header.drop layout.caplen).take 4 =
    store32 order (UInt32.ofNat captured.frame.length)
  hdrlen : (captured.header.drop layout.hdrlen).take 2 =
    store16 order (UInt16.ofNat captured.header.length)

/-- The buffer holds the frames: behind each of them, but not behind the last one, there are as
many bytes as the next header needs to be aligned. -/
inductive Buffered (layout : BpfLayout) (order : ByteOrder) : List UInt8 → List (List UInt8) → Prop
  | empty : Buffered layout order [] []
  | last {captured : Captured} {padding : List UInt8} : WellFormed layout order captured →
      captured.header.length + captured.frame.length + padding.length ≤
        bpfWordalign layout (captured.header.length + captured.frame.length) →
      Buffered layout order (captured.header ++ (captured.frame ++ padding)) [captured.frame]
  | frame {captured : Captured} {padding rest : List UInt8} {frames : List (List UInt8)} :
      WellFormed layout order captured →
      captured.header.length + captured.frame.length + padding.length =
        bpfWordalign layout (captured.header.length + captured.frame.length) →
      Buffered layout order rest frames →
      Buffered layout order (captured.header ++ (captured.frame ++ (padding ++ rest)))
        (captured.frame :: frames)

/-! ## What is found behind a header -/

section Header

variable {layout : BpfLayout} {order : ByteOrder} {captured : Captured} {raw : Mem} {pos : Nat}

theorem behind_behind (raw : Mem) (first second : Nat) :
    behind (behind raw first) second = behind raw (first + second) := by
  funext index
  exact congrArg raw (Nat.add_assoc first second index).symm

theorem holds_append {content later : List UInt8} (holds : Holds raw (content ++ later)) :
    Holds raw content ∧ Holds (behind raw content.length) later := by
  constructor
  · intro index inside
    have whole := holds index (by rw [List.length_append]; omega)
    rwa [List.getElem_append_left inside] at whole
  · intro index inside
    have whole := holds (content.length + index) (by rw [List.length_append]; omega)
    rw [List.getElem_append_right (Nat.le_add_right _ _)] at whole
    simpa [behind] using whole

theorem le_bpfWordalign (layout : BpfLayout) (size : Nat) : size ≤ bpfWordalign layout size := by
  have positive := layout.alignment_pos
  have rest := Nat.div_add_mod' (size + (layout.alignment - 1)) layout.alignment
  have small := Nat.mod_lt (size + (layout.alignment - 1)) positive
  unfold bpfWordalign
  omega

theorem bpfWordalign_pos (layout : BpfLayout) {size : Nat} : 0 < bpfWordalign layout size ↔ 0 < size := by
  constructor
  · intro aligned
    refine Nat.pos_of_ne_zero fun none => ?_
    have nothing : bpfWordalign layout 0 = 0 := by
      have positive := layout.alignment_pos
      rw [bpfWordalign, Nat.zero_add, Nat.div_eq_of_lt (by omega), Nat.zero_mul]
    rw [none, nothing] at aligned
    cases aligned
  · intro positive
    exact Nat.lt_of_lt_of_le positive (le_bpfWordalign layout size)

/-- A part of what memory holds. -/
theorem bytesAt_of_holds {content : List UInt8} (holds : Holds raw content) {offset count : Nat}
    (inside : offset + count ≤ content.length) :
    (content.drop offset).take count = bytesAt raw offset count := by
  apply List.ext_getElem?
  intro index
  rw [List.getElem?_take, List.getElem?_drop, bytesAt_getElem?]
  split
  · next small =>
      rw [List.getElem?_eq_getElem (by omega), holds (offset + index) (by omega)]
  · rfl

theorem bhHdrlen_of_holds (wellFormed : WellFormed layout order captured)
    (holds : Holds raw captured.header) :
    (bhHdrlen layout order raw).toNat = captured.header.length := by
  have covers := wellFormed.covers
  have stored := wellFormed.hdrlen
  rw [bytesAt_of_holds holds (Nat.le_trans layout.hdrlen_inside covers)] at stored
  have small : captured.header.length < UInt16.size := wellFormed.small
  have loaded : bhHdrlen layout order raw = UInt16.ofNat captured.header.length :=
    load16_store16 order _ stored.symm
  rw [loaded, UInt16.toNat_ofNat_of_lt' small]

theorem bhCaplen_of_holds (wellFormed : WellFormed layout order captured)
    (holds : Holds raw captured.header) :
    (bhCaplen layout order raw).toNat = captured.frame.length := by
  have covers := wellFormed.covers
  have stored := wellFormed.caplen
  rw [bytesAt_of_holds holds (Nat.le_trans layout.caplen_inside covers)] at stored
  have small : captured.frame.length < UInt32.size := Nat.lt_trans wellFormed.fits (by decide)
  have loaded : bhCaplen layout order raw = UInt32.ofNat captured.frame.length :=
    load32_store32 order _ stored.symm
  rw [loaded, UInt32.toNat_ofNat_of_lt' small]

/-- From a header that is well formed the listener finds the frame behind it, and the next. -/
theorem bpfFrame_of_holds (wellFormed : WellFormed layout order captured) {later : List UInt8}
    (holds : Holds (behind raw pos) (captured.header ++ (captured.frame ++ later))) :
    Holds (bpfFrame layout order raw pos).1 captured.frame ∧
      (bpfFrame layout order raw pos).2 = captured.frame.length ∧
      bpfStride layout order raw pos =
        bpfWordalign layout (captured.header.length + captured.frame.length) := by
  obtain ⟨header, content⟩ := holds_append holds
  have hdrlen := bhHdrlen_of_holds wellFormed header
  have caplen := bhCaplen_of_holds wellFormed header
  have small := wellFormed.small
  have fits := wellFormed.fits
  rw [behind_behind] at content
  refine ⟨?_, ?_, ?_⟩
  · rw [bpfFrame, hdrlen]
    exact (holds_append content).1
  · rw [bpfFrame, toInt, caplen, if_pos fits]
  · rw [bpfStride, hdrlen, caplen, Nat.mod_eq_of_lt (by omega)]

end Header

/-! ## Whole buffers -/

section Buffer

variable {layout : BpfLayout} {order : ByteOrder} {raw : Mem}

/-- What the listener hands over is a frame. -/
def HandsOver (layout : BpfLayout) (order : ByteOrder) (raw : Mem) (pos : Nat) (frame : List UInt8) :
    Prop :=
  Holds (bpfFrame layout order raw pos).1 frame ∧ (bpfFrame layout order raw pos).2 = frame.length

/-- The loop visits the headers of the frames. -/
theorem visits_buffered {bytes : List UInt8} {frames : List (List UInt8)}
    (buffered : Buffered layout order bytes frames) {pos : Nat} (holds : Holds (behind raw pos) bytes) :
    ∃ visited, Visits (bpfStride layout order raw) (pos + bytes.length : Nat) pos visited ∧
      List.Forall₂ (HandsOver layout order raw) visited frames := by
  induction buffered generalizing pos with
  | empty => exact ⟨[], .ends (Int.le_refl _), .nil⟩
  | @last captured padding wellFormed padded =>
      obtain ⟨frame, length, stride⟩ := bpfFrame_of_holds wellFormed holds
      have covers := wellFormed.covers
      have inside := layout.caplen_inside
      refine ⟨[pos], .visit ?_ (.ends ?_), .cons ⟨frame, length⟩ .nil⟩
      · simp only [List.length_append]
        omega
      · rw [stride]
        simp only [List.length_append]
        omega
  | @frame captured padding rest frames wellFormed padded buffered ih =>
      obtain ⟨frame, length, stride⟩ := bpfFrame_of_holds wellFormed holds
      have covers := wellFormed.covers
      have inside := layout.caplen_inside
      have next : Holds (behind raw (pos + bpfStride layout order raw pos)) rest := by
        have later := (holds_append (holds_append (holds_append holds).2).2).2
        rw [behind_behind, behind_behind, behind_behind] at later
        have position : pos + bpfStride layout order raw pos =
            pos + (captured.header.length + (captured.frame.length + padding.length)) := by
          omega
        rwa [position]
      obtain ⟨visited, visits, handed⟩ := ih next
      refine ⟨pos :: visited, .visit ?_ ?_, .cons ⟨frame, length⟩ handed⟩
      · simp only [List.length_append]
        omega
      · have ends : pos + bpfStride layout order raw pos + rest.length = pos +
            (captured.header ++ (captured.frame ++ (padding ++ rest))).length := by
          rw [stride, ← padded]
          simp only [List.length_append]
          omega
        rwa [← ends]

end Buffer

/-- What `processpacket` does depends on the bytes of the frame alone. -/
theorem processpacket_congr {order : ByteOrder} (devices : List (Aoedev Aclhdr Iface)) (ifentry : Ifst)
    {aoepkt aoepkt' : Mem} {frame : List UInt8} (holds : Holds aoepkt frame)
    (holds' : Holds aoepkt' frame) :
    processpacket order devices ifentry aoepkt frame.length =
      processpacket order devices ifentry aoepkt' frame.length := by
  by_cases short : sizeT frame.length < sizeofAoeHdr
  · simp only [processpacket, arrival, if_pos short]
  · have long : sizeofAoeHdr ≤ frame.length := by
      unfold sizeT at short
      omega
    have same : AoeHdr.ofMem order aoepkt = AoeHdr.ofMem order aoepkt' :=
      AoeHdr.ofMem_congr fun index inside => by
        rw [holds index (Nat.lt_of_lt_of_le inside long), holds' index (Nat.lt_of_lt_of_le inside long)]
    simp only [processpacket, arrival, same]

/-- Frames that are handed over are dispatched as if each of them were alone. -/
theorem dispatched_eq {layout : BpfLayout} {order : ByteOrder} (devices : List (Aoedev Aclhdr Iface))
    (ifentry : Ifst) {raw : Mem} {visited : List Nat} {frames : List (List UInt8)}
    (handed : List.Forall₂ (HandsOver layout order raw) visited frames) :
    (visited.map fun pos => processpacket order devices ifentry (bpfFrame layout order raw pos).1
        (bpfFrame layout order raw pos).2) =
      frames.map fun frame => processpacket order devices ifentry (memOf frame) frame.length := by
  induction handed with
  | nil => rfl
  | @cons pos frame _ _ here _ ih =>
      rw [List.map_cons, List.map_cons, ih, here.2,
        processpacket_congr devices ifentry here.1 (holds_memOf frame)]

/-- The listener takes a buffer of the packet filter apart into the frames that are in it: each of
them is dispatched, in their order, as if it had arrived alone. For whatever else is in a buffer,
the loop ends exactly if it comes to no header by which header and frame are empty. -/
theorem bpfListener_frames (layout : BpfLayout) (order : ByteOrder)
    (devices : List (Aoedev Aclhdr Iface)) (ifentry : Ifst) :
    (∀ bytes frames raw, Buffered layout order bytes frames → Holds raw bytes →
      ∀ fuel, frames.length ≤ fuel →
        bpfListener layout order devices ifentry raw bytes.length fuel =
          some (frames.map fun frame =>
            processpacket order devices ifentry (memOf frame) frame.length)) ∧
    ∀ raw len, (∃ fuel dispatched, bpfListener layout order devices ifentry raw len fuel =
        some dispatched) ↔
      ∀ pos, Relation.ReflTransGen (Strides (bpfStride layout order raw) len) 0 pos →
        (pos : Int) < len → 0 < ((bhHdrlen layout order (behind raw pos)).toNat +
          (bhCaplen layout order (behind raw pos)).toNat) % 2 ^ 32 := by
  constructor
  · intro bytes frames raw buffered holds fuel enough
    have start : behind raw 0 = raw := by
      funext index
      exact congrArg raw (Nat.zero_add index)
    obtain ⟨visited, visits, handed⟩ := @visits_buffered _ _ raw _ _ buffered 0 (by rwa [start])
    rw [Nat.zero_add] at visits
    rw [← handed.length_eq] at enough
    rw [bpfListener, visits.strides_eq fuel enough, Option.map_some]
    exact congrArg some (dispatched_eq devices ifentry handed)
  · intro raw len
    have ends : (∃ fuel dispatched, bpfListener layout order devices ifentry raw len fuel =
        some dispatched) ↔ ∃ visited, Visits (bpfStride layout order raw) len 0 visited := by
      constructor
      · rintro ⟨fuel, dispatched, returns⟩
        obtain ⟨visited, found, _⟩ := Option.map_eq_some_iff.mp returns
        exact ⟨visited, visits_of_strides found⟩
      · rintro ⟨visited, visits⟩
        exact ⟨visited.length, _, Option.map_eq_some_iff.mpr
          ⟨visited, visits.strides_eq _ (Nat.le_refl _), rfl⟩⟩
    rw [ends, visits_iff]
    simp only [bpfStride, bpfWordalign_pos]

/-- A system with 64-bit words, and two of them in front of the lengths for the time. -/
def wordLayout : BpfLayout := ⟨16, 24, 26, 8, by decide, by decide, by decide⟩

/-- A query as it is captured on such a system. -/
def capturedQuery : Captured where
  header := List.replicate 16 0 ++ store32 .little 32 ++ store32 .little 32 ++ store16 .little 26
  frame := bytesAt queryEntry.aoepkt 0 32

/-- Two queries in one buffer. -/
def twoQueries : List UInt8 :=
  capturedQuery.header ++ (capturedQuery.frame ++ (List.replicate 6 0 ++
    (capturedQuery.header ++ (capturedQuery.frame ++ []))))

theorem capturedQuery_wellFormed : WellFormed wordLayout .little capturedQuery where
  covers := by decide
  small := by decide
  fits := by decide
  caplen := by decide
  hdrlen := by decide

theorem bpfListener_frames_twoQueries :
    ∀ fuel, 2 ≤ fuel → bpfListener wordLayout .little twoSlots.devices queryEntry.ifentry
        (memOf twoQueries) twoQueries.length fuel =
      some ([capturedQuery.frame, capturedQuery.frame].map fun frame =>
        processpacket .little twoSlots.devices queryEntry.ifentry (memOf frame) frame.length) :=
  (bpfListener_frames wordLayout .little twoSlots.devices queryEntry.ifentry).1 twoQueries
    [capturedQuery.frame, capturedQuery.frame] (memOf twoQueries)
    (.frame capturedQuery_wellFormed (by decide) (.last capturedQuery_wellFormed (by decide)))
    (holds_memOf twoQueries)

end Qaoed.Network
