import Qaoed.Device.StringMatch

/-!
# How far configuration requests reach

The length that a request announces counts bytes of two buffers: of the frame, as far
as it arrived, and of the device. Here are the offsets that each command reads or
writes in them.
-/

namespace Qaoed.Device

open Qaoed.Library
open Qaoed.Library.ByteOrder
open Qaoed.Frame

variable {Iface : Type}

/-- Offsets into the frame of a request, and into `dev->cfg`. -/
structure Accesses where
  request : List Nat
  cfg : List Nat

/-- What is read for every reply: the common header, and the byte with the command. -/
def replyOffsets : List Nat := List.range sizeofAoeHdr ++ [29]

/-- The same with the announced length. -/
def lengthOffsets : List Nat := replyOffsets ++ [30, 31]

/-- The bytes that `qaoed_processCFG` looks at. `memcmp` may look at all the bytes that
it is to compare. -/
def cfgAccesses (order : ByteOrder) (env : Env) (dev : Aoedev Aclhdr Iface) (work : Workentry) :
    Accesses :=
  let request := work.cfg order
  let requested := request.stringLength order
  let stored := List.range dev.cfgLen.toNat
  if cfgRefused dev request then ⟨29 :: List.range' 6 6, []⟩
  else if request.command == aoeCfgRead then ⟨replyOffsets, stored⟩
  else if request.command == aoeCfgMatch then
    if (request.cfgLen.toNat : Int) = dev.cfgLen then
      ⟨lengthOffsets ++ List.range' sizeofAoeCfghdr dev.cfgLen.toNat, stored⟩
    else ⟨lengthOffsets, []⟩
  else if request.command == aoeCfgMatchPartial then
    ⟨lengthOffsets ++ List.range' sizeofAoeCfghdr requested,
      List.range requested ++ if CfgMatches order env dev work then stored else []⟩
  else if request.command == aoeCfgSetIfEmpty then
    if dev.cfgLen ≠ 0 then ⟨replyOffsets, []⟩
    else if requested ≤ 1024 then
      ⟨lengthOffsets ++ List.range' sizeofAoeCfghdr requested, List.range requested⟩
    else ⟨lengthOffsets, []⟩
  else if request.command == aoeCfgSet then
    if requested ≤ 1024 then
      ⟨lengthOffsets ++ List.range' sizeofAoeCfghdr requested, List.range requested⟩
    else ⟨lengthOffsets, []⟩
  else ⟨replyOffsets, []⟩

/-- The offsets lie in what arrived of the frame, and in the buffer of the device. -/
structure Accesses.Within (accesses : Accesses) (packetLen : Int) : Prop where
  request : ∀ offset ∈ accesses.request, (offset : Int) < packetLen
  cfg : ∀ offset ∈ accesses.cfg, offset < 1024

/-- The request stays inside both buffers, and a string that did not arrive is not stored. -/
structure HandledWithin (order : ByteOrder) (env : Env) (dev : Aoedev Aclhdr Iface)
    (store : List UInt8) (work : Workentry) : Prop where
  accesses : (cfgAccesses order env dev work).Within work.packetLen
  unstored : isCfgSet (work.cfg order).command = true →
    work.packetLen < sizeofAoeCfghdr + (work.cfg order).stringLength order →
    storedString (qaoedProcessCFG order env dev store work).dev = storedString dev

/-- The bytes that the command takes for the string arrived, as many as the handler
takes them for, and a comparison ends inside the buffer. -/
structure StringArrived (order : ByteOrder) (dev : Aoedev Aclhdr Iface) (work : Workentry) :
    Prop where
  whole : (work.cfg order).command = aoeCfgMatch →
    ((work.cfg order).cfgLen.toNat : Int) = dev.cfgLen →
    sizeofAoeCfghdr + dev.cfgLen ≤ work.packetLen
  beginning : (work.cfg order).command = aoeCfgMatchPartial →
    (work.cfg order).stringLength order ≤ 1024 ∧
      (sizeofAoeCfghdr + (work.cfg order).stringLength order : Int) ≤ work.packetLen
  setIfEmpty : (work.cfg order).command = aoeCfgSetIfEmpty → dev.cfgLen = 0 →
    (work.cfg order).stringLength order ≤ 1024 →
    (sizeofAoeCfghdr + (work.cfg order).stringLength order : Int) ≤ work.packetLen
  set : (work.cfg order).command = aoeCfgSet →
    (work.cfg order).stringLength order ≤ 1024 →
    (sizeofAoeCfghdr + (work.cfg order).stringLength order : Int) ≤ work.packetLen

/-! ## Ranges -/

section Ranges

variable {packetLen : Int}

theorem replyOffsets_within (header : (sizeofAoeCfghdr : Int) ≤ packetLen) :
    ∀ offset ∈ replyOffsets, (offset : Int) < packetLen := by
  have small : ∀ offset ∈ replyOffsets, offset < sizeofAoeCfghdr := by decide
  intro offset member
  have inside := small offset member
  omega

theorem lengthOffsets_within (header : (sizeofAoeCfghdr : Int) ≤ packetLen) :
    ∀ offset ∈ lengthOffsets, (offset : Int) < packetLen := by
  have small : ∀ offset ∈ lengthOffsets, offset < sizeofAoeCfghdr := by decide
  intro offset member
  have inside := small offset member
  omega

theorem range_within_iff {count : Nat} :
    (∀ offset ∈ List.range count, offset < 1024) ↔ count ≤ 1024 := by
  constructor
  · intro inside
    by_contra long
    exact absurd (inside 1024 (List.mem_range.mpr (by omega))) (by decide)
  · intro short offset member
    have small := List.mem_range.mp member
    omega

/-- The header, and a string behind it. -/
theorem lengthOffsets_string_within_iff {count : Nat}
    (header : (sizeofAoeCfghdr : Int) ≤ packetLen) :
    (∀ offset ∈ lengthOffsets ++ List.range' sizeofAoeCfghdr count, (offset : Int) < packetLen) ↔
      (sizeofAoeCfghdr + count : Int) ≤ packetLen := by
  rw [List.forall_mem_append]
  constructor
  · rintro ⟨_, string⟩
    by_contra missing
    have last := string (sizeofAoeCfghdr + count - 1) (List.mem_range'_1.mpr (by omega))
    omega
  · intro arrived
    refine ⟨lengthOffsets_within header, ?_⟩
    intro offset member
    have inside := List.mem_range'_1.mp member
    omega

end Ranges

/-! ## Each command -/

section Command

variable {order : ByteOrder} {env : Env} {dev : Aoedev Aclhdr Iface} {work : Workentry}

theorem cfgAccesses_refused (refused : cfgRefused dev (work.cfg order) = true) :
    cfgAccesses order env dev work = ⟨29 :: List.range' 6 6, []⟩ := by
  unfold cfgAccesses
  exact if_pos refused

theorem cfgAccesses_read (admitted : cfgRefused dev (work.cfg order) = false)
    (command : (work.cfg order).command = aoeCfgRead) :
    cfgAccesses order env dev work = ⟨replyOffsets, List.range dev.cfgLen.toNat⟩ := by
  unfold cfgAccesses
  dsimp only
  rw [admitted, command]
  rfl

theorem cfgAccesses_match (admitted : cfgRefused dev (work.cfg order) = false)
    (command : (work.cfg order).command = aoeCfgMatch) :
    cfgAccesses order env dev work =
      if ((work.cfg order).cfgLen.toNat : Int) = dev.cfgLen then
        ⟨lengthOffsets ++ List.range' sizeofAoeCfghdr dev.cfgLen.toNat,
          List.range dev.cfgLen.toNat⟩
      else ⟨lengthOffsets, []⟩ := by
  unfold cfgAccesses
  dsimp only
  rw [admitted, command]
  rfl

theorem cfgAccesses_matchPartial (admitted : cfgRefused dev (work.cfg order) = false)
    (command : (work.cfg order).command = aoeCfgMatchPartial) :
    cfgAccesses order env dev work =
      ⟨lengthOffsets ++ List.range' sizeofAoeCfghdr ((work.cfg order).stringLength order),
        List.range ((work.cfg order).stringLength order) ++
          if CfgMatches order env dev work then List.range dev.cfgLen.toNat else []⟩ := by
  unfold cfgAccesses
  dsimp only
  rw [admitted, command]
  rfl

/-- The accesses of a command that copies a string of this length. -/
def copied (requested : Nat) : Accesses :=
  if requested ≤ 1024 then
    ⟨lengthOffsets ++ List.range' sizeofAoeCfghdr requested, List.range requested⟩
  else ⟨lengthOffsets, []⟩

theorem cfgAccesses_setIfEmpty (admitted : cfgRefused dev (work.cfg order) = false)
    (command : (work.cfg order).command = aoeCfgSetIfEmpty) :
    cfgAccesses order env dev work =
      if dev.cfgLen ≠ 0 then ⟨replyOffsets, []⟩
      else copied ((work.cfg order).stringLength order) := by
  unfold cfgAccesses
  dsimp only
  rw [admitted, command]
  rfl

theorem cfgAccesses_set (admitted : cfgRefused dev (work.cfg order) = false)
    (command : (work.cfg order).command = aoeCfgSet) :
    cfgAccesses order env dev work = copied ((work.cfg order).stringLength order) := by
  unfold cfgAccesses
  dsimp only
  rw [admitted, command]
  rfl

/-- Where nothing is asked of the string, there is nothing to arrive. -/
theorem stringArrived_of_other
    (command : (work.cfg order).command ≠ aoeCfgMatch ∧
      (work.cfg order).command ≠ aoeCfgMatchPartial ∧
      (work.cfg order).command ≠ aoeCfgSetIfEmpty ∧ (work.cfg order).command ≠ aoeCfgSet) :
    StringArrived order dev work :=
  ⟨fun whole => absurd whole command.1, fun beginning => absurd beginning command.2.1,
    fun ifEmpty => absurd ifEmpty command.2.2.1, fun always => absurd always command.2.2.2⟩

theorem cfgAccesses_refused_within (header : (sizeofAoeCfghdr : Int) ≤ work.packetLen)
    (refused : cfgRefused dev (work.cfg order) = true) :
    (cfgAccesses order env dev work).Within work.packetLen := by
  have small : ∀ offset ∈ 29 :: List.range' 6 6, offset < sizeofAoeCfghdr := by decide
  rw [cfgAccesses_refused refused]
  refine ⟨?_, fun offset member => nomatch member⟩
  intro offset member
  have inside := small offset member
  omega

theorem cfgAccesses_read_within (valid : CfgLenValid dev)
    (header : (sizeofAoeCfghdr : Int) ≤ work.packetLen)
    (admitted : cfgRefused dev (work.cfg order) = false)
    (command : (work.cfg order).command = aoeCfgRead) :
    (cfgAccesses order env dev work).Within work.packetLen := by
  have high := valid.2
  rw [cfgAccesses_read admitted command]
  exact ⟨replyOffsets_within header, range_within_iff.mpr (by omega)⟩

theorem cfgAccesses_match_within_iff (valid : CfgLenValid dev)
    (header : (sizeofAoeCfghdr : Int) ≤ work.packetLen)
    (admitted : cfgRefused dev (work.cfg order) = false)
    (command : (work.cfg order).command = aoeCfgMatch) :
    (cfgAccesses order env dev work).Within work.packetLen ↔
      (((work.cfg order).cfgLen.toNat : Int) = dev.cfgLen →
        sizeofAoeCfghdr + dev.cfgLen ≤ work.packetLen) := by
  obtain ⟨low, high⟩ := valid
  have stored : ∀ offset ∈ List.range dev.cfgLen.toNat, offset < 1024 :=
    range_within_iff.mpr (by omega)
  have length : ((dev.cfgLen.toNat : Nat) : Int) = dev.cfgLen := Int.toNat_of_nonneg low
  rw [cfgAccesses_match admitted command]
  split
  · next same =>
      rw [forall_prop_of_true same, ← length,
        ← lengthOffsets_string_within_iff header, length]
      exact ⟨fun within => within.request, fun inside => ⟨inside, stored⟩⟩
  · next other =>
      refine iff_of_true ?_ fun same => absurd same other
      exact ⟨lengthOffsets_within header, fun offset member => nomatch member⟩

theorem cfgAccesses_partial_within_iff (valid : CfgLenValid dev)
    (header : (sizeofAoeCfghdr : Int) ≤ work.packetLen)
    (admitted : cfgRefused dev (work.cfg order) = false)
    (command : (work.cfg order).command = aoeCfgMatchPartial) :
    (cfgAccesses order env dev work).Within work.packetLen ↔
      (work.cfg order).stringLength order ≤ 1024 ∧
        (sizeofAoeCfghdr + (work.cfg order).stringLength order : Int) ≤ work.packetLen := by
  have high := valid.2
  have stored : ∀ offset ∈ List.range dev.cfgLen.toNat, offset < 1024 :=
    range_within_iff.mpr (by omega)
  rw [cfgAccesses_matchPartial admitted command, ← lengthOffsets_string_within_iff header,
    ← range_within_iff]
  constructor
  · intro within
    exact ⟨(List.forall_mem_append.mp within.cfg).1, within.request⟩
  · rintro ⟨compared, string⟩
    refine ⟨string, List.forall_mem_append.mpr ⟨compared, ?_⟩⟩
    split
    · exact stored
    · exact fun offset member => nomatch member

/-- Both commands that store a string copy what they announce. -/
theorem copied_within_iff {requested : Nat} {packetLen : Int}
    (header : (sizeofAoeCfghdr : Int) ≤ packetLen) :
    (copied requested).Within packetLen ↔
      (requested ≤ 1024 → (sizeofAoeCfghdr + requested : Int) ≤ packetLen) := by
  unfold copied
  split
  · next fits =>
      rw [forall_prop_of_true fits, ← lengthOffsets_string_within_iff header]
      exact ⟨fun within => within.request, fun inside => ⟨inside, range_within_iff.mpr fits⟩⟩
  · next long =>
      refine iff_of_true ?_ fun fits => absurd fits long
      exact ⟨lengthOffsets_within header, fun offset member => nomatch member⟩

theorem cfgAccesses_setIfEmpty_within_iff (header : (sizeofAoeCfghdr : Int) ≤ work.packetLen)
    (admitted : cfgRefused dev (work.cfg order) = false)
    (command : (work.cfg order).command = aoeCfgSetIfEmpty) :
    (cfgAccesses order env dev work).Within work.packetLen ↔
      (dev.cfgLen = 0 → (work.cfg order).stringLength order ≤ 1024 →
        (sizeofAoeCfghdr + (work.cfg order).stringLength order : Int) ≤ work.packetLen) := by
  rw [cfgAccesses_setIfEmpty admitted command]
  by_cases empty : dev.cfgLen = 0
  · rw [if_neg (not_not.mpr empty), forall_prop_of_true empty, copied_within_iff header]
  · rw [if_pos empty]
    refine iff_of_true ?_ fun none => absurd none empty
    exact ⟨replyOffsets_within header, fun offset member => nomatch member⟩

theorem cfgAccesses_set_within_iff (header : (sizeofAoeCfghdr : Int) ≤ work.packetLen)
    (admitted : cfgRefused dev (work.cfg order) = false)
    (command : (work.cfg order).command = aoeCfgSet) :
    (cfgAccesses order env dev work).Within work.packetLen ↔
      ((work.cfg order).stringLength order ≤ 1024 →
        (sizeofAoeCfghdr + (work.cfg order).stringLength order : Int) ≤ work.packetLen) := by
  rw [cfgAccesses_set admitted command, copied_within_iff header]

theorem cfgAccesses_unknown_within (header : (sizeofAoeCfghdr : Int) ≤ work.packetLen)
    (admitted : cfgRefused dev (work.cfg order) = false)
    (read : (work.cfg order).command ≠ aoeCfgRead)
    (command : (work.cfg order).command ≠ aoeCfgMatch ∧
      (work.cfg order).command ≠ aoeCfgMatchPartial ∧
      (work.cfg order).command ≠ aoeCfgSetIfEmpty ∧ (work.cfg order).command ≠ aoeCfgSet) :
    (cfgAccesses order env dev work).Within work.packetLen := by
  obtain ⟨whole, beginning, ifEmpty, always⟩ := command
  unfold cfgAccesses
  simp only [admitted, Bool.false_eq_true, if_false, beq_iff_eq, read, whole, beginning, ifEmpty,
    always]
  exact ⟨replyOffsets_within header, fun offset member => nomatch member⟩

/-- The offsets of an admitted request lie inside exactly if its string arrived. -/
theorem cfgAccesses_within_iff (env : Env) (valid : CfgLenValid dev)
    (header : (sizeofAoeCfghdr : Int) ≤ work.packetLen)
    (admitted : cfgRefused dev (work.cfg order) = false) :
    (cfgAccesses order env dev work).Within work.packetLen ↔ StringArrived order dev work := by
  by_cases whole : (work.cfg order).command = aoeCfgMatch
  · rw [cfgAccesses_match_within_iff valid header admitted whole]
    refine ⟨fun arrived => ⟨fun _ => arrived, ?_, ?_, ?_⟩, fun arrived => arrived.whole whole⟩
    · exact fun other => absurd (whole.symm.trans other) (by decide)
    · exact fun other => absurd (whole.symm.trans other) (by decide)
    · exact fun other => absurd (whole.symm.trans other) (by decide)
  · by_cases beginning : (work.cfg order).command = aoeCfgMatchPartial
    · rw [cfgAccesses_partial_within_iff valid header admitted beginning]
      refine ⟨fun arrived => ⟨fun other => absurd other whole, fun _ => arrived, ?_, ?_⟩,
        fun arrived => arrived.beginning beginning⟩
      · exact fun other => absurd (beginning.symm.trans other) (by decide)
      · exact fun other => absurd (beginning.symm.trans other) (by decide)
    · by_cases ifEmpty : (work.cfg order).command = aoeCfgSetIfEmpty
      · rw [cfgAccesses_setIfEmpty_within_iff header admitted ifEmpty]
        refine ⟨fun arrived => ⟨fun other => absurd other whole,
          fun other => absurd other beginning, fun _ => arrived, ?_⟩,
          fun arrived => arrived.setIfEmpty ifEmpty⟩
        exact fun other => absurd (ifEmpty.symm.trans other) (by decide)
      · by_cases always : (work.cfg order).command = aoeCfgSet
        · rw [cfgAccesses_set_within_iff header admitted always]
          exact ⟨fun arrived => ⟨fun other => absurd other whole,
            fun other => absurd other beginning, fun other => absurd other ifEmpty,
            fun _ => arrived⟩, fun arrived => arrived.set always⟩
        · refine iff_of_true ?_ (stringArrived_of_other ⟨whole, beginning, ifEmpty, always⟩)
          by_cases read : (work.cfg order).command = aoeCfgRead
          · exact cfgAccesses_read_within valid header admitted read
          · exact cfgAccesses_unknown_within header admitted read
              ⟨whole, beginning, ifEmpty, always⟩

/-- A set command whose string did not arrive is turned down if those that are carried
out have theirs. -/
theorem unstored_of_arrived {store : List UInt8}
    (arrived : cfgRefused dev (work.cfg order) = false → StringArrived order dev work)
    (missing : work.packetLen < sizeofAoeCfghdr + (work.cfg order).stringLength order) :
    (qaoedProcessCFG order env dev store work).dev = dev := by
  rcases qaoedProcessCFG_cases order env dev store work with
    exit | ⟨_, _, exit⟩ | ⟨set, admitted, fits, empty, _⟩ | ⟨_, _, _, exit⟩
  · rw [exit]
    rfl
  · rw [exit]
    rfl
  · simp only [isCfgSet, Bool.or_eq_true, beq_iff_eq] at set
    rcases set with ifEmpty | always
    · have whole := (arrived admitted).setIfEmpty ifEmpty (empty ifEmpty) fits
      omega
    · have whole := (arrived admitted).set always fits
      omega
  · rw [exit]
    rfl

end Command

/-! ## What is looked at decides -/

/-- Two entries for one interface have the same bytes at some offsets. -/
structure AgreeAt (offsets : List Nat) (work other : Workentry) : Prop where
  ifentry : other.ifentry = work.ifentry
  bytes : ∀ offset ∈ offsets, other.aoepkt offset = work.aoepkt offset

namespace AgreeAt

variable {order : ByteOrder} {env : Env} {dev : Aoedev Aclhdr Iface} {store : List UInt8}
  {work other : Workentry} {offsets : List Nat}

theorem mono {fewer : List Nat} (agree : AgreeAt offsets work other)
    (part : ∀ offset ∈ fewer, offset ∈ offsets) : AgreeAt fewer work other :=
  ⟨agree.ifentry, fun offset member => agree.bytes offset (part offset member)⟩

theorem left {more : List Nat} (agree : AgreeAt (offsets ++ more) work other) :
    AgreeAt offsets work other :=
  agree.mono fun _ member => List.mem_append_left more member

theorem command (agree : AgreeAt offsets work other) (read : 29 ∈ offsets) :
    (other.cfg order).command = (work.cfg order).command :=
  congrArg (· &&& 0x0f) (agree.bytes 29 read)

theorem hSource (agree : AgreeAt (29 :: List.range' 6 6) work other) :
    (other.hdr order).hSource = (work.hdr order).hSource := by
  have byte (index : Nat) (member : index ∈ 29 :: List.range' 6 6) := agree.bytes index member
  unfold Workentry.hdr AoeHdr.ofMem SixBytes.ofMem
  simp (disch := decide) only [Nat.reduceAdd, byte]

theorem refused (agree : AgreeAt (29 :: List.range' 6 6) work other) :
    cfgRefused dev (other.cfg order) = cfgRefused dev (work.cfg order) := by
  have command : (other.cfg order).command = (work.cfg order).command :=
    agree.command List.mem_cons_self
  have source : (other.cfg order).aoehdr.hSource = (work.cfg order).aoehdr.hSource := agree.hSource
  unfold cfgRefused
  rw [command, source]

theorem hdr (agree : AgreeAt replyOffsets work other) : other.hdr order = work.hdr order :=
  AoeHdr.ofMem_congr fun index inside =>
    agree.bytes index (List.mem_append_left _ (List.mem_range.mpr inside))

theorem cfgReply (agree : AgreeAt replyOffsets work other) :
    Device.cfgReply order dev other = Device.cfgReply order dev work := by
  have command : (other.cfg order).command = (work.cfg order).command :=
    agree.command (by decide)
  unfold Device.cfgReply qaoedCreatepkt
  rw [agree.hdr, agree.ifentry, command]

theorem xmit (agree : AgreeAt offsets work other) (reply : Sent) (pktLen : Nat) :
    qaoedXmit other reply pktLen = qaoedXmit work reply pktLen := by
  unfold qaoedXmit setSource
  rw [agree.ifentry]

theorem cfgWithString (agree : AgreeAt replyOffsets work other) :
    Device.cfgWithString order env dev store other =
      Device.cfgWithString order env dev store work := by
  unfold Device.cfgWithString
  rw [agree.cfgReply]
  dsimp only
  rw [agree.xmit]

theorem cfgFailed (agree : AgreeAt replyOffsets work other) (code : UInt8)
    (logged : List LogRecord) :
    Device.cfgFailed order dev store other code logged =
      Device.cfgFailed order dev store work code logged := by
  unfold Device.cfgFailed
  rw [agree.cfgReply]
  dsimp only
  rw [agree.xmit]

theorem cfgLen (agree : AgreeAt lengthOffsets work other) :
    (other.cfg order).cfgLen = (work.cfg order).cfgLen := by
  unfold Workentry.cfg AoeCfghdr.ofMem
  dsimp only
  rw [agree.bytes 30 (by decide), agree.bytes 31 (by decide)]

theorem stringLength (agree : AgreeAt lengthOffsets work other) :
    (other.cfg order).stringLength order = (work.cfg order).stringLength order := by
  unfold AoeCfghdr.stringLength
  rw [agree.cfgLen]

/-- The bytes behind the header. -/
theorem string {len : Nat}
    (agree : AgreeAt (lengthOffsets ++ List.range' sizeofAoeCfghdr len) work other) :
    bytesAt other.aoepkt sizeofAoeCfghdr len = bytesAt work.aoepkt sizeofAoeCfghdr len := by
  apply bytesAt_congr
  intro index inside
  apply agree.bytes
  exact List.mem_append_right _ (List.mem_range'_1.mpr (by omega))

theorem cfgAcknowledged
    (agree : AgreeAt (lengthOffsets ++
      List.range' sizeofAoeCfghdr ((work.cfg order).stringLength order)) work other) :
    Device.cfgAcknowledged order dev store other = Device.cfgAcknowledged order dev store work := by
  unfold Device.cfgAcknowledged cfgStore
  rw [agree.left.left.cfgReply, agree.left.stringLength]
  dsimp only
  rw [agree.string, agree.xmit]

end AgreeAt

section Decided

variable {order : ByteOrder} {env : Env} {dev : Aoedev Aclhdr Iface} {work other : Workentry}

/-- An admitted request has its header looked at. -/
theorem replyOffsets_accessed (admitted : cfgRefused dev (work.cfg order) = false) :
    ∀ offset ∈ replyOffsets, offset ∈ (cfgAccesses order env dev work).request := by
  intro offset member
  have more (others : List Nat) : offset ∈ lengthOffsets ++ others :=
    List.mem_append_left _ (List.mem_append_left _ member)
  unfold cfgAccesses
  dsimp only
  rw [admitted, if_neg Bool.false_ne_true]
  repeat' split
  all_goals first
    | exact member
    | exact more _

theorem cfgRefused_of_agree
    (agree : AgreeAt (cfgAccesses order env dev work).request work other) :
    cfgRefused dev (other.cfg order) = cfgRefused dev (work.cfg order) := by
  apply AgreeAt.refused
  cases refused : cfgRefused dev (work.cfg order) with
  | true =>
      rw [cfgAccesses_refused refused] at agree
      exact agree
  | false =>
      have seen : ∀ offset ∈ 29 :: List.range' 6 6, offset ∈ replyOffsets := by decide
      exact agree.mono fun offset member =>
        replyOffsets_accessed refused offset (seen offset member)

theorem cfgMatches_of_agree (admitted : cfgRefused dev (work.cfg order) = false)
    (agree : AgreeAt (cfgAccesses order env dev work).request work other) :
    CfgMatches order env dev other ↔ CfgMatches order env dev work := by
  have reply := agree.mono (replyOffsets_accessed admitted)
  have command : (other.cfg order).command = (work.cfg order).command :=
    reply.command (by decide)
  by_cases whole : (work.cfg order).command = aoeCfgMatch
  · rw [cfgMatches_exactly whole, cfgMatches_exactly (command.trans whole)]
    rw [cfgAccesses_match admitted whole] at agree
    split at agree
    · next same => rw [agree.left.cfgLen, agree.string]
    · next differs =>
        rw [agree.cfgLen]
        exact iff_of_false (fun found => differs found.1) fun found => differs found.1
  · by_cases beginning : (work.cfg order).command = aoeCfgMatchPartial
    · rw [cfgMatches_partly beginning, cfgMatches_partly (command.trans beginning)]
      rw [cfgAccesses_matchPartial admitted beginning] at agree
      rw [agree.left.stringLength, agree.string]
    · refine iff_of_true ⟨fun same => ?_, fun same => ?_⟩ ⟨fun same => ?_, fun same => ?_⟩
      · exact absurd (command.symm.trans same) whole
      · exact absurd (command.symm.trans same) beginning
      · exact absurd same whole
      · exact absurd same beginning

/-- A command that copies the string looks at the length, and at the string if it fits. -/
theorem stringLength_of_copied
    (agree : AgreeAt (copied ((work.cfg order).stringLength order)).request work other) :
    (other.cfg order).stringLength order = (work.cfg order).stringLength order := by
  unfold copied at agree
  split at agree
  · exact agree.left.stringLength
  · exact agree.stringLength

theorem cfgAcknowledged_of_copied (store : List UInt8)
    (fits : (work.cfg order).stringLength order ≤ 1024)
    (agree : AgreeAt (copied ((work.cfg order).stringLength order)).request work other) :
    cfgAcknowledged order dev store other = cfgAcknowledged order dev store work := by
  unfold copied at agree
  rw [if_pos fits] at agree
  exact agree.cfgAcknowledged

/-- What becomes of a configuration request depends on the bytes that are looked at, and
on no others. -/
theorem qaoedProcessCFG_of_agree (store : List UInt8)
    (agree : AgreeAt (cfgAccesses order env dev work).request work other) :
    qaoedProcessCFG order env dev store other = qaoedProcessCFG order env dev store work := by
  have refused := cfgRefused_of_agree agree
  cases admitted : cfgRefused dev (work.cfg order) with
  | true =>
      rw [admitted] at refused
      rw [qaoedProcessCFG_refused admitted, qaoedProcessCFG_refused refused]
  | false =>
      rw [admitted] at refused
      have reply := agree.mono (replyOffsets_accessed admitted)
      have command : (other.cfg order).command = (work.cfg order).command :=
        reply.command (by decide)
      by_cases plain : (work.cfg order).command = aoeCfgRead
      · rw [qaoedProcessCFG_read admitted plain,
          qaoedProcessCFG_read refused (command.trans plain)]
        exact reply.cfgWithString
      · by_cases compares : (work.cfg order).command = aoeCfgMatch ∨
            (work.cfg order).command = aoeCfgMatchPartial
        · rw [qaoedProcessCFG_matches admitted compares,
            qaoedProcessCFG_matches refused (by rwa [command]), reply.cfgWithString]
          exact if_congr (cfgMatches_of_agree admitted agree) rfl rfl
        · by_cases ifEmpty : (work.cfg order).command = aoeCfgSetIfEmpty
          · rw [qaoedProcessCFG_setIfEmpty admitted ifEmpty,
              qaoedProcessCFG_setIfEmpty refused (command.trans ifEmpty), reply.cfgFailed]
            rw [cfgAccesses_setIfEmpty admitted ifEmpty] at agree
            by_cases empty : dev.cfgLen = 0
            · rw [if_neg (not_not.mpr empty)] at agree
              rw [stringLength_of_copied agree]
              split
              · next fits => exact cfgAcknowledged_of_copied store fits.2 agree
              · rfl
            · rw [if_neg fun fits => empty fits.1, if_neg fun fits => empty fits.1]
          · by_cases always : (work.cfg order).command = aoeCfgSet
            · rw [qaoedProcessCFG_set admitted always,
                qaoedProcessCFG_set refused (command.trans always), reply.cfgFailed]
              rw [cfgAccesses_set admitted always] at agree
              rw [stringLength_of_copied agree]
              split
              · next fits => exact cfgAcknowledged_of_copied store fits agree
              · rfl
            · obtain ⟨notExactly, notPartly⟩ := not_or.mp compares
              have read : isCfgRead (work.cfg order).command = false := by
                simp [isCfgRead, plain, notExactly, notPartly]
              have set : isCfgSet (work.cfg order).command = false := by
                simp [isCfgSet, ifEmpty, always]
              rw [qaoedProcessCFG_unknown read set,
                qaoedProcessCFG_unknown (by rwa [command]) (by rwa [command]), reply.cfgFailed,
                command]

end Decided

/-- In whatever state the requests so far have left the device, a configuration request
stays inside both buffers exactly if it is refused or its string arrived. -/
theorem handledWithin_iff (order : ByteOrder) (dev : Aoedev Aclhdr Iface) (store : List UInt8)
    (earlier : List Request) (request : Request) (empty : dev.cfgLen = 0)
    (header : (sizeofAoeCfghdr : Int) ≤ request.work.packetLen) :
    HandledWithin order request.env
        ((served (qaoedProcessCFG order)).run ⟨dev, store⟩ earlier).dev
        ((served (qaoedProcessCFG order)).run ⟨dev, store⟩ earlier).store request.work ↔
      (cfgRefused ((served (qaoedProcessCFG order)).run ⟨dev, store⟩ earlier).dev
          (request.work.cfg order) = false →
        StringArrived order ((served (qaoedProcessCFG order)).run ⟨dev, store⟩ earlier).dev
          request.work) := by
  have valid := (served_valid order dev store earlier empty).1
  constructor
  · intro within admitted
    exact (cfgAccesses_within_iff request.env valid header admitted).mp within.accesses
  · intro arrived
    refine ⟨?_, ?_⟩
    · cases refused : cfgRefused ((served (qaoedProcessCFG order)).run ⟨dev, store⟩ earlier).dev
          (request.work.cfg order) with
      | true => exact cfgAccesses_refused_within header refused
      | false =>
          exact (cfgAccesses_within_iff request.env valid header refused).mpr (arrived refused)
    · intro _ missing
      rw [unstored_of_arrived arrived missing]

theorem handledWithin_iff_wholeFrame :
    HandledWithin .little (twoByteRequest aoeCfgSet).env
      ((served (qaoedProcessCFG .little)).run oneSector []).dev
      ((served (qaoedProcessCFG .little)).run oneSector []).store
      (twoByteRequest aoeCfgSet).work := by
  refine (handledWithin_iff .little oneSector.dev oneSector.store [] (twoByteRequest aoeCfgSet) rfl
    (by decide)).mpr fun _ => ⟨?_, ?_, ?_, ?_⟩
  · exact fun whole => absurd whole (by decide)
  · exact fun beginning => absurd beginning (by decide)
  · exact fun ifEmpty => absurd ifEmpty (by decide)
  · exact fun _ _ => Int.le_refl 34

/-- A request of 32 bytes to store a string of two. -/
def missingString : Workentry := { (twoByteRequest aoeCfgSet).work with packetLen := 32 }

/-- Two bytes that nobody sent become the stored string. -/
theorem missingString_stored :
    (sizeofAoeCfghdr : Int) ≤ missingString.packetLen ∧
      ¬ HandledWithin .little (twoByteRequest aoeCfgSet).env oneSector.dev oneSector.store
        missingString := by
  refine ⟨by decide, ?_⟩
  intro within
  exact absurd (within.unstored rfl (by decide)) (by decide)

end Qaoed.Device
