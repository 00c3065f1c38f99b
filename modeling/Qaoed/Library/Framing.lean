import Mathlib.Data.List.Basic

/-!
# Framed streams

A frame is a header of a fixed size, which announces the length of the body behind
it. A reader that takes the frames of a stream one after the other gets those that
were written exactly if each body is as long as its header says. A stream may also
arrive in segments; a receiver that asks for a part at a time gets every part whole
exactly if no part lies across two segments.
-/

namespace Qaoed.Library

/-! ## Frames -/

structure Framing (η β : Type*) where
  size : Nat
  encode : η → List β
  decode : List β → η
  announced : η → Nat
  size_pos : 0 < size
  encode_length : ∀ header, (encode header).length = size
  decode_encode : ∀ header, decode (encode header) = header

structure Frame (η β : Type*) where
  header : η
  body : List β
  deriving DecidableEq, Repr

namespace Framing

variable {η β : Type*} (framing : Framing η β)

/-- The body is as long as the header says. -/
def Sound (frame : Frame η β) : Prop := frame.body.length = framing.announced frame.header

def write (frames : List (Frame η β)) : List β :=
  frames.flatMap fun frame => framing.encode frame.header ++ frame.body

/-- Take one frame from a stream that has all of it, and the rest. -/
def read (stream : List β) : Option (Frame η β × List β) :=
  let header := framing.decode (stream.take framing.size)
  let rest := stream.drop framing.size
  if stream.length < framing.size ∨ rest.length < framing.announced header then none
  else some (⟨header, rest.take (framing.announced header)⟩, rest.drop (framing.announced header))

/-- Take as many frames as there is fuel. -/
def readAll : Nat → List β → Option (List (Frame η β) × List β)
  | 0, stream => some ([], stream)
  | count + 1, stream => do
      let (frame, rest) ← framing.read stream
      let (frames, rest) ← readAll count rest
      return (frame :: frames, rest)

variable {framing}

/-- The header is found again, whatever follows it. -/
theorem decode_take (header : η) (rest : List β) :
    framing.decode ((framing.encode header ++ rest).take framing.size) = header := by
  rw [← framing.encode_length header, List.take_left, framing.decode_encode]

theorem drop_encode (header : η) (rest : List β) :
    (framing.encode header ++ rest).drop framing.size = rest := by
  rw [← framing.encode_length header, List.drop_left]

/-- A frame is read from a stream that has all of it. -/
theorem read_eq_some_iff {stream : List β} {result : Frame η β × List β} :
    framing.read stream = some result ↔ framing.size ≤ stream.length ∧
      framing.announced (framing.decode (stream.take framing.size)) ≤
        (stream.drop framing.size).length ∧
      result = (⟨framing.decode (stream.take framing.size), (stream.drop framing.size).take
          (framing.announced (framing.decode (stream.take framing.size)))⟩,
        (stream.drop framing.size).drop
          (framing.announced (framing.decode (stream.take framing.size)))) := by
  unfold read
  dsimp only
  split_ifs with short
  · refine iff_of_false (fun none => nomatch none) ?_
    rintro ⟨header, body, _⟩
    omega
  · rw [not_or, Nat.not_lt, Nat.not_lt] at short
    rw [Option.some.injEq, eq_comm]
    exact ⟨fun same => ⟨short.1, short.2, same⟩, fun all => all.2.2⟩

theorem header_of_read {header : η} {rest later : List β} {frame : Frame η β}
    (reads : framing.read (framing.encode header ++ rest) = some (frame, later)) :
    frame.header = header := by
  obtain ⟨_, _, same⟩ := read_eq_some_iff.mp reads
  cases same
  exact decode_take header rest

/-- Every frame that is read is as long as it says. -/
theorem sound_of_read {stream rest : List β} {frame : Frame η β}
    (reads : framing.read stream = some (frame, rest)) : framing.Sound frame := by
  obtain ⟨_, enough, same⟩ := read_eq_some_iff.mp reads
  cases same
  exact List.length_take_of_le enough

theorem sound_of_readAll {count : Nat} {stream rest : List β} {frames : List (Frame η β)}
    (reads : framing.readAll count stream = some (frames, rest)) :
    ∀ frame ∈ frames, framing.Sound frame := by
  induction count generalizing stream frames with
  | zero =>
      cases reads
      intro frame member
      cases member
  | succ count ih =>
      obtain ⟨⟨first, middle⟩, readsFirst, reads⟩ := Option.bind_eq_some_iff.mp reads
      obtain ⟨⟨others, final⟩, readsOthers, same⟩ := Option.bind_eq_some_iff.mp reads
      cases same
      intro frame member
      rcases List.mem_cons.mp member with rfl | later
      · exact sound_of_read readsFirst
      · exact ih readsOthers frame later

/-- A frame that is as long as it says is read off the front of a stream. -/
theorem read_append {frame : Frame η β} (sound : framing.Sound frame) (rest : List β) :
    framing.read (framing.encode frame.header ++ frame.body ++ rest) = some (frame, rest) := by
  unfold read
  dsimp only
  rw [List.append_assoc, decode_take, drop_encode, ← sound, List.take_left, List.drop_left, if_neg]
  rw [not_or, List.length_append, List.length_append, framing.encode_length]
  omega

/-- The reader stays in step with the writer exactly if every frame is as long as it says. -/
theorem readAll_write_iff (frames : List (Frame η β)) :
    framing.readAll frames.length (framing.write frames) = some (frames, []) ↔
      ∀ frame ∈ frames, framing.Sound frame := by
  constructor
  · exact sound_of_readAll
  · intro sound
    induction frames with
    | nil => rfl
    | cons frame frames ih =>
        have rest := ih fun other member => sound other (List.mem_cons_of_mem _ member)
        have first := read_append (sound frame List.mem_cons_self) (framing.write frames)
        rw [List.length_cons, readAll, write, List.flatMap_cons, ← write, first]
        dsimp only [Option.bind_eq_bind, Option.bind_some]
        rw [rest]
        rfl

end Framing

/-! ## Segments -/

section Segments

variable {β : Type*}

/-- Ask for a number of bytes: what is there of the first segment, at most as many as
were asked for, and what is left. A stream that has ended gives nothing. -/
def recv (count : Nat) : List (List β) → List β × List (List β)
  | [] => ([], [])
  | segment :: later =>
      (segment.take count,
        if segment.length ≤ count then later else segment.drop count :: later)

/-- No part lies across two segments: each segment holds a group of whole parts. -/
def Whole (parts segments : List (List β)) : Prop :=
  ∃ groups : List (List (List β)), groups.flatten = parts ∧ groups.map List.flatten = segments

theorem whole_nil : Whole ([] : List (List β)) [] := ⟨[], rfl, rfl⟩

/-- What is left has no empty segments either. -/
theorem recv_nonempty {count : Nat} {segments : List (List β)}
    (nonempty : ∀ segment ∈ segments, segment ≠ []) :
    ∀ segment ∈ (recv count segments).2, segment ≠ [] := by
  cases segments with
  | nil => exact nonempty
  | cons first later =>
      unfold recv
      dsimp only
      split
      · exact fun segment member => nonempty segment (List.mem_cons_of_mem _ member)
      · next longer =>
          intro segment member
          rcases List.mem_cons.mp member with rfl | inLater
          · intro none
            exact longer (List.drop_eq_nil_iff.mp none)
          · exact nonempty segment (List.mem_cons_of_mem _ inLater)

/-- What is received and what is left are the stream. -/
theorem recv_flatten (count : Nat) (segments : List (List β)) :
    (recv count segments).1 ++ (recv count segments).2.flatten = segments.flatten := by
  cases segments with
  | nil => rfl
  | cons first later =>
      unfold recv
      dsimp only
      split
      · next shorter => rw [List.take_of_length_le shorter, List.flatten_cons]
      · rw [List.flatten_cons, List.flatten_cons, ← List.append_assoc, List.take_append_drop]

/-- The first part lies in one segment, and the others in what is left behind it. -/
theorem whole_cons_iff {part : List β} {parts segments : List (List β)}
    (others : ∀ other ∈ parts, other ≠ []) (given : ∀ segment ∈ segments, segment ≠ []) :
    Whole (part :: parts) segments ↔
      (∃ segment later, segments = segment :: later ∧ part <+: segment) ∧
        Whole parts (recv part.length segments).2 := by
  constructor
  · rintro ⟨groups, together, rfl⟩
    cases groups with
    | nil => cases together
    | cons group groups =>
        cases group with
        | nil => exact absurd rfl (given [] List.mem_cons_self)
        | cons first rest =>
            cases together
            refine ⟨⟨_, _, rfl, ⟨rest.flatten, rfl⟩⟩, ?_⟩
            rw [List.map_cons, List.flatten_cons, recv]
            cases rest with
            | nil =>
                rw [if_pos (by simp)]
                exact ⟨groups, rfl, rfl⟩
            | cons second rest =>
                have secondNonempty : second ≠ [] := others second (by simp)
                have positive : 0 < second.length := List.length_pos_iff.mpr secondNonempty
                have longer (first : List β) :
                    ¬ (first ++ (second :: rest).flatten).length ≤ first.length := by
                  rw [List.flatten_cons, List.length_append, List.length_append]
                  omega
                rw [if_neg (longer _), List.drop_left]
                exact ⟨(second :: rest) :: groups, rfl, rfl⟩
  · rintro ⟨⟨segment, later, rfl, rest, rfl⟩, groups, rfl, split⟩
    rw [recv] at split
    dsimp only at split
    by_cases all : (part ++ rest).length ≤ part.length
    · rw [if_pos all] at split
      have none : rest = [] := by
        rw [List.length_append] at all
        exact List.length_eq_zero_iff.mp (by omega)
      refine ⟨[part] :: groups, rfl, ?_⟩
      rw [List.map_cons, split, none]
      simp
    · rw [if_neg all, List.drop_left] at split
      cases groups with
      | nil => cases split
      | cons group groups =>
          rw [List.map_cons, List.cons.injEq] at split
          refine ⟨(part :: group) :: groups, rfl, ?_⟩
          rw [List.map_cons, List.flatten_cons, split.1, split.2]

/-- As many bytes as the first part has, if they are received at once, are the part. -/
theorem recv_eq_part {part rest : List β} {segments : List (List β)}
    (begins : segments.flatten = part ++ rest)
    (received : (recv part.length segments).1.length = part.length) :
    (recv part.length segments).1 = part ∧ (recv part.length segments).2.flatten = rest := by
  have stream := recv_flatten part.length segments
  rw [begins] at stream
  exact List.append_inj stream received

/-- No part lies across two segments exactly if the first part is received at once, and no
other part lies across two segments of what is left. -/
theorem whole_cons_iff_recv {part rest : List β} {parts segments : List (List β)}
    (nonempty : part ≠ []) (others : ∀ other ∈ parts, other ≠ [])
    (given : ∀ segment ∈ segments, segment ≠ []) (begins : segments.flatten = part ++ rest) :
    Whole (part :: parts) segments ↔ (recv part.length segments).1.length = part.length ∧
      Whole parts (recv part.length segments).2 := by
  rw [whole_cons_iff others given]
  refine and_congr_left fun _ => ?_
  constructor
  · rintro ⟨segment, later, rfl, lies⟩
    rw [recv, ← List.prefix_iff_eq_take.mp lies]
  · intro received
    cases segments with
    | nil => exact absurd (List.length_eq_zero_iff.mp received.symm) nonempty
    | cons segment later =>
        refine ⟨segment, later, rfl, ?_⟩
        rw [recv, List.length_take] at received
        have longer : part.length ≤ segment.length := by omega
        rw [List.flatten_cons] at begins
        exact List.prefix_of_prefix_length_le ⟨rest, begins.symm⟩ (List.prefix_append _ _) longer

end Segments

end Qaoed.Library
