import Qaoed.Api.Wire

/-!
# Receiving requests

`recvAPIrequest` reads a header, and then the argument that it announces, each with one
call of `recv`. A call that returns less than it asked for ends the connection, so
requests get through only if the segments of the stream are cut between these parts.
-/

namespace Qaoed.Api

open Qaoed.Library
open Qaoed.Config

/-- A request as it lies in memory: the header and the argument. -/
abbrev Message := Frame ApiHdr UInt8

theorem recv_shorter {count : Nat} {segments : List (List UInt8)} (positive : 0 < count)
    (received : (recv count segments).1.length = count) :
    (recv count segments).2.flatten.length < segments.flatten.length := by
  have stream := congrArg List.length (recv_flatten count segments)
  rw [List.length_append] at stream
  omega

theorem recv_not_longer (count : Nat) (segments : List (List UInt8)) :
    (recv count segments).2.flatten.length ≤ segments.flatten.length := by
  have stream := congrArg List.length (recv_flatten count segments)
  rw [List.length_append] at stream
  omega

/-- The requests that are handed to `processAPIrequest` until the connection is closed.
`malloc` answers for the arguments one after the other. -/
def recvAPIrequest (order : ByteOrder) (malloc : Nat → Bool) (segments : List (List UInt8)) :
    List Message :=
  if whole : (recv sizeofApihdr segments).1.length = sizeofApihdr then
    let apiHdr := ApiHdr.load order (recv sizeofApihdr segments).1
    let segments := (recv sizeofApihdr segments).2
    if apiHdr.argLen = 0 then ⟨apiHdr, []⟩ :: recvAPIrequest order malloc segments
    else if apiHdr.argLen > 2048 then []
    else if !malloc 0 then []
    else
      let arg := (recv apiHdr.argLen.toNat segments).1
      if arg.length = apiHdr.argLen.toNat then
        ⟨apiHdr, arg⟩ :: recvAPIrequest order (fun count => malloc (count + 1))
          (recv apiHdr.argLen.toNat segments).2
      else []
  else []
termination_by segments.flatten.length
decreasing_by
  · exact recv_shorter (by decide) whole
  · exact Nat.lt_of_le_of_lt (recv_not_longer _ _) (recv_shorter (by decide) whole)

/-! ## What gets through -/

/-- The client writes as many bytes as it announces, and no more than are accepted. -/
structure Sendable (order : ByteOrder) (message : Message) : Prop where
  sound : (apihdr order).Sound message
  short : message.body.length ≤ 2048

/-- The pieces that are each read with one call. -/
def parts (order : ByteOrder) (messages : List Message) : List (List UInt8) :=
  messages.flatMap fun message =>
    message.header.store order :: if message.body = [] then [] else [message.body]

/-- There is memory for every argument. -/
def Granted (malloc : Nat → Bool) (messages : List Message) : Prop :=
  ∀ count < messages.countP fun message => message.body ≠ [], malloc count = true

section Dispatch

variable {order : ByteOrder} {malloc : Nat → Bool} {message : Message} {messages : List Message}
  {segments : List (List UInt8)}

theorem store_length (apiHdr : ApiHdr) : (apiHdr.store order).length = sizeofApihdr :=
  (apihdr order).encode_length apiHdr

theorem store_nonempty (apiHdr : ApiHdr) : apiHdr.store order ≠ [] := by
  intro none
  have length := @store_length order apiHdr
  rw [none] at length
  cases length

theorem load_store (apiHdr : ApiHdr) : ApiHdr.load order (apiHdr.store order) = apiHdr :=
  (apihdr order).decode_encode apiHdr

theorem parts_nonempty (messages : List Message) : ∀ part ∈ parts order messages, part ≠ [] := by
  intro part member
  obtain ⟨message, _, inMessage⟩ := List.mem_flatMap.mp member
  rcases List.mem_cons.mp inMessage with rfl | body
  · exact store_nonempty message.header
  · split_ifs at body with none
    · cases body
    · rw [List.mem_singleton.mp body]
      exact none

theorem parts_cons_short (none : message.body = []) :
    parts order (message :: messages) = message.header.store order :: parts order messages := by
  rw [parts, List.flatMap_cons, if_pos none]
  rfl

theorem parts_cons_long (some : message.body ≠ []) :
    parts order (message :: messages) =
      message.header.store order :: message.body :: parts order messages := by
  rw [parts, List.flatMap_cons, if_neg some]
  rfl

theorem granted_cons_short (none : message.body = []) :
    Granted malloc (message :: messages) ↔ Granted malloc messages := by
  unfold Granted
  rw [List.countP_cons_of_neg (by simp [none])]

theorem granted_cons_long (some : message.body ≠ []) :
    Granted malloc (message :: messages) ↔
      malloc 0 = true ∧ Granted (fun count => malloc (count + 1)) messages := by
  unfold Granted
  rw [List.countP_cons_of_pos (by simpa using some)]
  constructor
  · intro all
    exact ⟨all 0 (Nat.succ_pos _), fun count small => all (count + 1) (Nat.succ_lt_succ small)⟩
  · rintro ⟨first, others⟩ count small
    cases count with
    | zero => exact first
    | succ count => exact others count (Nat.lt_of_succ_lt_succ small)

/-- Nothing is dispatched from a stream that begins with a part of a header. -/
theorem recvAPIrequest_cut (short : (recv sizeofApihdr segments).1.length ≠ sizeofApihdr) :
    recvAPIrequest order malloc segments = [] := by
  rw [recvAPIrequest, dif_neg short]

/-- A header that comes whole, with nothing announced. -/
theorem recvAPIrequest_short {apiHdr : ApiHdr}
    (header : (recv sizeofApihdr segments).1 = apiHdr.store order) (none : apiHdr.argLen = 0) :
    recvAPIrequest order malloc segments =
      ⟨apiHdr, []⟩ :: recvAPIrequest order malloc (recv sizeofApihdr segments).2 := by
  rw [recvAPIrequest, dif_pos (by rw [header, store_length])]
  dsimp only
  rw [header, load_store, if_pos none]

/-- A header that comes whole, with an argument announced. -/
theorem recvAPIrequest_long {apiHdr : ApiHdr} {left : List (List UInt8)}
    (header : (recv sizeofApihdr segments).1 = apiHdr.store order)
    (rest : (recv sizeofApihdr segments).2 = left)
    (some : apiHdr.argLen ≠ 0) (short : ¬ apiHdr.argLen > 2048) :
    recvAPIrequest order malloc segments =
      if malloc 0 = true ∧ (recv apiHdr.argLen.toNat left).1.length = apiHdr.argLen.toNat then
        ⟨apiHdr, (recv apiHdr.argLen.toNat left).1⟩ ::
          recvAPIrequest order (fun count => malloc (count + 1))
            (recv apiHdr.argLen.toNat left).2
      else [] := by
  rw [recvAPIrequest, dif_pos (by rw [header, store_length])]
  dsimp only
  rw [header, load_store, if_neg some, if_neg short, rest]
  cases malloc 0 with
  | false => rfl
  | true =>
      rw [Bool.not_true, if_neg Bool.false_ne_true]
      simp only [true_and]

/-! ## A request at the beginning of a stream -/

variable {rest : List UInt8}

theorem header_received (begins : segments.flatten = message.header.store order ++ rest)
    (cut : (recv sizeofApihdr segments).1.length = sizeofApihdr) :
    (recv sizeofApihdr segments).1 = message.header.store order ∧
      (recv sizeofApihdr segments).2.flatten = rest := by
  have received := recv_eq_part begins (by rw [store_length]; exact cut)
  rw [store_length] at received
  exact received

theorem dispatched_short_iff (sendable : Sendable order message) (none : message.body = [])
    (begins : segments.flatten = message.header.store order ++ rest) :
    recvAPIrequest order malloc segments = message :: messages ↔
      (recv sizeofApihdr segments).1.length = sizeofApihdr ∧
        recvAPIrequest order malloc (recv sizeofApihdr segments).2 = messages := by
  by_cases cut : (recv sizeofApihdr segments).1.length = sizeofApihdr
  · have zero : message.header.argLen = 0 := by
      have announced : message.body.length = message.header.argLen.toNat := sendable.sound
      rw [none] at announced
      exact UInt32.toNat_inj.mp announced.symm
    have same : message = ⟨message.header, []⟩ := by rw [← none]
    rw [recvAPIrequest_short (header_received begins cut).1 zero, same, List.cons.injEq]
    simp only [true_and, cut]
  · rw [recvAPIrequest_cut cut]
    exact iff_of_false (List.cons_ne_nil _ _).symm fun both => cut both.1

theorem dispatched_long_iff (sendable : Sendable order message) (some : message.body ≠ [])
    (begins : segments.flatten = message.header.store order ++ (message.body ++ rest)) :
    recvAPIrequest order malloc segments = message :: messages ↔
      (recv sizeofApihdr segments).1.length = sizeofApihdr ∧ malloc 0 = true ∧
        (recv message.body.length (recv sizeofApihdr segments).2).1.length = message.body.length ∧
        recvAPIrequest order (fun count => malloc (count + 1))
          (recv message.body.length (recv sizeofApihdr segments).2).2 = messages := by
  by_cases cut : (recv sizeofApihdr segments).1.length = sizeofApihdr
  · have announced : message.body.length = message.header.argLen.toNat := sendable.sound
    have notZero : message.header.argLen ≠ 0 := by
      intro zero
      rw [zero] at announced
      exact some (List.length_eq_zero_iff.mp announced)
    have short : ¬ message.header.argLen > 2048 := by
      have bound := sendable.short
      rw [announced] at bound
      rw [gt_iff_lt, UInt32.lt_iff_toNat_lt, Nat.not_lt]
      exact bound
    obtain ⟨header, after⟩ := header_received begins cut
    rw [recvAPIrequest_long header rfl notZero short, ← announced]
    by_cases arrives : malloc 0 = true ∧
        (recv message.body.length (recv sizeofApihdr segments).2).1.length = message.body.length
    · rw [if_pos arrives, (recv_eq_part after arrives.2).1, List.cons.injEq]
      simp only [true_and, cut, arrives]
    · rw [if_neg arrives]
      exact iff_of_false (List.cons_ne_nil _ _).symm fun all => arrives ⟨all.2.1, all.2.2.1⟩
  · rw [recvAPIrequest_cut cut]
    exact iff_of_false (List.cons_ne_nil _ _).symm fun both => cut both.1

theorem recvAPIrequest_eq_iff (sendable : ∀ message ∈ messages, Sendable order message)
    (given : ∀ segment ∈ segments, segment ≠ [])
    (stream : segments.flatten = (apihdr order).write messages) :
    recvAPIrequest order malloc segments = messages ↔
      Whole (parts order messages) segments ∧ Granted malloc messages := by
  induction messages generalizing malloc segments with
  | nil =>
      have none : segments = [] := by
        rw [List.eq_nil_iff_forall_not_mem]
        intro segment member
        exact given segment member (List.flatten_eq_nil_iff.mp stream segment member)
      rw [none]
      exact iff_of_true (recvAPIrequest_cut (by decide))
        ⟨whole_nil, fun count small => absurd small (Nat.not_lt_zero count)⟩
  | cons message messages ih =>
      have first := sendable message List.mem_cons_self
      have others := fun other member => sendable other (List.mem_cons_of_mem message member)
      have begins : segments.flatten =
          message.header.store order ++ (message.body ++ (apihdr order).write messages) := by
        rw [stream, Framing.write, List.flatMap_cons, List.append_assoc]
        rfl
      have whole {others : List (List UInt8)} (nonempty : ∀ other ∈ others, other ≠ []) :=
        whole_cons_iff_recv (store_nonempty message.header) nonempty given begins
      rw [store_length] at whole
      have left := @recv_nonempty _ sizeofApihdr _ given
      by_cases none : message.body = []
      · rw [dispatched_short_iff first none begins, parts_cons_short none, granted_cons_short none,
          whole (parts_nonempty messages), and_assoc]
        refine and_congr_right fun cut => ih others left ?_
        rw [(header_received begins cut).2, none, List.nil_append]
      · have all : ∀ part ∈ message.body :: parts order messages, part ≠ [] :=
          List.forall_mem_cons.mpr ⟨none, parts_nonempty messages⟩
        rw [dispatched_long_iff first none begins, parts_cons_long none, granted_cons_long none,
          whole all, and_assoc]
        refine and_congr_right fun cut => ?_
        have after := (header_received begins cut).2
        rw [whole_cons_iff_recv none (@parts_nonempty order messages) left after]
        have later (arrives : (recv message.body.length (recv sizeofApihdr segments).2).1.length =
            message.body.length) :=
          @ih (fun count => malloc (count + 1)) _ others (recv_nonempty left)
            (recv_eq_part after arrives).2
        constructor
        · rintro ⟨memory, arrives, dispatched⟩
          obtain ⟨lies, granted⟩ := (later arrives).mp dispatched
          exact ⟨⟨arrives, lies⟩, memory, granted⟩
        · rintro ⟨⟨arrives, lies⟩, memory, granted⟩
          exact ⟨memory, arrives, (later arrives).mpr ⟨lies, granted⟩⟩

end Dispatch

/-- Whatever a client sends, and however the stream is cut, exactly its requests are
dispatched if and only if no header and no argument lies across two segments, and there
is memory for the arguments. -/
theorem requests_dispatched_iff (order : ByteOrder) (malloc : Nat → Bool) (messages : List Message)
    (segments : List (List UInt8)) (sendable : ∀ message ∈ messages, Sendable order message)
    (given : ∀ segment ∈ segments, segment ≠ [])
    (stream : segments.flatten = (apihdr order).write messages) :
    recvAPIrequest order malloc segments = messages ↔
      Whole (parts order messages) segments ∧ Granted malloc messages :=
  recvAPIrequest_eq_iff sendable given stream

/-- A request for the status of the daemon. -/
def statusMessage : Message := ⟨⟨0, REQUEST, 0, 0, 0⟩, []⟩

theorem statusMessage_sendable : ∀ message ∈ [statusMessage], Sendable .little message := by
  intro message member
  rw [List.mem_singleton.mp member]
  exact ⟨rfl, Nat.zero_le _⟩

/-- A request to add the interface eth0, with the default MTU. -/
def addMessage : Message := ⟨⟨3, REQUEST, 0, 0, 24⟩, text "eth0" ++ List.replicate 20 0⟩

/-- The first segment ends behind a header, and the other one has an argument and a header. -/
theorem requests_dispatched_iff_twoRequests :
    recvAPIrequest .little (fun _ => true)
      [[3, 0, 0, 0, 24, 0, 0, 0], text "eth0" ++ List.replicate 20 0 ++ [0, 0, 0, 0, 0, 0, 0, 0]] =
        [addMessage, statusMessage] := by
  have sendable : ∀ message ∈ [addMessage, statusMessage], Sendable .little message := by
    intro message member
    rcases List.mem_cons.mp member with rfl | status
    · exact ⟨rfl, by decide⟩
    · exact statusMessage_sendable message status
  refine (requests_dispatched_iff .little (fun _ => true) [addMessage, statusMessage] _ sendable
    (by decide) (by decide)).mpr ⟨?_, fun _ _ => rfl⟩
  exact ⟨[[[3, 0, 0, 0, 24, 0, 0, 0]],
    [text "eth0" ++ List.replicate 20 0, [0, 0, 0, 0, 0, 0, 0, 0]]], by decide, rfl⟩

/-- A header that comes in two halves is taken for the end of the connection. -/
theorem splitHeader_dropped :
    (∀ message ∈ [statusMessage], Sendable .little message) ∧
    (∀ segment ∈ ([[0, 0, 0, 0], [0, 0, 0, 0]] : List (List UInt8)), segment ≠ []) ∧
    ([[0, 0, 0, 0], [0, 0, 0, 0]] : List (List UInt8)).flatten =
      (apihdr .little).write [statusMessage] ∧
    recvAPIrequest .little (fun _ => true) [[0, 0, 0, 0], [0, 0, 0, 0]] ≠ [statusMessage] := by
  refine ⟨statusMessage_sendable, by decide, by decide, ?_⟩
  rw [recvAPIrequest_cut (by decide)]
  exact (List.cons_ne_nil _ _).symm

end Qaoed.Api
