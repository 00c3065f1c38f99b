import Qaoed.Network.Holders

/-!
# The invariant of the holders

Both counters are the numbers of holders, each call has recorded what it added to
the counter of its packet, and who holds a work entry reaches its packet through
`rawbuf`.
-/

namespace Qaoed.Network

open Qaoed.Library
open Qaoed.Device

/-! ## The ledger -/

/-- Each call has added the references it accounts for, less the one it was given. -/
structure Settled (ledger : List Int) (refs : Nat → Nat) : Prop where
  net : ∀ call (amount : Int), ledger[call]? = some amount → amount = refs call - 1
  bounded : ∀ call, 0 < refs call → call < ledger.length

namespace Settled

variable {ledger : List Int} {refs refs' : Nat → Nat}

theorem congr (settled : Settled ledger refs) (same : ∀ call, refs' call = refs call) :
    Settled ledger refs' := by
  rw [funext same]
  exact settled

/-- A new call accounts for the reference it is given. -/
theorem enter (settled : Settled ledger refs)
    (more : ∀ call, refs' call = refs call + if call = ledger.length then 1 else 0) :
    Settled (ledger ++ [0]) refs' := by
  have fresh : refs ledger.length = 0 := by
    by_contra held
    exact Nat.lt_irrefl _ (settled.bounded _ (Nat.pos_of_ne_zero held))
  constructor
  · intro call amount found
    rcases getElem?_concat found with ⟨inside, found⟩ | ⟨rfl, rfl⟩
    · rw [more, if_neg (Nat.ne_of_lt inside), Nat.add_zero]
      exact settled.net call amount found
    · rw [more, fresh, if_pos rfl]
      rfl
  · intro call held
    rw [List.length_append, List.length_singleton]
    rw [more] at held
    split at held
    · omega
    · have inside := settled.bounded call held
      omega

/-- A call records what it adds to the counter. -/
theorem record (settled : Settled ledger refs) {call : Nat} {amount : Int} (held : 0 < refs call)
    (change : ∀ call', (refs' call' : Int) = refs call' + if call' = call then amount else 0) :
    Settled (ledger.modify call (· + amount)) refs' := by
  constructor
  · intro call' amount' found
    rw [List.getElem?_modify] at found
    obtain ⟨before, there, now⟩ := Option.map_eq_some_iff.mp found
    have net := settled.net call' before there
    rw [change]
    split at now
    · next same =>
        rw [if_pos same.symm]
        omega
    · next other =>
        rw [if_neg (Ne.symm other)]
        omega
  · intro call' held'
    rw [List.length_modify]
    by_cases same : call' = call
    · rw [same]
      exact settled.bounded call held
    · have unchanged := change call'
      rw [if_neg same] at unchanged
      exact settled.bounded call' (by omega)

theorem raise (settled : Settled ledger refs) {call : Nat} (held : 0 < refs call)
    (more : ∀ call', refs' call' = refs call' + if call' = call then 1 else 0) :
    Settled (ledger.modify call (· + 1)) refs' := by
  apply settled.record held
  intro call'
  rw [more]
  split <;> rfl

theorem lower (settled : Settled ledger refs) {call : Nat} (held : 0 < refs call)
    (fewer : ∀ call', refs' call' + (if call' = call then 1 else 0) = refs call') :
    Settled (ledger.modify call (· - 1)) refs' := by
  apply settled.record held
  intro call'
  rw [← fewer call']
  split <;> omega

end Settled

/-! ## The way from a work entry to its packet -/

/-- The work entry of a holder has the packet of the holder, and a holder that runs
`qaoed_pktdestroy` runs it on this packet. -/
def Task.Sound (entries : List Work) : Task → Prop
  | .holding hold stage =>
      (∃ entry, entries[hold.work]? = some entry ∧ entry.buffer = hold.packet) ∧
        ∀ packet, stage = .pktdestroy packet → packet = hold.packet
  | .listener _ | .entered _ _ _ | .dropping _ _ | .done => True

/-- The packet of an entry is within reach of everyone who is still to destroy it. -/
structure Linked (entries : List Work) (packets : Nat) (tasks : List Task) : Prop where
  sound : ∀ task ∈ tasks, task.Sound entries
  /-- As long as anyone holds the packet, `rawbuf` leads to it. -/
  rawbuf : ∀ entry ∈ entries, entry.buffer < packets ∧
    (entry.rawbuf = some entry.buffer ∨ total (Task.packetRefs entry.buffer) tasks = 0)
  /-- Who clears `rawbuf` was the last holder of the packet. -/
  cleared : ∀ hold, .holding hold .clearRawbuf ∈ tasks →
    total (Task.packetRefs hold.packet) tasks = 0

namespace Linked

variable {entries : List Work} {packets : Nat} {tasks : List Task}

/-- One task goes on, and further ones join that hold no other packets. -/
theorem advance (linked : Linked entries packets tasks) {index : Nat} {old : Task}
    (found : tasks[index]? = some old) (new : Task) (joined : List Task)
    (sound : ∀ task ∈ new :: joined, task.Sound entries)
    (sameHolds : ∀ packet, old.packetRefs packet = 0 →
      total (Task.packetRefs packet) (new :: joined) = 0)
    (clears : ∀ hold, .holding hold .clearRawbuf ∈ new :: joined →
      total (Task.packetRefs hold.packet) (tasks.set index new ++ joined) = 0) :
    Linked entries packets (tasks.set index new ++ joined) := by
  have split : ∀ task ∈ tasks.set index new ++ joined, task ∈ tasks ∨ task ∈ new :: joined := by
    intro task member
    rcases List.mem_append.mp member with inSet | inJoined
    · rcases List.mem_or_eq_of_mem_set inSet with old | rfl
      · exact Or.inl old
      · exact Or.inr List.mem_cons_self
    · exact Or.inr (List.mem_cons_of_mem new inJoined)
  have stays (packet : Nat) (none : total (Task.packetRefs packet) tasks = 0) :
      total (Task.packetRefs packet) (tasks.set index new ++ joined) = 0 := by
    have moved := total_set (Task.packetRefs packet) found new
    have old := weight_le_total (Task.packetRefs packet) (List.mem_of_getElem? found)
    have nothing := sameHolds packet (by omega)
    rw [total_cons] at nothing
    rw [total_append]
    omega
  constructor
  · intro task member
    rcases split task member with before | here
    · exact linked.sound task before
    · exact sound task here
  · intro entry member
    obtain ⟨inside, leads | none⟩ := linked.rawbuf entry member
    · exact ⟨inside, Or.inl leads⟩
    · exact ⟨inside, Or.inr (stays _ none)⟩
  · intro hold member
    rcases split _ member with before | here
    · exact stays _ (linked.cleared hold before)
    · exact clears hold here

/-- One task goes on alone. -/
theorem replace (linked : Linked entries packets tasks) {index : Nat} {old new : Task}
    (found : tasks[index]? = some old) (sound : new.Sound entries)
    (sameHolds : ∀ packet, old.packetRefs packet = 0 → new.packetRefs packet = 0)
    (clears : ∀ hold, new = .holding hold .clearRawbuf →
      total (Task.packetRefs hold.packet) (tasks.set index new) = 0) :
    Linked entries packets (tasks.set index new) := by
  have advanced := linked.advance found new []
  rw [List.append_nil] at advanced
  apply advanced
  · simpa using sound
  · intro packet none
    rw [total_cons, sameHolds packet none]
    rfl
  · intro hold member
    exact clears hold (List.mem_singleton.mp member).symm

theorem finish (linked : Linked entries packets tasks) {index : Nat} {old : Task}
    (found : tasks[index]? = some old) : Linked entries packets (tasks.set index .done) :=
  linked.replace found trivial (fun _ _ => rfl) (by simp)

/-- A thread with a work entry goes on to the next stage. -/
theorem next (linked : Linked entries packets tasks) {index : Nat} {hold : Hold}
    {stage : Stage} (found : tasks[index]? = some (.holding hold stage)) (stage' : Stage)
    (own : ∀ packet, stage' = .pktdestroy packet → packet = hold.packet)
    (holds : stage.packetRefs = 0 → stage'.packetRefs = 0)
    (clears : stage' = .clearRawbuf →
      total (Task.packetRefs hold.packet) (tasks.set index (.holding hold stage')) = 0) :
    Linked entries packets (tasks.set index (.holding hold stage')) := by
  have entry := (linked.sound _ (List.mem_of_getElem? found)).1
  have sound : (Task.holding hold stage').Sound entries := ⟨entry, own⟩
  apply linked.replace found sound
  · intro packet none
    simp only [Task.packetRefs] at none ⊢
    split at none <;> simp_all
  · intro other same
    cases same
    exact clears rfl

/-- A task joins that holds a packet which another task holds. -/
theorem join (linked : Linked entries packets tasks) {index : Nat} {old task : Task}
    (found : tasks[index]? = some old) (sound : task.Sound entries)
    (sameHolds : ∀ packet, old.packetRefs packet = 0 → task.packetRefs packet = 0)
    (noClear : ∀ hold, task ≠ .holding hold .clearRawbuf) :
    Linked entries packets (tasks ++ [task]) := by
  obtain ⟨inside, here⟩ := List.getElem?_eq_some_iff.mp found
  have same : tasks.set index old = tasks := by
    rw [← here]
    exact List.set_getElem_self inside
  have advanced := linked.advance found old [task]
  rw [same] at advanced
  apply advanced
  · simpa [sound] using linked.sound old (List.mem_of_getElem? found)
  · intro packet none
    simp [none, sameHolds packet none]
  · intro hold member
    rcases List.mem_cons.mp member with rfl | new
    · have none := linked.cleared hold (List.mem_of_getElem? found)
      have old := weight_le_total (Task.packetRefs hold.packet) (List.mem_of_getElem? found)
      rw [total_append, none, total_cons, sameHolds hold.packet (by omega)]
      rfl
    · exact absurd (List.mem_singleton.mp new).symm (noClear hold)

/-- A new packet with its listeners. -/
theorem receive (linked : Linked entries packets tasks) (count : Nat) :
    Linked entries (packets + 1) (tasks ++ List.replicate count (.listener packets)) := by
  have same {packet : Nat} (inside : packet < packets) :
      total (Task.packetRefs packet) (tasks ++ List.replicate count (.listener packets)) =
        total (Task.packetRefs packet) tasks := by
    rw [total_append, total_replicate, Task.packetRefs, if_neg (Nat.ne_of_lt inside),
      Nat.mul_zero, Nat.add_zero]
  constructor
  · intro task member
    rcases List.mem_append.mp member with before | listens
    · exact linked.sound task before
    · rw [List.eq_of_mem_replicate listens]
      trivial
  · intro entry member
    obtain ⟨inside, leads⟩ := linked.rawbuf entry member
    rw [same inside]
    exact ⟨Nat.lt_succ_of_lt inside, leads⟩
  · intro hold member
    rcases List.mem_append.mp member with before | listens
    · obtain ⟨⟨entry, found, packet⟩, _⟩ := linked.sound _ before
      have inside := (linked.rawbuf entry (List.mem_of_getElem? found)).1
      rw [packet] at inside
      rw [same inside]
      exact linked.cleared hold before
    · cases List.eq_of_mem_replicate listens

/-- A new entry for a packet that is there. -/
theorem alloc (linked : Linked entries packets tasks) {packet : Nat} (inside : packet < packets)
    (frame : Workentry) : Linked (entries ++ [⟨frame, packet, some packet⟩]) packets tasks := by
  constructor
  · intro task member
    have before := linked.sound task member
    cases task with
    | holding hold stage =>
        obtain ⟨⟨entry, found, same⟩, own⟩ := before
        refine ⟨⟨entry, ?_, same⟩, own⟩
        rw [List.getElem?_append_left (List.getElem?_eq_some_iff.mp found).1]
        exact found
    | listener | entered | dropping | done => trivial
  · intro entry member
    rcases List.mem_append.mp member with before | new
    · exact linked.rawbuf entry before
    · rw [List.mem_singleton.mp new]
      exact ⟨inside, Or.inl rfl⟩
  · exact linked.cleared

/-- The last holder of a packet clears `rawbuf`. -/
theorem clear (linked : Linked entries packets tasks) {work : Nat} {entry : Work}
    (found : entries[work]? = some entry)
    (last : total (Task.packetRefs entry.buffer) tasks = 0) :
    Linked (entries.set work { entry with rawbuf := none }) packets tasks := by
  have inside := (List.getElem?_eq_some_iff.mp found).1
  constructor
  · intro task member
    have before := linked.sound task member
    cases task with
    | holding hold stage =>
        obtain ⟨⟨entry', found', same⟩, own⟩ := before
        refine ⟨?_, own⟩
        by_cases here : hold.work = work
        · rw [here, found, Option.some.injEq] at found'
          rw [← found'] at same
          rw [here, List.getElem?_set_self inside]
          exact ⟨_, rfl, same⟩
        · rw [List.getElem?_set_ne (Ne.symm here)]
          exact ⟨entry', found', same⟩
    | listener | entered | dropping | done => trivial
  · intro entry' member
    rcases List.mem_or_eq_of_mem_set member with before | rfl
    · exact linked.rawbuf entry' before
    · exact ⟨(linked.rawbuf entry (List.mem_of_getElem? found)).1, Or.inr last⟩
  · exact linked.cleared

end Linked

/-! ## Consistent states -/

/-- What the work entries hold, counters left out. -/
def State.entries (state : State) : List Work := state.works.map Counted.value

/-- What every reachable state satisfies. -/
structure Consistent (state : State) : Prop where
  packets : Exact state.packets state.packetHolders
  works : Exact state.works state.workHolders
  settled : Settled state.ledger state.callHolders
  linked : Linked state.entries state.packets.length state.tasks

theorem consistent_initial : Consistent State.initial where
  packets := Exact.empty
  works := Exact.empty
  settled := by
    constructor
    · intro call amount found
      cases found
    · intro call held
      exact absurd held (Nat.lt_irrefl 0)
  linked := by
    constructor
    all_goals
      intro _ member
      cases member

theorem entries_of_access {state : State} {address : Nat} {work : Counted Work}
    (accessed : access state.works address = some work) :
    state.entries[address]? = some work.value := by
  rw [State.entries, List.getElem?_map, getElem?_of_access accessed]
  rfl

namespace Consistent

variable {state : State} {index : Nat} {hold : Hold} {stage : Stage}

theorem workHolders_pos (found : state.tasks[index]? = some (.holding hold stage)) :
    0 < state.workHolders hold.work := by
  have most : Task.workRefs hold.work (.holding hold stage) ≤ state.workHolders hold.work :=
    weight_le_total _ (List.mem_of_getElem? found)
  rw [Task.workRefs, if_pos rfl] at most
  have held : 0 < stage.workRefs := by
    cases stage <;> simp [Stage.workRefs]
  exact Nat.lt_of_lt_of_le held most

theorem callHolders_pos {task : Task} {call : Nat} (found : state.tasks[index]? = some task)
    (held : 0 < task.callRefs call) : 0 < state.callHolders call :=
  Nat.lt_of_lt_of_le held (weight_le_total _ (List.mem_of_getElem? found))

/-- A thread with a work entry reaches the entry. -/
theorem work_of_holding (consistent : Consistent state)
    (found : state.tasks[index]? = some (.holding hold stage)) :
    ∃ work, access state.works hold.work = some work ∧ work.value.buffer = hold.packet := by
  obtain ⟨work, accessed⟩ := consistent.works.access (workHolders_pos found)
  obtain ⟨⟨entry, there, packet⟩, _⟩ := consistent.linked.sound _ (List.mem_of_getElem? found)
  rw [entries_of_access accessed, Option.some.injEq] at there
  exact ⟨work, accessed, by rw [there, packet]⟩

/-- A task that holds a packet reaches it. -/
theorem packet_of_task (consistent : Consistent state) {task : Task} (packet : Nat)
    (found : state.tasks[index]? = some task) (held : 0 < task.packetRefs packet) :
    0 < state.packetHolders packet ∧ ∃ object, access state.packets packet = some object := by
  have most : task.packetRefs packet ≤ state.packetHolders packet :=
    weight_le_total _ (List.mem_of_getElem? found)
  have some := Nat.lt_of_lt_of_le held most
  exact ⟨some, consistent.packets.access some⟩

/-- The work entry of a thread that holds the packet still leads to the packet. -/
theorem rawbuf_of_holding (consistent : Consistent state) {work : Counted Work}
    (accessed : access state.works hold.work = some work)
    (buffer : work.value.buffer = hold.packet) (held : 0 < state.packetHolders hold.packet) :
    work.value.rawbuf = some hold.packet := by
  have member := List.mem_of_getElem? (entries_of_access accessed)
  obtain ⟨_, leads | none⟩ := consistent.linked.rawbuf _ member
  · rw [leads, buffer]
  · rw [buffer] at none
    exact absurd none (Nat.ne_of_gt held)

/-- A stage that holds the same references changes no counter. -/
theorem next (consistent : Consistent state)
    (found : state.tasks[index]? = some (.holding hold stage)) (stage' : Stage)
    (packets : stage'.packetRefs = stage.packetRefs) (works : stage'.workRefs = stage.workRefs)
    (own : ∀ packet, stage' = .pktdestroy packet → packet = hold.packet)
    (clears : stage' ≠ .clearRawbuf) :
    Consistent { state with tasks := state.tasks.set index (.holding hold stage') } where
  packets := consistent.packets.congr fun packet =>
    total_set_same found (by simp only [Task.packetRefs, packets])
  works := consistent.works.congr fun work =>
    total_set_same found (by simp only [Task.workRefs, works])
  settled := consistent.settled.congr fun call =>
    total_set_same found (by simp only [Task.callRefs, packets])
  linked := consistent.linked.next found stage' own (fun none => by rw [packets, none])
    fun clearing => absurd clearing clears

end Consistent

end Qaoed.Network
