import Qaoed.Device.Server

/-!
# Access lists over whole runs

The handlers decide in one switch whether a command is refused and in another
one what it does. Over any run of requests the two agree: what a list guards
changes, and is told, only with the consent of that list.
-/

namespace Qaoed.Device

open Qaoed.Library
open Qaoed.Frame

variable {Iface : Type}

/-- The frames among those sent that go to one address. -/
def repliesTo (source : SixBytes) (sent : List Sent) : List Sent :=
  sent.filter fun reply => reply.aoehdr.hDest = source

/-- The same frame meets the same answers of the system; only what fresh memory
happens to hold may differ. -/
structure SameAnswers (first second : Request) : Prop where
  work : first.work = second.work
  seekOk : first.env.seekOk = second.env.seekOk
  cap : first.env.cap = second.env.cap
  tail : first.env.tail = second.env.tail

/-! ## Steps -/

section Step

variable {order : ByteOrder} {env env' : Env} {dev : Aoedev Aclhdr Iface}
  {store store' : List UInt8} {work : Workentry}

/-- A step changes the store only for an admitted write. -/
theorem qaoedProcesswork_store
    (changed : (qaoedProcesswork order env dev store work).store ≠ store) :
    (work.hdr order).cmd = aoeCmdAta ∧ isAtaWrite (work.ata order).cmdstat = true ∧
      Permits dev.wacl (work.hdr order).hSource := by
  rcases qaoedProcesswork_cases order env dev store work with
    ⟨cmd, _, exit⟩ | ⟨_, _, exit⟩ | ⟨_, exit⟩
  all_goals rw [exit] at changed
  · exact ⟨cmd, qaoedProcessATA_store changed⟩
  · exact absurd (qaoedProcessCFG_store order env dev store work) changed
  · exact absurd rfl changed

/-- A step changes the configuration string only for an admitted set command. -/
theorem qaoedProcesswork_cfg
    (changed : (qaoedProcesswork order env dev store work).dev ≠ dev) :
    (work.hdr order).cmd = aoeCmdCfg ∧ isCfgSet (work.cfg order).command = true ∧
      Permits dev.cfgsetacl (work.hdr order).hSource := by
  rcases qaoedProcesswork_cases order env dev store work with
    ⟨_, _, exit⟩ | ⟨cmd, _, exit⟩ | ⟨_, exit⟩
  all_goals rw [exit] at changed
  · exact absurd (qaoedProcessATA_dev order env dev store work) changed
  · rcases qaoedProcessCFG_dev order env dev store work with same | ⟨_, set, permits⟩
    · exact absurd same changed
    · exact ⟨cmd, set, permits⟩
  · exact absurd rfl changed

/-- Configuration requests neither read the store nor fresh memory. -/
theorem qaoedProcessCFG_congr (tail : env.tail = env'.tail) :
    qaoedProcessCFG order env dev store work =
      { qaoedProcessCFG order env' dev store' work with store := store } := by
  have withString : cfgWithString order env dev store work =
      { cfgWithString order env' dev store' work with store := store } := by
    unfold cfgWithString
    rw [tail]
  -- The store is the same in every branch, so it is set in each of them.
  have inBranches (condition : Prop) [Decidable condition] (first second : Outcome Iface) :
      { (if condition then first else second) with store := store } =
        if condition then { first with store := store } else { second with store := store } := by
    split
    · rfl
    · rfl
  unfold qaoedProcessCFG
  rw [tail, withString]
  simp only [inBranches]
  rfl

/-- The answer to a write depends on what the system moved, not on the store. -/
theorem qaoedTransfer_write_congr {work' : Workentry} {request reply : AoeAtahdr} {replyLen : Nat}
    (write : isAtaWrite request.cmdstat = true) (ifentry : work.ifentry = work'.ifentry)
    (seek : env.seekOk = env'.seekOk) (cap : env.cap = env'.cap) :
    (qaoedTransfer env store work request reply replyLen).2 =
      (qaoedTransfer env' store' work' request reply replyLen).2 := by
  have moved : env.moved (transferLen request) = env'.moved (transferLen request) := by
    unfold Env.moved
    rw [cap]
  by_cases done : env.seekOk = true ∧ 0 < env.moved (transferLen request)
  · rw [qaoedTransfer_write_done write done.1 done.2,
      qaoedTransfer_write_done write (seek ▸ done.1) (moved ▸ done.2)]
    dsimp only
    rw [qaoedXmit_congr ifentry]
  · have fails : env.seekOk = false ∨ env.moved (transferLen request) = 0 := by
      rcases not_and_or.mp done with stuck | nothing
      · exact Or.inl (Bool.eq_false_iff.mpr stuck)
      · exact Or.inr (Nat.eq_zero_of_not_pos nothing)
    rw [qaoedTransfer_write_failed write fails]
    rw [seek, moved] at fails
    rw [qaoedTransfer_write_failed write fails]
    dsimp only
    rw [qaoedXmit_congr ifentry]

/-- A source the read list refuses learns nothing of the store from an answer. -/
theorem qaoedProcessATA_congr (refuses : aclRefuses dev.racl (work.hdr order).hSource = true)
    (seek : env.seekOk = env'.seekOk) (cap : env.cap = env'.cap) :
    (qaoedProcessATA order env dev store work).sent =
      (qaoedProcessATA order env' dev store' work).sent := by
  cases refused : ataRefused dev (work.ata order) with
  | true =>
      rw [qaoedProcessATA_refused refused, qaoedProcessATA_refused refused]
      rfl
  | false =>
      cases write : isAtaWrite (work.ata order).cmdstat with
      | true =>
          rw [qaoedProcessATA_transfer refused (Or.inr write),
            qaoedProcessATA_transfer refused (Or.inr write)]
          exact congrArg (fun sent => [sent]) (qaoedTransfer_write_congr write rfl seek cap)
      | false =>
          -- An admitted command is no read and no identify, since those ask the read list.
          have admitted (asks : (isAtaRead (work.ata order).cmdstat ||
              (work.ata order).cmdstat == winIdentify) = true) : False := by
            rw [ataRefused, if_pos asks, Workentry.ata_aoehdr, refuses] at refused
            cases refused
          have read : isAtaRead (work.ata order).cmdstat = false := by
            rw [Bool.eq_false_iff]
            intro read
            exact admitted (by rw [read, Bool.true_or])
          have identify : (work.ata order).cmdstat ≠ winIdentify := by
            intro identify
            exact admitted (by rw [identify, beq_self_eq_true, Bool.or_true])
          rw [qaoedProcessATA_unknown read write identify,
            qaoedProcessATA_unknown read write identify]
          rfl

theorem qaoedProcesswork_dev_congr (tail : env.tail = env'.tail) :
    (qaoedProcesswork order env dev store work).dev =
      (qaoedProcesswork order env' dev store' work).dev := by
  unfold qaoedProcesswork
  dsimp only
  split_ifs
  · rw [qaoedProcessATA_dev, qaoedProcessATA_dev]
  · rfl
  · rw [qaoedProcessCFG_congr tail]
  · rfl
  · rfl

theorem qaoedProcesswork_sent_congr (refuses : aclRefuses dev.racl (work.hdr order).hSource = true)
    (seek : env.seekOk = env'.seekOk) (cap : env.cap = env'.cap) (tail : env.tail = env'.tail) :
    (qaoedProcesswork order env dev store work).sent =
      (qaoedProcesswork order env' dev store' work).sent := by
  unfold qaoedProcesswork
  dsimp only
  split_ifs
  · exact qaoedProcessATA_congr refuses seek cap
  · rfl
  · rw [qaoedProcessCFG_congr tail]
  · rfl
  · rfl

/-- Nobody but the source of a request gets an answer to it. -/
theorem repliesTo_other {source : SixBytes} (other : (work.hdr order).hSource ≠ source) :
    repliesTo source (qaoedProcesswork order env dev store work).sent = [] := by
  rw [repliesTo, List.filter_eq_nil_iff]
  intro reply member
  rw [decide_eq_true_iff, (isReply_processwork member).hDest]
  exact other

/-- A source the configuration read list refuses is never sent the string. -/
theorem qaoedProcesswork_cfgReply
    (refuses : aclRefuses dev.cfgracl (work.hdr order).hSource = true)
    {hdr : AoeCfghdr} {data : List UInt8}
    (member : Sent.cfg hdr data ∈ (qaoedProcesswork order env dev store work).sent) :
    hdr.cfgLen = 0 ∧ data = [] := by
  rcases qaoedProcesswork_cases order env dev store work with
    ⟨_, _, exit⟩ | ⟨_, _, exit⟩ | ⟨_, exit⟩
  all_goals rw [exit] at member
  · obtain ⟨_, _, _, frame⟩ := xmit_of_processATA member
    cases frame
  · rcases qaoedProcessCFG_cases order env dev store work with
      exit | ⟨read, admitted, exit⟩ | ⟨_, _, _, _, exit⟩ | ⟨_, _, _, exit⟩
    all_goals rw [exit] at member
    · cases member
    · rw [cfgRefused_read dev read, Workentry.cfg_aoehdr, refuses] at admitted
      cases admitted
    · cases List.mem_singleton.mp member
      exact ⟨rfl, List.take_nil⟩
    · cases List.mem_singleton.mp member
      exact ⟨rfl, List.take_nil⟩
  · cases member

end Step

/-! ## Runs -/

/-- For a source its read list refuses, a run answers alike whatever the store holds. -/
theorem repliesTo_eq (order : ByteOrder) {dev : Aoedev Aclhdr Iface} {racl : Aclhdr}
    {source : SixBytes} (attached : dev.racl = some racl)
    (rejected : aclmatch racl source ≠ aclAccept) (store other : List UInt8)
    {requests requests' : List Request} (same : List.Forall₂ SameAnswers requests requests') :
    ((served (qaoedProcesswork order)).outputs ⟨dev, store⟩ requests).map (repliesTo source) =
      ((served (qaoedProcesswork order)).outputs ⟨dev, other⟩ requests').map
        (repliesTo source) := by
  refine (served (qaoedProcesswork order)).observations_eq
    (fun first second => first.dev = second.dev ∧ first.dev.racl = some racl)
    (repliesTo source) same ?_ ?_ ?_
  · exact ⟨rfl, attached⟩
  · rintro ⟨dev, store⟩ ⟨_, store'⟩ ⟨work, env⟩ ⟨_, env'⟩ ⟨rfl, list⟩ ⟨rfl, _, _, tail⟩
    refine ⟨qaoedProcesswork_dev_congr tail, ?_⟩
    exact (qaoedProcesswork_sameSetup order env dev store work).racl.trans list
  · rintro ⟨dev, store⟩ ⟨_, store'⟩ ⟨work, env⟩ ⟨_, env'⟩ ⟨rfl, list⟩ ⟨rfl, seek, cap, tail⟩
    by_cases own : (work.hdr order).hSource = source
    · have refuses : aclRefuses dev.racl (work.hdr order).hSource = true := by
        rw [own]
        exact aclRefuses_of_attached list rejected
      exact congrArg (repliesTo source) (qaoedProcesswork_sent_congr refuses seek cap tail)
    · exact (repliesTo_other own).trans (repliesTo_other own).symm

/-- Access lists hold over whole runs: the store changes only for an admitted
write, the configuration string only for an admitted set command, a source the
read list refuses learns nothing of the store, and one the configuration read
list refuses is never sent the string. -/
theorem accessLists_enforced (order : ByteOrder) (dev : Aoedev Aclhdr Iface) (store : List UInt8)
    (requests : List Request) :
    (∀ visit ∈ (served (qaoedProcesswork order)).visits ⟨dev, store⟩ requests,
      ((handle (qaoedProcesswork order) visit.state visit.input).store ≠ visit.state.store →
        (visit.input.work.hdr order).cmd = aoeCmdAta ∧
        ((visit.input.work.ata order).cmdstat = winWrite ∨
          (visit.input.work.ata order).cmdstat = winWriteExt) ∧
        Permits dev.wacl (visit.input.work.hdr order).hSource) ∧
      ((handle (qaoedProcesswork order) visit.state visit.input).dev.cfg ≠ visit.state.dev.cfg ∨
          (handle (qaoedProcesswork order) visit.state visit.input).dev.cfgLen ≠
            visit.state.dev.cfgLen →
        (visit.input.work.hdr order).cmd = aoeCmdCfg ∧
        ((visit.input.work.cfg order).command = aoeCfgSetIfEmpty ∨
          (visit.input.work.cfg order).command = aoeCfgSet) ∧
        Permits dev.cfgsetacl (visit.input.work.hdr order).hSource)) ∧
    (∀ racl source, dev.racl = some racl → aclmatch racl source ≠ aclAccept →
      ∀ other requests', List.Forall₂ SameAnswers requests requests' →
        ((served (qaoedProcesswork order)).outputs ⟨dev, store⟩ requests).map (repliesTo source) =
          ((served (qaoedProcesswork order)).outputs ⟨dev, other⟩ requests').map
            (repliesTo source)) ∧
    (∀ cfgracl source, dev.cfgracl = some cfgracl → aclmatch cfgracl source ≠ aclAccept →
      ∀ sent ∈ (served (qaoedProcesswork order)).outputs ⟨dev, store⟩ requests,
        ∀ hdr data, Sent.cfg hdr data ∈ repliesTo source sent → hdr.cfgLen = 0 ∧ data = []) := by
  refine ⟨?_, ?_, ?_⟩
  · intro visit member
    have setup := served_sameSetup order _ requests member
    constructor
    · intro changed
      obtain ⟨cmd, write, permits⟩ := qaoedProcesswork_store changed
      rw [setup.wacl] at permits
      exact ⟨cmd, (isAtaWrite_iff _).mp write, permits⟩
    · intro changed
      have moved : (handle (qaoedProcesswork order) visit.state visit.input).dev ≠
          visit.state.dev := by
        intro same
        rw [same] at changed
        exact changed.elim (fun cfg => cfg rfl) (fun cfgLen => cfgLen rfl)
      obtain ⟨cmd, set, permits⟩ := qaoedProcesswork_cfg moved
      rw [setup.cfgsetacl] at permits
      rw [isCfgSet, Bool.or_eq_true, beq_iff_eq, beq_iff_eq] at set
      exact ⟨cmd, set, permits⟩
  · intro racl source attached rejected other requests' same
    exact repliesTo_eq order attached rejected store other same
  · intro cfgracl source attached rejected sent member hdr data reply
    obtain ⟨visit, visited, rfl⟩ := List.mem_map.mp member
    have setup := served_sameSetup order _ requests visited
    obtain ⟨inSent, toSource⟩ := List.mem_filter.mp reply
    have own : (visit.input.work.hdr order).hSource = source := by
      rw [← (isReply_processwork inSent).hDest]
      exact of_decide_eq_true toSource
    have refuses : aclRefuses visit.state.dev.cfgracl (visit.input.work.hdr order).hSource = true := by
      rw [own]
      exact aclRefuses_of_attached (setup.cfgracl.trans attached) rejected
    exact qaoedProcesswork_cfgReply refuses inSent

end Qaoed.Device
