import Mathlib.Data.List.Induction
import Qaoed.Device.Server

/-!
# The configuration string behind the CFG commands

A device is for its clients the holder of one string of at most 1024 bytes. The
buffer with its length implements that string: the bytes behind the length are
left over from longer strings and no reply shows them.
-/

namespace Qaoed.Device

open Qaoed.Library
open Qaoed.Library.ByteOrder
open Qaoed.Frame

variable {Iface : Type}

/-! ## The abstract string -/

/-- The string that arrived with a request. -/
def requestString (order : ByteOrder) (work : Workentry) : List UInt8 :=
  slice work.received sizeofAoeCfghdr ((work.cfg order).stringLength order)

/-- The string after a request. -/
def configStep (order : ByteOrder) (cfgsetacl : Option Aclhdr) (stored : List UInt8)
    (request : Request) : List UInt8 :=
  let cfg := request.work.cfg order
  let string := requestString order request.work
  if aclRefuses cfgsetacl cfg.aoehdr.hSource then stored
  else if cfg.command = aoeCfgSet ∧ string.length ≤ 1024 then string
  else if cfg.command = aoeCfgSetIfEmpty ∧ stored = [] ∧ string.length ≤ 1024 then string
  else stored

/-- The string a device holds. -/
def storedString (dev : Aoedev Aclhdr Iface) : List UInt8 :=
  dev.cfg.bytes.take dev.cfgLen.toNat

/-- The length stays inside the buffer. -/
def CfgLenValid (dev : Aoedev Aclhdr Iface) : Prop := 0 ≤ dev.cfgLen ∧ dev.cfgLen ≤ 1024

/-- The frame carries the string it announces. -/
def CarriesString (order : ByteOrder) (request : Request) : Prop :=
  (sizeofAoeCfghdr + (request.work.cfg order).stringLength order : Int) ≤ request.work.packetLen

section Step

variable {order : ByteOrder} {server : Server Iface} {request : Request}

theorem requestString_eq (carries : CarriesString order request) :
    requestString order request.work = bytesAt request.work.aoepkt sizeofAoeCfghdr
      ((request.work.cfg order).stringLength order) := by
  unfold CarriesString at carries
  exact slice_bytesAt _ (by omega)

theorem requestString_length (carries : CarriesString order request) :
    (requestString order request.work).length = (request.work.cfg order).stringLength order := by
  rw [requestString_eq carries, bytesAt_length]

/-- The buffer holds exactly the string that was copied into it. -/
theorem storedString_cfgStore (dev : Aoedev Aclhdr Iface) (carries : CarriesString order request)
    (fits : (requestString order request.work).length ≤ 1024) :
    storedString (cfgStore order dev request.work) = requestString order request.work := by
  have copied := dev.cfg.memcpy_take fits
  rw [requestString_length carries] at copied
  rw [storedString, cfgStore, ← requestString_eq carries]
  exact copied

theorem storedString_eq_nil_iff {dev : Aoedev Aclhdr Iface} (valid : CfgLenValid dev) :
    storedString dev = [] ↔ dev.cfgLen = 0 := by
  have full := dev.cfg.size
  obtain ⟨low, high⟩ := valid
  rw [storedString, ← List.length_eq_zero_iff, List.length_take, full]
  omega

/-- A permitted read sends the stored string, and announces its length. -/
theorem cfgWithString_sent (env : Env) (store : List UInt8) (work : Workentry)
    {dev : Aoedev Aclhdr Iface} (valid : CfgLenValid dev) :
    ∃ hdr, (cfgWithString order env dev store work).sent = [.cfg hdr (storedString dev)] ∧
      (Sent.cfg hdr (storedString dev)).length =
        sizeofAoeCfghdr + (ntohs order hdr.cfgLen).toNat := by
  obtain ⟨low, high⟩ := valid
  have full := dev.cfg.size
  have size : (storedString dev).length = dev.cfgLen.toNat := by
    rw [storedString, List.length_take, full]
    omega
  have string : bytesAt (dev.cfg.mem env.tail) 0 dev.cfgLen.toNat = storedString dev :=
    dev.cfg.bytesAt_mem env.tail (by omega)
  have whole : (if dev.cfgLen > 0 then sizeofAoeCfghdr + dev.cfgLen.toNat else sizeofAoeCfghdr) =
      sizeofAoeCfghdr + (storedString dev).length := by
    rw [size]
    split <;> omega
  have announced : (toU16 dev.cfgLen).toNat = (storedString dev).length := by
    rw [size, toU16, UInt16.toNat_ofNat']
    omega
  have sent : (cfgWithString order env dev store work).sent =
      [qaoedXmit work
        (.cfg { cfgReply order dev work with cfgLen := htons order (toU16 dev.cfgLen) }
          (storedString dev))
        (sizeofAoeCfghdr + (storedString dev).length)] := by
    unfold cfgWithString
    dsimp only
    rw [string, whole]
  rw [qaoedXmit_cfg] at sent
  refine ⟨_, sent, ?_⟩
  rw [Sent.length, ntohs_htons, announced]

/-! ## One request -/

/-- What the request does to the string and what it is answered. -/
structure CfgContract (order : ByteOrder) (server : Server Iface) (request : Request) : Prop where
  /-- A permitted set of a string that fits stores exactly that string. -/
  set : (request.work.cfg order).command = aoeCfgSet →
    Permits server.dev.cfgsetacl (request.work.hdr order).hSource →
    (requestString order request.work).length ≤ 1024 →
    storedString (handle (qaoedProcessCFG order) server request).dev =
      requestString order request.work
  /-- So does a permitted set-if-empty while no string is stored. -/
  setIfEmpty : (request.work.cfg order).command = aoeCfgSetIfEmpty →
    Permits server.dev.cfgsetacl (request.work.hdr order).hSource →
    storedString server.dev = [] → (requestString order request.work).length ≤ 1024 →
    storedString (handle (qaoedProcessCFG order) server request).dev =
      requestString order request.work
  /-- Nothing else changes the string or its length. -/
  unchanged : ((request.work.cfg order).command = aoeCfgSet →
      Permits server.dev.cfgsetacl (request.work.hdr order).hSource →
      1024 < (requestString order request.work).length) →
    ((request.work.cfg order).command = aoeCfgSetIfEmpty →
      Permits server.dev.cfgsetacl (request.work.hdr order).hSource →
      storedString server.dev ≠ [] ∨ 1024 < (requestString order request.work).length) →
    (handle (qaoedProcessCFG order) server request).dev.cfgLen = server.dev.cfgLen ∧
      storedString (handle (qaoedProcessCFG order) server request).dev = storedString server.dev
  /-- A set that is permitted but does not fit, or finds a string, is answered with an error. -/
  failed : Permits server.dev.cfgsetacl (request.work.hdr order).hSource →
    ((request.work.cfg order).command = aoeCfgSet ∧
        1024 < (requestString order request.work).length) ∨
      ((request.work.cfg order).command = aoeCfgSetIfEmpty ∧
        (storedString server.dev ≠ [] ∨ 1024 < (requestString order request.work).length)) →
    ∃ hdr, (handle (qaoedProcessCFG order) server request).sent = [.cfg hdr []] ∧
      HasFlag hdr.aoehdr.verFlags aoeFlagErr
  /-- A permitted read is answered with exactly the stored string. -/
  read : (request.work.cfg order).command = aoeCfgRead →
    Permits server.dev.cfgracl (request.work.hdr order).hSource →
    ∃ hdr, (handle (qaoedProcessCFG order) server request).sent =
        [.cfg hdr (storedString server.dev)] ∧
      (Sent.cfg hdr (storedString server.dev)).length = 32 + (ntohs order hdr.cfgLen).toNat

theorem cfgRefused_of_permits_set {dev : Aoedev Aclhdr Iface} {cfg : AoeCfghdr}
    (command : cfg.command = aoeCfgSet ∨ cfg.command = aoeCfgSetIfEmpty)
    (permits : Permits dev.cfgsetacl cfg.aoehdr.hSource) : cfgRefused dev cfg = false := by
  have set : isCfgSet cfg.command = true := by
    rcases command with always | ifEmpty
    · rw [always]
      rfl
    · rw [ifEmpty]
      rfl
  rw [cfgRefused_set dev set]
  exact (aclRefuses_eq_false_iff _ _).mpr permits

theorem cfgFailed_sent (order : ByteOrder) (dev : Aoedev Aclhdr Iface) (store : List UInt8)
    (work : Workentry) (code : UInt8) (logged : List LogRecord) :
    ∃ hdr, (cfgFailed order dev store work code logged).sent = [.cfg hdr []] ∧
      HasFlag hdr.aoehdr.verFlags aoeFlagErr := by
  refine ⟨_, rfl, ?_⟩
  dsimp only
  unfold setSource
  cases work.ifentry.hwaddr with
  | none => exact hasFlag_or_right _ _
  | some hwaddr => exact hasFlag_or_right _ _

/-- Every request keeps the contract, from a valid length on. -/
theorem cfgContract (valid : CfgLenValid server.dev) (carries : CarriesString order request) :
    CfgContract order server request where
  set command permits fits := by
    have admitted := cfgRefused_of_permits_set (Or.inl command) permits
    have length := requestString_length carries
    rw [handle, qaoedProcessCFG_set admitted command, if_pos (by rwa [← length])]
    exact storedString_cfgStore server.dev carries fits
  setIfEmpty command permits empty fits := by
    have admitted := cfgRefused_of_permits_set (Or.inr command) permits
    have length := requestString_length carries
    have none := (storedString_eq_nil_iff valid).mp empty
    rw [handle, qaoedProcessCFG_setIfEmpty admitted command, if_pos ⟨none, by rwa [← length]⟩]
    exact storedString_cfgStore server.dev carries fits
  unchanged long kept := by
    have same : (handle (qaoedProcessCFG order) server request).dev = server.dev := by
      rw [handle]
      rcases qaoedProcessCFG_cases order request.env server.dev server.store request.work with
        exit | ⟨_, _, exit⟩ | ⟨set, admitted, fits, empty, _⟩ | ⟨_, _, _, exit⟩
      · rw [exit, cfgNoXmit]
      · rw [exit, cfgWithString]
      · rw [cfgRefused_set server.dev set] at admitted
        have permits := (aclRefuses_eq_false_iff _ _).mp admitted
        rw [← requestString_length carries] at fits
        simp only [isCfgSet, Bool.or_eq_true, beq_iff_eq] at set
        rcases set with ifEmpty | always
        · have none := (storedString_eq_nil_iff valid).mpr (empty ifEmpty)
          rcases kept ifEmpty permits with holds | tooLong
          · exact absurd none holds
          · exact absurd fits (Nat.not_le.mpr tooLong)
        · exact absurd fits (Nat.not_le.mpr (long always permits))
      · rw [exit, cfgFailed]
    rw [same]
    exact ⟨rfl, rfl⟩
  failed permits refused := by
    have length := requestString_length carries
    rw [handle]
    rcases refused with ⟨command, tooLong⟩ | ⟨command, kept⟩
    · have admitted := cfgRefused_of_permits_set (Or.inl command) permits
      rw [length] at tooLong
      rw [qaoedProcessCFG_set admitted command, if_neg (Nat.not_le.mpr tooLong)]
      exact cfgFailed_sent ..
    · have admitted := cfgRefused_of_permits_set (Or.inr command) permits
      have blocked : ¬ (server.dev.cfgLen = 0 ∧
          (request.work.cfg order).stringLength order ≤ 1024) := by
        rintro ⟨empty, fits⟩
        rcases kept with holds | tooLong
        · exact holds ((storedString_eq_nil_iff valid).mpr empty)
        · rw [length] at tooLong
          exact absurd fits (Nat.not_le.mpr tooLong)
      rw [qaoedProcessCFG_setIfEmpty admitted command, if_neg blocked]
      exact cfgFailed_sent ..
  read command permits := by
    have asks : isCfgRead (request.work.cfg order).command = true := by
      rw [command]
      rfl
    have admitted : cfgRefused server.dev (request.work.cfg order) = false := by
      rw [cfgRefused_read server.dev asks]
      exact (aclRefuses_eq_false_iff _ _).mpr permits
    rw [handle, qaoedProcessCFG_read admitted command]
    exact cfgWithString_sent request.env server.store request.work valid

/-- A request keeps the length valid. -/
theorem cfgLenValid_handle (valid : CfgLenValid server.dev) :
    CfgLenValid (handle (qaoedProcessCFG order) server request).dev := by
  rw [handle]
  rcases qaoedProcessCFG_cases order request.env server.dev server.store request.work with
    exit | ⟨_, _, exit⟩ | ⟨_, _, fits, _, exit⟩ | ⟨_, _, _, exit⟩
  all_goals rw [exit]
  · exact valid
  · exact valid
  · constructor
    · exact Int.natCast_nonneg _
    · exact Int.ofNat_le.mpr fits
  · exact valid

/-- A request takes the device from one abstract string to the next. -/
theorem cfgContract_step (valid : CfgLenValid server.dev) (carries : CarriesString order request) :
    storedString (handle (qaoedProcessCFG order) server request).dev =
      configStep order server.dev.cfgsetacl (storedString server.dev) request := by
  have contract := cfgContract valid carries
  unfold configStep
  dsimp only
  rw [Workentry.cfg_aoehdr]
  cases refuses : aclRefuses server.dev.cfgsetacl (request.work.hdr order).hSource with
  | true =>
      have forbids : ¬ Permits server.dev.cfgsetacl (request.work.hdr order).hSource := by
        rw [← aclRefuses_eq_false_iff, refuses]
        exact Bool.noConfusion
      exact (contract.unchanged (fun _ permits => absurd permits forbids)
        (fun _ permits => absurd permits forbids)).2
  | false =>
      have permits := (aclRefuses_eq_false_iff _ _).mp refuses
      rw [if_neg Bool.false_ne_true]
      split
      · next accepted => exact contract.set accepted.1 permits accepted.2
      · next tooLong =>
          split
          · next accepted => exact contract.setIfEmpty accepted.1 permits accepted.2.1 accepted.2.2
          · next kept =>
              refine (contract.unchanged ?_ ?_).2
              · intro command _
                exact Nat.not_le.mp fun fits => tooLong ⟨command, fits⟩
              · intro command _
                by_cases empty : storedString server.dev = []
                · exact Or.inr (Nat.not_le.mp fun fits => kept ⟨command, empty, fits⟩)
                · exact Or.inl empty

end Step

/-! ## Runs -/

/-- From an empty string on, the CFG commands implement the abstract string: the
length stays valid, every request keeps the contract, and the string reached is
the one the abstract steps reach. -/
theorem configString_refined (order : ByteOrder) (dev : Aoedev Aclhdr Iface) (store : List UInt8)
    (requests : List Request) (empty : dev.cfgLen = 0)
    (carries : ∀ request ∈ requests, CarriesString order request) :
    (∀ visit ∈ (served (qaoedProcessCFG order)).visits ⟨dev, store⟩ requests,
      CfgLenValid visit.state.dev ∧ CfgContract order visit.state visit.input) ∧
    CfgLenValid ((served (qaoedProcessCFG order)).run ⟨dev, store⟩ requests).dev ∧
    storedString ((served (qaoedProcessCFG order)).run ⟨dev, store⟩ requests).dev =
      requests.foldl (configStep order dev.cfgsetacl) [] := by
  have start : CfgLenValid dev := by
    rw [CfgLenValid, empty]
    decide
  refine ⟨?_, ?_, ?_⟩
  · intro visit member
    have valid := (served (qaoedProcessCFG order)).visit_invariant
      (fun server => CfgLenValid server.dev) start (fun _ _ _ => cfgLenValid_handle) member
    exact ⟨valid, cfgContract valid (carries _ (Mealy.input_mem _ member))⟩
  · exact (served (qaoedProcessCFG order)).run_invariant
      (fun server => CfgLenValid server.dev) start (fun _ _ _ => cfgLenValid_handle)
  · have reached : CfgLenValid ((served (qaoedProcessCFG order)).run ⟨dev, store⟩ requests).dev ∧
        SameSetup dev ((served (qaoedProcessCFG order)).run ⟨dev, store⟩ requests).dev ∧
        storedString ((served (qaoedProcessCFG order)).run ⟨dev, store⟩ requests).dev =
          requests.foldl (configStep order dev.cfgsetacl) [] := by
      induction requests using List.reverseRecOn with
      | nil => exact ⟨start, SameSetup.refl dev, (storedString_eq_nil_iff start).mpr empty⟩
      | append_singleton earlier request ih =>
          obtain ⟨valid, setup, string⟩ := ih fun request member =>
            carries request (List.mem_append_left _ member)
          have announced := carries request
            (List.mem_append_right _ (List.mem_singleton_self request))
          rw [Mealy.run_snoc, List.foldl_append, ← string, ← setup.cfgsetacl]
          refine ⟨cfgLenValid_handle valid, ?_, cfgContract_step valid announced⟩
          exact setup.trans (qaoedProcessCFG_sameSetup order _ _ _ _)
    exact reached.2.2

/-- A frame that announces a string of two bytes. -/
def twoByteRequest (command : UInt8) : Request where
  work :=
    { aoepkt := fun index =>
        if index = 29 then command else if index = 31 then 2 else if index < 32 then 0 else 97
      packetLen := 34
      ifentry := ⟨[], none, 1500, 1518, none⟩ }
  env := ⟨true, none, fun _ => 0, fun _ => 0⟩

theorem configString_refined_twoBytes :
    storedString ((served (qaoedProcessCFG .little)).run oneSector
      [twoByteRequest aoeCfgSetIfEmpty, twoByteRequest aoeCfgRead]).dev = [97, 97] := by
  have carries : ∀ request ∈ [twoByteRequest aoeCfgSetIfEmpty, twoByteRequest aoeCfgRead],
      CarriesString .little request := by
    intro request member
    rcases List.mem_pair.mp member with rfl | rfl
    · exact Int.le_refl 34
    · exact Int.le_refl 34
  have refined := configString_refined .little oneSector.dev oneSector.store _ rfl carries
  exact refined.2.2

end Qaoed.Device
