import Qaoed.Config.Interfaces

/-!
# The announced number of sectors

A configuration reply announces how many sectors fit into a frame. The count is
computed without a sign and kept in a byte, and what an interface may have for an MTU
is checked against the system's only from above.
-/

namespace Qaoed.Config

open Qaoed.Device
open Qaoed.Frame
open Qaoed.Library
open Qaoed.Library.ByteOrder

/-- The largest frame that the replies of an interface invite fits into its MTU and a
frame header. -/
def SectorsAnnounced (ifent : Ifst) : Prop := invited ifent ≤ ifent.mtu + 14

/-- The MTU has room for the header of a transfer. -/
def HoldsHeader (mtu : Int) : Prop := sizeofAoeAtahdr ≤ mtu

instance (mtu : Int) : Decidable (HoldsHeader mtu) := inferInstanceAs (Decidable (_ ≤ _))

/-- The count wraps around, unless the MTU holds a header. -/
theorem sectorsAnnounced_iff (ifent : Ifst) : SectorsAnnounced ifent ↔ HoldsHeader ifent.mtu := by
  have count := maxsectOf_toNat ifent.mtu
  unfold SectorsAnnounced invited HoldsHeader sizeofAoeAtahdr
  omega

/-- The byte of a reply is at most the true quotient. -/
theorem maxsect_le_quotient {Iface : Type} {order : ByteOrder} {env : Env}
    {dev : Aoedev Aclhdr Iface} {store : List UInt8} {work : Workentry} {hdr : AoeCfghdr}
    {data : List UInt8} (holds : HoldsHeader work.ifentry.mtu)
    (member : .cfg hdr data ∈ (qaoedProcessCFG order env dev store work).sent) :
    (hdr.maxsect.toNat : Int) ≤ (work.ifentry.mtu - sizeofAoeAtahdr) / 512 := by
  have count := maxsectOf_toNat work.ifentry.mtu
  rw [maxsect_of_sent member]
  unfold HoldsHeader sizeofAoeAtahdr at *
  omega

/-! ## Start-up -/

/-- The MTUs of the interfaces after start-up: as configured, or as the system reports. -/
def openedMtus : (Nat → OpenEnv) → List Ifst → List Int
  | _, [] => []
  | env, ifent :: next =>
      (if ifent.mtu = 0 then getifmtu (env 0).mtu else ifent.mtu) ::
        openedMtus (fun count => env (count + 1)) next

theorem openInterface_mtu {env : OpenEnv} {ifent opened : Ifst}
    (opens : openInterface env ifent = some opened) :
    opened.mtu = if ifent.mtu = 0 then getifmtu env.mtu else ifent.mtu := by
  obtain ⟨bound, sock, opens⟩ := Option.bind_eq_some_iff.mp opens
  have boundMtu : bound.mtu = ifent.mtu := by
    unfold qaoedOpensock at sock
    split at sock
    · cases sock
      rfl
    · cases sock
  have addressed : (getifhwaddr env.hwaddr bound).mtu = ifent.mtu := by
    unfold getifhwaddr
    split
    · exact boundMtu
    · exact boundMtu
  dsimp only at opens
  split at opens
  · cases opens
  · cases opens
    have kept (entry : Ifst) : (recalibrate entry).mtu = entry.mtu := by
      unfold recalibrate
      split <;> rfl
    rw [kept, assignMtu, addressed]
    split
    · rfl
    · exact addressed

theorem openAll_mtus {env : Nat → OpenEnv} {intlist opened : List Ifst}
    (opens : openAll env intlist = some opened) :
    opened.map Ifst.mtu = openedMtus env intlist := by
  induction intlist generalizing env opened with
  | nil =>
      cases opens
      rfl
  | cons first rest ih =>
      obtain ⟨head, opensHead, opens⟩ := Option.bind_eq_some_iff.mp opens
      obtain ⟨tail, opensTail, rfl⟩ := Option.map_eq_some_iff.mp opens
      rw [List.map_cons, openedMtus, ih opensTail, openInterface_mtu opensHead]

theorem Started.mtus {Iface : Type} [DecidableEq Iface] {env : Nat → OpenEnv}
    {stat : CString → Option Mode} {conf : Qconfig Iface} {intlist : List Ifst}
    (started : Started env stat conf intlist) :
    intlist.map Ifst.mtu = openedMtus env conf.intlist := by
  have opens := started.opened
  unfold qaoedOpeninterfaces at opens
  split at opens
  · cases opens
  · exact openAll_mtus opens

/-! ## Runs -/

/-- A request that is accepted asks for an MTU that holds a header. -/
def RequestHoldsHeader (intlist : List Ifst) (request : SetMtu) : Prop :=
  ∀ position, Accepts intlist request position → HoldsHeader request.requested

/-- One request keeps the announced counts right exactly if its MTU holds a header. -/
theorem sectorsAnnounced_step_iff {intlist : List Ifst}
    (fits : ∀ ifent ∈ intlist, SectorsAnnounced ifent) (request : SetMtu) :
    (∀ ifent ∈ api.next intlist request, SectorsAnnounced ifent) ↔
      RequestHoldsHeader intlist request := by
  rw [forall_interface_step_iff fits]
  exact forall₂_congr fun position _ => sectorsAnnounced_iff _

/-- From an accepted configuration, the announced counts are right in every state that
the requests lead to exactly if every interface is configured with an MTU that holds a
header, or left to such an MTU of the system, and every accepted request asks for one. -/
theorem sectorsAnnounced_reachable_iff {Iface : Type} [DecidableEq Iface] (env : Nat → OpenEnv)
    (stat : CString → Option Mode) (conf : Qconfig Iface) (intlist : List Ifst)
    (requests : List SetMtu) (started : Started env stat conf intlist) :
    (∀ earlier, earlier <+: requests →
        ∀ ifent ∈ api.run intlist earlier, SectorsAnnounced ifent) ↔
      (∀ mtu ∈ openedMtus env conf.intlist, HoldsHeader mtu) ∧
        ∀ visit ∈ api.visits intlist requests, RequestHoldsHeader visit.state visit.input := by
  have begin_iff : (∀ ifent ∈ intlist, SectorsAnnounced ifent) ↔
      ∀ mtu ∈ openedMtus env conf.intlist, HoldsHeader mtu := by
    rw [← started.mtus, List.forall_mem_map]
    exact forall₂_congr fun ifent _ => sectorsAnnounced_iff ifent
  have along (fits : ∀ ifent ∈ intlist, SectorsAnnounced ifent) :=
    api.prefixes_invariant_iff (fun intlist => ∀ ifent ∈ intlist, SectorsAnnounced ifent)
      RequestHoldsHeader requests fits fun _ request fits => sectorsAnnounced_step_iff fits request
  constructor
  · intro holds
    have fits := holds [] List.nil_prefix
    exact ⟨begin_iff.mp fits, (along fits).mp holds⟩
  · rintro ⟨starts, allowed⟩
    exact (along (begin_iff.mpr starts)).mpr allowed

theorem sectorsAnnounced_reachable_iff_smaller :
    SectorsAnnounced { jumboOpened with mtu := 1400 } := by
  refine (sectorsAnnounced_reachable_iff jumboEnv (fun _ => none) jumboConf [jumboOpened]
    [jumboRequest 1400] jumbo_started).mpr ⟨?_, ?_⟩ _ List.prefix_rfl _ List.mem_cons_self
  · intro mtu member
    rw [List.mem_singleton.mp member]
    decide
  · intro visit member
    rw [List.mem_singleton.mp member]
    intro _ _
    show HoldsHeader 1400
    decide

/-- After a request for an MTU of 20 the interface invites frames with 255 sectors. -/
theorem tinyMtu_invites :
    Started jumboEnv (fun _ => none) jumboConf [jumboOpened] ∧
      ¬ ∀ ifent ∈ api.run [jumboOpened] [jumboRequest 20], SectorsAnnounced ifent := by
  refine ⟨jumbo_started, ?_⟩
  intro fits
  have announced := fits { jumboOpened with mtu := 20 } List.mem_cons_self
  exact absurd ((sectorsAnnounced_iff _).mp announced) (by decide)

end Qaoed.Config
