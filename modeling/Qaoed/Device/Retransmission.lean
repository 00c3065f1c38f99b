import Qaoed.Device.AccessControl
import Qaoed.Device.SectorStore
import Qaoed.Library.Interference

/-!
# Requests that arrive again

A client that misses a reply sends its request once more. Carried out a second time at once,
a request finds what it left behind the first time: it changes nothing, and it is answered
alike, but for a string that is set only where there is none.
-/

namespace Qaoed.Device

open Qaoed.Library
open Qaoed.Frame

variable {Iface : Type}

/-- The request stores its string: it is admitted, its string fits, and it finds no other one
if it asks for that. -/
structure StoresString (order : ByteOrder) (dev : Aoedev Aclhdr Iface) (work : Workentry) :
    Prop where
  admitted : cfgRefused dev (work.cfg order) = false
  fits : (work.cfg order).stringLength order ≤ 1024
  command : (work.cfg order).command = aoeCfgSet ∨
    (work.cfg order).command = aoeCfgSetIfEmpty ∧ dev.cfgLen = 0

/-- The request is the one that sets a string where there is none. -/
structure FillsEmpty (order : ByteOrder) (dev : Aoedev Aclhdr Iface) (work : Workentry) :
    Prop where
  stores : StoresString order dev work
  ifEmpty : (work.cfg order).command = aoeCfgSetIfEmpty
  some : 0 < (work.cfg order).stringLength order

/-- A write that the system carries out in full. Other requests may fare as they like. -/
def CarriedOut (order : ByteOrder) (request : Request) : Prop :=
  isAtaWrite (request.work.ata order).cmdstat = true →
    request.env.Complete (transferLen (request.work.ata order))

/-! ## Configuration requests -/

section Cfg

variable {order : ByteOrder} {env : Env} {dev : Aoedev Aclhdr Iface} {store : List UInt8}
  {work : Workentry}

theorem qaoedProcessCFG_stores (stores : StoresString order dev work) :
    qaoedProcessCFG order env dev store work = cfgAcknowledged order dev store work := by
  obtain ⟨admitted, fits, set | ⟨ifEmpty, none⟩⟩ := stores
  · rw [qaoedProcessCFG_set admitted set, if_pos fits]
  · rw [qaoedProcessCFG_setIfEmpty admitted ifEmpty, if_pos ⟨none, fits⟩]

theorem qaoedProcessCFG_keeps (keeps : ¬ StoresString order dev work) :
    (qaoedProcessCFG order env dev store work).dev = dev := by
  rcases qaoedProcessCFG_cases order env dev store work with
    exit | ⟨_, _, exit⟩ | ⟨set, admitted, fits, empty, _⟩ | ⟨_, _, _, exit⟩
  · rw [exit]
    rfl
  · rw [exit]
    rfl
  · refine absurd ⟨admitted, fits, ?_⟩ keeps
    rw [isCfgSet, Bool.or_eq_true, beq_iff_eq, beq_iff_eq] at set
    rcases set with ifEmpty | always
    · exact Or.inr ⟨ifEmpty, empty ifEmpty⟩
    · exact Or.inl always
  · rw [exit]
    rfl

theorem cfgStore_again (order : ByteOrder) (dev : Aoedev Aclhdr Iface) (work : Workentry) :
    cfgStore order (cfgStore order dev work) work = cfgStore order dev work := by
  rw [cfgStore, cfgStore, CfgBuf.memcpy_again]

theorem qaoedProcessCFG_again (env env' : Env) (dev : Aoedev Aclhdr Iface) (store : List UInt8)
    (work : Workentry) :
    (qaoedProcessCFG order env' (qaoedProcessCFG order env dev store work).dev store work).dev =
      (qaoedProcessCFG order env dev store work).dev := by
  by_cases stores : StoresString order dev work
  · rw [qaoedProcessCFG_stores stores]
    show (qaoedProcessCFG order env' (cfgStore order dev work) store work).dev =
      cfgStore order dev work
    by_cases storesAgain : StoresString order (cfgStore order dev work) work
    · rw [qaoedProcessCFG_stores storesAgain]
      exact cfgStore_again order dev work
    · exact qaoedProcessCFG_keeps storesAgain
  · rw [qaoedProcessCFG_keeps stores, qaoedProcessCFG_keeps stores]

/-- The answer to a string that was just stored: the same again, or that there is one already. -/
theorem qaoedProcessCFG_answeredAgain (stores : StoresString order dev work) :
    (qaoedProcessCFG order env (cfgStore order dev work) store work).sent =
        (cfgAcknowledged order dev store work).sent ∨
      (FillsEmpty order dev work ∧
        (qaoedProcessCFG order env (cfgStore order dev work) store work).sent =
          (cfgFailed order dev store work aoeErrCfgSet []).sent) := by
  by_cases storesAgain : StoresString order (cfgStore order dev work) work
  · rw [qaoedProcessCFG_stores storesAgain]
    exact Or.inl rfl
  · obtain ⟨admitted, fits, set | ⟨ifEmpty, none⟩⟩ := stores
    · exact absurd ⟨admitted, fits, Or.inl set⟩ storesAgain
    · have occupied : ¬ ((cfgStore order dev work).cfgLen = 0 ∧
          (work.cfg order).stringLength order ≤ 1024) := by
        rintro ⟨zero, _⟩
        exact storesAgain ⟨admitted, fits, Or.inr ⟨ifEmpty, zero⟩⟩
      refine Or.inr ⟨⟨⟨admitted, fits, Or.inr ⟨ifEmpty, none⟩⟩, ifEmpty, ?_⟩, ?_⟩
      · by_contra zero
        refine occupied ⟨?_, fits⟩
        show (((work.cfg order).stringLength order : Nat) : Int) = 0
        omega
      · have admitted' : cfgRefused (cfgStore order dev work) (work.cfg order) = false := admitted
        rw [qaoedProcessCFG_setIfEmpty admitted' ifEmpty, if_neg occupied]
        rfl

end Cfg

/-! ## Writes -/

section Ata

variable {order : ByteOrder} {env env' : Env} {dev : Aoedev Aclhdr Iface} {store : List UInt8}
  {work : Workentry}

/-- A write that was carried out finds its sectors in the store. -/
theorem qaoedProcesswork_write_again (cmd : (work.hdr order).cmd = aoeCmdAta)
    (checked : sizeofAoeAtahdr ≤ sizeT work.packetLen)
    (write : isAtaWrite (work.ata order).cmdstat = true)
    (complete : env.Complete (transferLen (work.ata order))) :
    (qaoedProcesswork order env' dev (qaoedProcesswork order env dev store work).store work).store =
      (qaoedProcesswork order env dev store work).store := by
  by_cases blocked : WriteBlocked order env' dev work
  · exact (qaoedProcesswork_write_blocked _ cmd write checked blocked).1
  · have passes : ¬ aclRefuses dev.wacl (work.hdr order).hSource = true := fun refuses =>
      blocked (Or.inl refuses)
    have some : env'.moved (transferLen (work.ata order)) ≠ 0 := fun nothing =>
      blocked (Or.inr (Or.inr nothing))
    have short := env'.moved_le (transferLen (work.ata order))
    have first : ¬ WriteBlocked order env dev work := by
      rintro (refuses | seek | nothing)
      · exact passes refuses
      · rw [complete.1] at seek
        cases seek
      · rw [complete.2] at nothing
        omega
    rw [qaoedProcesswork_write_done _ cmd write checked blocked,
      qaoedProcesswork_write_done _ cmd write checked first, complete.2]
    dsimp only
    rw [← bytesAt_take _ _ _ short]
    exact writeAt_again 0 store _ _ _

/-- Its answer does not depend on what the store held. -/
theorem qaoedProcesswork_write_sent (cmd : (work.hdr order).cmd = aoeCmdAta)
    (checked : sizeofAoeAtahdr ≤ sizeT work.packetLen)
    (write : isAtaWrite (work.ata order).cmdstat = true) (store' : List UInt8) :
    (qaoedProcesswork order env dev store' work).sent =
      (qaoedProcesswork order env dev store work).sent := by
  rw [qaoedProcesswork_ata cmd checked, qaoedProcesswork_ata cmd checked]
  cases refused : ataRefused dev (work.ata order) with
  | true =>
      rw [qaoedProcessATA_refused refused, qaoedProcessATA_refused refused]
      rfl
  | false =>
      rw [qaoedProcessATA_transfer refused (Or.inr write),
        qaoedProcessATA_transfer refused (Or.inr write)]
      exact congrArg (fun sent => [sent]) (qaoedTransfer_write_congr write rfl rfl rfl)

end Ata

/-! ## Any request -/

section Again

variable {order : ByteOrder}

theorem served_keeps {server : Server Iface} {request : Request}
    (sameDev : (handle (qaoedProcesswork order) server request).dev = server.dev)
    (sameStore : (handle (qaoedProcesswork order) server request).store = server.store) :
    (served (qaoedProcesswork order)).next server request = server := by
  show Server.mk _ _ = server
  rw [sameDev, sameStore]

/-- A request that was carried out leaves nothing to do, whatever the system answers now. -/
theorem served_again {first again : Request} (server : Server Iface)
    (same : again.work = first.work) (carried : CarriedOut order first) :
    (served (qaoedProcesswork order)).next
        ((served (qaoedProcesswork order)).next server first) again =
      (served (qaoedProcesswork order)).next server first := by
  obtain ⟨dev, store⟩ := server
  obtain ⟨_, env⟩ := first
  obtain ⟨work, env'⟩ := again
  subst same
  apply served_keeps
  · show (qaoedProcesswork order env' (qaoedProcesswork order env dev store work).dev
      (qaoedProcesswork order env dev store work).store work).dev =
        (qaoedProcesswork order env dev store work).dev
    unfold qaoedProcesswork
    dsimp only
    split_ifs
    · rw [qaoedProcessATA_dev]
    · rfl
    · rw [qaoedProcessCFG_store]
      exact qaoedProcessCFG_again env env' dev store work
    · rfl
    · rfl
  · show (qaoedProcesswork order env' (qaoedProcesswork order env dev store work).dev
      (qaoedProcesswork order env dev store work).store work).store =
        (qaoedProcesswork order env dev store work).store
    by_cases write : (work.hdr order).cmd = aoeCmdAta ∧
        isAtaWrite (work.ata order).cmdstat = true ∧ sizeofAoeAtahdr ≤ sizeT work.packetLen
    · obtain ⟨cmd, write, checked⟩ := write
      have sameDev : (qaoedProcesswork order env dev store work).dev = dev := by
        rw [qaoedProcesswork_ata cmd checked, qaoedProcessATA_dev]
      rw [sameDev]
      exact qaoedProcesswork_write_again cmd checked write (carried write)
    · by_contra changed
      rcases qaoedProcesswork_cases order env' (qaoedProcesswork order env dev store work).dev
        (qaoedProcesswork order env dev store work).store work with
        ⟨cmd, checked, exit⟩ | ⟨_, _, exit⟩ | ⟨_, exit⟩
      · rw [exit] at changed
        exact write ⟨cmd, (qaoedProcessATA_store changed).1, checked⟩
      · rw [exit, qaoedProcessCFG_store] at changed
        exact changed rfl
      · rw [exit] at changed
        exact changed rfl

/-- If the system answers as before, so does the device, unless a string was set where there
was none: then there is one now. -/
theorem served_answeredAgain (server : Server Iface) (request : Request) :
    (served (qaoedProcesswork order)).out
          ((served (qaoedProcesswork order)).next server request) request =
        (served (qaoedProcesswork order)).out server request ∨
      (FillsEmpty order server.dev request.work ∧
        (served (qaoedProcesswork order)).out
            ((served (qaoedProcesswork order)).next server request) request =
          (cfgFailed order server.dev server.store request.work aoeErrCfgSet []).sent) := by
  obtain ⟨dev, store⟩ := server
  obtain ⟨work, env⟩ := request
  have unchanged (sameDev : (qaoedProcesswork order env dev store work).dev = dev)
      (sameStore : (qaoedProcesswork order env dev store work).store = store) :
      (served (qaoedProcesswork order)).out
          ((served (qaoedProcesswork order)).next ⟨dev, store⟩ ⟨work, env⟩) ⟨work, env⟩ =
        (served (qaoedProcesswork order)).out ⟨dev, store⟩ ⟨work, env⟩ := by
    have keeps : (served (qaoedProcesswork order)).next ⟨dev, store⟩ ⟨work, env⟩ = ⟨dev, store⟩ :=
      served_keeps sameDev sameStore
    rw [keeps]
  rcases qaoedProcesswork_cases order env dev store work with
    ⟨cmd, checked, exit⟩ | ⟨cmd, checked, exit⟩ | ⟨_, exit⟩
  · have sameDev : (qaoedProcesswork order env dev store work).dev = dev := by
      rw [exit, qaoedProcessATA_dev]
    by_cases write : isAtaWrite (work.ata order).cmdstat = true
    · left
      show (qaoedProcesswork order env (qaoedProcesswork order env dev store work).dev
        (qaoedProcesswork order env dev store work).store work).sent =
          (qaoedProcesswork order env dev store work).sent
      rw [sameDev]
      exact qaoedProcesswork_write_sent cmd checked write _
    · refine Or.inl (unchanged sameDev ?_)
      by_contra changed
      rw [exit] at changed
      exact write (qaoedProcessATA_store changed).1
  · by_cases stores : StoresString order dev work
    · have acknowledged : qaoedProcessCFG order env dev store work =
          cfgAcknowledged order dev store work := qaoedProcessCFG_stores stores
      show (qaoedProcesswork order env (qaoedProcesswork order env dev store work).dev
          (qaoedProcesswork order env dev store work).store work).sent =
            (qaoedProcesswork order env dev store work).sent ∨ _ ∧
        (qaoedProcesswork order env (qaoedProcesswork order env dev store work).dev
          (qaoedProcesswork order env dev store work).store work).sent = _
      rw [exit, acknowledged, qaoedProcesswork_ofCfg cmd checked]
      exact qaoedProcessCFG_answeredAgain stores
    · refine Or.inl (unchanged ?_ ?_)
      · rw [exit]
        exact qaoedProcessCFG_keeps stores
      · rw [exit, qaoedProcessCFG_store]
  · exact Or.inl (unchanged (by rw [exit]) (by rw [exit]))

end Again

/-! ## Runs -/

/-- Requests that arrive again at once do no harm, as long as writes are carried out in full
the first time: every run ends as it does without them and answers the first arrivals alike.
An arrival to which the system answers as to the first one is answered like it, unless the
first one has set a string where there was none. -/
theorem retransmissions_harmless (order : ByteOrder) (server : Server Iface)
    (bundles : List (Request × List Request))
    (same : ∀ bundle ∈ bundles, ∀ again ∈ bundle.2, again.work = bundle.1.work)
    (carried : ∀ bundle ∈ bundles, CarriedOut order bundle.1) :
    (served (qaoedProcesswork order)).run server (bundles.flatMap Mealy.repeated) =
        (served (qaoedProcesswork order)).run server (bundles.map Prod.fst) ∧
      ∀ earlier first tries again rest later,
        bundles = earlier ++ (first, tries ++ again :: rest) :: later →
        let before := (served (qaoedProcesswork order)).run server (earlier.map Prod.fst)
        (served (qaoedProcesswork order)).run server (earlier.flatMap Mealy.repeated) = before ∧
          (again.env = first.env →
            (served (qaoedProcesswork order)).out
                ((served (qaoedProcesswork order)).run server
                  (earlier.flatMap Mealy.repeated ++ first :: tries)) again =
              (served (qaoedProcesswork order)).out before first ∨
            (FillsEmpty order before.dev first.work ∧
              (served (qaoedProcesswork order)).out
                  ((served (qaoedProcesswork order)).run server
                    (earlier.flatMap Mealy.repeated ++ first :: tries)) again =
                (cfgFailed order before.dev before.store first.work aoeErrCfgSet []).sent)) := by
  have settled (bundle : Request × List Request) (member : bundle ∈ bundles)
      (state : Server Iface) (again : Request) (inBundle : again ∈ bundle.2) :
      (served (qaoedProcesswork order)).next
          ((served (qaoedProcesswork order)).next state bundle.1) again =
        (served (qaoedProcesswork order)).next state bundle.1 :=
    served_again state (same bundle member again inBundle) (carried bundle member)
  refine ⟨Mealy.run_repeated _ server bundles settled, ?_⟩
  rintro earlier first tries again rest later rfl
  have reached := Mealy.run_repeated _ server earlier fun bundle member =>
    settled bundle (List.mem_append_left _ member)
  refine ⟨reached, ?_⟩
  intro sameEnv
  have here : (first, tries ++ again :: rest) ∈
      earlier ++ (first, tries ++ again :: rest) :: later :=
    List.mem_append_right _ List.mem_cons_self
  have sameWork : again.work = first.work :=
    same _ here again (List.mem_append_right _ List.mem_cons_self)
  have equal : again = first := by
    obtain ⟨_, _⟩ := again
    obtain ⟨_, _⟩ := first
    cases sameWork
    cases sameEnv
    rfl
  have tried : (served (qaoedProcesswork order)).run server
      (earlier.flatMap Mealy.repeated ++ first :: tries) =
        (served (qaoedProcesswork order)).next
          ((served (qaoedProcesswork order)).run server (earlier.map Prod.fst)) first := by
    rw [Mealy.run_append, reached]
    exact Mealy.run_idle _ fun other member =>
      settled _ here _ other (List.mem_append_left _ member)
  rw [tried, equal]
  exact served_answeredAgain _ _


/-- A write that arrives again while the system fails. -/
def retriedWrite : Request :=
  { firstSectorRequest winWrite with env := ⟨false, none, fun _ => 0, fun _ => 0⟩ }

theorem retransmissions_harmless_write :
    (served (qaoedProcesswork .little)).run oneSector [firstSectorRequest winWrite, retriedWrite] =
      (served (qaoedProcesswork .little)).run oneSector [firstSectorRequest winWrite] := by
  refine (retransmissions_harmless .little oneSector [(firstSectorRequest winWrite, [retriedWrite])]
    ?_ ?_).1
  · intro bundle member again inBundle
    rw [List.mem_singleton.mp member] at inBundle ⊢
    rw [List.mem_singleton.mp inBundle]
    rfl
  · intro bundle member write
    rw [List.mem_singleton.mp member]
    exact (firstSectorRequest_sector (Or.inr rfl)).complete

end Qaoed.Device
