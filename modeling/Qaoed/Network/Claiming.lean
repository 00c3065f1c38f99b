import Qaoed.Device.ConfigString
import Qaoed.Device.Correlation
import Qaoed.Device.ErrorIndication
import Qaoed.Network.Replies

/-!
# Claiming a device

Hosts share a device by its configuration string: each tries to set its own where there is
none. Whatever the threads of the server do, one of them wins, all later ones are told that
they lost, and everyone who asks finds the string of the winner.
-/

namespace Qaoed.Network

open Qaoed.Library
open Qaoed.Library.ByteOrder
open Qaoed.Frame
open Qaoed.Device

variable {Iface : Type}

/-! ## Claims and questions -/

/-- A frame that `qaoed_processwork` hands to `qaoed_processCFG`. -/
structure IsCfg (order : ByteOrder) (entry : Workentry) : Prop where
  cmd : (entry.hdr order).cmd = aoeCmdCfg
  checked : sizeofAoeCfghdr ≤ sizeT entry.packetLen

/-- A host that may do so asks to set its string if there is none. -/
structure Claims (order : ByteOrder) (device : Aoedev Aclhdr Iface) (entry : Workentry) : Prop where
  cfg : IsCfg order entry
  ifEmpty : (entry.cfg order).command = aoeCfgSetIfEmpty
  permitted : Permits device.cfgsetacl (entry.hdr order).hSource
  some : requestString order entry ≠ []
  fits : (requestString order entry).length ≤ 1024

/-- A host that may do so asks for the string. -/
structure Asks (order : ByteOrder) (device : Aoedev Aclhdr Iface) (entry : Workentry) : Prop where
  cfg : IsCfg order entry
  read : (entry.cfg order).command = aoeCfgRead
  permitted : Permits device.cfgracl (entry.hdr order).hSource

/-- Strings come with their frames, and no host that may do so sets its string by force. -/
def KeepsToClaims (order : ByteOrder) (device : Aoedev Aclhdr Iface) (request : Request) : Prop :=
  IsCfg order request.work → CarriesString order request ∧
    ((request.work.cfg order).command = aoeCfgSet →
      Permits device.cfgsetacl (request.work.hdr order).hSource →
      1024 < (requestString order request.work).length)

/-- A request with the frames that were sent for it. -/
abbrev Exchanged := Request × List Sent

/-- A host that asks is shown a string. -/
def Shows (order : ByteOrder) (device : Aoedev Aclhdr Iface) (string : List UInt8)
    (exchanged : Exchanged) : Prop :=
  Asks order device exchanged.1.work → ∃ hdr, exchanged.2 = [.cfg hdr string]

/-- A host that claims is told that it failed. -/
def Loses (order : ByteOrder) (device : Aoedev Aclhdr Iface) (exchanged : Exchanged) : Prop :=
  Claims order device exchanged.1.work →
    ∃ hdr, exchanged.2 = [.cfg hdr []] ∧ HasFlag hdr.aoehdr.verFlags aoeFlagErr

/-- A host that claims is told that it succeeded: there is no error flag but its own. -/
structure Wins (order : ByteOrder) (device : Aoedev Aclhdr Iface) (exchanged : Exchanged) : Prop where
  claims : Claims order device exchanged.1.work
  acknowledged : ∃ hdr, exchanged.2 = [.cfg hdr []] ∧ (HasFlag hdr.aoehdr.verFlags aoeFlagErr ↔
    HasFlag (exchanged.1.work.hdr order).verFlags aoeFlagErr)

/-- The first claim wins. -/
inductive FirstClaimWins (order : ByteOrder) (device : Aoedev Aclhdr Iface) : List Exchanged → Prop
  | unclaimed {exchanges : List Exchanged} :
      (∀ exchanged ∈ exchanges, ¬ Claims order device exchanged.1.work ∧
        Shows order device [] exchanged) → FirstClaimWins order device exchanges
  | won {exchanges before : List Exchanged} {winner : Exchanged} {after : List Exchanged} :
      exchanges = before ++ winner :: after →
      (∀ exchanged ∈ before, ¬ Claims order device exchanged.1.work ∧
        Shows order device [] exchanged) →
      Wins order device winner →
      (∀ exchanged ∈ after, Loses order device exchanged ∧
        Shows order device (requestString order winner.1.work) exchanged) →
      FirstClaimWins order device exchanges

/-! ## One request -/

section Step

variable {order : ByteOrder} {found device : Aoedev Aclhdr Iface} {request : Request}
  {store : List UInt8}

/-- What a device sends for a request. -/
def answer (order : ByteOrder) (device : Aoedev Aclhdr Iface) (store : List UInt8)
    (request : Request) : List Sent :=
  (qaoedProcesswork order request.env device store request.work).sent

/-- The device after a request. -/
def afterwards (order : ByteOrder) (device : Aoedev Aclhdr Iface) (store : List UInt8)
    (request : Request) : Aoedev Aclhdr Iface :=
  (qaoedProcesswork order request.env device store request.work).dev

theorem afterwards_other (other : ¬ IsCfg order request.work) :
    afterwards order device store request = device := by
  by_contra changed
  rcases qaoedProcesswork_cases order request.env device store request.work with
    ⟨_, _, exit⟩ | ⟨cmd, checked, _⟩ | ⟨_, exit⟩
  · exact changed ((congrArg Outcome.dev exit).trans (qaoedProcessATA_dev order _ _ _ _))
  · exact other ⟨cmd, checked⟩
  · exact changed (congrArg Outcome.dev exit)

theorem afterwards_valid (valid : CfgLenValid device) :
    CfgLenValid (afterwards order device store request) := by
  by_cases cfg : IsCfg order request.work
  · rw [afterwards, qaoedProcesswork_ofCfg cfg.cmd cfg.checked]
    exact @cfgLenValid_handle _ order ⟨device, store⟩ request valid
  · rw [afterwards_other cfg]
    exact valid

/-- The string that requests leave which keep to claims. -/
theorem afterwards_string (valid : CfgLenValid device) (same : SameSetup found device)
    (keeps : KeepsToClaims order found request) :
    (¬ Claims order found request.work ∨ storedString device ≠ [] →
      storedString (afterwards order device store request) = storedString device) ∧
    (Claims order found request.work → storedString device = [] →
      storedString (afterwards order device store request) = requestString order request.work) := by
  by_cases cfg : IsCfg order request.work
  · obtain ⟨carries, notForced⟩ := keeps cfg
    have contract := @cfgContract _ order ⟨device, store⟩ request valid carries
    rw [afterwards, qaoedProcesswork_ofCfg cfg.cmd cfg.checked]
    rw [← same.cfgsetacl] at notForced
    constructor
    · intro kept
      by_cases empty : (request.work.cfg order).command = aoeCfgSetIfEmpty ∧
          Permits device.cfgsetacl (request.work.hdr order).hSource ∧ storedString device = [] ∧
          (requestString order request.work).length ≤ 1024
      · obtain ⟨ifEmpty, permitted, none, fits⟩ := empty
        have nothing : requestString order request.work = [] := by
          by_contra some
          exact kept.elim (fun noClaim => noClaim ⟨cfg, ifEmpty, same.cfgsetacl ▸ permitted, some, fits⟩)
            (fun some => some none)
        rw [none, ← nothing]
        exact contract.setIfEmpty ifEmpty permitted none fits
      · refine (contract.unchanged notForced fun ifEmpty permitted => ?_).2
        by_contra both
        push Not at both
        exact empty ⟨ifEmpty, permitted, both.1, both.2⟩
    · intro claims none
      exact contract.setIfEmpty claims.ifEmpty (same.cfgsetacl ▸ claims.permitted) none claims.fits
  · rw [afterwards_other cfg]
    exact ⟨fun _ => rfl, fun claims => absurd claims.cfg cfg⟩

theorem answer_shows (valid : CfgLenValid device) (same : SameSetup found device)
    (keeps : KeepsToClaims order found request) :
    Shows order found (storedString device) (request, answer order device store request) := by
  intro asks
  have contract := @cfgContract _ order ⟨device, store⟩ request valid (keeps asks.cfg).1
  obtain ⟨hdr, sent, _⟩ := contract.read asks.read (same.cfgracl ▸ asks.permitted)
  refine ⟨hdr, ?_⟩
  dsimp only
  rw [answer, qaoedProcesswork_ofCfg asks.cfg.cmd asks.cfg.checked]
  exact sent

theorem answer_loses (valid : CfgLenValid device) (same : SameSetup found device)
    (keeps : KeepsToClaims order found request) (taken : storedString device ≠ []) :
    Loses order found (request, answer order device store request) := by
  intro claims
  have contract := @cfgContract _ order ⟨device, store⟩ request valid (keeps claims.cfg).1
  obtain ⟨hdr, sent, failed⟩ := contract.failed (same.cfgsetacl ▸ claims.permitted)
    (.inr ⟨claims.ifEmpty, .inl taken⟩)
  refine ⟨hdr, ?_, failed⟩
  dsimp only
  rw [answer, qaoedProcesswork_ofCfg claims.cfg.cmd claims.cfg.checked]
  exact sent

theorem answer_wins (valid : CfgLenValid device) (same : SameSetup found device)
    (keeps : KeepsToClaims order found request) (claims : Claims order found request.work)
    (none : storedString device = []) :
    Wins order found (request, answer order device store request) := by
  refine ⟨claims, ?_⟩
  dsimp only
  have length := requestString_length (keeps claims.cfg).1
  have fits := claims.fits
  rw [length] at fits
  have admitted : cfgRefused device (request.work.cfg order) = false :=
    cfgRefused_of_permits_set (.inr claims.ifEmpty) (same.cfgsetacl ▸ claims.permitted)
  have empty := (storedString_eq_nil_iff valid).mp none
  rw [answer, qaoedProcesswork_ofCfg claims.cfg.cmd claims.cfg.checked,
    qaoedProcessCFG_setIfEmpty admitted claims.ifEmpty, if_pos ⟨empty, fits⟩]
  have flag := flag_indicated .none (request.work.hdr order)
  rw [Option.isSome_none, or_iff_left Bool.false_ne_true] at flag
  refine ⟨_, rfl, ?_⟩
  dsimp only
  unfold setSource
  cases request.work.ifentry.hwaddr with
  | none => exact flag
  | some hwaddr => exact flag

end Step

/-! ## Runs of one device -/

/-- A device that handles one request after the other, on whatever its file has then. -/
def exchangesFrom (order : ByteOrder) :
    Aoedev Aclhdr Iface → List (Request × List UInt8) → List Exchanged
  | _, [] => []
  | device, (request, store) :: rest =>
      (request, answer order device store request) ::
        exchangesFrom order (afterwards order device store request) rest

section Runs

variable {order : ByteOrder} {found device : Aoedev Aclhdr Iface}
  {requests : List (Request × List UInt8)}

theorem exchangesFrom_taken (valid : CfgLenValid device) (same : SameSetup found device)
    (taken : storedString device ≠ [])
    (keeps : ∀ request ∈ requests, KeepsToClaims order found request.1) :
    ∀ exchanged ∈ exchangesFrom order device requests, Loses order found exchanged ∧
      Shows order found (storedString device) exchanged := by
  induction requests generalizing device with
  | nil => exact List.forall_mem_nil _
  | cons first rest ih =>
      rw [List.forall_mem_cons] at keeps
      have string := (@afterwards_string _ order found device first.1 first.2 valid same keeps.1).1
        (.inr taken)
      have later := @ih (afterwards order device first.2 first.1) (afterwards_valid valid)
        (same.trans (qaoedProcesswork_sameSetup order _ _ _ _)) (string ▸ taken) keeps.2
      rw [string] at later
      rw [exchangesFrom, List.forall_mem_cons]
      exact ⟨⟨answer_loses valid same keeps.1 taken, answer_shows valid same keeps.1⟩, later⟩

theorem exchangesFrom_firstClaimWins (valid : CfgLenValid device) (same : SameSetup found device)
    (none : storedString device = [])
    (keeps : ∀ request ∈ requests, KeepsToClaims order found request.1) :
    FirstClaimWins order found (exchangesFrom order device requests) := by
  induction requests generalizing device with
  | nil => exact .unclaimed (List.forall_mem_nil _)
  | cons first rest ih =>
      rw [List.forall_mem_cons] at keeps
      have string := @afterwards_string _ order found device first.1 first.2 valid same keeps.1
      have valid' := @afterwards_valid _ order device first.1 first.2 valid
      have same' := same.trans (qaoedProcesswork_sameSetup order first.1.env device first.2 first.1.work)
      rw [exchangesFrom]
      by_cases claims : Claims order found first.1.work
      · have wins := @answer_wins _ order found device first.1 first.2 valid same keeps.1 claims none
        have set := string.2 claims none
        have later := exchangesFrom_taken valid' same' (set ▸ claims.some) keeps.2
        rw [set] at later
        exact .won (List.nil_append _).symm (List.forall_mem_nil _) wins later
      · have shows := @answer_shows _ order found device first.1 first.2 valid same keeps.1
        have here : ¬ Claims order found first.1.work ∧
            Shows order found [] (first.1, answer order device first.2 first.1) :=
          ⟨claims, none ▸ shows⟩
        cases ih valid' same' ((string.1 (.inl claims)).trans none) keeps.2 with
        | unclaimed all => exact .unclaimed (List.forall_mem_cons.mpr ⟨here, all⟩)
        | won split before wins after =>
            have whole := congrArg (List.cons (first.1, answer order device first.2 first.1)) split
            exact .won whole (List.forall_mem_cons.mpr ⟨here, before⟩) wins after

end Runs

/-! ## All threads -/

/-- What was handled by a device, and what was sent for it, in its order. -/
def Service.exchangesOf (state : Service Iface) (device : Nat) : List Exchanged :=
  ((state.handled.zip state.sent).filter fun pair => pair.1.device = device).map fun pair =>
    (pair.1.request, pair.2)

/-- The part of a device in the work of all. -/
theorem exchanges_outputs {order : ByteOrder} {site : Site Iface} {device : Nat}
    {found : Aoedev Aclhdr Iface} (there : site.devices[device]? = some found)
    (handled : List Handled) :
    ∃ requests, requests.map Prod.fst =
        (handled.filter fun handled => handled.device = device).map Handled.request ∧
      ((handled.zip ((serve order).outputs site (handled.map Handled.assigned))).filter
          fun pair => pair.1.device = device).map (fun pair => (pair.1.request, pair.2)) =
        exchangesFrom order found requests := by
  induction handled generalizing site found with
  | nil => exact ⟨[], rfl, rfl⟩
  | cons first rest ih =>
      rw [List.map_cons, Mealy.outputs_cons, List.zip_cons_cons]
      by_cases here : first.device = device
      · have next : ((serve order).next site first.assigned).devices[device]? =
            some (afterwards order found (site.files (target found)) first.request) := by
          obtain ⟨inside, _⟩ := List.getElem?_eq_some_iff.mp there
          unfold serve
          dsimp only [Handled.assigned]
          rw [here, there]
          exact List.getElem?_set_self inside
        obtain ⟨requests, sources, exchanged⟩ := ih next
        refine ⟨(first.request, site.files (target found)) :: requests, ?_, ?_⟩
        · rw [List.filter_cons_of_pos (by simpa using here), List.map_cons, List.map_cons, sources]
        · rw [List.filter_cons_of_pos (by simpa using here), List.map_cons, exchanged, exchangesFrom]
          unfold serve
          dsimp only [Handled.assigned]
          rw [here, there]
          rfl
      · have next : ((serve order).next site first.assigned).devices[device]? = some found := by
          unfold serve
          dsimp only [Handled.assigned]
          split
          · exact there
          · rw [← there]
            exact List.getElem?_set_ne here
        obtain ⟨requests, sources, exchanged⟩ := ih next
        refine ⟨requests, ?_, ?_⟩
        · rw [List.filter_cons_of_neg (by simpa using here), sources]
        · rw [List.filter_cons_of_neg (by simpa using here), exchanged]

/-- Where hosts set strings only if there are none, in frames that carry them, a device without a
string is won by the first claim that it handles, in any run of the server in which no worker is
woken with an empty queue: that claim is acknowledged, every later one is told that it failed, and
whoever asks is shown the string of the winner from then on, and none before. -/
theorem service_claimed (order : ByteOrder) (start : Site Iface) (listeners : Nat)
    (actions : List ServiceAction) (state : Service Iface)
    (wakes : EveryStep (serviceStep order) WakesForWork (serviceStart start listeners) actions)
    (reached : runSteps (serviceStep order) (serviceStart start listeners) actions = some state)
    (device : Nat) (found : Aoedev Aclhdr Iface) (there : start.devices[device]? = some found)
    (unset : found.cfgLen = 0)
    (keeps : ∀ handled ∈ state.handled, handled.device = device →
      KeepsToClaims order found handled.request) :
    FirstClaimWins order found (state.exchangesOf device) := by
  have inv := service_reached order start listeners actions state wakes reached
  obtain ⟨requests, sources, exchanged⟩ := @exchanges_outputs _ order _ _ _ there state.handled
  rw [Service.exchangesOf, inv.sent, exchanged]
  have valid : CfgLenValid found := by
    rw [CfgLenValid, unset]
    decide
  refine exchangesFrom_firstClaimWins valid (SameSetup.refl found)
    ((storedString_eq_nil_iff valid).mpr unset) fun request member => ?_
  have source := sources ▸ List.mem_map_of_mem (f := Prod.fst) member
  obtain ⟨handled, inHandled, same⟩ := List.mem_map.mp source
  obtain ⟨known, here⟩ := List.mem_filter.mp inHandled
  rw [← same]
  exact keeps handled known (by simpa using here)

/-- A claim for the second device, with one byte for a string. -/
def claimEntry (host : UInt8) : Workentry where
  aoepkt := fun index =>
    ([0, 0, 0, 0, 0, 0, 2, 0, 0, 0, 0, host, 0x88, 0xa2, 0x10, 0, 0, 1, 2, 1, 0, 0, 0, 7,
      0, 0, 0, 0, 0, 0x13, 0, 1, host][index]?).getD 0
  packetLen := 33
  ifentry := ⟨[], none, 1500, 1518, none⟩

/-- Two hosts claim on two interfaces. -/
def claimRun : List ServiceAction :=
  [.arrive 0 (claimEntry 97), .arrive 1 (claimEntry 98), .insert 1 0, .insert 0 1, .finish 0,
    .finish 1, .turn 1 .lock, .turn 1 .unlink, .process 1 silent, .turn 1 .lock, .turn 1 .unlink,
    .process 1 silent]

/-- The host that is queued first wins. -/
theorem service_claimed_twoHosts :
    ∃ state, runSteps (serviceStep .little) (serviceStart twoSlots 2) claimRun = some state ∧
      (state.exchangesOf 1).map (fun exchanged => exchanged.1.work) = [claimEntry 98, claimEntry 97] ∧
      FirstClaimWins .little { oneSector.dev with slot := 2 } (state.exchangesOf 1) := by
  have runs : (runSteps (serviceStep .little) (serviceStart twoSlots 2) claimRun).map
      (fun state => (state.handled, (state.exchangesOf 1).map fun exchanged => exchanged.1.work)) =
        some ([⟨1, 1, ⟨claimEntry 98, silent⟩⟩, ⟨1, 0, ⟨claimEntry 97, silent⟩⟩],
          [claimEntry 98, claimEntry 97]) := rfl
  obtain ⟨state, reached, both⟩ := Option.map_eq_some_iff.mp runs
  obtain ⟨handled, exchanged⟩ := Prod.mk.inj both
  have wakes (action : ServiceAction) (member : action ∈ claimRun) (state : Service Unit) :
      WakesForWork state action := by
    simp only [claimRun, List.mem_cons, List.not_mem_nil, or_false] at member
    rcases member with rfl | rfl | rfl | rfl | rfl | rfl | rfl | rfl | rfl | rfl | rfl | rfl
    all_goals trivial
  have keeps (host : UInt8) (known : host ∈ [97, 98]) :
      KeepsToClaims .little { oneSector.dev with slot := 2 } ⟨claimEntry host, silent⟩ := by
    intro _
    have facts : ∀ host ∈ ([97, 98] : List UInt8),
        ((claimEntry host).cfg .little).stringLength .little = 1 ∧
          ((claimEntry host).cfg .little).command = aoeCfgSetIfEmpty :=
      List.forall_mem_cons.mpr ⟨⟨rfl, rfl⟩, List.forall_mem_singleton.mpr ⟨rfl, rfl⟩⟩
    obtain ⟨length, command⟩ := facts host known
    refine ⟨?_, fun set => ?_⟩
    · rw [CarriesString, length]
      exact Int.le_refl 33
    · rw [command] at set
      exact absurd set (by decide)
  refine ⟨state, reached, exchanged, service_claimed .little twoSlots 2 claimRun state
    (everyStep_of_always wakes) reached 1 _ rfl rfl ?_⟩
  intro known member _
  rw [handled] at member
  rcases List.mem_pair.mp member with rfl | rfl
  · exact keeps 98 (by decide)
  · exact keeps 97 (by decide)

end Qaoed.Network
