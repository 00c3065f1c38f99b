import Qaoed.Api.InterfaceCounts

/-!
# What a refused target leaves behind

A target can be refused because of its address, its file or its worker. By then the
default device has given the target the values it lacks, and counts on.
-/

namespace Qaoed.Api

open Qaoed.Device
open Qaoed.Library
open Qaoed.Config

/-- What a request to add a target could have changed is as it was. -/
structure Unchanged (conf conf' : Conf) : Prop where
  devices : conf'.devices = conf.devices
  refcnts : conf'.intlist.map (fun interface => interface.refcnt) =
    conf.intlist.map fun interface => interface.refcnt
  devdefault : conf'.devdefault = conf.devdefault

/-- A device has been put at the end of the list. -/
def Added (conf conf' : Conf) : Prop := ∃ added, conf'.devices = conf.devices ++ [added]

/-- The request lacks a slot and there is a default device to supply it. The handler gets
there if it has memory for the new device, and finds a logging target for it. -/
structure TakesSlot (env : ApiEnv) (conf : Conf) (target : TargetInfo) : Prop where
  malloc : env.malloc = true
  missing : target.slot = 0xff
  dflt : ∃ dflt, conf.devdefault = some dflt ∧
    (dflt.log = none → ∃ log, referencelog (text "default") conf.loglist = .ok log)

section Refused

variable {env : ApiEnv} {conf : Conf} {target : TargetInfo}

theorem devdefaults_returns_iff {dflt : Devconf} (has : conf.devdefault = some dflt) :
    (∃ result, qaoedDevdefaults conf.loglist conf.devdefault (newDevice conf.intlist target) =
        .ok result) ↔
      (dflt.log = none → ∃ log, referencelog (text "default") conf.loglist = .ok log) := by
  rw [has]
  constructor
  · rintro ⟨result, returns⟩ unset
    obtain ⟨log, found, _⟩ := map_eq_ok.mp returns
    have missing : (Config.inherited dflt (newDevice conf.intlist target)).log.isNone = true := by
      rw [Config.inherited, unset]
      rfl
    rw [Option.map_some, Option.getD_some, if_pos missing] at found
    exact ⟨log, found⟩
  · intro lookup
    cases unset : dflt.log with
    | none =>
        obtain ⟨log, found⟩ := lookup unset
        exact qaoedDevdefaults_returns found
    | some log =>
        refine ⟨_, map_eq_ok.mpr ⟨none, if_neg ?_, rfl⟩⟩
        rw [Option.map_some, Option.getD_some, Config.inherited, unset]
        exact Bool.false_ne_true

/-- Whatever comes after the default values, it leaves the default device alone. -/
theorem processTargetAdd_devdefault (malloc : env.malloc = true) {newdevice : Devconf}
    {devdefault : Option Devconf}
    (defaults : qaoedDevdefaults conf.loglist conf.devdefault (newDevice conf.intlist target) =
      .ok (newdevice, devdefault)) :
    (processTargetAdd env conf target).conf.devdefault = devdefault := by
  unfold processTargetAdd
  rw [malloc, Bool.not_true, if_neg Bool.false_ne_true, defaults]
  dsimp only
  split
  · rfl
  · rfl
  · split
    · rfl
    · rfl
    · split <;> rfl

theorem processTargetAdd_unsupplied
    (fails : env.malloc = false ∨ ∃ stop,
      qaoedDevdefaults conf.loglist conf.devdefault (newDevice conf.intlist target) = .error stop) :
    (processTargetAdd env conf target).conf = conf := by
  unfold processTargetAdd
  rcases fails with malloc | ⟨stop, stops⟩
  · rw [malloc]
    rfl
  · rw [stops]
    split <;> rfl

theorem slot_counted (dflt : Devconf) : { dflt with slot := dflt.slot + 1 } ≠ dflt := by
  intro same
  have slots : dflt.slot + 1 = dflt.slot := congrArg (fun device => device.slot) same
  simp at slots

/-- The default device has changed exactly if it was asked for a slot. -/
theorem devdefault_kept_iff :
    (processTargetAdd env conf target).conf.devdefault = conf.devdefault ↔
      ¬ TakesSlot env conf target := by
  by_cases malloc : env.malloc = true
  · cases defaults : qaoedDevdefaults conf.loglist conf.devdefault (newDevice conf.intlist target) with
    | error stop =>
        rw [processTargetAdd_unsupplied (Or.inr ⟨stop, defaults⟩)]
        refine iff_of_true rfl ?_
        rintro ⟨_, _, dflt, has, lookup⟩
        obtain ⟨result, returns⟩ := (devdefaults_returns_iff has).mpr lookup
        rw [defaults] at returns
        cases returns
    | ok result =>
        obtain ⟨newdevice, devdefault⟩ := result
        rw [processTargetAdd_devdefault malloc defaults, qaoedDevdefaults_counted defaults]
        cases has : conf.devdefault with
        | none =>
            refine iff_of_true rfl ?_
            rintro ⟨_, _, dflt, some, _⟩
            rw [has] at some
            cases some
        | some dflt =>
            rw [Option.map_some, Option.some.injEq]
            by_cases missing : target.slot = 0xff
            · rw [newDevice, if_pos missing]
              refine iff_of_false (slot_counted dflt) fun keeps => keeps ⟨malloc, missing, dflt, has, ?_⟩
              exact (devdefaults_returns_iff has).mp ⟨_, defaults⟩
            · rw [newDevice, if_neg missing]
              exact iff_of_true rfl fun takes => missing takes.missing
  · rw [processTargetAdd_unsupplied (Or.inl (Bool.eq_false_iff.mpr malloc))]
    exact iff_of_true rfl fun takes => malloc takes.malloc

end Refused

/-- A request that does not add its target leaves everything as it was, except that it
has used up a slot of the default device if it asked for one. -/
theorem refusedTarget_unchanged_iff (env : ApiEnv) (conf : Conf) (target : TargetInfo)
    (refused : ¬ Added conf (processTargetAdd env conf target).conf) :
    Unchanged conf (processTargetAdd env conf target).conf ↔ ¬ TakesSlot env conf target := by
  rw [← devdefault_kept_iff]
  constructor
  · exact Unchanged.devdefault
  · intro kept
    rcases processTargetAdd_cases env conf target with leaves | ⟨added, position, adds⟩
    · exact ⟨leaves.devices, by rw [leaves.intlist], kept⟩
    · obtain ⟨_, _, _, _, _, same⟩ := adds.started
      refine absurd ⟨added, ?_⟩ refused
      rw [same]

/-- The target of a configuration, with a default device next to it. -/
def defaultTarget : Conf :=
  { oneTarget with devdefault := some { blankDEV with shelf := 1, slot := 7, interface := some 0 } }

/-- The system does not open files. -/
def unopenedEnv : ApiEnv := { grantingEnv with start := { grantingEnv.start with opens := false } }

theorem not_added_of_length {conf conf' : Conf}
    (same : conf'.devices.length = conf.devices.length) : ¬ Added conf conf' := by
  rintro ⟨added, longer⟩
  rw [longer, List.length_append] at same
  simp at same

theorem refusedTarget_unchanged_iff_defaultTarget :
    Unchanged defaultTarget
      (processTargetAdd unopenedEnv defaultTarget (slotRequest 1 2 "eth0")).conf := by
  refine (refusedTarget_unchanged_iff unopenedEnv defaultTarget (slotRequest 1 2 "eth0")
    (not_added_of_length rfl)).mpr ?_
  intro takes
  exact absurd takes.missing (by decide)

/-- The file of the target cannot be opened, and slot 7 is gone. -/
theorem refusedTarget_usesSlot :
    (¬ Added defaultTarget
      (processTargetAdd unopenedEnv defaultTarget (slotRequest 1 0xff "eth0")).conf) ∧
    ¬ Unchanged defaultTarget
      (processTargetAdd unopenedEnv defaultTarget (slotRequest 1 0xff "eth0")).conf := by
  refine ⟨not_added_of_length rfl, ?_⟩
  intro unchanged
  have slots := congrArg (fun dflt => dflt.map fun device => device.slot) unchanged.devdefault
  exact absurd slots (by decide)

end Qaoed.Api
