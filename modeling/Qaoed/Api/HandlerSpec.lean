import Qaoed.Api.Handlers
import Qaoed.Config.LoadSpec

/-!
# What adding and removing a target can do

A request to remove a target is refused, or takes the one device it selects out of
the list. A request to add one leaves the list alone, or puts a device at its end
that was started and clashes with no other.
-/

namespace Qaoed.Api

open Qaoed.Device
open Qaoed.Library
open Qaoed.Config

/-! ## Removing -/

theorem unlinkSelected_eq (selects : Devconf → Bool) (devices : List Devconf) :
    unlinkSelected selects devices = (devices.filter fun device => !selects device, none) := by
  induction devices with
  | nil => rfl
  | cons device next ih =>
      rw [unlinkSelected, ih]
      cases selected : selects device with
      | true => rw [List.filter_cons_of_neg (by simp [selected])]; rfl
      | false => rw [List.filter_cons_of_pos (by simp [selected])]; rfl

/-- The configuration without the devices that a request selects. -/
def without (conf : Conf) (target : TargetInfo) : Conf :=
  { conf with devices := conf.devices.filter fun device => !target.selects conf.intlist device }

/-- The number of devices that a request selects. -/
def matching (conf : Conf) (target : TargetInfo) : Nat :=
  conf.devices.countP (target.selects conf.intlist)

section Del

variable {env : ApiEnv} {conf : Conf} {target : TargetInfo}

theorem processTargetDel_refused (number : matching conf target ≠ 1) :
    processTargetDel env conf target =
      ⟨conf, writeLocked .devlistlock, [.header .failure], none⟩ := by
  unfold matching at number
  unfold processTargetDel
  dsimp only
  split_ifs with several none failed
  · rfl
  · rfl
  · omega
  · omega

/-- The device that is selected is unlinked before anything can fail. -/
theorem processTargetDel_selected (number : matching conf target = 1) :
    processTargetDel env conf target =
      if env.cancel = -1 then
        ⟨without conf target, writeLocked .devlistlock, [.header .failure], none⟩
      else ⟨without conf target, writeLocked .devlistlock, [], some .crash⟩ := by
  unfold matching at number
  unfold processTargetDel
  dsimp only
  rw [if_neg (by omega), if_neg (by omega), unlinkSelected_eq]
  rfl

end Del

/-! ## Starting a device -/

def raised (position : Nat) (intlist : List Interface) : List Interface :=
  intlist.modify position fun interface => { interface with refcnt := interface.refcnt + 1 }

section Start

variable {env : StartEnv} {device : Devconf} {intlist intlist' : List Interface}

theorem intref_eq_ok {step : Int} {interface : Option Nat} :
    intref step interface intlist = .ok intlist' ↔ ∃ position, interface = some position ∧
      intlist.modify position (fun interface => { interface with refcnt := interface.refcnt + step }) =
        intlist' := by
  rw [intref, follow_eq_ok]
  simp only [Except.ok.injEq]

/-- The worker runs and its interface counts it, or nothing has changed. -/
theorem qaoedStartworker_spec {started : Bool}
    (returns : qaoedStartworker env device intlist = .ok (started, intlist')) :
    (started = false ∧ intlist' = intlist) ∨
      ∃ position, device.interface = some position ∧ started = true ∧
        intlist' = raised position intlist := by
  unfold qaoedStartworker at returns
  split_ifs at returns with mutex cond created
  · cases returns
    exact Or.inl ⟨rfl, rfl⟩
  · cases returns
    exact Or.inl ⟨rfl, rfl⟩
  · obtain ⟨up, raises, returned⟩ := bind_eq_ok.mp returns
    cases returned
    obtain ⟨position, attached, rfl⟩ := intref_eq_ok.mp raises
    exact Or.inr ⟨position, attached, rfl, rfl⟩
  · obtain ⟨up, raises, returns⟩ := bind_eq_ok.mp returns
    obtain ⟨down, lowers, returned⟩ := bind_eq_ok.mp returns
    cases returned
    obtain ⟨position, attached, rfl⟩ := intref_eq_ok.mp raises
    obtain ⟨position', attached', rfl⟩ := intref_eq_ok.mp lowers
    rw [attached] at attached'
    cases attached'
    refine Or.inl ⟨rfl, ?_⟩
    apply List.ext_getElem?
    intro index
    rw [List.getElem?_modify, List.getElem?_modify]
    cases intlist[index]? with
    | none => rfl
    | some interface => by_cases here : position = index <;> simp [here]

theorem qaoedStartdevice_spec {result : Option Devconf}
    (returns : qaoedStartdevice env device intlist = .ok (result, intlist')) :
    (result = none ∧ intlist' = intlist) ∨
      ∃ position size, device.interface = some position ∧
        result = some { device with size := size } ∧ intlist' = raised position intlist := by
  unfold qaoedStartdevice at returns
  split_ifs at returns with unnamed opens fdopens
  · cases returns
    exact Or.inl ⟨rfl, rfl⟩
  · cases returns
    exact Or.inl ⟨rfl, rfl⟩
  · cases returns
    exact Or.inl ⟨rfl, rfl⟩
  · split at returns
    · cases returns
      exact Or.inl ⟨rfl, rfl⟩
    · obtain ⟨⟨started, intlist''⟩, worker, returned⟩ := bind_eq_ok.mp returns
      cases returned
      rcases qaoedStartworker_spec worker with ⟨rfl, rfl⟩ | ⟨position, attached, rfl, rfl⟩
      · exact Or.inl ⟨rfl, rfl⟩
      · exact Or.inr ⟨position, _, attached, rfl, rfl⟩

/-- All that is asked of the system before the worker is started is granted. -/
def StartEnv.reachesWorker (env : StartEnv) : Bool :=
  env.opens && env.fdopens && env.stat.isSome && env.mutexInit && env.condInit

/-- The size of what a device exports. -/
def StartEnv.exported (env : StartEnv) : Int :=
  match env.stat with
  | none => 0
  | some fstat =>
      match fstat with
      | .blk => env.mediasize
      | .chr => env.mediasize
      | .other stSize => stSize / 512

/-- The interface is counted up in front of the worker, and down again without it. -/
theorem qaoedStartdevice_eq (named : device.devicename.isSome = true) :
    qaoedStartdevice env device intlist =
      if env.reachesWorker then do
        let raised ← qaoedIntrefup device.interface intlist
        if env.threadCreated then return (some { device with size := env.exported }, raised)
        else
          let lowered ← qaoedIntrefdown device.interface raised
          return (none, lowered)
      else .ok (none, intlist) := by
  have name : device.devicename.isNone = false := by
    rw [Option.isNone_eq_false_iff]
    exact named
  unfold qaoedStartdevice qaoedStartworker StartEnv.reachesWorker StartEnv.exported
  rw [name]
  cases env.opens with
  | false => rfl
  | true =>
      cases env.fdopens with
      | false => rfl
      | true =>
          cases env.stat with
          | none => rfl
          | some fstat =>
              cases env.mutexInit with
              | false => rfl
              | true =>
                  cases env.condInit with
                  | false => rfl
                  | true =>
                      dsimp only
                      cases device.interface with
                      | none => rfl
                      | some position =>
                          cases env.threadCreated with
                          | true => rfl
                          | false => rfl

/-- A device without an interface takes the daemon down when its worker is started. -/
theorem qaoedStartdevice_unattached (named : device.devicename.isSome = true)
    (unattached : device.interface = none) :
    qaoedStartdevice env device intlist =
      if env.reachesWorker then .error .crash else .ok (none, intlist) := by
  rw [qaoedStartdevice_eq named, unattached]
  rfl

theorem qaoedStartdevice_attached {position : Nat} (named : device.devicename.isSome = true)
    (attached : device.interface = some position) :
    ∃ intlist', qaoedStartdevice env device intlist =
      .ok (if env.reachesWorker && env.threadCreated then some { device with size := env.exported }
        else none, intlist') := by
  rw [qaoedStartdevice_eq named, attached]
  cases env.reachesWorker with
  | false => exact ⟨_, rfl⟩
  | true =>
      cases env.threadCreated with
      | false => exact ⟨_, rfl⟩
      | true => exact ⟨_, rfl⟩

/-- The answers for a device, with that of `qaoed_startworker` as a whole. -/
def StartEnv.withWorker (env : StartEnv) : Device.StartEnv :=
  ⟨env.opens, env.fdopens, env.stat, env.mediasize,
    env.mutexInit && env.condInit && env.threadCreated⟩

/-- Starting a device of an interface is starting the device. -/
theorem qaoedStartdevice_agrees {position : Nat} (attached : device.interface = some position) :
    ∃ intlist', qaoedStartdevice env device intlist =
      .ok (if (Device.qaoedStartdevice env.withWorker false device.toAoedev).ret = 0 then
          some { device with
            toAoedev := (Device.qaoedStartdevice env.withWorker false device.toAoedev).dev }
        else none, intlist') := by
  unfold Device.qaoedStartdevice StartEnv.withWorker
  cases name : device.devicename with
  | none =>
      refine ⟨intlist, ?_⟩
      unfold qaoedStartdevice
      rw [name]
      rfl
  | some devicename =>
      have named : device.devicename.isSome = true := by rw [name]; rfl
      obtain ⟨intlist', starts⟩ : ∃ intlist', qaoedStartdevice env device intlist = _ :=
        qaoedStartdevice_attached named attached
      refine ⟨intlist', starts.trans ?_⟩
      unfold StartEnv.reachesWorker StartEnv.exported
      cases env.opens with
      | false => rfl
      | true =>
          cases env.fdopens with
          | false => rfl
          | true =>
              cases env.stat with
              | none => rfl
              | some fstat =>
                  cases env.mutexInit with
                  | false => rfl
                  | true =>
                      cases env.condInit with
                      | false => rfl
                      | true =>
                          cases env.threadCreated with
                          | false => rfl
                          | true =>
                              rw [name]
                              rfl

end Start

/-! ## Adding -/

/-- The new device has got its default values, and clashes with no other one. -/
structure Checked (env : ApiEnv) (conf : Conf) (target : TargetInfo) (newdevice : Devconf)
    (devdefault : Option Devconf) : Prop where
  malloc : env.malloc = true
  defaults : qaoedDevdefaults conf.loglist conf.devdefault (newDevice conf.intlist target) =
    .ok (newdevice, devdefault)
  free : slotTaken newdevice conf.devices = .ok false

/-- Behind the checks all depends on the start of the device. -/
theorem Checked.handled {env : ApiEnv} {conf : Conf} {target : TargetInfo} {newdevice : Devconf}
    {devdefault : Option Devconf} (checked : Checked env conf target newdevice devdefault) :
    processTargetAdd env conf target =
      let conf := { conf with devdefault := devdefault }
      match qaoedStartdevice env.start newdevice conf.intlist with
      | .error stop => ⟨conf, readLocked .devlistlock, [], some stop⟩
      | .ok (none, intlist) =>
          ⟨{ conf with intlist := intlist }, readLocked .devlistlock,
            [⟨.failure, sizeofTargetInfo, sizeofTargetInfo, .target target⟩], none⟩
      | .ok (some newdevice, intlist) =>
          let conf := { conf with devices := conf.devices ++ [newdevice], intlist := intlist }
          let locks := readLocked .devlistlock ++ writeLocked .devlistlock
          match targetInfo intlist newdevice with
          | .error stop => ⟨conf, locks, [], some stop⟩
          | .ok target =>
              ⟨conf, locks, [⟨.allok, sizeofTargetInfo, sizeofTargetInfo, .target target⟩], none⟩ := by
  unfold processTargetAdd
  rw [checked.malloc, Bool.not_true, if_neg Bool.false_ne_true, checked.defaults]
  dsimp only
  rewrite [checked.free]
  rfl

/-- What a request that succeeds does: the new device passed the checks and was started. -/
structure Adds (env : ApiEnv) (conf : Conf) (target : TargetInfo) (conf' : Conf) (added : Devconf)
    (position : Nat) : Prop where
  attached : added.interface = some position
  started : ∃ newdevice size devdefault, added = { newdevice with size := size } ∧
    Checked env conf target newdevice devdefault ∧
    conf' = { conf with
      devdefault := devdefault
      devices := conf.devices ++ [added]
      intlist := raised position conf.intlist }

/-- What a request that does not succeed leaves: at most the default device has changed. -/
structure Leaves (conf conf' : Conf) : Prop where
  devices : conf'.devices = conf.devices
  intlist : conf'.intlist = conf.intlist
  acllist : conf'.acllist = conf.acllist
  loglist : conf'.loglist = conf.loglist
  interface : conf'.devdefault.map (fun dflt => dflt.interface) =
    conf.devdefault.map fun dflt => dflt.interface

theorem processTargetAdd_cases (env : ApiEnv) (conf : Conf) (target : TargetInfo) :
    Leaves conf (processTargetAdd env conf target).conf ∨
      ∃ added position, Adds env conf target (processTargetAdd env conf target).conf added position := by
  unfold processTargetAdd
  dsimp only
  split
  · exact Or.inl ⟨rfl, rfl, rfl, rfl, rfl⟩
  · next granted =>
      split
      · exact Or.inl ⟨rfl, rfl, rfl, rfl, rfl⟩
      · next newdevice devdefault defaults =>
          have same := (qaoedDevdefaults_interface defaults).2
          split
          · exact Or.inl ⟨rfl, rfl, rfl, rfl, same⟩
          · exact Or.inl ⟨rfl, rfl, rfl, rfl, same⟩
          · next free =>
              have checked : Checked env conf target newdevice devdefault :=
                ⟨by simpa using granted, defaults, free⟩
              split
              · exact Or.inl ⟨rfl, rfl, rfl, rfl, same⟩
              · next intlist fails =>
                  rcases qaoedStartdevice_spec fails with ⟨_, unchanged⟩ | ⟨_, _, _, none, _⟩
                  · exact Or.inl ⟨rfl, unchanged, rfl, rfl, same⟩
                  · cases none
              · next added intlist starts =>
                  rcases qaoedStartdevice_spec starts with
                    ⟨none, _⟩ | ⟨position, size, attached, device, rfl⟩
                  · cases none
                  · cases device
                    right
                    split
                    · exact ⟨{ newdevice with size := size }, position, attached, newdevice, size,
                        devdefault, rfl, checked, rfl⟩
                    · exact ⟨{ newdevice with size := size }, position, attached, newdevice, size,
                        devdefault, rfl, checked, rfl⟩

end Qaoed.Api
