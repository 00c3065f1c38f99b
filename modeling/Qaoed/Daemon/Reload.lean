import Qaoed.Library.Mealy

/-!
# Reloading the configuration

On a SIGHUP the daemon loads its configuration again and starts it in place of the one
that runs. The handler ignores further signals for the time it takes. The threads of a
configuration may use it at any time after it has been started: the API thread is never
asked to end, and the device threads are not waited for.
-/

namespace Qaoed.Daemon

open Qaoed.Library

/-! ## The handler -/

/-- What starting the devices and the listeners of a configuration returns. -/
structure Starting where
  devices : Int
  network : Int
  deriving DecidableEq, Repr

/-- The result of `qaoed_startup`. Whether the API starts does not matter. -/
def qaoedStartup (starting : Starting) : Int :=
  if starting.devices = -1 then -1
  else if starting.network = -1 then -1
  else 0

/-- What a run of the handler meets with. -/
structure Reloading where
  /-- The file can be loaded. -/
  loads : Bool
  /-- The listeners of the running configuration can all be cancelled. -/
  stopsOld : Bool
  new : Starting
  /-- Those of the new one can, when it has failed to start. -/
  stopsNew : Bool
  old : Starting
  deriving DecidableEq, Repr

inductive Event where
  | accessed (config : Nat)
  | destroyed (config : Nat)
  deriving DecidableEq, Repr

/-- What a SIGHUP does. -/
inductive Disposition where
  | handled
  | ignored
  deriving DecidableEq, Repr

/-- Configurations are numbered as they are loaded. -/
structure State where
  sighup : Disposition
  curcfg : Nat
  loaded : Nat
  /-- The configurations for which threads have been started. -/
  started : List Nat
  history : List Event
  exited : Bool
  deriving DecidableEq, Repr

namespace State

def signal (state : State) (disposition : Disposition) : State :=
  { state with sighup := disposition }

def access (state : State) (config : Nat) : State :=
  { state with history := state.history ++ [.accessed config] }

def loadconfig (state : State) : State := { state with loaded := state.loaded + 1 }

def startup (state : State) (config : Nat) : State :=
  { state.access config with started := config :: state.started }

/-- `qaoed_shutdown` ends the process if a listener cannot be cancelled. -/
def shutdown (state : State) (config : Nat) (stops : Bool) : State :=
  { state.access config with exited := !stops }

def destroyqcfg (state : State) (config : Nat) : State :=
  { state.access config with history := (state.access config).history ++ [.destroyed config] }

/-- The new configuration has started. -/
def switch (state : State) (conf : Nat) : State :=
  { ((state.access state.curcfg).access conf).destroyqcfg state.curcfg with curcfg := conf }

/-- What has started of the new configuration has been stopped. -/
def revert (state : State) (conf : Nat) (old : Starting) : State :=
  let restarted := (state.destroyqcfg conf).startup state.curcfg
  -- The success is logged to the configuration that has just been destroyed.
  if qaoedStartup old = 0 then restarted.access conf
  else restarted.access state.curcfg

end State

def sighuphandler (reloading : Reloading) (state : State) : State :=
  let asked := (state.signal .ignored).access state.curcfg
  if reloading.loads then
    let conf := state.loaded
    let stopped := asked.loadconfig.shutdown state.curcfg reloading.stopsOld
    if stopped.exited then stopped
    else
      let started := stopped.startup conf
      if qaoedStartup reloading.new = 0 then (started.switch conf).signal .handled
      else
        let stopped := ((started.access state.curcfg).access conf).shutdown conf reloading.stopsNew
        if stopped.exited then stopped
        else (stopped.revert conf reloading.old).signal .handled
  -- This way out leaves the signal ignored.
  else asked.access state.curcfg

/-- What happens to the daemon. -/
inductive Input where
  | sighup (reloading : Reloading)
  /-- A thread that was started for a configuration uses it. -/
  | thread (config : Nat)
  deriving DecidableEq, Repr

def State.next (state : State) (input : Input) : State :=
  if state.exited then state
  else
    match input with
    | .sighup reloading =>
        match state.sighup with
        | .handled => sighuphandler reloading state
        | .ignored => state
    | .thread config => if config ∈ state.started then state.access config else state

def daemon : Mealy State Input Unit where
  next := State.next
  out _ _ := ()

def State.Destroyed (state : State) (config : Nat) : Prop := .destroyed config ∈ state.history

/-- No configuration has been accessed after it was destroyed. -/
def State.Clean (state : State) : Prop :=
  state.history.Pairwise fun earlier later =>
    ∀ config, earlier = .destroyed config → later ≠ .accessed config

/-- The configuration that is to run after the step. -/
def State.wanted (state : State) : Input → Nat
  | .sighup reloading =>
      if reloading.loads = true ∧ qaoedStartup reloading.new = 0 then state.loaded else state.curcfg
  | .thread _ => state.curcfg

/-- A SIGHUP is handled well if the new configuration starts, or if neither it nor the old
one does. No thread is to use a configuration that is not the current one. -/
def State.Allows (state : State) : Input → Prop
  | .sighup reloading =>
      reloading.loads = true ∧ reloading.stopsOld = true ∧
        (qaoedStartup reloading.new = 0 ∨
          reloading.stopsNew = true ∧ qaoedStartup reloading.old ≠ 0)
  | .thread config => config ∈ state.started → config = state.curcfg

/-! ## Accesses -/

namespace State

section Accesses

variable (state : State) (config other : Nat)

@[simp] theorem clean_access :
    (state.access config).Clean ↔ state.Clean ∧ ¬ state.Destroyed config := by
  unfold Clean Destroyed access
  rw [List.pairwise_append]
  constructor
  · rintro ⟨clean, _, apart⟩
    refine ⟨clean, ?_⟩
    intro gone
    exact apart (.destroyed config) gone (.accessed config) (List.mem_singleton_self _) config
      rfl rfl
  · rintro ⟨clean, kept⟩
    refine ⟨clean, List.pairwise_singleton _ _, ?_⟩
    rintro earlier before later here gone rfl accessed
    rw [List.mem_singleton.mp here] at accessed
    cases accessed
    exact kept before

@[simp] theorem destroyed_access :
    (state.access config).Destroyed other ↔ state.Destroyed other := by
  unfold Destroyed access
  rw [List.mem_append, List.mem_singleton]
  constructor
  · rintro (before | same)
    · exact before
    · cases same
  · exact Or.inl

@[simp] theorem clean_destroyqcfg :
    (state.destroyqcfg config).Clean ↔ state.Clean ∧ ¬ state.Destroyed config := by
  rw [← clean_access state config]
  unfold Clean destroyqcfg
  rw [List.pairwise_append]
  constructor
  · rintro ⟨clean, _, _⟩
    exact clean
  · intro clean
    refine ⟨clean, List.pairwise_singleton _ _, ?_⟩
    rintro earlier _ later here gone _ accessed
    rw [List.mem_singleton.mp here] at accessed
    cases accessed

@[simp] theorem destroyed_destroyqcfg :
    (state.destroyqcfg config).Destroyed other ↔ state.Destroyed other ∨ other = config := by
  rw [← destroyed_access state config other]
  unfold Destroyed destroyqcfg
  rw [List.mem_append, List.mem_singleton, Event.destroyed.injEq]

/-! Starting and stopping a configuration accesses it. Nothing else in the handler counts. -/

@[simp] theorem clean_startup :
    (state.startup config).Clean ↔ state.Clean ∧ ¬ state.Destroyed config :=
  clean_access state config

@[simp] theorem destroyed_startup :
    (state.startup config).Destroyed other ↔ state.Destroyed other :=
  destroyed_access state config other

@[simp] theorem clean_shutdown (stops : Bool) :
    (state.shutdown config stops).Clean ↔ state.Clean ∧ ¬ state.Destroyed config :=
  clean_access state config

@[simp] theorem destroyed_shutdown (stops : Bool) :
    (state.shutdown config stops).Destroyed other ↔ state.Destroyed other :=
  destroyed_access state config other

@[simp] theorem clean_signal (disposition : Disposition) :
    (state.signal disposition).Clean ↔ state.Clean := Iff.rfl

@[simp] theorem destroyed_signal (disposition : Disposition) :
    (state.signal disposition).Destroyed other ↔ state.Destroyed other := Iff.rfl

@[simp] theorem clean_loadconfig : state.loadconfig.Clean ↔ state.Clean := Iff.rfl

@[simp] theorem destroyed_loadconfig :
    state.loadconfig.Destroyed other ↔ state.Destroyed other := Iff.rfl

theorem clean_switch : (state.switch config).Clean ↔
    state.Clean ∧ ¬ state.Destroyed state.curcfg ∧ ¬ state.Destroyed config := by
  apply (clean_destroyqcfg ((state.access state.curcfg).access config) state.curcfg).trans
  simp only [clean_access, destroyed_access]
  constructor
  · rintro ⟨⟨⟨clean, current⟩, new⟩, _⟩
    exact ⟨clean, current, new⟩
  · rintro ⟨clean, current, new⟩
    exact ⟨⟨⟨clean, current⟩, new⟩, current⟩

theorem destroyed_switch :
    (state.switch config).Destroyed other ↔ state.Destroyed other ∨ other = state.curcfg := by
  apply (destroyed_destroyqcfg ((state.access state.curcfg).access config) state.curcfg other).trans
  simp only [destroyed_access]

theorem revert_eq {old : Starting} (fails : qaoedStartup old ≠ 0) :
    state.revert config old =
      ((state.destroyqcfg config).startup state.curcfg).access state.curcfg := by
  unfold revert
  rw [if_neg fails]

end Accesses

end State

/-! ## The ways through the handler -/

section Handler

variable {reloading : Reloading} {state : State}

/-- The state in which it turns out whether the new configuration starts. -/
def State.prepared (state : State) : State :=
  ((((state.signal .ignored).access state.curcfg).loadconfig).shutdown state.curcfg true).startup
    state.loaded

/-- The state in which the handler turns back to the old configuration. -/
def State.failed (state : State) : State :=
  ((state.prepared.access state.curcfg).access state.loaded).shutdown state.loaded true

theorem sighuphandler_switches (loads : reloading.loads = true) (stops : reloading.stopsOld = true)
    (starts : qaoedStartup reloading.new = 0) :
    sighuphandler reloading state = (state.prepared.switch state.loaded).signal .handled := by
  unfold sighuphandler
  rw [loads, stops, starts]
  rfl

theorem sighuphandler_reverts (loads : reloading.loads = true)
    (stops : reloading.stopsOld = true) (fails : qaoedStartup reloading.new ≠ 0)
    (stopsNew : reloading.stopsNew = true) :
    sighuphandler reloading state =
      (state.failed.revert state.loaded reloading.old).signal .handled := by
  unfold sighuphandler
  rw [loads, stops, stopsNew]
  dsimp only
  rw [if_neg fails]
  rfl

end Handler

/-! ## Between two signals -/

/-- How a reload that has gone well leaves the daemon. -/
structure State.Steady (state : State) : Prop where
  running : state.exited = false
  installed : state.sighup = .handled
  clean : state.Clean
  current : ¬ state.Destroyed state.curcfg
  known : state.curcfg < state.loaded
  fresh : ∀ config, state.Destroyed config → config < state.loaded
  /-- What has been started and is not the current configuration has been destroyed. -/
  replaced : ∀ config ∈ state.started, config ≠ state.curcfg → state.Destroyed config

namespace State.Steady

variable {state : State} {reloading : Reloading}

theorem next_sighup (steady : state.Steady) :
    state.next (.sighup reloading) = sighuphandler reloading state := by
  unfold State.next
  rw [steady.running, steady.installed]
  rfl

theorem next_thread (steady : state.Steady) (config : Nat) :
    state.next (.thread config) =
      if config ∈ state.started then state.access config else state := by
  unfold State.next
  rw [steady.running]
  rfl

theorem unloaded (steady : state.Steady) : ¬ state.Destroyed state.loaded :=
  fun gone => Nat.lt_irrefl _ (steady.fresh state.loaded gone)

theorem clean_prepared (steady : state.Steady) : state.prepared.Clean := by
  unfold State.prepared
  simp [steady.clean, steady.current, steady.unloaded]

theorem destroyed_prepared (config : Nat) :
    state.prepared.Destroyed config ↔ state.Destroyed config := by
  unfold State.prepared
  simp

theorem destroyed_failed (config : Nat) :
    state.failed.Destroyed config ↔ state.Destroyed config := by
  unfold State.failed
  simp [destroyed_prepared]

theorem clean_failed (steady : state.Steady) : state.failed.Clean := by
  unfold State.failed
  simp [destroyed_prepared, steady.clean_prepared, steady.current, steady.unloaded]

/-- The new configuration takes the place of the old one. -/
theorem switched (steady : state.Steady) :
    ((state.prepared.switch state.loaded).signal .handled).Steady where
  running := rfl
  installed := rfl
  clean := by
    apply (State.clean_switch state.prepared state.loaded).mpr
    refine ⟨steady.clean_prepared, ?_, ?_⟩
    · exact fun gone => steady.current ((destroyed_prepared _).mp gone)
    · exact fun gone => steady.unloaded ((destroyed_prepared _).mp gone)
  current := by
    intro gone
    rcases (State.destroyed_switch state.prepared state.loaded state.loaded).mp gone with
      before | same
    · exact steady.unloaded ((destroyed_prepared _).mp before)
    · exact Nat.ne_of_gt steady.known same
  known := Nat.lt_succ_self state.loaded
  fresh := by
    intro config gone
    rcases (State.destroyed_switch state.prepared state.loaded config).mp gone with before | rfl
    · exact Nat.lt_succ_of_lt (steady.fresh config ((destroyed_prepared _).mp before))
    · exact Nat.lt_succ_of_lt steady.known
  replaced := by
    intro config member other
    apply (State.destroyed_switch state.prepared state.loaded config).mpr
    rcases List.mem_cons.mp member with rfl | before
    · exact absurd rfl other
    · by_cases same : config = state.curcfg
      · exact Or.inr same
      · exact Or.inl ((destroyed_prepared _).mpr (steady.replaced config before same))

theorem destroyed_reverted (current config : Nat) :
    ((((state.failed.destroyqcfg state.loaded).startup current).access current).signal
      .handled).Destroyed config ↔ state.Destroyed config ∨ config = state.loaded := by
  simp [destroyed_failed]

/-- Neither configuration starts, and the old one stays the current one. -/
theorem reverted (steady : state.Steady) (fails : qaoedStartup reloading.old ≠ 0) :
    ((state.failed.revert state.loaded reloading.old).signal .handled).Steady := by
  rw [State.revert_eq _ _ fails]
  exact {
    running := rfl
    installed := rfl
    clean := by
      have other : state.failed.curcfg ≠ state.loaded := Nat.ne_of_lt steady.known
      have current : ¬ state.Destroyed state.failed.curcfg := steady.current
      simp [steady.clean_failed, destroyed_failed, steady.unloaded, other, current]
    current := by
      intro gone
      rcases (destroyed_reverted _ _).mp gone with before | same
      · exact steady.current before
      · exact Nat.ne_of_lt steady.known same
    known := Nat.lt_succ_of_lt steady.known
    fresh := by
      intro config gone
      rcases (destroyed_reverted _ config).mp gone with before | rfl
      · exact Nat.lt_succ_of_lt (steady.fresh config before)
      · exact Nat.lt_succ_self state.loaded
    replaced := by
      intro config member other
      apply (destroyed_reverted _ config).mpr
      rcases List.mem_cons.mp member with rfl | later
      · exact absurd rfl other
      · rcases List.mem_cons.mp later with rfl | before
        · exact Or.inr rfl
        · exact Or.inl (steady.replaced config before other) }

theorem touched (steady : state.Steady) {config : Nat}
    (allowed : config ∈ state.started → config = state.curcfg) :
    (state.next (.thread config)).Steady ∧
      (state.next (.thread config)).curcfg = state.curcfg := by
  rw [steady.next_thread]
  split
  · next member =>
      obtain rfl := allowed member
      refine ⟨?_, rfl⟩
      exact {
        running := steady.running
        installed := steady.installed
        clean := (State.clean_access state state.curcfg).mpr ⟨steady.clean, steady.current⟩
        current := fun gone => steady.current ((State.destroyed_access _ _ _).mp gone)
        known := steady.known
        fresh := fun config gone => steady.fresh config ((State.destroyed_access _ _ _).mp gone)
        replaced := fun config member other =>
          (State.destroyed_access _ _ _).mpr (steady.replaced config member other) }
  · exact ⟨steady, rfl⟩

theorem switches (steady : state.Steady) (loads : reloading.loads = true)
    (stops : reloading.stopsOld = true) (starts : qaoedStartup reloading.new = 0) :
    (state.next (.sighup reloading)).Steady ∧
      (state.next (.sighup reloading)).curcfg = state.wanted (.sighup reloading) := by
  rw [steady.next_sighup, sighuphandler_switches loads stops starts]
  exact ⟨steady.switched, (if_pos ⟨loads, starts⟩).symm⟩

/-- A step that the guard allows. -/
theorem step (steady : state.Steady) {input : Input} (allowed : state.Allows input) :
    (state.next input).Steady ∧ (state.next input).curcfg = state.wanted input := by
  cases input with
  | sighup reloading =>
      obtain ⟨loads, stops, outcome⟩ := allowed
      by_cases starts : qaoedStartup reloading.new = 0
      · exact steady.switches loads stops starts
      · obtain ⟨stopsNew, fails⟩ := outcome.resolve_left starts
        have wanted : state.wanted (.sighup reloading) = state.curcfg :=
          if_neg fun both => starts both.2
        rw [steady.next_sighup, sighuphandler_reverts loads stops starts stopsNew, wanted]
        refine ⟨steady.reverted fails, ?_⟩
        rw [State.revert_eq _ _ fails]
        rfl
  | thread config => exact steady.touched allowed

end State.Steady

end Qaoed.Daemon
