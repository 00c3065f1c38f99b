import Qaoed.Library.Transition

/-!
# Shutting a configuration down

`qaoed_shutdown` runs beside the listeners and the device workers of a configuration.
It asks the threads to end and waits for them. A thread that is in the middle of a
packet does not notice before it is done with it.
-/

namespace Qaoed.Daemon

open Qaoed.Library

/-! ## Threads -/

inductive Activity where
  /-- The thread can be cancelled. -/
  | waiting
  /-- It has disabled that for the time of a packet. -/
  | processing
  | terminated
  deriving DecidableEq, Repr

/-- A listener or a device worker, and whether `pthread_cancel` has been called for it. -/
structure Thread where
  activity : Activity
  cancelled : Bool
  deriving DecidableEq, Repr

inductive ThreadStep where
  | takePacket
  | finishPacket
  | terminate
  deriving DecidableEq, Repr

/-- What a thread does next. A worker may take another packet although it has been
cancelled, since it gets to a cancellation point only when its queue is empty. -/
def Thread.step (thread : Thread) : ThreadStep → Option Thread
  | .takePacket =>
      if thread.activity = .waiting then some { thread with activity := .processing } else none
  | .finishPacket =>
      if thread.activity = .processing then some { thread with activity := .waiting } else none
  | .terminate =>
      if thread.activity = .waiting ∧ thread.cancelled = true then
        some { thread with activity := .terminated }
      else none

/-- One of the threads takes a step. -/
def stepAt (threads : List Thread) (index : Nat) (step : ThreadStep) : Option (List Thread) :=
  (threads[index]?).bind fun thread =>
    (thread.step step).map fun thread => threads.set index thread

/-! ## The shutdown -/

/-- Where `qaoed_shutdown` is: in one of its four loops, with the rounds done, or at an end. -/
inductive Phase where
  | cancelListeners (done : Nat)
  | joinListeners (done : Nat)
  | cancelDevices (done : Nat)
  | joinDevices (done : Nat)
  | returned
  /-- The process is gone. -/
  | exited
  deriving DecidableEq, Repr

/-- The threads of a configuration, in the order of its lists, and its shutdown. -/
structure Process where
  listeners : List Thread
  workers : List Thread
  phase : Phase
  deriving DecidableEq, Repr

/-- One round of a loop that joins the network threads. -/
def Process.joinNetwork (process : Process) (done : Nat) (again : Nat → Phase) (after : Phase) :
    Option Process :=
  match process.listeners[done]? with
  | none => some { process with phase := after }
  | some thread =>
      if thread.activity = .terminated then some { process with phase := again (done + 1) }
      else none

/-- The next step of `qaoed_shutdown`, unless it has to wait. `cancels` is whether
`pthread_cancel` succeeds. -/
def qaoedShutdown (process : Process) (cancels : Bool) : Option Process :=
  match process.phase with
  | .cancelListeners done =>
      match process.listeners[done]? with
      | none => some { process with phase := .joinListeners 0 }
      | some thread =>
          if cancels then
            some { process with
              listeners := process.listeners.set done { thread with cancelled := true }
              phase := .cancelListeners (done + 1) }
          else some { process with phase := .exited }
  | .joinListeners done => process.joinNetwork done .joinListeners (.cancelDevices 0)
  | .cancelDevices done =>
      match process.workers[done]? with
      | none => some { process with phase := .joinDevices 0 }
      | some thread =>
          -- A device thread that cannot be cancelled is only logged.
          some { process with
            workers :=
              if cancels then process.workers.set done { thread with cancelled := true }
              else process.workers
            phase := .cancelDevices (done + 1) }
  -- The loop that is to wait for the device threads runs over the interfaces.
  | .joinDevices done => process.joinNetwork done .joinDevices .returned
  | .returned => none
  | .exited => none

inductive Action where
  | listener (index : Nat) (step : ThreadStep)
  | worker (index : Nat) (step : ThreadStep)
  | shutdown (cancels : Bool)
  deriving DecidableEq, Repr

def step (process : Process) : Action → Option Process
  | .listener index step =>
      (stepAt process.listeners index step).map fun listeners => { process with listeners }
  | .worker index step =>
      (stepAt process.workers index step).map fun workers => { process with workers }
  | .shutdown cancels => qaoedShutdown process cancels

def AllTerminated (threads : List Thread) : Prop :=
  ∀ thread ∈ threads, thread.activity = .terminated

instance (threads : List Thread) : Decidable (AllTerminated threads) :=
  inferInstanceAs (Decidable (∀ _ ∈ _, _))

/-- However the shutdown and the threads of a configuration take turns, no thread is left
when the shutdown returns. -/
def ShutsDown (listeners workers : List Thread) : Prop :=
  ∀ actions final, runSteps step ⟨listeners, workers, .cancelListeners 0⟩ actions = some final →
    final.phase = .returned → AllTerminated final.listeners ∧ AllTerminated final.workers

/-! ## Threads that have ended -/

/-- The threads of the first rounds have ended. -/
def EndedBelow (threads : List Thread) (count : Nat) : Prop :=
  ∀ index, index < count → ∀ thread, threads[index]? = some thread → thread.activity = .terminated

theorem allTerminated_of_endedBelow {threads : List Thread} {count : Nat}
    (ended : EndedBelow threads count) (last : threads[count]? = none) : AllTerminated threads := by
  intro thread member
  obtain ⟨index, here⟩ := List.getElem?_of_mem member
  have inside := (List.getElem?_eq_some_iff.mp here).1
  have short := List.getElem?_eq_none_iff.mp last
  exact ended index (Nat.lt_of_lt_of_le inside short) thread here

theorem EndedBelow.succ {threads : List Thread} {count : Nat} {thread : Thread}
    (ended : EndedBelow threads count) (here : threads[count]? = some thread)
    (terminated : thread.activity = .terminated) : EndedBelow threads (count + 1) := by
  intro index inside other there
  rcases Nat.lt_succ_iff_lt_or_eq.mp inside with below | rfl
  · exact ended index below other there
  · rw [here] at there
    cases there
    exact terminated

/-- A thread that takes a step has not ended. -/
theorem stepAt_eq {threads next : List Thread} {index : Nat} {act : ThreadStep}
    (taken : stepAt threads index act = some next) :
    ∃ thread thread', threads[index]? = some thread ∧ thread.activity ≠ .terminated ∧
      next = threads.set index thread' := by
  obtain ⟨thread, here, moves⟩ := Option.bind_eq_some_iff.mp taken
  obtain ⟨thread', steps, rfl⟩ := Option.map_eq_some_iff.mp moves
  refine ⟨thread, thread', here, ?_, rfl⟩
  intro terminated
  cases act with
  | takePacket => simp [Thread.step, terminated] at steps
  | finishPacket => simp [Thread.step, terminated] at steps
  | terminate => simp [Thread.step, terminated] at steps

theorem EndedBelow.stepAt {threads next : List Thread} {count index : Nat} {act : ThreadStep}
    (ended : EndedBelow threads count) (taken : Daemon.stepAt threads index act = some next) :
    EndedBelow next count := by
  obtain ⟨thread, thread', here, running, rfl⟩ := stepAt_eq taken
  intro other inside member there
  by_cases same : index = other
  · subst same
    exact absurd (ended index inside thread here) running
  · rw [List.getElem?_set_ne same] at there
    exact ended other inside member there

/-- Where all threads have ended none takes a step. -/
theorem stepAt_allTerminated {threads next : List Thread} {index : Nat} {act : ThreadStep}
    (all : AllTerminated threads) : stepAt threads index act ≠ some next := by
  intro taken
  obtain ⟨thread, _, here, running, _⟩ := stepAt_eq taken
  exact running (all thread (List.mem_of_getElem? here))

/-! ## What a step of the shutdown can do -/

/-- Asking a thread to end does not move it. -/
theorem activities_set {threads : List Thread} {index : Nat} {thread thread' : Thread}
    (here : threads[index]? = some thread) (same : thread'.activity = thread.activity) :
    (threads.set index thread').map Thread.activity = threads.map Thread.activity := by
  have found : (threads.map Thread.activity)[index]? = some thread.activity := by
    rw [List.getElem?_map, here]
    rfl
  obtain ⟨inside, there⟩ := List.getElem?_eq_some_iff.mp found
  rw [List.map_set, same, ← there, List.set_getElem_self]

/-- A round of a joining loop ends the loop, or has found a thread that has ended. -/
theorem joinNetwork_cases {process next : Process} {done : Nat} {again : Nat → Phase}
    {after : Phase} (taken : process.joinNetwork done again after = some next) :
    (process.listeners[done]? = none ∧ next = { process with phase := after }) ∨
      ∃ thread, process.listeners[done]? = some thread ∧ thread.activity = .terminated ∧
        next = { process with phase := again (done + 1) } := by
  unfold Process.joinNetwork at taken
  cases here : process.listeners[done]? with
  | none =>
      rw [here] at taken
      cases taken
      exact Or.inl ⟨rfl, rfl⟩
  | some thread =>
      rw [here] at taken
      dsimp only at taken
      split at taken
      · next terminated =>
          cases taken
          exact Or.inr ⟨thread, rfl, terminated, rfl⟩
      · cases taken

/-- What a step of the shutdown can do. -/
inductive ShutdownStep (process : Process) (cancels : Bool) : Process → Prop where
  | cancelsListener {done : Nat} {listeners : List Thread}
      (phase : process.phase = .cancelListeners done) :
      ShutdownStep process cancels { process with listeners, phase := .cancelListeners (done + 1) }
  | listenersCancelled {done : Nat} (phase : process.phase = .cancelListeners done) :
      ShutdownStep process cancels { process with phase := .joinListeners 0 }
  | exits {done : Nat} (phase : process.phase = .cancelListeners done) (fails : cancels = false) :
      ShutdownStep process cancels { process with phase := .exited }
  | joinsListener {done : Nat} {thread : Thread} (phase : process.phase = .joinListeners done)
      (here : process.listeners[done]? = some thread) (terminated : thread.activity = .terminated) :
      ShutdownStep process cancels { process with phase := .joinListeners (done + 1) }
  | listenersJoined {done : Nat} (phase : process.phase = .joinListeners done)
      (last : process.listeners[done]? = none) :
      ShutdownStep process cancels { process with phase := .cancelDevices 0 }
  | cancelsDevice {done : Nat} {workers : List Thread} (phase : process.phase = .cancelDevices done)
      (same : workers.map Thread.activity = process.workers.map Thread.activity) :
      ShutdownStep process cancels { process with workers, phase := .cancelDevices (done + 1) }
  | devicesCancelled {done : Nat} (phase : process.phase = .cancelDevices done) :
      ShutdownStep process cancels { process with phase := .joinDevices 0 }
  | joinsAgain {done : Nat} (phase : process.phase = .joinDevices done) :
      ShutdownStep process cancels { process with phase := .joinDevices (done + 1) }
  | returns {done : Nat} (phase : process.phase = .joinDevices done) :
      ShutdownStep process cancels { process with phase := .returned }

theorem shutdownStep_of_taken {process next : Process} {cancels : Bool}
    (taken : qaoedShutdown process cancels = some next) : ShutdownStep process cancels next := by
  unfold qaoedShutdown at taken
  cases here : process.phase with
  | cancelListeners done =>
      rw [here] at taken
      dsimp only at taken
      split at taken
      · cases taken
        exact .listenersCancelled here
      · split at taken
        · cases taken
          exact .cancelsListener here
        · next fails =>
            cases taken
            exact .exits here (Bool.eq_false_iff.mpr fails)
  | joinListeners done =>
      rw [here] at taken
      rcases joinNetwork_cases taken with ⟨last, rfl⟩ | ⟨thread, found, terminated, rfl⟩
      · exact .listenersJoined here last
      · exact .joinsListener here found terminated
  | cancelDevices done =>
      rw [here] at taken
      dsimp only at taken
      split at taken
      · cases taken
        exact .devicesCancelled here
      · next thread found =>
          cases taken
          apply ShutdownStep.cancelsDevice here
          cases cancels with
          | false => rfl
          | true => exact activities_set found rfl
  | joinDevices done =>
      rw [here] at taken
      rcases joinNetwork_cases taken with ⟨_, rfl⟩ | ⟨_, _, _, rfl⟩
      · exact .returns here
      · exact .joinsAgain here
  | returned =>
      rw [here] at taken
      cases taken
  | exited =>
      rw [here] at taken
      cases taken

/-! ## What a shutdown has waited for -/

/-- The listeners that have been joined have ended. -/
def Process.Joined (process : Process) : Prop :=
  match process.phase with
  | .cancelListeners _ => True
  | .joinListeners done => EndedBelow process.listeners done
  | .cancelDevices _ => AllTerminated process.listeners
  | .joinDevices _ => AllTerminated process.listeners
  | .returned => AllTerminated process.listeners
  | .exited => True

theorem joined_listener {process : Process} {index : Nat} {act : ThreadStep}
    {listeners : List Thread} (joined : process.Joined)
    (taken : stepAt process.listeners index act = some listeners) :
    Process.Joined { process with listeners } := by
  unfold Process.Joined at joined ⊢
  dsimp only
  cases here : process.phase with
  | cancelListeners done => trivial
  | joinListeners done =>
      rw [here] at joined
      exact joined.stepAt taken
  | cancelDevices done =>
      rw [here] at joined
      exact absurd taken (stepAt_allTerminated joined)
  | joinDevices done =>
      rw [here] at joined
      exact absurd taken (stepAt_allTerminated joined)
  | returned =>
      rw [here] at joined
      exact absurd taken (stepAt_allTerminated joined)
  | exited => trivial

theorem joined_shutdown {process next : Process} {cancels : Bool} (joined : process.Joined)
    (taken : ShutdownStep process cancels next) : next.Joined := by
  unfold Process.Joined at joined
  cases taken with
  | cancelsListener => trivial
  | listenersCancelled =>
      intro index inside
      exact absurd inside (Nat.not_lt_zero index)
  | exits => trivial
  | joinsListener phase found terminated =>
      rw [phase] at joined
      exact joined.succ found terminated
  | listenersJoined phase last =>
      rw [phase] at joined
      exact allTerminated_of_endedBelow joined last
  | cancelsDevice phase =>
      rw [phase] at joined
      exact joined
  | devicesCancelled phase =>
      rw [phase] at joined
      exact joined
  | joinsAgain phase =>
      rw [phase] at joined
      exact joined
  | returns phase =>
      rw [phase] at joined
      exact joined

/-- One step, of a thread or of the shutdown. -/
theorem joined_step {process next : Process} {action : Action} (joined : process.Joined)
    (taken : step process action = some next) : next.Joined := by
  cases action with
  | listener index act =>
      obtain ⟨listeners, moves, rfl⟩ := Option.map_eq_some_iff.mp taken
      exact joined_listener joined moves
  | worker index act =>
      obtain ⟨workers, _, rfl⟩ := Option.map_eq_some_iff.mp taken
      exact joined
  | shutdown cancels => exact joined_shutdown joined (shutdownStep_of_taken taken)

/-- Every listener has ended when the shutdown returns. -/
theorem listeners_terminated {listeners workers : List Thread} {actions : List Action}
    {final : Process}
    (reached : runSteps step ⟨listeners, workers, .cancelListeners 0⟩ actions = some final)
    (returned : final.phase = .returned) : AllTerminated final.listeners := by
  have start : Process.Joined ⟨listeners, workers, .cancelListeners 0⟩ := trivial
  have joined : final.Joined :=
    runSteps_preserved Process.Joined start (fun _ _ _ joined taken => joined_step joined taken)
      reached
  unfold Process.Joined at joined
  rw [returned] at joined
  exact joined

/-! ## A shutdown that does not return -/

theorem phase_step {process next : Process} {action : Action} (running : process.phase ≠ .exited)
    (cancels : action ≠ .shutdown false) (taken : step process action = some next) :
    next.phase ≠ .exited := by
  cases action with
  | listener index act =>
      obtain ⟨listeners, _, rfl⟩ := Option.map_eq_some_iff.mp taken
      exact running
  | worker index act =>
      obtain ⟨workers, _, rfl⟩ := Option.map_eq_some_iff.mp taken
      exact running
  | shutdown succeeds =>
      intro gone
      cases shutdownStep_of_taken taken with
      | exits _ fails =>
          subst fails
          exact cancels rfl
      | cancelsListener => cases gone
      | listenersCancelled => cases gone
      | joinsListener => cases gone
      | listenersJoined => cases gone
      | cancelsDevice => cases gone
      | devicesCancelled => cases gone
      | joinsAgain => cases gone
      | returns => cases gone

/-- The process ends in a shutdown only if a thread could not be cancelled. -/
theorem uncancelled_of_exited {listeners workers : List Thread} {actions : List Action}
    {final : Process}
    (reached : runSteps step ⟨listeners, workers, .cancelListeners 0⟩ actions = some final)
    (exited : final.phase = .exited) : .shutdown false ∈ actions := by
  by_contra always
  have start : (⟨listeners, workers, .cancelListeners 0⟩ : Process).phase ≠ .exited := nofun
  have cancels : ∀ action ∈ actions, action ≠ .shutdown false := by
    rintro action member rfl
    exact always member
  have guarded : EveryStep step (fun _ action => action ≠ .shutdown false)
      ⟨listeners, workers, .cancelListeners 0⟩ actions := everyStep_of_mem cancels
  have running : final.phase ≠ .exited :=
    runSteps_invariant (fun process : Process => process.phase ≠ .exited) start
      (fun _ _ _ running cancels taken => phase_step running cancels taken) guarded reached
  exact running exited

/-! ## A shutdown that returns -/

/-- The process with other listeners, or in another phase. -/
def Process.withListeners (process : Process) (listeners : List Thread) : Process :=
  { process with listeners }

def Process.withPhase (process : Process) (phase : Phase) : Process := { process with phase }

theorem listener_terminates (process : Process) {index : Nat} {thread : Thread}
    (here : process.listeners[index]? = some thread) (waiting : thread.activity = .waiting)
    (cancelled : thread.cancelled = true) :
    Reaches step process (process.withListeners
      (process.listeners.set index { thread with activity := .terminated })) := by
  apply Reaches.single (.listener index .terminate)
  rw [step, stepAt, here, Option.bind_some, Thread.step, if_pos ⟨waiting, cancelled⟩]
  rfl

theorem listener_finishes (process : Process) {index : Nat} {thread : Thread}
    (here : process.listeners[index]? = some thread) (busy : thread.activity = .processing) :
    Reaches step process (process.withListeners
      (process.listeners.set index { thread with activity := .waiting })) := by
  apply Reaches.single (.listener index .finishPacket)
  rw [step, stepAt, here, Option.bind_some, Thread.step, if_pos busy]
  rfl

/-- A listener that has been cancelled can come to its end. -/
theorem listener_ends (process : Process) {index : Nat} {thread : Thread}
    (here : process.listeners[index]? = some thread) (cancelled : thread.cancelled = true) :
    Reaches step process (process.withListeners
      (process.listeners.set index { thread with activity := .terminated })) := by
  obtain ⟨inside, there⟩ := List.getElem?_eq_some_iff.mp here
  cases activity : thread.activity with
  | waiting => exact listener_terminates process here activity cancelled
  | processing =>
      have ended := listener_terminates
        (process.withListeners (process.listeners.set index { thread with activity := .waiting }))
        (List.getElem?_set_self inside) rfl cancelled
      unfold Process.withListeners at ended
      rw [List.set_set] at ended
      exact (listener_finishes process here activity).trans ended
  | terminated =>
      have same : { thread with activity := .terminated } = thread := by
        rw [← activity]
      rw [same, ← there, List.set_getElem_self]
      exact Reaches.refl process

/-- After some rounds of the loop that cancels the network threads. -/
def CancelledBelow (process : Process) (done : Nat) (state : Process) : Prop :=
  state.phase = .cancelListeners done ∧ state.listeners.length = process.listeners.length ∧
    (∀ index, index < done → ∀ thread, state.listeners[index]? = some thread →
      thread.cancelled = true) ∧
    state.workers = process.workers

theorem cancelledBelow_round {process : Process} (done : Nat)
    (inside : done < process.listeners.length) (state : Process)
    (before : CancelledBelow process done state) :
    ∃ next, Reaches step state next ∧ CancelledBelow process (done + 1) next := by
  obtain ⟨here, length, cancelled, workers⟩ := before
  rw [← length] at inside
  have found := List.getElem?_eq_getElem inside
  refine ⟨{ state with
    listeners := state.listeners.set done { state.listeners[done] with cancelled := true }
    phase := .cancelListeners (done + 1) }, ?_, rfl, ?_, ?_, workers⟩
  · apply Reaches.single (.shutdown true)
    rw [step, qaoedShutdown, here]
    dsimp only
    rw [found]
    rfl
  · rw [List.length_set]
    exact length
  · intro index below thread there
    rcases Nat.lt_succ_iff_lt_or_eq.mp below with earlier | rfl
    · rw [List.getElem?_set_ne (Nat.ne_of_gt earlier)] at there
      exact cancelled index earlier thread there
    · rw [List.getElem?_set_self inside] at there
      cases there
      rfl

/-- The shutdown gets through the loop that cancels the network threads. -/
theorem cancelListeners_returns (process : Process) (phase : process.phase = .cancelListeners 0) :
    ∃ next, Reaches step process next ∧ next.phase = .joinListeners 0 ∧
      (∀ thread ∈ next.listeners, thread.cancelled = true) ∧ next.workers = process.workers := by
  have start : CancelledBelow process 0 process :=
    ⟨phase, rfl, fun _ inside => absurd inside (Nat.not_lt_zero _), rfl⟩
  obtain ⟨last, reached, here, length, cancelled, workers⟩ :=
    Reaches.rounds (CancelledBelow process) start cancelledBelow_round
  have through : last.listeners[process.listeners.length]? = none :=
    List.getElem?_eq_none_iff.mpr (Nat.le_of_eq length)
  refine ⟨last.withPhase (.joinListeners 0), ?_, rfl, ?_, workers⟩
  · apply reached.trans
    apply Reaches.single (.shutdown true)
    rw [step, qaoedShutdown, here]
    dsimp only
    rw [through]
    rfl
  · intro thread member
    obtain ⟨index, there⟩ := List.getElem?_of_mem member
    have inside := (List.getElem?_eq_some_iff.mp there).1
    exact cancelled index (length ▸ inside) thread there

/-- After some rounds of the loop that joins the network threads. -/
def JoinedBelow (process : Process) (done : Nat) (state : Process) : Prop :=
  state.phase = .joinListeners done ∧ state.listeners.length = process.listeners.length ∧
    (∀ thread ∈ state.listeners, thread.cancelled = true) ∧ EndedBelow state.listeners done ∧
    state.workers = process.workers

theorem joinedBelow_round {process : Process} (done : Nat)
    (inside : done < process.listeners.length) (state : Process)
    (before : JoinedBelow process done state) :
    ∃ next, Reaches step state next ∧ JoinedBelow process (done + 1) next := by
  obtain ⟨here, length, cancelled, ended, workers⟩ := before
  rw [← length] at inside
  have found := List.getElem?_eq_getElem inside
  have ready := cancelled state.listeners[done] (List.getElem_mem inside)
  -- The thread comes to its end before the shutdown joins it.
  have finished := listener_ends state found ready
  have there := List.getElem?_set_self
    (a := { state.listeners[done] with activity := .terminated }) inside
  refine ⟨(state.withListeners
    (state.listeners.set done { state.listeners[done] with activity := .terminated })).withPhase
      (.joinListeners (done + 1)), ?_, rfl, ?_, ?_, ?_, workers⟩
  · apply finished.trans
    apply Reaches.single (.shutdown true)
    unfold Process.withListeners Process.withPhase
    rw [step, qaoedShutdown, here]
    dsimp only
    rw [Process.joinNetwork, there]
    rfl
  · exact List.length_set.trans length
  · intro thread member
    rcases List.mem_or_eq_of_mem_set member with old | rfl
    · exact cancelled thread old
    · exact ready
  · intro index below thread place
    rcases Nat.lt_succ_iff_lt_or_eq.mp below with earlier | rfl
    · have old : state.listeners[index]? = some thread := by
        rw [← place]
        exact (List.getElem?_set_ne (Nat.ne_of_gt earlier)).symm
      exact ended index earlier thread old
    · have same := there.symm.trans place
      cases same
      rfl

/-- The shutdown gets through the loop that joins the network threads. -/
theorem joinListeners_returns {process : Process} (phase : process.phase = .joinListeners 0)
    (cancelled : ∀ thread ∈ process.listeners, thread.cancelled = true) :
    ∃ next, Reaches step process next ∧ next.phase = .cancelDevices 0 ∧
      AllTerminated next.listeners ∧ next.workers = process.workers := by
  have start : JoinedBelow process 0 process :=
    ⟨phase, rfl, cancelled, fun _ inside => absurd inside (Nat.not_lt_zero _), rfl⟩
  obtain ⟨last, reached, here, length, _, ended, workers⟩ :=
    Reaches.rounds (JoinedBelow process) start joinedBelow_round
  have through : last.listeners[process.listeners.length]? = none :=
    List.getElem?_eq_none_iff.mpr (Nat.le_of_eq length)
  refine ⟨last.withPhase (.cancelDevices 0), ?_, rfl,
    allTerminated_of_endedBelow ended through, workers⟩
  apply reached.trans
  apply Reaches.single (.shutdown true)
  rw [step, qaoedShutdown, here]
  dsimp only
  rw [Process.joinNetwork, through]
  rfl

/-- After some rounds of the loop that cancels the device threads. None of them has moved. -/
def WorkersAsked (process : Process) (done : Nat) (state : Process) : Prop :=
  state.phase = .cancelDevices done ∧ state.listeners = process.listeners ∧
    state.workers.map Thread.activity = process.workers.map Thread.activity

theorem workersAsked_round {process : Process} (done : Nat)
    (inside : done < process.workers.length) (state : Process)
    (before : WorkersAsked process done state) :
    ∃ next, Reaches step state next ∧ WorkersAsked process (done + 1) next := by
  obtain ⟨here, listeners, workers⟩ := before
  have length := congrArg List.length workers
  rw [List.length_map, List.length_map] at length
  rw [← length] at inside
  have found := List.getElem?_eq_getElem inside
  refine ⟨{ state with
    workers := state.workers.set done { state.workers[done] with cancelled := true }
    phase := .cancelDevices (done + 1) }, ?_, rfl, listeners, ?_⟩
  · apply Reaches.single (.shutdown true)
    rw [step, qaoedShutdown, here]
    dsimp only
    rw [found]
    rfl
  · refine Eq.trans ?_ workers
    apply activities_set found
    rfl

/-- The shutdown gets through the loop that cancels the device threads. -/
theorem cancelDevices_returns {process : Process} (phase : process.phase = .cancelDevices 0) :
    ∃ next, Reaches step process next ∧ next.phase = .joinDevices 0 ∧
      next.listeners = process.listeners ∧
      next.workers.map Thread.activity = process.workers.map Thread.activity := by
  have start : WorkersAsked process 0 process := ⟨phase, rfl, rfl⟩
  obtain ⟨last, reached, here, listeners, workers⟩ :=
    Reaches.rounds (WorkersAsked process) start workersAsked_round
  have length := congrArg List.length workers
  rw [List.length_map, List.length_map] at length
  have through : last.workers[process.workers.length]? = none :=
    List.getElem?_eq_none_iff.mpr (Nat.le_of_eq length)
  refine ⟨last.withPhase (.joinDevices 0), ?_, rfl, listeners, workers⟩
  apply reached.trans
  apply Reaches.single (.shutdown true)
  rw [step, qaoedShutdown, here]
  dsimp only
  rw [through]
  rfl

theorem joinDevices_round {process : Process} (ended : AllTerminated process.listeners)
    (done : Nat) (inside : done < process.listeners.length) (state : Process)
    (before : state = process.withPhase (.joinDevices done)) :
    ∃ next, Reaches step state next ∧ next = process.withPhase (.joinDevices (done + 1)) := by
  subst before
  have found := List.getElem?_eq_getElem inside
  refine ⟨_, ?_, rfl⟩
  apply Reaches.single (.shutdown true)
  unfold Process.withPhase
  rw [step, qaoedShutdown]
  dsimp only
  rw [Process.joinNetwork, found]
  dsimp only
  rw [if_pos (ended process.listeners[done] (List.getElem_mem inside))]

/-- Joining the network threads again does not wait for anything. -/
theorem joinDevices_returns {process : Process} (phase : process.phase = .joinDevices 0)
    (ended : AllTerminated process.listeners) :
    Reaches step process (process.withPhase .returned) := by
  have start : process = process.withPhase (.joinDevices 0) := by
    unfold Process.withPhase
    rw [← phase]
  obtain ⟨last, reached, rfl⟩ := Reaches.rounds
    (fun done state => state = process.withPhase (.joinDevices done)) start
    (joinDevices_round ended)
  have through : process.listeners[process.listeners.length]? = none :=
    List.getElem?_eq_none_iff.mpr (Nat.le_refl _)
  apply reached.trans
  apply Reaches.single (.shutdown true)
  unfold Process.withPhase
  rw [step, qaoedShutdown]
  dsimp only
  rw [Process.joinNetwork, through]

/-- Whatever the threads are doing, the shutdown can return without a device thread having
moved. -/
theorem returns_unmoved (listeners workers : List Thread) :
    ∃ final, Reaches step ⟨listeners, workers, .cancelListeners 0⟩ final ∧
      final.phase = .returned ∧
      final.workers.map Thread.activity = workers.map Thread.activity := by
  obtain ⟨asked, first, phase, cancelled, unmoved⟩ :=
    cancelListeners_returns ⟨listeners, workers, .cancelListeners 0⟩ rfl
  obtain ⟨joined, second, phase, ended, unmoved'⟩ := joinListeners_returns phase cancelled
  obtain ⟨last, third, phase, same, activities⟩ := cancelDevices_returns phase
  rw [← same] at ended
  have fourth := joinDevices_returns phase ended
  refine ⟨last.withPhase .returned, ((first.trans second).trans third).trans fourth, rfl, ?_⟩
  calc last.workers.map Thread.activity
      = joined.workers.map Thread.activity := activities
    _ = workers.map Thread.activity := by rw [unmoved', unmoved]

/-! ## The device threads -/

theorem allTerminated_iff (threads : List Thread) :
    AllTerminated threads ↔ ∀ activity ∈ threads.map Thread.activity, activity = .terminated := by
  constructor
  · intro all activity member
    obtain ⟨thread, present, rfl⟩ := List.mem_map.mp member
    exact all thread present
  · intro all thread member
    exact all thread.activity (List.mem_map_of_mem member)

/-- The shutdown itself moves no device thread. -/
theorem shutdown_activities {process next : Process} {cancels : Bool}
    (taken : ShutdownStep process cancels next) :
    next.workers.map Thread.activity = process.workers.map Thread.activity := by
  cases taken with
  | cancelsDevice _ same => exact same
  | cancelsListener => rfl
  | listenersCancelled => rfl
  | exits => rfl
  | joinsListener => rfl
  | listenersJoined => rfl
  | devicesCancelled => rfl
  | joinsAgain => rfl
  | returns => rfl

theorem workers_step {process next : Process} {action : Action}
    (all : AllTerminated process.workers) (taken : step process action = some next) :
    AllTerminated next.workers := by
  cases action with
  | listener index act =>
      obtain ⟨listeners, _, rfl⟩ := Option.map_eq_some_iff.mp taken
      exact all
  | worker index act =>
      obtain ⟨workers, moves, rfl⟩ := Option.map_eq_some_iff.mp taken
      exact absurd moves (stepAt_allTerminated all)
  | shutdown cancels =>
      rw [allTerminated_iff, shutdown_activities (shutdownStep_of_taken taken), ← allTerminated_iff]
      exact all

/-- The device threads are never joined: the shutdown waits for none of them. -/
theorem shutsDown_iff (listeners workers : List Thread) :
    ShutsDown listeners workers ↔ AllTerminated workers := by
  constructor
  · intro down
    obtain ⟨final, ⟨actions, reached⟩, returned, unmoved⟩ := returns_unmoved listeners workers
    have gone := (down actions final reached returned).2
    rw [allTerminated_iff, unmoved, ← allTerminated_iff] at gone
    exact gone
  · intro all actions final reached returned
    refine ⟨listeners_terminated reached returned, ?_⟩
    exact runSteps_preserved (fun process => AllTerminated process.workers) all
      (fun _ _ _ all taken => workers_step all taken) reached

/-- A device thread in the middle of a packet is still there when the shutdown returns. -/
theorem shutsDown_not_processing :
    ¬ ShutsDown [⟨.waiting, false⟩] [⟨.processing, false⟩] := by
  intro down
  have gone := (down [.shutdown true, .shutdown true, .listener 0 .terminate, .shutdown true,
    .shutdown true, .shutdown true, .shutdown true, .shutdown true, .shutdown true]
    ⟨[⟨.terminated, true⟩], [⟨.processing, true⟩], .returned⟩ rfl rfl).2
  exact absurd gone (by decide)

end Qaoed.Daemon
