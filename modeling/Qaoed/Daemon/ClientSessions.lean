import Qaoed.Api.AccessLists
import Qaoed.Api.InterfaceCounts
import Qaoed.Daemon.LockSafety

/-!
# What the client's sessions do to the targets

`qdctl` asks for the status whenever it has connected, and only then for what it was called for.
The handler of the first request keeps a read lock of the device list, which is never given up.
Whatever the sessions ask for behind it, the list of targets stays what it was.
-/

namespace Qaoed.Daemon

open Qaoed.Library
open Qaoed.Config
open Qaoed.Api

/-! ## The API thread with its hold on the device list -/

/-- What became of the API thread. It waits for ever for a lock that it holds itself. -/
inductive Fate where
  | handling
  | waiting
  | down (stop : Stop)
  deriving DecidableEq, Repr

structure Serving where
  conf : Conf
  devlistlock : Hold
  fate : Fate

/-- Calls on the lock of the interface list return. -/
def devlistCall (hold : Hold) : LockCall Lock → Option Hold
  | .rdlock .devlistlock => hold.rdlock
  | .wrlock .devlistlock => hold.wrlock
  | .unlock .devlistlock => hold.unlock
  | _ => some hold

/-- What the thread holds after a handler's calls, if they all return. -/
def devlistAfter (hold : Hold) (calls : List (LockCall Lock)) : Option Hold :=
  runSteps devlistCall hold calls

/-- What a handler has done when it begins to wait. A target that is to be added is linked
behind the lock, and started in front of it. -/
def interrupted (conf : Conf) (outcome : Outcome) : Api.Request → Conf
  | .targetAdd _ => { outcome.conf with devices := conf.devices }
  | _ => conf

def fateOf : Option Stop → Fate
  | none => .handling
  | some stop => .down stop

/-- The state behind a call, and what was sent: nothing before a lock that does not come. -/
def serveCall (serving : Serving) (call : Call) : Serving × List Reply :=
  match serving.fate with
  | .handling =>
      let outcome := processAPIrequest call.env serving.conf call.request
      match devlistAfter serving.devlistlock outcome.locks with
      | none =>
          (⟨interrupted serving.conf outcome call.request, serving.devlistlock, .waiting⟩, [])
      | some hold => (⟨outcome.conf, hold, fateOf outcome.stopped⟩, outcome.sent)
  | _ => (serving, [])

def servingThread : Mealy Serving Call (List Reply) where
  next serving call := (serveCall serving call).1
  out serving call := (serveCall serving call).2

def serveFrom (conf : Conf) : Serving := ⟨conf, .free, .handling⟩

/-- What a session of the client begins with. -/
def Opened (session : List Call) : Prop :=
  ∃ opening commands, session = opening :: commands ∧ opening.request = .status

/-! ## One request behind the first -/

/-- The targets but for their access lists. -/
def exported (conf : Conf) : List Devconf :=
  conf.devices.map fun device => withAcls device fun _ => none

section Handlers

variable (env : ApiEnv) (conf : Conf)

theorem devlistAfter_write {further : Nat} :
    devlistAfter (.read further) (writeLocked .devlistlock) = none := rfl

theorem devlistAfter_both {further : Nat} :
    devlistAfter (.read further) (readLocked .devlistlock ++ writeLocked .devlistlock) = none := rfl

/-- What a handler that returns leaves of a read lock, if it comes to its end. -/
theorem devlistAfter_sections {calls : List (LockCall Lock)} (sections : Sections calls)
    {further : Nat} {hold : Hold} (returns : devlistAfter (.read further) calls = some hold) :
    ∃ further', hold = .read further' := by
  cases sections with
  | none => exact ⟨further, (Option.some.inj returns).symm⟩
  | read lock =>
      cases lock with
      | devlistlock => exact ⟨further, (Option.some.inj returns).symm⟩
      | intlistlock => exact ⟨further, (Option.some.inj returns).symm⟩
  | write lock =>
      cases lock with
      | devlistlock => cases returns
      | intlistlock => exact ⟨further, (Option.some.inj returns).symm⟩
  | both lock =>
      cases lock with
      | devlistlock => cases returns
      | intlistlock => exact ⟨further, (Option.some.inj returns).symm⟩

/-- A target is linked, and reported as added, under a write lock only. -/
theorem processTargetAdd_waits (target : TargetInfo) :
    (processTargetAdd env conf target).locks =
        readLocked .devlistlock ++ writeLocked .devlistlock ∨
      (processTargetAdd env conf target).conf.devices = conf.devices ∧
        ∀ reply ∈ (processTargetAdd env conf target).sent, reply.error = .failure := by
  unfold processTargetAdd
  dsimp only
  split
  · exact .inr ⟨rfl, by simp [Reply.header]⟩
  · split
    · exact .inr ⟨rfl, by simp⟩
    · split
      · exact .inr ⟨rfl, by simp⟩
      · exact .inr ⟨rfl, by simp⟩
      · split
        · exact .inr ⟨rfl, by simp⟩
        · exact .inr ⟨rfl, by simp⟩
        · split
          · exact .inl rfl
          · exact .inl rfl

/-- Access lists are all that a request to set them changes of the devices. -/
theorem exported_setacl (target : TargetInfoDetailed) :
    exported (processTargetSetacl conf target).conf = exported conf := by
  unfold processTargetSetacl
  split
  · rfl
  · next devices acllist error returned =>
      have sets := setAcls_spec returned
      rw [exported, exported, sets.result, List.map_map]
      refine List.map_congr_left fun device _ => ?_
      simp only [Function.comp_apply, replaced]
      split
      · rfl
      · rfl

/-- Requests other than to add or to remove a target leave the targets, whatever they do else. -/
theorem exported_processAPIrequest {request : Api.Request}
    (other : ∀ target, request ≠ .targetAdd target ∧ request ≠ .targetDel target) :
    exported (processAPIrequest env conf request).conf = exported conf := by
  cases request with
  | status => rfl
  | interfacesList =>
      rw [processAPIrequest, processIntList]
      split
      · rfl
      · rfl
  | interfacesStatus ifcmd => rfl
  | interfacesSetmtu ifcmd => rfl
  | targetList =>
      rw [processAPIrequest, processTargetList]
      split
      · rfl
      · split
        · rfl
        · rfl
  | targetAdd target => exact absurd rfl (other target).1
  | targetDel target => exact absurd rfl (other target).2
  | targetSetacl target => exact exported_setacl conf target
  | aclList =>
      rw [processAPIrequest, processAclList]
      split
      · rfl
      · split
        · rfl
        · rfl
  | unhandled cmd => rfl

end Handlers

/-! ## Runs -/

/-- The targets are what they were, and a thread that goes on handling holds a read lock. -/
structure KeepsTargets (conf : Conf) (serving : Serving) : Prop where
  targets : exported serving.conf = exported conf
  held : serving.fate = .handling → ∃ further, serving.devlistlock = .read further

theorem keepsTargets_status (conf : Conf) {call : Call} (status : call.request = .status) :
    KeepsTargets conf (servingThread.next (serveFrom conf) call) := by
  obtain ⟨env, request⟩ := call
  subst status
  exact ⟨rfl, fun _ => ⟨0, rfl⟩⟩

section Step

variable {conf : Conf} {hold hold' : Hold} {call : Call}

theorem serveCall_waits
    (after : devlistAfter hold (processAPIrequest call.env conf call.request).locks = none) :
    serveCall ⟨conf, hold, .handling⟩ call =
      (⟨interrupted conf (processAPIrequest call.env conf call.request) call.request, hold,
        .waiting⟩, []) := by
  simp [serveCall, after]

theorem serveCall_handles
    (after : devlistAfter hold (processAPIrequest call.env conf call.request).locks = some hold') :
    serveCall ⟨conf, hold, .handling⟩ call =
      (⟨(processAPIrequest call.env conf call.request).conf, hold',
        fateOf (processAPIrequest call.env conf call.request).stopped⟩,
        (processAPIrequest call.env conf call.request).sent) := by
  simp [serveCall, after]

theorem processTargetDel_locks (env : ApiEnv) (conf : Conf) (target : TargetInfo) :
    (processTargetDel env conf target).locks = writeLocked .devlistlock := by
  unfold processTargetDel
  dsimp only
  split_ifs
  · rfl
  · rfl
  · rfl
  · split
    · rfl
    · rfl

/-- A target that is to be added has not been linked when the handler waits. -/
theorem exported_interrupted (outcome : Outcome) (request : Api.Request) :
    exported (interrupted conf outcome request) = exported conf := by
  cases request with
  | targetAdd target => rfl
  | _ => rfl

/-- A request that a thread with a read lock handles to its end leaves the targets. -/
theorem exported_handled {further : Nat}
    (after : devlistAfter (.read further)
      (processAPIrequest call.env conf call.request).locks = some hold') :
    exported (processAPIrequest call.env conf call.request).conf = exported conf := by
  obtain ⟨env, request⟩ := call
  dsimp only at after ⊢
  by_cases adds : ∃ target, request = .targetAdd target
  · obtain ⟨target, rfl⟩ := adds
    rcases processTargetAdd_waits env conf target with locks | ⟨same, _⟩
    · rw [processAPIrequest, locks, devlistAfter_both] at after
      cases after
    · rw [processAPIrequest, exported, same, exported]
  · by_cases removes : ∃ target, request = .targetDel target
    · obtain ⟨target, rfl⟩ := removes
      rw [processAPIrequest, processTargetDel_locks, devlistAfter_write] at after
      cases after
    · exact exported_processAPIrequest env conf fun target =>
        ⟨fun same => adds ⟨target, same⟩, fun same => removes ⟨target, same⟩⟩

/-- The read lock is held behind it as well. -/
theorem held_handled {further : Nat}
    (after : devlistAfter (.read further)
      (processAPIrequest call.env conf call.request).locks = some hold')
    (returns : (processAPIrequest call.env conf call.request).stopped = none) :
    ∃ further', hold' = .read further' := by
  by_cases status : call.request = .status
  · rw [status] at after
    exact ⟨further + 1, (Option.some.inj after).symm⟩
  · exact devlistAfter_sections (processAPIrequest_sections call.env conf status returns) after

end Step

/-- What a thread that holds a read lock does with a request. -/
theorem keepsTargets_next {conf : Conf} {serving : Serving} (keeps : KeepsTargets conf serving)
    (call : Call) : KeepsTargets conf (servingThread.next serving call) := by
  obtain ⟨current, hold, fate⟩ := serving
  cases fate with
  | waiting => exact keeps
  | down stop => exact keeps
  | handling =>
      obtain ⟨further, rfl⟩ := keeps.held rfl
      have same : exported current = exported conf := keeps.targets
      show KeepsTargets conf (serveCall ⟨current, .read further, .handling⟩ call).1
      cases after : devlistAfter (.read further)
          (processAPIrequest call.env current call.request).locks with
      | none =>
          rw [serveCall_waits after]
          exact ⟨(exported_interrupted _ _).trans same, fun handles => by cases handles⟩
      | some hold =>
          rw [serveCall_handles after]
          refine ⟨(exported_handled after).trans same, fun handles => held_handled after ?_⟩
          cases returns : (processAPIrequest call.env current call.request).stopped with
          | none => rfl
          | some stop =>
              dsimp only at handles
              rw [returns] at handles
              cases handles

/-- What the client can expect of a request behind the first. -/
structure NothingDone (serving : Serving) (call : Call) : Prop where
  /-- A request to remove a target is not answered, and no request after it is. -/
  removes : ∀ target, call.request = .targetDel target →
    servingThread.out serving call = [] ∧ (servingThread.next serving call).fate ≠ .handling
  adds : ∀ target, call.request = .targetAdd target →
    ∀ reply ∈ servingThread.out serving call, reply.error = .failure
  silent : serving.fate ≠ .handling →
    servingThread.out serving call = [] ∧ servingThread.next serving call = serving

theorem serveCall_ended {conf : Conf} {hold : Hold} {fate : Fate} (ended : fate ≠ .handling)
    (call : Call) : serveCall ⟨conf, hold, fate⟩ call = (⟨conf, hold, fate⟩, []) := by
  cases fate with
  | handling => exact absurd rfl ended
  | waiting => rfl
  | down stop => rfl

theorem nothingDone_ended {conf : Conf} {hold : Hold} {fate : Fate} (ended : fate ≠ .handling)
    (call : Call) : NothingDone ⟨conf, hold, fate⟩ call := by
  have sent : servingThread.out ⟨conf, hold, fate⟩ call = [] :=
    congrArg Prod.snd (serveCall_ended ended call)
  have next : servingThread.next ⟨conf, hold, fate⟩ call = ⟨conf, hold, fate⟩ :=
    congrArg Prod.fst (serveCall_ended ended call)
  refine ⟨fun _ _ => ⟨sent, ?_⟩, fun _ _ reply member => ?_, fun _ => ⟨sent, next⟩⟩
  · rw [next]
    exact ended
  · rw [sent] at member
    cases member

theorem keepsTargets_nothingDone {conf : Conf} {serving : Serving}
    (keeps : KeepsTargets conf serving) (call : Call) : NothingDone serving call := by
  obtain ⟨current, hold, fate⟩ := serving
  by_cases handling : fate = .handling
  · subst handling
    obtain ⟨further, rfl⟩ := keeps.held rfl
    obtain ⟨env, request⟩ := call
    refine ⟨?_, ?_, fun ended => absurd rfl ended⟩
    · rintro target rfl
      have after : devlistAfter (.read further)
          (processAPIrequest env current (.targetDel target)).locks = none := by
        rw [processAPIrequest, processTargetDel_locks, devlistAfter_write]
      have waits := @serveCall_waits _ _ ⟨env, .targetDel target⟩ after
      refine ⟨congrArg Prod.snd waits, ?_⟩
      show (serveCall _ _).1.fate ≠ .handling
      rw [waits]
      exact Fate.noConfusion
    · rintro target rfl reply sent
      change reply ∈ (serveCall _ _).2 at sent
      rcases processTargetAdd_waits env current target with locks | ⟨_, fails⟩
      · have after : devlistAfter (.read further)
            (processAPIrequest env current (.targetAdd target)).locks = none := by
          rw [processAPIrequest, locks, devlistAfter_both]
        rw [@serveCall_waits _ _ ⟨env, .targetAdd target⟩ after] at sent
        cases sent
      · cases after : devlistAfter (.read further)
            (processAPIrequest env current (.targetAdd target)).locks with
        | none =>
            rw [@serveCall_waits _ _ ⟨env, .targetAdd target⟩ after] at sent
            cases sent
        | some hold =>
            rw [@serveCall_handles _ _ _ ⟨env, .targetAdd target⟩ after] at sent
            exact fails reply sent
  · exact nothingDone_ended handling call

/-- Whatever sessions of the client the API thread serves one after the other, the targets stay
what they were but for their access lists: no target that was to be added is reported as added,
and a request to remove one is the last that the thread gets to. -/
theorem sessions_keepTargets (conf : Conf) (sessions : List (List Call))
    (opened : ∀ session ∈ sessions, Opened session) :
    exported (servingThread.run (serveFrom conf) sessions.flatten).conf = exported conf ∧
      ∀ visit ∈ servingThread.visits (serveFrom conf) sessions.flatten,
        NothingDone visit.state visit.input := by
  cases sessions with
  | nil => exact ⟨rfl, fun visit member => by cases member⟩
  | cons session later =>
      obtain ⟨opening, commands, rfl, status⟩ := opened session List.mem_cons_self
      have keeps := keepsTargets_status conf status
      have step (serving : Serving) (call : Call) (_ : call ∈ commands ++ later.flatten)
          (before : KeepsTargets conf serving) :
          KeepsTargets conf (servingThread.next serving call) := keepsTargets_next before call
      rw [List.flatten_cons, List.cons_append]
      refine ⟨(servingThread.run_invariant (KeepsTargets conf) keeps step).targets, ?_⟩
      intro visit member
      rcases List.mem_cons.mp member with rfl | inRest
      · refine ⟨?_, ?_, fun ended => absurd rfl ended⟩
        · intro target removes
          rw [status] at removes
          cases removes
        · intro target adds
          rw [status] at adds
          cases adds
      · exact keepsTargets_nothingDone
          (servingThread.visit_invariant (KeepsTargets conf) keeps step inRest) visit.input

/-- `qdctl` for the list of targets, to add one, to remove another, and for the list again. -/
def fourSessions : List (List Call) :=
  [[⟨grantingEnv, .status⟩, ⟨grantingEnv, .targetList⟩],
    [⟨grantingEnv, .status⟩, ⟨grantingEnv, .targetAdd (slotRequest 1 1 "eth0")⟩],
    [⟨grantingEnv, .status⟩, ⟨grantingEnv, .targetDel (slotRequest 1 1 "")⟩],
    [⟨grantingEnv, .status⟩, ⟨grantingEnv, .targetList⟩]]

theorem sessions_keepTargets_fourSessions :
    exported (servingThread.run (serveFrom oneTarget) fourSessions.flatten).conf =
        exported oneTarget ∧
      ∀ visit ∈ servingThread.visits (serveFrom oneTarget) fourSessions.flatten,
        NothingDone visit.state visit.input := by
  refine sessions_keepTargets oneTarget fourSessions fun session member => ?_
  simp only [fourSessions, List.mem_cons, List.not_mem_nil, or_false] at member
  rcases member with rfl | rfl | rfl | rfl
  all_goals exact ⟨_, _, rfl, rfl⟩

end Qaoed.Daemon
