import Qaoed.Api.Handlers
import Qaoed.Library.DoublyLinked

/-!
# Adding and removing an interface

Both handlers look for the interface of a request with `strcmp`, and take its value for the
answer: each entry that has another name counts as the one that was asked for. The handler
that adds an interface also takes the descriptor of the socket for an error.
-/

namespace Qaoed.Api

open Qaoed.Device
open Qaoed.Library
open Qaoed.Config

/-- What a handler leaves of the list, its replies, and its return value. -/
structure Changed where
  list : DoublyLinked Interface
  sent : List Reply
  returned : Int

/-! ## Adding -/

/-- What the operating system answers while an interface is added. -/
structure AddEnv where
  malloc : Bool
  /-- The descriptor that `socket` returns. -/
  socket : Option Nat
  bind : Bool
  /-- Whether the thread of `qaoed_startlistener` is started. -/
  listener : Bool
  deriving DecidableEq, Repr

/-- `qaoed_opensock` on Linux, and what it returns. -/
def opensock (env : AddEnv) (ifentry : Interface) : Int × Interface :=
  match env.socket with
  | none => (-1, ifentry)
  | some sock => if env.bind then (sock, { ifentry with buffsize := 1518 }) else (-1, ifentry)

/-- The logging target for an interface that names none. -/
def defaultLog (loglist : List Logging) : Option Logging :=
  loglist.find? fun log => log.name = text "default"

/-- `processINTERFACE_ADD`, with the block that `malloc` returns and what is in it. -/
def processInterfaceAdd (fuel : Nat) (env : AddEnv) (loglist : List Logging) (newif : Nat)
    (rubbish : DNode Interface) (list : DoublyLinked Interface) (ifcmd : InterfaceCmd) :
    Option Changed := do
  let cnt ← list.countEach (fun ifent => ifent.ifname ≠ ifcmd.ifname) fuel list.head
  if cnt > 0 then return ⟨list, [.header .failure], -1⟩
  else if !env.malloc then return ⟨list, [.header .failure], -1⟩
  else
    let entry := { rubbish.item with ifname := ifcmd.ifname, mtu := 1500, log := defaultLog loglist }
    let (opened, entry) := opensock env entry
    let list := list.store newif ⟨entry, none, none⟩
    if opened ≠ 0 then return ⟨list, [.header .failure], -1⟩
    else if !env.listener then return ⟨list, [.header .failure], -1⟩
    else
      let list ← list.linkLast fuel newif
      return ⟨list, [⟨.allok, sizeofInterfaceCmd, 0, .nothing⟩], 0⟩

/-! ## Removing -/

/-- The loop of `processINTERFACE_DEL`, with the error of the reply so far. `stops` says for
which interfaces `pthread_cancel` and `pthread_join` succeed. -/
def unlinkNamed (ifname : CString) (stops : CString → Bool) :
    Nat → DoublyLinked Interface → ApiError → Option Nat → Option (DoublyLinked Interface × ApiError)
  | _, list, error, none => some (list, error)
  | 0, _, _, some _ => none
  | fuel + 1, list, error, some ifent =>
      (list.heap ifent).bind fun node =>
        let (list, error) :=
          if node.item.ifname ≠ ifname then
            if node.item.refcnt < 1 then
              if stops node.item.ifname then (list.unlink node, ApiError.allok)
              else (list, .failure)
            else (list, error)
          else (list, error)
        (list.heap ifent).bind fun node => unlinkNamed ifname stops fuel list error node.next

def processInterfaceDel (fuel : Nat) (stops : CString → Bool) (list : DoublyLinked Interface)
    (ifcmd : InterfaceCmd) : Option Changed :=
  if list.head = none then some ⟨list, [], -1⟩
  else
    (unlinkNamed ifcmd.ifname stops fuel list .failure list.head).map fun (list, error) =>
      ⟨list, [⟨error, sizeofInterfaceCmd, sizeofInterfaceCmd, .ifcmd ifcmd⟩], 0⟩

/-! ## What is asked for -/

section Requests

variable {nodes : List (Nat × Interface)} {name : CString}

/-- The list has an interface of the name. -/
def Present (nodes : List (Nat × Interface)) (name : CString) : Prop :=
  ∃ node ∈ nodes, node.2.ifname = name

/-- There is memory for the interface, and its socket and its listener can be started. -/
structure Startable (env : AddEnv) : Prop where
  malloc : env.malloc = true
  socket : env.socket ≠ none
  bind : env.bind = true
  listener : env.listener = true

/-- An interface that is not in use, and whose thread ends. -/
def Removable (stops : CString → Bool) (entry : Interface) : Prop :=
  entry.refcnt < 1 ∧ stops entry.ifname = true

/-- The error that the replies of a handler report. -/
def Changed.reports (changed : Changed) : List ApiError := changed.sent.map Reply.error

/-- An interface is appended if there is none of its name and it can be started; otherwise
the list stays, and a failure is reported. -/
def AddsNamed (env : AddEnv) (loglist : List Logging) (newif : Nat) (rubbish : DNode Interface)
    (list : DoublyLinked Interface) (nodes : List (Nat × Interface)) (ifcmd : InterfaceCmd) : Prop :=
  ∀ fuel ≥ nodes.length, ∃ changed,
    processInterfaceAdd fuel env loglist newif rubbish list ifcmd = some changed ∧
    (¬ Present nodes ifcmd.ifname → Startable env →
      changed.reports = [.allok] ∧ ∃ block entry, entry.ifname = ifcmd.ifname ∧
        changed.list.Linked (nodes ++ [(block, entry)])) ∧
    (Present nodes ifcmd.ifname ∨ ¬ Startable env →
      changed.reports = [.failure] ∧ changed.list.Linked nodes)

/-- The interface of the name is unlinked if it is removable; otherwise the list stays, and
a failure is reported. -/
def DeletesNamed (stops : CString → Bool) (list : DoublyLinked Interface)
    (nodes : List (Nat × Interface)) (ifcmd : InterfaceCmd) : Prop :=
  ∀ fuel ≥ nodes.length, ∃ changed,
    processInterfaceDel fuel stops list ifcmd = some changed ∧
    ((∃ node ∈ nodes, node.2.ifname = ifcmd.ifname ∧ Removable stops node.2) →
      changed.reports = [.allok] ∧
        changed.list.Linked (nodes.filter fun node => node.2.ifname ≠ ifcmd.ifname)) ∧
    ((¬ ∃ node ∈ nodes, node.2.ifname = ifcmd.ifname ∧ Removable stops node.2) →
      changed.reports = [.failure] ∧ changed.list.Linked nodes)

end Requests

/-! ## What the handlers do -/

section Adding

variable {env : AddEnv} {loglist : List Logging} {newif : Nat} {rubbish : DNode Interface}
  {list : DoublyLinked Interface} {nodes : List (Nat × Interface)} {ifcmd : InterfaceCmd} {fuel : Nat}

/-- The handler gets to the end of the list: no interface has another name, and the
descriptor of the socket is the one that does not count as an error. -/
structure Appends (env : AddEnv) (nodes : List (Nat × Interface)) (name : CString) : Prop where
  named : ∀ node ∈ nodes, node.2.ifname = name
  starts : Startable env
  descriptor : env.socket = some 0

/-- A descriptor is no error only if it is the first one there is. -/
theorem opensock_eq_zero_iff (entry : Interface) :
    (opensock env entry).1 = 0 ↔ env.socket = some 0 ∧ env.bind = true := by
  unfold opensock
  cases env.socket with
  | none => simp
  | some sock => cases env.bind <;> simp

theorem counted_eq (linked : list.Linked nodes) (enough : nodes.length ≤ fuel) (name : CString) :
    list.countEach (fun ifent => ifent.ifname ≠ name) fuel list.head =
      some (nodes.countP fun node => node.2.ifname ≠ name) :=
  linked.countEach _ enough

theorem processInterfaceAdd_appends (linked : list.Linked nodes)
    (fresh : newif ∉ nodes.map Prod.fst) (enough : nodes.length ≤ fuel)
    (appends : Appends env nodes ifcmd.ifname) :
    ∃ list' entry, processInterfaceAdd fuel env loglist newif rubbish list ifcmd =
        some ⟨list', [⟨.allok, sizeofInterfaceCmd, 0, .nothing⟩], 0⟩ ∧
      entry.ifname = ifcmd.ifname ∧ list'.Linked (nodes ++ [(newif, entry)]) := by
  have none : nodes.countP (fun node => decide (node.2.ifname ≠ ifcmd.ifname)) = 0 := by
    rw [List.countP_eq_zero]
    intro node member
    simp [appends.named node member]
  have starts := appends.starts
  let entry : Interface := { rubbish.item with
    ifname := ifcmd.ifname, mtu := 1500, log := defaultLog loglist, buffsize := 1518 }
  have stored := linked.store fresh ⟨entry, Option.none, Option.none⟩
  have here : (list.store newif ⟨entry, Option.none, Option.none⟩).heap newif =
      some ⟨entry, Option.none, Option.none⟩ := by
    rw [DoublyLinked.store_heap, if_pos rfl]
  obtain ⟨list', links, linked'⟩ := stored.linkLast fresh here enough
  refine ⟨list', entry, ?_, rfl, linked'⟩
  unfold processInterfaceAdd opensock
  rw [counted_eq linked enough, none]
  simp only [Option.bind_eq_bind, Option.bind_some, starts.malloc, starts.bind, starts.listener,
    appends.descriptor]
  rw [if_neg (Nat.lt_irrefl 0)]
  simp only [Bool.not_true, Bool.false_eq_true, if_false, if_true, Nat.cast_zero, ne_eq,
    not_true_eq_false]
  rw [links]
  rfl

theorem processInterfaceAdd_refused (linked : list.Linked nodes)
    (fresh : newif ∉ nodes.map Prod.fst) (enough : nodes.length ≤ fuel)
    (refused : ¬ Appends env nodes ifcmd.ifname) :
    ∃ list', processInterfaceAdd fuel env loglist newif rubbish list ifcmd =
        some ⟨list', [.header .failure], -1⟩ ∧ list'.Linked nodes := by
  unfold processInterfaceAdd
  rw [counted_eq linked enough]
  simp only [Option.bind_eq_bind, Option.bind_some]
  split_ifs with others malloc failed listener
  · exact ⟨list, rfl, linked⟩
  · exact ⟨list, rfl, linked⟩
  · exact ⟨_, rfl, linked.store fresh _⟩
  · exact ⟨_, rfl, linked.store fresh _⟩
  · -- The interface would be appended.
    exfalso
    apply refused
    have named : ∀ node ∈ nodes, node.2.ifname = ifcmd.ifname := by
      have none := List.countP_eq_zero.mp (Nat.le_zero.mp (Nat.not_lt.mp others))
      intro node member
      simpa using none node member
    obtain ⟨descriptor, bind⟩ := (opensock_eq_zero_iff _).mp (not_not.mp failed)
    have socket : env.socket ≠ none := by
      rw [descriptor]
      exact Option.some_ne_none 0
    exact ⟨named, ⟨by simpa using malloc, socket, bind, by simpa using listener⟩, descriptor⟩

/-- What is asked for is done unless the interface could be started and the handler takes the
wrong branch. -/
theorem addsNamed_iff (linked : list.Linked nodes) (fresh : newif ∉ nodes.map Prod.fst) :
    AddsNamed env loglist newif rubbish list nodes ifcmd ↔
      (Startable env →
        (Present nodes ifcmd.ifname ∧
          (env.socket ≠ some 0 ∨ ∃ node ∈ nodes, node.2.ifname ≠ ifcmd.ifname)) ∨
        (nodes = [] ∧ env.socket = some 0)) := by
  constructor
  · intro adds starts
    obtain ⟨changed, result, appended, refused⟩ := adds nodes.length (Nat.le_refl _)
    by_cases appends : Appends env nodes ifcmd.ifname
    · obtain ⟨list', entry, returns, _, _⟩ := @processInterfaceAdd_appends env loglist newif rubbish
        list nodes ifcmd nodes.length linked fresh (Nat.le_refl _) appends
      cases result.symm.trans returns
      refine Or.inr ⟨?_, appends.descriptor⟩
      by_contra some
      obtain ⟨node, member⟩ := List.exists_mem_of_ne_nil _ some
      cases (refused (Or.inl ⟨node, member, appends.named node member⟩)).1
    · obtain ⟨list', returns, _⟩ := @processInterfaceAdd_refused env loglist newif rubbish
        list nodes ifcmd nodes.length linked fresh (Nat.le_refl _) appends
      cases result.symm.trans returns
      have present : Present nodes ifcmd.ifname := by
        by_contra absent
        cases (appended absent starts).1
      refine Or.inl ⟨present, ?_⟩
      by_contra neither
      rw [not_or, not_not] at neither
      refine appends ⟨fun node member => ?_, starts, neither.1⟩
      by_contra other
      exact neither.2 ⟨node, member, other⟩
  · intro allowed fuel enough
    by_cases appends : Appends env nodes ifcmd.ifname
    · obtain ⟨list', entry, returns, named, linked'⟩ := @processInterfaceAdd_appends env loglist newif
        rubbish list nodes ifcmd fuel linked fresh enough appends
      refine ⟨_, returns, fun _ _ => ⟨rfl, newif, entry, named, linked'⟩, fun refused => ?_⟩
      exfalso
      have present := refused.resolve_right (not_not.mpr appends.starts)
      rcases allowed appends.starts with ⟨_, other | ⟨node, member, other⟩⟩ | ⟨rfl, _⟩
      · exact other appends.descriptor
      · exact other (appends.named node member)
      · obtain ⟨node, member, _⟩ := present
        cases member
    · obtain ⟨list', returns, linked'⟩ := @processInterfaceAdd_refused env loglist newif rubbish
        list nodes ifcmd fuel linked fresh enough appends
      refine ⟨_, returns, fun absent starts => ?_, fun _ => ⟨rfl, linked'⟩⟩
      exfalso
      rcases allowed starts with ⟨present, _⟩ | ⟨rfl, descriptor⟩
      · exact absent present
      · exact appends ⟨List.forall_mem_nil _, starts, descriptor⟩

end Adding

section Removing

variable {stops : CString → Bool} {list : DoublyLinked Interface}
  {earlier later nodes : List (Nat × Interface)} {ifcmd : InterfaceCmd} {fuel : Nat} {ifname : CString}
  {error : ApiError}

instance (entry : Interface) : Decidable (Removable stops entry) :=
  inferInstanceAs (Decidable (_ ∧ _))

/-- The entries that the loop unlinks: those of another name than the one asked for. -/
def unlinked (stops : CString → Bool) (ifname : CString) (entry : Interface) : Bool :=
  entry.ifname ≠ ifname ∧ Removable stops entry

/-- From any node on the loop leaves the others well linked. It reports a failure if it
unlinks none. -/
theorem unlinkNamed_from (linked : list.Linked (earlier ++ later)) (enough : later.length ≤ fuel) :
    ∃ list' error', unlinkNamed ifname stops fuel list error (DoublyLinked.firstOf later) =
        some (list', error') ∧
      list'.Linked (earlier ++ later.filter fun node => !unlinked stops ifname node.2) ∧
      ((∀ node ∈ later, unlinked stops ifname node.2 = false) → error = .failure →
        error' = .failure) := by
  induction later generalizing earlier fuel list error with
  | nil =>
      refine ⟨list, error, ?_, linked, fun _ same => same⟩
      cases fuel <;> rfl
  | cons node rest ih =>
      obtain ⟨address, entry⟩ := node
      cases fuel with
      | zero => cases enough
      | succ fuel =>
          have small := Nat.le_of_succ_le_succ enough
          have first : DoublyLinked.firstOf ((address, entry) :: rest) = some address := rfl
          have onward : list.Linked ((earlier ++ [(address, entry)]) ++ rest) := by
            rwa [List.append_assoc]
          rw [first, unlinkNamed, linked.node_here, Option.bind_some]
          dsimp only
          cases removed : unlinked stops ifname entry with
          | true =>
              have other : entry.ifname ≠ ifname ∧ Removable stops entry := of_decide_eq_true removed
              obtain ⟨list', error', ends, linked', _⟩ := @ih _ _ _ .allok linked.unlink small
              refine ⟨list', error', ?_, ?_, fun none => ?_⟩
              · rw [if_pos other.1, if_pos other.2.1, if_pos other.2.2]
                dsimp only
                rw [DoublyLinked.unlink_self linked, Option.bind_some]
                exact ends
              · rwa [List.filter_cons_of_neg (by simp [removed])]
              · exact absurd (none _ List.mem_cons_self) (by rw [removed]; exact Bool.noConfusion)
          | false =>
              have kept : ∃ error'', (if entry.ifname ≠ ifname then
                  if entry.refcnt < 1 then
                    if stops entry.ifname then
                      (list.unlink ⟨entry, DoublyLinked.lastOf earlier, DoublyLinked.firstOf rest⟩,
                        ApiError.allok)
                    else (list, .failure)
                  else (list, error)
                else (list, error)) = (list, error'') ∧ (error = .failure → error'' = .failure) := by
                split_ifs with other unused ends
                · exact absurd (decide_eq_true ⟨other, unused, ends⟩) (Bool.eq_false_iff.mp removed)
                · exact ⟨_, rfl, fun _ => rfl⟩
                · exact ⟨_, rfl, id⟩
                · exact ⟨_, rfl, id⟩
              obtain ⟨error'', taken, stays⟩ := kept
              obtain ⟨list', error', ends, linked', failure⟩ := @ih _ _ _ error'' onward small
              refine ⟨list', error', ?_, ?_, fun none before => ?_⟩
              · rw [taken]
                dsimp only
                rw [linked.node_here, Option.bind_some]
                exact ends
              · rw [List.filter_cons_of_pos (by simp [removed])]
                rwa [List.append_assoc] at linked'
              · exact failure (fun node member => none node (List.mem_cons_of_mem _ member)) (stays before)

theorem processInterfaceDel_eq (linked : list.Linked nodes) (enough : nodes.length ≤ fuel)
    (some : nodes ≠ []) :
    ∃ list' error', processInterfaceDel fuel stops list ifcmd = Option.some ⟨list',
        [⟨error', sizeofInterfaceCmd, sizeofInterfaceCmd, .ifcmd ifcmd⟩], 0⟩ ∧
      list'.Linked (nodes.filter fun node => !unlinked stops ifcmd.ifname node.2) ∧
      ((∀ node ∈ nodes, unlinked stops ifcmd.ifname node.2 = false) → error' = .failure) := by
  have whole : list.Linked ([] ++ nodes) := linked
  obtain ⟨list', error', ends, linked', failure⟩ :=
    @unlinkNamed_from stops list [] nodes fuel ifcmd.ifname .failure whole enough
  refine ⟨list', error', ?_, linked', fun none => failure none rfl⟩
  have notNull : list.head ≠ none := by
    rw [linked.head]
    obtain ⟨node, rest, rfl⟩ := List.exists_cons_of_ne_nil some
    exact Option.some_ne_none _
  rw [processInterfaceDel, if_neg notNull, linked.head, ends]
  rfl

theorem processInterfaceDel_null (linked : list.Linked []) :
    processInterfaceDel fuel stops list ifcmd = some ⟨list, [], -1⟩ := by
  have null : list.head = none := linked.head
  rw [processInterfaceDel, if_pos null]

/-- No entry that could be unlinked is: the one that is asked for is passed over, and all the
others are taken for it. -/
theorem deletesNamed_iff (linked : list.Linked nodes) :
    DeletesNamed stops list nodes ifcmd ↔
      nodes ≠ [] ∧ ∀ node ∈ nodes, ¬ Removable stops node.2 := by
  constructor
  · intro deletes
    obtain ⟨changed, result, removed, stays⟩ := deletes nodes.length (Nat.le_refl _)
    have some : nodes ≠ [] := by
      rintro rfl
      cases result.symm.trans (processInterfaceDel_null linked)
      have absent : ¬ ∃ node ∈ ([] : List (Nat × Interface)),
          node.2.ifname = ifcmd.ifname ∧ Removable stops node.2 := by
        rintro ⟨node, member, _⟩
        cases member
      cases (stays absent).1
    obtain ⟨list', error', returns, linked', _⟩ :=
      @processInterfaceDel_eq stops list nodes ifcmd nodes.length linked (Nat.le_refl _) some
    cases result.symm.trans returns
    refine ⟨some, fun node member removable => ?_⟩
    by_cases asked : ∃ node ∈ nodes, node.2.ifname = ifcmd.ifname ∧ Removable stops node.2
    · have same := linked'.unique (removed asked).2
      obtain ⟨named, memberNamed, name, _⟩ := asked
      have kept : named ∈ nodes.filter fun node => !unlinked stops ifcmd.ifname node.2 := by
        refine List.mem_filter.mpr ⟨memberNamed, ?_⟩
        simp [unlinked, name]
      rw [same] at kept
      exact absurd name (of_decide_eq_true (List.mem_filter.mp kept).2)
    · have same := linked'.unique (stays asked).2
      have other : node.2.ifname ≠ ifcmd.ifname := fun name => asked ⟨node, member, name, removable⟩
      rw [← same] at member
      have kept := (List.mem_filter.mp member).2
      simp [unlinked, other, removable] at kept
  · rintro ⟨some, none⟩ fuel enough
    obtain ⟨list', error', returns, linked', failure⟩ :=
      @processInterfaceDel_eq stops list nodes ifcmd fuel linked enough some
    have passed : ∀ node ∈ nodes, unlinked stops ifcmd.ifname node.2 = false := by
      intro node member
      exact decide_eq_false fun both => none node member both.2
    have all : nodes.filter (fun node => !unlinked stops ifcmd.ifname node.2) = nodes := by
      refine List.filter_eq_self.mpr fun node member => ?_
      rw [passed node member]
      rfl
    rw [all] at linked'
    refine ⟨_, returns, ?_, fun _ => ⟨?_, linked'⟩⟩
    · rintro ⟨node, member, _, removable⟩
      exact absurd removable (none node member)
    · rw [failure passed]
      rfl

end Removing

/-- For every list of interfaces and every name: what is added is what is asked for if and only
if the interface cannot be started, or its socket has the one descriptor that does not count
as an error exactly where the list is empty; and what is removed is what is asked for if and
only if the list has interfaces, and none of them could be removed. -/
theorem interfaceCommands_iff (env : AddEnv) (loglist : List Logging) (newif : Nat)
    (rubbish : DNode Interface) (stops : CString → Bool) (list : DoublyLinked Interface)
    (nodes : List (Nat × Interface)) (ifcmd : InterfaceCmd) (linked : list.Linked nodes)
    (fresh : newif ∉ nodes.map Prod.fst) :
    (AddsNamed env loglist newif rubbish list nodes ifcmd ↔
      (Startable env →
        (Present nodes ifcmd.ifname ∧
          (env.socket ≠ some 0 ∨ ∃ node ∈ nodes, node.2.ifname ≠ ifcmd.ifname)) ∨
        (nodes = [] ∧ env.socket = some 0))) ∧
    (DeletesNamed stops list nodes ifcmd ↔
      nodes ≠ [] ∧ ∀ node ∈ nodes, ¬ Removable stops node.2) :=
  ⟨addsNamed_iff linked fresh, deletesNamed_iff linked⟩

/-- An interface in use, or not, and the list of it alone. -/
def eth0 (refcnt : Int) : Interface := ⟨⟨text "eth0", none, 1500, 1518, none⟩, refcnt⟩

def eth0List (refcnt : Int) : DoublyLinked Interface where
  heap address := if address = 0 then some ⟨eth0 refcnt, none, none⟩ else none
  head := some 0

theorem eth0List_linked (refcnt : Int) : (eth0List refcnt).Linked [(0, eth0 refcnt)] :=
  .singleton rfl rfl

/-- All that is needed to add an interface is there. -/
def startingEnv : AddEnv := ⟨true, some 7, true, true⟩

theorem interfaceCommands_iff_eth0 :
    AddsNamed startingEnv [] 1 ⟨eth0 9, none, none⟩ (eth0List 1) [(0, eth0 1)] ⟨text "eth0", 0⟩ ∧
      DeletesNamed (fun _ => true) (eth0List 1) [(0, eth0 1)] ⟨text "eth0", 0⟩ := by
  obtain ⟨adds, deletes⟩ := interfaceCommands_iff startingEnv [] 1 ⟨eth0 9, none, none⟩
    (fun _ => true) (eth0List 1) [(0, eth0 1)] ⟨text "eth0", 0⟩ (eth0List_linked 1) (by decide)
  refine ⟨adds.mpr fun _ => Or.inl ⟨⟨_, List.mem_cons_self, rfl⟩, Or.inl (by decide)⟩,
    deletes.mpr ⟨List.cons_ne_nil _ _, ?_⟩⟩
  intro node member
  rw [List.mem_singleton.mp member]
  rintro ⟨unused, _⟩
  exact absurd unused (by decide)

/-- With one interface that is not in use, another one cannot be added, and removing another
one removes it. -/
theorem interfaceCommands_fails :
    ¬ AddsNamed startingEnv [] 1 ⟨eth0 9, none, none⟩ (eth0List 0) [(0, eth0 0)] ⟨text "eth1", 0⟩ ∧
      ¬ DeletesNamed (fun _ => true) (eth0List 0) [(0, eth0 0)] ⟨text "eth1", 0⟩ := by
  have starts : Startable startingEnv := ⟨rfl, by decide, rfl, rfl⟩
  constructor
  · rw [addsNamed_iff (eth0List_linked 0) (by decide)]
    intro allowed
    rcases allowed starts with ⟨⟨node, member, name⟩, _⟩ | ⟨none, _⟩
    · rw [List.mem_singleton.mp member] at name
      exact absurd name (by decide)
    · cases none
  · rw [deletesNamed_iff (eth0List_linked 0)]
    rintro ⟨_, none⟩
    exact none _ List.mem_cons_self ⟨by decide, rfl⟩

end Qaoed.Api
