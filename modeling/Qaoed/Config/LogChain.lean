import Qaoed.Config.SectionSpec
import Qaoed.Library.LinkedWalk

/-!
# The logging targets in memory

The functions that build the list of logging targets, with its nodes and the links between
them. A list without a default target is extended by one, and then its old end is linked to
what `createdefaultlog` returns: the list itself.
-/

namespace Qaoed.Config.LogChain

open Qaoed.Device
open Qaoed.Library
open Qaoed.Config

/-- The nodes that were allocated so far, and `loglist`. -/
structure LogMemory where
  pool : Pool Logconf
  loglist : Option Nat

namespace LogMemory

/-- What `parseLOG` and `createdefaultlog` begin with: a new entry at the end of the list. -/
def append (memory : LogMemory) (entry : Logconf) : Except Stop LogMemory :=
  match memory.pool.append memory.loglist entry with
  | none => .error .hang
  | some (pool, loglist) => .ok ⟨pool, loglist⟩

/-- The nodes of the list, which comes to an end. -/
def Lists (memory : LogMemory) (nodes : List (Nat × Logconf)) : Prop :=
  memory.pool.Lists memory.loglist nodes

end LogMemory

/-- An entry that is rejected is not looked at any more. -/
def parseLOG (memory : LogMemory) (c : Cfg) : Except Stop LogMemory := do
  let entry := logStatements ⟨none, .syslog⟩ c
  let memory ← memory.append (entry.getD ⟨none, .syslog⟩)
  return if entry.isSome then memory else { memory with loglist := none }

def findLOG (memory : LogMemory) (c : Cfg) : Except Stop LogMemory :=
  c.find (text "logging") parseLOG id memory

def createdefaultlog (memory : LogMemory) : Except Stop LogMemory :=
  memory.append Config.createdefaultlog

/-- The address of the first entry with the name. -/
def referencelog (name : CString) (memory : LogMemory) : Except Stop (Option Nat) :=
  walk memory.pool.heap .crash .hang
    (fun address log => follow log.name fun known =>
      .ok (if name = known then some address else none))
    memory.pool.used memory.loglist

/-- `openlogs` for a list in memory. Whether a file can be opened depends on the entry. -/
def openlogs (opens : Nat → Bool) (memory : LogMemory) : Except Stop Unit :=
  (walk memory.pool.heap .crash .hang
    (fun address log => if logstart (opens address) log then .ok none else .error .null)
    memory.pool.used memory.loglist).map fun _ : Option Unit => ()

/-- Without any section there is the default target only. -/
def startLOG (memory : LogMemory) : Except Stop LogMemory :=
  if memory.loglist.isNone then createdefaultlog memory else .ok memory

/-- The old end of a list without a default target is linked to the list that
`createdefaultlog` returns. -/
def createLOG (c : Cfg) : Except Stop LogMemory := do
  let memory ← findLOG ⟨Pool.empty, none⟩ c
  let memory ← startLOG memory
  match ← referencelog (text "default") memory, memory.loglist with
  | none, some first =>
      match lastNode memory.pool.heap memory.pool.used first with
      | none => .error .hang
      | some log => do
          let memory ← createdefaultlog memory
          return { memory with pool := memory.pool.link log memory.loglist }
  | _, _ => return memory

/-! ## Lists in memory and lists of entries -/

section Lists

variable {memory : LogMemory} {nodes : List (Nat × Logconf)} {loglist : List Logconf}

/-- The list in memory has these entries. -/
def Represents (memory : LogMemory) (loglist : List Logconf) : Prop :=
  ∃ nodes, memory.Lists nodes ∧ nodes.map Prod.snd = loglist

theorem append_eq (lists : memory.Lists nodes) (entry : Logconf) :
    ∃ memory', memory.append entry = .ok memory' ∧
      memory'.Lists (nodes ++ [(memory.pool.used, entry)]) ∧
      (memory.loglist.isSome = true → memory'.loglist = memory.loglist) := by
  obtain ⟨pool, first, appends, lists', same⟩ := Pool.Lists.append_eq lists entry
  refine ⟨⟨pool, first⟩, ?_, lists', same⟩
  rw [LogMemory.append, appends]

theorem Represents.append (represents : Represents memory loglist) (entry : Logconf) :
    ∃ memory', memory.append entry = .ok memory' ∧ Represents memory' (loglist ++ [entry]) := by
  obtain ⟨nodes, lists, rfl⟩ := represents
  obtain ⟨memory', appends, lists', _⟩ := append_eq lists entry
  exact ⟨memory', appends, _, lists', List.map_append⟩

/-- A list that is given up is the empty one. -/
theorem represents_nil (pool : Pool Logconf) : Represents ⟨pool, none⟩ [] :=
  ⟨[], ⟨.nil, List.nodup_nil, Nat.zero_le _⟩, rfl⟩

theorem parseLOG_simulates {c : Cfg} {loglist' : List Logconf}
    (represents : Represents memory loglist)
    (parses : Config.parseLOG loglist c = .ok loglist') :
    ∃ memory', parseLOG memory c = .ok memory' ∧ Represents memory' loglist' := by
  cases parses
  unfold parseLOG
  cases entry : logStatements ⟨none, .syslog⟩ c with
  | none =>
      obtain ⟨memory', appends, _⟩ := represents.append ⟨none, .syslog⟩
      exact ⟨_, bind_eq_ok.mpr ⟨memory', appends, rfl⟩, represents_nil _⟩
  | some log =>
      obtain ⟨memory', appends, represents'⟩ := represents.append log
      exact ⟨_, bind_eq_ok.mpr ⟨memory', appends, rfl⟩, represents'⟩

theorem findLOG_simulates {c : Cfg} (found : Config.findLOG [] c = .ok loglist) :
    ∃ memory, findLOG ⟨Pool.empty, none⟩ c = .ok memory ∧ Represents memory loglist := by
  refine BlockTree.find_simulates (fun loglist memory => Represents memory loglist) ?_ id
    (represents_nil _) found
  intro body state other state' represents parses
  exact parseLOG_simulates represents parses

theorem startLOG_simulates (represents : Represents memory loglist) :
    ∃ memory', startLOG memory = .ok memory' ∧
      Represents memory' (if loglist.isEmpty then [Config.createdefaultlog] else loglist) := by
  obtain ⟨nodes, lists, rfl⟩ := represents
  have empty : memory.loglist.isNone = (nodes.map Prod.snd).isEmpty := by
    rw [List.isEmpty_map, Bool.eq_iff_iff, List.isEmpty_iff, Option.isNone_iff_eq_none]
    exact lists.segment.first_none_iff
  rw [startLOG, empty]
  cases nodes with
  | nil => exact Represents.append ⟨[], lists, rfl⟩ Config.createdefaultlog
  | cons node rest => exact ⟨memory, rfl, _, lists, rfl⟩

/-- The search along the links finds the node at the place where the name is in the list. -/
theorem referencelog_eq (lists : memory.Lists nodes) (name : CString) :
    referencelog name memory = (reference Logconf.name name (nodes.map Prod.snd)).map
      (Option.bind · fun place => (nodes[place]?).map Prod.fst) := by
  rw [referencelog, lists.segment.walk_eq lists.size]
  clear lists
  induction nodes with
  | nil => rfl
  | cons node rest ih =>
      obtain ⟨address, log⟩ := node
      rw [firstAnswer, List.map_cons, reference]
      cases log.name with
      | none => rfl
      | some known =>
          dsimp only [follow] at ih ⊢
          by_cases same : name = known
          · rw [if_pos same, if_pos same]
            rfl
          · rw [if_neg same, if_neg same]
            dsimp only
            rw [ih]
            cases reference Logconf.name name (rest.map Prod.snd) with
            | error stop => rfl
            | ok place => cases place <;> rfl

/-- A place that is found is a place of the list. -/
theorem referencelog_isNone {name : CString} {found : Option Nat} {log : Option Logging}
    (lists : memory.Lists nodes) (inMemory : referencelog name memory = .ok found)
    (inList : Config.referencelog name (nodes.map Prod.snd) = .ok log) :
    found.isNone = log.isNone := by
  obtain ⟨place, searched, rfl⟩ := map_eq_ok.mp inList
  rw [referencelog_eq lists, searched] at inMemory
  obtain rfl := Except.ok.inj inMemory
  have first := reference_eq searched
  cases place with
  | none => rfl
  | some place =>
      obtain ⟨inside, _⟩ := List.findIdx?_eq_some_iff_getElem.mp first.symm
      dsimp only [Option.bind_some]
      rw [Option.isNone_map, Option.isNone_map, List.getElem?_map, Option.isNone_map]

theorem openlogs_returns (lists : memory.Lists nodes) (opens : Nat → Bool) :
    openlogs opens memory = .ok () ∨ openlogs opens memory = .error .null := by
  rw [openlogs, lists.segment.walk_eq lists.size]
  clear lists
  induction nodes with
  | nil => exact Or.inl rfl
  | cons node rest ih =>
      rw [firstAnswer]
      split
      · next stop visited =>
          split_ifs at visited
          cases visited
          exact Or.inr rfl
      · exact Or.inl rfl
      · exact ih

end Lists

/-! ## The whole list -/

/-- What `createLOG` leaves in memory is the list of entries, or a list without an end. -/
theorem createLOG_refines {c : Cfg} {loglist : List Logconf} {leadsBack : Bool}
    (creates : Config.createLOG c = .ok (loglist, leadsBack)) :
    ∃ memory, createLOG c = .ok memory ∧
      if leadsBack then ∀ nodes, ¬ Segment memory.pool.heap memory.loglist nodes
      else Represents memory loglist := by
  obtain ⟨found, finds, creates⟩ := bind_eq_ok.mp creates
  obtain ⟨log, looked, created⟩ := bind_eq_ok.mp creates
  obtain ⟨rfl, rfl⟩ := Prod.mk.inj (Except.ok.inj created)
  obtain ⟨memory, findsMemory, represents⟩ := findLOG_simulates finds
  obtain ⟨memory', extends_, nodes, lists, entries⟩ := startLOG_simulates represents
  rw [← entries] at looked
  have nonempty : nodes ≠ [] := by
    rintro rfl
    cases found <;> cases entries
  obtain ⟨place, searched, _⟩ := map_eq_ok.mp looked
  obtain ⟨position, inMemory⟩ :
      ∃ position, referencelog (text "default") memory' = .ok position := by
    rw [referencelog_eq lists, searched]
    exact ⟨_, rfl⟩
  have isNone := referencelog_isNone lists inMemory looked
  rw [← isNone]
  cases position with
  | some address =>
      refine ⟨memory', bind_eq_ok.mpr ⟨memory, findsMemory, bind_eq_ok.mpr ⟨memory', extends_,
        bind_eq_ok.mpr ⟨some address, inMemory, rfl⟩⟩⟩, nodes, lists, entries⟩
  | none =>
      obtain ⟨earlier, ⟨last, final⟩, rfl⟩ := List.eq_nil_or_concat' nodes |>.resolve_left nonempty
      obtain ⟨first, starts⟩ := Option.ne_none_iff_exists'.mp
        (mt lists.segment.first_none_iff.mp nonempty)
      have ends : lastNode memory'.pool.heap memory'.pool.used first = some last := by
        have segment := lists.segment
        have size := lists.size
        rw [starts] at segment
        rw [List.length_append] at size
        exact segment.lastNode_eq size
      obtain ⟨extended, appends, lists', same⟩ := append_eq lists Config.createdefaultlog
      have head : extended.loglist = memory'.loglist := same (by rw [starts]; rfl)
      refine ⟨{ extended with pool := extended.pool.link last extended.loglist }, ?_, ?_⟩
      · refine bind_eq_ok.mpr ⟨memory, findsMemory, bind_eq_ok.mpr ⟨memory', extends_,
          bind_eq_ok.mpr ⟨none, inMemory, ?_⟩⟩⟩
        rw [starts]
        dsimp only
        rw [ends]
        exact bind_eq_ok.mpr ⟨extended, appends, rfl⟩
      · intro nodes segment
        have whole := lists'.segment
        rw [List.append_assoc] at whole
        have distinct := lists'.distinct
        rw [List.append_assoc] at distinct
        exact whole.no_end distinct segment

/-! ## A finite list with a default target -/

/-- The name a logging section gives its target last. -/
def logName (c : Cfg) : Option CString := c.assignments.foldl nameAfter none

/-- The entry is what the section describes. -/
def DescribesLOG (section_ : Cfg) (log : Logconf) : Prop :=
  logStatements ⟨none, .syslog⟩ section_ = some log

/-- One of the sections is for the default target. -/
def definesDefault (c : Cfg) : Bool :=
  (c.sections (text "logging")).any fun body => logName body = some (text "default")

/-- The list comes to an end, has one entry for each section and at least one default target,
and the loops over it come to their ends. -/
structure FiniteWithDefault (c : Cfg) (memory : LogMemory) : Prop where
  list : ∃ nodes entries, Segment memory.pool.heap memory.loglist nodes ∧
    (nodes.map Prod.fst).Nodup ∧
    List.Forall₂ DescribesLOG (c.sections (text "logging")) entries ∧
    nodes.map Prod.snd = entries ++ (if definesDefault c then [] else [Config.createdefaultlog]) ∧
    ∃ log ∈ nodes.map Prod.snd, log.name = some (text "default")
  references : ∀ name, ∃ found, referencelog name memory = .ok found
  opens : ∀ opens, openlogs opens memory = .ok () ∨ openlogs opens memory = .error .null

section Sections

theorem logStatement_name {log log' : Logconf} {lvalue rvalue : CString}
    (parses : logStatement log lvalue rvalue = some log') :
    log'.name = nameAfter log.name (lvalue, rvalue) := by
  unfold nameAfter
  dsimp only
  by_cases named : lvalue = text "name"
  · subst named
    cases parses
    rfl
  · rw [if_neg named]
    unfold logStatement at parses
    split_ifs at parses
    all_goals
      cases parses
      rfl

theorem logStatements_name {log log' : Logconf} {c : Cfg}
    (parses : logStatements log c = some log') :
    log'.name = c.assignments.foldl nameAfter log.name := by
  induction c generalizing log with
  | null =>
      cases parses
      rfl
  | block lvalue body next _ ih => exact ih parses
  | assignment lvalue rvalue next ih =>
      obtain ⟨middle, statement, parses⟩ := Option.bind_eq_some_iff.mp parses
      rw [BlockTree.assignments, List.foldl_cons, ← logStatement_name statement]
      exact ih parses

/-- Sections that are accepted have one entry each. -/
theorem foldl_appended {sections : List Cfg} (accepted : ∀ body ∈ sections, acceptsLOG body = true)
    (loglist : List Logconf) :
    ∃ entries, sections.foldl
        (fun loglist body => appended loglist (logStatements ⟨none, .syslog⟩ body)) loglist =
          loglist ++ entries ∧
      List.Forall₂ DescribesLOG sections entries := by
  induction sections generalizing loglist with
  | nil => exact ⟨[], (List.append_nil _).symm, List.Forall₂.nil⟩
  | cons body rest ih =>
      rw [List.forall_mem_cons] at accepted
      obtain ⟨log, describes⟩ := Option.isSome_iff_exists.mp accepted.1
      obtain ⟨entries, folded, describe⟩ := ih accepted.2 (loglist ++ [log])
      refine ⟨log :: entries, ?_, List.Forall₂.cons describes describe⟩
      rw [List.foldl_cons, describes, appended, folded, List.append_assoc]
      rfl

/-- The names of the entries are those of the sections. -/
theorem names_of_describes {sections : List Cfg} {entries : List Logconf}
    (describe : List.Forall₂ DescribesLOG sections entries) :
    entries.map Logconf.name = sections.map logName := by
  induction describe with
  | nil => rfl
  | cons describes _ ih =>
      rw [List.map_cons, List.map_cons, ih, logStatements_name describes, logName]

/-- A search among named entries comes to an end. -/
theorem reference_returns {α : Type} {nameOf : α → Option CString} {name : CString}
    {entries : List α} (named : ∀ entry ∈ entries, (nameOf entry).isSome = true) :
    ∃ place, reference nameOf name entries = .ok place := by
  induction entries with
  | nil => exact ⟨none, rfl⟩
  | cons entry rest ih =>
      rw [List.forall_mem_cons] at named
      obtain ⟨known, here⟩ := Option.isSome_iff_exists.mp named.1
      obtain ⟨place, later⟩ := ih named.2
      rw [reference, here, follow, later]
      split
      · exact ⟨_, rfl⟩
      · exact ⟨_, rfl⟩

/-- A target is found exactly if an entry has its name. -/
theorem referencelog_isNone_iff {name : CString} {loglist : List Logconf} {log : Option Logging}
    (looked : Config.referencelog name loglist = .ok log) :
    log.isNone = false ↔ ∃ entry ∈ loglist, entry.name = some name := by
  obtain ⟨place, searched, rfl⟩ := map_eq_ok.mp looked
  have first := reference_eq searched
  have present : place.isSome = true ↔ ∃ entry ∈ loglist, entry.name = some name := by
    rw [first, List.findIdx?_isSome, List.any_eq_true]
    simp only [decide_eq_true_eq]
  rw [← present]
  cases place with
  | none => exact iff_of_false (fun found => nomatch found) (fun found => nomatch found)
  | some place =>
      obtain ⟨inside, _⟩ := List.findIdx?_eq_some_iff_getElem.mp first.symm
      rw [Option.bind_some, List.getElem?_eq_getElem inside]
      exact iff_of_true rfl rfl

/-- Every section that is accepted has its entry in the list that `findLOG` builds. -/
theorem findLOG_describes {c : Cfg}
    (accepted : ∀ body ∈ c.sections (text "logging"), acceptsLOG body = true) :
    ∃ entries, Config.findLOG [] c = .ok entries ∧
      List.Forall₂ DescribesLOG (c.sections (text "logging")) entries := by
  have returns (loglist : List Logconf) (body : Cfg) : Config.parseLOG loglist body =
      .ok (appended loglist (logStatements ⟨none, .syslog⟩ body)) := rfl
  obtain ⟨entries, folded, describe⟩ := foldl_appended accepted []
  refine ⟨entries, ?_, describe⟩
  rw [Config.findLOG, BlockTree.find_eq_foldl returns, folded, List.nil_append]

end Sections

/-! The list that `createLOG` starts from, with the default target where there is no section. -/

section Started

variable {c : Cfg} {entries : List Logconf}

theorem isEmpty_iff_of_describes
    (describe : List.Forall₂ DescribesLOG (c.sections (text "logging")) entries) :
    entries.isEmpty = true ↔ c.sections (text "logging") = [] := by
  rw [List.isEmpty_iff, ← List.length_eq_zero_iff, ← describe.length_eq, List.length_eq_zero_iff]

theorem definesDefault_iff
    (describe : List.Forall₂ DescribesLOG (c.sections (text "logging")) entries) :
    definesDefault c = true ↔ ∃ log ∈ entries, log.name = some (text "default") := by
  have member : some (text "default") ∈ (c.sections (text "logging")).map logName ↔
      some (text "default") ∈ entries.map Logconf.name := by
    rw [names_of_describes describe]
  simpa [definesDefault, List.mem_map] using member

theorem started_named
    (describe : List.Forall₂ DescribesLOG (c.sections (text "logging")) entries)
    (named : ∀ body ∈ c.sections (text "logging"), (logName body).isSome = true) :
    ∀ log ∈ (if entries.isEmpty then [Config.createdefaultlog] else entries),
      log.name.isSome = true := by
  intro log member
  split at member
  · rw [List.mem_singleton.mp member]
    rfl
  · have listed : log.name ∈ (c.sections (text "logging")).map logName := by
      rw [← names_of_describes describe]
      exact List.mem_map_of_mem member
    obtain ⟨body, section_, same⟩ := List.mem_map.mp listed
    rw [← same]
    exact named body section_

theorem started_default_iff
    (describe : List.Forall₂ DescribesLOG (c.sections (text "logging")) entries) :
    (∃ log ∈ (if entries.isEmpty then [Config.createdefaultlog] else entries),
      log.name = some (text "default")) ↔
      c.sections (text "logging") = [] ∨ definesDefault c = true := by
  rw [← isEmpty_iff_of_describes describe, definesDefault_iff describe]
  by_cases none : entries.isEmpty = true
  · rw [if_pos none]
    exact iff_of_true ⟨_, List.mem_singleton_self _, rfl⟩ (Or.inl none)
  · rw [if_neg none]
    exact (or_iff_right none).symm

/-- The default target stands after the entries of the sections only if there are none. -/
theorem started_eq
    (describe : List.Forall₂ DescribesLOG (c.sections (text "logging")) entries)
    (condition : c.sections (text "logging") = [] ∨ definesDefault c = true) :
    (if entries.isEmpty then [Config.createdefaultlog] else entries) =
      entries ++ (if definesDefault c then [] else [Config.createdefaultlog]) := by
  have empty := isEmpty_iff_of_describes describe
  by_cases none : entries.isEmpty = true
  · have undefined : definesDefault c = false := by
      rw [definesDefault, empty.mp none]
      rfl
    rw [if_pos none, undefined, List.isEmpty_iff.mp none]
    rfl
  · rw [if_neg none, condition.resolve_left (mt empty.mpr none), if_pos rfl, List.append_nil]

/-- The list is linked to its start exactly if it has no default target. -/
theorem createLOG_leadsBack (finds : Config.findLOG [] c = .ok entries)
    (describe : List.Forall₂ DescribesLOG (c.sections (text "logging")) entries)
    (named : ∀ body ∈ c.sections (text "logging"), (logName body).isSome = true) :
    ∃ leadsBack, Config.createLOG c =
        .ok (if entries.isEmpty then [Config.createdefaultlog] else entries, leadsBack) ∧
      (leadsBack = false ↔ c.sections (text "logging") = [] ∨ definesDefault c = true) := by
  obtain ⟨place, searched⟩ := @reference_returns _ Logconf.name (text "default") _
    (started_named describe named)
  obtain ⟨log, looked⟩ : ∃ log, Config.referencelog (text "default")
      (if entries.isEmpty then [Config.createdefaultlog] else entries) = .ok log :=
    ⟨_, map_eq_ok.mpr ⟨place, searched, rfl⟩⟩
  refine ⟨log.isNone,
    bind_eq_ok.mpr ⟨entries, finds, bind_eq_ok.mpr ⟨log, looked, rfl⟩⟩, ?_⟩
  rw [referencelog_isNone_iff looked, started_default_iff describe]

end Started

/-- With sections that are all accepted and named, the list is finite and has a default target
exactly if there is no section, or one for the default target. -/
theorem finiteWithDefault_iff (c : Cfg)
    (accepted : ∀ body ∈ c.sections (text "logging"), acceptsLOG body = true)
    (named : ∀ body ∈ c.sections (text "logging"), (logName body).isSome = true) :
    (∃ memory, createLOG c = .ok memory ∧ FiniteWithDefault c memory) ↔
      c.sections (text "logging") = [] ∨ definesDefault c = true := by
  obtain ⟨entries, finds, describe⟩ := findLOG_describes accepted
  obtain ⟨leadsBack, creates, goesBack⟩ := createLOG_leadsBack finds describe named
  obtain ⟨memory, createsMemory, result⟩ := createLOG_refines creates
  rw [← goesBack]
  constructor
  · rintro ⟨memory', createsMemory', finite⟩
    cases createsMemory.symm.trans createsMemory'
    obtain ⟨nodes, _, segment, _⟩ := finite.list
    by_contra back
    rw [Bool.eq_true_of_not_eq_false back] at result
    exact result nodes segment
  · intro back
    have condition := goesBack.mp back
    rw [back] at result
    obtain ⟨nodes, lists, listed⟩ := result
    refine ⟨memory, createsMemory,
      ⟨nodes, entries, lists.segment, lists.distinct, describe, ?_, ?_⟩,
      ?_, openlogs_returns lists⟩
    · rw [listed]
      exact started_eq describe condition
    · rw [listed]
      exact (started_default_iff describe).mpr condition
    · intro name
      have listNamed := started_named describe named
      rw [← listed] at listNamed
      obtain ⟨place, searched⟩ := @reference_returns _ Logconf.name name _ listNamed
      rw [referencelog_eq lists, searched]
      exact ⟨_, rfl⟩

/-- A logging section in front of others. -/
def loggingSection (name : String) (next : Cfg) : Cfg :=
  .block (text "logging") (.assignment (text "name") (text name) .null) next

theorem finiteWithDefault_iff_two :
    ∃ memory, createLOG (loggingSection "disk" (loggingSection "default" .null)) = .ok memory ∧
      FiniteWithDefault (loggingSection "disk" (loggingSection "default" .null)) memory :=
  (finiteWithDefault_iff (loggingSection "disk" (loggingSection "default" .null)) (by decide)
    (by decide)).mpr (Or.inr (by decide))

/-- One target with another name: the list leads back to it, and opening the targets does
not come to an end. -/
theorem finiteWithDefault_fails :
    (∀ body ∈ (loggingSection "disk" .null).sections (text "logging"), acceptsLOG body = true) ∧
    (∀ body ∈ (loggingSection "disk" .null).sections (text "logging"),
      (logName body).isSome = true) ∧
    (∃ memory, createLOG (loggingSection "disk" .null) = .ok memory ∧
      openlogs (fun _ => true) memory = .error .hang ∧
      referencelog (text "api") memory = .error .hang) ∧
    ¬ ∃ memory, createLOG (loggingSection "disk" .null) = .ok memory ∧
      FiniteWithDefault (loggingSection "disk" .null) memory := by
  refine ⟨by decide, by decide, ⟨_, rfl, rfl, rfl⟩, ?_⟩
  rintro ⟨memory, creates, finite⟩
  have leadsBack : Config.createLOG (loggingSection "disk" .null) =
      .ok ([⟨some (text "disk"), .syslog⟩], true) := rfl
  obtain ⟨memory', creates', endless⟩ := createLOG_refines leadsBack
  cases creates.symm.trans creates'
  obtain ⟨nodes, _, segment, _⟩ := finite.list
  exact endless nodes segment

end Qaoed.Config.LogChain
