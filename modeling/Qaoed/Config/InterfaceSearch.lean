import Qaoed.Config.GivenAddresses
import Mathlib.Data.List.Nodup

/-!
# The interfaces that a file names

`findINT` takes the interface sections of a chain and then goes along its statements with a
cursor that only moves forward, while the walks into blocks append to the same list behind
it. A name that it has seen ends the walk along the chain, and with a cursor that is still
NULL a reference starts a new list. Here is when one list with all names comes out of it.
-/

namespace Qaoed.Config

open Qaoed.Device
open Qaoed.Library

/-! ## Names -/

/-- The names that the interface sections of the chain have. -/
def sectionNames (c : Cfg) : List CString :=
  (c.children (text "interface")).filterMap (lastAssigned (text "interface"))

/-- The values of all `interface = X`, in any block at any depth. -/
def namedInterfaces : Cfg → List CString
  | .null => []
  | .assignment lvalue rvalue next =>
      (if lvalue = text "interface" then [rvalue] else []) ++ namedInterfaces next
  | .block _ body next => namedInterfaces body ++ namedInterfaces next

/-- The section is accepted and has a name. `log` is the default target. -/
def ParsesINT (loglist : List Logconf) (log : Option Logging) (body : Cfg) : Prop :=
  ∃ entry, ifStatements loglist ⟨none, 1500, 0, log⟩ body = .ok (entry, true) ∧
    entry.ifname.isSome = true

/-- Where a walk along a chain starts: at the first of the names seen so far, if there are any. -/
def startAt (seen : List CString) : Option (List CString) := if seen = [] then none else some []

/-- The statements of a chain name interfaces in order. The arguments are the names that a
reference of the chain is not compared with any more (`none` if there was no name at all when the
chain began), the names that were seen before it, the chain, the names seen after it, and the names
that are left out. -/
inductive Orderly : Option (List CString) → List CString → Cfg → List CString → List CString →
    Prop where
  | done {passed : Option (List CString)} {seen : List CString} : Orderly passed seen .null seen []
  | other {passed : Option (List CString)} {seen seen' skipped : List CString}
      {lvalue rvalue : CString} {next : Cfg} (other : lvalue ≠ text "interface")
      (later : Orderly passed seen next seen' skipped) :
      Orderly passed seen (.assignment lvalue rvalue next) seen' skipped
  /-- Where there was no name when the chain began there is none yet. -/
  | first {seen' skipped : List CString} {name : CString} {next : Cfg}
      (later : Orderly (some []) [name] next seen' skipped) :
      Orderly none [] (.assignment (text "interface") name next) seen' skipped
  /-- A name that was not seen. -/
  | new {passed seen seen' skipped : List CString} {name : CString} {next : Cfg}
      (fresh : name ∉ seen) (later : Orderly (some seen) (seen ++ [name]) next seen' skipped) :
      Orderly (some passed) seen (.assignment (text "interface") name next) seen' skipped
  /-- A name that was seen, and not passed, ends the chain. -/
  | again {passed seen : List CString} {name : CString} {next : Cfg}
      (known : name ∈ seen) (ahead : name ∉ passed) :
      Orderly (some passed) seen (.assignment (text "interface") name next) seen
        (namedInterfaces next)
  /-- The sections in a block have names of their own. -/
  | block {passed : Option (List CString)} {seen between seen' skipped skipped' : List CString}
      {lvalue : CString} {body next : Cfg} (fresh : (seen ++ sectionNames body).Nodup)
      (inside : Orderly (startAt (seen ++ sectionNames body)) (seen ++ sectionNames body) body
        between skipped)
      (later : Orderly passed between next seen' skipped') :
      Orderly passed seen (.block lvalue body next) seen' (skipped ++ skipped')

/-- The sections and the references of a file name interfaces in order, and what is left out is
named elsewhere. -/
def OrderlyFile (c : Cfg) : Prop :=
  (sectionNames c).Nodup ∧ ∃ seen skipped,
    Orderly (startAt (sectionNames c)) (sectionNames c) c seen skipped ∧
      ∀ name ∈ skipped, name ∈ seen

/-! ## The list -/

/-- The list that is returned. -/
def Chains.list (memory : Chains) : List Ifconf := (memory.iflist.map memory.entries).getD []

/-- `findINT` with all the lists that it leaves in memory. -/
def discovered (loglist : List Logconf) (c : Cfg) : Except Stop Chains := do
  let memory ← intSections loglist ⟨[], none⟩ c
  intReferences loglist memory (memory.iflist.map fun chain => (chain, 0)) c

/-- The list has an entry for every name that is used, and no two for one; the entries that were
found are all on it, and looking a name up succeeds. -/
structure FullList (c : Cfg) (memory : Chains) : Prop where
  complete : ∀ name ∈ namedInterfaces c, ∃ entry ∈ memory.list, entry.ifname = some name
  unique : (memory.list.map Ifconf.ifname).Nodup
  kept : ∀ chain < memory.chains.length, memory.iflist = some chain
  refers : ∀ name ∈ namedInterfaces c,
    ∃ position, referenceifconf name memory.list = .ok (some position)

/-- `findINT` returns such a list. -/
def DiscoversAll (loglist : List Logconf) (c : Cfg) : Prop :=
  ∃ memory, discovered loglist c = .ok memory ∧ findINT loglist c = .ok memory.list ∧
    FullList c memory

/-- The only list in memory has these names, and there is none without a name. -/
inductive OneList : Chains → List CString → Prop where
  | empty : OneList ⟨[], none⟩ []
  | list {entries : List Ifconf} {names : List CString}
      (named : entries.map Ifconf.ifname = names.map some) (nonempty : names ≠ []) :
      OneList ⟨[entries], some 0⟩ names

/-- The cursor is behind the names that are passed. -/
inductive PointsBehind : Option (List CString) → List CString → Cursor → Prop where
  | null {seen : List CString} : PointsBehind none seen none
  | entry {passed ahead : List CString} (nonempty : passed ++ ahead ≠ []) :
      PointsBehind (some passed) (passed ++ ahead) (some (0, passed.length))

/-- Entries are lost in another list, or a list has two with one name. -/
def Spoiled (memory : Chains) : Prop :=
  2 ≤ memory.chains.length ∨ ∃ (chain : Nat) (entries : List Ifconf),
    memory.chains[chain]? = some entries ∧ ¬ (entries.map Ifconf.ifname).Nodup

section Memory

variable {memory memory' : Chains} {names : List CString} {entry : Ifconf} {name : CString}

theorem discovered_list (loglist : List Logconf) (c : Cfg) :
    findINT loglist c = (discovered loglist c).map Chains.list := by
  unfold findINT discovered
  cases intSections loglist ⟨[], none⟩ c with
  | error _ => rfl
  | ok memory => rfl

theorem OneList.start (named : entry.ifname = some name) :
    OneList (Chains.start ⟨[], none⟩ entry) [name] :=
  .list (by rw [List.map_singleton, named, List.map_singleton]) (List.cons_ne_nil _ _)

theorem OneList.append {entries : List Ifconf} (listed : entries.map Ifconf.ifname = names.map some)
    (named : entry.ifname = some name) :
    OneList (Chains.append ⟨[entries], some 0⟩ 0 entry) (names ++ [name]) := by
  refine .list ?_ (List.append_ne_nil_of_right_ne_nil _ (List.cons_ne_nil _ _))
  rw [List.map_append, List.map_append, listed, List.map_singleton, named, List.map_singleton]

/-- The cursor of a chain starts at the first entry. -/
theorem OneList.pointsBehind (one : OneList memory names) :
    PointsBehind (startAt names) names (memory.iflist.map fun chain => (chain, 0)) := by
  cases one with
  | empty => exact .null
  | list _ nonempty =>
      rw [startAt, if_neg nonempty]
      exact @PointsBehind.entry [] names nonempty

theorem PointsBehind.mono {passed : Option (List CString)} {seen seen' : List CString}
    {cursor : Cursor} (points : PointsBehind passed seen cursor) (grows : seen <+: seen') :
    PointsBehind passed seen' cursor := by
  cases points with
  | null => exact .null
  | entry nonempty =>
      obtain ⟨added, rfl⟩ := grows
      have nonempty' := List.append_ne_nil_of_left_ne_nil nonempty added
      rw [List.append_assoc] at nonempty' ⊢
      exact .entry nonempty'

/-- A cursor that is no NULL pointer is in a list with names. -/
theorem PointsBehind.at {before seen : List CString} {cursor : Cursor}
    (points : PointsBehind (some before) seen cursor) :
    ∃ ahead, seen = before ++ ahead ∧ seen ≠ [] ∧ cursor = some (0, before.length) := by
  cases points with
  | entry nonempty => exact ⟨_, rfl, nonempty, rfl⟩

theorem OneList.entries (one : OneList memory names) (nonempty : names ≠ []) :
    ∃ entries, memory = ⟨[entries], some 0⟩ ∧ entries.map Ifconf.ifname = names.map some := by
  cases one with
  | empty => exact absurd rfl nonempty
  | list named _ => exact ⟨_, rfl, named⟩

theorem OneList.map_list (one : OneList memory names) :
    memory.list.map Ifconf.ifname = names.map some := by
  cases one with
  | empty => rfl
  | list named _ => exact named

theorem OneList.kept (one : OneList memory names) :
    ∀ chain < memory.chains.length, memory.iflist = some chain := by
  intro chain inside
  cases one with
  | empty => exact absurd inside (Nat.not_lt_zero _)
  | list _ _ => rw [Nat.lt_one_iff.mp inside]

theorem nodup_append_singleton {seen : List CString} (apart : seen.Nodup) (fresh : name ∉ seen) :
    (seen ++ [name]).Nodup := by
  rw [← List.concat_eq_append]
  exact apart.concat fresh

theorem nodup_map_some : (names.map some).Nodup ↔ names.Nodup :=
  List.nodup_map_iff (Option.some_injective _)

theorem OneList.spoiled (one : OneList memory names) (twice : ¬ names.Nodup) : Spoiled memory := by
  cases one with
  | empty => exact absurd List.nodup_nil twice
  | @list entries _ named _ =>
      refine Or.inr ⟨0, entries, rfl, ?_⟩
      rw [named, nodup_map_some]
      exact twice

/-- Lists only get longer, so what is spoiled stays so. -/
theorem Spoiled.append (spoiled : Spoiled memory) (chain : Nat) (entry : Ifconf) :
    Spoiled (memory.append chain entry) := by
  rcases spoiled with several | ⟨place, entries, there, twice⟩
  · refine Or.inl ?_
    rw [Chains.append, List.length_modify]
    exact several
  · refine Or.inr ?_
    by_cases here : chain = place
    · refine ⟨place, entries ++ [entry], ?_, ?_⟩
      · rw [Chains.append, List.getElem?_modify, there, here]
        exact congrArg some (if_pos rfl)
      · rw [List.map_append]
        exact fun nodup => twice nodup.of_append_left
    · refine ⟨place, entries, ?_, twice⟩
      rw [Chains.append, List.getElem?_modify, there]
      exact congrArg some (if_neg here)

theorem Spoiled.start (spoiled : Spoiled memory) (entry : Ifconf) :
    Spoiled (memory.start entry) := by
  rcases spoiled with several | ⟨place, entries, there, twice⟩
  · refine Or.inl ?_
    rw [Chains.start, List.length_append]
    exact Nat.le_add_right_of_le several
  · refine Or.inr ⟨place, entries, ?_, twice⟩
    rw [Chains.start, List.getElem?_append_left (List.getElem?_eq_some_iff.mp there).1]
    exact there

theorem FullList.not_spoiled {c : Cfg} (full : FullList c memory) : ¬ Spoiled memory := by
  rintro (several | ⟨place, entries, there, twice⟩)
  · have first := full.kept 0 (by omega)
    have second := full.kept 1 (by omega)
    cases first.symm.trans second
  · have inside := (List.getElem?_eq_some_iff.mp there).1
    have unique := full.unique
    rw [Chains.list, full.kept place inside, Option.map_some, Option.getD_some, Chains.entries,
      there, Option.getD_some] at unique
    exact twice unique

end Memory

/-! ## Sections -/

section Sections

variable {loglist : List Logconf} {log : Option Logging} {memory memory' : Chains}
  {names : List CString} {ifentry entry : Ifconf}

theorem ifStatement_name {lvalue rvalue : CString}
    (returns : ifStatement loglist ifentry lvalue rvalue = .ok (some entry)) :
    entry.ifname = if lvalue = text "interface" then some rvalue else ifentry.ifname := by
  unfold ifStatement at returns
  by_cases mtu : lvalue = text "mtu"
  · have other : lvalue ≠ text "interface" := by
      rw [mtu]
      decide
    rw [if_pos mtu] at returns
    rw [if_neg other]
    split at returns
    · cases returns
    · cases returns
      rfl
  · rw [if_neg mtu] at returns
    by_cases named : lvalue = text "interface"
    · rw [if_pos named] at returns ⊢
      cases returns
      rfl
    · rw [if_neg named] at returns ⊢
      split_ifs at returns
      · cases returns
        rfl
      · obtain ⟨_, _, returned⟩ := bind_eq_ok.mp returns
        cases returned
        rfl
      · cases returns

theorem ifStatements_name {c : Cfg}
    (returns : ifStatements loglist ifentry c = .ok (entry, true)) :
    entry.ifname = (lastAssigned (text "interface") c).or ifentry.ifname := by
  induction c generalizing ifentry with
  | null =>
      cases returns
      rfl
  | block lvalue body next _ ih => exact ih returns
  | assignment lvalue rvalue next ih =>
      rw [ifStatements] at returns
      obtain ⟨parsed, statement, returns⟩ := bind_eq_ok.mp returns
      cases parsed with
      | none => cases returns
      | some middle =>
          rw [ih returns, ifStatement_name statement, lastAssigned, Option.or_assoc]
          split_ifs <;> rfl

/-- A section that is accepted puts its name behind the others. -/
theorem parseINT_oneList (found : referencelog (text "default") loglist = .ok log) {body : Cfg}
    (parses : ParsesINT loglist log body) (one : OneList memory names) :
    ∃ name memory', lastAssigned (text "interface") body = some name ∧
      parseINT loglist memory body = .ok memory' ∧ OneList memory' (names ++ [name]) := by
  obtain ⟨entry, statements, named⟩ := parses
  have given := ifStatements_name statements
  rw [Option.or_none] at given
  rw [given] at named
  obtain ⟨name, last⟩ := Option.isSome_iff_exists.mp named
  rw [last] at given
  unfold parseINT
  rw [found]
  cases one with
  | empty =>
      refine ⟨name, Chains.start ⟨[], none⟩ entry, last, ?_, .start given⟩
      exact bind_eq_ok.mpr ⟨log, rfl, bind_eq_ok.mpr ⟨_, statements, rfl⟩⟩
  | list listed _ =>
      refine ⟨name, Chains.append ⟨_, some 0⟩ 0 entry, last, ?_, .append listed given⟩
      exact bind_eq_ok.mpr ⟨log, rfl, bind_eq_ok.mpr ⟨_, statements, rfl⟩⟩

theorem foldlM_parseINT (found : referencelog (text "default") loglist = .ok log)
    {bodies : List Cfg} (parses : ∀ body ∈ bodies, ParsesINT loglist log body)
    (one : OneList memory names) :
    ∃ memory', bodies.foldlM (parseINT loglist) memory = .ok memory' ∧
      OneList memory' (names ++ bodies.filterMap (lastAssigned (text "interface"))) := by
  induction bodies generalizing memory names with
  | nil =>
      refine ⟨memory, rfl, ?_⟩
      rw [List.filterMap_nil, List.append_nil]
      exact one
  | cons body bodies ih =>
      obtain ⟨name, middle, last, parsed, between⟩ :=
        parseINT_oneList found (parses body List.mem_cons_self) one
      obtain ⟨memory', folded, after⟩ :=
        ih (fun body member => parses body (List.mem_cons_of_mem _ member)) between
      refine ⟨memory', ?_, ?_⟩
      · rw [List.foldlM_cons]
        exact bind_eq_ok.mpr ⟨middle, parsed, folded⟩
      · rw [List.filterMap_cons, last]
        rwa [List.append_assoc, List.singleton_append] at after

theorem children_subset_blocks (keyword : CString) (c : Cfg) :
    ∀ body ∈ c.children keyword, body ∈ c.blocks keyword := by
  induction c with
  | null => exact fun body member => nomatch member
  | assignment lvalue rvalue next ih => exact ih
  | block lvalue body next _ ih =>
      intro other member
      rw [BlockTree.children] at member
      rw [BlockTree.blocks, List.append_assoc, List.mem_append, List.mem_append]
      split_ifs at member ⊢
      · rcases List.mem_cons.mp member with rfl | member
        · exact Or.inl List.mem_cons_self
        · exact Or.inr (Or.inr (ih other member))
      · exact Or.inr (Or.inr (ih other member))

/-- The first loop puts the names of the sections behind the others. -/
theorem intSections_oneList (found : referencelog (text "default") loglist = .ok log) {c : Cfg}
    (parses : ∀ body ∈ c.blocks (text "interface"), ParsesINT loglist log body)
    (one : OneList memory names) :
    ∃ memory', intSections loglist memory c = .ok memory' ∧
      OneList memory' (names ++ sectionNames c) :=
  foldlM_parseINT found
    (fun body member => parses body (children_subset_blocks _ c body member)) one

theorem Spoiled.parseINT {body : Cfg} (spoiled : Spoiled memory)
    (returns : Config.parseINT loglist memory body = .ok memory') : Spoiled memory' := by
  obtain ⟨log, _, returns⟩ := bind_eq_ok.mp returns
  obtain ⟨⟨entry, accepted⟩, _, returned⟩ := bind_eq_ok.mp returns
  cases returned
  split_ifs
  · split
    · exact spoiled.start entry
    · exact spoiled.append _ entry
  · split
    · exact spoiled.start entry
    · exact spoiled.append _ entry

theorem Spoiled.intSections {c : Cfg} (spoiled : Spoiled memory)
    (returns : Config.intSections loglist memory c = .ok memory') : Spoiled memory' := by
  unfold Config.intSections at returns
  generalize c.children (text "interface") = bodies at returns
  induction bodies generalizing memory with
  | nil =>
      cases returns
      exact spoiled
  | cons body bodies ih =>
      rw [List.foldlM_cons] at returns
      obtain ⟨middle, parsed, returns⟩ := bind_eq_ok.mp returns
      exact ih (spoiled.parseINT parsed) returns

end Sections

/-! ## References -/

section References

variable {loglist : List Logconf} {log : Option Logging} {memory memory' : Chains}
  {seen seen' skipped : List CString} {passed : Option (List CString)} {cursor : Cursor} {c : Cfg}

/-- Entries with names are compared one after the other. -/
theorem refersTo_eq {entries : List Ifconf} {names : List CString} (name : CString)
    (named : entries.map Ifconf.ifname = names.map some) :
    refersTo name entries = .ok (decide (name ∈ names)) := by
  induction entries generalizing names with
  | nil =>
      cases names with
      | nil => rfl
      | cons => cases named
  | cons entry entries ih =>
      cases names with
      | nil => cases named
      | cons known names =>
          rw [List.map_cons, List.map_cons, List.cons.injEq] at named
          rw [refersTo, named.1]
          dsimp only
          by_cases same : known = name
          · rw [if_pos same, decide_eq_true (List.mem_cons.mpr (Or.inl same.symm))]
          · have other : name ∈ known :: names ↔ name ∈ names := by
              rw [List.mem_cons, or_iff_right fun equal => same equal.symm]
            rw [if_neg same, ih named.2, decide_eq_decide.mpr other]

/-- The entries from the cursor on. -/
theorem refersTo_ahead {entries : List Ifconf} {before ahead : List CString} (name : CString)
    (named : entries.map Ifconf.ifname = (before ++ ahead).map some) :
    refersTo name (entries.drop before.length) = .ok (decide (name ∈ ahead)) := by
  apply refersTo_eq
  rw [List.map_drop, named, List.map_append, List.drop_left' (List.length_map _)]

/-- A reference with a cursor in the list: the name is ahead of it, or it is put behind the
others. -/
theorem intReferences_name {before : List CString}
    (found : referencelog (text "default") loglist = .ok log) (one : OneList memory seen)
    (points : PointsBehind (some before) seen cursor) (name : CString) (next : Cfg) :
    ∃ ahead, seen = before ++ ahead ∧
      OneList (memory.append 0 ⟨some name, 1500, 0, log⟩) (seen ++ [name]) ∧
      intReferences loglist memory cursor (.assignment (text "interface") name next) =
        if name ∈ ahead then .ok memory
        else intReferences loglist (memory.append 0 ⟨some name, 1500, 0, log⟩)
          (some (0, seen.length)) next := by
  obtain ⟨ahead, behind, nonempty, rfl⟩ := points.at
  obtain ⟨entries, rfl, named⟩ := one.entries nonempty
  refine ⟨ahead, behind, .append named rfl, ?_⟩
  have length := congrArg List.length named
  rw [List.length_map, List.length_map] at length
  rw [behind] at named
  have compared := refersTo_ahead name named
  have here : Chains.entries ⟨[entries], some 0⟩ 0 = entries := rfl
  rw [intReferences, if_pos rfl, found]
  refine Eq.trans (b := (refersTo name (entries.drop before.length) >>= _)) rfl ?_
  rw [compared, ← length]
  by_cases member : name ∈ ahead
  · rw [if_pos member, decide_eq_true member]
    rfl
  · rw [if_neg member, decide_eq_false member]
    rfl

theorem Spoiled.intReferences (spoiled : Spoiled memory)
    (returns : Config.intReferences loglist memory cursor c = .ok memory') : Spoiled memory' := by
  induction c generalizing memory cursor memory' with
  | null =>
      cases returns
      exact spoiled
  | assignment lvalue rvalue next ih =>
      rw [Config.intReferences] at returns
      split_ifs at returns
      · obtain ⟨log, _, returns⟩ := bind_eq_ok.mp returns
        cases cursor with
        | none => exact ih (spoiled.start _) returns
        | some cursor =>
            obtain ⟨known, _, returns⟩ := bind_eq_ok.mp returns
            split_ifs at returns
            · cases returns
              exact spoiled
            · exact ih (spoiled.append _ _) returns
      · exact ih spoiled returns
  | block lvalue body next ihBody ihNext =>
      obtain ⟨middle, sections, returns⟩ := bind_eq_ok.mp returns
      obtain ⟨between, inside, returns⟩ := bind_eq_ok.mp returns
      exact ihNext (ihBody (spoiled.intSections sections) inside) returns

/-- The names stay apart, and new ones come behind. -/
theorem Orderly.nodup (orderly : Orderly passed seen c seen' skipped) (apart : seen.Nodup) :
    seen'.Nodup ∧ seen <+: seen' := by
  induction orderly with
  | done => exact ⟨apart, List.prefix_rfl⟩
  | other _ _ ih => exact ih apart
  | first _ ih =>
      obtain ⟨apart', _⟩ := ih (List.nodup_singleton _)
      exact ⟨apart', List.nil_prefix⟩
  | @new _ seen _ _ name _ fresh _ ih =>
      obtain ⟨apart', grows⟩ := ih (nodup_append_singleton apart fresh)
      exact ⟨apart', (List.prefix_append seen [name]).trans grows⟩
  | again => exact ⟨apart, List.prefix_rfl⟩
  | block fresh _ _ ihInside ihLater =>
      obtain ⟨apartBetween, growsBetween⟩ := ihInside fresh
      obtain ⟨apart', grows⟩ := ihLater apartBetween
      exact ⟨apart', (List.prefix_append _ _).trans (growsBetween.trans grows)⟩

/-- Every name that is used is seen or left out. -/
theorem Orderly.covers (orderly : Orderly passed seen c seen' skipped) (apart : seen.Nodup) :
    ∀ name ∈ namedInterfaces c, name ∈ seen' ∨ name ∈ skipped := by
  induction orderly with
  | done => exact fun name member => nomatch member
  | other other _ ih =>
      intro name member
      rw [namedInterfaces, if_neg other, List.nil_append] at member
      exact ih apart name member
  | first later ih =>
      intro name member
      rw [namedInterfaces, if_pos rfl, List.singleton_append, List.mem_cons] at member
      rcases member with rfl | member
      · exact Or.inl ((later.nodup (List.nodup_singleton _)).2.subset List.mem_cons_self)
      · exact ih (List.nodup_singleton _) name member
  | new fresh later ih =>
      have apart' := nodup_append_singleton apart fresh
      intro name member
      rw [namedInterfaces, if_pos rfl, List.singleton_append, List.mem_cons] at member
      rcases member with rfl | member
      · exact Or.inl ((later.nodup apart').2.subset List.mem_concat_self)
      · exact ih apart' name member
  | again known _ =>
      intro name member
      rw [namedInterfaces, if_pos rfl, List.singleton_append, List.mem_cons] at member
      rcases member with rfl | member
      · exact Or.inl known
      · exact Or.inr member
  | block fresh inside later ihInside ihLater =>
      have apartBetween := (inside.nodup fresh).1
      intro name member
      rw [namedInterfaces, List.mem_append] at member
      rw [List.mem_append]
      rcases member with member | member
      · rcases ihInside fresh name member with here | left
        · exact Or.inl ((later.nodup apartBetween).2.subset here)
        · exact Or.inr (Or.inl left)
      · rcases ihLater apartBetween name member with here | left
        · exact Or.inl here
        · exact Or.inr (Or.inr left)

/-- What is left out is used somewhere. -/
theorem Orderly.skipped_subset (orderly : Orderly passed seen c seen' skipped) :
    ∀ name ∈ skipped, name ∈ namedInterfaces c := by
  induction orderly with
  | done => exact fun name member => nomatch member
  | other _ _ ih => exact fun name member => List.mem_append_right _ (ih name member)
  | first _ ih => exact fun name member => List.mem_append_right _ (ih name member)
  | new _ _ ih => exact fun name member => List.mem_append_right _ (ih name member)
  | again => exact fun name member => List.mem_append_right _ member
  | block _ _ _ ihInside ihLater =>
      intro name member
      rw [namedInterfaces, List.mem_append]
      rcases List.mem_append.mp member with member | member
      · exact Or.inl (ihInside name member)
      · exact Or.inr (ihLater name member)

theorem parses_block {lvalue : CString} {body next : Cfg}
    (parses : ∀ other ∈ (BlockTree.block lvalue body next).blocks (text "interface"),
      ParsesINT loglist log other) :
    (∀ other ∈ body.blocks (text "interface"), ParsesINT loglist log other) ∧
      ∀ other ∈ next.blocks (text "interface"), ParsesINT loglist log other := by
  rw [BlockTree.blocks] at parses
  exact ⟨fun other member => parses other (List.mem_append_left _ (List.mem_append_right _ member)),
    fun other member => parses other (List.mem_append_right _ member)⟩

/-- Names in order come on one list. -/
theorem Orderly.intReferences (found : referencelog (text "default") loglist = .ok log)
    (orderly : Orderly passed seen c seen' skipped)
    (parses : ∀ body ∈ c.blocks (text "interface"), ParsesINT loglist log body)
    (apart : seen.Nodup) (one : OneList memory seen) (points : PointsBehind passed seen cursor) :
    ∃ memory', Config.intReferences loglist memory cursor c = .ok memory' ∧
      OneList memory' seen' := by
  induction orderly generalizing memory cursor with
  | done => exact ⟨memory, rfl, one⟩
  | other other _ ih =>
      rw [Config.intReferences, if_neg other]
      exact ih parses apart one points
  | @first _ _ name next _ ih =>
      cases points
      cases one with
      | list _ nonempty => exact absurd rfl nonempty
      | empty =>
          have started : OneList (Chains.start ⟨[], none⟩ ⟨some name, 1500, 0, log⟩) [name] :=
            .start rfl
          have points := @PointsBehind.entry [] [name] (List.cons_ne_nil _ _)
          obtain ⟨memory', returns, after⟩ := ih parses (List.nodup_singleton _) started points
          refine ⟨memory', ?_, after⟩
          rw [Config.intReferences, if_pos rfl, found]
          exact returns
  | @new before seen seen' skipped name next fresh _ ih =>
      obtain ⟨ahead, same, added, step⟩ := intReferences_name found one points name next
      have notAhead : name ∉ ahead := fun member => fresh (same ▸ List.mem_append_right _ member)
      rw [step, if_neg notAhead]
      exact ih parses (nodup_append_singleton apart fresh) added (.entry (List.concat_ne_nil _ _))
  | @again before seen name next known notPassed =>
      obtain ⟨ahead, same, _, step⟩ := intReferences_name found one points name next
      have ahead' : name ∈ ahead := by
        rw [same, List.mem_append] at known
        exact known.resolve_left notPassed
      exact ⟨memory, step.trans (if_pos ahead'), one⟩
  | block fresh inside _ ihInside ihLater =>
      obtain ⟨inBody, inNext⟩ := parses_block parses
      obtain ⟨middle, sections, oneMiddle⟩ := intSections_oneList found inBody one
      obtain ⟨after, returnsInside, oneAfter⟩ :=
        ihInside inBody fresh oneMiddle oneMiddle.pointsBehind
      obtain ⟨apartBetween, grows⟩ := inside.nodup fresh
      have points' := points.mono ((List.prefix_append _ _).trans grows)
      obtain ⟨memory', returnsLater, one'⟩ := ihLater inNext apartBetween oneAfter points'
      refine ⟨memory', ?_, one'⟩
      exact bind_eq_ok.mpr ⟨middle, sections, bind_eq_ok.mpr ⟨after, returnsInside, returnsLater⟩⟩

/-- Names that are not in order spoil the memory. -/
theorem orderly_or_spoiled (found : referencelog (text "default") loglist = .ok log)
    (parses : ∀ body ∈ c.blocks (text "interface"), ParsesINT loglist log body)
    (apart : seen.Nodup) (one : OneList memory seen) (points : PointsBehind passed seen cursor)
    (returns : intReferences loglist memory cursor c = .ok memory') :
    (∃ seen' skipped, Orderly passed seen c seen' skipped) ∨ Spoiled memory' := by
  induction c generalizing memory memory' seen passed cursor with
  | null => exact Or.inl ⟨seen, [], .done⟩
  | assignment lvalue name next ih =>
      by_cases named : lvalue = text "interface"
      · subst named
        cases passed with
        | none =>
            cases points
            rw [intReferences, if_pos rfl, found] at returns
            cases one with
            | empty =>
                have started : OneList (Chains.start ⟨[], none⟩ ⟨some name, 1500, 0, log⟩) [name] :=
                  .start rfl
                have points := @PointsBehind.entry [] [name] (List.cons_ne_nil _ _)
                have later := ih parses (List.nodup_singleton _) started points returns
                exact later.imp_left fun ⟨seen', skipped, orderly⟩ =>
                  ⟨seen', skipped, .first orderly⟩
            | @list entries _ _ _ =>
                -- the list so far is left behind
                have several : 2 ≤
                    (Chains.start ⟨[entries], some 0⟩ ⟨some name, 1500, 0, log⟩).chains.length :=
                  Nat.le_refl 2
                exact Or.inr (Spoiled.intReferences (Or.inl several) returns)
        | some before =>
            obtain ⟨ahead, same, added, step⟩ := intReferences_name found one points name next
            rw [step] at returns
            by_cases member : name ∈ ahead
            · have disjoint : name ∉ before := by
                rw [same] at apart
                exact fun member' => (List.disjoint_of_nodup_append apart) member' member
              have known : name ∈ seen := same ▸ List.mem_append_right _ member
              exact Or.inl ⟨seen, _, .again known disjoint⟩
            · rw [if_neg member] at returns
              by_cases known : name ∈ seen
              · have twice : ¬ (seen ++ [name]).Nodup := fun nodup =>
                  (List.disjoint_of_nodup_append nodup) known List.mem_cons_self
                exact Or.inr ((added.spoiled twice).intReferences returns)
              · have later := ih parses (nodup_append_singleton apart known) added
                  (.entry (List.concat_ne_nil _ _)) returns
                exact later.imp_left fun ⟨seen', skipped, orderly⟩ =>
                  ⟨seen', skipped, .new known orderly⟩
      · rw [intReferences, if_neg named] at returns
        have later := ih parses apart one points returns
        exact later.imp_left fun ⟨seen', skipped, orderly⟩ => ⟨seen', skipped, .other named orderly⟩
  | block lvalue body next ihBody ihNext =>
      obtain ⟨inBody, inNext⟩ := parses_block parses
      obtain ⟨middle, sections, oneMiddle⟩ := intSections_oneList found inBody one
      obtain ⟨middle', sections', returns⟩ := bind_eq_ok.mp returns
      cases sections.symm.trans sections'
      obtain ⟨between, returnsInside, returns⟩ := bind_eq_ok.mp returns
      by_cases fresh : (seen ++ sectionNames body).Nodup
      · rcases ihBody inBody fresh oneMiddle oneMiddle.pointsBehind returnsInside with
          ⟨seenBetween, skipped, inside⟩ | spoiled
        · obtain ⟨between', returnsInside', oneBetween⟩ :=
            inside.intReferences found inBody fresh oneMiddle oneMiddle.pointsBehind
          cases returnsInside.symm.trans returnsInside'
          obtain ⟨apartBetween, grows⟩ := inside.nodup fresh
          have points' := points.mono ((List.prefix_append _ _).trans grows)
          have later := ihNext inNext apartBetween oneBetween points' returns
          exact later.imp_left fun ⟨seen', skipped', orderly⟩ =>
            ⟨seen', _, .block fresh inside orderly⟩
        · exact Or.inr (spoiled.intReferences returns)
      · have spoiled := oneMiddle.spoiled fresh
        exact Or.inr ((spoiled.intReferences returnsInside).intReferences returns)

end References

/-! ## When all are found -/

section Found

variable {memory : Chains} {names : List CString}

theorem OneList.mem_list (one : OneList memory names) {name : CString} (member : name ∈ names) :
    ∃ entry ∈ memory.list, entry.ifname = some name := by
  have mapped : some name ∈ memory.list.map Ifconf.ifname := by
    rw [one.map_list]
    exact List.mem_map_of_mem member
  exact List.mem_map.mp mapped

/-- Looking a name up that is on a list with names succeeds. -/
theorem referenceifconf_of_mem {list : List Ifconf} {name : CString}
    (named : list.map Ifconf.ifname = names.map some) (member : name ∈ names) :
    ∃ position, referenceifconf name list = .ok (some position) := by
  unfold referenceifconf
  induction list generalizing names with
  | nil =>
      cases names with
      | nil => cases member
      | cons => cases named
  | cons entry list ih =>
      cases names with
      | nil => cases member
      | cons known names =>
          rw [List.map_cons, List.map_cons, List.cons.injEq] at named
          rw [reference, named.1]
          by_cases same : name = known
          · exact ⟨0, if_pos same⟩
          · have later := (List.mem_cons.mp member).resolve_left same
            obtain ⟨position, found⟩ := ih named.2 later
            refine ⟨position + 1, ?_⟩
            rw [follow, if_neg same, found]
            rfl

theorem OneList.fullList {c : Cfg} (one : OneList memory names) (apart : names.Nodup)
    (complete : ∀ name ∈ namedInterfaces c, name ∈ names) : FullList c memory where
  complete name member := one.mem_list (complete name member)
  unique := by
    rw [one.map_list, nodup_map_some]
    exact apart
  kept := one.kept
  refers name member := referenceifconf_of_mem one.map_list (complete name member)

end Found

/-- For every file whose interface sections are accepted and have names: `findINT` returns one
list with an entry for each name that is used, no two for one name, and all entries that it
found, if and only if the sections and the references name interfaces in order. -/
theorem discoversAll_iff (loglist : List Logconf) (log : Option Logging) (c : Cfg)
    (found : referencelog (text "default") loglist = .ok log)
    (parses : ∀ body ∈ c.blocks (text "interface"), ParsesINT loglist log body) :
    DiscoversAll loglist c ↔ OrderlyFile c := by
  obtain ⟨middle, sections, oneMiddle⟩ := intSections_oneList found parses .empty
  rw [List.nil_append] at oneMiddle
  constructor
  · rintro ⟨memory, search, _, full⟩
    obtain ⟨middle', sections', returns⟩ := bind_eq_ok.mp search
    cases sections.symm.trans sections'
    have apart : (sectionNames c).Nodup := by
      by_contra twice
      exact full.not_spoiled ((oneMiddle.spoiled twice).intReferences returns)
    rcases orderly_or_spoiled found parses apart oneMiddle oneMiddle.pointsBehind returns with
      ⟨seen, skipped, orderly⟩ | spoiled
    · obtain ⟨memory', returns', one⟩ :=
        orderly.intReferences found parses apart oneMiddle oneMiddle.pointsBehind
      cases returns.symm.trans returns'
      refine ⟨apart, seen, skipped, orderly, ?_⟩
      intro name left
      obtain ⟨entry, member, named⟩ := full.complete name (orderly.skipped_subset name left)
      have mapped : some name ∈ seen.map some := by
        rw [← one.map_list, ← named]
        exact List.mem_map_of_mem member
      exact (List.mem_map_of_injective (Option.some_injective _)).mp mapped
    · exact absurd spoiled full.not_spoiled
  · rintro ⟨apart, seen, skipped, orderly, elsewhere⟩
    obtain ⟨memory, returns, one⟩ :=
      orderly.intReferences found parses apart oneMiddle oneMiddle.pointsBehind
    have search : discovered loglist c = .ok memory := bind_eq_ok.mpr ⟨middle, sections, returns⟩
    refine ⟨memory, search, ?_, one.fullList (orderly.nodup apart).1 ?_⟩
    · rw [discovered_list, search]
      rfl
    · intro name member
      exact (orderly.covers apart name member).elim id (elsewhere name)

/-- A section for one interface, a device on it and a device on another one. -/
def orderlyFile : Cfg :=
  .block (text "interface")
    (.assignment (text "interface") (text "eth0") (.assignment (text "mtu") (text "auto") .null))
    (.block (text "device") (.assignment (text "slot") (text "1")
      (.assignment (text "interface") (text "eth0") .null))
      (.block (text "device") (.assignment (text "interface") (text "eth1") .null) .null))

/-- The default target, where the file names no other. -/
def defaultTarget : Option Logging := some ⟨text "default", .syslog⟩

theorem discoversAll_iff_orderlyFile : DiscoversAll [createdefaultlog] orderlyFile := by
  refine (discoversAll_iff [createdefaultlog] defaultTarget orderlyFile rfl ?_).mpr
    ⟨by decide, [text "eth0", text "eth1"], [] ++ ([] ++ ([] ++ [])), ?_, by decide⟩
  · intro body member
    cases List.mem_singleton.mp member
    exact ⟨_, rfl, rfl⟩
  · refine .block (by decide) (.again (by decide) (by decide)) ?_
    refine .block (by decide) (.other (by decide) (.again (by decide) (by decide))) ?_
    exact .block (by decide) (.new (by decide) .done) .done

/-- A device section with some statements, in front of others. -/
def deviceBlock (body next : Cfg) : Cfg := .block (text "device") body next

def onInterface (name : String) (next : Cfg) : Cfg :=
  .assignment (text "interface") (text name) next

/-- All interface sections are accepted and have names, and something is not found. -/
def Misses (c : Cfg) : Prop :=
  (∀ body ∈ c.blocks (text "interface"), ParsesINT [createdefaultlog] defaultTarget body) ∧
    ¬ DiscoversAll [createdefaultlog] c

/-- A name behind one that is known is left out; one that the cursor has passed is found twice;
a list is lost that a block inside has started; two sections of one name are both kept. -/
theorem discoversAll_fails :
    Misses (deviceBlock (onInterface "eth0" .null)
      (deviceBlock (onInterface "eth0" (onInterface "eth1" .null)) .null)) ∧
    Misses (deviceBlock
      (onInterface "eth0" (onInterface "eth1" (onInterface "eth0" .null))) .null) ∧
    Misses (deviceBlock (.block (text "acl") (onInterface "eth0" .null)
      (onInterface "eth1" .null)) .null) ∧
    Misses (.block (text "interface") (onInterface "eth0" .null)
      (.block (text "interface") (onInterface "eth0" .null) .null)) := by
  refine ⟨⟨(fun _ none => nomatch none), ?_⟩, ⟨(fun _ none => nomatch none), ?_⟩,
    ⟨(fun _ none => nomatch none), ?_⟩, ?_, ?_⟩
  · rintro ⟨memory, search, _, full⟩
    cases search
    exact absurd (full.complete (text "eth1") (by decide)) (by decide)
  · rintro ⟨memory, search, _, full⟩
    cases search
    exact absurd full.unique (by decide)
  · rintro ⟨memory, search, _, full⟩
    cases search
    exact absurd (full.kept 0 (by decide)) (by decide)
  · intro body member
    have same : body = onInterface "eth0" .null := by
      rcases List.mem_cons.mp member with first | member
      · exact first
      · exact List.mem_singleton.mp member
    rw [same]
    exact ⟨_, rfl, rfl⟩
  · rintro ⟨memory, search, _, full⟩
    cases search
    exact absurd full.unique (by decide)

end Qaoed.Config
