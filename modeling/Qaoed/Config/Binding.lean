import Qaoed.Config.Complete

/-!
# Access lists that devices name

`referenceacl` answers NULL for a name it does not find, and a device with a NULL
pointer is open to everyone or takes the list of the default device. What a device
section says is binding just as long as the section and the list it names survive
the walks.
-/

namespace Qaoed.Config

open Qaoed.Device
open Qaoed.Library

/-- The statements of the `acl` blocks of a device section. -/
def statedAcls (section_ : Cfg) : List (AclOp × CString) :=
  (section_.children (text "acl")).flatMap fun body =>
    body.assignments.filterMap fun statement => (aclKeyword statement.1).map (·, statement.2)

/-- The name that the last statement for an operation gives. -/
def lastFor (op : AclOp) (statements : List (AclOp × CString)) (before : Option CString) :
    Option CString :=
  statements.foldl (fun name statement => if statement.1 = op then some statement.2 else name) before

/-- The access list that a device section asks for. -/
def demanded (op : AclOp) (section_ : Cfg) : Option CString := lastFor op (statedAcls section_) none

/-- The device refers to a list of the configuration with this name. -/
def RefersTo (conf : Conf) (op : AclOp) (device : Devconf) (name : CString) : Prop :=
  ∃ position acl, op.get device = some position ∧ conf.acllist[position]? = some acl ∧
    acl.name = some name

/-- Every device section that asks for an access list has a device that refers to it.
Devices and sections correspond from the end of the lists. -/
def ListsBinding (c : Cfg) (conf : Conf) : Prop :=
  ∀ (place : Nat) body op name, (c.sections (text "device")).reverse[place]? = some body →
    demanded op body = some name →
    ∃ device, conf.devices.reverse[place]? = some device ∧ RefersTo conf op device name

/-- No device section that asks for an access list is rejected or followed by one that
is, and the list it asks for is the name of an access-list section of which the same
holds. -/
def DemandsKept (c : Cfg) : Prop :=
  ∀ (place : Nat) body op name, (c.sections (text "device")).reverse[place]? = some body →
    demanded op body = some name →
    (∀ earlier ≤ place, ∀ later, (c.sections (text "device")).reverse[earlier]? = some later →
      acceptsDEV later = true) ∧
    ∃ section_ ∈ keptACL c, aclName section_ = some name

section Statements

theorem blockAcls_eq {statements : List (CString × CString)}
    (known : (statements.all fun statement => (aclKeyword statement.1).isSome) = true) :
    blockAcls statements =
      statements.filterMap fun statement => (aclKeyword statement.1).map (·, statement.2) := by
  induction statements with
  | nil => rfl
  | cons statement rest ih =>
      obtain ⟨lvalue, rvalue⟩ := statement
      rw [List.all_cons, Bool.and_eq_true] at known
      obtain ⟨op, keyword⟩ := Option.isSome_iff_exists.mp known.1
      rw [blockAcls, List.filterMap_cons]
      simp only [keyword, Option.map_some, ih known.2]

/-- Reading an accepted section stops at none of its statements. -/
theorem namedAcls_eq {section_ : Cfg} (accepted : acceptsDEV section_ = true) :
    namedAcls section_ = statedAcls section_ := by
  induction section_ with
  | null => rfl
  | assignment lvalue rvalue next ih =>
      rw [acceptsDEV, Bool.and_eq_true] at accepted
      rw [namedAcls, if_pos accepted.1]
      exact ih accepted.2
  | block lvalue body next _ ih =>
      rw [acceptsDEV, Bool.and_eq_true] at accepted
      rw [namedAcls, statedAcls, BlockTree.children]
      by_cases acl : lvalue = text "acl"
      · have known : acceptsACLBlock body = true := by
          simpa [acl] using accepted.1
        rw [if_pos acl, if_pos acl, if_pos known, List.flatMap_cons, blockAcls_eq known,
          ih accepted.2, statedAcls]
      · rw [if_neg acl, if_neg acl, ih accepted.2, statedAcls]

/-- The pointer that statements leave is that of the name they give last. -/
theorem assigned_pointers (acllist : List Aclconf) (statements : List (AclOp × CString))
    (op : AclOp) (before : Option CString) :
    assigned (pointers acllist statements) op (before.bind (resolve acllist)) =
      (lastFor op statements before).bind (resolve acllist) := by
  induction statements generalizing before with
  | nil => rfl
  | cons statement rest ih =>
      have later := ih (if statement.1 = op then some statement.2 else before)
      rw [lastFor, List.foldl_cons, ← lastFor, ← later, pointers, List.map_cons, assigned,
        List.foldl_cons, ← assigned, ← pointers]
      congr 1
      split <;> rfl

/-- An accepted device section leaves the pointers to the lists it asks for. -/
theorem HasAcls.demanded {acllist : List Aclconf} {section_ : Cfg} {dev : Devconf}
    (has : HasAcls acllist section_ dev) (accepted : acceptsDEV section_ = true) (op : AclOp) :
    op.get dev = (Config.demanded op section_).bind (resolve acllist) := by
  rw [has op, namedAcls_eq accepted]
  exact assigned_pointers acllist (statedAcls section_) op none

end Statements

section Load

variable {c : Cfg} {conf : Conf} {ifconfs : List Ifconf} {acllist : List Aclconf}
  {devlist : List Devconf}

/-- The names of the lists of a configuration are those of the kept sections. -/
theorem Loaded.names (loaded : Loaded c conf ifconfs acllist devlist) :
    conf.acllist.map Aclconf.name = (keptACL c).map aclName := by
  have equal : List.Forall₂ (· = ·) ((keptACL c).map aclName) (conf.acllist.map Aclconf.name) := by
    rw [List.forall₂_map_left_iff, List.forall₂_map_right_iff]
    refine loaded.describesACL.imp ?_
    rintro section_ acl ⟨read, reads, same⟩
    exact reads.name.symm.trans (congrArg Aclconf.name same).symm
  rw [List.forall₂_eq_eq_eq] at equal
  exact equal.symm

/-- A name stands for a list of the configuration exactly if a kept section gives it. -/
theorem Loaded.resolve_isSome_iff (loaded : Loaded c conf ifconfs acllist devlist)
    (name : CString) :
    (resolve conf.acllist name).isSome = true ↔
      ∃ section_ ∈ keptACL c, aclName section_ = some name := by
  have members (entry : Option CString) : entry ∈ conf.acllist.map Aclconf.name ↔
      entry ∈ (keptACL c).map aclName := by
    rw [loaded.names]
  simpa [List.mem_map, Config.resolve_isSome_iff] using members (some name)

/-- The first elements of a list up to a place are accepted exactly if the place is
among those taken. -/
theorem lt_length_takeWhile_iff {α : Type} {accepts : α → Bool} {list : List α} {place : Nat}
    (inside : place < list.length) :
    place < (list.takeWhile accepts).length ↔
      ∀ earlier ≤ place, ∀ entry, list[earlier]? = some entry → accepts entry = true := by
  induction list generalizing place with
  | nil => cases inside
  | cons first rest ih =>
      cases accepted : accepts first with
      | false =>
          rw [List.takeWhile_cons_of_neg (by rw [accepted]; decide)]
          refine iff_of_false (Nat.not_lt_zero place) ?_
          intro all
          have first := all 0 (Nat.zero_le place) first rfl
          rw [accepted] at first
          cases first
      | true =>
          rw [List.takeWhile_cons_of_pos accepted, List.length_cons]
          cases place with
          | zero =>
              refine iff_of_true (Nat.succ_pos _) ?_
              intro earlier small entry here
              rw [Nat.le_zero.mp small] at here
              cases here
              exact accepted
          | succ place =>
              rw [Nat.succ_lt_succ_iff, ih (Nat.lt_of_succ_lt_succ inside)]
              constructor
              · intro all earlier small entry here
                cases earlier with
                | zero =>
                    cases here
                    exact accepted
                | succ earlier => exact all earlier (Nat.le_of_succ_le_succ small) entry here
              · intro all earlier small entry here
                exact all (earlier + 1) (Nat.succ_le_succ small) entry here

theorem reverse_keptDEV (c : Cfg) :
    (keptDEV c).reverse = (c.sections (text "device")).reverse.takeWhile acceptsDEV :=
  List.reverse_reverse _

/-- The last sections of a file, counted from the end, are those that are kept. -/
theorem keptDEV_getElem? {place : Nat} (kept : place < (keptDEV c).length) :
    (keptDEV c).reverse[place]? = (c.sections (text "device")).reverse[place]? := by
  have split := (List.takeWhile_append_dropWhile (p := acceptsDEV)
    (l := (c.sections (text "device")).reverse))
  rw [← reverse_keptDEV] at split
  rw [← split, List.getElem?_append_left (by rwa [List.length_reverse])]

end Load

/-- In a configuration that is loaded the access lists that devices name are binding
exactly if the sections on both sides are kept. -/
theorem listsBinding_iff (env : LoadEnv) (c : Cfg) (conf : Conf)
    (loads : qaoedLoadconfig env c = .ok conf) : ListsBinding c conf ↔ DemandsKept c := by
  obtain ⟨⟨ifconfs, acllist, devlist, loaded⟩, _⟩ := loaded_of_loads loads
  have described := loaded.describesDEV
  have kept_iff {place : Nat} {body : Cfg}
      (here : (c.sections (text "device")).reverse[place]? = some body) :
      place < (keptDEV c).length ↔ ∀ earlier ≤ place, ∀ later,
        (c.sections (text "device")).reverse[earlier]? = some later → acceptsDEV later = true := by
    rw [← List.length_reverse, reverse_keptDEV]
    exact lt_length_takeWhile_iff (List.getElem?_eq_some_iff.mp here).1
  constructor
  · intro binding place body op name here asks
    obtain ⟨device, has, position, acl, _, found, named⟩ := binding place body op name here asks
    have inside := (List.getElem?_eq_some_iff.mp has).1
    rw [List.length_reverse, ← described.length_eq] at inside
    refine ⟨(kept_iff here).mp inside, (loaded.resolve_isSome_iff name).mp ?_⟩
    exact Config.resolve_isSome_iff.mpr ⟨acl, List.mem_of_getElem? found, named⟩
  · intro kept place body op name here asks
    obtain ⟨last, listed⟩ := kept place body op name here asks
    have inKept := (keptDEV_getElem? ((kept_iff here).mpr last)).trans here
    obtain ⟨device, has, ifconfs, read, reads, completes⟩ :=
      forall₂_getElem? (List.forall₂_reverse_iff.mpr described) inKept
    obtain ⟨position, found⟩ :=
      Option.isSome_iff_exists.mp ((loaded.resolve_isSome_iff name).mpr listed)
    obtain ⟨acl, there, named⟩ := resolve_some found
    refine ⟨device, has, position, acl, ?_, there, named⟩
    have accepted := last place (Nat.le_refl place) body here
    rw [completes.acls op, reads.hasAcls.demanded accepted op, asks, Option.bind_some, found,
      Option.some_or]

/-! ## A misspelt name -/

/-- An access list `good`, and a device whose readers another section names. -/
def guardedDevice (name : String) : Cfg :=
  .block (text "access-list") (.assignment (text "name") (text "good")
    (.assignment (text "policy") (text "accept") .null))
    (deviceSection (text "/a") "1"
      (.block (text "acl") (.assignment (text "read") (text name) .null) .null) .null)

theorem listsBinding_iff_good :
    ∃ conf, qaoedLoadconfig willing (guardedDevice "good") = .ok conf ∧
      ListsBinding (guardedDevice "good") conf := by
  refine ⟨_, rfl, (listsBinding_iff willing (guardedDevice "good") _ rfl).mpr ?_⟩
  intro place body op name here asks
  cases place with
  | succ place => cases here
  | zero =>
      cases here
      constructor
      · intro earlier small later there
        rw [Nat.le_zero.mp small] at there
        cases there
        decide
      · cases op with
        | read =>
            cases asks
            exact ⟨_, List.mem_cons_self, rfl⟩
        | write => cases asks
        | cfgset => cases asks
        | cfgread => cases asks

/-- The device is open to everyone, although its section names a list for readers. -/
theorem misspeltName_opensDevice :
    ∃ conf, qaoedLoadconfig willing (guardedDevice "goood") = .ok conf ∧
      conf.devices.map AclOp.read.get = [none] ∧ ¬ ListsBinding (guardedDevice "goood") conf := by
  refine ⟨_, rfl, rfl, ?_⟩
  intro binding
  obtain ⟨device, has, position, acl, refers, _⟩ :=
    binding 0 _ .read (text "goood") rfl rfl
  cases has
  cases refers

end Qaoed.Config
