import Qaoed.Config.Load

/-!
# What the parse functions do

Which sections a parse function accepts, and which access lists a device section
names, read off the statements alone. One lemma for each parse function and each
walk says what it leaves behind in these terms.
-/

namespace Qaoed.Config

open Qaoed.Device
open Qaoed.Library

/-! ## Sections that are accepted -/

def acceptsLOG (c : Cfg) : Bool := (logStatements ⟨none, .syslog⟩ c).isSome

/-- A block counts as a statement without a value. -/
def acceptsACLStatement (lvalue : CString) (rvalue : Option CString) : Bool :=
  match lvalue.head? with
  | some 0x6e => lvalue = text "name"
  | some 0x70 => lvalue = text "policy"
  | some 0x6c => lvalue = text "log"
  | some 0x61 | some 0x72 => (rvalue.bind aclmac).isSome
  | _ => false

def acceptsACL : Cfg → Bool
  | .null => true
  | .block lvalue _ next => acceptsACLStatement lvalue none && acceptsACL next
  | .assignment lvalue rvalue next => acceptsACLStatement lvalue (some rvalue) && acceptsACL next

def devKeyword (lvalue : CString) : Bool :=
  lvalue ∈ ["shelf", "slot", "log-level", "log", "target", "interface", "writecache",
    "broadcast"].map text

def acceptsACLBlock (c : Cfg) : Bool := c.assignments.all fun statement => (aclKeyword statement.1).isSome

def acceptsDEV : Cfg → Bool
  | .null => true
  | .block lvalue body next => (lvalue ≠ text "acl" || acceptsACLBlock body) && acceptsDEV next
  | .assignment lvalue _ next => devKeyword lvalue && acceptsDEV next

def acceptsINT (c : Cfg) : Bool :=
  c.assignments.all fun (lvalue, rvalue) =>
    if lvalue = text "mtu" then rvalue = text "auto" || (scanInt rvalue).isSome
    else lvalue ∈ ["interface", "log-level", "log"].map text

/-! ## Access lists that are named -/

/-- The statements of an `acl` block, up to one that is not known. -/
def blockAcls : List (CString × CString) → List (AclOp × CString)
  | [] => []
  | (lvalue, rvalue) :: rest =>
      match aclKeyword lvalue with
      | none => []
      | some op => (op, rvalue) :: blockAcls rest

/-- The `acl` statements of a device section, up to a statement that is not known. -/
def namedAcls : Cfg → List (AclOp × CString)
  | .null => []
  | .block lvalue body next =>
      if lvalue = text "acl" then
        blockAcls body.assignments ++ if acceptsACLBlock body then namedAcls next else []
      else namedAcls next
  | .assignment lvalue _ next => if devKeyword lvalue then namedAcls next else []

/-- The statements with the lists that they stand for. -/
def pointers (acllist : List Aclconf) (named : List (AclOp × CString)) :
    List (AclOp × Option Nat) :=
  named.map fun statement => (statement.1, resolve acllist statement.2)

/-- Every statement counts one reference. -/
def counted (statements : List (AclOp × Option Nat)) (acllist : List Aclconf) : List Aclconf :=
  statements.foldl (fun acllist statement => aclrefup statement.2 acllist) acllist

/-- The last statement for an operation decides. -/
def assigned (statements : List (AclOp × Option Nat)) (op : AclOp) (before : Option Nat) :
    Option Nat :=
  statements.foldl (fun acl statement => if statement.1 = op then statement.2 else acl) before

section Counted

variable {acllist acllist' : List Aclconf}

theorem counted_append (first second : List (AclOp × Option Nat)) (acllist : List Aclconf) :
    counted (first ++ second) acllist = counted second (counted first acllist) :=
  List.foldl_append

theorem assigned_append (first second : List (AclOp × Option Nat)) (op : AclOp)
    (before : Option Nat) :
    assigned (first ++ second) op before = assigned second op (assigned first op before) :=
  List.foldl_append

theorem counted_sameLists (statements : List (AclOp × Option Nat)) (acllist : List Aclconf) :
    SameLists acllist (counted statements acllist) := by
  induction statements generalizing acllist with
  | nil => rfl
  | cons statement rest ih =>
      exact (ih (aclrefup statement.2 acllist)).trans (aclref_sameLists 1 statement.2 acllist)

theorem SameLists.pointers (same : SameLists acllist acllist')
    (named : List (AclOp × CString)) :
    Config.pointers acllist' named = Config.pointers acllist named := by
  unfold Config.pointers
  simp only [same.resolve]

theorem SameLists.length (same : SameLists acllist acllist') :
    acllist'.length = acllist.length := by
  have lengths := congrArg List.length same
  rwa [List.length_map, List.length_map] at lengths

/-- A list gains one reference for each statement that stands for it. -/
theorem refcntAt_counted (statements : List (AclOp × Option Nat)) {acllist : List Aclconf}
    {position : Nat} (inside : position < acllist.length) :
    refcntAt (counted statements acllist) position =
      refcntAt acllist position +
        (statements.countP fun statement => statement.2 = some position) := by
  induction statements generalizing acllist with
  | nil => simp [counted]
  | cons statement rest ih =>
      have step := refcntAt_aclref 1 statement.2 inside
      have later : refcntAt (counted rest (aclref 1 statement.2 acllist)) position = _ :=
        ih (by rwa [aclref_length])
      rw [counted, List.foldl_cons, List.countP_cons]
      rw [counted, step] at later
      rw [aclrefup, later]
      by_cases here : statement.2 = some position
      · simp only [here, decide_true, if_true]
        push_cast
        omega
      · simp only [here, decide_false, if_false, Bool.false_eq_true]
        push_cast
        omega

end Counted

/-! ## Device sections -/

section Device

variable {acllist acllist' : List Aclconf} {dev : Devconf} {result : Option Devconf}

/-- What reading statements leaves behind: the references are counted, and the device, if
the statements are accepted, has the lists that were named last. -/
structure Assigns (named : List (AclOp × CString)) (accepted : Bool) (acllist : List Aclconf)
    (dev : Devconf) (result : Option Devconf) (acllist' : List Aclconf) : Prop where
  counts : acllist' = counted (pointers acllist named) acllist
  accepts : result.isSome = accepted
  assigns : ∀ dev', result = some dev' →
    ∀ op, op.get dev' = assigned (pointers acllist named) op (op.get dev)

/-- Statements that follow accepted ones start from what those left behind. -/
theorem Assigns.append {first second : List (AclOp × CString)} {accepted : Bool}
    {middle : List Aclconf} {dev' : Devconf}
    (before : Assigns first true acllist dev (some dev') middle)
    (after : Assigns second accepted middle dev' result acllist') :
    Assigns (first ++ second) accepted acllist dev result acllist' := by
  have same : SameLists acllist middle := by
    rw [before.counts]
    exact counted_sameLists _ _
  have split : pointers acllist (first ++ second) =
      pointers acllist first ++ pointers acllist second := List.map_append
  refine ⟨?_, after.accepts, ?_⟩
  · rw [split, counted_append, ← before.counts, after.counts, same.pointers]
  · intro last returned op
    rw [split, assigned_append, ← before.assigns dev' rfl, after.assigns last returned op,
      same.pointers]

theorem parsedevacl_spec {c : Cfg}
    (returns : parsedevacl acllist dev c = .ok (result, acllist')) :
    Assigns (blockAcls c.assignments) (acceptsACLBlock c) acllist dev result acllist' := by
  induction c generalizing acllist dev with
  | null =>
      cases returns
      exact ⟨rfl, rfl, fun dev' same op => by cases same; rfl⟩
  | block lvalue body next _ ih => exact ih returns
  | assignment lvalue rvalue next ih =>
      rw [parsedevacl] at returns
      rw [BlockTree.assignments, blockAcls, acceptsACLBlock, BlockTree.assignments, List.all_cons]
      cases keyword : aclKeyword lvalue with
      | none =>
          rw [keyword] at returns
          cases returns
          exact ⟨rfl, rfl, fun dev' same => nomatch same⟩
      | some op =>
          rw [keyword] at returns
          obtain ⟨acl, found, returns⟩ := bind_eq_ok.mp returns
          have found : acl = resolve acllist rvalue := reference_eq found
          have statement : Assigns [(op, rvalue)] true acllist dev (some (op.set dev acl))
              (aclrefup acl acllist) := by
            refine ⟨by rw [found]; rfl, rfl, ?_⟩
            intro dev' same op'
            cases same
            rw [found, AclOp.get_set]
            rfl
          exact statement.append (ih returns)

/-- What a statement leaves alone: the access lists, and unless it names another one the
interface. -/
structure Keeps (intlist : List Ifconf) (dev dev' : Devconf) : Prop where
  acls : ∀ op : AclOp, op.get dev' = op.get dev
  interface : dev'.interface = dev.interface ∨
    ∃ rvalue, referenceifconf rvalue intlist = .ok dev'.interface

/-- A statement is known by its keyword. -/
theorem devStatement_spec {loglist : List Logconf} {intlist : List Ifconf}
    {lvalue rvalue : CString}
    (returns : devStatement loglist intlist dev lvalue rvalue = .ok result) :
    result.isSome = devKeyword lvalue ∧ ∀ dev', result = some dev' → Keeps intlist dev dev' := by
  have accepted {dev' : Devconf} (returns : Except.ok (some dev') = (Except.ok result : Except Stop _))
      (known : devKeyword lvalue = true) (keeps : Keeps intlist dev dev') :
      result.isSome = devKeyword lvalue ∧ ∀ dev', result = some dev' → Keeps intlist dev dev' := by
    cases returns
    refine ⟨known.symm, ?_⟩
    rintro dev' ⟨⟩
    exact keeps
  have same {dev' : Devconf} (acls : (fun op : AclOp => op.get dev') = fun op => op.get dev)
      (interface : dev'.interface = dev.interface) : Keeps intlist dev dev' :=
    ⟨congrFun acls, Or.inl interface⟩
  unfold devStatement at returns
  split_ifs at returns with shelf slot level log target interface cache cast
  · exact accepted returns (by rw [shelf]; rfl) (same rfl rfl)
  · exact accepted returns (by rw [slot]; rfl) (same rfl rfl)
  · exact accepted returns (by rw [level]; rfl) (same rfl rfl)
  · obtain ⟨_, _, returns⟩ := bind_eq_ok.mp returns
    exact accepted returns (by rw [log]; rfl) (same rfl rfl)
  · exact accepted returns (by rw [target]; rfl) (same rfl rfl)
  · obtain ⟨_, found, returns⟩ := bind_eq_ok.mp returns
    exact accepted returns (by rw [interface]; rfl) ⟨congrFun rfl, Or.inr ⟨rvalue, found⟩⟩
  · exact accepted returns (by rw [cache]; rfl) (same rfl rfl)
  · exact accepted returns (by rw [cast]; rfl) (same rfl rfl)
  · cases returns
    refine ⟨?_, fun dev' same => nomatch same⟩
    simp [devKeyword, shelf, slot, level, log, target, interface, cache, cast]

theorem devStatements_spec {loglist : List Logconf} {intlist : List Ifconf} {c : Cfg}
    (returns : devStatements loglist intlist acllist dev c = .ok (result, acllist')) :
    Assigns (namedAcls c) (acceptsDEV c) acllist dev result acllist' := by
  induction c generalizing acllist dev with
  | null =>
      cases returns
      exact ⟨rfl, rfl, fun dev' same op => by cases same; rfl⟩
  | block lvalue body next _ ih =>
      rw [devStatements] at returns
      rw [namedAcls, acceptsDEV]
      by_cases acl : lvalue = text "acl"
      · rw [if_pos acl] at returns ⊢
        obtain ⟨⟨parsed, middle⟩, inBlock, returns⟩ := bind_eq_ok.mp returns
        have spec := parsedevacl_spec inBlock
        cases parsed with
        | none =>
            cases returns
            have rejected : acceptsACLBlock body = false := spec.accepts.symm
            rw [rejected, if_neg Bool.false_ne_true, List.append_nil]
            simpa [acl, rejected] using spec
        | some dev' =>
            have accepted : acceptsACLBlock body = true := spec.accepts.symm
            rw [accepted] at spec ⊢
            rw [if_pos rfl, Bool.or_true, Bool.true_and]
            exact spec.append (ih returns)
      · rw [if_neg acl] at returns ⊢
        simpa [acl] using ih returns
  | assignment lvalue rvalue next ih =>
      rw [devStatements] at returns
      obtain ⟨parsed, statement, returns⟩ := bind_eq_ok.mp returns
      obtain ⟨known, keeps⟩ := devStatement_spec statement
      rw [namedAcls, acceptsDEV]
      cases parsed with
      | none =>
          cases returns
          rw [← known]
          exact ⟨rfl, rfl, fun dev' same => nomatch same⟩
      | some dev' =>
          have before : Assigns [] true acllist dev (some dev') acllist := by
            refine ⟨rfl, rfl, ?_⟩
            intro same equal op
            cases equal
            exact (keeps dev' rfl).acls op
          rw [← known]
          exact before.append (ih returns)

end Device

/-! ## Interface sections -/

section Interface

variable {loglist : List Logconf} {ifentry ifentry' : Ifconf}

theorem ifStatement_spec {lvalue rvalue : CString} {result : Option Ifconf}
    (returns : ifStatement loglist ifentry lvalue rvalue = .ok result) :
    result.isSome = acceptsINT (.assignment lvalue rvalue .null) := by
  have single : acceptsINT (.assignment lvalue rvalue .null) =
      if lvalue = text "mtu" then decide (rvalue = text "auto") || (scanInt rvalue).isSome
      else decide (lvalue ∈ ["interface", "log-level", "log"].map text) := by
    unfold acceptsINT
    rw [BlockTree.assignments, BlockTree.assignments, List.all_cons, List.all_nil, Bool.and_true]
  rw [single]
  unfold ifStatement at returns
  split_ifs at returns with mtu auto interface level log
  · cases returns
    rw [if_pos mtu, decide_eq_true auto]
    rfl
  · rw [if_pos mtu, decide_eq_false auto, Bool.false_or]
    cases scanned : scanInt rvalue with
    | none =>
        rw [scanned] at returns
        cases returns
        rfl
    | some number =>
        rw [scanned] at returns
        cases returns
        rfl
  · cases returns
    rw [if_neg mtu, interface]
    rfl
  · cases returns
    rw [if_neg mtu, level]
    rfl
  · obtain ⟨_, _, returned⟩ := bind_eq_ok.mp returns
    cases returned
    rw [if_neg mtu, log]
    rfl
  · cases returns
    rw [if_neg mtu]
    simp [interface, level, log]

/-- The statements of a section decide whether it is accepted. -/
theorem ifStatements_spec {c : Cfg} {accepted : Bool}
    (returns : ifStatements loglist ifentry c = .ok (ifentry', accepted)) :
    accepted = acceptsINT c := by
  induction c generalizing ifentry with
  | null =>
      cases returns
      rfl
  | block lvalue body next _ ih => exact ih returns
  | assignment lvalue rvalue next ih =>
      rw [ifStatements] at returns
      obtain ⟨parsed, statement, returns⟩ := bind_eq_ok.mp returns
      have known := ifStatement_spec statement
      have split : acceptsINT (.assignment lvalue rvalue next) =
          (acceptsINT (.assignment lvalue rvalue .null) && acceptsINT next) := by
        unfold acceptsINT
        rw [BlockTree.assignments, BlockTree.assignments, BlockTree.assignments, List.all_cons,
          List.all_cons, List.all_nil, Bool.and_true]
      rw [split, ← known]
      cases parsed with
      | none =>
          cases returns
          rfl
      | some entry =>
          rw [Option.isSome_some, Bool.true_and]
          exact ih returns

end Interface

/-! ## Access-list sections -/

/-- The name after a statement. -/
def nameAfter (name : Option CString) (statement : CString × CString) : Option CString :=
  if statement.1 = text "name" then some statement.2 else name

/-- The name an access-list section gives its list last. -/
def aclName (c : Cfg) : Option CString := c.assignments.foldl nameAfter none

section AccessList

variable {loglist : List Logconf} {acl : Aclconf} {result : Option Aclconf}

/-- What an accepted statement leaves alone, and what it does to the name. -/
structure KeepsList (acl acl' : Aclconf) (name : Option CString) : Prop where
  aclnum : acl'.aclnum = acl.aclnum
  refcnt : acl'.refcnt = acl.refcnt
  name : acl'.name = name

/-- A statement whose name starts with another letter leaves the name alone. -/
theorem nameAfter_other {lvalue value : CString} {first : UInt8} {name : Option CString}
    (letter : lvalue.head? = some first) (differs : (text "name").head? ≠ some first) :
    nameAfter name (lvalue, value) = name := by
  apply if_neg
  rintro rfl
  exact differs letter

/-- A statement with a word of its own is accepted for that word only. -/
theorem aclKeyword_spec {lvalue : CString} {rvalue : Option CString} {word : String}
    {parse : CString → Except Stop (Option Aclconf)}
    (returns : (if lvalue ≠ text word then .ok none else follow rvalue parse) = Except.ok result)
    (reads : ∀ value, lvalue = text word → parse value = .ok result →
      ∃ acl', result = some acl' ∧ KeepsList acl acl' (nameAfter acl.name (lvalue, value))) :
    result.isSome = decide (lvalue = text word) ∧
      ∀ acl', result = some acl' → ∃ value, rvalue = some value ∧
        KeepsList acl acl' (nameAfter acl.name (lvalue, value)) := by
  by_cases named : lvalue = text word
  · rw [if_neg (not_not.mpr named)] at returns
    obtain ⟨value, rfl, returns⟩ := follow_eq_ok.mp returns
    obtain ⟨acl', rfl, keeps⟩ := reads value named returns
    refine ⟨(decide_eq_true named).symm, ?_⟩
    rintro acl' ⟨⟩
    exact ⟨value, rfl, keeps⟩
  · rw [if_pos named] at returns
    cases returns
    exact ⟨(decide_eq_false named).symm, fun acl' same => nomatch same⟩

/-- A row is accepted if its address is one. -/
theorem aclRow_spec {lvalue : CString} {rvalue : Option CString} {first : UInt8}
    (letter : lvalue.head? = some first) (differs : (text "name").head? ≠ some first)
    (returns : (follow rvalue fun mac => .ok (aclRow acl lvalue mac)) = Except.ok result) :
    result.isSome = (rvalue.bind aclmac).isSome ∧
      ∀ acl', result = some acl' → ∃ value, rvalue = some value ∧
        KeepsList acl acl' (nameAfter acl.name (lvalue, value)) := by
  obtain ⟨mac, rfl, added⟩ := follow_eq_ok.mp returns
  cases added
  rw [Option.bind_some, aclRow, Option.isSome_map]
  refine ⟨rfl, ?_⟩
  intro acl' same
  obtain ⟨hDest, _, rfl⟩ := Option.map_eq_some_iff.mp same
  exact ⟨mac, rfl, rfl, rfl, (nameAfter_other letter differs).symm⟩

theorem aclStatement_spec {lvalue : CString} {rvalue : Option CString}
    (returns : aclStatement loglist acl lvalue rvalue = .ok result) :
    result.isSome = acceptsACLStatement lvalue rvalue ∧
      ∀ acl', result = some acl' → ∃ value, rvalue = some value ∧
        KeepsList acl acl' (nameAfter acl.name (lvalue, value)) := by
  unfold aclStatement at returns
  split at returns
  · next letter =>
      rw [acceptsACLStatement, letter]
      refine aclKeyword_spec returns ?_
      intro value named returned
      cases returned
      exact ⟨_, rfl, rfl, rfl, (if_pos named).symm⟩
  · next letter =>
      rw [acceptsACLStatement, letter]
      refine aclKeyword_spec returns ?_
      intro value _ returned
      cases returned
      exact ⟨_, rfl, rfl, rfl, (nameAfter_other letter (by decide)).symm⟩
  · next letter =>
      rw [acceptsACLStatement, letter]
      refine aclKeyword_spec returns ?_
      intro value _ returned
      obtain ⟨_, _, returned⟩ := bind_eq_ok.mp returned
      cases returned
      exact ⟨_, rfl, rfl, rfl, (nameAfter_other letter (by decide)).symm⟩
  · next letter =>
      rw [acceptsACLStatement, letter]
      exact aclRow_spec letter (by decide) returns
  · next letter =>
      rw [acceptsACLStatement, letter]
      exact aclRow_spec letter (by decide) returns
  · cases returns
    refine ⟨?_, fun acl' same => nomatch same⟩
    unfold acceptsACLStatement
    split
    all_goals first | rfl | contradiction

theorem aclStatements_spec {c : Cfg} (returns : aclStatements loglist acl c = .ok result) :
    result.isSome = acceptsACL c ∧
      ∀ acl', result = some acl' →
        KeepsList acl acl' (c.assignments.foldl nameAfter acl.name) := by
  induction c generalizing acl with
  | null =>
      cases returns
      refine ⟨rfl, ?_⟩
      rintro acl' ⟨⟩
      exact ⟨rfl, rfl, rfl⟩
  | block lvalue body next _ ih =>
      obtain ⟨parsed, statement, returns⟩ := bind_eq_ok.mp returns
      obtain ⟨known, kept⟩ := aclStatement_spec statement
      cases parsed with
      | none =>
          cases returns
          rw [acceptsACL, ← known]
          exact ⟨rfl, fun acl' same => nomatch same⟩
      | some acl' =>
          obtain ⟨_, missing, _⟩ := kept acl' rfl
          cases missing
  | assignment lvalue rvalue next ih =>
      obtain ⟨parsed, statement, returns⟩ := bind_eq_ok.mp returns
      obtain ⟨known, kept⟩ := aclStatement_spec statement
      rw [acceptsACL, ← known]
      cases parsed with
      | none =>
          cases returns
          exact ⟨rfl, fun acl' same => nomatch same⟩
      | some middle =>
          obtain ⟨accepted, keeps⟩ := ih returns
          obtain ⟨_, ⟨⟩, first⟩ := kept middle rfl
          refine ⟨accepted, ?_⟩
          intro acl' same
          have later := keeps acl' same
          rw [first.name] at later
          exact ⟨later.aclnum.trans first.aclnum, later.refcnt.trans first.refcnt, later.name⟩

end AccessList

/-! ## Walks -/

/-- A list that grows by accepted sections and starts anew after a rejected one holds
the entries of the sections behind the last rejected one. -/
theorem forall₂_appended {α : Type} {reads : Cfg → α → Prop} {accepts : Cfg → Bool}
    {done : List Cfg} {list : List α} {body : Cfg} {entry : Option α}
    (sofar : List.Forall₂ reads (done.rtakeWhile accepts) list)
    (accepted : entry.isSome = accepts body) (read : ∀ value, entry = some value → reads body value) :
    List.Forall₂ reads ((done ++ [body]).rtakeWhile accepts) (appended list entry) := by
  rw [List.rtakeWhile_concat, ← accepted]
  cases entry with
  | none => exact List.Forall₂.nil
  | some value =>
      rw [if_pos Option.isSome_some]
      exact List.rel_append sofar (List.Forall₂.cons (read value rfl) List.Forall₂.nil)

/-- What corresponds along two lists corresponds at each place. -/
theorem forall₂_getElem? {α β : Type} {related : α → β → Prop} {as : List α} {bs : List β}
    (along : List.Forall₂ related as bs) {place : Nat} {a : α} (here : as[place]? = some a) :
    ∃ b, bs[place]? = some b ∧ related a b := by
  induction along generalizing place with
  | nil => cases here
  | cons head _ ih =>
      cases place with
      | zero =>
          cases here
          exact ⟨_, rfl, head⟩
      | succ place => exact ih here

/-- The access list is what the section describes, with a number of its own. -/
def ReadACL (loglist : List Logconf) (section_ : Cfg) (acl : Aclconf) : Prop :=
  ∃ aclnum, aclStatements loglist (blankACL aclnum) section_ = .ok (some acl)

theorem ReadACL.refcnt {loglist : List Logconf} {section_ : Cfg} {acl : Aclconf}
    (read : ReadACL loglist section_ acl) : acl.refcnt = 0 := by
  obtain ⟨_, returns⟩ := read
  exact ((aclStatements_spec returns).2 acl rfl).refcnt

theorem ReadACL.name {loglist : List Logconf} {section_ : Cfg} {acl : Aclconf}
    (read : ReadACL loglist section_ acl) : acl.name = aclName section_ := by
  obtain ⟨_, returns⟩ := read
  exact ((aclStatements_spec returns).2 acl rfl).name

/-- The sections of a kind behind the last one that is rejected. -/
def keptACL (c : Cfg) : List Cfg := (c.sections (text "access-list")).rtakeWhile acceptsACL

def keptDEV (c : Cfg) : List Cfg := (c.sections (text "device")).rtakeWhile acceptsDEV

def keptDFLT (c : Cfg) : List Cfg := (c.sections (text "default")).rtakeWhile acceptsDEV

theorem findACL_spec {loglist : List Logconf} {c : Cfg} {acllist : List Aclconf}
    (returns : findACL loglist c = .ok acllist) :
    List.Forall₂ (ReadACL loglist) (keptACL c) acllist := by
  obtain ⟨state, walks, rfl⟩ := map_eq_ok.mp returns
  refine BlockTree.find_sections
    (fun done state => List.Forall₂ (ReadACL loglist) (done.rtakeWhile acceptsACL) state.1)
    List.Forall₂.nil ?_ id walks
  intro done body state state' sofar parsed
  obtain ⟨entry, statements, returned⟩ := bind_eq_ok.mp parsed
  cases returned
  apply forall₂_appended sofar (aclStatements_spec statements).1
  rintro acl rfl
  exact ⟨state.2, statements⟩

/-- The device is what the section describes. Names of access lists are looked up,
so the counts at that time do not matter. -/
def ReadDEV (loglist : List Logconf) (intlist : List Ifconf) (acllist : List Aclconf)
    (section_ : Cfg) (dev : Devconf) : Prop :=
  ∃ before after, SameLists acllist before ∧
    devStatements loglist intlist before blankDEV section_ = .ok (some dev, after)

/-- The device has the access lists that its section names last for each operation. -/
def HasAcls (acllist : List Aclconf) (section_ : Cfg) (dev : Devconf) : Prop :=
  ∀ op : AclOp, op.get dev = assigned (pointers acllist (namedAcls section_)) op none

theorem ReadDEV.hasAcls {loglist : List Logconf} {intlist : List Ifconf}
    {acllist : List Aclconf} {section_ : Cfg} {dev : Devconf}
    (read : ReadDEV loglist intlist acllist section_ dev) : HasAcls acllist section_ dev := by
  obtain ⟨before, after, same, returns⟩ := read
  intro op
  have assigns := (devStatements_spec returns).assigns dev rfl op
  rw [same.pointers] at assigns
  cases op <;> exact assigns

/-- The references that all sections count, accepted or not. -/
def references (acllist : List Aclconf) (sections : List Cfg) : List (AclOp × Option Nat) :=
  sections.flatMap fun body => pointers acllist (namedAcls body)

theorem references_append (acllist : List Aclconf) (first second : List Cfg) :
    references acllist (first ++ second) = references acllist first ++ references acllist second :=
  List.flatMap_append

theorem SameLists.references {acllist acllist' : List Aclconf} (same : SameLists acllist acllist')
    (sections : List Cfg) : Config.references acllist' sections = Config.references acllist sections := by
  unfold Config.references
  simp only [same.pointers]

theorem ReadDEV.of_sameLists {loglist : List Logconf} {intlist : List Ifconf}
    {acllist acllist' : List Aclconf} {section_ : Cfg} {dev : Devconf}
    (read : ReadDEV loglist intlist acllist' section_ dev) (same : SameLists acllist acllist') :
    ReadDEV loglist intlist acllist section_ dev := by
  obtain ⟨before, after, sameBefore, returns⟩ := read
  exact ⟨before, after, sameBefore.trans same, returns⟩

section Walk

variable {loglist : List Logconf} {intlist : List Ifconf} {acllist acllist' : List Aclconf}
  {c : Cfg} {devlist : List Devconf}

/-- Both walks for devices count every reference, and keep the sections behind the last
rejected one. -/
theorem find_parseDEV {keyword : CString} {reads : Cfg → Devconf → Prop}
    {close : List Devconf × List Aclconf → List Devconf × List Aclconf}
    (read : ∀ {body dev}, ReadDEV loglist intlist acllist body dev → reads body dev)
    (closeAcls : ∀ state, (close state).2 = state.2)
    (closeDevs : ∀ {done state}, List.Forall₂ reads done state.1 →
      List.Forall₂ reads done (close state).1)
    (walks : c.find keyword (parseDEV loglist intlist) close ([], acllist) =
      .ok (devlist, acllist')) :
    acllist' = counted (references acllist (c.sections keyword)) acllist ∧
      List.Forall₂ reads ((c.sections keyword).rtakeWhile acceptsDEV) devlist := by
  refine BlockTree.find_sections
    (fun done state => state.2 = counted (references acllist done) acllist ∧
      List.Forall₂ reads (done.rtakeWhile acceptsDEV) state.1)
    ⟨rfl, List.Forall₂.nil⟩ ?_ ?_ walks
  · intro done body state state' sofar parsed
    obtain ⟨counts, entries⟩ := sofar
    obtain ⟨⟨entry, after⟩, statements, returned⟩ := bind_eq_ok.mp parsed
    cases returned
    have same : SameLists acllist state.2 := by
      rw [counts]
      exact counted_sameLists _ _
    have spec := devStatements_spec statements
    constructor
    · rw [references_append, counted_append, ← counts, references, List.flatMap_singleton,
        ← same.pointers]
      exact spec.counts
    · apply forall₂_appended entries spec.accepts
      rintro dev rfl
      exact read ⟨state.2, after, same, statements⟩
  · intro done state sofar
    rw [closeAcls]
    exact ⟨sofar.1, closeDevs sofar.2⟩

theorem findDEV_spec (returns : findDEV loglist intlist acllist c = .ok (devlist, acllist')) :
    acllist' = counted (references acllist (c.sections (text "device"))) acllist ∧
      List.Forall₂ (ReadDEV loglist intlist acllist) (keptDEV c) devlist :=
  find_parseDEV id (fun _ => rfl) id returns

theorem findDFLT_spec (returns : findDFLT loglist intlist acllist c = .ok (devlist, acllist')) :
    acllist' = counted (references acllist (c.sections (text "default"))) acllist ∧
      List.Forall₂ (HasAcls acllist) (keptDFLT c) devlist := by
  refine find_parseDEV ReadDEV.hasAcls ?_ ?_ returns
  · rintro ⟨_ | ⟨dev, devlist⟩, acllist⟩ <;> rfl
  · rintro done ⟨_ | ⟨dev, devlist⟩, acllist⟩ entries
    · exact entries
    · obtain ⟨body, rest, first, others, rfl⟩ := List.forall₂_cons_right_iff.mp entries
      refine List.Forall₂.cons ?_ others
      intro op
      have same := first op
      cases op <;> exact same

end Walk

end Qaoed.Config
