import Qaoed.Api.Client
import Qaoed.Config.AclKeywords
import Qaoed.Config.FirstMatch

/-!
# The views of a verdict

A keyword becomes a code when its section is read. The code is what `aclmatch` returns
and what the API reports, and whether it is zero decides what goes to the logging target.
-/

namespace Qaoed.Api

open Qaoed.Device
open Qaoed.Frame
open Qaoed.Library
open Qaoed.Config

/-! ## What is logged -/

/-- A record of `aclmatch`: the words in front of the address, and the name of the list. -/
structure AclRecord where
  words : CString
  hAddr : SixBytes
  name : CString
  deriving DecidableEq, Repr

def allowWord (rule : UInt8) : CString := if rule ≠ 0 then text "allow" else text "reject"

/-- `aclmatch` with the record that it writes if a logging target is attached. -/
def aclmatchLogged (acl : Aclhdr) (hAddr : SixBytes) : UInt8 × Option AclRecord :=
  go acl.acl
where
  record (words : CString) : Option AclRecord := acl.log.map fun _ => ⟨words, hAddr, acl.name⟩
  go : List Aclentry → UInt8 × Option AclRecord
    | [] => (acl.defaultpolicy, record (text "ACL default-" ++ allowWord acl.defaultpolicy))
    | aclrow :: next =>
        if hAddr = aclrow.hDest then (aclrow.rule, record (text "ACL " ++ allowWord aclrow.rule))
        else go next

def AclRecord.SaysAllow (record : AclRecord) : Prop :=
  record.words = text "ACL allow" ∨ record.words = text "ACL default-allow"

theorem aclmatchLogged_verdict (acl : Aclhdr) (hAddr : SixBytes) :
    (aclmatchLogged acl hAddr).1 = aclmatch acl hAddr := by
  have walk (rows : List Aclentry) :
      (aclmatchLogged.go acl hAddr rows).1 = aclmatch.go acl hAddr rows := by
    induction rows with
    | nil => rfl
    | cons row rows ih =>
        rw [aclmatchLogged.go, aclmatch.go]
        split
        · rfl
        · exact ih
  exact walk acl.acl

/-- A record says `allow` for every code but zero. -/
theorem aclmatchLogged_saysAllow {acl : Aclhdr} {hAddr : SixBytes} {record : AclRecord}
    (written : (aclmatchLogged acl hAddr).2 = some record) :
    record.SaysAllow ↔ aclmatch acl hAddr ≠ 0 := by
  have words (rule : UInt8) :
      (text "ACL default-" ++ allowWord rule = text "ACL allow" ∨
        text "ACL default-" ++ allowWord rule = text "ACL default-allow" ↔ rule ≠ 0) ∧
      (text "ACL " ++ allowWord rule = text "ACL allow" ∨
        text "ACL " ++ allowWord rule = text "ACL default-allow" ↔ rule ≠ 0) := by
    unfold allowWord
    by_cases zero : rule = 0
    · rw [if_neg (not_not.mpr zero)]
      have passes := not_not.mpr zero
      exact ⟨iff_of_false (by decide) passes, iff_of_false (by decide) passes⟩
    · rw [if_pos zero]
      exact ⟨iff_of_true (by decide) zero, iff_of_true (by decide) zero⟩
  have walk (rows : List Aclentry) (written : (aclmatchLogged.go acl hAddr rows).2 = some record) :
      record.SaysAllow ↔ aclmatch.go acl hAddr rows ≠ 0 := by
    induction rows with
    | nil =>
        obtain ⟨_, _, rfl⟩ := Option.map_eq_some_iff.mp written
        exact (words acl.defaultpolicy).1
    | cons row rows ih =>
        rw [aclmatchLogged.go] at written
        rw [aclmatch.go]
        split_ifs at written ⊢
        · obtain ⟨_, _, rfl⟩ := Option.map_eq_some_iff.mp written
          exact (words row.rule).2
        · exact ih written
  exact walk acl.acl written

/-! ## What a section says -/

/-- The code that a keyword stands for. -/
def verdict (keyword : CString) : Option UInt8 :=
  if keyword = text "accept" then some aclAccept
  else if keyword = text "reject" then some aclReject
  else none

/-- The statements that are stored as rules. -/
def ruleStatements (c : Cfg) : List (CString × CString) :=
  c.assignments.filter fun statement => ruleLetter statement.1

/-- The policies of a section, of which the last one counts. -/
def policies (c : Cfg) : List CString :=
  (c.assignments.filter fun statement => statement.1 = text "policy").map Prod.snd

/-- A row has the code of its statement, and the address. -/
def StoresRule (code : CString → UInt8) (statement : CString × CString) (row : Aclentry) : Prop :=
  code statement.1 = row.rule ∧ aclmac statement.2 = some row.hDest

/-- Stored, returned, logged and exported verdicts are those of the keywords. -/
structure ViewsAgree (c : Cfg) (acl : Aclconf) : Prop where
  rules : List.Forall₂ (fun statement row => verdict statement.1 = some row.rule ∧
    aclmac statement.2 = some row.hDest) (ruleStatements c) acl.acl
  policy : ∃ keyword, (policies c).getLast? = some keyword ∧
    verdict keyword = some acl.defaultpolicy
  record : ∀ hAddr record, (aclmatchLogged acl.toAclhdr hAddr).2 = some record →
    (record.SaysAllow ↔ (aclmatchLogged acl.toAclhdr hAddr).1 = aclAccept)
  exported : ∀ (env : ApiEnv) (conf : Conf) (position : Nat), conf.acllist[position]? = some acl →
    ∀ reply ∈ (processAclList env conf).sent, ∃ aclinfo info keyword,
      reply.arg = .acls aclinfo ∧ aclinfo[position]? = some info ∧
        (policies c).getLast? = some keyword ∧ verdict keyword = some info.defaultpolicy

/-- Every rule accepts, and so does the policy. -/
structure OnlyAccepts (c : Cfg) : Prop where
  rules : ∀ statement ∈ ruleStatements c, statement.1 = text "accept"
  policy : (policies c).getLast? = some (text "accept")

section Section

variable {loglist : List Logconf} {acl acl' : Aclconf} {c : Cfg}

/-- What an assignment adds to the rules, and what becomes of the policy. -/
theorem aclStatement_rules {lvalue rvalue : CString}
    (returns : aclStatement loglist acl lvalue (some rvalue) = .ok (some acl')) :
    (∃ rows, acl'.acl = acl.acl ++ rows ∧
      List.Forall₂ (StoresRule aclpolicy)
        (if ruleLetter lvalue then [(lvalue, rvalue)] else []) rows) ∧
      acl'.defaultpolicy =
        if lvalue = text "policy" then aclpolicy rvalue else acl.defaultpolicy := by
  have known {word : String} {parse : CString → Except Stop (Option Aclconf)}
      (returns : (if lvalue ≠ text word then .ok none else follow (some rvalue) parse) =
        Except.ok (some acl')) : lvalue = text word ∧ parse rvalue = .ok (some acl') := by
    split_ifs at returns with differs
    · cases returns
    · exact ⟨not_not.mp differs, returns⟩
  by_cases letter : ruleLetter lvalue = true
  · have differs : lvalue ≠ text "policy" := by
      rintro rfl
      exact absurd letter (by decide)
    rw [aclStatement_rule letter] at returns
    obtain ⟨hDest, read, rfl⟩ := Option.map_eq_some_iff.mp (Except.ok.inj returns)
    rw [if_pos letter, if_neg differs]
    exact ⟨⟨_, rfl, List.Forall₂.cons ⟨rfl, read⟩ List.Forall₂.nil⟩, rfl⟩
  · rw [Bool.not_eq_true] at letter
    unfold aclStatement at returns
    have unchanged : ∃ rows, acl.acl = acl.acl ++ rows ∧ List.Forall₂ (StoresRule aclpolicy)
        (if ruleLetter lvalue then [(lvalue, rvalue)] else []) rows := by
      rw [letter]
      exact ⟨[], (List.append_nil _).symm, List.Forall₂.nil⟩
    split at returns
    · obtain ⟨named, parsed⟩ := known returns
      cases parsed
      rw [named, if_neg (by decide : text "name" ≠ text "policy"), ← named]
      exact ⟨unchanged, rfl⟩
    · obtain ⟨named, parsed⟩ := known returns
      cases parsed
      exact ⟨unchanged, (if_pos named).symm⟩
    · obtain ⟨named, parsed⟩ := known returns
      obtain ⟨log, _, parsed⟩ := bind_eq_ok.mp parsed
      cases parsed
      rw [named, if_neg (by decide : text "log" ≠ text "policy"), ← named]
      exact ⟨unchanged, rfl⟩
    · next first =>
        rw [ruleLetter, first] at letter
        cases letter
    · next first =>
        rw [ruleLetter, first] at letter
        cases letter
    · cases returns

/-- An accepted section stores a row for each rule, in their order, and the code of its last
policy. -/
theorem aclStatements_rules (returns : aclStatements loglist acl c = .ok (some acl')) :
    (∃ rows, acl'.acl = acl.acl ++ rows ∧
      List.Forall₂ (StoresRule aclpolicy) (ruleStatements c) rows) ∧
      acl'.defaultpolicy = ((policies c).map aclpolicy).getLastD acl.defaultpolicy := by
  induction c generalizing acl with
  | null =>
      cases returns
      exact ⟨⟨[], (List.append_nil _).symm, List.Forall₂.nil⟩, rfl⟩
  | block lvalue body next _ _ =>
      obtain ⟨parsed, statement, returns⟩ := bind_eq_ok.mp returns
      cases ((aclStatement_block parsed).mp statement).1
      cases returns
  | assignment lvalue rvalue next ih =>
      obtain ⟨parsed, statement, returns⟩ := bind_eq_ok.mp returns
      cases parsed with
      | none => cases returns
      | some middle =>
          obtain ⟨⟨first, added, stores⟩, policy⟩ := aclStatement_rules statement
          obtain ⟨⟨rows, addedLater, storesLater⟩, policyLater⟩ := ih returns
          constructor
          · refine ⟨first ++ rows, by rw [addedLater, added, List.append_assoc], ?_⟩
            have split : ruleStatements (.assignment lvalue rvalue next) =
                (if ruleLetter lvalue then [(lvalue, rvalue)] else []) ++ ruleStatements next := by
              rw [ruleStatements, BlockTree.assignments, List.filter_cons]
              split <;> rfl
            rw [split]
            exact List.rel_append stores storesLater
          · rw [policyLater, policy, policies, policies, BlockTree.assignments, List.filter_cons]
            by_cases named : lvalue = text "policy"
            · rw [if_pos named, if_pos (decide_eq_true named), List.map_cons, List.map_cons,
                List.getLastD_cons]
            · rw [if_neg named, if_neg (by simpa using named)]

end Section

/-- The policy that is exported for a list is the one that is stored. -/
theorem exported_policy {env : ApiEnv} {conf : Conf} {position : Nat} {acl : Aclconf}
    (listed : conf.acllist[position]? = some acl) {reply : Reply}
    (sent : reply ∈ (processAclList env conf).sent) :
    ∃ aclinfo info, reply.arg = .acls aclinfo ∧ aclinfo[position]? = some info ∧
      info.defaultpolicy = acl.defaultpolicy := by
  obtain ⟨aclinfo, lists, entries⟩ := processAclList_arg sent
  obtain ⟨info, here, made⟩ := forall₂_getElem? (mapM_forall₂ lists) listed
  obtain ⟨name, _, returned⟩ := follow_eq_ok.mp made
  cases returned
  exact ⟨aclinfo, _, entries, here, rfl⟩

/-- A keyword has the code it is stored with exactly if it is `accept`. -/
theorem verdict_eq_aclpolicy_iff {keyword : CString} :
    verdict keyword = some (aclpolicy keyword) ↔ keyword = text "accept" := by
  unfold verdict
  by_cases accept : keyword = text "accept"
  · rw [if_pos accept, accept]
    exact iff_of_true rfl rfl
  · rw [if_neg accept]
    refine iff_of_false ?_ accept
    by_cases reject : keyword = text "reject"
    · rw [if_pos reject, reject]
      decide
    · rw [if_neg reject]
      exact fun same => nomatch same

/-- Rows that are stored have the codes of their keywords exactly if each is `accept`. -/
theorem storesVerdict_iff {statements : List (CString × CString)} {rows : List Aclentry}
    (stores : List.Forall₂ (StoresRule aclpolicy) statements rows) :
    List.Forall₂ (fun statement row => verdict statement.1 = some row.rule ∧
        aclmac statement.2 = some row.hDest) statements rows ↔
      ∀ statement ∈ statements, statement.1 = text "accept" := by
  induction stores with
  | nil => exact iff_of_true List.Forall₂.nil fun _ member => nomatch member
  | cons first _ ih =>
      obtain ⟨code, read⟩ := first
      rw [List.forall₂_cons, List.forall_mem_cons, ih, ← code, and_iff_left read,
        verdict_eq_aclpolicy_iff]

/-- A list whose codes are all that of acceptance accepts every address. -/
theorem aclmatch_accept {acl : Aclhdr} (rules : ∀ row ∈ acl.acl, row.rule = aclAccept)
    (policy : acl.defaultpolicy = aclAccept) (hAddr : SixBytes) :
    aclmatch acl hAddr = aclAccept := by
  rw [aclmatch_find]
  cases found : acl.acl.find? fun row => row.hDest = hAddr with
  | none => exact policy
  | some row => exact rules row (List.mem_of_find?_eq_some found)

theorem rules_accept {statements : List (CString × CString)} {rows : List Aclentry}
    (stores : List.Forall₂ (StoresRule aclpolicy) statements rows)
    (accept : ∀ statement ∈ statements, statement.1 = text "accept") :
    ∀ row ∈ rows, row.rule = aclAccept := by
  induction stores with
  | nil => exact fun _ member => nomatch member
  | cons first _ ih =>
      rw [List.forall_mem_cons] at accept ⊢
      refine ⟨?_, ih accept.2⟩
      rw [← first.1, accept.1]
      rfl

/-- The views of an accepted section with a policy agree exactly if all that it says is
`accept`. -/
theorem viewsAgree_iff (loglist : List Logconf) (acllist : List Aclconf) (aclnum next : Nat)
    (c : Cfg) (acl : Aclconf)
    (parses : parseACL loglist (acllist, aclnum) c = .ok (acllist ++ [acl], next))
    (given : policies c ≠ []) :
    ViewsAgree c acl ↔ OnlyAccepts c := by
  obtain ⟨parsed, statements, returned⟩ := bind_eq_ok.mp parses
  obtain ⟨appends, _⟩ := Prod.mk.inj (Except.ok.inj returned)
  obtain rfl : parsed = some acl := by
    cases parsed with
    | none =>
        have nonempty := List.append_ne_nil_of_right_ne_nil acllist (List.cons_ne_nil acl [])
        exact absurd appends.symm nonempty
    | some built => exact congrArg some (List.singleton_inj.mp (List.append_cancel_left appends))
  obtain ⟨⟨rows, stored, stores⟩, policy⟩ := aclStatements_rules statements
  obtain rfl : acl.acl = rows := stored
  have last := List.getLast?_eq_some_getLast given
  generalize (policies c).getLast given = keyword at last
  rw [List.getLastD_eq_getLast?, List.getLast?_map, last, Option.map_some,
    Option.getD_some] at policy
  constructor
  · intro agree
    refine ⟨(storesVerdict_iff stores).mp agree.rules, ?_⟩
    obtain ⟨keyword', last', same⟩ := agree.policy
    obtain rfl : keyword = keyword' := Option.some.inj (last.symm.trans last')
    rw [policy, verdict_eq_aclpolicy_iff] at same
    rw [last, same]
  · intro only
    obtain rfl : keyword = text "accept" := Option.some.inj (last.symm.trans only.policy)
    have accepts := @aclmatch_accept acl.toAclhdr (rules_accept stores only.rules) policy
    refine ⟨(storesVerdict_iff stores).mpr only.rules, ⟨_, last, ?_⟩, ?_, ?_⟩
    · rw [policy]
      rfl
    · intro hAddr record written
      rw [aclmatchLogged_saysAllow written, aclmatchLogged_verdict, accepts hAddr]
      exact iff_of_true (by decide) rfl
    · intro env conf position listed reply sent
      obtain ⟨aclinfo, info, entries, here, same⟩ := exported_policy listed sent
      refine ⟨aclinfo, info, _, entries, here, last, ?_⟩
      rw [same, policy]
      rfl

/-- A section that lets one address in and no other, with a logging target. -/
def oneAddress (policy : String) : Cfg :=
  .assignment (text "name") (text "users") (.assignment (text "log") (text "default")
    (.assignment (text "accept") (text "0:0:0:0:0:1")
      (.assignment (text "policy") (text policy) .null)))

/-- The access list of the section. -/
def oneAddressACL (defaultpolicy : UInt8) : Aclconf where
  name := some (text "users")
  aclnum := 1
  refcnt := 0
  defaultpolicy := defaultpolicy
  acl := [⟨aclAccept, ⟨0, 0, 0, 0, 0, 1⟩⟩]
  log := some ⟨text "default", .syslog⟩

theorem viewsAgree_iff_accept : ViewsAgree (oneAddress "accept") (oneAddressACL aclAccept) := by
  refine (viewsAgree_iff [createdefaultlog] [] 1 2 (oneAddress "accept") (oneAddressACL aclAccept)
    rfl (List.cons_ne_nil _ _)).mpr ⟨?_, rfl⟩
  intro statement member
  rw [List.mem_singleton.mp member]

/-- A rejecting policy is stored and exported as an error, and what it rejects is logged as
allowed. -/
theorem viewsAgree_fails :
    parseACL [createdefaultlog] ([], 1) (oneAddress "reject") =
        .ok ([oneAddressACL aclError], 2) ∧
      aclmatchLogged (oneAddressACL aclError).toAclhdr ⟨0, 0, 0, 0, 0, 2⟩ =
        (aclError, some ⟨text "ACL default-allow", ⟨0, 0, 0, 0, 0, 2⟩, text "users"⟩) ∧
      ¬ ViewsAgree (oneAddress "reject") (oneAddressACL aclError) := by
  refine ⟨rfl, rfl, ?_⟩
  intro agree
  obtain ⟨keyword, last, same⟩ := agree.policy
  obtain rfl : text "reject" = keyword := Option.some.inj last
  cases same

end Qaoed.Api
