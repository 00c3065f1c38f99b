import Qaoed.Config.SectionSpec

/-!
# Statements that do not belong into an access list

`parseACL` looks at the first letter of a keyword and then at the whole of it. For
the two letters of the rules the second test cannot fail, and a block is taken for a
statement whose value is missing.
-/

namespace Qaoed.Config

open Qaoed.Device
open Qaoed.Library

/-- The keywords of an access-list section. -/
def aclKeywords : List CString := ["name", "policy", "log", "accept", "reject"].map text

instance (lvalue : CString) : Decidable (lvalue ∈ aclKeywords) :=
  decidable_of_iff (aclKeywords.contains lvalue = true) List.contains_iff_mem

/-- Every statement is an assignment with one of the keywords. -/
def OnlyKnown : Cfg → Prop
  | .null => True
  | .block _ _ _ => False
  | .assignment lvalue _ next => lvalue ∈ aclKeywords ∧ OnlyKnown next

/-- The loop comes from the first statement of one chain to that of another one. -/
inductive Reads (loglist : List Logconf) : Aclconf → Cfg → Aclconf → Cfg → Prop where
  | here (acl : Aclconf) (c : Cfg) : Reads loglist acl c acl c
  | block {acl middle acl' : Aclconf} {lvalue : CString} {body next c' : Cfg}
      (statement : aclStatement loglist acl lvalue none = .ok (some middle))
      (later : Reads loglist middle next acl' c') :
      Reads loglist acl (.block lvalue body next) acl' c'
  | assignment {acl middle acl' : Aclconf} {lvalue rvalue : CString} {next c' : Cfg}
      (statement : aclStatement loglist acl lvalue (some rvalue) = .ok (some middle))
      (later : Reads loglist middle next acl' c') :
      Reads loglist acl (.assignment lvalue rvalue next) acl' c'

/-- A section with a statement that does not belong there is given up, and such a statement
never adds a rule. -/
structure RejectsOthers (loglist : List Logconf) (c : Cfg) : Prop where
  null : ¬ OnlyKnown c → ∀ state, parseACL loglist state c = .ok ([], state.2 + 1)
  rule : ∀ {aclnum acl acl' lvalue rvalue next},
    Reads loglist (blankACL aclnum) c acl (.assignment lvalue rvalue next) →
    lvalue ∉ aclKeywords → aclStatement loglist acl lvalue (some rvalue) ≠ .ok (some acl')

/-! ## When they are rejected -/

/-- One of the two letters that lead to a rule. -/
def ruleLetter (lvalue : CString) : Bool := lvalue.head? = some 0x61 || lvalue.head? = some 0x72

/-- The search for a logging target comes to an entry without a name. -/
def logStops (loglist : List Logconf) (name : CString) : Bool :=
  match referencelog name loglist with
  | .error _ => true
  | .ok _ => false

/-- Of the statements up to the first one that is refused, or that the daemon does not survive,
no assignment with another keyword passes for a rule, and no block for a statement of the list. -/
def NoneTaken (loglist : List Logconf) : Cfg → Prop
  | .null => True
  | .block lvalue _ _ => lvalue ∉ aclKeywords ∧ ruleLetter lvalue = false
  | .assignment lvalue rvalue next =>
      if lvalue ∈ aclKeywords then
        if lvalue = text "log" ∧ logStops loglist rvalue = true then OnlyKnown next
        else acceptsACLStatement lvalue (some rvalue) = true → NoneTaken loglist next
      else ¬ (ruleLetter lvalue = true ∧ (aclmac rvalue).isSome = true)

/-- What a section has to do from an access list on. -/
structure RejectsFrom (loglist : List Logconf) (acl : Aclconf) (c : Cfg) : Prop where
  null : ¬ OnlyKnown c → aclStatements loglist acl c = .ok none
  rule : ∀ {acl' acl'' lvalue rvalue next},
    Reads loglist acl c acl' (.assignment lvalue rvalue next) →
    lvalue ∉ aclKeywords → aclStatement loglist acl' lvalue (some rvalue) ≠ .ok (some acl'')

section Statement

variable {loglist : List Logconf} {acl : Aclconf} {lvalue rvalue : CString}

/-- The switch for a keyword of another first letter than the two of the rules. -/
theorem aclStatement_other (unknown : lvalue ∉ aclKeywords) (letter : ruleLetter lvalue = false)
    (value : Option CString) : aclStatement loglist acl lvalue value = .ok none := by
  have apart {word : String} (known : text word ∈ aclKeywords) : lvalue ≠ text word := by
    rintro rfl
    exact unknown known
  unfold aclStatement
  split
  · exact if_pos (apart (by decide))
  · exact if_pos (apart (by decide))
  · exact if_pos (apart (by decide))
  · next first =>
      rw [ruleLetter, first] at letter
      cases letter
  · next first =>
      rw [ruleLetter, first] at letter
      cases letter
  · rfl

/-- The switch for the two letters of the rules. -/
theorem aclStatement_rule (letter : ruleLetter lvalue = true) (value : Option CString) :
    aclStatement loglist acl lvalue value =
      follow value fun mac => .ok (aclRow acl lvalue mac) := by
  rw [ruleLetter, Bool.or_eq_true, decide_eq_true_eq, decide_eq_true_eq] at letter
  rcases letter with first | first
  · rw [aclStatement, first]
    rfl
  · rw [aclStatement, first]
    rfl

/-- A block never passes, and it is refused if its keyword is. -/
theorem aclStatement_block (value : Option Aclconf) :
    aclStatement loglist acl lvalue none = .ok value ↔
      value = none ∧ lvalue ∉ aclKeywords ∧ ruleLetter lvalue = false := by
  have missing {use : CString → Except Stop (Option Aclconf)} :
      follow none use ≠ .ok value := fun returns => nomatch returns
  constructor
  · intro returns
    obtain ⟨known, passes⟩ := aclStatement_spec returns
    cases value with
    | some acl' =>
        obtain ⟨_, ⟨⟩, _⟩ := passes acl' rfl
    | none =>
        refine ⟨rfl, ?_⟩
        by_cases letter : ruleLetter lvalue = true
        · rw [aclStatement_rule letter] at returns
          exact absurd returns missing
        · rw [Bool.not_eq_true] at letter
          refine ⟨?_, letter⟩
          intro member
          simp only [aclKeywords, List.map_cons, List.map_nil, List.mem_cons, List.not_mem_nil,
            or_false] at member
          rcases member with rfl | rfl | rfl | rfl | rfl
          · cases returns
          · cases returns
          · cases returns
          · exact absurd letter (by decide)
          · exact absurd letter (by decide)
  · rintro ⟨rfl, unknown, letter⟩
    exact aclStatement_other unknown letter none

/-- What becomes of an assignment with one of the keywords. -/
theorem aclStatement_known (known : lvalue ∈ aclKeywords) :
    if lvalue = text "log" ∧ logStops loglist rvalue = true then
      ∃ stop, aclStatement loglist acl lvalue (some rvalue) = .error stop
    else ∃ value, aclStatement loglist acl lvalue (some rvalue) = .ok value ∧
      value.isSome = acceptsACLStatement lvalue (some rvalue) := by
  have returned {value : Option Aclconf}
      (returns : aclStatement loglist acl lvalue (some rvalue) = .ok value) :
      ∃ value, aclStatement loglist acl lvalue (some rvalue) = .ok value ∧
        value.isSome = acceptsACLStatement lvalue (some rvalue) :=
    ⟨value, returns, (aclStatement_spec returns).1⟩
  simp only [aclKeywords, List.map_cons, List.map_nil, List.mem_cons, List.not_mem_nil,
    or_false] at known
  by_cases log : lvalue = text "log"
  · have lookup : aclStatement loglist acl lvalue (some rvalue) =
        (referencelogOrErr rvalue loglist >>= fun log => .ok (some { acl with log := log })) := by
      rw [log]
      rfl
    rw [logStops]
    cases found : referencelog rvalue loglist with
    | error stop =>
        rw [if_pos ⟨log, rfl⟩, lookup, referencelogOrErr, found]
        exact ⟨stop, rfl⟩
    | ok target =>
        rw [if_neg fun both => Bool.false_ne_true both.2]
        apply returned
        rw [lookup, referencelogOrErr, found]
        rfl
  · rw [if_neg fun both => log both.1]
    rcases known with rfl | rfl | rfl | rfl | rfl
    · exact returned rfl
    · exact returned rfl
    · exact absurd rfl log
    · exact returned rfl
    · exact returned rfl

end Statement

section Section

variable {loglist : List Logconf} {c : Cfg}

/-- A chain is left alone by the statements that it does not have. -/
theorem Reads.null_eq {acl acl' : Aclconf} {c' : Cfg} (reads : Reads loglist acl .null acl' c') :
    c' = .null := by
  cases reads
  rfl

theorem rejectsFrom_block {acl : Aclconf} {lvalue : CString} {body next : Cfg} :
    RejectsFrom loglist acl (.block lvalue body next) ↔
      lvalue ∉ aclKeywords ∧ ruleLetter lvalue = false := by
  constructor
  · intro rejects
    obtain ⟨value, statement, _⟩ := bind_eq_ok.mp (rejects.null id)
    exact (aclStatement_block value).mp statement |>.2
  · intro other
    refine ⟨fun _ => ?_, ?_⟩
    · rw [aclStatements, (aclStatement_block none).mpr ⟨rfl, other⟩]
      rfl
    · intro acl' acl'' lvalue' rvalue next' reads
      cases reads with
      | block statement => cases ((aclStatement_block _).mp statement).1

/-- A chain is read on from the list that its first statement leaves. -/
theorem rejectsFrom_passed {acl middle : Aclconf} {lvalue rvalue : CString} {next : Cfg}
    (known : lvalue ∈ aclKeywords)
    (statement : aclStatement loglist acl lvalue (some rvalue) = .ok (some middle)) :
    RejectsFrom loglist acl (.assignment lvalue rvalue next) ↔ RejectsFrom loglist middle next := by
  have continues : aclStatements loglist acl (.assignment lvalue rvalue next) =
      aclStatements loglist middle next := by
    rw [aclStatements, statement]
    rfl
  constructor
  · intro rejects
    refine ⟨?_, fun reads => rejects.rule (.assignment statement reads)⟩
    intro other
    rw [← continues]
    exact rejects.null fun only => other only.2
  · intro rejects
    refine ⟨?_, ?_⟩
    · intro other
      rw [continues]
      exact rejects.null fun only => other ⟨known, only⟩
    · intro acl' acl'' lvalue' rvalue' next' reads
      cases reads with
      | here => exact fun unknown => absurd known unknown
      | assignment statement' later =>
          cases statement.symm.trans statement'
          exact rejects.rule later

/-- A chain whose first statement does not pass. -/
theorem rejectsFrom_refused {acl : Aclconf} {lvalue rvalue : CString} {next : Cfg}
    (statement : aclStatement loglist acl lvalue (some rvalue) = .ok none) :
    RejectsFrom loglist acl (.assignment lvalue rvalue next) := by
  refine ⟨fun _ => ?_, ?_⟩
  · rw [aclStatements, statement]
    rfl
  · intro acl' acl'' lvalue' rvalue' next' reads
    cases reads with
    | here =>
        rw [statement]
        exact fun _ passes => nomatch passes
    | assignment statement' later => cases statement.symm.trans statement'

theorem rejectsFrom_stopped {acl : Aclconf} {lvalue rvalue : CString} {next : Cfg} {stop : Stop}
    (known : lvalue ∈ aclKeywords)
    (statement : aclStatement loglist acl lvalue (some rvalue) = .error stop) :
    RejectsFrom loglist acl (.assignment lvalue rvalue next) ↔ OnlyKnown next := by
  constructor
  · intro rejects
    by_contra other
    have null := rejects.null fun only => other only.2
    rw [aclStatements, statement] at null
    cases null
  · intro only
    refine ⟨fun other => absurd ⟨known, only⟩ other, ?_⟩
    intro acl' acl'' lvalue' rvalue' next' reads
    cases reads with
    | here => exact fun unknown => absurd known unknown
    | assignment statement' later => cases statement.symm.trans statement'

theorem rejectsFrom_unknown {acl : Aclconf} {lvalue rvalue : CString} {next : Cfg}
    (unknown : lvalue ∉ aclKeywords) :
    RejectsFrom loglist acl (.assignment lvalue rvalue next) ↔
      ¬ (ruleLetter lvalue = true ∧ (aclmac rvalue).isSome = true) := by
  by_cases letter : ruleLetter lvalue = true
  · have statement : aclStatement loglist acl lvalue (some rvalue) =
        .ok (aclRow acl lvalue rvalue) := aclStatement_rule letter _
    cases mac : aclmac rvalue with
    | none =>
        refine iff_of_true (rejectsFrom_refused ?_) fun both => Bool.false_ne_true both.2
        rw [statement, aclRow, mac]
        rfl
    | some hDest =>
        refine iff_of_false ?_ (not_not.mpr ⟨letter, rfl⟩)
        intro rejects
        rw [aclRow, mac] at statement
        exact rejects.rule (.here _ _) unknown statement
  · rw [Bool.not_eq_true] at letter
    refine iff_of_true (rejectsFrom_refused (aclStatement_other unknown letter _)) ?_
    rw [letter]
    exact fun both => Bool.false_ne_true both.1

theorem rejectsFrom_iff (acl : Aclconf) :
    RejectsFrom loglist acl c ↔ NoneTaken loglist c := by
  induction c generalizing acl with
  | null =>
      refine iff_of_true ⟨fun other => absurd trivial other, ?_⟩ trivial
      intro acl' acl'' lvalue rvalue next reads
      cases reads.null_eq
  | block lvalue body next _ _ => exact rejectsFrom_block
  | assignment lvalue rvalue next ih =>
      rw [NoneTaken]
      by_cases known : lvalue ∈ aclKeywords
      · have fate := @aclStatement_known loglist acl lvalue rvalue known
        rw [if_pos known]
        split_ifs at fate ⊢
        · obtain ⟨stop, statement⟩ := fate
          exact rejectsFrom_stopped known statement
        · obtain ⟨value, statement, accepts⟩ := fate
          rw [← accepts]
          cases value with
          | none =>
              exact iff_of_true (rejectsFrom_refused statement) fun passes => nomatch passes
          | some middle =>
              rw [rejectsFrom_passed known statement, ih middle]
              exact ⟨fun none _ => none, fun none => none rfl⟩
      · rw [if_neg known]
        exact rejectsFrom_unknown known

/-- The list is given up exactly if the statements are. -/
theorem parseACL_null_iff (state : List Aclconf × Nat) :
    parseACL loglist state c = .ok ([], state.2 + 1) ↔
      aclStatements loglist (blankACL state.2) c = .ok none := by
  constructor
  · intro returns
    obtain ⟨entry, statements, returned⟩ := bind_eq_ok.mp returns
    obtain ⟨given, _⟩ := Prod.mk.inj (Except.ok.inj returned)
    cases entry with
    | none => exact statements
    | some acl => exact absurd given (List.append_ne_nil_of_right_ne_nil _ (List.cons_ne_nil _ _))
  · intro statements
    rw [parseACL, statements]
    rfl

end Section

/-- An access-list section rejects what does not belong there exactly if no statement that is
reached passes for a rule, or for a statement of the list without its value. -/
theorem rejectsOthers_iff (loglist : List Logconf) (c : Cfg) :
    RejectsOthers loglist c ↔ NoneTaken loglist c := by
  constructor
  · intro rejects
    refine (rejectsFrom_iff (blankACL 0)).mp ⟨?_, rejects.rule⟩
    exact fun other => (parseACL_null_iff ([], 0)).mp (rejects.null other ([], 0))
  · intro none
    have rejects (aclnum : Nat) : RejectsFrom loglist (blankACL aclnum) c :=
      (rejectsFrom_iff (blankACL aclnum)).mpr none
    exact ⟨fun other state => (parseACL_null_iff state).mpr ((rejects state.2).null other),
      fun reads => (rejects _).rule reads⟩

/-- An access list with a statement of another section. -/
def strayStatement : Cfg :=
  .assignment (text "policy") (text "accept")
    (.assignment (text "read") (text "0:0:0:0:0:1") .null)

/-- The statement adds a rule that never accepts, and a block named `accept` takes the
daemon down. -/
theorem rejectsOthers_fails :
    (parseACL [] ([], 1) strayStatement =
        .ok ([{ blankACL 1 with
          defaultpolicy := aclAccept
          acl := [⟨aclError, ⟨0, 0, 0, 0, 0, 1⟩⟩] }], 2) ∧
      ¬ RejectsOthers [] strayStatement) ∧
    parseACL [] ([], 1) (.block (text "accept") .null .null) = .error .crash ∧
      ¬ RejectsOthers [] (.block (text "accept") .null .null) := by
  have unknown : ¬ OnlyKnown strayStatement := by
    rintro ⟨_, known, _⟩
    exact absurd known (by decide)
  have taken : parseACL [] ([], 1) strayStatement =
      .ok ([{ blankACL 1 with
        defaultpolicy := aclAccept
        acl := [⟨aclError, ⟨0, 0, 0, 0, 0, 1⟩⟩] }], 2) := rfl
  refine ⟨⟨taken, ?_⟩, rfl, ?_⟩
  · intro rejects
    have null := rejects.null unknown ([], 1)
    rw [taken] at null
    cases null
  · intro rejects
    cases rejects.null id ([], 1)

end Qaoed.Config
