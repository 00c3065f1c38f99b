import Qaoed.Config.Complete
import Qaoed.Config.PlanLoads
import Qaoed.Rcfg.ReadConfig

/-!
# From the text of a file to a configuration

A plan that is written down in any layout is read and loaded as the configuration that it
stands for.
-/

namespace Qaoed.Rcfg

open Qaoed.Device
open Qaoed.Config

/-! ## Statements -/

/-- A statement that can be written down, and that keeps to the tables. -/
structure IsStatement (lvalue rvalue : CString) : Prop where
  name : IsWord lvalue
  value : IsWord rvalue
  notKeyword : rvalue ∉ text "include" :: listed
  takes : TakesValue lvalue rvalue
  includesNothing : lvalue ≠ text "include"

theorem isWord_keyword : ∀ keyword ∈ keywords, keyword.length ≠ 1 → IsWord keyword := by
  have facts : ∀ keyword ∈ keywords, keyword.length ≠ 1 → keyword ≠ [] ∧
      (∀ byte ∈ keyword, stopsAt byte = false ∧ byte ≠ space ∧ byte ≠ 0 ∧ byte ≠ quote) ∧
      ¬ [slash, star] <+: keyword := by decide +kernel
  intro keyword member long
  obtain ⟨notEmpty, bytes, notComment⟩ := facts keyword member long
  exact ⟨notEmpty, bytes, notComment⟩

/-- A tree that can be written down, keeps to the tables and includes nothing. -/
structure Acceptable (config : Cfg) : Prop where
  written : Written config
  conforms : Conforms config
  alone : patterns config = []

theorem Acceptable.assignment {lvalue rvalue : CString} {next : Cfg}
    (statement : IsStatement lvalue rvalue) (later : Acceptable next) :
    Acceptable (.assignment lvalue rvalue next) where
  written := ⟨statement.name, statement.value, statement.notKeyword, later.written⟩
  conforms := ⟨statement.takes, later.conforms⟩
  alone := by rw [patterns, if_neg statement.includesNothing, later.alone, List.append_nil]

theorem Acceptable.block {lvalue : CString} {body next : Cfg}
    (opens : lvalue ∈ ["interface", "access-list", "device", "acl"].map text) (inner : Acceptable body)
    (later : Acceptable next) : Acceptable (.block lvalue body next) := by
  have facts : ∀ keyword ∈ ["interface", "access-list", "device", "acl"].map text,
      keyword ∈ keywords ∧ keyword.length ≠ 1 ∧ keyword ∉ listed ∧
      ∀ row ∈ datatype, keyword = row.1 → row.2 = .block := by decide +kernel
  obtain ⟨known, long, unlisted, typed⟩ := facts lvalue opens
  refine ⟨⟨isWord_keyword lvalue known long, unlisted, inner.written, later.written⟩,
    ⟨⟨known, typed⟩, inner.conforms, later.conforms⟩, ?_⟩
  rw [patterns, inner.alone, later.alone, List.append_nil]

section Bodies

end Bodies

end Qaoed.Rcfg
