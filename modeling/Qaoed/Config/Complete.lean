import Qaoed.Config.LoadSpec
import Qaoed.Rcfg.Include
import Qaoed.Rcfg.Parse

/-!
# One entry for each section

A find function hands the list it has so far to the parse function and takes what
comes back, and NULL means an error there and an empty list here. A section that
is rejected takes the earlier ones with it, and the walk goes on; only a list of
devices that is empty in the end is noticed.
-/

namespace Qaoed.Config

open Qaoed.Device
open Qaoed.Library

/-- The device is what the section describes, with the default values filled in. -/
def DescribesDEV (conf : Conf) (section_ : Cfg) (device : Devconf) : Prop :=
  ∃ ifconfs read, ReadDEV conf.loglist ifconfs conf.acllist section_ read ∧
    Completes (dfltAcl conf.devdefault) read device

/-- The access list is what the section describes, whatever its count. -/
def DescribesACL (conf : Conf) (section_ : Cfg) (acl : Aclconf) : Prop :=
  ∃ read, ReadACL conf.loglist section_ read ∧ acl.uncounted = read.uncounted

/-- The lists have one entry for each section, in the order of the file. -/
structure EntryPerSection (c : Cfg) (conf : Conf) : Prop where
  devices : List.Forall₂ (DescribesDEV conf) (c.sections (text "device")) conf.devices
  acllist : List.Forall₂ (DescribesACL conf) (c.sections (text "access-list")) conf.acllist

/-- No section that ends up in one of the two lists is rejected. -/
structure EntriesAccepted (c : Cfg) : Prop where
  device : ∀ body ∈ c.sections (text "device"), acceptsDEV body = true
  accessList : ∀ body ∈ c.sections (text "access-list"), acceptsACL body = true

/-- No section of any kind is one for which its parse function returns NULL. -/
structure NoneRejected (c : Cfg) : Prop extends EntriesAccepted c where
  logging : ∀ body ∈ c.sections (text "logging"), acceptsLOG body = true
  interface : ∀ body ∈ c.blocks (text "interface"), acceptsINT body = true
  default : ∀ body ∈ c.sections (text "default"), acceptsDEV body = true

/-- A file with a section that is rejected is not loaded. -/
def ErrorsReject (env : LoadEnv) (c : Cfg) : Prop :=
  ¬ NoneRejected c → qaoedLoadconfig env c = .error .null

/-- Whatever lists a parse function is given, it returns NULL if the section is not accepted, and
only then. -/
structure NullIfRejected (body : Cfg) : Prop where
  logging : ∀ loglist result, parseLOG loglist body = .ok result →
    (result = [] ↔ acceptsLOG body = false)
  interface : ∀ loglist memory result, parseINT loglist memory body = .ok result →
    (result.iflist = none ↔ acceptsINT body = false)
  accessList : ∀ loglist state result, parseACL loglist state body = .ok result →
    (result.1 = [] ↔ acceptsACL body = false)
  device : ∀ loglist intlist state result, parseDEV loglist intlist state body = .ok result →
    (result.1 = [] ↔ acceptsDEV body = false)

theorem parseINT_null {loglist : List Logconf} {memory result : Chains} {body : Cfg}
    (returns : parseINT loglist memory body = .ok result) :
    result.iflist = none ↔ acceptsINT body = false := by
  obtain ⟨log, _, returns⟩ := bind_eq_ok.mp returns
  obtain ⟨⟨entry, accepted⟩, statements, returns⟩ := bind_eq_ok.mp returns
  rw [← ifStatements_spec statements]
  cases returns
  cases accepted with
  | false => simp
  | true =>
      cases list : memory.iflist with
      | none => simp [Chains.start]
      | some chain => simp [list, Chains.append]

theorem nullIfRejected (body : Cfg) : NullIfRejected body where
  logging loglist result returns := by
    cases returns
    exact appended_eq_nil_iff
  interface _ _ _ returns := parseINT_null returns
  accessList loglist state result returns := by
    obtain ⟨acl, statements, returned⟩ := bind_eq_ok.mp returns
    cases returned
    rw [← (aclStatements_spec statements).1]
    exact appended_eq_nil_iff
  device loglist intlist state result returns := by
    obtain ⟨⟨dev, acllist⟩, statements, returned⟩ := bind_eq_ok.mp returns
    cases returned
    rw [← (devStatements_spec statements).accepts]
    exact appended_eq_nil_iff

section Load

variable {env : LoadEnv} {c : Cfg} {conf : Conf} {ifconfs : List Ifconf}
  {acllist : List Aclconf} {devlist : List Devconf}

/-- Relations that hold along two lists and along the second and a third compose. -/
theorem forall₂_comp {α β γ : Type} {first : α → β → Prop} {second : β → γ → Prop}
    {as : List α} {bs : List β} {cs : List γ} (left : List.Forall₂ first as bs)
    (right : List.Forall₂ second bs cs) :
    List.Forall₂ (fun a c => ∃ b, first a b ∧ second b c) as cs := by
  induction left generalizing cs with
  | nil =>
      cases right
      exact List.Forall₂.nil
  | cons head _ ih =>
      cases right with
      | cons head' tail' => exact List.Forall₂.cons ⟨_, head, head'⟩ (ih tail')

theorem Loaded.describesDEV (loaded : Loaded c conf ifconfs acllist devlist) :
    List.Forall₂ (DescribesDEV conf) (keptDEV c) conf.devices := by
  refine (forall₂_comp loaded.devices loaded.completes).imp ?_
  rintro body device ⟨dev, read, completes⟩
  exact ⟨ifconfs, dev, read.of_sameLists loaded.sameLists.symm, completes⟩

theorem Loaded.describesACL (loaded : Loaded c conf ifconfs acllist devlist) :
    List.Forall₂ (DescribesACL conf) (keptACL c) conf.acllist := by
  have equal : List.Forall₂ (· = ·) (acllist.map Aclconf.uncounted)
      (conf.acllist.map Aclconf.uncounted) := by
    rw [List.forall₂_eq_eq_eq]
    exact loaded.sameLists.symm
  rw [List.forall₂_map_left_iff, List.forall₂_map_right_iff] at equal
  exact forall₂_comp loaded.lists (equal.imp fun _ _ => Eq.symm)

/-- A list with as many entries as sections leaves no section out. -/
theorem accepted_of_length {accepts : Cfg → Bool} {sections : List Cfg}
    (complete : (sections.rtakeWhile accepts).length = sections.length) :
    ∀ body ∈ sections, accepts body = true :=
  List.rtakeWhile_eq_self_iff.mp ((List.rtakeWhile_suffix accepts sections).eq_of_length complete)

theorem Loaded.entryPerSection_iff (loaded : Loaded c conf ifconfs acllist devlist) :
    EntryPerSection c conf ↔ EntriesAccepted c := by
  have devices := loaded.describesDEV
  have acls := loaded.describesACL
  constructor
  · intro entries
    exact ⟨accepted_of_length (devices.length_eq.trans entries.devices.length_eq.symm),
      accepted_of_length (acls.length_eq.trans entries.acllist.length_eq.symm)⟩
  · intro accepted
    have keptDevices : keptDEV c = c.sections (text "device") :=
      List.rtakeWhile_eq_self_iff.mpr accepted.device
    have keptAcls : keptACL c = c.sections (text "access-list") :=
      List.rtakeWhile_eq_self_iff.mpr accepted.accessList
    rw [keptDevices] at devices
    rw [keptAcls] at acls
    exact ⟨devices, acls⟩

/-- The last device section of a file that is loaded is accepted. -/
theorem lastDevice_accepted (loads : qaoedLoadconfig env c = .ok conf) :
    ∃ body, (c.sections (text "device")).getLast? = some body ∧ acceptsDEV body = true := by
  obtain ⟨⟨ifconfs, acllist, devlist, loaded⟩, _⟩ := loaded_of_loads loads
  have some : keptDEV c ≠ [] := by
    intro none
    have empty := loaded.devices.length_eq
    rw [none] at empty
    exact loaded.nonempty (List.eq_nil_of_length_eq_zero empty.symm)
  unfold keptDEV at some
  rw [Ne, List.rtakeWhile_eq_nil_iff, not_forall] at some
  obtain ⟨nonempty, accepted⟩ := some
  rw [not_not] at accepted
  exact ⟨_, List.getLast?_eq_some_getLast nonempty, accepted⟩

end Load

/-- A file that is loaded has an entry for each section exactly if no device and no
access-list section is rejected, and bears the rule that errors reject the file out
exactly if no section at all is. The last device section is never a rejected one. Rejected are
the sections for which the parse functions return NULL. -/
theorem sections_complete_iff (env : LoadEnv) (c : Cfg) (conf : Conf)
    (loads : qaoedLoadconfig env c = .ok conf) :
    (EntryPerSection c conf ↔ EntriesAccepted c) ∧ (ErrorsReject env c ↔ NoneRejected c) ∧
      (∃ body, (c.sections (text "device")).getLast? = some body ∧ acceptsDEV body = true) ∧
      ∀ body, NullIfRejected body := by
  obtain ⟨⟨ifconfs, acllist, devlist, loaded⟩, _⟩ := loaded_of_loads loads
  refine ⟨loaded.entryPerSection_iff, ?_, lastDevice_accepted loads, nullIfRejected⟩
  constructor
  · intro reject
    by_contra rejected
    rw [reject rejected] at loads
    cases loads
  · intro accepted rejected
    exact absurd accepted rejected

/-! ## A keyword of another section -/

/-- The system opens and finds whatever is asked for. -/
def willing : LoadEnv := ⟨fun _ => true, fun _ => ⟨true, none, some 1500, some 1500⟩, fun _ => some .reg⟩

/-- A device section in front of others. -/
def deviceSection (target : CString) (slot : String) (more next : Cfg) : Cfg :=
  .block (text "device") (.assignment (text "target") target
    (.assignment (text "shelf") (text "1") (.assignment (text "slot") (text slot)
      (.assignment (text "interface") (text "eth0") more)))) next

/-- Two devices, of which the first one may have a statement more. -/
def twoDevices (more : Cfg) : Cfg :=
  deviceSection (text "/a") "1" more (deviceSection (text "/b") "2" .null .null)

/-- `mtu = 5;`, which stands in the section of an interface. -/
def displaced : Cfg := .assignment (text "mtu") (text "5") .null

def displacedFile : List UInt8 :=
  text "device { target = /a; shelf = 1; slot = 1; interface = eth0; mtu = 5; }\n" ++
    text "device { target = /b; shelf = 1; slot = 2; interface = eth0; }\n"

theorem sections_complete_iff_twoDevices :
    ∃ conf, qaoedLoadconfig willing (twoDevices .null) = .ok conf ∧
      EntryPerSection (twoDevices .null) conf := by
  refine ⟨_, rfl, (sections_complete_iff willing (twoDevices .null) _ rfl).1.mpr ⟨?_, ?_⟩⟩
  · decide
  · decide

/-- The file passes the checks on its tokens and is parsed. It is loaded without its first device. -/
theorem displacedKeyword_losesDevice :
    Rcfg.accepted displacedFile = .ok (Rcfg.flatten (twoDevices displaced)) ∧
      Rcfg.processtokens (Rcfg.flatten (twoDevices displaced)) (text "qaoed.conf") =
        .ok (.block (text "qaoed.conf") (twoDevices displaced) .null) ∧
      ∃ conf, qaoedLoadconfig willing (twoDevices displaced) = .ok conf ∧
        conf.devices.length = 1 ∧ ¬ EntryPerSection (twoDevices displaced) conf ∧
        ¬ ErrorsReject willing (twoDevices displaced) := by
  refine ⟨by decide +kernel, by decide +kernel, _, rfl, rfl, ?_, ?_⟩
  · intro entries
    exact absurd entries.devices.length_eq (by decide)
  · intro reject
    have rejected : ¬ NoneRejected (twoDevices displaced) := by
      intro none
      exact absurd (none.device _ List.mem_cons_self) (by decide)
    cases reject rejected

end Qaoed.Config
