import Qaoed.Config.LoadSpec

/-!
# The interfaces of a loaded configuration

Devices refer to interfaces by the place where their name was found among the
interface sections. All of these are opened, in their order, so the places are those of
the interfaces of the configuration.
-/

namespace Qaoed.Config

open Qaoed.Device
open Qaoed.Library

/-- A pointer into a list of interfaces, or NULL. -/
def Leads (count : Nat) (interface : Option Nat) : Prop :=
  ∀ position, interface = some position → position < count

/-- Before any device is started no interface counts one, and pointers lead to interfaces. -/
structure Fresh (conf : Conf) : Prop where
  refcnts : ∀ interface ∈ conf.intlist, interface.refcnt = 0
  devices : ∀ device ∈ conf.devices, Leads conf.intlist.length device.interface
  devdefault : ∀ dflt, conf.devdefault = some dflt → Leads conf.intlist.length dflt.interface

theorem Leads.or {count : Nat} {own dflt : Option Nat} (ownLeads : Leads count own)
    (dfltLeads : Leads count dflt) : Leads count (own.or dflt) := by
  intro position found
  rcases Option.or_eq_some_iff.mp found with here | ⟨_, there⟩
  · exact ownLeads position here
  · exact dfltLeads position there

theorem Leads.bind {count : Nat} {devdefault : Option Devconf}
    (leads : ∀ dflt, devdefault = some dflt → Leads count dflt.interface) :
    Leads count (devdefault.bind fun dflt => dflt.interface) := by
  intro position found
  obtain ⟨dflt, has, attached⟩ := Option.bind_eq_some_iff.mp found
  exact leads dflt has position attached

/-! ## Sections -/

section Sections

variable {loglist : List Logconf} {intlist : List Ifconf} {acllist acllist' : List Aclconf}
  {c : Cfg} {dev dev' : Devconf} {devlist devices : List Devconf}

theorem referenceifconf_leads {name : CString} {interface : Option Nat}
    (returns : referenceifconf name intlist = .ok interface) : Leads intlist.length interface := by
  rintro position rfl
  exact (List.findIdx?_eq_some_iff_getElem.mp (reference_eq returns).symm).1

theorem Keeps.leads (keeps : Keeps intlist dev dev')
    (leads : Leads intlist.length dev.interface) : Leads intlist.length dev'.interface := by
  rcases keeps.interface with same | ⟨rvalue, found⟩
  · rw [same]
    exact leads
  · exact referenceifconf_leads found

theorem parsedevacl_interface (returns : parsedevacl acllist dev c = .ok (some dev', acllist')) :
    dev'.interface = dev.interface := by
  induction c generalizing acllist dev with
  | null =>
      cases returns
      rfl
  | block lvalue body next _ ih => exact ih returns
  | assignment lvalue rvalue next ih =>
      rw [parsedevacl] at returns
      cases keyword : aclKeyword lvalue with
      | none =>
          rw [keyword] at returns
          cases returns
      | some op =>
          rw [keyword] at returns
          obtain ⟨acl, _, returns⟩ := bind_eq_ok.mp returns
          rw [ih returns]
          cases op <;> rfl

theorem devStatements_leads (leads : Leads intlist.length dev.interface)
    (returns : devStatements loglist intlist acllist dev c = .ok (some dev', acllist')) :
    Leads intlist.length dev'.interface := by
  induction c generalizing acllist dev with
  | null =>
      cases returns
      exact leads
  | block lvalue body next _ ih =>
      rw [devStatements] at returns
      split_ifs at returns with acl
      · obtain ⟨⟨parsed, middle⟩, inBlock, returns⟩ := bind_eq_ok.mp returns
        cases parsed with
        | none => cases returns
        | some first =>
            rw [← parsedevacl_interface inBlock] at leads
            exact ih leads returns
      · exact ih leads returns
  | assignment lvalue rvalue next ih =>
      rw [devStatements] at returns
      obtain ⟨parsed, statement, returns⟩ := bind_eq_ok.mp returns
      cases parsed with
      | none => cases returns
      | some first => exact ih (((devStatement_spec statement).2 first rfl).leads leads) returns

theorem ReadDEV.leads {body : Cfg} (read : ReadDEV loglist intlist acllist body dev) :
    Leads intlist.length dev.interface := by
  obtain ⟨before, after, _, returns⟩ := read
  have blank : Leads intlist.length blankDEV.interface := by
    intro position attached
    cases attached
  exact devStatements_leads blank returns

theorem leads_of_sections {sections : List Cfg}
    (along : List.Forall₂ (fun _ dev => Leads intlist.length dev.interface) sections devlist) :
    ∀ dev ∈ devlist, Leads intlist.length dev.interface := by
  intro dev member
  obtain ⟨index, found⟩ := List.mem_iff_getElem?.mp member
  obtain ⟨_, _, leads⟩ := forall₂_getElem? along.flip found
  exact leads

theorem findDEV_leads (returns : findDEV loglist intlist acllist c = .ok (devlist, acllist')) :
    ∀ dev ∈ devlist, Leads intlist.length dev.interface :=
  leads_of_sections ((findDEV_spec returns).2.imp fun _ _ read => read.leads)

theorem findDFLT_leads (returns : findDFLT loglist intlist acllist c = .ok (devlist, acllist')) :
    ∀ dev ∈ devlist, Leads intlist.length dev.interface := by
  refine leads_of_sections (find_parseDEV ReadDEV.leads ?_ ?_ returns).2
  · rintro ⟨_ | ⟨dev, devlist⟩, acllist⟩ <;> rfl
  · rintro done ⟨_ | ⟨dev, devlist⟩, acllist⟩ entries
    · exact entries
    · cases entries with
      | cons first rest => exact List.Forall₂.cons first rest

end Sections

/-! ## Default values -/

theorem qaoedDefaultconfig_leads {loglist : List Logconf} {count : Nat}
    {devdefault devdefault' : Option Devconf} {devlist devices : List Devconf}
    (leads : ∀ dev ∈ devlist, Leads count dev.interface)
    (dfltLeads : ∀ dflt, devdefault = some dflt → Leads count dflt.interface)
    (returns : qaoedDefaultconfig loglist devdefault devlist = .ok (devices, devdefault')) :
    (∀ dev ∈ devices, Leads count dev.interface) ∧
      ∀ dflt, devdefault' = some dflt → Leads count dflt.interface := by
  induction devlist generalizing devdefault devices with
  | nil =>
      cases returns
      exact ⟨leads, dfltLeads⟩
  | cons device next ih =>
      obtain ⟨⟨first, middle⟩, returnsFirst, returns⟩ := bind_eq_ok.mp returns
      obtain ⟨⟨others, last⟩, returnsOthers, returned⟩ := bind_eq_ok.mp returns
      cases returned
      obtain ⟨own, same⟩ := qaoedDevdefaults_interface returnsFirst
      have middleLeads (dflt : Devconf) (has : middle = some dflt) : Leads count dflt.interface := by
        rw [has] at same
        obtain ⟨before, had, interface⟩ := Option.map_eq_some_iff.mp same.symm
        intro position attached
        exact dfltLeads before had position (interface.trans attached)
      obtain ⟨leadsOthers, lastLeads⟩ :=
        ih (fun dev member => leads dev (List.mem_cons_of_mem _ member)) middleLeads returnsOthers
      refine ⟨?_, lastLeads⟩
      intro dev member
      rcases List.mem_cons.mp member with rfl | inRest
      · rw [own]
        exact (leads device List.mem_cons_self).or (Leads.bind dfltLeads)
      · exact leadsOthers dev inRest

/-! ## The configuration -/

theorem openConfigured_spec {env : LoadEnv} {ifconfs : List Ifconf} {intlist : List Interface}
    (returns : openConfigured env ifconfs = .ok intlist) :
    ifconfs.length ≤ intlist.length ∧ ∀ interface ∈ intlist, interface.refcnt = 0 := by
  unfold openConfigured at returns
  split at returns
  · cases returns
  · split_ifs at returns with named
    cases returns
    rw [List.length_map]
    refine ⟨Nat.le_of_not_lt named, ?_⟩
    intro interface member
    obtain ⟨ifst, _, rfl⟩ := List.mem_map.mp member
    rfl

theorem fresh_of_loads {env : LoadEnv} {c : Cfg} {conf : Conf}
    (loads : qaoedLoadconfig env c = .ok conf) : Fresh conf := by
  obtain ⟨ifconfs, acllist, middle, dflts, devlist, passes⟩ := passes_of_loads loads
  obtain ⟨enough, refcnts⟩ := openConfigured_spec passes.opens
  have onto {interface : Option Nat} (leads : Leads ifconfs.length interface) :
      Leads conf.intlist.length interface :=
    fun position attached => Nat.lt_of_lt_of_le (leads position attached) enough
  have dfltLeads (dflt : Devconf) (first : dflts.head? = some dflt) :
      Leads conf.intlist.length dflt.interface :=
    onto (findDFLT_leads passes.defaults dflt (List.mem_of_mem_head? first))
  obtain ⟨leads, lastLeads⟩ := qaoedDefaultconfig_leads
    (fun dev member => onto (findDEV_leads passes.devices dev member)) dfltLeads passes.merged
  exact ⟨refcnts, leads, lastLeads⟩

end Qaoed.Config
