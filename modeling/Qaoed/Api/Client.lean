import Qaoed.Api.Replies
import Qaoed.Library.Records

/-!
# Lists in the client

`qdctl` reads a reply into memory, and walks through the structures of a list in it. It
has room for less than 2048 bytes behind the header: a list of that size is written over
what lies behind, and a larger one is not read at all.
-/

namespace Qaoed.Api

open Qaoed.Device
open Qaoed.Frame
open Qaoed.Library
open Qaoed.Library.ByteOrder
open Qaoed.Config

/-! ## Structures in memory -/

/-- The bytes that `strcpy` writes. -/
def zeroEnded (name : CString) : List UInt8 := name ++ [0]

/-- The fields in the order in which `processTARGET_LIST` fills them in. -/
def targetInfoFormat (order : ByteOrder) : RecordFormat TargetInfo UInt8 where
  size := sizeofTargetInfo
  fill := 0
  fields tg := [(120, store16 order tg.shelf), (122, [tg.slot]), (148, storeInt order tg.broadcast),
    (144, storeInt order tg.writecache), (0, zeroEnded tg.devicename), (123, zeroEnded tg.ifname)]
  load := TargetInfo.load order

def AclInfo.load (order : ByteOrder) (bytes : List UInt8) : AclInfo where
  name := cstringAt bytes 0
  aclnumber := (intAt order bytes 120).toNat
  defaultpolicy := UInt8.ofNat (intAt order bytes 124).toNat

def aclInfoFormat (order : ByteOrder) : RecordFormat AclInfo UInt8 where
  size := sizeofAclInfo
  fill := 0
  fields anfo := [(120, storeInt order anfo.aclnumber), (124, storeInt order anfo.defaultpolicy.toNat),
    (0, zeroEnded anfo.name)]
  load := AclInfo.load order

def IfInfo.load (order : ByteOrder) (bytes : List UInt8) : IfInfo where
  name := cstringAt bytes 0
  hwaddr := SixBytes.ofMem (byteAt bytes) 20
  mtu := intAt order bytes 28

def ifInfoFormat (order : ByteOrder) : RecordFormat IfInfo UInt8 where
  size := sizeofIfInfo
  fill := 0
  fields ifinfo := [(28, storeInt order ifinfo.mtu), (0, zeroEnded ifinfo.name),
    (20, ifinfo.hwaddr.toBytes)]
  load := IfInfo.load order

/-! ## Replies with a list -/

inductive Listing where
  | interfaces (ifinfolist : List IfInfo)
  | targets (tglist : List TargetInfo)
  | acls (aclinfo : List AclInfo)
  deriving DecidableEq, Repr

def Listing.arg : Listing → Argument
  | .interfaces ifinfolist => .interfaces ifinfolist
  | .targets tglist => .targets tglist
  | .acls aclinfo => .acls aclinfo

/-- The list as it is written into the memory that was allocated for it. -/
def Listing.store (order : ByteOrder) (memory : List UInt8) : Listing → List UInt8
  | .interfaces ifinfolist => (ifInfoFormat order).storeAll ifinfolist memory
  | .targets tglist => (targetInfoFormat order).storeAll tglist memory
  | .acls aclinfo => (aclInfoFormat order).storeAll aclinfo memory

/-! ## The client -/

/-- Why the client shows no list: it exits, writes behind its memory, or the reply is not
one that has a list. -/
inductive ClientStop where
  | exit
  | overflow
  | failed
  | unknown
  deriving DecidableEq, Repr

/-- `readreply`: the reply and what follows it in the stream. -/
def readreply (order : ByteOrder) (malloc : Bool) (stream : List UInt8) :
    Except ClientStop (Frame ApiHdr UInt8 × List UInt8) :=
  if (stream.take sizeofApihdr).length ≠ sizeofApihdr then .error .exit
  else
    let apiHdr := ApiHdr.load order (stream.take sizeofApihdr)
    let allocated :=
      if apiHdr.argLen < 2048 then apiHdr.argLen.toNat + sizeofApihdr else sizeofApihdr
    if !malloc then .error .exit
    else if apiHdr.argLen > 2048 then .error .exit
    else
      let rest := stream.drop sizeofApihdr
      let data := rest.take apiHdr.argLen.toNat
      if allocated < sizeofApihdr + data.length then .error .overflow
      else if data.length ≠ apiHdr.argLen.toNat then .error .exit
      else .ok (⟨apiHdr, data⟩, rest.drop apiHdr.argLen.toNat)

/-- The loops of the three functions that show a list. -/
def processINTLISTreply (order : ByteOrder) (reply : Frame ApiHdr UInt8) : List IfInfo :=
  (ifInfoFormat order).loadAll (reply.header.argLen.toNat / sizeofIfInfo) reply.body

def processTARGETLISTreply (order : ByteOrder) (reply : Frame ApiHdr UInt8) : List TargetInfo :=
  (targetInfoFormat order).loadAll (reply.header.argLen.toNat / sizeofTargetInfo) reply.body

def processACLLISTreply (order : ByteOrder) (reply : Frame ApiHdr UInt8) : List AclInfo :=
  (aclInfoFormat order).loadAll (reply.header.argLen.toNat / sizeofAclInfo) reply.body

/-- The list that is shown. -/
def recvshowreply (order : ByteOrder) (malloc : Bool) (stream : List UInt8) :
    Except ClientStop Listing := do
  let (reply, _) ← readreply order malloc stream
  if reply.header.error ≠ ApiError.code .allok then .error .failed
  else if reply.header.cmd = Request.interfacesList.cmd then
    .ok (.interfaces (processINTLISTreply order reply))
  else if reply.header.cmd = Request.targetList.cmd then
    .ok (.targets (processTARGETLISTreply order reply))
  else if reply.header.cmd = Request.aclList.cmd then
    .ok (.acls (processACLLISTreply order reply))
  else .error .unknown

/-! ## Fields -/

/-- A string that has room in its field, with the byte that ends it. -/
structure NameFits (name : CString) (size : Nat) : Prop where
  short : name.length < size
  unbroken : 0 ∉ name

/-- The value of an `int`. -/
def IntFits (value : Int) : Prop := -2 ^ 31 ≤ value ∧ value < 2 ^ 31

structure TargetInfo.Fits (info : TargetInfo) : Prop where
  devicename : NameFits info.devicename 120
  ifname : NameFits info.ifname 20
  writecache : IntFits info.writecache
  broadcast : IntFits info.broadcast

structure AclInfo.Fits (info : AclInfo) : Prop where
  name : NameFits info.name 120
  aclnumber : IntFits info.aclnumber

structure IfInfo.Fits (info : IfInfo) : Prop where
  name : NameFits info.name 20
  mtu : IntFits info.mtu

def Listing.Fits : Listing → Prop
  | .interfaces ifinfolist => ∀ info ∈ ifinfolist, IfInfo.Fits info
  | .targets tglist => ∀ info ∈ tglist, TargetInfo.Fits info
  | .acls aclinfo => ∀ info ∈ aclinfo, AclInfo.Fits info

section Fields

variable {order : ByteOrder} {memory : List UInt8} {offset : Nat}

theorem byteAt_slice {len index : Nat} (inside : index < len) :
    byteAt memory (offset + index) = byteAt (slice memory offset len) index := by
  unfold byteAt
  rw [slice_getElem?, if_pos inside]

theorem cstringAt_of_holds {name : CString} (unbroken : 0 ∉ name)
    (holds : HoldsField memory (offset, zeroEnded name)) : cstringAt memory offset = name := by
  have begins : (memory.drop offset).take (zeroEnded name).length <+: memory.drop offset :=
    List.take_prefix _ _
  have found : (memory.drop offset).take (zeroEnded name).length = zeroEnded name := holds
  rw [found] at begins
  obtain ⟨rest, split⟩ := begins
  have all : ∀ byte ∈ name, (byte != 0) = true := by
    intro byte member
    rw [bne_iff_ne]
    rintro rfl
    exact unbroken member
  rw [cstringAt, ← split, zeroEnded, List.append_assoc, List.takeWhile_append_of_pos all]
  simp

theorem byteAt_of_holds {byte : UInt8} (holds : HoldsField memory (offset, [byte])) :
    byteAt memory offset = byte := by
  have here : byteAt memory (offset + 0) = byteAt (slice memory offset 1) 0 :=
    byteAt_slice Nat.one_pos
  have found : slice memory offset 1 = [byte] := holds
  rw [Nat.add_zero, found] at here
  exact here

theorem ushortAt_of_holds {value : UInt16}
    (holds : HoldsField memory (offset, store16 order value)) : ushortAt order memory offset = value := by
  have found : slice memory offset 2 = store16 order value := by
    rw [HoldsField, store16_length] at holds
    exact holds
  obtain ⟨first, second, stored⟩ : ∃ first second, store16 order value = [first, second] := by
    cases order with
    | little => exact ⟨_, _, rfl⟩
    | big => exact ⟨_, _, rfl⟩
  have low : byteAt memory (offset + 0) = byteAt (slice memory offset 2) 0 :=
    byteAt_slice (by decide)
  have high : byteAt memory (offset + 1) = byteAt (slice memory offset 2) 1 :=
    byteAt_slice (by decide)
  rw [found, stored] at low high
  rw [Nat.add_zero] at low
  rw [ushortAt, low, high]
  exact load16_store16 order value stored

theorem uintAt_of_holds {value : UInt32}
    (holds : HoldsField memory (offset, store32 order value)) : uintAt order memory offset = value := by
  have found : slice memory offset 4 = store32 order value := by
    rw [HoldsField, store32_length] at holds
    exact holds
  obtain ⟨b0, b1, b2, b3, stored⟩ := store32_eq order value
  have at0 : byteAt memory (offset + 0) = byteAt (slice memory offset 4) 0 :=
    byteAt_slice (by decide)
  have at1 : byteAt memory (offset + 1) = byteAt (slice memory offset 4) 1 :=
    byteAt_slice (by decide)
  have at2 : byteAt memory (offset + 2) = byteAt (slice memory offset 4) 2 :=
    byteAt_slice (by decide)
  have at3 : byteAt memory (offset + 3) = byteAt (slice memory offset 4) 3 :=
    byteAt_slice (by decide)
  rw [found, stored] at at0 at1 at2 at3
  rw [Nat.add_zero] at at0
  rw [uintAt, at0, at1, at2, at3]
  exact load32_store32 order value stored

theorem intAt_of_holds {value : Int} (fits : IntFits value)
    (holds : HoldsField memory (offset, storeInt order value)) : intAt order memory offset = value := by
  have low := fits.1
  have high := fits.2
  have word : uintAt order memory offset = UInt32.ofNat (value % 2 ^ 32).toNat :=
    uintAt_of_holds holds
  have stored : ((uintAt order memory offset).toNat : Int) = value % 2 ^ 32 := by
    rw [word, UInt32.toNat_ofNat']
    omega
  have cut : (value % 2 ^ 32).bmod (2 ^ 32) = value := by
    rw [Int.bmod_def]
    omega
  unfold intAt
  simp only [stored, cut]

theorem sixBytes_of_holds {hwaddr : SixBytes}
    (holds : HoldsField memory (offset, hwaddr.toBytes)) :
    SixBytes.ofMem (byteAt memory) offset = hwaddr := by
  have found : slice memory offset 6 = hwaddr.toBytes := holds
  have read (index : Nat) (inside : index < 6) :
      byteAt memory (offset + index) = byteAt hwaddr.toBytes index := by
    rw [byteAt_slice inside, found]
  have first := read 0 (by decide)
  rw [Nat.add_zero] at first
  rw [SixBytes.ofMem, first, read 1 (by decide), read 2 (by decide), read 3 (by decide),
    read 4 (by decide), read 5 (by decide)]
  rfl

theorem storeInt_length (value : Int) : (storeInt order value).length = 4 := store32_length _ _

theorem zeroEnded_length (name : CString) : (zeroEnded name).length = name.length + 1 := by
  rw [zeroEnded, List.length_append]
  rfl

theorem targetInfo_fits {info : TargetInfo} (fits : info.Fits) :
    (targetInfoFormat order).Fits info where
  inside := by
    have devicename := fits.devicename.short
    have ifname := fits.ifname.short
    simp only [targetInfoFormat, sizeofTargetInfo, List.forall_mem_cons, List.not_mem_nil,
      false_imp_iff, implies_true, and_true, store16_length, storeInt_length, zeroEnded_length,
      List.length_cons, List.length_nil]
    omega
  apart := by
    have devicename := fits.devicename.short
    have ifname := fits.ifname.short
    simp only [targetInfoFormat, Apart, List.pairwise_cons, List.forall_mem_cons,
      List.not_mem_nil, false_imp_iff, implies_true, and_true, List.Pairwise.nil, store16_length,
      storeInt_length, zeroEnded_length, List.length_cons, List.length_nil]
    omega
  loads := by
    intro memory holds
    simp only [targetInfoFormat, List.forall_mem_cons] at holds
    obtain ⟨shelf, slot, broadcast, writecache, devicename, ifname, _⟩ := holds
    show TargetInfo.load order memory = info
    rw [TargetInfo.load, ushortAt_of_holds shelf, byteAt_of_holds slot,
      intAt_of_holds fits.broadcast broadcast, intAt_of_holds fits.writecache writecache,
      cstringAt_of_holds fits.devicename.unbroken devicename,
      cstringAt_of_holds fits.ifname.unbroken ifname]

theorem aclInfo_fits {info : AclInfo} (fits : info.Fits) : (aclInfoFormat order).Fits info where
  inside := by
    have name := fits.name.short
    simp only [aclInfoFormat, sizeofAclInfo, List.forall_mem_cons, List.not_mem_nil,
      false_imp_iff, implies_true, and_true, storeInt_length, zeroEnded_length]
    omega
  apart := by
    have name := fits.name.short
    simp only [aclInfoFormat, Apart, List.pairwise_cons, List.forall_mem_cons,
      List.not_mem_nil, false_imp_iff, implies_true, and_true, List.Pairwise.nil, storeInt_length,
      zeroEnded_length]
    omega
  loads := by
    intro memory holds
    simp only [aclInfoFormat, List.forall_mem_cons] at holds
    obtain ⟨aclnumber, defaultpolicy, name, _⟩ := holds
    have policyFits : IntFits info.defaultpolicy.toNat := by
      have bound := info.defaultpolicy.toNat_lt
      constructor <;> omega
    show AclInfo.load order memory = info
    rw [AclInfo.load, intAt_of_holds fits.aclnumber aclnumber, intAt_of_holds policyFits defaultpolicy,
      cstringAt_of_holds fits.name.unbroken name, Int.toNat_natCast, Int.toNat_natCast,
      UInt8.ofNat_toNat]

theorem ifInfo_fits {info : IfInfo} (fits : info.Fits) : (ifInfoFormat order).Fits info where
  inside := by
    have name := fits.name.short
    simp only [ifInfoFormat, sizeofIfInfo, List.forall_mem_cons, List.not_mem_nil,
      false_imp_iff, implies_true, and_true, storeInt_length, zeroEnded_length, SixBytes.toBytes,
      List.length_cons, List.length_nil]
    omega
  apart := by
    have name := fits.name.short
    simp only [ifInfoFormat, Apart, List.pairwise_cons, List.forall_mem_cons,
      List.not_mem_nil, false_imp_iff, implies_true, and_true, List.Pairwise.nil, storeInt_length,
      zeroEnded_length, SixBytes.toBytes, List.length_cons, List.length_nil]
    omega
  loads := by
    intro memory holds
    simp only [ifInfoFormat, List.forall_mem_cons] at holds
    obtain ⟨mtu, name, hwaddr, _⟩ := holds
    show IfInfo.load order memory = info
    rw [IfInfo.load, intAt_of_holds fits.mtu mtu, cstringAt_of_holds fits.name.unbroken name,
      sixBytes_of_holds hwaddr]

end Fields

/-! ## The way of a list -/

/-- The number of entries, and the size of one. -/
def Listing.length : Listing → Nat
  | .interfaces ifinfolist => ifinfolist.length
  | .targets tglist => tglist.length
  | .acls aclinfo => aclinfo.length

def Listing.entrySize : Listing → Nat
  | .interfaces _ => sizeofIfInfo
  | .targets _ => sizeofTargetInfo
  | .acls _ => sizeofAclInfo

/-- The client's list of the same kind. -/
def Listing.loaded (order : ByteOrder) (reply : Frame ApiHdr UInt8) : Listing → Listing
  | .interfaces _ => .interfaces (processINTLISTreply order reply)
  | .targets _ => .targets (processTARGETLISTreply order reply)
  | .acls _ => .acls (processACLLISTreply order reply)

section Listings

variable {order : ByteOrder} {listing : Listing} {memory : List UInt8}

theorem Listing.entrySize_pos (listing : Listing) : 0 < listing.entrySize := by
  cases listing with
  | interfaces _ => exact Nat.succ_pos _
  | targets _ => exact Nat.succ_pos _
  | acls _ => exact Nat.succ_pos _

theorem Listing.store_length (fits : listing.Fits)
    (room : memory.length = listing.length * listing.entrySize) :
    (listing.store order memory).length = listing.length * listing.entrySize := by
  cases listing with
  | interfaces ifinfolist =>
      exact RecordFormat.storeAll_length (fun info member => ifInfo_fits (fits info member)) room
  | targets tglist =>
      exact RecordFormat.storeAll_length (fun info member => targetInfo_fits (fits info member)) room
  | acls aclinfo =>
      exact RecordFormat.storeAll_length (fun info member => aclInfo_fits (fits info member)) room

/-- A list is loaded back from the bytes it was stored in. -/
theorem Listing.loaded_store (fits : listing.Fits)
    (room : memory.length = listing.length * listing.entrySize) {apiHdr : ApiHdr}
    (announced : apiHdr.argLen.toNat = listing.length * listing.entrySize) :
    listing.loaded order ⟨apiHdr, listing.store order memory⟩ = listing := by
  have count : apiHdr.argLen.toNat / listing.entrySize = listing.length := by
    rw [announced]
    exact Nat.mul_div_cancel _ listing.entrySize_pos
  cases listing with
  | interfaces ifinfolist =>
      have loads : (ifInfoFormat order).loadAll ifinfolist.length _ = ifinfolist :=
        RecordFormat.loadAll_storeAll (fun info member => ifInfo_fits (fits info member)) room
      rw [Listing.loaded, processINTLISTreply]
      exact congrArg Listing.interfaces ((congrArg (fun n => RecordFormat.loadAll _ n _) count).trans loads)
  | targets tglist =>
      have loads : (targetInfoFormat order).loadAll tglist.length _ = tglist :=
        RecordFormat.loadAll_storeAll (fun info member => targetInfo_fits (fits info member)) room
      rw [Listing.loaded, processTARGETLISTreply]
      exact congrArg Listing.targets ((congrArg (fun n => RecordFormat.loadAll _ n _) count).trans loads)
  | acls aclinfo =>
      have loads : (aclInfoFormat order).loadAll aclinfo.length _ = aclinfo :=
        RecordFormat.loadAll_storeAll (fun info member => aclInfo_fits (fits info member)) room
      rw [Listing.loaded, processACLLISTreply]
      exact congrArg Listing.acls ((congrArg (fun n => RecordFormat.loadAll _ n _) count).trans loads)

/-- The loop makes as many rounds as the announced size has room for entries. -/
theorem Listing.loaded_length (reply : Frame ApiHdr UInt8) :
    (listing.loaded order reply).length = reply.header.argLen.toNat / listing.entrySize := by
  cases listing with
  | interfaces _ => exact RecordFormat.loadAll_length _ _ _
  | targets _ => exact RecordFormat.loadAll_length _ _ _
  | acls _ => exact RecordFormat.loadAll_length _ _ _

/-- The request that is answered with such a list. -/
def Listing.request : Listing → Request
  | .interfaces _ => .interfacesList
  | .targets _ => .targetList
  | .acls _ => .aclList

section Entries

variable {env : ApiEnv} {conf : Conf} {reply : Reply}

theorem processIntList_arg (sent : reply ∈ (processIntList env conf).sent) :
    reply.arg = .interfaces (conf.intlist.map ifInfo) := by
  unfold processIntList at sent
  split_ifs at sent
  · cases sent
  · rw [List.mem_singleton.mp sent]

theorem processTargetList_arg (sent : reply ∈ (processTargetList env conf).sent) :
    ∃ tglist, conf.devices.mapM (targetInfo conf.intlist) = .ok tglist ∧
      reply.arg = .targets tglist := by
  unfold processTargetList at sent
  split_ifs at sent
  · cases sent
  · cases lists : conf.devices.mapM (targetInfo conf.intlist) with
    | error stop =>
        rw [lists] at sent
        cases sent
    | ok tglist =>
        rw [lists] at sent
        exact ⟨tglist, rfl, by rw [List.mem_singleton.mp sent]⟩

theorem processAclList_arg (sent : reply ∈ (processAclList env conf).sent) :
    ∃ aclinfo, conf.acllist.mapM aclInfo = .ok aclinfo ∧ reply.arg = .acls aclinfo := by
  unfold processAclList at sent
  split_ifs at sent
  · cases sent
  · cases lists : conf.acllist.mapM aclInfo with
    | error stop =>
        rw [lists] at sent
        cases sent
    | ok aclinfo =>
        rw [lists] at sent
        exact ⟨aclinfo, rfl, by rw [List.mem_singleton.mp sent]⟩

theorem Listing.arg_injective {first second : Listing} (same : first.arg = second.arg) :
    first = second := by
  cases first <;> cases second <;> cases same <;> rfl

/-- The size of the reply is that of its entries. -/
theorem listing_size {request : Request} (list : IsList request)
    (sent : reply ∈ (processAPIrequest env conf request).sent) (arg : reply.arg = listing.arg) :
    listing.request = request ∧ listing.length * listing.entrySize = reportSize conf request := by
  cases list with
  | interfaces =>
      have same : listing = .interfaces (conf.intlist.map ifInfo) :=
        Listing.arg_injective (arg.symm.trans (processIntList_arg sent))
      rw [same, Listing.length, List.length_map]
      exact ⟨rfl, rfl⟩
  | targets =>
      obtain ⟨tglist, lists, entries⟩ := processTargetList_arg sent
      have same : listing = .targets tglist := Listing.arg_injective (arg.symm.trans entries)
      rw [same, Listing.length, ← (mapM_forall₂ lists).length_eq]
      exact ⟨rfl, rfl⟩
  | acls =>
      obtain ⟨aclinfo, lists, entries⟩ := processAclList_arg sent
      have same : listing = .acls aclinfo := Listing.arg_injective (arg.symm.trans entries)
      rw [same, Listing.length, ← (mapM_forall₂ lists).length_eq]
      exact ⟨rfl, rfl⟩

end Entries

section Reading

variable {malloc : Bool} {stream : List UInt8} {result : Frame ApiHdr UInt8 × List UInt8}

/-- What `readreply` reads if there is room for it. -/
theorem apihdr_read_iff : (apihdr order).read stream = some result ↔
    sizeofApihdr ≤ stream.length ∧
      (ApiHdr.load order (stream.take sizeofApihdr)).argLen.toNat ≤
        (stream.drop sizeofApihdr).length ∧
      result = (⟨ApiHdr.load order (stream.take sizeofApihdr), (stream.drop sizeofApihdr).take
          (ApiHdr.load order (stream.take sizeofApihdr)).argLen.toNat⟩,
        (stream.drop sizeofApihdr).drop
          (ApiHdr.load order (stream.take sizeofApihdr)).argLen.toNat) :=
  Framing.read_eq_some_iff

theorem readreply_cut (cut : stream.length < sizeofApihdr) :
    readreply order malloc stream = .error .exit := by
  have short : (stream.take sizeofApihdr).length ≠ sizeofApihdr := by
    rw [List.length_take]
    omega
  rw [readreply, if_pos short]

theorem readreply_unallocated : readreply order false stream = .error .exit := by
  unfold readreply
  split_ifs with cut unallocated
  · rfl
  · rfl
  · exact absurd rfl unallocated

theorem readreply_small (whole : sizeofApihdr ≤ stream.length)
    (small : (ApiHdr.load order (stream.take sizeofApihdr)).argLen < 2048) :
    readreply order true stream = .ok result ↔ (apihdr order).read stream = some result := by
  rw [apihdr_read_iff]
  have header : ¬ (stream.take sizeofApihdr).length ≠ sizeofApihdr := by
    rw [List.length_take]
    omega
  unfold readreply
  rw [if_neg header]
  generalize ApiHdr.load order (stream.take sizeofApihdr) = apiHdr at small ⊢
  generalize stream.drop sizeofApihdr = rest
  have notLarge : ¬ apiHdr.argLen > 2048 := by
    rw [gt_iff_lt, UInt32.not_lt]
    exact UInt32.le_of_lt small
  have room : ¬ apiHdr.argLen.toNat + sizeofApihdr <
      sizeofApihdr + (rest.take apiHdr.argLen.toNat).length := by
    rw [List.length_take]
    omega
  dsimp only
  rw [Bool.not_true, if_neg Bool.false_ne_true, if_neg notLarge, if_pos small, if_neg room,
    List.length_take]
  split_ifs with short
  · refine iff_of_false (fun returned => nomatch returned) ?_
    rintro ⟨_, all, _⟩
    omega
  · rw [Except.ok.injEq, eq_comm]
    exact ⟨fun same => ⟨whole, by omega, same⟩, fun both => both.2.2⟩

/-- A size of 2048 bytes passes the check, and there is no room for it. -/
theorem readreply_large (large : ¬ (ApiHdr.load order (stream.take sizeofApihdr)).argLen < 2048) :
    readreply order malloc stream ≠ .ok result := by
  have bound : 2048 ≤ (ApiHdr.load order (stream.take sizeofApihdr)).argLen.toNat :=
    UInt32.le_iff_toNat_le.mp (UInt32.not_lt.mp large)
  unfold readreply
  dsimp only
  rw [if_neg large]
  split_ifs with cut unallocated bogus beyond short
  · exact fun returned => nomatch returned
  · exact fun returned => nomatch returned
  · exact fun returned => nomatch returned
  · exact fun returned => nomatch returned
  · exact fun returned => nomatch returned
  · rw [List.length_take] at beyond short
    unfold sizeofApihdr at beyond short bound
    omega

/-- The client reads what a reader of frames reads, if there is room for it. -/
theorem readreply_eq_ok_iff : readreply order malloc stream = .ok result ↔ malloc = true ∧
    (apihdr order).read stream = some result ∧ result.1.header.argLen < 2048 := by
  by_cases whole : sizeofApihdr ≤ stream.length
  · cases malloc with
    | false =>
        rw [readreply_unallocated]
        exact iff_of_false (fun returned => nomatch returned) fun both => nomatch both.1
    | true =>
        by_cases small : (ApiHdr.load order (stream.take sizeofApihdr)).argLen < 2048
        · rw [readreply_small whole small]
          constructor
          · intro read
            refine ⟨rfl, read, ?_⟩
            rw [(apihdr_read_iff.mp read).2.2]
            exact small
          · exact fun both => both.2.1
        · refine iff_of_false (readreply_large small) ?_
          rintro ⟨_, read, bound⟩
          rw [(apihdr_read_iff.mp read).2.2] at bound
          exact small bound
  · rw [readreply_cut (Nat.lt_of_not_le whole)]
    refine iff_of_false (fun returned => nomatch returned) ?_
    rintro ⟨_, read, _⟩
    exact whole (apihdr_read_iff.mp read).1

end Reading

/-- A reply that has been read is taken for a list of its kind. -/
theorem recvshowreply_of_read {malloc : Bool} {stream rest : List UInt8}
    {frame : Frame ApiHdr UInt8} {size sent : Nat} {arg : Argument} {pad : UInt8}
    (header : frame.header = Reply.hdr listing.request.cmd pad ⟨.allok, size, sent, arg⟩)
    (reads : readreply order malloc stream = .ok (frame, rest)) :
    recvshowreply order malloc stream = .ok (listing.loaded order frame) := by
  have error : frame.header.error = ApiError.code .allok := by rw [header]; rfl
  have cmd : frame.header.cmd = listing.request.cmd := by rw [header]; rfl
  unfold recvshowreply
  rw [reads]
  dsimp only [bind, Except.bind]
  rw [if_neg (not_not.mpr error), cmd]
  cases listing with
  | interfaces _ => rfl
  | targets _ => rfl
  | acls _ => rfl

theorem recvshowreply_iff {env : ApiEnv} {conf : Conf} {request : Request} {reply : Reply}
    (pad : UInt8) (malloc : Bool) (list : IsList request)
    (sent : reply ∈ (processAPIrequest env conf request).sent)
    (arg : reply.arg = listing.arg) (fits : listing.Fits) (room : memory.length = reply.argLen) :
    recvshowreply order malloc
        ((reply.hdr request.cmd pad).store order ++ listing.store order memory) = .ok listing ↔
      malloc = true ∧ reportSize conf request < 2048 := by
  obtain ⟨kind, size⟩ := listing_size list sent arg
  obtain none | ⟨_, _, one⟩ : (processAPIrequest env conf request).sent = [] ∨ _ := list_sent list
  · rw [none] at sent
    cases sent
  rw [one] at sent
  rw [List.mem_singleton.mp sent, ← size] at room ⊢
  rw [← kind]
  have announced : (UInt32.ofNat (listing.length * listing.entrySize)).toNat =
      listing.length * listing.entrySize % 2 ^ 32 := UInt32.toNat_ofNat'
  generalize headed : Reply.hdr listing.request.cmd pad
    ⟨.allok, listing.length * listing.entrySize, listing.length * listing.entrySize, _⟩ = apiHdr
  have argLen : apiHdr.argLen = UInt32.ofNat (listing.length * listing.entrySize) := by
    rw [← headed]
    rfl
  constructor
  · intro shows
    obtain ⟨⟨frame, rest⟩, reads, _⟩ := bind_eq_ok.mp shows
    obtain ⟨malloc, read, small⟩ := readreply_eq_ok_iff.mp reads
    have header := Framing.header_of_read read
    have loaded := recvshowreply_of_read (header.trans headed.symm) reads
    have same := congrArg Listing.length (Except.ok.inj (loaded.symm.trans shows))
    rw [Listing.loaded_length, header, argLen] at same
    have bound : frame.header.argLen.toNat < 2048 := small
    rw [header, argLen] at bound
    refine ⟨malloc, ?_⟩
    rw [← same]
    exact Nat.lt_of_le_of_lt (Nat.div_mul_le_self _ _) bound
  · rintro ⟨rfl, small⟩
    have whole : apiHdr.argLen.toNat = listing.length * listing.entrySize := by
      rw [argLen, announced]
      exact Nat.mod_eq_of_lt (by omega)
    have sound : (apihdr order).Sound ⟨apiHdr, listing.store order memory⟩ :=
      (Listing.store_length fits room).trans whole.symm
    have read := Framing.read_append sound []
    rw [List.append_nil] at read
    have bound : apiHdr.argLen < 2048 := by
      rw [UInt32.lt_iff_toNat_lt, whole]
      exact small
    have reads := readreply_eq_ok_iff.mpr ⟨rfl, read, bound⟩
    have loaded : listing.loaded order ⟨apiHdr, listing.store order memory⟩ = listing :=
      Listing.loaded_store fits room whole
    have shows := recvshowreply_of_read headed.symm reads
    rw [loaded] at shows
    exact shows

end Listings

/-- A list that is reported arrives entry for entry exactly if it is smaller than 2048 bytes,
and the client has memory for it. -/
theorem lists_arrive_iff (order : ByteOrder) (env : ApiEnv) (conf : Conf) (request : Request)
    (reply : Reply) (listing : Listing) (pad : UInt8) (memory : List UInt8) (malloc : Bool)
    (list : IsList request) (sent : reply ∈ (processAPIrequest env conf request).sent)
    (arg : reply.arg = listing.arg) (fits : listing.Fits) (room : memory.length = reply.argLen) :
    recvshowreply order malloc
        ((reply.hdr request.cmd pad).store order ++ listing.store order memory) = .ok listing ↔
      malloc = true ∧ reportSize conf request < 2048 :=
  recvshowreply_iff pad malloc list sent arg fits room

/-- Three interfaces, of which one has a name as long as the client allows. -/
def threeInterfaces : Conf :=
  { oneTarget with
    intlist :=
      [⟨⟨text "eth0", none, 1500, 1518, none⟩, 0⟩,
        ⟨⟨text "storage-interface-1", some ⟨2, 0, 0, 0, 0, 1⟩, 9000, 9018, none⟩, 1⟩,
        ⟨⟨text "lo", some .zero, 65536, 65554, none⟩, 2⟩] }

def threeInfos : List IfInfo :=
  [⟨text "eth0", .zero, 1500⟩, ⟨text "storage-interface-1", ⟨2, 0, 0, 0, 0, 1⟩, 9000⟩,
    ⟨text "lo", .zero, 65536⟩]

theorem lists_arrive_iff_threeInterfaces :
    recvshowreply .little true
      ((Reply.hdr 1 0 ⟨.allok, 96, 96, .interfaces threeInfos⟩).store .little ++
        (Listing.interfaces threeInfos).store .little (List.replicate 96 0xff)) =
      .ok (.interfaces threeInfos) := by
  refine (lists_arrive_iff .little grantingEnv threeInterfaces .interfacesList
    ⟨.allok, 96, 96, .interfaces threeInfos⟩ (.interfaces threeInfos) 0
    (List.replicate 96 0xff) true .interfaces (List.mem_singleton.mpr rfl) rfl ?_ rfl).mpr
    ⟨rfl, by decide⟩
  have fits : ∀ info ∈ threeInfos,
      (info.name.length < 20 ∧ 0 ∉ info.name) ∧ -2 ^ 31 ≤ info.mtu ∧ info.mtu < 2 ^ 31 := by decide
  intro info member
  obtain ⟨⟨short, plain⟩, low, high⟩ := fits info member
  exact ⟨⟨short, plain⟩, low, high⟩

/-- Fourteen targets of one shelf. -/
def fourteenTargets : Conf :=
  { oneTarget with
    devices := (List.range 14).map fun slot => { onlyDevice with slot := UInt8.ofNat slot } }

def fourteenInfos : List TargetInfo :=
  (List.range 14).map fun slot => ⟨text "/dev/sda", 1, UInt8.ofNat slot, text "eth0", -1, -1⟩

theorem fourteenInfos_fit : (Listing.targets fourteenInfos).Fits := by
  intro info member
  obtain ⟨slot, _, rfl⟩ := List.mem_map.mp member
  have devicename : NameFits (text "/dev/sda") 120 := ⟨by decide, by decide⟩
  have ifname : NameFits (text "eth0") 20 := ⟨by decide, by decide⟩
  have unset : IntFits (-1) := ⟨by decide, by decide⟩
  exact ⟨devicename, ifname, unset, unset⟩

/-- The list of fourteen targets has 2128 bytes, and the client does not read it. -/
theorem longList_refused :
    (processAPIrequest grantingEnv fourteenTargets .targetList).sent =
      [⟨.allok, 2128, 2128, .targets fourteenInfos⟩] ∧
    (Listing.targets fourteenInfos).Fits ∧
    recvshowreply .little true
      ((Reply.hdr 6 0 ⟨.allok, 2128, 2128, .targets fourteenInfos⟩).store .little ++
        (Listing.targets fourteenInfos).store .little (List.replicate 2128 0)) ≠
      .ok (.targets fourteenInfos) := by
  have sent : (processAPIrequest grantingEnv fourteenTargets .targetList).sent =
      [⟨.allok, 2128, 2128, .targets fourteenInfos⟩] := rfl
  refine ⟨sent, fourteenInfos_fit, ?_⟩
  intro shows
  have member : ⟨.allok, 2128, 2128, .targets fourteenInfos⟩ ∈
      (processAPIrequest grantingEnv fourteenTargets .targetList).sent := by
    rw [sent]
    exact List.mem_cons_self
  have arrives := (recvshowreply_iff 0 true .targets member rfl fourteenInfos_fit
    List.length_replicate).mp shows
  exact absurd arrives.2 (by decide)

end Qaoed.Api
