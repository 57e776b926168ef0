import Norns.Request

/-! # Submission of a task

The way of a task descriptor from the client library to the daemon: `norns_iotask_init` fills it
in from resources that the constructors of `resources.c` have made, `pack_to_buffer` translates
it into a protobuf message, and `request::create_from_buffer` of the daemon reads it back.

Strings are duplicated by `xstrdup`, which keeps `XMAX_STRING_LENGTH` bytes with the terminating
zero; `submission_roundtrip` says that this is the only change to strings, and that a buffer
arrives with its address, and with its size where the 32-bit field of the message can hold it.

A `String` stands for the bytes of a C string, one character a byte, and a pointer that may be
null is an `Option`.  Whether an allocation succeeds is asked of a parameter, one answer for each
place in the source that allocates. -/

namespace Norns

open Lib

/-! ### Descriptors of the client library -/

/-- `norns_memory_region_t`. -/
structure NornsMemoryRegion where
  bAddr : UInt64
  bSize : UInt64
deriving DecidableEq, Repr

/-- `norns_posix_path_t`. -/
structure NornsPosixPath where
  pNsid : Option String
  pHost : Option String
  pPath : Option String
deriving DecidableEq, Repr

/-- `norns_resource_t`.  The two members of its union are separate fields: only the one that the
flags name is ever read. -/
structure NornsResource where
  rFlags : UInt32
  rBuffer : NornsMemoryRegion
  rPosixPath : NornsPosixPath
deriving DecidableEq, Repr

/-- All bytes zero. -/
def NornsResource.zero : NornsResource := ⟨0, ⟨0, 0⟩, ⟨none, none, none⟩⟩

def NORNS_MEMORY_REGION (addr size : UInt64) : NornsResource :=
  { NornsResource.zero with rFlags := NORNS_PROCESS_MEMORY, rBuffer := ⟨addr, size⟩ }

def NORNS_LOCAL_PATH (nsid path : Option String) : NornsResource :=
  { NornsResource.zero with
    rFlags := NORNS_POSIX_PATH ||| R_LOCAL, rPosixPath := ⟨nsid, none, path⟩ }

def NORNS_REMOTE_PATH (nsid host path : Option String) : NornsResource :=
  { NornsResource.zero with
    rFlags := NORNS_POSIX_PATH ||| R_REMOTE, rPosixPath := ⟨nsid, host, path⟩ }

def NORNS_SHARED_PATH (nsid path : Option String) : NornsResource :=
  { NornsResource.zero with
    rFlags := NORNS_POSIX_PATH ||| R_SHARED, rPosixPath := ⟨nsid, none, path⟩ }

/-- `norns_iotask_t`. -/
structure NornsIotask where
  tId : UInt32
  tOp : UInt32
  tSrc : NornsResource
  tDst : NornsResource
deriving DecidableEq, Repr

/-- `norns_iotask_init`. -/
def nornsIotaskInit (optype : UInt32) (src dst : Option NornsResource) : NornsIotask :=
  match src, dst with
  | none, _ => ⟨0, 0, .zero, .zero⟩
  | some src, some dst => ⟨0, optype, src, dst⟩
  | some src, none => ⟨0, optype, src, { NornsResource.zero with rFlags := NORNS_NULL_RESOURCE }⟩

/-! ### Packing -/

/-- Which of the two resources of a task is being packed. -/
inductive Side where
  | source
  | destination
deriving DecidableEq, Repr

/-- The allocations made while a task is packed. -/
inductive AllocSite where
  | request
  | task
  | resource (side : Side)
  | membuf (side : Side)
  | path (side : Side)
  | nsid (side : Side)
  | hostname (side : Side)
  | datapath (side : Side)
  | packed
deriving DecidableEq, Repr

/-- How packing ends without a buffer: `NORNS_ENOMEM` is returned, or the process stops. -/
inductive PackError where
  | enomem
  | fault (f : Fault)
deriving DecidableEq, Repr

/-- `XMAX_STRING_LENGTH`, the terminating zero included. -/
def XMAX_STRING_LENGTH : ℕ := 4096

/-- The bytes of a string that `xstrdup` keeps. -/
def xstrcut (str : String) : String :=
  String.ofList (str.toList.take (min (str.length + 1) XMAX_STRING_LENGTH - 1))

section packing

variable (mem : AllocSite → Bool)

/-- `xstrdup`.  The result of the allocation is handed to `strncpy` without a test. -/
def xstrdup (site : AllocSite) (str : Option String) : Except PackError (Option String) :=
  match str with
  | none => .ok none
  | some str => if mem site then .ok (some (xstrcut str)) else .error (.fault .nullDeref)

/-- `build_membuf_msg`.  The size goes from `size_t` to a `uint32` field. -/
def buildMembufMsg (side : Side) (buf : NornsMemoryRegion) : Except PackError MemoryRegionMsg :=
  if mem (.membuf side) then .ok ⟨buf.bAddr, buf.bSize.toUInt32⟩ else .error .enomem

/-- `build_path_msg`.  A required string that is never set is packed as the empty one, and
`is_directory` keeps the `false` of the initialiser. -/
def buildPathMsg (side : Side) (path : NornsPosixPath) : Except PackError PosixPathMsg :=
  if mem (.path side) then do
    match ← xstrdup mem (.nsid side) path.pNsid with
    | none => .error .enomem
    | some nsid =>
        let hostname ← xstrdup mem (.hostname side) path.pHost
        let datapath ← xstrdup mem (.datapath side) path.pPath
        return ⟨nsid, hostname, datapath.getD "", false⟩
  else .error .enomem

/-- `build_resource_msg`. -/
def buildResourceMsg (side : Side) (res : NornsResource) : Except PackError ResourceMsg :=
  if !mem (.resource side) then .error .enomem
  else if res.rFlags &&& NORNS_PROCESS_MEMORY ≠ 0 then do
    let buffer ← buildMembufMsg mem side res.rBuffer
    return ⟨res.rFlags, some buffer, none⟩
  else if res.rFlags &&& NORNS_POSIX_PATH ≠ 0 then do
    let path ← buildPathMsg mem side res.rPosixPath
    return ⟨res.rFlags, none, some path⟩
  else if res.rFlags &&& NORNS_NULL_RESOURCE ≠ 0 then .ok ⟨res.rFlags, none, none⟩
  else .error (.fault .assertion)

/-- `build_task_msg`. -/
def buildTaskMsg (task : NornsIotask) : Except PackError TaskMsg :=
  if mem .task then do
    let source ← buildResourceMsg mem .source task.tSrc
    let destination ← buildResourceMsg mem .destination task.tDst
    return ⟨task.tId, task.tOp, source, destination⟩
  else .error .enomem

/-- The arm of `build_request_msg` for `NORNS_IOTASK_SUBMIT`. -/
def buildRequestMsg (task : NornsIotask) : Except PackError RequestMsg :=
  if mem .request then do
    let task ← buildTaskMsg mem task
    return ⟨.iotaskSubmit, some task, none, none, none, none, none⟩
  else .error .enomem

/-- `pack_to_buffer(NORNS_IOTASK_SUBMIT, buf, task)`; `pack` is `norns__rpc__request__pack`.  An
allocation of no bytes gives a null pointer. -/
def packToBuffer (pack : RequestMsg → List UInt8) (task : NornsIotask) :
    Except PackError (List UInt8) := do
  let req ← buildRequestMsg mem task
  if pack req ≠ [] ∧ mem .packed then return pack req else .error .enomem

end packing

/-! ### The round trip -/

/-- The resources that a client can make with the constructors of the library from strings. -/
inductive ClientResource where
  | memoryRegion (addr size : UInt64)
  | localPath (nsid path : String)
  | remotePath (nsid host path : String)
  | sharedPath (nsid path : String)
deriving DecidableEq, Repr

namespace ClientResource

/-- The call that makes the resource. -/
def create : ClientResource → NornsResource
  | memoryRegion addr size => NORNS_MEMORY_REGION addr size
  | localPath nsid path => NORNS_LOCAL_PATH (some nsid) (some path)
  | remotePath nsid host path => NORNS_REMOTE_PATH (some nsid) (some host) (some path)
  | sharedPath nsid path => NORNS_SHARED_PATH (some nsid) (some path)

/-- The resource as the daemon describes it. -/
def info : ClientResource → ResourceInfo
  | memoryRegion addr size => .memoryRegion addr size
  | localPath nsid path => .localPath nsid path
  | remotePath nsid host path => .remoteResource host nsid false path []
  | sharedPath nsid path => .sharedPath nsid path

/-- The first bytes of a string, as many as a buffer of `XMAX_STRING_LENGTH` has room for. -/
def clip (str : String) : String := String.ofList (str.toList.take (XMAX_STRING_LENGTH - 1))

/-- The resource with all its strings clipped. -/
def clipped : ClientResource → ClientResource
  | memoryRegion addr size => memoryRegion addr size
  | localPath nsid path => localPath (clip nsid) (clip path)
  | remotePath nsid host path => remotePath (clip nsid) (clip host) (clip path)
  | sharedPath nsid path => sharedPath (clip nsid) (clip path)

/-- The size of a memory region is below `2 ^ 32`. -/
def SizeFits : ClientResource → Prop
  | memoryRegion _ size => size.toNat < 2 ^ 32
  | _ => True

/-- The daemon's description has the kind of the resource, its strings up to their clipping, the
address of a memory region, and its size if that fits. -/
def Delivered (res : ClientResource) (info : ResourceInfo) : Prop :=
  (res.SizeFits → info = res.clipped.info) ∧
    ∀ addr size, res = memoryRegion addr size → ∃ size', info = .memoryRegion addr size'

/-- The message built for the resource when no allocation fails. -/
def msg (res : ClientResource) : ResourceMsg :=
  match res with
  | memoryRegion addr size => ⟨res.create.rFlags, some ⟨addr, size.toUInt32⟩, none⟩
  | localPath nsid path => ⟨res.create.rFlags, none, some ⟨clip nsid, none, clip path, false⟩⟩
  | remotePath nsid host path =>
      ⟨res.create.rFlags, none, some ⟨clip nsid, some (clip host), clip path, false⟩⟩
  | sharedPath nsid path => ⟨res.create.rFlags, none, some ⟨clip nsid, none, clip path, false⟩⟩

/-- What the daemon reads in that message. -/
def received : ClientResource → ResourceInfo
  | memoryRegion addr size => .memoryRegion addr size.toUInt32.toUInt64
  | res => res.clipped.info

theorem clip_of_length_lt {str : String} (h : str.length < XMAX_STRING_LENGTH) :
    clip str = str := by
  have hlen : str.toList.length ≤ XMAX_STRING_LENGTH - 1 := by
    rw [String.length_toList]
    omega
  rw [clip, List.take_of_length_le hlen, String.ofList_toList]

theorem clip_ne_of_le {str : String} (h : XMAX_STRING_LENGTH ≤ str.length) : clip str ≠ str := by
  intro heq
  have hlen := congrArg String.length heq
  have hpos : 0 < XMAX_STRING_LENGTH := by decide
  rw [clip, String.length_ofList, List.length_take, String.length_toList] at hlen
  omega

theorem xstrcut_eq_clip (str : String) : xstrcut str = clip str := by
  have hpos : 0 < XMAX_STRING_LENGTH := by decide
  rw [xstrcut]
  by_cases h : str.length < XMAX_STRING_LENGTH
  · have hmin : min (str.length + 1) XMAX_STRING_LENGTH - 1 = str.toList.length := by
      rw [String.length_toList]
      omega
    rw [hmin, List.take_length, String.ofList_toList, clip_of_length_lt h]
  · have hmin : min (str.length + 1) XMAX_STRING_LENGTH = XMAX_STRING_LENGTH := by omega
    rw [hmin, clip]

theorem delivered_received (res : ClientResource) : res.Delivered res.received := by
  cases res with
  | memoryRegion addr size =>
    refine ⟨fun hfits => ?_, fun addr' size' heq => ?_⟩
    · have hsize : size.toUInt32.toUInt64 = size := by
        apply UInt64.toNat_inj.mp
        simpa using Nat.mod_eq_of_lt hfits
      simp only [received, clipped, info, hsize]
    · cases heq
      exact ⟨size.toUInt32.toUInt64, rfl⟩
  | localPath nsid path => exact ⟨fun _ => rfl, fun _ _ heq => by cases heq⟩
  | remotePath nsid host path => exact ⟨fun _ => rfl, fun _ _ heq => by cases heq⟩
  | sharedPath nsid path => exact ⟨fun _ => rfl, fun _ _ heq => by cases heq⟩

/-- Which flags are set in the message; those that the decoder tests follow by evaluation. -/
theorem has_msg (res : ClientResource) (flag : UInt32) :
    res.msg.has flag = decide (res.create.rFlags &&& flag ≠ 0) := by
  cases res <;> rfl

/-- The decoder accepts the message. -/
theorem isValid_msg (res : ClientResource) : res.msg.isValid = true := by
  simp only [ResourceMsg.isValid, has_msg]
  cases res <;> simp +decide [create, msg, NORNS_MEMORY_REGION, NORNS_LOCAL_PATH,
    NORNS_REMOTE_PATH, NORNS_SHARED_PATH]

theorem createFrom_msg (res : ClientResource) :
    res.msg.createFrom = .ok ⟨some res.received, false⟩ := by
  simp only [ResourceMsg.createFrom, isValid_msg, has_msg]
  cases res <;> simp +decide [create, msg, received, clipped, info, NORNS_MEMORY_REGION,
    NORNS_LOCAL_PATH, NORNS_REMOTE_PATH, NORNS_SHARED_PATH]

end ClientResource

open ClientResource

/-- The message that `norns_iotask_init` writes for a destination that is not given. -/
def absentMsg : ResourceMsg := ⟨NORNS_NULL_RESOURCE, none, none⟩

/-- The message built for a task when no allocation fails. -/
def submitMsg (op : UInt32) (src : ClientResource) (dst : Option ClientResource) : RequestMsg :=
  ⟨.iotaskSubmit, some ⟨0, op, src.msg, (dst.map msg).getD absentMsg⟩, none, none, none, none, none⟩

section yields

variable {mem : AllocSite → Bool} {α β : Type}

/-- The computation returns `v` unless an allocation fails. -/
def Yields (mem : AllocSite → Bool) (x : Except PackError α) (v : α) : Prop :=
  x = .ok v ∨ (∃ e, x = .error e) ∧ ∃ site, mem site = false

theorem Yields.bind {x : Except PackError α} {f : α → Except PackError β} {v : α} {w : β}
    (hx : Yields mem x v) (hf : Yields mem (f v) w) : Yields mem (x >>= f) w := by
  obtain rfl | ⟨⟨e, rfl⟩, hsite⟩ := hx
  · exact hf
  · exact .inr ⟨⟨e, rfl⟩, hsite⟩

theorem Yields.alloc {x : Except PackError α} {v : α} (site : AllocSite) (e : PackError)
    (hx : Yields mem x v) : Yields mem (if mem site then x else .error e) v := by
  cases hsite : mem site with
  | true => simpa using hx
  | false => exact .inr ⟨⟨e, by simp⟩, site, hsite⟩

theorem Yields.eq_ok {x : Except PackError α} {v : α} (hx : Yields mem x v)
    (hmem : ∀ site, mem site = true) : x = .ok v := by
  obtain hok | ⟨-, site, hsite⟩ := hx
  · exact hok
  · rw [hmem site] at hsite
    cases hsite

theorem Yields.eq_of_ok {x : Except PackError α} {v w : α} (hx : Yields mem x v)
    (hw : x = .ok w) : w = v := by
  obtain hok | ⟨⟨e, herr⟩, -⟩ := hx
  · rw [hok] at hw
    exact (Except.ok.inj hw).symm
  · rw [herr] at hw
    cases hw

theorem yields_ok (v : α) : Yields mem (.ok v) v := .inl rfl

theorem yields_xstrdup (site : AllocSite) (str : Option String) :
    Yields mem (xstrdup mem site str) (str.map clip) := by
  cases str with
  | none => exact yields_ok none
  | some str =>
    simp only [xstrdup, xstrcut_eq_clip]
    exact (yields_ok _).alloc site _

theorem yields_buildPathMsg (side : Side) (nsid path : String) (host : Option String) :
    Yields mem (buildPathMsg mem side ⟨some nsid, host, some path⟩)
      ⟨clip nsid, host.map clip, clip path, false⟩ := by
  unfold buildPathMsg
  apply Yields.alloc (.path side) .enomem
  refine (yields_xstrdup (.nsid side) (some nsid)).bind ?_
  refine (yields_xstrdup (.hostname side) host).bind ?_
  refine (yields_xstrdup (.datapath side) (some path)).bind ?_
  exact yields_ok _

theorem yields_buildMembufMsg (side : Side) (buf : NornsMemoryRegion) :
    Yields mem (buildMembufMsg mem side buf) ⟨buf.bAddr, buf.bSize.toUInt32⟩ :=
  (yields_ok _).alloc (.membuf side) .enomem

/-- A resource with a path, whatever its locality. -/
theorem yields_buildResourceMsg_path (side : Side) (flags : UInt32) (buf : NornsMemoryRegion)
    (nsid path : String) (host : Option String) (hbuf : flags &&& NORNS_PROCESS_MEMORY = 0)
    (hpath : flags &&& NORNS_POSIX_PATH ≠ 0) :
    Yields mem (buildResourceMsg mem side ⟨flags, buf, ⟨some nsid, host, some path⟩⟩)
      ⟨flags, none, some ⟨clip nsid, host.map clip, clip path, false⟩⟩ := by
  unfold buildResourceMsg
  cases hmem : mem (.resource side) with
  | false => exact .inr ⟨⟨.enomem, by simp⟩, _, hmem⟩
  | true =>
    rw [if_neg (by simp), if_neg (by simp [hbuf]), if_pos hpath]
    exact (yields_buildPathMsg side nsid path host).bind (yields_ok _)

theorem yields_buildResourceMsg (side : Side) (res : ClientResource) :
    Yields mem (buildResourceMsg mem side res.create) res.msg := by
  cases res with
  | memoryRegion addr size =>
    unfold buildResourceMsg
    cases hmem : mem (.resource side) with
    | false => exact .inr ⟨⟨.enomem, by simp⟩, _, hmem⟩
    | true =>
      have hflag : NORNS_PROCESS_MEMORY &&& NORNS_PROCESS_MEMORY ≠ 0 := by decide
      rw [if_neg (by simp), create, NORNS_MEMORY_REGION, if_pos hflag]
      exact (yields_buildMembufMsg side ⟨addr, size⟩).bind (yields_ok _)
  | localPath nsid path =>
    exact yields_buildResourceMsg_path side (NORNS_POSIX_PATH ||| R_LOCAL) _ nsid path none
      (by decide) (by decide)
  | remotePath nsid host path =>
    exact yields_buildResourceMsg_path side (NORNS_POSIX_PATH ||| R_REMOTE) _ nsid path (some host)
      (by decide) (by decide)
  | sharedPath nsid path =>
    exact yields_buildResourceMsg_path side (NORNS_POSIX_PATH ||| R_SHARED) _ nsid path none
      (by decide) (by decide)

/-- The destination that is left out. -/
theorem yields_buildResourceMsg_null (side : Side) :
    Yields mem
      (buildResourceMsg mem side { NornsResource.zero with rFlags := NORNS_NULL_RESOURCE })
      absentMsg := by
  unfold buildResourceMsg
  cases hmem : mem (.resource side) with
  | false => exact .inr ⟨⟨.enomem, by simp⟩, _, hmem⟩
  | true =>
    rw [if_neg (by simp), if_neg (by decide), if_neg (by decide), if_pos (by decide)]
    exact yields_ok _

theorem yields_buildRequestMsg (op : UInt32) (src : ClientResource)
    (dst : Option ClientResource) :
    Yields mem (buildRequestMsg mem (nornsIotaskInit op (some src.create) (dst.map create)))
      (submitMsg op src dst) := by
  have hdst : Yields mem (buildResourceMsg mem .destination
      (nornsIotaskInit op (some src.create) (dst.map create)).tDst)
      ((dst.map msg).getD absentMsg) := by
    cases dst with
    | none => exact yields_buildResourceMsg_null .destination
    | some dst => exact yields_buildResourceMsg .destination dst
  have hinit : (nornsIotaskInit op (some src.create) (dst.map create)).tSrc = src.create ∧
      (nornsIotaskInit op (some src.create) (dst.map create)).tOp = op ∧
      (nornsIotaskInit op (some src.create) (dst.map create)).tId = 0 := by
    cases dst <;> exact ⟨rfl, rfl, rfl⟩
  unfold buildRequestMsg buildTaskMsg
  rw [hinit.1, hinit.2.1, hinit.2.2]
  refine Yields.alloc .request .enomem (Yields.bind (v := ⟨0, op, src.msg, _⟩) ?_ (yields_ok _))
  apply Yields.alloc .task .enomem
  exact (yields_buildResourceMsg .source src).bind (hdst.bind (yields_ok _))

theorem yields_packToBuffer (pack : RequestMsg → List UInt8) (op : UInt32) (src : ClientResource)
    (dst : Option ClientResource) (hne : pack (submitMsg op src dst) ≠ []) :
    Yields mem (packToBuffer mem pack (nornsIotaskInit op (some src.create) (dst.map create)))
      (pack (submitMsg op src dst)) := by
  unfold packToBuffer
  refine (yields_buildRequestMsg op src dst).bind ?_
  simp only [hne, ne_eq, not_false_eq_true, true_and]
  exact (yields_ok _).alloc .packed .enomem

end yields

/-- The daemon's request for the message of a task with a known operation. -/
theorem decodeRequest_submitMsg (op : UInt32) (src : ClientResource) (dst : Option ClientResource)
    (hop : op = NORNS_IOTASK_COPY ∨ op = NORNS_IOTASK_MOVE ∨ op = NORNS_IOTASK_REMOVE) :
    decodeRequest (submitMsg op src dst) =
      .ok (.iotaskCreate (decodeIotaskType op) (some src.received) (dst.map received)) := by
  have hvalid : ((dst.map msg).getD absentMsg).isValid = true := by
    cases dst with
    | none => decide
    | some dst => exact isValid_msg dst
  have hcreate : ((dst.map msg).getD absentMsg).createFrom = .ok ⟨dst.map received, false⟩ := by
    cases dst with
    | none => decide
    | some dst => exact createFrom_msg dst
  have htask : (TaskMsg.mk 0 op src.msg ((dst.map msg).getD absentMsg)).isValid = true := by
    obtain rfl | rfl | rfl := hop <;> simp +decide [TaskMsg.isValid, isValid_msg, hvalid]
  simp only [decodeRequest, submitMsg, decodeSubmit, htask, if_true, createFrom_msg, hcreate]
  rfl

/-- An operation word that names none of the three is refused. -/
theorem decodeRequest_submitMsg_unknown (op : UInt32) (src : ClientResource)
    (dst : Option ClientResource) (hop : ¬ (op = NORNS_IOTASK_COPY ∨ op = NORNS_IOTASK_MOVE ∨
      op = NORNS_IOTASK_REMOVE)) :
    decodeRequest (submitMsg op src dst) = .ok .badRequest := by
  have htype : decodeIotaskType op = .unknown := by
    push Not at hop
    rw [decodeIotaskType, if_neg hop.1, if_neg hop.2.1, if_neg hop.2.2]
  have htask : (TaskMsg.mk 0 op src.msg ((dst.map msg).getD absentMsg)).isValid = false := by
    simp only [TaskMsg.isValid, htype]
  simp only [decodeRequest, submitMsg, decodeSubmit, htask]
  rfl

/-- A message that parses is not empty, since its type is required. -/
theorem pack_ne_nil {pack : RequestMsg → List UInt8} {parse : List UInt8 → Option RequestMsg}
    {req : RequestMsg} (hempty : parse [] = none) (hinv : parse (pack req) = some req) :
    pack req ≠ [] := by
  intro hnil
  rw [hnil, hempty] at hinv
  cases hinv

/-- **Round trip of submissions.**  Packing fails only if an allocation does.  What it packs is
read back by the daemon as a request for the same operation on the same resources, with the
documented clipping of strings of `XMAX_STRING_LENGTH` bytes and more. -/
theorem submission_roundtrip (mem : AllocSite → Bool) (pack : RequestMsg → List UInt8)
    (parse : List UInt8 → Option RequestMsg) (op : UInt32) (src : ClientResource)
    (dst : Option ClientResource) (hempty : parse [] = none)
    (hinv : parse (pack (submitMsg op src dst)) = some (submitMsg op src dst)) :
    let task := nornsIotaskInit op (some src.create) (dst.map create)
    ((∀ site, mem site = true) → ∃ buf, packToBuffer mem pack task = .ok buf) ∧
    ∀ buf, packToBuffer mem pack task = .ok buf →
      if op = NORNS_IOTASK_COPY ∨ op = NORNS_IOTASK_MOVE ∨ op = NORNS_IOTASK_REMOVE then
        ∃ srcInfo dstInfo,
          createFromBuffer parse buf =
            .ok (.iotaskCreate (decodeIotaskType op) (some srcInfo) dstInfo) ∧
          src.Delivered srcInfo ∧ Option.Rel Delivered dst dstInfo
      else createFromBuffer parse buf = .ok .badRequest := by
  intro task
  have hpack : Yields mem (packToBuffer mem pack task) _ :=
    yields_packToBuffer pack op src dst (pack_ne_nil hempty hinv)
  refine ⟨fun hmem => ⟨_, hpack.eq_ok hmem⟩, fun buf hbuf => ?_⟩
  rw [hpack.eq_of_ok hbuf, createFromBuffer, hinv]
  split_ifs with hop
  · refine ⟨src.received, dst.map received, decodeRequest_submitMsg op src dst hop,
      delivered_received src, ?_⟩
    cases dst with
    | none => exact .none
    | some dst => exact .some (delivered_received dst)
  · exact decodeRequest_submitMsg_unknown op src dst hop

/-- The bytes of a request to remove the file `f` of the namespace `t`, as protobuf writes them:
the resource types `0x0200010` and `0x1000000` are varints of four bytes. -/
def removeBytes : List UInt8 :=
  [0x08, 0x01, 0x12, 0x1c, 0x08, 0x00, 0x10, 0x03,
   0x1a, 0x0f, 0x08, 0x90, 0x80, 0x80, 0x01,
   0x22, 0x08, 0x0a, 0x01, 0x74, 0x1a, 0x01, 0x66, 0x20, 0x00,
   0x22, 0x05, 0x08, 0x80, 0x80, 0x80, 0x08]

theorem remove_submission_roundtrip :
    let src : ClientResource := .localPath "t" "f"
    let req := submitMsg NORNS_IOTASK_REMOVE src none
    ∃ srcInfo, createFromBuffer (fun b => if b = removeBytes then some req else none) removeBytes =
        .ok (.iotaskCreate .remove (some srcInfo) none) ∧ src.Delivered srcInfo := by
  intro src req
  obtain ⟨srcInfo, dstInfo, hreq, hsrc, hdst⟩ :=
    (submission_roundtrip (fun _ => true) (fun m => if m = req then removeBytes else [])
      (fun b => if b = removeBytes then some req else none) NORNS_IOTASK_REMOVE src none
      (by decide) (by simp [req])).2 removeBytes (by decide)
  cases hdst
  exact ⟨srcInfo, hreq, hsrc⟩

/-- A namespace id of 4096 bytes is packed without an error and arrives one byte short. -/
theorem long_nsid_is_clipped :
    ∃ src : ClientResource, src = .localPath (String.ofList (List.replicate 4096 'a')) "f" ∧
      ∀ (pack : RequestMsg → List UInt8) (parse : List UInt8 → Option RequestMsg),
        parse [] = none → (∀ req, parse (pack req) = some req) →
        ∃ buf, packToBuffer (fun _ => true) pack
            (nornsIotaskInit NORNS_IOTASK_REMOVE (some src.create) none) = .ok buf ∧
          createFromBuffer parse buf ≠ .ok (.iotaskCreate .remove (some src.info) none) := by
  obtain ⟨nsid, hnsid⟩ : ∃ nsid, nsid = String.ofList (List.replicate 4096 'a') := ⟨_, rfl⟩
  have hlen : XMAX_STRING_LENGTH ≤ nsid.length := by
    rw [hnsid, String.length_ofList, List.length_replicate]
    exact le_refl 4096
  refine ⟨.localPath nsid "f", by rw [hnsid], fun pack parse hempty hinv => ?_⟩
  have hne := pack_ne_nil hempty (hinv (submitMsg NORNS_IOTASK_REMOVE (.localPath nsid "f") none))
  refine ⟨_, (yields_packToBuffer pack NORNS_IOTASK_REMOVE _ none hne).eq_ok fun _ => rfl, ?_⟩
  rw [createFromBuffer, hinv]
  simp only [decodeRequest_submitMsg _ _ _ (.inr (.inr rfl))]
  intro heq
  injection heq with heq
  injection heq with _ heq
  injection heq with heq
  injection heq with heq
  exact clip_ne_of_le hlen heq

end Norns
