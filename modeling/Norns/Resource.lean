import Norns.Types
import Norns.Lib.Table
import Norns.Lib.BoostPath

/-! # Resources, backends and transferors

The descriptions of inputs and outputs that travel through the daemon (`data::resource_info`),
the storage backends that a namespace id is bound to, the registry of transfer plugins and the
table of namespaces.

A pointer that may be null is an `Option`; a vector of pointers that are known to be non-null is
a list of the objects. -/

namespace Norns

open Lib

/-- `hermes::exposed_memory`: the sizes of the exposed segments. -/
abbrev ExposedMemory := List ℕ

/-- The subclasses of `data::resource_info`. -/
inductive ResourceInfo where
  | memoryRegion (address size : UInt64)
  | localPath (nsid datapath : String)
  | sharedPath (nsid datapath : String)
  | remotePath (nsid hostname datapath : String)
  | remoteResource (address nsid : String) (isCollection : Bool) (name : String)
      (buffers : ExposedMemory)
deriving DecidableEq, Repr

namespace ResourceInfo

/-- `resource_info::type()`. -/
def type : ResourceInfo → ResourceType
  | memoryRegion _ _ => .memoryRegion
  | localPath _ _ => .localPosixPath
  | sharedPath _ _ => .sharedPosixPath
  | remotePath _ _ _ => .remotePosixPath
  | remoteResource _ _ _ _ _ => .remoteResource

/-- `resource_info::nsid()`. -/
def nsid : ResourceInfo → String
  | memoryRegion _ _ => "[[internal::memory]]"
  | localPath nsid _ => nsid
  | sharedPath nsid _ => nsid
  | remotePath nsid _ _ => nsid
  | remoteResource _ nsid _ _ _ => nsid

/-- `resource_info::is_remote()`. -/
def isRemote : ResourceInfo → Bool
  | memoryRegion _ _ => false
  | localPath _ _ => false
  | sharedPath _ _ => false
  | remotePath _ _ _ => true
  | remoteResource _ _ _ _ _ => true

end ResourceInfo

/-- The classes derived from `storage::backend`. -/
inductive BackendKind where
  | posixFilesystem
  | nvmlDax
  | lustre
  | processMemory
  | remoteBackend
deriving DecidableEq, Repr

/-- `storage::backend`, with the members its subclasses share. -/
structure Backend where
  kind : BackendKind
  nsid : String
  track : Bool
  mount : PathStr
  quota : UInt32
deriving DecidableEq, Repr

namespace Backend

/-- `storage::detail::remote_backend(nsid)`. -/
def remote (nsid : String) : Backend := ⟨.remoteBackend, nsid, false, [], 0⟩

/-- `storage::process_memory_backend`. -/
def processMemory : Backend := ⟨.processMemory, "[[internal::memory]]", false, [], 0⟩

/-- `backend::is_tracked()`. -/
def isTracked (b : Backend) : Bool :=
  match b.kind with
  | .processMemory => false
  | .remoteBackend => false
  | _ => b.track

end Backend

/-! ### Transferors -/

/-- The transfer plugins that the daemon loads. -/
inductive TransferorKind where
  | memoryRegionToLocalPath
  | memoryRegionToSharedPath
  | memoryRegionToRemoteResource
  | localPathToLocalPath
  | localPathToSharedPath
  | localPathToRemoteResource
  | remoteResourceToLocalPath
deriving DecidableEq, Repr

/-- `io::transferor`, as far as the task manager uses it. -/
structure Transferor where
  kind : TransferorKind
  validate : ResourceInfo → ResourceInfo → Bool

/-- A destination path that looks like a directory. -/
def looksLikeDirectory (s : String) : Bool := s.toList.getLast? == some '/'

/-- `transferor::validate`.  The plugins that copy out of a process reject an empty region and a
destination that looks like a directory; the others accept everything. -/
def TransferorKind.validate : TransferorKind → ResourceInfo → ResourceInfo → Bool
  | memoryRegionToLocalPath, .memoryRegion _ size, .localPath _ datapath =>
      size ≠ 0 && !looksLikeDirectory datapath
  | memoryRegionToRemoteResource, .memoryRegion _ size, .remoteResource _ _ _ name _ =>
      size ≠ 0 && !looksLikeDirectory name
  | _, _, _ => true

def TransferorKind.plugin (k : TransferorKind) : Transferor := ⟨k, k.validate⟩

/-- `transferor_registry`. -/
abbrev TransferorRegistry := Table (ResourceType × ResourceType) Transferor

namespace TransferorRegistry

/-- `transferor_registry::add`; the flag is the returned `bool`. -/
def add (t1 t2 : ResourceType) (trp : Transferor) (r : TransferorRegistry) :
    TransferorRegistry × Bool :=
  if (t1, t2) ∈ r then (r, false) else (Table.emplace (t1, t2) trp r, true)

/-- `transferor_registry::get`. -/
def get (t1 t2 : ResourceType) (r : TransferorRegistry) : Option Transferor := r.lookup (t1, t2)

end TransferorRegistry

/-- The plugins of `urd::load_transfer_plugins`, in the order in which they are loaded. -/
def transferPlugins : List (ResourceType × ResourceType × TransferorKind) :=
  [(.memoryRegion, .localPosixPath, .memoryRegionToLocalPath),
   (.memoryRegion, .sharedPosixPath, .memoryRegionToSharedPath),
   (.memoryRegion, .remoteResource, .memoryRegionToRemoteResource),
   (.localPosixPath, .localPosixPath, .localPathToLocalPath),
   (.localPosixPath, .sharedPosixPath, .localPathToSharedPath),
   (.localPosixPath, .remoteResource, .localPathToRemoteResource),
   (.remoteResource, .localPosixPath, .remoteResourceToLocalPath)]

/-- `urd::load_transfer_plugins`. -/
def loadTransferPlugins : TransferorRegistry :=
  transferPlugins.foldl (fun r p => (r.add p.1 p.2.1 p.2.2.plugin).1) (∅ : TransferorRegistry)

/-! ### Namespaces -/

/-- `ns::namespace_manager`. -/
abbrev NamespaceManager := Table String Backend

namespace NamespaceManager

/-- `namespace_manager::find(nsid, is_remote)`. -/
def find (m : NamespaceManager) (nsid : String) (isRemote : Bool) : Option Backend :=
  if isRemote then some (.remote nsid) else m.lookup nsid

/-- `namespace_manager::find(nsids, remotes)`: the backends, if all were found.  The two lists
are the columns of one. -/
def findAll (m : NamespaceManager) : List (String × Bool) → Option (List Backend)
  | [] => some []
  | (nsid, isRemote) :: rest =>
      match find m nsid isRemote, findAll m rest with
      | some b, some bs => some (b :: bs)
      | _, _ => none

theorem length_findAll {m : NamespaceManager} {ids : List (String × Bool)} {bs : List Backend}
    (h : findAll m ids = some bs) : bs.length = ids.length := by
  induction ids generalizing bs with
  | nil =>
      obtain rfl := Option.some.inj h
      rfl
  | cons id ids ih =>
      obtain ⟨nsid, isRemote⟩ := id
      unfold findAll at h
      split at h
      · next b bs' _ hrest =>
          obtain rfl := Option.some.inj h
          simp [ih hrest]
      · cases h

end NamespaceManager

end Norns
