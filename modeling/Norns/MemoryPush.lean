import Norns.TempFile

/-! # Memory pushed to a peer

A copy of a memory region to another node goes through a file: the initiator reads the region of the
client into a temporary file of its staging directory, exposes the mapped file and asks the peer to
push it to the destination.  The region has no name, and its `temporary_file` is never released.

* `memoryTransferCalls` is the initiator with every call that can fail, and the request that can get
  lost; `PushPeer.serve` is the daemon at the other end.  What its `async_pull` brings is an input:
  hermes does not report an error of a bulk operation.
* `memory_push_exact`: when the transfer reports success, what both file systems are then, and what
  they are if it does not. -/

namespace Norns

open Lib Lib.PathStr Lib.FileTree

/-! ### The initiator -/

/-- The pattern of the files that memory is copied to. -/
def tempfilePattern : PathStr := "norns-tempfile-%%%%-%%%%-%%%%".toList

/-- What `process_vm_readv` does: it fails, or it copies that many bytes from the beginning of the
region. -/
inductive ReadvResult where
  | failed (e : Errno)
  | copied (n : ℕ)
deriving DecidableEq

/-- What becomes of the request.  It gets lost, or its answer does, and `post` or `get` throws; or
it is answered. -/
inductive Delivery where
  | lost
  | unanswered
  | answered
deriving DecidableEq

/-- What the transfer meets; the network may throw while the peer is looked up or the buffers are
exposed. -/
structure MemoryPushCalls where
  temp : TempCalls
  map : Option Errno
  readv : ReadvResult
  msync : Option Errno
  protect : Option Errno
  exposes : Bool
  delivery : Delivery

/-- `::copy_from_process` into the mapped file `l`. -/
def copyFromProcess (calls : MemoryPushCalls) (d : Disk) (l : Loc) (region : List UInt8) :
    Disk × ErrorCode :=
  match calls.readv with
  | .failed e => (d, e)
  | .copied nbytes =>
      let d := d.bulk l (region.take nbytes)
      if nbytes < region.length then (d, EIO)
      else
        match calls.msync with
        | some e => (d, e)
        | none => (d, 0)

/-- The bytes of a mapped file. -/
def Disk.mapped (d : Disk) (l : Loc) : List UInt8 :=
  match d.tree.node l with
  | some (.file data) => data
  | _ => []

/-- `memory_region_to_remote_resource_transferor::transfer`: the file systems of the two hosts, and
the result.  `post` is the request with the exposed bytes. -/
def memoryTransferCalls (calls : MemoryPushCalls) (stagingDirectory : PathStr) (digit : ℕ → Fin 16)
    (d : Disk) (region : List UInt8) (peer : Disk)
    (post : List UInt8 → Disk × Option TransferOutput) : Disk × Disk × ErrorCode :=
  let (d, tempfile, ec) :=
    TemporaryFile.new calls.temp digit d tempfilePattern stagingDirectory region.length
  if ec ≠ 0 then (tempfile.destroy d, peer, ec)
  else
    match mappedBufferCall calls.map d.tree tempfile.filename with
    | .error ec => (tempfile.destroy d, peer, ec)
    | .ok (l, _) =>
        let (d, ec) := copyFromProcess calls d l region
        if ec ≠ 0 then (tempfile.destroy d, peer, ec)
        else
          match calls.protect with
          | some e => (tempfile.destroy d, peer, e)
          | none =>
              if !calls.exposes then (tempfile.destroy d, peer, NETWORK_EXCEPTION)
              else
                match calls.delivery with
                | .lost => (tempfile.destroy d, peer, NETWORK_EXCEPTION)
                | .unanswered => (tempfile.destroy d, (post (d.mapped l)).1, NETWORK_EXCEPTION)
                | .answered =>
                    let (peer, resp) := post (d.mapped l)
                    (tempfile.destroy d, peer, pushResult resp)

/-! ### The peer -/

/-- The daemon at the other end: it may refuse the request at once, because it is paused or does not
know the namespace; `calls` is what the transfer meets there.  `exposes` tells whether the mapped
output can be exposed, and `pulls` what the bulk operation makes of the bytes of the initiator, if
it comes to an end. -/
structure PushPeer where
  disk : Disk
  fs : PosixFilesystem
  stagingDirectory : PathStr
  digit : ℕ → Fin 16
  refuses : Option UrdError
  calls : AcceptPushCalls
  exposes : Bool
  pulls : List UInt8 → Option (List UInt8)

/-- `urd::push_resource_handler` with `task<remote_transfer>` and the callback of the transfer.  An
exception of `new_resource` or of `expose` ends the daemon: its files stay as they are, and nothing
is answered.  Nor is it if the callback is not reached. -/
def PushPeer.serve (p : PushPeer) (dstInfo : LocalPathInfo) (srcName : PathStr)
    (isCollection : Bool) (buffers : List UInt8) : Disk × Option TransferOutput :=
  match p.refuses with
  | some e => (p.disk, some (errorOutput e 0))
  | none =>
      match p.fs.newResource p.disk dstInfo isCollection with
      | (d, .thrown _) => (d, none)
      | (d, .error ec) => (d, some (errorOutput .systemError ec))
      | (d, .ok dst) =>
          let calls : AcceptPushCalls :=
            { p.calls with
              srcName := srcName
              isCollection := isCollection
              bufferSize := buffers.length }
          match acceptPushCalls calls p.stagingDirectory p.digit d dst with
          | (d, .error ec) => (d, some (errorOutput .systemError ec))
          | (d, .ok (tempfile, l)) =>
              if !p.exposes then (d, none)
              else
                match p.pulls buffers with
                | none => (d, none)
                | some bytes => pushCompletion { calls with written := bytes } d tempfile l

/-- The transfer of a region, which has no name and is not a collection. -/
def memoryPush (calls : MemoryPushCalls) (stagingDirectory : PathStr) (digit : ℕ → Fin 16)
    (d : Disk) (region : List UInt8) (p : PushPeer) (dstInfo : LocalPathInfo) :
    Disk × Disk × ErrorCode :=
  memoryTransferCalls calls stagingDirectory digit d region p.disk (p.serve dstInfo [] false)

/-! ### When it succeeds -/

/-- The request is posted: no call of the initiator has failed, and all of the region was read. -/
structure MemoryPushCalls.Posts (calls : MemoryPushCalls) (stagingDirectory : PathStr)
    (digit : ℕ → Fin 16) (d : Disk) (size : ℕ) : Prop where
  temp : ∃ q, calls.temp.Succeed digit d tempfilePattern stagingDirectory size q
  map : calls.map = none
  readv : ∃ nbytes, calls.readv = .copied nbytes ∧ size ≤ nbytes
  msync : calls.msync = none
  protect : calls.protect = none
  exposes : calls.exposes = true

/-- The destination after `new_resource`, which creates its parent directories. -/
def PushPeer.prepared (p : PushPeer) (dstInfo : LocalPathInfo) : Disk :=
  (p.fs.newResource p.disk dstInfo false).1

/-- The peer accepts the request and reserves the file `q`, for a destination that is no
directory. -/
structure PushPeer.Reserves (p : PushPeer) (dstInfo : LocalPathInfo) (size : ℕ)
    (dst : LocalPathResource) (q : Loc) : Prop where
  accepts : p.refuses = none
  resource : (p.fs.newResource p.disk dstInfo false).2 = .ok dst
  named : ¬ isDirectory (p.prepared dstInfo).tree dst.canonicalPath
  temp : p.calls.temp.Succeed p.digit (p.prepared dstInfo) dst.name dst.parent.mount size q
  map : p.calls.map = none

/-- Then it pulls the bytes into the file. -/
structure PushPeer.Receives (p : PushPeer) (dstInfo : LocalPathInfo) (region : List UInt8)
    (dst : LocalPathResource) (q : Loc) (bytes : List UInt8) : Prop extends
    p.Reserves dstInfo region.length dst q where
  exposes : p.exposes = true
  pulls : p.pulls region = some bytes

/-- Or it is stopped before that. -/
structure PushPeer.Stops (p : PushPeer) (dstInfo : LocalPathInfo) (region : List UInt8)
    (dst : LocalPathResource) (q : Loc) : Prop extends
    p.Reserves dstInfo region.length dst q where
  stopped : p.exposes = false ∨ p.pulls region = none

/-- Where the peer puts the bytes. -/
def PushPeer.target (p : PushPeer) (dst : LocalPathResource) : PathStr :=
  append dst.parent.mount (uniquePath p.digit dst.name)

/-! ### One side after the other -/

/-- A constructor without an error has succeeded with every call. -/
theorem TemporaryFile.succeed_of_new {calls : TempCalls} {digit : ℕ → Fin 16} {d : Disk}
    {pattern parentDir : PathStr} {size : ℕ}
    (h : (new calls digit d pattern parentDir size).2.2 = 0) :
    ∃ q, calls.Succeed digit d pattern parentDir size q := by
  unfold TemporaryFile.new at h
  cases hunique : calls.uniquePath with
  | some e =>
      rw [hunique] at h
      exact absurd h e.2
  | none =>
    rw [hunique] at h
    cases hstatus : calls.parentStatus with
    | some e =>
        rw [hstatus] at h
        exact absurd (show ENOENT = 0 from h) (by decide)
    | none =>
      rw [hstatus] at h
      cases hparent : d.tree.resolve .stat parentDir with
      | error e =>
          rw [hparent] at h
          exact absurd (show ENOENT = 0 from h) (by decide)
      | ok m =>
        rw [hparent] at h
        dsimp only at h
        cases hplace : d.tree.resolve .mkdir (append parentDir (uniquePath digit pattern)) with
        | error e =>
            rw [hplace] at h
            exact absurd h (errnoOf_ne_zero e)
        | ok q =>
          rw [hplace] at h
          dsimp only at h
          by_cases hfree : d.tree.node q = none
          · rw [if_neg (not_not.mpr hfree)] at h
            cases hcreate : calls.create with
            | some e =>
                rw [hcreate] at h
                exact absurd h e.2
            | none =>
              rw [hcreate] at h
              refine ⟨q, hunique, hstatus, ⟨m, hparent⟩, hplace, hfree, hcreate, fun hsize => ?_⟩
              dsimp only at h
              rw [if_neg hsize] at h
              cases hreserve : calls.reserve with
              | some e =>
                  rw [hreserve] at h
                  exact absurd h e.2
              | none => rfl
          · rw [if_pos hfree] at h
            exact absurd (show EEXIST = 0 from h) (by decide)

/-- A constructor that has not succeeded returns an error, and what it has created goes with the
object. -/
theorem TemporaryFile.new_fails {calls : TempCalls} {digit : ℕ → Fin 16} {d : Disk}
    {pattern parentDir : PathStr} {size : ℕ}
    (h : ¬ ∃ q, calls.Succeed digit d pattern parentDir size q) :
    ∃ d' f ec, new calls digit d pattern parentDir size = (d', f, ec) ∧ ec ≠ 0 ∧
      SameNodes d (f.destroy d') := by
  obtain ⟨ec, hec, hnew⟩ | ⟨d', data, q, ec, hnew, hd'⟩ :=
    new_cases calls digit d pattern parentDir size
  · exact ⟨d, empty, ec, hnew, hec, fun _ => rfl⟩
  · refine ⟨d', _, ec, hnew, fun hzero => h (succeed_of_new ?_), destroy_new hd'⟩
    rw [hnew]
    exact hzero

/-- A file that is filled with as many bytes holds these. -/
theorem fileContent_length (bytes : List UInt8) : fileContent bytes.length bytes = bytes := by
  simp [fileContent]

theorem NewFile.mapped {d d' : Disk} {p : PathStr} {data : List UInt8} {q : Loc}
    (h : NewFile d d' p data q) : d'.mapped q = data := by
  rw [Disk.mapped, h.node_self]

/-- Whatever was copied, the file is a new one; without an error it has all of the region. -/
theorem copyFromProcess_new (calls : MemoryPushCalls) {d d' : Disk} {p : PathStr}
    {region : List UInt8} {q : Loc} (h : NewFile d d' p (List.replicate region.length 0) q) :
    (∃ data, NewFile d (copyFromProcess calls d' q region).1 p data q) ∧
    ((copyFromProcess calls d' q region).2 = 0 ↔
      (∃ nbytes, calls.readv = .copied nbytes ∧ region.length ≤ nbytes) ∧ calls.msync = none) ∧
    ((copyFromProcess calls d' q region).2 = 0 →
      NewFile d (copyFromProcess calls d' q region).1 p region q) := by
  unfold copyFromProcess
  cases hreadv : calls.readv with
  | failed e =>
      refine ⟨⟨_, h⟩, ⟨fun hzero => absurd hzero e.2, ?_⟩, fun hzero => absurd hzero e.2⟩
      rintro ⟨⟨nbytes, hcopied, -⟩, -⟩
      cases hcopied
  | copied nbytes =>
      dsimp only
      by_cases hshort : nbytes < region.length
      · rw [if_pos hshort]
        have hEIO : EIO ≠ 0 := by decide
        refine ⟨⟨_, h.bulk _⟩, ⟨fun hzero => absurd hzero hEIO, ?_⟩, fun hzero => absurd hzero hEIO⟩
        rintro ⟨⟨nbytes', hcopied, hle⟩, -⟩
        cases hcopied
        exact absurd hshort (not_lt.mpr hle)
      · rw [if_neg hshort]
        have hall : region.take nbytes = region := List.take_of_length_le (not_lt.mp hshort)
        have hfull := h.fill region List.length_replicate.symm
        rw [hall]
        cases calls.msync with
        | some e =>
            refine ⟨⟨_, hfull⟩, ⟨fun hzero => absurd hzero e.2, ?_⟩,
              fun hzero => absurd hzero e.2⟩
            rintro ⟨-, hsync⟩
            cases hsync
        | none =>
            exact ⟨⟨_, hfull⟩, ⟨fun _ => ⟨⟨nbytes, rfl, not_lt.mp hshort⟩, rfl⟩, fun _ => rfl⟩,
              fun _ => hfull⟩

section initiator

variable (calls : MemoryPushCalls) (stagingDirectory : PathStr) (digit : ℕ → Fin 16) (d : Disk)
  (region : List UInt8) (peer : Disk) (post : List UInt8 → Disk × Option TransferOutput)

/-- What is known of the initiator at its end: its file system is as it was; the peer has been asked
if the region was posted and not lost; and without an answer there is an error. -/
structure InitiatorEnd (posts : Prop) (delivery : Delivery) (r : Disk × Disk × ErrorCode) :
    Prop where
  same : SameNodes d r.1
  asked : posts → delivery ≠ .lost → r.2.1 = (post region).1
  notAsked : ¬ posts ∨ delivery = .lost → r.2.1 = peer
  answered : posts → delivery = .answered → r.2.2 = pushResult (post region).2
  failed : ¬ posts ∨ delivery ≠ .answered → r.2.2 ≠ 0

variable {d region peer post}

theorem InitiatorEnd.of_error {posts : Prop} {delivery : Delivery} {d' : Disk} {ec : ErrorCode}
    (h : SameNodes d d') (hposts : ¬ posts) (hec : ec ≠ 0) :
    InitiatorEnd d region peer post posts delivery (d', peer, ec) :=
  ⟨h, fun hp => absurd hp hposts, fun _ => rfl, fun hp => absurd hp hposts, fun _ => hec⟩

theorem InitiatorEnd.of_lost {posts : Prop} {d' : Disk} (h : SameNodes d d') :
    InitiatorEnd d region peer post posts .lost (d', peer, NETWORK_EXCEPTION) :=
  ⟨h, fun _ hlost => absurd rfl hlost, fun _ => rfl, nofun,
    fun _ => show NETWORK_EXCEPTION ≠ 0 by decide⟩

theorem InitiatorEnd.of_unanswered {posts : Prop} {d' : Disk} (h : SameNodes d d')
    (hposts : posts) :
    InitiatorEnd d region peer post posts .unanswered (d', (post region).1, NETWORK_EXCEPTION) :=
  ⟨h, fun _ _ => rfl, fun hno => (nomatch hno.resolve_left (not_not.mpr hposts)), nofun,
    fun _ => show NETWORK_EXCEPTION ≠ 0 by decide⟩

theorem InitiatorEnd.of_answered {posts : Prop} {d' : Disk} (h : SameNodes d d') (hposts : posts) :
    InitiatorEnd d region peer post posts .answered
      (d', (post region).1, pushResult (post region).2) :=
  ⟨h, fun _ _ => rfl, fun hno => (nomatch hno.resolve_left (not_not.mpr hposts)), fun _ _ => rfl,
    fun hno => absurd rfl (hno.resolve_left (not_not.mpr hposts))⟩

variable (d) (peer post)

/-- The initiator, at each of its exits. -/
theorem memoryTransferCalls_end (hregion : region ≠ []) :
    InitiatorEnd d region peer post (calls.Posts stagingDirectory digit d region.length)
      calls.delivery (memoryTransferCalls calls stagingDirectory digit d region peer post) := by
  have hlen : region.length ≠ 0 := by simpa using hregion
  unfold memoryTransferCalls
  by_cases htemp : ∃ q, calls.temp.Succeed digit d tempfilePattern stagingDirectory region.length q
  swap
  · obtain ⟨d', f, ec, hnew, hec, hsame⟩ := TemporaryFile.new_fails htemp
    rw [hnew]
    dsimp only
    rw [if_pos hec]
    exact .of_error hsame (fun hposts => htemp hposts.temp) hec
  obtain ⟨q, hq⟩ := htemp
  obtain ⟨d', hnew, hd'⟩ := TemporaryFile.new_of_succeed hq
  rw [hnew]
  dsimp only
  rw [if_neg (not_not.mpr rfl)]
  cases hmap : calls.map with
  | some e =>
      refine .of_error (TemporaryFile.destroy_new hd') (fun hposts => ?_) e.2
      have hnone := hposts.map
      rw [hmap] at hnone
      cases hnone
  | none =>
    rw [(mapped_and_filled hlen hd' []).1]
    dsimp only
    obtain ⟨⟨data, hdata⟩, hzero, hfull⟩ := copyFromProcess_new calls hd'
    have hgone := TemporaryFile.destroy_new hdata
    by_cases hcopy : (copyFromProcess calls d' q region).2 = 0
    swap
    · rw [if_pos hcopy]
      exact .of_error hgone (fun hposts => hcopy (hzero.mpr ⟨hposts.readv, hposts.msync⟩)) hcopy
    rw [if_neg (not_not.mpr hcopy)]
    obtain ⟨hreadv, hmsync⟩ := hzero.mp hcopy
    cases hprotect : calls.protect with
    | some e =>
        refine .of_error hgone (fun hposts => ?_) e.2
        have hnone := hposts.protect
        rw [hprotect] at hnone
        cases hnone
    | none =>
      dsimp only
      cases hexposes : calls.exposes with
      | false =>
          rw [if_pos (by decide)]
          refine .of_error hgone (fun hposts => ?_) (by decide)
          have htrue := hposts.exposes
          rw [hexposes] at htrue
          cases htrue
      | true =>
        have hposts : calls.Posts stagingDirectory digit d region.length :=
          ⟨⟨q, hq⟩, hmap, hreadv, hmsync, hprotect, hexposes⟩
        rw [if_neg (by decide), (hfull hcopy).mapped]
        cases calls.delivery with
        | lost => exact .of_lost hgone
        | unanswered => exact .of_unanswered hgone hposts
        | answered => exact .of_answered hgone hposts

end initiator

section peer

variable (p : PushPeer) (dstInfo : LocalPathInfo) (region : List UInt8)

theorem pushResult_errorOutput (e : UrdError) (ec : ErrorCode) :
    pushResult (some (errorOutput e ec)) = ec := by
  rw [pushResult, errorOutput, if_pos rfl, errcOfWord_wordOfErrc]

/-- What is known of the peer at its end. -/
structure PeerEnd (r : Disk × Option TransferOutput) : Prop where
  refused : p.refuses ≠ none → r.1 = p.disk ∧ pushResult r.2 = 0
  received : ∀ dst q bytes, p.Receives dstInfo region dst q bytes → pushResult r.2 = 0 ∧
    NewFile (p.prepared dstInfo) r.1 (p.target dst) (fileContent region.length bytes) q
  stopped : ∀ dst q, p.Stops dstInfo region dst q → pushResult r.2 ≠ 0 ∧
    NewFile (p.prepared dstInfo) r.1 (p.target dst) (List.replicate region.length 0) q
  failed : p.refuses = none → (∀ dst q, ¬ p.Reserves dstInfo region.length dst q) →
    pushResult r.2 ≠ 0 ∧ SameNodes (p.prepared dstInfo) r.1

variable {p dstInfo region}

theorem PeerEnd.of_failed {d : Disk} {out : Option TransferOutput} (haccepts : p.refuses = none)
    (hreserves : ∀ dst q, ¬ p.Reserves dstInfo region.length dst q)
    (hsame : SameNodes (p.prepared dstInfo) d) (hresult : pushResult out ≠ 0) :
    PeerEnd p dstInfo region (d, out) :=
  ⟨fun h => absurd haccepts h, fun dst q _ h => absurd h.toReserves (hreserves dst q),
    fun dst q h => absurd h.toReserves (hreserves dst q), fun _ _ => ⟨hresult, hsame⟩⟩

theorem PeerEnd.of_error {d : Disk} {ec : ErrorCode} (haccepts : p.refuses = none)
    (hreserves : ∀ dst q, ¬ p.Reserves dstInfo region.length dst q)
    (hsame : SameNodes (p.prepared dstInfo) d) (hec : ec ≠ 0) :
    PeerEnd p dstInfo region (d, some (errorOutput .systemError ec)) :=
  .of_failed haccepts hreserves hsame (by rwa [pushResult_errorOutput])

/-- There is one place at which a peer can reserve the file. -/
theorem PushPeer.Reserves.unique {size : ℕ} {dst dst' : LocalPathResource} {q q' : Loc}
    (h : p.Reserves dstInfo size dst q) (h' : p.Reserves dstInfo size dst' q') :
    dst' = dst ∧ q' = q := by
  obtain rfl : dst' = dst := Outcome.ok.inj (h'.resource.symm.trans h.resource)
  exact ⟨rfl, Except.ok.inj (h'.temp.place.symm.trans h.temp.place)⟩

/-- A peer that has reserved the file. -/
theorem PushPeer.serve_of_reserves (hregion : region ≠ []) {dst : LocalPathResource} {q : Loc}
    (h : p.Reserves dstInfo region.length dst q) :
    PeerEnd p dstInfo region (p.serve dstInfo [] false region) := by
  have hlen : region.length ≠ 0 := by simpa using hregion
  obtain ⟨d', hnew, hd'⟩ := TemporaryFile.new_of_succeed h.temp
  have hresource : p.fs.newResource p.disk dstInfo false = (p.prepared dstInfo, .ok dst) :=
    Prod.ext rfl h.resource
  have hserve : p.serve dstInfo [] false region =
      if !p.exposes then (d', none)
      else
        match p.pulls region with
        | none => (d', none)
        | some bytes => (d'.bulk q bytes, some
            ⟨TaskStatus.finished.toWord, UrdError.success.toWord, 0, p.calls.usecs⟩) := by
    unfold PushPeer.serve
    rw [h.accepts, hresource]
    dsimp only
    simp only [acceptPushCalls, pushCompletion, Bool.false_eq_true, if_false, true_and, h.named,
      hnew, not_not.mpr, h.map, (mapped_and_filled hlen hd' []).1]
    rfl
  have hstops : p.exposes = false ∨ p.pulls region = none →
      PeerEnd p dstInfo region (d', none) := by
    refine fun hstop => ⟨fun href => absurd h.accepts href, fun dst' q' bytes h' => ?_,
      fun dst' q' h' => ?_, fun _ hno => absurd h (hno dst q)⟩
    · obtain hexposes | hpulls := hstop
      · cases h'.exposes.symm.trans hexposes
      · cases h'.pulls.symm.trans hpulls
    · obtain ⟨rfl, rfl⟩ := h.unique h'.toReserves
      exact ⟨show pushResult none ≠ 0 by decide, hd'⟩
  rw [hserve]
  cases hexposes : p.exposes with
  | false => exact hstops (.inl hexposes)
  | true =>
      rw [if_neg (by decide)]
      cases hpulls : p.pulls region with
      | none => exact hstops (.inr hpulls)
      | some bytes =>
          refine ⟨fun href => absurd h.accepts href, fun dst' q' bytes' h' => ?_,
            fun dst' q' h' => ?_, fun _ hno => absurd h (hno dst q)⟩
          · obtain ⟨rfl, rfl⟩ := h.unique h'.toReserves
            obtain rfl : bytes = bytes' := Option.some.inj (hpulls.symm.trans h'.pulls)
            exact ⟨rfl, (mapped_and_filled hlen hd' bytes).2⟩
          · obtain hexposes' | hpulls' := h'.stopped
            · cases hexposes.symm.trans hexposes'
            · cases hpulls.symm.trans hpulls'

variable (p dstInfo)

/-- The peer, at each of its exits. -/
theorem PushPeer.serve_end (hregion : region ≠ []) :
    PeerEnd p dstInfo region (p.serve dstInfo [] false region) := by
  by_cases hreserves : ∃ dst q, p.Reserves dstInfo region.length dst q
  · obtain ⟨dst, q, h⟩ := hreserves
    exact serve_of_reserves hregion h
  have hno : ∀ dst q, ¬ p.Reserves dstInfo region.length dst q :=
    fun dst q h => hreserves ⟨dst, q, h⟩
  unfold PushPeer.serve
  cases hrefuses : p.refuses with
  | some e =>
      refine ⟨fun _ => ⟨rfl, pushResult_errorOutput e 0⟩, fun dst q _ h => ?_, fun dst q h => ?_,
        fun h => ?_⟩
      · exact absurd h.toReserves (hno dst q)
      · exact absurd h.toReserves (hno dst q)
      · rw [hrefuses] at h
        cases h
  | none =>
      have hsame : SameNodes (p.prepared dstInfo) (p.prepared dstInfo) := fun _ => rfl
      rcases hnew : p.fs.newResource p.disk dstInfo false with ⟨d, o⟩
      obtain rfl : p.prepared dstInfo = d := congrArg Prod.fst hnew
      cases o with
      | thrown ec => exact .of_failed hrefuses hno hsame (by decide)
      | error ec => exact .of_error hrefuses hno hsame (newResource_error hnew)
      | ok dst =>
          simp only [acceptPushCalls, Bool.false_eq_true, if_false, true_and]
          by_cases hdir : isDirectory (p.prepared dstInfo).tree dst.canonicalPath
          · rw [if_pos hdir]
            exact .of_error hrefuses hno hsame (by decide)
          · rw [if_neg hdir]
            by_cases htemp : ∃ q, p.calls.temp.Succeed p.digit (p.prepared dstInfo) dst.name
                dst.parent.mount region.length q
            · obtain ⟨q, hq⟩ := htemp
              obtain ⟨d', htmp, hd'⟩ := TemporaryFile.new_of_succeed hq
              rw [htmp]
              dsimp only
              rw [if_neg (not_not.mpr rfl)]
              cases hmap : p.calls.map with
              | some e =>
                  exact .of_error hrefuses hno (TemporaryFile.destroy_new hd') e.2
              | none =>
                  have hok : (p.fs.newResource p.disk dstInfo false).2 = .ok dst := by rw [hnew]
                  exact absurd ⟨hrefuses, hok, hdir, hq, hmap⟩ (hno dst q)
            · obtain ⟨d', f, ec, htmp, hec, hgone⟩ := TemporaryFile.new_fails htemp
              rw [htmp]
              dsimp only
              rw [if_pos hec]
              exact .of_error hrefuses hno hgone hec

end peer

/-- What a push of a region comes to, if the request is posted or if it is not, and for what becomes
of it: the initiator's files are as they were; success is reported exactly for an answered request
that the peer has received or refused.  A peer that receives it has one new file, which holds the
region if the bulk operation brings the region; one that is stopped keeps the file that it had
reserved; and otherwise nothing has changed but for the parents of the destination. -/
structure MemoryPushed (posts : Prop) (delivery : Delivery) (d : Disk) (region : List UInt8)
    (p : PushPeer) (dstInfo : LocalPathInfo) (r : Disk × Disk × ErrorCode) : Prop where
  initiator : SameNodes d r.1
  success : r.2.2 = 0 ↔ posts ∧ delivery = .answered ∧
    (p.refuses ≠ none ∨ ∃ dst q bytes, p.Receives dstInfo region dst q bytes)
  received : posts → delivery ≠ .lost → ∀ dst q bytes, p.Receives dstInfo region dst q bytes →
    NewFile (p.prepared dstInfo) r.2.1 (p.target dst) (fileContent region.length bytes) q
  exact : posts → delivery ≠ .lost → ∀ dst q, p.Receives dstInfo region dst q region →
    NewFile (p.prepared dstInfo) r.2.1 (p.target dst) region q
  stopped : posts → delivery ≠ .lost → ∀ dst q, p.Stops dstInfo region dst q →
    NewFile (p.prepared dstInfo) r.2.1 (p.target dst) (List.replicate region.length 0) q
  untouched : ¬ posts ∨ delivery = .lost ∨ p.refuses ≠ none → r.2.1 = p.disk
  cleaned : posts → delivery ≠ .lost → p.refuses = none →
    (∀ dst q, ¬ p.Reserves dstInfo region.length dst q) → SameNodes (p.prepared dstInfo) r.2.1

/-- What a peer has reserved it receives, or it is stopped. -/
theorem PushPeer.Reserves.cases {p : PushPeer} {dstInfo : LocalPathInfo} {region : List UInt8}
    {dst : LocalPathResource} {q : Loc} (h : p.Reserves dstInfo region.length dst q) :
    (∃ bytes, p.Receives dstInfo region dst q bytes) ∨ p.Stops dstInfo region dst q := by
  cases hexposes : p.exposes with
  | false => exact .inr ⟨h, .inl hexposes⟩
  | true =>
      cases hpulls : p.pulls region with
      | none => exact .inr ⟨h, .inr hpulls⟩
      | some bytes => exact .inl ⟨bytes, h, hexposes, hpulls⟩

/-- **A region pushed to a peer**, wherever the transfer fails on either side and whatever becomes
of the request. -/
theorem memory_push_exact (calls : MemoryPushCalls) (stagingDirectory : PathStr)
    (digit : ℕ → Fin 16) (d : Disk) {region : List UInt8} (hregion : region ≠ []) (p : PushPeer)
    (dstInfo : LocalPathInfo) :
    MemoryPushed (calls.Posts stagingDirectory digit d region.length) calls.delivery d region p
      dstInfo (memoryPush calls stagingDirectory digit d region p dstInfo) := by
  have hinit := memoryTransferCalls_end calls stagingDirectory digit d p.disk
    (p.serve dstInfo [] false) hregion
  have hpeer := p.serve_end dstInfo hregion
  have hreceived : calls.Posts stagingDirectory digit d region.length → calls.delivery ≠ .lost →
      ∀ dst q bytes, p.Receives dstInfo region dst q bytes →
        NewFile (p.prepared dstInfo)
          (memoryPush calls stagingDirectory digit d region p dstInfo).2.1 (p.target dst)
          (fileContent region.length bytes) q := by
    intro hposts hlost dst q bytes h
    rw [memoryPush, hinit.asked hposts hlost]
    exact (hpeer.received dst q bytes h).2
  refine ⟨hinit.same, ⟨fun hzero => ?_, ?_⟩, hreceived, fun hposts hlost dst q h => ?_,
    fun hposts hlost dst q h => ?_, ?_, fun hposts hlost hrefuses hno => ?_⟩
  · -- an error if it was not answered, or if the peer has not reserved the file or was stopped
    have hposts : calls.Posts stagingDirectory digit d region.length := by
      by_contra hposts
      exact hinit.failed (.inl hposts) hzero
    have hanswered : calls.delivery = .answered := by
      by_contra hanswered
      exact hinit.failed (.inr hanswered) hzero
    refine ⟨hposts, hanswered, ?_⟩
    rw [memoryPush, hinit.answered hposts hanswered] at hzero
    by_contra hno
    obtain ⟨hrefuses, hreceives⟩ := not_or.mp hno
    refine (hpeer.failed (not_not.mp hrefuses) fun dst q h => ?_).1 hzero
    obtain ⟨bytes, hreceived⟩ | hstops := h.cases
    · exact hreceives ⟨dst, q, bytes, hreceived⟩
    · exact (hpeer.stopped dst q hstops).1 hzero
  · rintro ⟨hposts, hanswered, hrefuses | ⟨dst, q, bytes, h⟩⟩
    · rw [memoryPush, hinit.answered hposts hanswered]
      exact (hpeer.refused hrefuses).2
    · rw [memoryPush, hinit.answered hposts hanswered]
      exact (hpeer.received dst q bytes h).1
  · have hfile := hreceived hposts hlost dst q region h
    rwa [fileContent_length] at hfile
  · rw [memoryPush, hinit.asked hposts hlost]
    exact (hpeer.stopped dst q h).2
  · intro h
    by_cases hasked : calls.Posts stagingDirectory digit d region.length ∧ calls.delivery ≠ .lost
    · obtain ⟨hposts, hlost⟩ := hasked
      rw [memoryPush, hinit.asked hposts hlost]
      exact (hpeer.refused ((h.resolve_left (not_not.mpr hposts)).resolve_left hlost)).1
    · exact hinit.notAsked ((not_and_or.mp hasked).imp_right not_not.mp)
  · rw [memoryPush, hinit.asked hposts hlost]
    exact (hpeer.failed hrefuses hno).2

/-- Calls that all succeed, for a region of three bytes. -/
def threeBytes : MemoryPushCalls := ⟨tempSucceeds, none, .copied 3, none, none, true, .answered⟩

/-- The same, but the answer of the peer gets lost. -/
def answerLost : MemoryPushCalls := { threeBytes with delivery := .unanswered }

/-- A peer with a namespace mounted at `/mnt`. -/
def mntPeer : PushPeer :=
  ⟨⟨mntTree, []⟩, (mntMount mntTree mntTree_dir).toPosixFilesystem, ['/'], fun _ => Fin.last 15, none,
   ⟨[], false, 0, tempSucceeds, none, [], 0, unpackSucceeds⟩, true, some⟩

/-- Three bytes of memory become the file `/mnt/f` of the peer; if the answer gets lost, they do
too, but the transfer reports an error. -/
theorem three_bytes_pushed :
    ((memoryPush threeBytes ['/'] (fun _ => 0) ⟨.empty, []⟩ [1, 2, 3] mntPeer
        ⟨"tmp0", "f"⟩).2.2 = 0 ∧
      (memoryPush threeBytes ['/'] (fun _ => 0) ⟨.empty, []⟩ [1, 2, 3] mntPeer
        ⟨"tmp0", "f"⟩).2.1.tree.node [['f'], "mnt".toList] = some (.file [1, 2, 3])) ∧
    (memoryPush answerLost ['/'] (fun _ => 0) ⟨.empty, []⟩ [1, 2, 3] mntPeer
        ⟨"tmp0", "f"⟩).2.2 ≠ 0 ∧
      (memoryPush answerLost ['/'] (fun _ => 0) ⟨.empty, []⟩ [1, 2, 3] mntPeer
        ⟨"tmp0", "f"⟩).2.1.tree.node [['f'], "mnt".toList] =
          some (.file [1, 2, 3]) := by
  have hstaging : tempSucceeds.Succeed (fun _ => 0) ⟨.empty, []⟩ tempfilePattern ['/'] 3
      ["norns-tempfile-0000-0000-0000".toList] :=
    ⟨rfl, rfl, ⟨[], rfl⟩, rfl, rfl, rfl, fun _ => rfl⟩
  have hposts : threeBytes.Posts ['/'] (fun _ => 0) ⟨.empty, []⟩ 3 :=
    ⟨⟨_, hstaging⟩, rfl, ⟨3, rfl, le_refl 3⟩, rfl, rfl, rfl⟩
  have hposts' : answerLost.Posts ['/'] (fun _ => 0) ⟨.empty, []⟩ 3 :=
    ⟨⟨_, hstaging⟩, rfl, ⟨3, rfl, le_refl 3⟩, rfl, rfl, rfl⟩
  have hregion : ([1, 2, 3] : List UInt8) ≠ [] := by decide
  have hreceives : mntPeer.Receives ⟨"tmp0", "f"⟩ [1, 2, 3]
      (localPathResource mntTree (mntMount mntTree mntTree_dir).toPosixFilesystem ['/', 'f'])
      [['f'], "mnt".toList] [1, 2, 3] :=
    ⟨⟨rfl, by decide +kernel, by decide +kernel,
      ⟨rfl, rfl, ⟨["mnt".toList], rfl⟩, by decide +kernel, by decide +kernel, rfl, fun _ => rfl⟩,
      rfl⟩, rfl, rfl⟩
  have hpushed := memory_push_exact threeBytes ['/'] (fun _ => 0) ⟨.empty, []⟩ hregion mntPeer
    ⟨"tmp0", "f"⟩
  have hlost := memory_push_exact answerLost ['/'] (fun _ => 0) ⟨.empty, []⟩ hregion mntPeer
    ⟨"tmp0", "f"⟩
  refine ⟨⟨hpushed.success.mpr ⟨hposts, rfl, .inr ⟨_, _, _, hreceives⟩⟩, ?_⟩, fun hzero => ?_, ?_⟩
  · exact (hpushed.exact hposts (by decide) _ _ hreceives).node_self
  · cases (hlost.success.mp hzero).2.1
  · exact (hlost.exact hposts' (by decide) _ _ hreceives).node_self

end Norns
