import Norns.Lib.Program
import Norns.RemoteTransfer

/-! # Failures of the operating system and of the network

The calls that a local copy, a size query, an archive, the estimate of its size and a pull make, in
their order, with the overload that the source takes for each of them.  An overload without an
`error_code` throws; one with an `error_code` reports, if the code is looked at.  The functions that
ask for the type of an object do neither if there is no such object: their answer is then "no".

What the operating system and the peer answer is an input, `os`: the type of the object for a call
that asks, or a failure with its number.  `failures_reported_iff` says for which answers a failure
ends in an error code.  The data that the functions compute is in `TarArchive`, `ByteCount`,
`LocalCopy` and `FileTransfer`; tests that make no call (of an empty name) are left out. -/

namespace Norns

open Lib

/-! ### Calls -/

/-- `bfs::file_type`, as far as the daemon tells types apart. -/
inductive FileType where
  | regular
  | directory
  | symlink
  | other
deriving DecidableEq, Repr

/-- What is called.  `append` is `append_file` or `append_directory_header`, `copyFile` the function
`copy_file` with all its system calls; a response is a failure if the peer says so. -/
inductive FsName where
  | uniquePath | openArchive | newEntry | canonical | isDirectory | isRegular | isSymlink
  | iterator | iteratorAgain | increment | relative | dstExists | createDirectory | copyFile
  | fileSize | append | closeArchive
  | lookup | statGet | statResponse | tempfile | mapBuffer | expose | pullGet | pullResponse
  | nextHeader | extract | remove
deriving DecidableEq, Repr

/-- A call and its position: the archive takes more than one source, and an iterator delivers
entries. -/
inductive FsCall where
  | root (name : FsName) (source : ℕ)
  | entry (name : FsName) (source i : ℕ)
deriving DecidableEq, Repr

/-- What is called at a position. -/
def FsCall.name : FsCall → FsName
  | root name _ => name
  | entry name _ _ => name

/-- The answer to a call: the type of the object, which only some calls ask for, or a failure. -/
abbrev OsAnswer := Except ErrorCode FileType

/-- The numbers that `bfs::status` takes for the answer that there is no such file. -/
def NotFound (e : ErrorCode) : Prop := e = ENOENT ∨ e = ENOTDIR

instance (e : ErrorCode) : Decidable (NotFound e) := inferInstanceAs (Decidable (_ ∨ _))

/-- The operating system or the peer reports a failure.  That the destination does not exist is
what `bfs::exists` has been called for. -/
def FsCall.Fails (c : FsCall) (a : OsAnswer) : Prop :=
  ∃ e, a = .error e ∧ ¬ (c.name = .dstExists ∧ NotFound e)

/-- How a function ends: it returns an error code, or an exception leaves it. -/
inductive Exit where
  | returned (ec : ErrorCode)
  | thrown (ec : ErrorCode)
deriving DecidableEq, Repr

/-- Functions that call the operating system and the peer. -/
abbrev FsProgram := Program FsCall (fun _ => OsAnswer) Exit

/-- The ways in which the source makes a call. -/
inductive Overload where
  /-- no `error_code` is given. -/
  | throwing
  /-- the error is returned. -/
  | reporting
  /-- the error is not looked at. -/
  | dropping
  /-- `is_directory` and its like, without an `error_code`. -/
  | asking
  /-- `exists`, without an `error_code`. -/
  | askingExists
  /-- such a call, with `EINVAL` for an object of another type. -/
  | demanding (type : FileType)
deriving DecidableEq, Repr

/-- What becomes of an answer. -/
inductive Handling where
  | goesOn
  /-- a failure that the function goes on after. -/
  | passes
  | ends (x : Exit)
deriving DecidableEq, Repr

/-- What a call does with its answer. -/
def Overload.handle : Overload → OsAnswer → Handling
  | .demanding type, .ok type' => if type' = type then .goesOn else .ends (.returned EINVAL)
  | _, .ok _ => .goesOn
  | .throwing, .error e => .ends (.thrown e)
  | .reporting, .error e => .ends (.returned e)
  | .dropping, .error _ => .passes
  | .asking, .error e => if NotFound e then .passes else .ends (.thrown e)
  | .askingExists, .error e => if NotFound e then .goesOn else .ends (.thrown e)
  | .demanding _, .error e =>
      if NotFound e then .ends (.returned EINVAL) else .ends (.thrown e)

/-- A call, and the rest of the function for the answers that it goes on after. -/
def callWith (o : Overload) (c : FsCall) (next : Option FileType → FsProgram) : FsProgram :=
  .call c fun a =>
    match o.handle a with
    | .ends x => .ret x
    | .goesOn => next a.toOption
    | .passes => next a.toOption

def throwing (c : FsCall) (next : FsProgram) : FsProgram := callWith .throwing c fun _ => next
def reporting (c : FsCall) (next : FsProgram) : FsProgram := callWith .reporting c fun _ => next
def demanding (type : FileType) (c : FsCall) (next : FsProgram) : FsProgram :=
  callWith (.demanding type) c fun _ => next

/-- The end of a function without an error. -/
def done : FsProgram := .ret (.returned 0)

/-! ### The functions -/

/-- The loop of `copy_directory`. -/
def copyEntries : List ℕ → FsProgram
  | [] => done
  | i :: is =>
      let next := throwing (.entry .increment 0 i) (copyEntries is)
      throwing (.entry .relative 0 i) <|
        callWith .asking (.entry .isDirectory 0 i) fun type =>
          if type = some .directory then
            callWith .askingExists (.entry .dstExists 0 i) fun dst =>
              if dst = none then reporting (.entry .createDirectory 0 i) next else next
          else reporting (.entry .copyFile 0 i) next

/-- `local_path_to_local_path_transferor::transfer`, with `copy_directory`; the iterator delivers
`n` entries. -/
def localCopy (n : ℕ) : FsProgram :=
  callWith .asking (.root .isDirectory 0) fun type =>
    if type = some .directory then reporting (.root .iterator 0) (copyEntries (List.range n))
    else reporting (.root .copyFile 0) done

/-- The loop of `posix_filesystem::get_size`. -/
def sizeEntries : List ℕ → FsProgram
  | [] => done
  | i :: is =>
      let next := throwing (.entry .increment 0 i) (sizeEntries is)
      callWith .asking (.entry .isRegular 0 i) fun type =>
        if type = some .regular then throwing (.entry .fileSize 0 i) next else next

/-- `posix_filesystem::get_size`.  After a failure the iterator is at its end, and the error is
looked at after the loop. -/
def getSizeCalls (n : ℕ) : FsProgram :=
  reporting (.root .canonical 0) <|
    callWith .asking (.root .isDirectory 0) fun type =>
      if type = some .directory then reporting (.root .iterator 0) (sizeEntries (List.range n))
      else reporting (.root .fileSize 0) done

/-- The loop of `tar::add_directory`, for the source number `k`. -/
def archiveEntries (k : ℕ) (rest : FsProgram) : List ℕ → FsProgram
  | [] => rest
  | i :: is =>
      let next := throwing (.entry .increment k i) (archiveEntries k rest is)
      throwing (.entry .relative k i) <|
        callWith .asking (.entry .isRegular k i) fun type =>
          if type = some .regular then reporting (.entry .append k i) next
          else
            callWith .asking (.entry .isDirectory k i) fun type =>
              if type = some .directory then reporting (.entry .append k i) next else next

/-- `tar::add_directory`.  The iterator is made twice, first without an `error_code`; the error of
the second is looked at in the loop, which a failed iterator does not enter. -/
def addDirectoryCalls (k n : ℕ) (rest : FsProgram) : FsProgram :=
  reporting (.root .canonical k) <|
    demanding .directory (.root .isDirectory k) <|
      reporting (.root .newEntry k) <|
        throwing (.root .relative k) <|
          reporting (.root .append k) <|
            throwing (.root .iterator k) <|
              callWith .dropping (.root .iteratorAgain k) fun it =>
                if it = none then rest else archiveEntries k rest (List.range n)

/-- `tar::add_file`. -/
def addFileCalls (k : ℕ) (rest : FsProgram) : FsProgram :=
  reporting (.root .canonical k) <|
    demanding .regular (.root .isRegular k) <|
      reporting (.root .newEntry k) <|
        reporting (.root .append k) rest

/-- A source of `pack_archive`: `none` is added as a file, `some n` as a directory for which the
iterator delivers `n` entries. -/
abbrev PackSource := Option ℕ

/-- The loop of `pack_archive`.  `tar::release` logs an error and does not return it; after an
error it is also called, which does not change what is returned. -/
def packSources : ℕ → List PackSource → FsProgram
  | _, [] => callWith .dropping (.root .closeArchive 0) fun _ => done
  | k, some n :: sources => addDirectoryCalls k n (packSources (k + 1) sources)
  | k, none :: sources => addFileCalls k (packSources (k + 1) sources)

/-- `pack_archive`. -/
def packArchiveCalls (sources : List PackSource) : FsProgram :=
  throwing (.root .uniquePath 0) <| reporting (.root .openArchive 0) (packSources 0 sources)

/-- The loop of `tar::estimate_size_once_packed`. -/
def estimateEntriesCalls : List ℕ → FsProgram
  | [] => done
  | i :: is =>
      let next := throwing (.entry .increment 0 i) (estimateEntriesCalls is)
      callWith .asking (.entry .isDirectory 0 i) fun type =>
        if type = some .directory then next
        else
          callWith .asking (.entry .isRegular 0 i) fun type =>
            if type = some .regular then reporting (.entry .fileSize 0 i) next
            else
              callWith .asking (.entry .isSymlink 0 i) fun type =>
                if type = some .symlink then reporting (.entry .fileSize 0 i) next else next

/-- `tar::estimate_size_once_packed`; for the iterator see `addDirectoryCalls`. -/
def estimateCalls (n : ℕ) : FsProgram :=
  callWith .asking (.root .isDirectory 0) fun type =>
    if type = some .directory then
      callWith .dropping (.root .iterator 0) fun it =>
        if it = none then done else estimateEntriesCalls (List.range n)
    else throwing (.root .fileSize 0) done

/-- The loop of `tar::extract`; the last header is the end of the archive. -/
def extractEntriesCalls (n : ℕ) (rest : FsProgram) : List ℕ → FsProgram
  | [] => reporting (.entry .nextHeader 0 n) rest
  | i :: is =>
      reporting (.entry .nextHeader 0 i) <|
        reporting (.entry .extract 0 i) (extractEntriesCalls n rest is)

/-- `unpack_archive`, for an archive with `n` entries. -/
def unpackCalls (n : ℕ) : FsProgram :=
  reporting (.root .openArchive 0) <|
    demanding .directory (.root .isDirectory 0) <|
      reporting (.root .canonical 0) <|
        extractEntriesCalls n (reporting (.root .remove 0) done) (List.range n)

/-- `remote_resource_to_local_path_transferor::transfer`; what the network service does without
reporting an error throws. -/
def pullCalls (isCollection : Bool) (n : ℕ) : FsProgram :=
  throwing (.root .lookup 0) <|
    throwing (.root .statGet 0) <|
      reporting (.root .statResponse 0) <|
        reporting (.root .tempfile 0) <|
          reporting (.root .mapBuffer 0) <|
            throwing (.root .expose 0) <|
              throwing (.root .pullGet 0) <|
                reporting (.root .pullResponse 0) <|
                  if isCollection then unpackCalls n else done

/-- The functions, with what their loops run over. -/
inductive FsFunction where
  | localCopy (n : ℕ)
  | getSize (n : ℕ)
  | packArchive (sources : List PackSource)
  | estimateSize (n : ℕ)
  | pull (isCollection : Bool) (n : ℕ)
deriving DecidableEq, Repr

/-- The calls of a function. -/
def FsFunction.program : FsFunction → FsProgram
  | localCopy n => Norns.localCopy n
  | getSize n => getSizeCalls n
  | packArchive sources => packArchiveCalls sources
  | estimateSize n => estimateCalls n
  | pull isCollection n => pullCalls isCollection n

/-- `local_path_resource::packed_size`: nothing after an error. -/
def packedSize (ec : ErrorCode) (sz : UInt64) : UInt64 := if ec ≠ 0 then 0 else sz

/-- The task ends in `finished_with_error` for what a function returns.  The archive is packed by
the `transfer` of a push, which then maps it and posts the request.  The code of a size query is
dropped by the constructor of `task_info`, and the task ends as its own calls do.  After an error
the estimate is nothing, and the peer that asks for it cannot map an output of that size.  After an
exception there is no daemon. -/
def FsFunction.TaskFails : FsFunction → Exit → Prop
  | localCopy _, .returned ec => (taskCopy 0 0 ec).status = .finishedWithError
  | getSize _, .returned _ => ∀ getEc newEc transferEc,
      (taskCopy getEc newEc transferEc).status = .finishedWithError
  | packArchive _, .returned ec => ∀ mapEc resp,
      (taskCopy 0 0 ((PushInitiator.localPath true ec mapEc).transfer resp)).status =
        .finishedWithError
  | estimateSize _, .returned ec => ∀ (i : PullInitiator) sz resp2,
      (packedSize ec sz = 0 → i.mapEc ≠ 0) →
        (taskCopy 0 0
          (i.transfer ⟨UrdError.success.toWord, 0, true, packedSize ec sz⟩ resp2)).status =
          .finishedWithError
  | pull _ _, .returned ec => (taskCopy 0 0 ec).status = .finishedWithError
  | _, .thrown _ => False

/-- A failure that the function meets ends in an error code, and so does the task. -/
def FsFunction.Reports (f : FsFunction) (os : FsCall → OsAnswer) : Prop :=
  (∃ c ∈ f.program.made os, c.Fails (os c)) →
    (∃ ec, ec ≠ 0 ∧ f.program.eval os = .returned ec) ∧ f.TaskFails (f.program.eval os)

/-! ### The calls one after the other -/

/-- A call with its overload. -/
abbrev PlannedCall := Overload × FsCall

section Plans

variable (os : FsCall → OsAnswer)

/-- The calls for an entry of a directory that is copied, and for the rest. -/
def copyEntryPlan (i : ℕ) (rest : List PlannedCall) : List PlannedCall :=
  let next : List PlannedCall := (.throwing, .entry .increment 0 i) :: rest
  (.throwing, .entry .relative 0 i) :: (.asking, .entry .isDirectory 0 i) ::
    if os (.entry .isDirectory 0 i) = .ok .directory then
      (.askingExists, .entry .dstExists 0 i) ::
        if (os (.entry .dstExists 0 i)).toOption = none then
          (.reporting, .entry .createDirectory 0 i) :: next
        else next
    else (.reporting, .entry .copyFile 0 i) :: next

/-- The calls for an entry of a directory whose size is asked for. -/
def sizeEntryPlan (i : ℕ) (rest : List PlannedCall) : List PlannedCall :=
  let next : List PlannedCall := (.throwing, .entry .increment 0 i) :: rest
  (.asking, .entry .isRegular 0 i) ::
    if os (.entry .isRegular 0 i) = .ok .regular then (.throwing, .entry .fileSize 0 i) :: next
    else next

/-- The calls for an entry of a directory that is packed. -/
def archiveEntryPlan (k i : ℕ) (rest : List PlannedCall) : List PlannedCall :=
  let next : List PlannedCall := (.throwing, .entry .increment k i) :: rest
  (.throwing, .entry .relative k i) :: (.asking, .entry .isRegular k i) ::
    if os (.entry .isRegular k i) = .ok .regular then (.reporting, .entry .append k i) :: next
    else
      (.asking, .entry .isDirectory k i) ::
        if os (.entry .isDirectory k i) = .ok .directory then
          (.reporting, .entry .append k i) :: next
        else next

/-- The calls for an entry of the estimate. -/
def estimateEntryPlan (i : ℕ) (rest : List PlannedCall) : List PlannedCall :=
  let next : List PlannedCall := (.throwing, .entry .increment 0 i) :: rest
  (.asking, .entry .isDirectory 0 i) ::
    if os (.entry .isDirectory 0 i) = .ok .directory then next
    else
      (.asking, .entry .isRegular 0 i) ::
        if os (.entry .isRegular 0 i) = .ok .regular then (.reporting, .entry .fileSize 0 i) :: next
        else
          (.asking, .entry .isSymlink 0 i) ::
            if os (.entry .isSymlink 0 i) = .ok .symlink then
              (.reporting, .entry .fileSize 0 i) :: next
            else next

/-- The calls for an entry of an archive that is unpacked. -/
def extractEntryPlan (i : ℕ) (rest : List PlannedCall) : List PlannedCall :=
  (.reporting, .entry .nextHeader 0 i) :: (.reporting, .entry .extract 0 i) :: rest

/-- The calls for the sources of an archive. -/
def sourcesPlan : ℕ → List PackSource → List PlannedCall
  | _, [] => [(.dropping, .root .closeArchive 0)]
  | k, some n :: sources =>
      let rest := sourcesPlan (k + 1) sources
      (.reporting, .root .canonical k) :: (.demanding .directory, .root .isDirectory k) ::
        (.reporting, .root .newEntry k) :: (.throwing, .root .relative k) ::
        (.reporting, .root .append k) :: (.throwing, .root .iterator k) ::
        (.dropping, .root .iteratorAgain k) ::
        if (os (.root .iteratorAgain k)).toOption = none then rest
        else (List.range n).foldr (archiveEntryPlan os k) rest
  | k, none :: sources =>
      (.reporting, .root .canonical k) :: (.demanding .regular, .root .isRegular k) ::
        (.reporting, .root .newEntry k) :: (.reporting, .root .append k) ::
        sourcesPlan (k + 1) sources

/-- The calls for an archive that is unpacked. -/
def unpackPlan (n : ℕ) : List PlannedCall :=
  (.reporting, .root .openArchive 0) :: (.demanding .directory, .root .isDirectory 0) ::
    (.reporting, .root .canonical 0) ::
    (List.range n).foldr extractEntryPlan
      [(.reporting, .entry .nextHeader 0 n), (.reporting, .root .remove 0)]

/-- The calls of a function up to its end, as long as none of them ends it: the types of the
objects decide which these are. -/
def FsFunction.plan : FsFunction → List PlannedCall
  | localCopy n =>
      (.asking, .root .isDirectory 0) ::
        if os (.root .isDirectory 0) = .ok .directory then
          (.reporting, .root .iterator 0) :: (List.range n).foldr (copyEntryPlan os) []
        else [(.reporting, .root .copyFile 0)]
  | getSize n =>
      (.reporting, .root .canonical 0) :: (.asking, .root .isDirectory 0) ::
        if os (.root .isDirectory 0) = .ok .directory then
          (.reporting, .root .iterator 0) :: (List.range n).foldr (sizeEntryPlan os) []
        else [(.reporting, .root .fileSize 0)]
  | packArchive sources =>
      (.throwing, .root .uniquePath 0) :: (.reporting, .root .openArchive 0) ::
        sourcesPlan os 0 sources
  | estimateSize n =>
      (.asking, .root .isDirectory 0) ::
        if os (.root .isDirectory 0) = .ok .directory then
          (.dropping, .root .iterator 0) ::
            if (os (.root .iterator 0)).toOption = none then []
            else (List.range n).foldr (estimateEntryPlan os) []
        else [(.throwing, .root .fileSize 0)]
  | pull isCollection n =>
      (.throwing, .root .lookup 0) :: (.throwing, .root .statGet 0) ::
        (.reporting, .root .statResponse 0) :: (.reporting, .root .tempfile 0) ::
        (.reporting, .root .mapBuffer 0) :: (.throwing, .root .expose 0) ::
        (.throwing, .root .pullGet 0) :: (.reporting, .root .pullResponse 0) ::
        if isCollection then unpackPlan n else []

/-- The answer to the call ends the function. -/
def PlannedCall.ends (call : PlannedCall) : Bool :=
  match call.1.handle (os call.2) with
  | .ends _ => true
  | _ => false

/-- How a function ends with these answers: by the first call that ends it. -/
def firstEnd (plan : List PlannedCall) : Option Exit :=
  plan.findSome? fun call =>
    match call.1.handle (os call.2) with
    | .ends x => some x
    | _ => none

/-- The calls up to the first that ends the function. -/
def reached : List PlannedCall → List FsCall
  | [] => []
  | call :: calls =>
      call.2 ::
        match call.1.handle (os call.2) with
        | .ends _ => []
        | _ => reached calls

end Plans

/-- A function makes the calls of a plan. -/
structure Executes (os : FsCall → OsAnswer) (p : FsProgram) (plan : List PlannedCall) : Prop where
  eval : p.eval os = (firstEnd os plan).getD (.returned 0)
  made : p.made os = reached os plan

namespace Executes

variable {os : FsCall → OsAnswer} {plan : List PlannedCall}

theorem done : Executes os done [] := ⟨rfl, rfl⟩

theorem callWith (o : Overload) (c : FsCall) {next : Option FileType → FsProgram}
    (h : Executes os (next (os c).toOption) plan) :
    Executes os (callWith o c next) ((o, c) :: plan) := by
  constructor
  · simp only [Norns.callWith, Program.eval, firstEnd, List.findSome?_cons]
    cases o.handle (os c) with
    | goesOn => exact h.eval
    | passes => exact h.eval
    | ends x => rfl
  · simp only [Norns.callWith, Program.made, reached, List.cons.injEq, true_and]
    cases o.handle (os c) with
    | goesOn => exact h.made
    | passes => exact h.made
    | ends x => rfl

theorem throwing (c : FsCall) {next : FsProgram} (h : Executes os next plan) :
    Executes os (throwing c next) ((.throwing, c) :: plan) := callWith .throwing c h

theorem reporting (c : FsCall) {next : FsProgram} (h : Executes os next plan) :
    Executes os (reporting c next) ((.reporting, c) :: plan) := callWith .reporting c h

theorem demanding (type : FileType) (c : FsCall) {next : FsProgram} (h : Executes os next plan) :
    Executes os (demanding type c next) ((.demanding type, c) :: plan) :=
  callWith (.demanding type) c h

/-- A test of the type of an object. -/
theorem type_ite {type : FileType} (c : FsCall) {p q : FsProgram} {planP planQ : List PlannedCall}
    (hp : Executes os p planP) (hq : Executes os q planQ) :
    Executes os (if (os c).toOption = some type then p else q)
      (if os c = .ok type then planP else planQ) := by
  have hiff : (os c).toOption = some type ↔ os c = .ok type := by
    cases os c <;> simp [Except.toOption]
  by_cases h : os c = .ok type
  · rw [if_pos (hiff.mpr h), if_pos h]
    exact hp
  · rw [if_neg (fun h' => h (hiff.mp h')), if_neg h]
    exact hq

/-- A test of a prop that both the function and the plan make. -/
theorem ite {P : Prop} [Decidable P] {p q : FsProgram} {planP planQ : List PlannedCall}
    (hp : Executes os p planP) (hq : Executes os q planQ) :
    Executes os (if P then p else q) (if P then planP else planQ) := by
  by_cases h : P
  · rw [if_pos h, if_pos h]
    exact hp
  · rw [if_neg h, if_neg h]
    exact hq

end Executes

section Functions

variable (os : FsCall → OsAnswer)

theorem copyEntries_executes (is : List ℕ) :
    Executes os (copyEntries is) (is.foldr (copyEntryPlan os) []) := by
  induction is with
  | nil => exact .done
  | cons i is ih =>
      have hnext := ih.throwing (.entry .increment 0 i)
      rw [List.foldr_cons, copyEntryPlan, copyEntries]
      exact .throwing _ (.callWith _ _ (.type_ite _
        (.callWith _ _ (.ite (hnext.reporting _) hnext)) (hnext.reporting _)))

theorem sizeEntries_executes (is : List ℕ) :
    Executes os (sizeEntries is) (is.foldr (sizeEntryPlan os) []) := by
  induction is with
  | nil => exact .done
  | cons i is ih =>
      have hnext := ih.throwing (.entry .increment 0 i)
      rw [List.foldr_cons, sizeEntryPlan, sizeEntries]
      exact .callWith _ _ (.type_ite _ (hnext.throwing _) hnext)

theorem archiveEntries_executes (k : ℕ) {rest : FsProgram} {plan : List PlannedCall}
    (hrest : Executes os rest plan) (is : List ℕ) :
    Executes os (archiveEntries k rest is) (is.foldr (archiveEntryPlan os k) plan) := by
  induction is with
  | nil => exact hrest
  | cons i is ih =>
      have hnext := ih.throwing (.entry .increment k i)
      rw [List.foldr_cons, archiveEntryPlan, archiveEntries]
      exact .throwing _ (.callWith _ _ (.type_ite _ (hnext.reporting _)
        (.callWith _ _ (.type_ite _ (hnext.reporting _) hnext))))

theorem estimateEntriesCalls_executes (is : List ℕ) :
    Executes os (estimateEntriesCalls is) (is.foldr (estimateEntryPlan os) []) := by
  induction is with
  | nil => exact .done
  | cons i is ih =>
      have hnext := ih.throwing (.entry .increment 0 i)
      rw [List.foldr_cons, estimateEntryPlan, estimateEntriesCalls]
      exact .callWith _ _ (.type_ite _ hnext (.callWith _ _ (.type_ite _ (hnext.reporting _)
        (.callWith _ _ (.type_ite _ (hnext.reporting _) hnext)))))

theorem packSources_executes (k : ℕ) (sources : List PackSource) :
    Executes os (packSources k sources) (sourcesPlan os k sources) := by
  induction sources generalizing k with
  | nil => exact .callWith _ _ .done
  | cons source sources ih =>
      have hrest := ih (k + 1)
      cases source with
      | none => exact .reporting _ (.demanding _ _ (.reporting _ (.reporting _ hrest)))
      | some n =>
          rw [packSources, addDirectoryCalls, sourcesPlan]
          exact .reporting _ (.demanding _ _ (.reporting _ (.throwing _ (.reporting _ (.throwing _
            (.callWith _ _ (.ite hrest (archiveEntries_executes os k hrest _))))))))

theorem extractEntriesCalls_executes (n : ℕ) {rest : FsProgram} {plan : List PlannedCall}
    (hrest : Executes os rest plan) (is : List ℕ) :
    Executes os (extractEntriesCalls n rest is)
      (is.foldr extractEntryPlan ((.reporting, .entry .nextHeader 0 n) :: plan)) := by
  induction is with
  | nil => exact .reporting _ hrest
  | cons i is ih => exact .reporting _ (.reporting _ ih)

theorem unpackCalls_executes (n : ℕ) : Executes os (unpackCalls n) (unpackPlan n) :=
  .reporting _ (.demanding _ _ (.reporting _
    (extractEntriesCalls_executes os n (.reporting _ .done) _)))

/-- Every function makes the calls of its plan. -/
theorem FsFunction.executes (f : FsFunction) : Executes os f.program (f.plan os) := by
  cases f with
  | localCopy n =>
      rw [program, Norns.localCopy, plan]
      refine .callWith _ _ ?_
      exact .type_ite _ (.reporting _ (copyEntries_executes os _)) (.reporting _ .done)
  | getSize n =>
      rw [program, getSizeCalls, plan]
      refine .reporting _ (.callWith _ _ ?_)
      exact .type_ite _ (.reporting _ (sizeEntries_executes os _)) (.reporting _ .done)
  | packArchive sources =>
      exact Executes.throwing _ (.reporting _ (packSources_executes os 0 sources))
  | estimateSize n =>
      rw [program, estimateCalls, plan]
      refine .callWith _ _ ?_
      refine .type_ite _ (.callWith _ _ ?_) (.throwing _ .done)
      exact .ite .done (estimateEntriesCalls_executes os _)
  | pull isCollection n =>
      have hend : Executes os (if isCollection then unpackCalls n else done)
          (if isCollection then unpackPlan n else []) :=
        .ite (unpackCalls_executes os n) .done
      exact Executes.throwing _ (.throwing _ (.reporting _ (.reporting _ (.reporting _
        (.throwing _ (.throwing _ (.reporting _ hend)))))))

end Functions

/-! ### Failures and error codes -/

/-- The plan asks whether the destination exists with the overload for that, and for nothing
else. -/
def PlannedCall.Matched (call : PlannedCall) : Prop :=
  call.1 = .askingExists ↔ call.2.name = .dstExists

section Matched

variable (os : FsCall → OsAnswer)

/-- What holds of the calls of an entry if it does of the rest, holds of those of all entries. -/
theorem foldr_forall {P : PlannedCall → Prop} {step : ℕ → List PlannedCall → List PlannedCall}
    (hstep : ∀ i rest, (∀ call ∈ rest, P call) → ∀ call ∈ step i rest, P call)
    {rest : List PlannedCall} (hrest : ∀ call ∈ rest, P call) (is : List ℕ) :
    ∀ call ∈ is.foldr step rest, P call := by
  induction is with
  | nil => exact hrest
  | cons i is ih => exact hstep i _ ih

theorem copyEntryPlan_matched (i : ℕ) (rest : List PlannedCall)
    (h : ∀ call ∈ rest, call.Matched) : ∀ call ∈ copyEntryPlan os i rest, call.Matched := by
  unfold copyEntryPlan
  split_ifs <;> simpa [PlannedCall.Matched, FsCall.name] using h

theorem sizeEntryPlan_matched (i : ℕ) (rest : List PlannedCall)
    (h : ∀ call ∈ rest, call.Matched) : ∀ call ∈ sizeEntryPlan os i rest, call.Matched := by
  unfold sizeEntryPlan
  split_ifs <;> simpa [PlannedCall.Matched, FsCall.name] using h

theorem archiveEntryPlan_matched (k i : ℕ) (rest : List PlannedCall)
    (h : ∀ call ∈ rest, call.Matched) : ∀ call ∈ archiveEntryPlan os k i rest, call.Matched := by
  unfold archiveEntryPlan
  split_ifs <;> simpa [PlannedCall.Matched, FsCall.name] using h

theorem estimateEntryPlan_matched (i : ℕ) (rest : List PlannedCall)
    (h : ∀ call ∈ rest, call.Matched) : ∀ call ∈ estimateEntryPlan os i rest, call.Matched := by
  unfold estimateEntryPlan
  split_ifs <;> simpa [PlannedCall.Matched, FsCall.name] using h

theorem extractEntryPlan_matched (i : ℕ) (rest : List PlannedCall)
    (h : ∀ call ∈ rest, call.Matched) : ∀ call ∈ extractEntryPlan i rest, call.Matched := by
  simpa [extractEntryPlan, PlannedCall.Matched, FsCall.name] using h

theorem sourcesPlan_matched (k : ℕ) (sources : List PackSource) :
    ∀ call ∈ sourcesPlan os k sources, call.Matched := by
  induction sources generalizing k with
  | nil => simp [sourcesPlan, PlannedCall.Matched, FsCall.name]
  | cons source sources ih =>
      have hrest := ih (k + 1)
      cases source with
      | none => simpa [sourcesPlan, PlannedCall.Matched, FsCall.name] using hrest
      | some n =>
          have hloop := foldr_forall (archiveEntryPlan_matched os k) hrest (List.range n)
          unfold sourcesPlan
          split_ifs
          · simpa [PlannedCall.Matched, FsCall.name] using hrest
          · simpa [PlannedCall.Matched, FsCall.name] using hloop

theorem FsFunction.plan_matched (f : FsFunction) : ∀ call ∈ f.plan os, call.Matched := by
  have hnil : ∀ call ∈ ([] : List PlannedCall), call.Matched := by simp
  cases f with
  | localCopy n =>
      have hloop := foldr_forall (copyEntryPlan_matched os) hnil (List.range n)
      rw [plan]
      split_ifs
      · simpa [PlannedCall.Matched, FsCall.name] using hloop
      · simp [PlannedCall.Matched, FsCall.name]
  | getSize n =>
      have hloop := foldr_forall (sizeEntryPlan_matched os) hnil (List.range n)
      rw [plan]
      split_ifs
      · simpa [PlannedCall.Matched, FsCall.name] using hloop
      · simp [PlannedCall.Matched, FsCall.name]
  | packArchive sources =>
      simpa [plan, PlannedCall.Matched, FsCall.name] using sourcesPlan_matched os 0 sources
  | estimateSize n =>
      have hloop := foldr_forall (estimateEntryPlan_matched os) hnil (List.range n)
      rw [plan]
      split_ifs
      · simp [PlannedCall.Matched, FsCall.name]
      · simpa [PlannedCall.Matched, FsCall.name] using hloop
      · simp [PlannedCall.Matched, FsCall.name]
  | pull isCollection n =>
      have hend : ∀ call ∈ ([(.reporting, .entry .nextHeader 0 n), (.reporting, .root .remove 0)] :
          List PlannedCall), call.Matched := by
        simp [PlannedCall.Matched, FsCall.name]
      have hloop := foldr_forall extractEntryPlan_matched hend (List.range n)
      rw [plan, unpackPlan]
      split_ifs
      · simpa [PlannedCall.Matched, FsCall.name] using hloop
      · simp [PlannedCall.Matched, FsCall.name]

/-- A size query demands no type. -/
theorem getSize_plan_demands (n : ℕ) :
    ∀ call ∈ (FsFunction.getSize n).plan os, ∀ type, call.1 ≠ .demanding type := by
  have hstep : ∀ i rest, (∀ call ∈ rest, ∀ type, call.1 ≠ .demanding type) →
      ∀ call ∈ sizeEntryPlan os i rest, ∀ type, call.1 ≠ .demanding type := by
    intro i rest h
    unfold sizeEntryPlan
    split_ifs <;> simpa using h
  have hloop : ∀ call ∈ (List.range n).foldr (sizeEntryPlan os) [],
      ∀ type, call.1 ≠ .demanding type := foldr_forall hstep (by simp) _
  rw [FsFunction.plan]
  split_ifs
  · simpa using hloop
  · simp

end Matched

section Handling

variable {os : FsCall → OsAnswer} {call : PlannedCall} {plan : List PlannedCall}

/-- A failure is passed over, or it ends the function. -/
theorem PlannedCall.not_goesOn_of_fails (hm : call.Matched) (h : call.2.Fails (os call.2)) :
    call.1.handle (os call.2) ≠ .goesOn := by
  obtain ⟨e, he, hne⟩ := h
  rw [he]
  obtain ⟨o, c⟩ := call
  cases o with
  | throwing => exact fun h => Handling.noConfusion h
  | reporting => exact fun h => Handling.noConfusion h
  | dropping => exact fun h => Handling.noConfusion h
  | asking =>
      simp only [Overload.handle]
      split_ifs <;> exact fun h => Handling.noConfusion h
  | askingExists =>
      have hnot : ¬ NotFound e := fun h => hne ⟨hm.mp rfl, h⟩
      simp only [Overload.handle, if_neg hnot]
      exact fun h => Handling.noConfusion h
  | demanding type =>
      simp only [Overload.handle]
      split_ifs <;> exact fun h => Handling.noConfusion h

/-- What is not gone on after normally is a failure, or an object of the wrong type. -/
theorem PlannedCall.fails_or_demands (hm : call.Matched)
    (h : call.1.handle (os call.2) ≠ .goesOn) : call.2.Fails (os call.2) ∨
      (∃ type, call.1 = .demanding type) ∧
        call.1.handle (os call.2) = .ends (.returned EINVAL) := by
  obtain ⟨o, c⟩ := call
  cases ha : os c with
  | error e =>
      refine .inl ⟨e, rfl, ?_⟩
      rintro ⟨hname, hnot⟩
      have ho : o = .askingExists := hm.mpr hname
      apply h
      simp only [ho, ha, Overload.handle, if_pos hnot]
  | ok type =>
      right
      simp only [ha] at h ⊢
      cases o with
      | demanding type' =>
          simp only [Overload.handle] at h ⊢
          split_ifs at h ⊢
          · exact absurd rfl h
          · exact ⟨⟨type', rfl⟩, rfl⟩
      | _ => exact absurd rfl h

theorem mem_plan_of_reached {c : FsCall} (h : c ∈ reached os plan) : ∃ o, (o, c) ∈ plan := by
  induction plan with
  | nil => cases h
  | cons call plan ih =>
      rw [reached, List.mem_cons] at h
      rcases h with rfl | h
      · exact ⟨call.1, List.mem_cons_self⟩
      · cases hc : call.1.handle (os call.2) with
        | ends x =>
            rw [hc] at h
            cases h
        | goesOn =>
            rw [hc] at h
            obtain ⟨o, ho⟩ := ih h
            exact ⟨o, List.mem_cons_of_mem _ ho⟩
        | passes =>
            rw [hc] at h
            obtain ⟨o, ho⟩ := ih h
            exact ⟨o, List.mem_cons_of_mem _ ho⟩

/-- The call that ends the function is made. -/
theorem find_of_firstEnd {x : Exit} (h : firstEnd os plan = some x) :
    ∃ call, plan.find? (·.ends os) = some call ∧ call.2 ∈ reached os plan ∧
      call.1.handle (os call.2) = .ends x := by
  induction plan with
  | nil => cases h
  | cons call plan ih =>
      rw [firstEnd, List.findSome?_cons] at h
      rw [reached, List.find?_cons]
      cases hc : call.1.handle (os call.2) with
      | ends y =>
          simp only [hc, Option.some.injEq] at h
          simp only [PlannedCall.ends, hc]
          exact ⟨call, rfl, List.mem_cons_self, by rw [hc, h]⟩
      | _ =>
          simp only [hc] at h
          obtain ⟨call', hfind, hreached, hends⟩ := ih h
          simp only [PlannedCall.ends, hc]
          exact ⟨call', hfind, List.mem_cons_of_mem _ hreached, hends⟩

theorem find_of_firstEnd_none (h : firstEnd os plan = none) :
    plan.find? (·.ends os) = none := by
  rw [List.find?_eq_none]
  intro call hmem
  have hcall := List.findSome?_eq_none_iff.mp h call hmem
  unfold PlannedCall.ends
  split
  · next x hx =>
      rw [hx] at hcall
      cases hcall
  · exact Bool.false_ne_true

/-- If no call ends the function, all of them are made. -/
theorem reached_of_firstEnd_none (h : firstEnd os plan = none) (hmem : call ∈ plan) :
    call.2 ∈ reached os plan ∧ ∀ x, call.1.handle (os call.2) ≠ .ends x := by
  induction plan with
  | nil => cases hmem
  | cons call' plan ih =>
      rw [firstEnd, List.findSome?_cons] at h
      rw [reached]
      cases hc : call'.1.handle (os call'.2) with
      | ends y =>
          simp only [hc] at h
          cases h
      | _ =>
          simp only [hc] at h
          rcases List.mem_cons.mp hmem with rfl | hmem
          · exact ⟨List.mem_cons_self, fun x hx => by rw [hc] at hx; cases hx⟩
          · exact ⟨List.mem_cons_of_mem _ (ih h hmem).1, (ih h hmem).2⟩

end Handling

/-- The error of the call is looked at, and it has a number. -/
def Overload.Looks : Overload → OsAnswer → Prop
  | .reporting, .error e => e ≠ 0
  | .demanding _, .error e => NotFound e
  | .demanding _, .ok _ => True
  | _, _ => False

theorem Overload.looks_iff {o : Overload} {a : OsAnswer} {x : Exit} (h : o.handle a = .ends x) :
    o.Looks a ↔ ∃ ec, ec ≠ 0 ∧ x = .returned ec := by
  have hinval : EINVAL ≠ 0 := by decide
  revert h
  cases a with
  | ok type =>
      cases o <;> simp [handle, Looks]
      grind
  | error e => cases o <;> simp [handle, Looks] <;> grind

/-- The caller makes something of the code; the constructor of `task_info` does not. -/
def FsFunction.CallerLooks : FsFunction → Prop
  | getSize _ => False
  | _ => True

/-- The first call that ends the function is one whose error is looked at, as is the code that the
function returns; and if no call ends it then no failure is passed over. -/
structure FsFunction.Handles (f : FsFunction) (os : FsCall → OsAnswer) : Prop where
  ends : ∀ call, (f.plan os).find? (·.ends os) = some call →
    call.1.Looks (os call.2) ∧ f.CallerLooks
  passes : (f.plan os).find? (·.ends os) = none →
    ∀ call ∈ f.plan os, call.1.handle (os call.2) ≠ .passes

/-- A task whose transfer returns an error ends with it. -/
theorem FsFunction.taskFails_of_ne_zero (f : FsFunction) (hf : f.CallerLooks) {ec : ErrorCode}
    (h : ec ≠ 0) : f.TaskFails (.returned ec) := by
  cases f with
  | localCopy n => exact transferTask_of_ne_zero 0 0 h
  | getSize n => exact absurd hf id
  | packArchive sources =>
      intro mapEc resp
      have hne : (PushInitiator.localPath true ec mapEc).transfer resp ≠ 0 := by
        simp only [PushInitiator.transfer, if_true]
        by_cases hmap : mapEc = 0
        · simp [hmap, h]
        · simp [hmap]
      exact transferTask_of_ne_zero 0 0 hne
  | estimateSize n =>
      intro i sz resp2 hmap
      have hmapEc : i.mapEc ≠ 0 := hmap (if_pos h)
      refine transferTask_of_ne_zero 0 0 ?_
      rw [PullInitiator.transfer, if_neg (not_not.mpr rfl)]
      split_ifs with htemp
      · exact htemp
      · exact hmapEc
  | pull isCollection n => exact transferTask_of_ne_zero 0 0 h

theorem FsFunction.callerLooks_of_taskFails {f : FsFunction} {x : Exit} (h : f.TaskFails x) :
    f.CallerLooks := by
  cases f with
  | getSize n =>
      cases x with
      | returned ec => exact absurd (h 0 0 0) (by decide)
      | thrown ec => exact h
  | _ => trivial

/-- Every call succeeds and every object is a directory, but for one call. -/
def failingAt (c : FsCall) (e : ErrorCode) : FsCall → OsAnswer := fun c' =>
  if c' = c then .error e else .ok .directory

/-- What is asked about a FIFO, whose size cannot be told. -/
def fifoAnswers : FsCall → OsAnswer := fun c =>
  if c.name = .fileSize then .error EPERM else .ok .other

/-- The answer that stands for an error code. -/
def answerOf (ec : ErrorCode) : OsAnswer := if ec = 0 then .ok .directory else .error ec

/-- The answers of an initiator whose peer responds; what fails in `unpack_archive` fails when it
opens the archive. -/
def PullInitiator.answers (i : PullInitiator) (resp : StatOutput) (resp2 : TransferOutput)
    (c : FsCall) : OsAnswer :=
  match c.name with
  | .statResponse =>
      if resp.taskError = UrdError.success.toWord then .ok .directory
      else .error (errcOfWord resp.sysErrnum)
  | .tempfile => answerOf i.tempfileEc
  | .mapBuffer => answerOf i.mapEc
  | .pullResponse =>
      if resp2.status = TaskStatus.finishedWithError.toWord then .error (errcOfWord resp2.sysErrnum)
      else .ok .directory
  | .openArchive => answerOf i.unpackEc
  | _ => .ok .directory

/-- Calls that succeed do not end a function. -/
theorem firstEnd_cons_ok {os : FsCall → OsAnswer} {call : PlannedCall} {plan : List PlannedCall}
    (h : call.1.handle (os call.2) = .goesOn) : firstEnd os (call :: plan) = firstEnd os plan := by
  rw [firstEnd, List.findSome?_cons, h]
  rfl

theorem firstEnd_cons_reporting {os : FsCall → OsAnswer} {c : FsCall} {plan : List PlannedCall}
    {ec : ErrorCode} (h : os c = .error ec) :
    firstEnd os ((.reporting, c) :: plan) = some (.returned ec) := by
  rw [firstEnd, List.findSome?_cons, h]
  rfl

/-- The codes of the pull are those of `PullInitiator.transfer`. -/
theorem pullCalls_eval (i : PullInitiator) (resp : StatOutput) (resp2 : TransferOutput) (n : ℕ) :
    (pullCalls resp.isCollection n).eval (i.answers resp resp2) =
      .returned (i.transfer resp resp2) := by
  have hloop (is : List ℕ) : firstEnd (i.answers resp resp2) (is.foldr extractEntryPlan
      [(.reporting, .entry .nextHeader 0 n), (.reporting, .root .remove 0)]) = none := by
    induction is with
    | nil => rfl
    | cons j is ih =>
        rw [List.foldr_cons, extractEntryPlan, firstEnd_cons_ok rfl, firstEnd_cons_ok rfl]
        exact ih
  have hok (c : FsCall) {plan : List PlannedCall} (h : i.answers resp resp2 c = .ok .directory) :
      firstEnd (i.answers resp resp2) ((.reporting, c) :: plan) =
        firstEnd (i.answers resp resp2) plan :=
    firstEnd_cons_ok (by simp only [h, Overload.handle])
  have heval := ((FsFunction.pull resp.isCollection n).executes (i.answers resp resp2)).eval
  rw [FsFunction.program] at heval
  rw [heval, FsFunction.plan, firstEnd_cons_ok rfl, firstEnd_cons_ok rfl, PullInitiator.transfer]
  by_cases hstat : resp.taskError = UrdError.success.toWord
  swap
  · rw [firstEnd_cons_reporting (if_neg hstat), if_pos hstat]
    rfl
  rw [hok (.root .statResponse 0) (if_pos hstat), if_neg (not_not.mpr hstat)]
  by_cases htemp : i.tempfileEc = 0
  swap
  · rw [firstEnd_cons_reporting (if_neg htemp), if_pos htemp]
    rfl
  rw [hok (.root .tempfile 0) (if_pos htemp), if_neg (not_not.mpr htemp)]
  by_cases hmap : i.mapEc = 0
  swap
  · rw [firstEnd_cons_reporting (if_neg hmap), if_pos hmap]
    rfl
  rw [hok (.root .mapBuffer 0) (if_pos hmap), if_neg (not_not.mpr hmap), firstEnd_cons_ok rfl,
    firstEnd_cons_ok rfl]
  by_cases hpull : resp2.status = TaskStatus.finishedWithError.toWord
  · rw [firstEnd_cons_reporting (if_pos hpull), if_pos hpull]
    rfl
  rw [hok (.root .pullResponse 0) (if_neg hpull), if_neg hpull]
  by_cases hcoll : resp.isCollection
  swap
  · rw [if_neg hcoll, if_neg hcoll]
    rfl
  rw [if_pos hcoll, if_pos hcoll, unpackPlan]
  by_cases hunpack : i.unpackEc = 0
  · rw [hok (.root .openArchive 0) (if_pos hunpack), firstEnd_cons_ok rfl, firstEnd_cons_ok rfl,
      hloop, hunpack]
    rfl
  · rw [firstEnd_cons_reporting (if_neg hunpack)]
    rfl

end Norns
