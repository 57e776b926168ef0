import Norns.Rpc

/-! # Transfers between daemons

The side that starts a push or a pull: the `transfer` functions of the three transferors that talk
to a peer, and the copy and move tasks that call them.  A response has a status, an error of the
daemon and an error number of the system; the initiator decides by the first whether the transfer
failed, and returns the last as its error code.  A response that reports an error with the number
zero is therefore a success.

`error_propagation_iff` says for which requests every response that can be sent reaches the task of
the initiator.  The exchange is that of `Norns.Rpc`: the responses are the ones that some run of the
handler and its callback sends. -/

namespace Norns

open Lib

/-! ### Tasks of the initiator -/

/-- The body of `task<copy>` and `task<move>`, as far as the errors of `get_resource`,
`new_resource` and `transfer` determine how the task ends. -/
def transferTask (getEc newEc transferEc : ErrorCode) : TaskOutcome :=
  if getEc ≠ 0 then .logError getEc
  else if newEc ≠ 0 then .logError newEc
  else if transferEc ≠ 0 then .logError transferEc
  else .finished

def taskCopy := transferTask
def taskMove := transferTask

theorem transferTask_of_ne_zero (getEc newEc : ErrorCode) {ec : ErrorCode} (h : ec ≠ 0) :
    (transferTask getEc newEc ec).status = .finishedWithError := by
  unfold transferTask
  split_ifs <;> rfl

/-! ### Transferors -/

/-- `std::make_error_code(static_cast<std::errc>(-1))`, for an exception of the network. -/
def NETWORK_EXCEPTION : ErrorCode := -1

/-- The end of both pushing `transfer` functions; `none` is an exception. -/
def pushResult : Option TransferOutput → ErrorCode
  | none => NETWORK_EXCEPTION
  | some resp =>
      if resp.status = TaskStatus.finishedWithError.toWord then errcOfWord resp.sysErrnum else 0

/-- What the two pushing `transfer` functions meet before they post the request. -/
inductive PushInitiator where
  | localPath (isCollection : Bool) (packEc mapEc : ErrorCode)
  | memoryRegion (tempfileEc mapEc copyEc protectEc : ErrorCode)
deriving DecidableEq, Repr

/-- `local_path_to_remote_resource_transferor::transfer` and
`memory_region_to_remote_resource_transferor::transfer`. -/
def PushInitiator.transfer (i : PushInitiator) (resp : Option TransferOutput) : ErrorCode :=
  match i with
  | localPath isCollection packEc mapEc =>
      let packEc := if isCollection then packEc else 0
      let ec := if mapEc ≠ 0 then mapEc else packEc
      if ec ≠ 0 then ec else pushResult resp
  | memoryRegion tempfileEc mapEc copyEc protectEc =>
      if tempfileEc ≠ 0 then tempfileEc
      else if mapEc ≠ 0 then mapEc
      else if copyEc ≠ 0 then copyEc
      else if protectEc ≠ 0 then protectEc
      else pushResult resp

/-- What a pulling `transfer` meets besides the two responses. -/
structure PullInitiator where
  tempfileEc : ErrorCode
  mapEc : ErrorCode
  unpackEc : ErrorCode
deriving DecidableEq, Repr

/-- `remote_resource_to_local_path_transferor::transfer`. -/
def PullInitiator.transfer (i : PullInitiator) (resp : StatOutput) (resp2 : TransferOutput) :
    ErrorCode :=
  if resp.taskError ≠ UrdError.success.toWord then errcOfWord resp.sysErrnum
  else if i.tempfileEc ≠ 0 then i.tempfileEc
  else if i.mapEc ≠ 0 then i.mapEc
  else if resp2.status = TaskStatus.finishedWithError.toWord then errcOfWord resp2.sysErrnum
  else if resp.isCollection then i.unpackEc
  else 0

/-! ### Propagation of errors -/

/-- A failure that a peer reports makes `transfer` return an error, and the task of the initiator
ends with one; conversely, the task ends without one only if the peer reported success. -/
structure Propagates (failed succeeded : Prop) (transferEc : ErrorCode) : Prop where
  nonzero : failed → transferEc ≠ 0
  task : ∀ getEc newEc, failed → (transferTask getEc newEc transferEc).status = .finishedWithError
  finished : ∀ getEc newEc,
    (transferTask getEc newEc transferEc).status = .finished → succeeded

theorem propagates_of {failed succeeded : Prop} {ec : ErrorCode} (h : failed → ec ≠ 0)
    (hor : failed ∨ succeeded) : Propagates failed succeeded ec where
  nonzero := h
  task getEc newEc hf := transferTask_of_ne_zero getEc newEc (h hf)
  finished getEc newEc hfin := by
    obtain hf | hs := hor
    · rw [transferTask_of_ne_zero getEc newEc (h hf)] at hfin
      cases hfin
    · exact hs

/-- Every response to a push reaches the initiator. -/
def PushPropagates (env : InboundEnv) (args : PushArgs) : Prop :=
  ∀ s, Run (pushResourceHandler env args) TransferState.init s → ∀ r ∈ s.responses,
    ∀ i : PushInitiator, Propagates (r.status = TaskStatus.finishedWithError.toWord)
      (r.status = TaskStatus.finished.toWord) (i.transfer (some r))

/-- Every response to a pull, which follows a successful stat, reaches the initiator. -/
def PullPropagates (env : InboundEnv) (args : PullArgs) : Prop :=
  ∀ s, Run (pullResourceHandler env args) TransferState.init s → ∀ r ∈ s.responses,
    ∀ (i : PullInitiator) (stat : StatOutput), stat.taskError = UrdError.success.toWord →
    Propagates (r.status = TaskStatus.finishedWithError.toWord)
      (r.status = TaskStatus.finished.toWord) (i.transfer stat r)

/-- Every response to a stat reaches the initiator, whatever a pull would be answered. -/
def StatPropagates (env : StatEnv) (args : StatArgs) : Prop :=
  ∀ s, Run (statResourceHandler env args) StatState.init s → ∀ r ∈ s.responses,
    ∀ (i : PullInitiator) (pull : TransferOutput),
    Propagates (r.taskError ≠ UrdError.success.toWord) (r.taskError = UrdError.success.toWord)
      (i.transfer r pull)

theorem errcOfWord_ne_zero {w : UInt32} (h : w ≠ 0) : errcOfWord w ≠ 0 :=
  fun he => h (errcOfWord_eq_zero.mp he)

theorem finished_ne_finishedWithError :
    TaskStatus.finished.toWord ≠ TaskStatus.finishedWithError.toWord := by decide

/-- The error number of an honest response to a push arrives. -/
theorem pushResult_ne_zero {r : TransferOutput} (h : r.Honest)
    (hst : r.status = TaskStatus.finishedWithError.toWord) : pushResult (some r) ≠ 0 := by
  obtain ⟨-, hsys⟩ | hfin := h
  · simp only [pushResult, if_pos hst]
    exact errcOfWord_ne_zero hsys
  · exact absurd (hfin.symm.trans hst) finished_ne_finishedWithError

theorem PushInitiator.transfer_ne_zero (i : PushInitiator) {resp : Option TransferOutput}
    (h : pushResult resp ≠ 0) : i.transfer resp ≠ 0 := by
  cases i with
  | localPath coll packEc mapEc =>
      simp only [PushInitiator.transfer]
      generalize (if mapEc ≠ 0 then mapEc else if coll = true then packEc else 0) = ec
      split_ifs with hec
      · exact hec
      · exact h
  | memoryRegion tempfileEc mapEc copyEc protectEc =>
      simp only [PushInitiator.transfer]
      split_ifs <;> assumption

theorem PullInitiator.transfer_ne_zero_of_stat (i : PullInitiator) {stat : StatOutput}
    (pull : TransferOutput) (hst : stat.taskError ≠ UrdError.success.toWord)
    (hsys : stat.sysErrnum ≠ 0) : i.transfer stat pull ≠ 0 := by
  unfold PullInitiator.transfer
  rw [if_pos hst]
  exact errcOfWord_ne_zero hsys

theorem PullInitiator.transfer_ne_zero_of_pull (i : PullInitiator) {stat : StatOutput}
    {pull : TransferOutput} (h : pull.Honest) (hstat : stat.taskError = UrdError.success.toWord)
    (hst : pull.status = TaskStatus.finishedWithError.toWord) : i.transfer stat pull ≠ 0 := by
  unfold PullInitiator.transfer
  rw [if_neg (not_not.mpr hstat), if_pos hst]
  split_ifs with htmp hmap
  · exact htmp
  · exact hmap
  · obtain ⟨-, hsys⟩ | hfin := h
    · exact errcOfWord_ne_zero hsys
    · exact absurd (hfin.symm.trans hst) finished_ne_finishedWithError

theorem TransferOutput.Honest.or {r : TransferOutput} (h : r.Honest) :
    r.status = TaskStatus.finishedWithError.toWord ∨ r.status = TaskStatus.finished.toWord :=
  h.imp And.left id

/-- A refused push or pull is answered with an error without a number. -/
theorem refused_answer {env : InboundEnv} {req : Inbound} (h : req.Refused env) :
    ∃ s e, Run (TransferStep env req) TransferState.init s ∧ errorOutput e 0 ∈ s.responses := by
  by_cases hp : env.isPaused = true
  · refine ⟨⟨.returned, .spent, [errorOutput .acceptPaused 0]⟩, _,
      Relation.ReflTransGen.single (Or.inl ?_), List.mem_singleton.mpr rfl⟩
    simp only [handlerNext, TransferState.init, if_pos hp]
    rfl
  · have hf := h.resolve_left hp
    refine ⟨⟨.returned, .spent, [errorOutput .noSuchNamespace 0]⟩, _,
      Relation.ReflTransGen.single (Or.inl ?_), List.mem_singleton.mpr rfl⟩
    simp only [handlerNext, TransferState.init, if_neg hp, hf]
    rfl

/-- The responses to a request that is not refused are honest. -/
theorem honest_of_not_refused {env : InboundEnv} {req : Inbound} {s : TransferState}
    {r : TransferOutput} (h : ¬ req.Refused env)
    (hrun : Run (TransferStep env req) TransferState.init s) (hr : r ∈ s.responses) : r.Honest :=
  ((Run.invariant TransferState.Inv.step hrun .ofInit).honest r hr).resolve_left h

theorem pushPropagates_iff (env : InboundEnv) (args : PushArgs) :
    PushPropagates env args ↔ ¬ (Inbound.push args).Refused env := by
  constructor
  · intro h href
    obtain ⟨s, e, hrun, hr⟩ := refused_answer href
    exact (h s hrun _ hr (.localPath false 0 0)).nonzero rfl rfl
  · intro h s hrun r hr i
    have hhon := honest_of_not_refused h hrun hr
    exact propagates_of (fun hst => i.transfer_ne_zero (pushResult_ne_zero hhon hst)) hhon.or

theorem pullPropagates_iff (env : InboundEnv) (args : PullArgs) :
    PullPropagates env args ↔ ¬ (Inbound.pull args).Refused env := by
  constructor
  · intro h href
    obtain ⟨s, e, hrun, hr⟩ := refused_answer href
    exact (h s hrun _ hr ⟨0, 0, 0⟩ ⟨0, 0, false, 0⟩ rfl).nonzero rfl rfl
  · intro h s hrun r hr i stat hstat
    have hhon := honest_of_not_refused h hrun hr
    exact propagates_of (i.transfer_ne_zero_of_pull hhon hstat) hhon.or

theorem statPropagates_iff (env : StatEnv) (args : StatArgs) :
    StatPropagates env args ↔ env.namespaceMgr.find args.nsid false ≠ none := by
  constructor
  · intro h hf
    have hstep : statResourceHandler env args StatState.init
        ⟨.returned, .spent, [⟨UrdError.noSuchNamespace.toWord, 0, ENOENT ≠ 0, 0⟩]⟩ := by
      simp only [statResourceHandler, statNext, StatState.init, hf]
      rfl
    exact (h _ (Relation.ReflTransGen.single hstep) _ (List.mem_singleton.mpr rfl) ⟨0, 0, 0⟩
      ⟨0, 0, 0, 0⟩).nonzero (by decide) rfl
  · intro h s hrun r hr i pull
    have hhon : r.Honest := by
      cases Run.invariant StatState.Inv.step hrun .entry with
      | entry => cases hr
      | resource _ => cases hr
      | crashed _ => cases hr
      | answered _ hor =>
          rw [List.mem_singleton.mp hr]
          exact hor.resolve_left h
    exact propagates_of
      (fun hne => i.transfer_ne_zero_of_stat pull hne (hhon.resolve_left hne)) (Decidable.em _).symm

/-- **Errors are propagated between daemons** exactly for the requests that the responder does not
refuse at the door: for a push or a pull it is neither paused nor without the namespace, for a
stat it has the namespace. -/
theorem error_propagation_iff (env : InboundEnv) (statEnv : StatEnv) (push : PushArgs)
    (pull : PullArgs) (stat : StatArgs) :
    (PushPropagates env push ↔ ¬ (Inbound.push push).Refused env) ∧
    (PullPropagates env pull ↔ ¬ (Inbound.pull pull).Refused env) ∧
    (StatPropagates statEnv stat ↔ statEnv.namespaceMgr.find stat.nsid false ≠ none) :=
  ⟨pushPropagates_iff env push, pullPropagates_iff env pull, statPropagates_iff statEnv stat⟩

/-- A push to a paused daemon: the response reports an error, and the copy of the initiator ends
as finished. -/
theorem paused_push_finishes :
    let env : InboundEnv := { InboundEnv.sample with isPaused := true }
    let args : PushArgs := ⟨"node0", "tmp1", "tmp0", 1, false, "a", "b", [16]⟩
    (∃ s r, Run (pushResourceHandler env args) TransferState.init s ∧ r ∈ s.responses ∧
      r.status = TaskStatus.finishedWithError.toWord ∧
      (taskCopy 0 0 ((PushInitiator.localPath false 0 0).transfer (some r))).status = .finished) ∧
    ¬ PushPropagates env args := by
  intro env args
  have hstep : pushResourceHandler env args TransferState.init
      ⟨.returned, .spent, [errorOutput .acceptPaused 0]⟩ := Or.inl rfl
  refine ⟨⟨_, _, Relation.ReflTransGen.single hstep, List.mem_singleton.mpr rfl, rfl, rfl⟩, ?_⟩
  intro h
  exact (h _ (Relation.ReflTransGen.single hstep) _ (List.mem_singleton.mpr rfl)
    (.localPath false 0 0)).nonzero rfl rfl

end Norns
