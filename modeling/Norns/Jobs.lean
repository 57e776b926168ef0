import Norns.Lib.Mealy
import Norns.Session

/-! # The registry of jobs

The control API registers jobs and adds processes to them.  A process is named by its user, its
group and its process id, which travel in fields of 64 bits; the daemon keeps 32 bits of the group
and of the process id, and does not look at the user.

* `Registry` says what the registry is for: a map from job ids to the hosts and the processes of a
  job, and `Registry.step` the answer to each request.
* `Daemon.serve` is the way of a message through decoder, dispatcher and handler.
* `job_registry_refines_iff`: the requests for which the daemon answers like the map. -/

namespace Norns

open Lib

/-! ### Requests -/

/-- The requests on jobs and processes, with what their messages carry. -/
inductive JobRequest where
  | register (jobid : UInt32) (hosts : List String)
  | update (jobid : UInt32) (hosts : List String)
  | unregister (jobid : UInt32)
  | addProcess (jobid : UInt32) (process : ProcessMsg)
  | removeProcess (jobid : UInt32) (process : ProcessMsg)
deriving DecidableEq, Repr

namespace JobRequest

def jobid : JobRequest → UInt32
  | register jobid _ => jobid
  | update jobid _ => jobid
  | unregister jobid => jobid
  | addProcess jobid _ => jobid
  | removeProcess jobid _ => jobid

/-- The message that `build_request_msg` makes. -/
def toMsg : JobRequest → RequestMsg
  | register jobid hosts => ⟨.jobRegister, none, some jobid, some hosts, none, none, none⟩
  | update jobid hosts => ⟨.jobUpdate, none, some jobid, some hosts, none, none, none⟩
  | unregister jobid => ⟨.jobUnregister, none, some jobid, none, none, none, none⟩
  | addProcess jobid process => ⟨.processAdd, none, some jobid, none, some process, none, none⟩
  | removeProcess jobid process =>
      ⟨.processRemove, none, some jobid, none, some process, none, none⟩

end JobRequest

/-- The process descriptor for the arguments of `nornsctl_add_process` and
`nornsctl_remove_process`: `uid_t` and `gid_t` are unsigned, `pid_t` is signed. -/
def ProcessMsg.ofIds (uid gid : UInt32) (pid : Int32) : ProcessMsg :=
  ⟨uid.toUInt64.toInt64, gid.toUInt64.toInt64, pid.toInt64⟩

/-- The key under which a job keeps a process. -/
def ProcessMsg.key (p : ProcessMsg) : UInt32 × UInt32 := (idOfInt64 p.pid, idOfInt64 p.gid)

/-- The ids of the API arrive unchanged: the key has its group and process id. -/
theorem ProcessMsg.key_ofIds (uid gid : UInt32) (pid : Int32) :
    (ProcessMsg.ofIds uid gid pid).key = (pid.toUInt32, gid) := by
  refine Prod.ext ?_ ?_
  · show pid.toInt64.toUInt64.toUInt32 = pid.toUInt32
    apply UInt32.toBitVec_inj.mp
    show (BitVec.signExtend 64 pid.toBitVec).setWidth 32 = pid.toBitVec
    apply BitVec.eq_of_getLsbD_eq
    intro i hi
    rw [BitVec.getLsbD_setWidth, BitVec.getLsbD_signExtend]
    simp [hi, show i < 64 by omega]
  · show gid.toUInt64.toUInt32 = gid
    exact UInt32.toUInt32_toUInt64 gid

/-- The way of a request through the daemon: decoder, dispatcher, handler. -/
def Daemon.serve (env : SessionEnv) (d : Daemon) (msg : RequestMsg) :
    Daemon × Except DispatchError Response :=
  match decodeRequest msg with
  | .error f => (d, .error (.fault f))
  | .ok req =>
      match callbackFor req with
      | .error e => (d, .error e)
      | .ok h =>
          match d.call env h req with
          | .error f => (d, .error (.fault f))
          | .ok (d', resp) => (d', .ok resp)

/-! ### The reference -/

/-- A job: its hosts and its processes. -/
structure RegisteredJob where
  hosts : List String
  processes : Finset ProcessMsg

/-- A map from job ids to jobs. -/
abbrev Registry := UInt32 → Option RegisteredJob

/-- The answer to a request, and what becomes of the job that it names. -/
def RegisteredJob.serve : Option RegisteredJob → JobRequest → Option RegisteredJob × Response
  | none, .register _ hosts => (some ⟨hosts, ∅⟩, ⟨.jobRegister, .success⟩)
  | some job, .register _ _ => (some job, ⟨.jobRegister, .jobExists⟩)
  | none, .update _ _ => (none, ⟨.jobUpdate, .noSuchJob⟩)
  | some job, .update _ hosts => (some { job with hosts := hosts }, ⟨.jobUpdate, .success⟩)
  | none, .unregister _ => (none, ⟨.jobUnregister, .noSuchJob⟩)
  | some _, .unregister _ => (none, ⟨.jobUnregister, .success⟩)
  | none, .addProcess _ _ => (none, ⟨.processRegister, .noSuchJob⟩)
  | some job, .addProcess _ p =>
      (some { job with processes := insert p job.processes }, ⟨.processRegister, .success⟩)
  | none, .removeProcess _ _ => (none, ⟨.processUnregister, .noSuchJob⟩)
  | some job, .removeProcess _ p =>
      (some { job with processes := job.processes.erase p },
       ⟨.processUnregister, if p ∈ job.processes then .success else .noSuchProcess⟩)

/-- A request changes the job that it names. -/
def Registry.step (m : Registry) (r : JobRequest) : Registry × Response :=
  let (job, resp) := RegisteredJob.serve (m r.jobid) r
  (Function.update m r.jobid job, resp)

/-! ### The daemon, job by job -/

/-- What the handlers make of the job that a request names. -/
def Job.serve : Option Job → JobRequest → Option Job × Response
  | none, .register _ hosts => (some ⟨hosts, ∅⟩, ⟨.jobRegister, .success⟩)
  | some job, .register _ _ => (some job, ⟨.jobRegister, .jobExists⟩)
  | none, .update _ _ => (none, ⟨.jobUpdate, .noSuchJob⟩)
  | some job, .update _ hosts => (some (job.update hosts), ⟨.jobUpdate, .success⟩)
  | none, .unregister _ => (none, ⟨.jobUnregister, .noSuchJob⟩)
  | some _, .unregister _ => (none, ⟨.jobUnregister, .success⟩)
  | none, .addProcess _ _ => (none, ⟨.processRegister, .noSuchJob⟩)
  | some job, .addProcess _ p =>
      (some (job.addProcess p.key.1 p.key.2), ⟨.processRegister, .success⟩)
  | none, .removeProcess _ _ => (none, ⟨.processUnregister, .noSuchJob⟩)
  | some job, .removeProcess _ p =>
      (some (job.findAndRemoveProcess p.key.1 p.key.2).1,
       ⟨.processUnregister,
        if (job.findAndRemoveProcess p.key.1 p.key.2).2 then .success else .noSuchProcess⟩)

/-- The handler of a request. -/
def Daemon.handle (d : Daemon) : JobRequest → Daemon × Response
  | .register jobid hosts => d.jobRegisterHandler jobid hosts
  | .update jobid hosts => d.jobUpdateHandler jobid hosts
  | .unregister jobid => d.jobRemoveHandler jobid
  | .addProcess jobid p =>
      d.processAddHandler jobid (idOfInt64 p.uid) (idOfInt64 p.gid) (idOfInt64 p.pid)
  | .removeProcess jobid p =>
      d.processRemoveHandler jobid (idOfInt64 p.uid) (idOfInt64 p.gid) (idOfInt64 p.pid)

theorem Daemon.serve_eq_handle (env : SessionEnv) (d : Daemon) (r : JobRequest) :
    d.serve env r.toMsg = ((d.handle r).1, .ok (d.handle r).2) := by
  cases r <;> rfl

/-- A request gets the answer for its job and changes no other. -/
theorem Daemon.handle_spec (d : Daemon) (r : JobRequest) :
    (d.handle r).2 = (Job.serve (d.jobs.lookup r.jobid) r).2 ∧
    ∀ jobid, (d.handle r).1.jobs.lookup jobid =
      if jobid = r.jobid then (Job.serve (d.jobs.lookup r.jobid) r).1
      else d.jobs.lookup jobid := by
  -- a handler that does not find what it needs leaves the table alone
  have hkeep : ∀ {k job}, d.jobs.lookup k = job → ∀ jobid,
      d.jobs.lookup jobid = if jobid = k then job else d.jobs.lookup jobid := by
    intro k job hjob jobid
    split_ifs with hk
    · rw [hk, hjob]
    · rfl
  cases r with
  | register k hosts =>
      simp only [handle, jobRegisterHandler, JobRequest.jobid]
      cases hjob : d.jobs.lookup k with
      | none =>
          have hnew : k ∉ d.jobs := AList.lookup_eq_none.mp hjob
          rw [if_neg hnew]
          exact ⟨rfl, fun jobid => Table.lookup_emplace_of_notMem hnew⟩
      | some job =>
          have hold : k ∈ d.jobs := AList.lookup_isSome.mp (by rw [hjob]; rfl)
          rw [if_pos hold]
          exact ⟨rfl, hkeep hjob⟩
  | update k hosts =>
      simp only [handle, jobUpdateHandler, JobRequest.jobid]
      cases hjob : d.jobs.lookup k with
      | none => exact ⟨rfl, hkeep hjob⟩
      | some job => exact ⟨rfl, fun jobid => by rw [Table.lookup_replace, hjob]; rfl⟩
  | unregister k =>
      simp only [handle, jobRemoveHandler, JobRequest.jobid]
      cases hjob : d.jobs.lookup k with
      | none =>
          rw [if_neg (AList.lookup_eq_none.mp hjob)]
          exact ⟨rfl, hkeep hjob⟩
      | some job =>
          have hold : k ∈ d.jobs := AList.lookup_isSome.mp (by rw [hjob]; rfl)
          rw [if_pos hold]
          exact ⟨rfl, fun jobid => Table.lookup_erase' k jobid d.jobs⟩
  | addProcess k p =>
      simp only [handle, processAddHandler, JobRequest.jobid]
      cases hjob : d.jobs.lookup k with
      | none => exact ⟨rfl, hkeep hjob⟩
      | some job => exact ⟨rfl, fun jobid => by rw [Table.lookup_replace, hjob]; rfl⟩
  | removeProcess k p =>
      simp only [handle, processRemoveHandler, JobRequest.jobid]
      cases hjob : d.jobs.lookup k with
      | none => exact ⟨rfl, hkeep hjob⟩
      | some job => exact ⟨rfl, fun jobid => by rw [Table.lookup_replace, hjob]; rfl⟩

/-- The machine whose inputs are requests on jobs. -/
def Daemon.jobStep (env : SessionEnv) (d : Daemon) (r : JobRequest) :
    Daemon × Except DispatchError Response := d.serve env r.toMsg

/-- The requests on a job are answered as if there were no other jobs. -/
theorem Daemon.jobs_independent (env : SessionEnv) (d : Daemon) (jobid : UInt32)
    (reqs : List JobRequest) :
    answersTo (jobStep env) (fun r => r.jobid = jobid) d reqs =
      answers (jobStep env) d (reqs.filter fun r => r.jobid = jobid) := by
  apply answersTo_eq_answers_filter
    (R := fun d d' : Daemon => d.jobs.lookup jobid = d'.jobs.lookup jobid)
  · intro d d' r hr hsame
    obtain rfl : r.jobid = jobid := by simpa using hr
    obtain ⟨hanswer, hjobs⟩ := d.handle_spec r
    obtain ⟨hanswer', hjobs'⟩ := d'.handle_spec r
    simp only [jobStep, serve_eq_handle]
    rw [hanswer, hanswer', hjobs, hjobs', hsame]
    exact ⟨rfl, rfl⟩
  · intro d d' r hr hsame
    have hne : ¬ jobid = r.jobid := by simpa [eq_comm] using hr
    simp only [jobStep, serve_eq_handle]
    rw [(d.handle_spec r).2 jobid, if_neg hne]
    exact hsame
  · rfl

/-! ### Refinement -/

/-- The processes that are added to a job and those that are removed from it are told apart by
what the daemon keeps of them. -/
def Unambiguous (allowed : Set JobRequest) : Prop :=
  ∀ jobid hosts p p', .register jobid hosts ∈ allowed → .addProcess jobid p ∈ allowed →
    .removeProcess jobid p' ∈ allowed → p.key = p'.key → p = p'

/-- What the daemon keeps of a job. -/
def RegisteredJob.kept (job : RegisteredJob) : Job :=
  ⟨job.hosts, job.processes.image ProcessMsg.key⟩

/-- The job has been registered, and its processes have been added, by requests of the set. -/
def RegisteredJob.From (allowed : Set JobRequest) (jobid : UInt32) (job : RegisteredJob) : Prop :=
  (∃ hosts, .register jobid hosts ∈ allowed) ∧
  ∀ p ∈ job.processes, .addProcess jobid p ∈ allowed

/-- The table of the daemon has what it keeps of the jobs of the map. -/
def Represents (allowed : Set JobRequest) (m : Registry) (d : Daemon) : Prop :=
  ∀ jobid, d.jobs.lookup jobid = (m jobid).map RegisteredJob.kept ∧
    ∀ job, m jobid = some job → job.From allowed jobid

/-- The map gives the answers of the daemon. -/
def Registry.answer (m : Registry) (r : JobRequest) :
    Registry × Except DispatchError Response := ((m.step r).1, .ok (m.step r).2)

/-- The daemon answers every sequence of such requests like the map, and the requests on a job as if
there were no other jobs. -/
def RegistryRefines (allowed : Set JobRequest) : Prop :=
  ∀ (env : SessionEnv) (d : Daemon) (reqs : List JobRequest), d.jobs = ∅ →
    (∀ r ∈ reqs, r ∈ allowed) →
    answers (Daemon.jobStep env) d reqs = answers Registry.answer (fun _ => none) reqs ∧
    ∀ jobid, answersTo (Daemon.jobStep env) (fun r => r.jobid = jobid) d reqs =
      answers (Daemon.jobStep env) d (reqs.filter fun r => r.jobid = jobid)

/-- The removal of a process that no other one of the job is taken for. -/
theorem RegisteredJob.kept_remove {job : RegisteredJob} {p : ProcessMsg}
    (hkey : ∀ q ∈ job.processes, q.key = p.key → q = p) :
    job.kept.findAndRemoveProcess p.key.1 p.key.2 =
      (RegisteredJob.kept { job with processes := job.processes.erase p },
       decide (p ∈ job.processes)) := by
  have hmem : p.key ∈ job.kept.processes ↔ p ∈ job.processes := by
    constructor
    · intro h
      obtain ⟨q, hq, hqp⟩ := Finset.mem_image.mp h
      rw [← hkey q hq hqp]
      exact hq
    · exact fun h => Finset.mem_image_of_mem _ h
  have herase : job.kept.processes.erase p.key = (job.processes.erase p).image ProcessMsg.key := by
    ext k
    simp only [RegisteredJob.kept, Finset.mem_erase, Finset.mem_image]
    constructor
    · rintro ⟨hk, q, hq, rfl⟩
      exact ⟨q, ⟨fun hqp => hk (by rw [hqp]), hq⟩, rfl⟩
    · rintro ⟨q, ⟨hne, hq⟩, rfl⟩
      exact ⟨fun hk => hne (hkey q hq hk), q, hq, rfl⟩
  unfold Job.findAndRemoveProcess
  by_cases hp : p ∈ job.processes
  · rw [if_pos (hmem.mpr hp), herase, decide_eq_true hp]
    rfl
  · rw [if_neg fun h => hp (hmem.mp h), decide_eq_false hp, Finset.erase_eq_of_notMem hp]

/-- A request of the set on one job. -/
theorem RegisteredJob.serve_kept {allowed : Set JobRequest} (hun : Unambiguous allowed)
    {r : JobRequest} (hr : r ∈ allowed) {o : Option RegisteredJob}
    (ho : ∀ job, o = some job → job.From allowed r.jobid) :
    (Job.serve (o.map kept) r).2 = (serve o r).2 ∧
    (Job.serve (o.map kept) r).1 = (serve o r).1.map kept ∧
    ∀ job, (serve o r).1 = some job → job.From allowed r.jobid := by
  have hnone : ∀ job : RegisteredJob, none = some job → job.From allowed r.jobid := by
    intro job hjob
    cases hjob
  cases o with
  | none =>
      cases r with
      | register k hosts =>
          refine ⟨rfl, rfl, fun job hjob => ?_⟩
          obtain rfl := Option.some.inj hjob
          exact ⟨⟨hosts, hr⟩, fun p hp => absurd hp (Finset.notMem_empty p)⟩
      | _ => exact ⟨rfl, rfl, hnone⟩
  | some job₀ =>
      have hfrom := ho job₀ rfl
      cases r with
      | register k hosts => exact ⟨rfl, rfl, ho⟩
      | update k hosts =>
          refine ⟨rfl, rfl, fun job hjob => ?_⟩
          obtain rfl := Option.some.inj hjob
          exact hfrom
      | unregister k => exact ⟨rfl, rfl, hnone⟩
      | addProcess k p =>
          refine ⟨rfl, ?_, fun job hjob => ?_⟩
          · show some (Job.mk job₀.hosts _) =
              some (Job.mk job₀.hosts ((insert p job₀.processes).image ProcessMsg.key))
            rw [Finset.image_insert]
            rfl
          · obtain rfl := Option.some.inj hjob
            refine ⟨hfrom.1, fun q hq => ?_⟩
            obtain rfl | hq := Finset.mem_insert.mp hq
            · exact hr
            · exact hfrom.2 q hq
      | removeProcess k p =>
          have hkey : ∀ q ∈ job₀.processes, q.key = p.key → q = p := by
            intro q hq hqp
            obtain ⟨hosts, hhosts⟩ := hfrom.1
            exact hun k hosts q p hhosts (hfrom.2 q hq) hr hqp
          refine ⟨?_, ?_, fun job hjob => ?_⟩
          · simp only [Option.map_some, Job.serve, serve, RegisteredJob.kept_remove hkey,
              decide_eq_true_eq]
          · simp only [Option.map_some, Job.serve, serve, RegisteredJob.kept_remove hkey]
          · obtain rfl := Option.some.inj hjob
            exact ⟨hfrom.1, fun q hq => hfrom.2 q (Finset.mem_of_mem_erase hq)⟩

/-- A request of the set keeps the representation and gets the answer of the map. -/
theorem Represents.step {allowed : Set JobRequest} (hun : Unambiguous allowed) (env : SessionEnv)
    {d : Daemon} {m : Registry} {r : JobRequest} (hr : r ∈ allowed) (h : Represents allowed m d) :
    (d.jobStep env r).2 = (m.answer r).2 ∧
    Represents allowed (m.answer r).1 (d.jobStep env r).1 := by
  obtain ⟨hanswer, hjobs⟩ := d.handle_spec r
  obtain ⟨hlookup, hfrom⟩ := h r.jobid
  obtain ⟨hsame, hkept, hfrom'⟩ := RegisteredJob.serve_kept hun hr hfrom
  rw [← hlookup] at hsame hkept
  simp only [Daemon.jobStep, Daemon.serve_eq_handle]
  refine ⟨by rw [hanswer, hsame]; rfl, fun jobid => ?_⟩
  have hupdate : (m.answer r).1 jobid =
      if jobid = r.jobid then (RegisteredJob.serve (m r.jobid) r).1 else m jobid :=
    Function.update_apply m r.jobid _ jobid
  rw [hjobs, hupdate]
  split_ifs with hj
  · rw [hj]
    exact ⟨hkept, hfrom'⟩
  · exact h jobid

/-- The requests on one job, without the rest of the table. -/
theorem Daemon.answers_eq_job (env : SessionEnv) (d : Daemon) {jobid : UInt32}
    {reqs : List JobRequest} (hreqs : ∀ r ∈ reqs, r.jobid = jobid) :
    answers (jobStep env) d reqs =
      answers (fun (o : Option Job) r => ((Job.serve o r).1, .ok (Job.serve o r).2))
        (d.jobs.lookup jobid) reqs := by
  apply answers_eq_of_simulation (R := fun (d : Daemon) o => d.jobs.lookup jobid = o) ?_ rfl hreqs
  rintro d o r rfl rfl
  obtain ⟨hanswer, hjobs⟩ := d.handle_spec r
  simp only [jobStep, serve_eq_handle]
  exact ⟨by rw [hanswer], by rw [hjobs, if_pos rfl]⟩

/-- A job with a process under another name. -/
def mistaken (jobid : UInt32) (hosts : List String) (p p' : ProcessMsg) : List JobRequest :=
  [.register jobid hosts, .addProcess jobid p, .removeProcess jobid p']

/-- The daemon removes it, the map does not know it. -/
theorem answers_mistaken (jobid : UInt32) (hosts : List String) {p p' : ProcessMsg}
    (hkey : p.key = p'.key) (hne : p ≠ p') (env : SessionEnv) {d : Daemon} (hd : d.jobs = ∅) :
    answers (Daemon.jobStep env) d (mistaken jobid hosts p p') =
      [.ok ⟨.jobRegister, .success⟩, .ok ⟨.processRegister, .success⟩,
       .ok ⟨.processUnregister, .success⟩] ∧
    answers Registry.answer (fun _ => none) (mistaken jobid hosts p p') =
      [.ok ⟨.jobRegister, .success⟩, .ok ⟨.processRegister, .success⟩,
       .ok ⟨.processUnregister, .noSuchProcess⟩] := by
  have hjob : ∀ r ∈ mistaken jobid hosts p p', r.jobid = jobid := by
    simp [mistaken, JobRequest.jobid]
  constructor
  · rw [d.answers_eq_job env hjob, hd]
    simp [mistaken, answers, Job.serve, Job.addProcess, Job.findAndRemoveProcess, hkey]
  · simp [mistaken, answers, Registry.answer, Registry.step, RegisteredJob.serve,
      JobRequest.jobid, hne.symm]

/-- **The registry refines the map** exactly for those requests by which no job is told to remove a
process that it can take for another one that is added to it. -/
theorem job_registry_refines_iff (allowed : Set JobRequest) :
    RegistryRefines allowed ↔ Unambiguous allowed := by
  constructor
  · intro h jobid hosts p p' hregister hadd hremove hkey
    by_contra hne
    have hmem : ∀ r ∈ mistaken jobid hosts p p', r ∈ allowed := by
      simp [mistaken, hregister, hadd, hremove]
    obtain ⟨hdaemon, hmap⟩ := answers_mistaken jobid hosts hkey hne pauseEnv
      (d := ⟨Urd.withNamespace, ∅⟩) rfl
    have heq := (h pauseEnv ⟨Urd.withNamespace, ∅⟩ _ rfl hmem).1
    rw [hdaemon, hmap] at heq
    simp at heq
  · intro hun env d reqs hd hreqs
    refine ⟨?_, fun jobid => d.jobs_independent env jobid reqs⟩
    apply answers_eq_of_simulation (fun d m r hr h => Represents.step hun env hr h) ?_ hreqs
    intro jobid
    rw [hd]
    refine ⟨rfl, fun job hjob => ?_⟩
    cases hjob

/-- A process of one user, and its removal in the name of another. -/
def otherUser : List JobRequest :=
  mistaken 42 ["host00"] (.ofIds 1001 2001 25401) (.ofIds 1002 2001 25401)

/-- The daemon takes the processes of two users with the same group and process id for one. -/
theorem other_user_removed :
    ¬ RegistryRefines Set.univ ∧
    answers (Daemon.jobStep pauseEnv) ⟨Urd.withNamespace, ∅⟩ otherUser =
      [.ok ⟨.jobRegister, .success⟩, .ok ⟨.processRegister, .success⟩,
       .ok ⟨.processUnregister, .success⟩] ∧
    answers Registry.answer (fun _ => none) otherUser =
      [.ok ⟨.jobRegister, .success⟩, .ok ⟨.processRegister, .success⟩,
       .ok ⟨.processUnregister, .noSuchProcess⟩] := by
  have hkey : (ProcessMsg.ofIds 1001 2001 25401).key = (ProcessMsg.ofIds 1002 2001 25401).key := by
    rw [ProcessMsg.key_ofIds, ProcessMsg.key_ofIds]
  obtain ⟨hdaemon, hmap⟩ := answers_mistaken 42 ["host00"] hkey (by decide) pauseEnv
    (d := ⟨Urd.withNamespace, ∅⟩) rfl
  refine ⟨fun h => ?_, hdaemon, hmap⟩
  have heq := (h pauseEnv ⟨Urd.withNamespace, ∅⟩ otherUser rfl fun r _ => Set.mem_univ r).1
  rw [otherUser, hdaemon, hmap] at heq
  simp at heq

end Norns
