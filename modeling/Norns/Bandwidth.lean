import Norns.GlobalStats
import Norns.Lib.CircularBuffer

/-! # Bandwidth and the time that is left

When a copy or a move has ended, its bandwidth is recorded for the pair of namespaces it went
between; a circular buffer for each pair keeps the most recent ones.  From their average
`global_stats` estimates when the running tasks will end, and reports the last of these times.

The sum of the samples of a pair is divided by the number of pairs that have any, and the pending
bytes are divided by the size of a MiB before they become a `double`.  `stats_right_iff` says when
the results are right all the same.

Doubles are exact rationals here, and what they can be besides: bandwidths and times are never
negative, and a transfer that takes no time at all is left out. -/

namespace Norns

open Lib

/-! ### Doubles -/

/-- A `double`. -/
inductive Double where
  | nan
  | infinity
  | rat (x : ℚ≥0)
deriving DecidableEq

namespace Double

/-- `std::isnan`. -/
def isnan : Double → Bool
  | nan => true
  | _ => false

/-- The quotient of a number and a `double`. -/
def div (x : ℚ≥0) : Double → Double
  | nan => nan
  | infinity => rat 0
  | rat y => if y ≠ 0 then rat (x / y) else if x = 0 then nan else infinity

/-- `<`, which is false for a `NaN` on either side. -/
def lt : Double → Double → Bool
  | rat x, rat y => x < y
  | rat _, infinity => true
  | _, _ => false

/-- `*std::max_element`; nobody asks for the greatest of no elements. -/
def maxElement : List Double → Double
  | [] => nan
  | x :: xs => xs.foldl (fun largest y => if largest.lt y then y else largest) x

end Double

/-! ### The samples -/

/-- A copy or a move that has ended: its resources, and what `task_info::bandwidth` returns, which
is nothing (`NaN`) if no transfer was recorded. -/
structure Completion where
  srcRinfo : ResourceInfo
  dstRinfo : ResourceInfo
  bandwidth : Option ℚ≥0

/-- The key of the samples. -/
def Completion.key (c : Completion) : String × String := (c.srcRinfo.nsid, c.dstRinfo.nsid)

/-- `task_manager::m_bandwidth_backlog`. -/
abbrev BandwidthBacklog (backlogSize : ℕ) :=
  Table (String × String) (CircularBuffer ℚ≥0 backlogSize)

/-- The `completion_callback` of `task_manager::enqueue_task`. -/
def completionCallback {n : ℕ} (backlog : BandwidthBacklog n) (c : Completion) :
    BandwidthBacklog n :=
  match c.bandwidth with
  | none => backlog
  | some bw =>
      let backlog := if c.key ∈ backlog then backlog else backlog.emplace c.key .empty
      match backlog.lookup c.key with
      | none => backlog
      | some ring => backlog.replace c.key (ring.pushBack bw)

/-- The samples after the tasks of `history` have ended, in this order. -/
def backlogAfter (n : ℕ) (history : List Completion) : BandwidthBacklog n :=
  history.foldl completionCallback ∅

/-- `get_avg_bandwidth` of `task_manager::global_stats`. -/
def getAvgBandwidth {n : ℕ} (backlog : BandwidthBacklog n) (nsid1 nsid2 : String) : Double :=
  match backlog.lookup (nsid1, nsid2) with
  | none => .nan
  | some ring =>
      if ring.size = 0 then .nan
      else .div ring.toList.sum (.rat backlog.entries.length)

/-! ### The loop over the tasks -/

/-- The variables of the loop of `global_stats`. -/
structure EtaLoop where
  runningTasks : ℕ
  pendingTasks : ℕ
  etas : List Double
  unreliableEta : Bool

/-- The body of the loop.  The counters are numbers here: `globalStatsLoop` has them as they are. -/
def etaStep {n : ℕ} (backlog : BandwidthBacklog n) (s : EtaLoop) (ti : TaskInfo) :
    Except Fault EtaLoop :=
  match ti.stats.status with
  | .running =>
      match ti.srcRinfo, ti.dstRinfo with
      | some src, some dst =>
          let avgBw := getAvgBandwidth backlog src.nsid dst.nsid
          .ok
            { s with
              runningTasks := s.runningTasks + 1
              unreliableEta := s.unreliableEta || avgBw.isnan
              etas := s.etas ++
                [.div ((ti.stats.pendingBytes / (1024 * 1024)).toNat : ℚ≥0) avgBw] }
      | _, _ => .error .nullDeref
  | .pending => .ok { s with pendingTasks := s.pendingTasks + 1 }
  | _ => .ok s

/-- What follows the loop. -/
def EtaLoop.eta (s : EtaLoop) : Double :=
  if s.runningTasks = 0 then .rat 0
  else if s.unreliableEta then .nan
  else .maxElement s.etas

/-- `task_manager::global_stats` with its estimate. -/
def TaskManager.globalStatsEta (tm : TaskManager) {n : ℕ} (backlog : BandwidthBacklog n) :
    Except Fault (ℕ × ℕ × Double) :=
  (tm.taskInfo.entries.foldlM (fun s e => etaStep backlog s e.2) ⟨0, 0, [], false⟩).map fun s =>
    (s.runningTasks, s.pendingTasks, s.eta)

/-! ### What the samples are -/

/-- The bandwidths that are recorded, with their pairs. -/
def recorded (history : List Completion) : List ((String × String) × ℚ≥0) :=
  history.filterMap fun c => c.bandwidth.map (Prod.mk c.key)

/-- The bandwidths of a pair. -/
def samples (history : List Completion) (pair : String × String) : List ℚ≥0 :=
  ((recorded history).filter fun s => s.1 = pair).map Prod.snd

/-- The most recent ones. -/
def recent (n : ℕ) (history : List Completion) (pair : String × String) : List ℚ≥0 :=
  (samples history pair).rtake n

/-- The pairs that have any. -/
def pairs (history : List Completion) : Finset (String × String) :=
  ((recorded history).map Prod.fst).toFinset

/-- The arithmetic mean. -/
def mean (l : List ℚ≥0) : ℚ≥0 := l.sum / l.length

theorem recorded_append (history : List Completion) (c : Completion) :
    recorded (history ++ [c]) =
      recorded history ++ (c.bandwidth.map (Prod.mk c.key)).toList := by
  rw [recorded, List.filterMap_append]
  cases hbw : c.bandwidth with
  | none => simp [recorded, hbw]
  | some bw => simp [recorded, hbw]

theorem samples_append (history : List Completion) (c : Completion) (pair : String × String) :
    samples (history ++ [c]) pair =
      samples history pair ++ if c.key = pair then c.bandwidth.toList else [] := by
  rw [samples, recorded_append, List.filter_append, List.map_append]
  congr 1
  cases c.bandwidth with
  | none => simp
  | some bw =>
      by_cases hkey : c.key = pair
      · simp [hkey]
      · simp [hkey]

theorem samples_eq_nil_iff (history : List Completion) (pair : String × String) :
    samples history pair = [] ↔ pair ∉ pairs history := by
  simp only [samples, pairs, List.map_eq_nil_iff, List.filter_eq_nil_iff, decide_eq_true_eq,
    List.mem_toFinset, List.mem_map, not_exists, not_and]

/-- One callback appends its bandwidth to the samples of its pair, and leaves the others. -/
theorem lookup_completionCallback {n : ℕ} (backlog : BandwidthBacklog n) (c : Completion)
    (pair : String × String) :
    (completionCallback backlog c).lookup pair =
      match c.bandwidth with
      | none => backlog.lookup pair
      | some bw =>
          if pair = c.key then some (((backlog.lookup c.key).getD .empty).pushBack bw)
          else backlog.lookup pair := by
  unfold completionCallback
  cases c.bandwidth with
  | none => rfl
  | some bw =>
      dsimp only
      split_ifs with hmem hpair hpair
      · obtain ⟨ring, hring⟩ := Option.isSome_iff_exists.mp (AList.lookup_isSome.mpr hmem)
        rw [hring]
        dsimp only
        rw [Table.lookup_replace, if_pos hpair, hring]
        rfl
      · obtain ⟨ring, hring⟩ := Option.isSome_iff_exists.mp (AList.lookup_isSome.mpr hmem)
        rw [hring]
        dsimp only
        rw [Table.lookup_replace, if_neg hpair]
      · have hnew : (backlog.emplace c.key .empty).lookup c.key = some .empty := by
          rw [Table.lookup_emplace_of_notMem hmem, if_pos rfl]
        rw [hnew]
        dsimp only
        rw [Table.lookup_replace, if_pos hpair, hnew, AList.lookup_eq_none.mpr hmem]
        rfl
      · have hnew : (backlog.emplace c.key .empty).lookup c.key = some .empty := by
          rw [Table.lookup_emplace_of_notMem hmem, if_pos rfl]
        rw [hnew]
        dsimp only
        rw [Table.lookup_replace, if_neg hpair, Table.lookup_emplace_of_notMem hmem, if_neg hpair]

/-- The ring of a pair, after any history. -/
theorem lookup_backlogAfter (n : ℕ) (history : List Completion) (pair : String × String) :
    (backlogAfter n history).lookup pair =
      if samples history pair = [] then none
      else some ((samples history pair).foldl .pushBack .empty) := by
  induction history using List.reverseRecOn with
  | nil => rfl
  | append_singleton history c ih =>
      rw [backlogAfter, List.foldl_append, List.foldl_cons, List.foldl_nil,
        lookup_completionCallback, samples_append]
      cases c.bandwidth with
      | none =>
          have hsame : (if c.key = pair then (none : Option ℚ≥0).toList else []) = [] := by
            split_ifs <;> rfl
          rw [hsame, List.append_nil]
          exact ih
      | some bw =>
          dsimp only
          by_cases hpair : pair = c.key
          · subst hpair
            have hring : ((backlogAfter n history).lookup c.key).getD .empty =
                (samples history c.key).foldl .pushBack .empty := by
              rw [ih]
              split_ifs with hnil
              · rw [hnil]
                rfl
              · rfl
            rw [if_pos rfl, if_pos rfl, if_neg (by simp), List.foldl_append]
            exact congrArg (fun ring => some (CircularBuffer.pushBack ring bw)) hring
          · rw [if_neg hpair, if_neg (Ne.symm hpair), List.append_nil]
            exact ih

/-- The map has one ring for each pair with samples. -/
theorem length_backlogAfter (n : ℕ) (history : List Completion) :
    (backlogAfter n history).entries.length = (pairs history).card := by
  have hkeys : (backlogAfter n history).keys.toFinset = pairs history := by
    ext pair
    rw [List.mem_toFinset]
    show pair ∈ backlogAfter n history ↔ _
    rw [← AList.lookup_isSome, lookup_backlogAfter]
    by_cases hnil : samples history pair = []
    · rw [if_pos hnil]
      exact ⟨fun h => absurd h (by simp), fun h => absurd h ((samples_eq_nil_iff _ _).mp hnil)⟩
    · rw [if_neg hnil]
      exact ⟨fun _ => not_not.mp fun h => hnil ((samples_eq_nil_iff _ _).mpr h), fun _ => rfl⟩
  rw [← hkeys, List.toFinset_card_of_nodup (backlogAfter n history).keys_nodup, AList.keys,
    List.keys, List.length_map]

theorem recent_eq_nil_iff {n : ℕ} (hn : 0 < n) (history : List Completion)
    (pair : String × String) : recent n history pair = [] ↔ pair ∉ pairs history := by
  rw [← samples_eq_nil_iff, recent]
  constructor
  · intro h
    by_contra hne
    have hlen := congrArg List.length h
    have hpos := List.length_pos_iff.mpr hne
    rw [List.rtake, List.length_drop, List.length_nil] at hlen
    omega
  · intro h
    rw [h, List.rtake_nil]

/-- What `get_avg_bandwidth` computes: the samples are those of the pair, and the divisor is the
number of pairs. -/
theorem getAvgBandwidth_backlogAfter {n : ℕ} (hn : 0 < n) (history : List Completion)
    (pair : String × String) :
    getAvgBandwidth (backlogAfter n history) pair.1 pair.2 =
      if pair ∈ pairs history then
        .rat ((recent n history pair).sum / (pairs history).card)
      else .nan := by
  unfold getAvgBandwidth
  rw [Prod.mk.eta, lookup_backlogAfter]
  split_ifs with hnil hmem hmem
  · exact absurd hmem ((samples_eq_nil_iff _ _).mp hnil)
  · rfl
  · have hcard : ((pairs history).card : ℚ≥0) ≠ 0 :=
      Nat.cast_ne_zero.mpr (Finset.card_ne_zero_of_mem hmem)
    have hsize : ((samples history pair).foldl .pushBack
        (.empty : CircularBuffer ℚ≥0 n)).size ≠ 0 := by
      intro hzero
      rw [CircularBuffer.size, CircularBuffer.toList_foldl_pushBack, List.length_eq_zero_iff]
        at hzero
      exact (recent_eq_nil_iff hn history pair).mp hzero hmem
    dsimp only
    rw [if_neg hsize, CircularBuffer.toList_foldl_pushBack, length_backlogAfter, Double.div,
      if_pos hcard]
    rfl
  · exact absurd ((samples_eq_nil_iff _ _).mpr hmem) hnil

/-! ### What the loop computes -/

/-- A task that the estimate is about: it runs between the namespaces of `pair`. -/
def TaskInfo.RunsBetween (ti : TaskInfo) (pair : String × String) : Prop :=
  ti.status = .running ∧ ∃ src dst, ti.srcRinfo = some src ∧ ti.dstRinfo = some dst ∧
    pair = (src.nsid, dst.nsid)

/-- The tasks in the table that run between two namespaces. -/
def TaskManager.running (tm : TaskManager) : Set (TaskInfo × (String × String)) :=
  {r | ∃ tid, tm.find tid = some r.1 ∧ r.1.RunsBetween r.2}

/-- The estimate for a running task, as the loop computes it. -/
def TaskInfo.codeEta {n : ℕ} (backlog : BandwidthBacklog n) (r : TaskInfo × (String × String)) :
    Double :=
  .div ((r.1.stats.pendingBytes / (1024 * 1024)).toNat : ℚ≥0) (getAvgBandwidth backlog r.2.1 r.2.2)

/-- What the variables say of the tasks the loop has gone over. -/
structure EtaLoop.Reads {n : ℕ} (backlog : BandwidthBacklog n) (s : EtaLoop)
    (tasks : Set (TaskInfo × (String × String))) : Prop where
  running : s.runningTasks = 0 ↔ tasks = ∅
  reliable : s.unreliableEta = false ↔
    ∀ r ∈ tasks, (getAvgBandwidth backlog r.2.1 r.2.2).isnan = false
  etas : ∀ eta, eta ∈ s.etas ↔ ∃ r ∈ tasks, eta = TaskInfo.codeEta backlog r

/-- The tasks of a list of records that run between two namespaces. -/
def runningIn (l : List (Sigma fun _ : IotaskId => TaskInfo)) :
    Set (TaskInfo × (String × String)) :=
  {r | ∃ e ∈ l, e.2 = r.1 ∧ r.1.RunsBetween r.2}

theorem TaskManager.running_eq (tm : TaskManager) : tm.running = runningIn tm.taskInfo.entries := by
  ext r
  constructor
  · rintro ⟨tid, hfind, hruns⟩
    exact ⟨⟨tid, r.1⟩, AList.mem_lookup_iff.mp hfind, rfl, hruns⟩
  · rintro ⟨⟨tid, ti⟩, hmem, rfl, hruns⟩
    exact ⟨tid, AList.mem_lookup_iff.mpr hmem, hruns⟩

/-- One record more. -/
theorem mem_runningIn_append {l : List (Sigma fun _ : IotaskId => TaskInfo)}
    {e : Sigma fun _ : IotaskId => TaskInfo} {r : TaskInfo × (String × String)} :
    r ∈ runningIn (l ++ [e]) ↔ r ∈ runningIn l ∨ (e.2 = r.1 ∧ r.1.RunsBetween r.2) := by
  constructor
  · rintro ⟨e', he', heq, hruns⟩
    obtain he' | he' := List.mem_append.mp he'
    · exact Or.inl ⟨e', he', heq, hruns⟩
    · rw [List.mem_singleton] at he'
      subst he'
      exact Or.inr ⟨heq, hruns⟩
  · rintro (⟨e', he', heq, hruns⟩ | ⟨heq, hruns⟩)
    · exact ⟨e', List.mem_append_left _ he', heq, hruns⟩
    · exact ⟨e, List.mem_append_right _ List.mem_cons_self, heq, hruns⟩

/-- A record that is not running leaves the estimate alone. -/
theorem runningIn_append_of_ne {l : List (Sigma fun _ : IotaskId => TaskInfo)}
    {e : Sigma fun _ : IotaskId => TaskInfo} (h : e.2.status ≠ .running) :
    runningIn (l ++ [e]) = runningIn l := by
  ext r
  rw [mem_runningIn_append]
  constructor
  · rintro (hmem | ⟨heq, hruns⟩)
    · exact hmem
    · rw [heq] at h
      exact absurd hruns.1 h
  · exact Or.inl

theorem runningIn_append_of_running {l : List (Sigma fun _ : IotaskId => TaskInfo)}
    {e : Sigma fun _ : IotaskId => TaskInfo} {src dst : ResourceInfo}
    (h : e.2.status = .running) (hsrc : e.2.srcRinfo = some src) (hdst : e.2.dstRinfo = some dst) :
    runningIn (l ++ [e]) = insert (e.2, (src.nsid, dst.nsid)) (runningIn l) := by
  ext r
  rw [mem_runningIn_append, Set.mem_insert_iff, or_comm]
  apply or_congr_left
  constructor
  · rintro ⟨heq, -, src', dst', hsrc', hdst', hpair⟩
    rw [← heq, hsrc] at hsrc'
    rw [← heq, hdst] at hdst'
    obtain rfl := Option.some.inj hsrc'
    obtain rfl := Option.some.inj hdst'
    exact Prod.ext heq.symm hpair
  · rintro rfl
    exact ⟨rfl, h, src, dst, hsrc, hdst, rfl⟩

/-- The body of the loop keeps what the variables say. -/
theorem EtaLoop.Reads.step {n : ℕ} {backlog : BandwidthBacklog n} {s s' : EtaLoop}
    {l : List (Sigma fun _ : IotaskId => TaskInfo)} {e : Sigma fun _ : IotaskId => TaskInfo}
    (h : s.Reads backlog (runningIn l)) (hstep : etaStep backlog s e.2 = .ok s') :
    s'.Reads backlog (runningIn (l ++ [e])) := by
  unfold etaStep at hstep
  split at hstep
  · next hrun =>
      split at hstep
      · next src dst hsrc hdst =>
          obtain rfl := Except.ok.inj hstep
          rw [runningIn_append_of_running hrun hsrc hdst]
          refine ⟨⟨fun h => absurd h (by simp), fun h => absurd h
            (Set.insert_nonempty _ _).ne_empty⟩, ?_, ?_⟩
          · rw [Bool.or_eq_false_iff, h.reliable, Set.forall_mem_insert]
            exact and_comm
          · intro eta
            rw [List.mem_append, h.etas, List.mem_singleton, Set.exists_mem_insert]
            exact or_comm
      · cases hstep
  · next hpend =>
      obtain rfl := Except.ok.inj hstep
      rw [runningIn_append_of_ne (by rw [show e.2.status = .pending from hpend]; decide)]
      exact ⟨h.running, h.reliable, h.etas⟩
  · next hne _ =>
      obtain rfl := Except.ok.inj hstep
      rw [runningIn_append_of_ne hne]
      exact h

/-- The whole loop. -/
theorem reads_foldlM {n : ℕ} {backlog : BandwidthBacklog n} {s s' : EtaLoop}
    {l l' : List (Sigma fun _ : IotaskId => TaskInfo)} (h : s.Reads backlog (runningIn l'))
    (hloop : l.foldlM (fun s e => etaStep backlog s e.2) s = .ok s') :
    s'.Reads backlog (runningIn (l' ++ l)) := by
  induction l generalizing s l' with
  | nil =>
      obtain rfl := Except.ok.inj hloop
      rw [List.append_nil]
      exact h
  | cons e l ih =>
      rw [List.foldlM_cons] at hloop
      cases hstep : etaStep backlog s e.2 with
      | error f =>
          rw [hstep] at hloop
          cases hloop
      | ok s₁ =>
          rw [hstep] at hloop
          have hreads := ih (h.step hstep) hloop
          rwa [List.append_assoc] at hreads

/-- The greatest of some numbers. -/
theorem Double.maxElement_spec {l : List Double} (hne : l ≠ []) (h : ∀ y ∈ l, ∃ x, y = .rat x) :
    ∃ x, Double.maxElement l = .rat x ∧ .rat x ∈ l ∧ ∀ y, .rat y ∈ l → y ≤ x := by
  obtain ⟨a, l, rfl⟩ := List.exists_cons_of_ne_nil hne
  clear hne
  show ∃ x, l.foldl _ a = _ ∧ _
  induction l using List.reverseRecOn with
  | nil =>
      obtain ⟨x, rfl⟩ := h a (by simp)
      refine ⟨x, rfl, by simp, fun y hy => ?_⟩
      rw [List.mem_singleton] at hy
      cases hy
      exact le_refl x
  | append_singleton l b ih =>
      obtain ⟨x, hx, hmem, hle⟩ := ih fun y hy => h y (by
        rw [← List.cons_append]
        exact List.mem_append_left _ hy)
      obtain ⟨z, rfl⟩ := h b (by simp)
      rw [List.foldl_append, hx, List.foldl_cons, List.foldl_nil, Double.lt]
      by_cases hlt : x < z
      · refine ⟨z, by simp [hlt], by simp, fun y hy => ?_⟩
        rw [← List.cons_append, List.mem_append, List.mem_singleton] at hy
        obtain hy | hy := hy
        · exact (hle y hy).trans hlt.le
        · cases hy
          exact le_refl z
      · refine ⟨x, by simp [hlt], ?_, fun y hy => ?_⟩
        · rw [← List.cons_append]
          exact List.mem_append_left _ hmem
        · rw [← List.cons_append, List.mem_append, List.mem_singleton] at hy
          obtain hy | hy := hy
          · exact hle y hy
          · cases hy
            exact not_lt.mp hlt

/-! ### What the statistics should say -/

/-- The bytes that are left, in MiB. -/
def TaskInfo.pendingMiB (ti : TaskInfo) : ℚ≥0 := ti.stats.pendingBytes.toNat / (1024 * 1024)

/-- The estimate for a running task. -/
def exactEta (n : ℕ) (history : List Completion) (r : TaskInfo × (String × String)) : ℚ≥0 :=
  r.1.pendingMiB / mean (recent n history r.2)

/-- Tasks are running, and there is a bandwidth for each of them. -/
def TaskManager.Estimable (tm : TaskManager) (n : ℕ) (history : List Completion) : Prop :=
  tm.running.Nonempty ∧ ∀ r ∈ tm.running, mean (recent n history r.2) ≠ 0

/-- The statistics are right: the average for a pair is the mean of its most recent samples, and
the time that is left is the greatest of the estimates for the running tasks. -/
structure StatsRight (n : ℕ) (history : List Completion) (tm : TaskManager) : Prop where
  average : ∀ pair ∈ pairs history,
    getAvgBandwidth (backlogAfter n history) pair.1 pair.2 = .rat (mean (recent n history pair))
  between : ∀ pair ∈ pairs history, ∀ lo hi, (∀ x ∈ recent n history pair, lo ≤ x ∧ x ≤ hi) →
    ∃ avg, getAvgBandwidth (backlogAfter n history) pair.1 pair.2 = .rat avg ∧ lo ≤ avg ∧ avg ≤ hi
  eta : tm.Estimable n history → ∀ running pending eta,
    tm.globalStatsEta (backlogAfter n history) = .ok (running, pending, eta) →
      ∃ x, eta = .rat x ∧ IsGreatest (exactEta n history '' tm.running) x

/-- For every pair the number of pairs is the number of samples that are kept, unless these are all
zero. -/
def DivisorFits (n : ℕ) (history : List Completion) : Prop :=
  ∀ pair ∈ pairs history,
    (pairs history).card = (recent n history pair).length ∨ (recent n history pair).sum = 0

/-- A task that takes longest has whole MiB left. -/
def TaskManager.LongestWhole (tm : TaskManager) (n : ℕ) (history : List Completion) : Prop :=
  ∃ r ∈ tm.running, 1024 * 1024 ∣ r.1.stats.pendingBytes.toNat ∧
    ∀ r' ∈ tm.running, exactEta n history r' ≤ exactEta n history r

section Right

variable {n : ℕ} {history : List Completion} {tm : TaskManager}

theorem average_iff (hn : 0 < n) {pair : String × String} (hpair : pair ∈ pairs history) :
    getAvgBandwidth (backlogAfter n history) pair.1 pair.2 =
        .rat (mean (recent n history pair)) ↔
      (pairs history).card = (recent n history pair).length ∨
        (recent n history pair).sum = 0 := by
  have hcard : ((pairs history).card : ℚ≥0) ≠ 0 :=
    Nat.cast_ne_zero.mpr (Finset.card_ne_zero_of_mem hpair)
  have hlen : ((recent n history pair).length : ℚ≥0) ≠ 0 := by
    rw [Nat.cast_ne_zero, ne_eq, List.length_eq_zero_iff, recent_eq_nil_iff hn]
    exact not_not.mpr hpair
  rw [getAvgBandwidth_backlogAfter hn, if_pos hpair, Double.rat.injEq, mean,
    div_eq_div_iff hcard hlen, mul_eq_mul_left_iff, Nat.cast_inj, eq_comm]

theorem mean_between {l : List ℚ≥0} (hne : l ≠ []) {lo hi : ℚ≥0}
    (h : ∀ x ∈ l, lo ≤ x ∧ x ≤ hi) : lo ≤ mean l ∧ mean l ≤ hi := by
  have hpos : 0 < (l.length : ℚ≥0) := Nat.cast_pos.mpr (List.length_pos_iff.mpr hne)
  have hlow := List.card_nsmul_le_sum l lo fun x hx => (h x hx).1
  have hhigh := List.sum_le_card_nsmul l hi fun x hx => (h x hx).2
  rw [nsmul_eq_mul] at hlow hhigh
  exact ⟨(le_div_iff₀' hpos).mpr hlow, (div_le_iff₀' hpos).mpr hhigh⟩

/-- The bytes that the loop divides. -/
theorem pendingBytes_div (ti : TaskInfo) :
    (ti.stats.pendingBytes / (1024 * 1024)).toNat =
      ti.stats.pendingBytes.toNat / (1024 * 1024) :=
  UInt64.toNat_div ..

theorem floor_le_pendingMiB (ti : TaskInfo) :
    ((ti.stats.pendingBytes.toNat / (1024 * 1024) : ℕ) : ℚ≥0) ≤ ti.pendingMiB := by
  have hsize : (1024 * 1024 : ℚ≥0) = ((1024 * 1024 : ℕ) : ℚ≥0) := by norm_num
  rw [TaskInfo.pendingMiB, hsize]
  exact Nat.cast_div_le

/-- No MiB is lost exactly if the bytes are whole MiB. -/
theorem floor_eq_pendingMiB_iff (ti : TaskInfo) :
    ((ti.stats.pendingBytes.toNat / (1024 * 1024) : ℕ) : ℚ≥0) = ti.pendingMiB ↔
      1024 * 1024 ∣ ti.stats.pendingBytes.toNat := by
  have hne : ((1024 * 1024 : ℕ) : ℚ≥0) ≠ 0 := by norm_num
  have hsize : (1024 * 1024 : ℚ≥0) = ((1024 * 1024 : ℕ) : ℚ≥0) := by norm_num
  rw [TaskInfo.pendingMiB, hsize, eq_div_iff hne, ← Nat.cast_mul, Nat.cast_inj]
  constructor
  · intro h
    exact ⟨_, by rw [mul_comm, h]⟩
  · exact Nat.div_mul_cancel

/-- The estimates of the loop, if the averages are right. -/
theorem codeEta_eq (hn : 0 < n) (hfits : DivisorFits n history) {r : TaskInfo × (String × String)}
    (hmean : mean (recent n history r.2) ≠ 0) :
    TaskInfo.codeEta (backlogAfter n history) r =
      .rat ((r.1.stats.pendingBytes.toNat / (1024 * 1024) : ℕ) / mean (recent n history r.2)) := by
  have hpair : r.2 ∈ pairs history := by
    by_contra hnot
    rw [(recent_eq_nil_iff hn history r.2).mpr hnot] at hmean
    exact hmean (by simp [mean])
  rw [TaskInfo.codeEta, (average_iff hn hpair).mpr (hfits r.2 hpair), Double.div, if_pos hmean,
    pendingBytes_div]

/-- What the function returns, if the averages are right and there is something to estimate. -/
theorem globalStatsEta_spec (hn : 0 < n) (hfits : DivisorFits n history)
    (hest : tm.Estimable n history) {running pending : ℕ} {eta : Double}
    (h : tm.globalStatsEta (backlogAfter n history) = .ok (running, pending, eta)) :
    ∃ r ∈ tm.running, eta = TaskInfo.codeEta (backlogAfter n history) r ∧
      ∀ r' ∈ tm.running,
        ((r'.1.stats.pendingBytes.toNat / (1024 * 1024) : ℕ) : ℚ≥0) /
            mean (recent n history r'.2) ≤
          (r.1.stats.pendingBytes.toNat / (1024 * 1024) : ℕ) / mean (recent n history r.2) := by
  unfold TaskManager.globalStatsEta at h
  cases hloop : tm.taskInfo.entries.foldlM (fun s e => etaStep (backlogAfter n history) s e.2)
      ⟨0, 0, [], false⟩ with
  | error f =>
      rw [hloop] at h
      cases h
  | ok s =>
      rw [hloop] at h
      have hstart : EtaLoop.Reads (backlogAfter n history) ⟨0, 0, [], false⟩ (runningIn []) := by
        have hnone : runningIn [] = ∅ :=
          Set.eq_empty_of_forall_notMem fun r ⟨e, he, _⟩ => absurd he List.not_mem_nil
        rw [hnone]
        exact ⟨⟨fun _ => rfl, fun _ => rfl⟩, ⟨fun _ _ hr => hr.elim, fun _ => rfl⟩,
          fun eta => ⟨fun h => absurd h List.not_mem_nil, fun ⟨_, hr, _⟩ => hr.elim⟩⟩
      have hreads := reads_foldlM hstart hloop
      rw [List.nil_append, ← TaskManager.running_eq] at hreads
      have hcode := fun r hr => codeEta_eq hn hfits (hest.2 r hr)
      have hsome : s.runningTasks ≠ 0 := fun hzero =>
        hest.1.ne_empty (hreads.running.mp hzero)
      have hreliable : s.unreliableEta = false := by
        apply hreads.reliable.mpr
        intro r hr
        have hnan := hcode r hr
        cases havg : getAvgBandwidth (backlogAfter n history) r.2.1 r.2.2 with
        | nan =>
            rw [TaskInfo.codeEta, havg] at hnan
            cases hnan
        | infinity => rfl
        | rat x => rfl
      have heta : eta = Double.maxElement s.etas := by
        have heq : (s.runningTasks, s.pendingTasks, s.eta) = (running, pending, eta) :=
          Except.ok.inj h
        rw [Prod.mk.injEq, Prod.mk.injEq] at heq
        rw [← heq.2.2, EtaLoop.eta, if_neg hsome, hreliable]
        rfl
      have hne : s.etas ≠ [] := by
        obtain ⟨r, hr⟩ := hest.1
        exact List.ne_nil_of_mem ((hreads.etas _).mpr ⟨r, hr, rfl⟩)
      obtain ⟨x, hx, hmem, hle⟩ := Double.maxElement_spec hne fun y hy => by
        obtain ⟨r, hr, rfl⟩ := (hreads.etas y).mp hy
        exact ⟨_, hcode r hr⟩
      obtain ⟨r, hr, hxr⟩ := (hreads.etas _).mp hmem
      refine ⟨r, hr, by rw [heta, hx, hxr], fun r' hr' => ?_⟩
      have hle' := hle _ ((hreads.etas _).mpr ⟨r', hr', (hcode r' hr').symm⟩)
      rw [hcode r hr] at hxr
      rwa [Double.rat.inj hxr] at hle'

/-- What the body of the loop counts. -/
theorem etaStep_counts (backlog : BandwidthBacklog n) (s : EtaLoop) (ti : TaskInfo) :
    (etaStep backlog s ti).map (fun s => (s.runningTasks, s.pendingTasks)) =
      if ti.halfNull then .error .nullDeref
      else .ok (s.runningTasks + if ti.status = .running then 1 else 0,
        s.pendingTasks + if ti.status = .pending then 1 else 0) := by
  unfold etaStep
  cases hst : ti.status with
  | running =>
      simp only [TaskInfo.stats, TaskInfo.halfNull, hst]
      cases ti.srcRinfo with
      | none => rfl
      | some src =>
          cases ti.dstRinfo with
          | none => rfl
          | some dst => rfl
  | _ =>
      simp only [TaskInfo.stats, TaskInfo.halfNull, hst]
      rfl

/-- What the loop counts. -/
theorem foldlM_etaStep_counts (backlog : BandwidthBacklog n)
    (l : List (Sigma fun _ : IotaskId => TaskInfo)) (s : EtaLoop) :
    (l.foldlM (fun s e => etaStep backlog s e.2) s).map
        (fun s => (s.runningTasks, s.pendingTasks)) =
      if l.any (fun e => e.2.halfNull) then .error .nullDeref
      else .ok (s.runningTasks + l.countP fun e => decide (e.2.status = .running),
        s.pendingTasks + l.countP fun e => decide (e.2.status = .pending)) := by
  induction l generalizing s with
  | nil => rfl
  | cons e l ih =>
      rw [List.foldlM_cons, List.any_cons]
      have hcounts := etaStep_counts backlog s e.2
      cases hstep : etaStep backlog s e.2 with
      | error f =>
          rw [hstep] at hcounts
          cases hnull : e.2.halfNull with
          | true =>
              rw [hnull] at hcounts
              exact hcounts
          | false =>
              rw [hnull] at hcounts
              cases hcounts
      | ok s₁ =>
          rw [hstep] at hcounts
          cases hnull : e.2.halfNull with
          | true =>
              rw [hnull] at hcounts
              cases hcounts
          | false =>
              rw [hnull] at hcounts
              obtain ⟨hrunning, hpending⟩ := Prod.mk.inj (Except.ok.inj hcounts)
              show Except.map _ (l.foldlM (fun s e => etaStep backlog s e.2) s₁) = _
              rw [ih, hrunning, hpending, Bool.false_or, List.countP_cons, List.countP_cons]
              simp only [decide_eq_true_eq]
              ring_nf

/-- Besides the estimate the function returns what `globalStats` has. -/
theorem globalStatsEta_counts (tm : TaskManager) (backlog : BandwidthBacklog n) :
    (tm.globalStatsEta backlog).map (fun st => (⟨st.1, st.2.1⟩ : TaskManager.GlobalStats)) =
      tm.globalStats := by
  have h := foldlM_etaStep_counts backlog tm.taskInfo.entries ⟨0, 0, [], false⟩
  rw [Nat.zero_add, Nat.zero_add] at h
  rw [globalStats_eq]
  unfold TaskManager.globalStatsEta
  cases hloop : tm.taskInfo.entries.foldlM (fun s e => etaStep backlog s e.2)
      ⟨0, 0, [], false⟩ with
  | error f =>
      rw [hloop] at h
      cases hany : tm.taskInfo.entries.any (fun e => e.2.halfNull) with
      | true =>
          rw [hany] at h
          cases h
          rfl
      | false =>
          rw [hany] at h
          cases h
  | ok s =>
      rw [hloop] at h
      cases hany : tm.taskInfo.entries.any (fun e => e.2.halfNull) with
      | true =>
          rw [hany] at h
          cases h
      | false =>
          rw [hany] at h
          obtain ⟨hrunning, hpending⟩ := Prod.mk.inj (Except.ok.inj h)
          show Except.ok (⟨s.runningTasks, s.pendingTasks⟩ : TaskManager.GlobalStats) = _
          rw [hrunning, hpending]
          rfl

/-- The loop comes to its end exactly if no running task lacks a resource. -/
theorem globalStatsEta_ok_iff (tm : TaskManager) (backlog : BandwidthBacklog n) :
    (∃ st, tm.globalStatsEta backlog = .ok st) ↔
      ∀ e ∈ tm.taskInfo.entries, e.2.halfNull = false := by
  have h := globalStatsEta_counts tm backlog
  rw [globalStats_eq] at h
  cases hany : tm.taskInfo.entries.any (fun e => e.2.halfNull) with
  | true =>
      obtain ⟨e, he, hnull⟩ := List.any_eq_true.mp hany
      rw [hany] at h
      constructor
      · rintro ⟨st, hst⟩
        rw [hst] at h
        cases h
      · intro hall
        rw [hall e he] at hnull
        cases hnull
  | false =>
      rw [hany] at h
      rw [List.any_eq_false] at hany
      refine ⟨fun _ e he => Bool.eq_false_iff.mpr (hany e he), fun _ => ?_⟩
      cases hok : tm.globalStatsEta backlog with
      | error f =>
          rw [hok] at h
          cases h
      | ok st => exact ⟨st, rfl⟩

end Right

/-- **Average bandwidth and the time that is left** are right exactly if for every pair of
namespaces the number of pairs is the number of its samples, unless these are all zero, and a
running task that takes longest has whole MiB left. -/
theorem stats_right_iff {n : ℕ} (hn : 0 < n) (history : List Completion) (tm : TaskManager) :
    StatsRight n history tm ↔ DivisorFits n history ∧
      (tm.Estimable n history → (∀ e ∈ tm.taskInfo.entries, e.2.halfNull = false) →
        tm.LongestWhole n history) := by
  constructor
  · intro h
    have hfits : DivisorFits n history := fun pair hpair =>
      (average_iff hn hpair).mp (h.average pair hpair)
    refine ⟨hfits, fun hest hnull => ?_⟩
    obtain ⟨⟨running, pending, eta⟩, hok⟩ :=
      (globalStatsEta_ok_iff tm (backlogAfter n history)).mpr hnull
    obtain ⟨x, rfl, ⟨-, hgreatest⟩⟩ := h.eta hest running pending eta hok
    obtain ⟨r, hr, hx, -⟩ := globalStatsEta_spec hn hfits hest hok
    rw [codeEta_eq hn hfits (hest.2 r hr), Double.rat.injEq] at hx
    have hpos : 0 < mean (recent n history r.2) := pos_iff_ne_zero.mpr (hest.2 r hr)
    -- the estimate of this task is not below its exact one, so that nothing was cut off
    have hge : exactEta n history r ≤ x := hgreatest ⟨r, hr, rfl⟩
    have hfloor : ((r.1.stats.pendingBytes.toNat / (1024 * 1024) : ℕ) : ℚ≥0) = r.1.pendingMiB := by
      apply le_antisymm (floor_le_pendingMiB r.1)
      rw [hx, exactEta] at hge
      exact (div_le_div_iff_of_pos_right hpos).mp hge
    refine ⟨r, hr, (floor_eq_pendingMiB_iff r.1).mp hfloor, fun r' hr' => ?_⟩
    have hle : exactEta n history r' ≤ x := hgreatest ⟨r', hr', rfl⟩
    rwa [hx, hfloor] at hle
  · rintro ⟨hfits, hwhole⟩
    have haverage := fun pair hpair => (average_iff hn hpair).mpr (hfits pair hpair)
    refine ⟨haverage, fun pair hpair lo hi hbounds => ?_, fun hest running pending eta hok => ?_⟩
    · have hne : recent n history pair ≠ [] := fun hnil =>
        (recent_eq_nil_iff hn history pair).mp hnil hpair
      exact ⟨_, haverage pair hpair, mean_between hne hbounds⟩
    · have hnull := (globalStatsEta_ok_iff tm (backlogAfter n history)).mp ⟨_, hok⟩
      obtain ⟨r, hr, hdvd, hlongest⟩ := hwhole hest hnull
      obtain ⟨r₁, hr₁, hx, hle⟩ := globalStatsEta_spec hn hfits hest hok
      rw [codeEta_eq hn hfits (hest.2 r₁ hr₁)] at hx
      have hexact := hle r hr
      rw [(floor_eq_pendingMiB_iff r.1).mpr hdvd] at hexact
      have hfloor : ((r₁.1.stats.pendingBytes.toNat / (1024 * 1024) : ℕ) : ℚ≥0) /
          mean (recent n history r₁.2) ≤ exactEta n history r₁ := by
        exact div_le_div_of_nonneg_right (floor_le_pendingMiB r₁.1) zero_le
      have heq := le_antisymm (hfloor.trans (hlongest r₁ hr₁)) hexact
      refine ⟨exactEta n history r, by rw [hx, heq], ⟨r, hr, rfl⟩, ?_⟩
      rintro x ⟨r', hr', rfl⟩
      exact hlongest r' hr'

/-- A copy between two namespaces that has ended. -/
def copied (nsid1 nsid2 : String) (bandwidth : ℚ≥0) : Completion :=
  ⟨.localPath nsid1 "a", .localPath nsid2 "b", some bandwidth⟩

/-- A running copy from `tmp0` to `tmp1`. -/
def runningCopy (bytes : UInt64) : TaskInfo :=
  { TaskInfo.new 1 .copy false ⟨1, 0, 0⟩ none (some (.localPath "tmp0" "a")) none
      (some (.localPath "tmp1" "b")) bytes with status := .running }

/-- The task manager with it. -/
def withCopy (bytes : UInt64) : TaskManager :=
  { TaskManager.init with taskInfo := (∅ : Table IotaskId TaskInfo).insert 1 (runningCopy bytes) }

theorem mem_running_withCopy {bytes : UInt64} {r : TaskInfo × (String × String)} :
    r ∈ (withCopy bytes).running ↔ r = (runningCopy bytes, ("tmp0", "tmp1")) := by
  have hentries : (withCopy bytes).taskInfo.entries = [] ++ [⟨1, runningCopy bytes⟩] := rfl
  have hnone : runningIn [] = ∅ :=
    Set.eq_empty_of_forall_notMem fun r ⟨e, he, _⟩ => absurd he List.not_mem_nil
  rw [TaskManager.running_eq, hentries, runningIn_append_of_running rfl rfl rfl, hnone]
  exact ⟨fun h => h.resolve_right (Set.notMem_empty r), Or.inl⟩

/-- With one sample of one pair and whole MiB everything is right. -/
theorem whole_mebibyte_right :
    StatsRight 1 [copied "tmp0" "tmp1" 4] (withCopy (1024 * 1024)) ∧
    (withCopy (1024 * 1024)).globalStatsEta (backlogAfter 1 [copied "tmp0" "tmp1" 4]) =
      .ok (1, 0, .rat (1 / 4)) := by
  constructor
  · apply (stats_right_iff (by decide) _ _).mpr
    constructor
    · intro pair hpair
      rw [show pairs [copied "tmp0" "tmp1" 4] = {("tmp0", "tmp1")} from rfl,
        Finset.mem_singleton] at hpair
      subst hpair
      exact Or.inl rfl
    · intro _ _
      refine ⟨_, mem_running_withCopy.mpr rfl, ⟨1, by decide⟩, fun r' hr' => ?_⟩
      rw [mem_running_withCopy.mp hr']
  · decide +kernel

/-- Two pairs with a sample of 4 MiB/s each have an average of 2 MiB/s, and half a MiB is nothing
to wait for. -/
theorem wrong_divisor_and_lost_mebibyte :
    getAvgBandwidth (backlogAfter 8 [copied "tmp0" "tmp1" 4, copied "tmp1" "tmp0" 4])
      "tmp0" "tmp1" = .rat 2 ∧
    ¬ StatsRight 8 [copied "tmp0" "tmp1" 4, copied "tmp1" "tmp0" 4] .init ∧
    (withCopy (512 * 1024)).globalStatsEta (backlogAfter 8 [copied "tmp0" "tmp1" 4]) =
      .ok (1, 0, .rat 0) ∧
    ¬ StatsRight 8 [copied "tmp0" "tmp1" 4] (withCopy (512 * 1024)) := by
  have hhalf : getAvgBandwidth (backlogAfter 8 [copied "tmp0" "tmp1" 4, copied "tmp1" "tmp0" 4])
      "tmp0" "tmp1" = .rat 2 := by decide +kernel
  have hzero : (withCopy (512 * 1024)).globalStatsEta (backlogAfter 8 [copied "tmp0" "tmp1" 4]) =
      .ok (1, 0, .rat 0) := by decide +kernel
  refine ⟨hhalf, fun h => ?_, hzero, fun h => ?_⟩
  · have haverage := h.average ("tmp0", "tmp1") (by decide)
    rw [hhalf] at haverage
    exact absurd haverage (by decide +kernel)
  · obtain ⟨x, hx, -, hgreatest⟩ := h.eta ⟨⟨_, mem_running_withCopy.mpr rfl⟩, fun r hr => by
      rw [mem_running_withCopy.mp hr]
      decide +kernel⟩ 1 0 _ hzero
    have hle : exactEta 8 [copied "tmp0" "tmp1" 4]
        (runningCopy (512 * 1024), ("tmp0", "tmp1")) ≤ x :=
      hgreatest ⟨_, mem_running_withCopy.mpr rfl, rfl⟩
    rw [← Double.rat.inj hx] at hle
    exact absurd hle (by decide +kernel)

end Norns
