import Norns.Lib.Run

/-! # Starting and stopping daemons

Any number of daemons can be started with one configuration; they share a pidfile and two sockets.
A comment of `urd::daemonize` says what the pidfile is for: the first instance locks it, so that
others understand that one is already running.  But the child closes the file once it has written
its pid, which ends the lock, and the parent, whose `teardown` is that of any other process, removes
the file whenever it likes.

* `InstanceStep`: the calls of one instance that the others can see, in the order of `urd::run`.
* `daemon_never_excluded`: a new instance can always take the sockets, and those that serve have
  lost theirs for ever.
* `launches_leave_nothing`: if none is killed and none calls `exit` without `teardown` once it has
  opened the pidfile, all files are gone once all have ended.
* `sole_daemon_reachable`: an instance that is started while no other one is alive has both sockets
  as long as it serves. -/

namespace Norns

open Lib

/-! ### Instances -/

/-- The next thing that an instance does.  In the places with an inode the pidfile is open. -/
inductive LaunchPc where
  | checkConfiguration
  | fork
  | openPidfile
  | lockf (inode : ℕ)
  | writePid (inode : ℕ)
  | closePidfile (inode : ℕ)
  | unlinkControl
  | bindControl
  | unlinkGlobal
  | bindGlobal
  | network
  | run
  | removeControl (both : Bool)
  | removeGlobal
  | removePidfile
  | unwindControl
  | unwindGlobal
  | exited
deriving DecidableEq, Repr

/-- What the instances share, and where each of them is.  `locks` are the locks on the pidfiles that
have been created, by their inodes; `control` and `global` say whose socket is found under the two
names; `parent` is the process that has forked and has not done its `teardown`. -/
structure Launches where
  pidfile : Option ℕ
  inodes : ℕ
  locks : ℕ → Option ℕ
  control : Option ℕ
  global : Option ℕ
  pc : ℕ → LaunchPc
  parent : ℕ → Bool

namespace Launches

/-- The instance goes on. -/
def goto (s : Launches) (i : ℕ) (pc : LaunchPc) : Launches :=
  { s with pc := Function.update s.pc i pc }

/-- No instance has been started. -/
def init : Launches :=
  ⟨none, 0, fun _ => none, none, none, fun _ => .checkConfiguration, fun _ => false⟩

@[simp] theorem goto_pc (s : Launches) (i j : ℕ) (pc : LaunchPc) :
    (s.goto i pc).pc j = if j = i then pc else s.pc j := Function.update_apply s.pc i pc j

@[simp] theorem goto_pidfile (s : Launches) (i : ℕ) (pc : LaunchPc) :
    (s.goto i pc).pidfile = s.pidfile := rfl

@[simp] theorem goto_inodes (s : Launches) (i : ℕ) (pc : LaunchPc) :
    (s.goto i pc).inodes = s.inodes := rfl

@[simp] theorem goto_locks (s : Launches) (i : ℕ) (pc : LaunchPc) :
    (s.goto i pc).locks = s.locks := rfl

@[simp] theorem goto_control (s : Launches) (i : ℕ) (pc : LaunchPc) :
    (s.goto i pc).control = s.control := rfl

@[simp] theorem goto_global (s : Launches) (i : ℕ) (pc : LaunchPc) :
    (s.goto i pc).global = s.global := rfl

end Launches

/-- A step of an instance that goes on, or returns, or ends with `teardown`.  A call that changes
nothing when it fails can fail at any time.  An end without `teardown` is in `LaunchStep`. -/
inductive InstanceStep (i : ℕ) : Launches → Launches → Prop
  -- `check_configuration`, which calls `teardown_and_exit`, and the option `-f`
  | badConfiguration {s : Launches} (h : s.pc i = .checkConfiguration) :
      InstanceStep i s (s.goto i .removePidfile)
  | foreground {s : Launches} (h : s.pc i = .checkConfiguration) :
      InstanceStep i s (s.goto i .unlinkControl)
  | daemon {s : Launches} (h : s.pc i = .checkConfiguration) : InstanceStep i s (s.goto i .fork)
  -- `daemonize`
  | forkFails {s : Launches} (h : s.pc i = .fork) : InstanceStep i s (s.goto i .exited)
  | fork {s : Launches} (h : s.pc i = .fork) :
      InstanceStep i s
        ({ s with parent := Function.update s.parent i true }.goto i .openPidfile)
  | parentTeardown {s : Launches} (h : s.parent i = true) :
      InstanceStep i s
        { s with pidfile := none, parent := Function.update s.parent i false }
  | openFails {s : Launches} (h : s.pc i = .openPidfile) : InstanceStep i s (s.goto i .exited)
  | openOld {s : Launches} {inode : ℕ} (h : s.pc i = .openPidfile)
      (hfile : s.pidfile = some inode) : InstanceStep i s (s.goto i (.lockf inode))
  | openNew {s : Launches} (h : s.pc i = .openPidfile) (hfile : s.pidfile = none) :
      InstanceStep i s
        ({ s with pidfile := some s.inodes, inodes := s.inodes + 1 }.goto i (.lockf s.inodes))
  | lockFails {s : Launches} {inode j : ℕ} (h : s.pc i = .lockf inode)
      (hheld : s.locks inode = some j) : InstanceStep i s (s.goto i .exited)
  | lock {s : Launches} {inode : ℕ} (h : s.pc i = .lockf inode) (hfree : s.locks inode = none) :
      InstanceStep i s
        ({ s with locks := Function.update s.locks inode (some i) }.goto i (.writePid inode))
  | write {s : Launches} {inode : ℕ} (h : s.pc i = .writePid inode) :
      InstanceStep i s (s.goto i (.closePidfile inode))
  | close {s : Launches} {inode : ℕ} (h : s.pc i = .closePidfile inode) :
      InstanceStep i s
        ({ s with locks := Function.update s.locks inode none }.goto i .unlinkControl)
  -- `init_event_handlers`; after an error `teardown` destroys the endpoints that there are
  | unlinkControlFails {s : Launches} (h : s.pc i = .unlinkControl) :
      InstanceStep i s (s.goto i .removePidfile)
  | unlinkControl {s : Launches} (h : s.pc i = .unlinkControl) :
      InstanceStep i s ({ s with control := none }.goto i .bindControl)
  | bindControlFails {s : Launches} (h : s.pc i = .bindControl) :
      InstanceStep i s (s.goto i .removePidfile)
  | bindControl {s : Launches} (h : s.pc i = .bindControl) (hfree : s.control = none) :
      InstanceStep i s ({ s with control := some i }.goto i .unlinkGlobal)
  | unlinkGlobalFails {s : Launches} (h : s.pc i = .unlinkGlobal) :
      InstanceStep i s (s.goto i (.removeControl false))
  | unlinkGlobal {s : Launches} (h : s.pc i = .unlinkGlobal) :
      InstanceStep i s ({ s with global := none }.goto i .bindGlobal)
  | bindGlobalFails {s : Launches} (h : s.pc i = .bindGlobal) :
      InstanceStep i s (s.goto i (.removeControl false))
  | bindGlobal {s : Launches} (h : s.pc i = .bindGlobal) (hfree : s.global = none) :
      InstanceStep i s ({ s with global := some i }.goto i .network)
  | networkFails {s : Launches} (h : s.pc i = .network) :
      InstanceStep i s (s.goto i (.removeControl true))
  | network {s : Launches} (h : s.pc i = .network) : InstanceStep i s (s.goto i .run)
  -- the event loop ends, and `teardown`: the endpoints in their order, then the pidfile
  | shutdown {s : Launches} (h : s.pc i = .run) : InstanceStep i s (s.goto i (.removeControl true))
  | removeControl {s : Launches} (h : s.pc i = .removeControl true) :
      InstanceStep i s ({ s with control := none }.goto i .removeGlobal)
  | removeControlOnly {s : Launches} (h : s.pc i = .removeControl false) :
      InstanceStep i s ({ s with control := none }.goto i .removePidfile)
  | removeGlobal {s : Launches} (h : s.pc i = .removeGlobal) :
      InstanceStep i s ({ s with global := none }.goto i .removePidfile)
  | removePidfile {s : Launches} (h : s.pc i = .removePidfile) :
      InstanceStep i s ({ s with pidfile := none }.goto i .exited)

/-- An instance that is killed ends as it is: its files stay, its lock does not.  So does one that
calls `exit`, since it cannot write its pid, for which `lockf` fails without a reason, or that
cannot create a manager or a registry while it starts. -/
def Launches.kill (s : Launches) (i : ℕ) : Launches :=
  { s with
    locks := fun inode => if s.locks inode = some i then none else s.locks inode
    pc := Function.update s.pc i .exited }

/-- A step of some instance, or the end of one without `teardown`: a kill, which stands for `exit`
too, or an exception that leaves the event loop and is caught in `main`, when only the endpoints are
destroyed on the way. -/
inductive LaunchStep : Launches → Launches → Prop
  | step {s s' : Launches} (i : ℕ) (h : InstanceStep i s s') : LaunchStep s s'
  | kill {s : Launches} (i : ℕ) (h : s.pc i ≠ .checkConfiguration) : LaunchStep s (s.kill i)
  | unwind {s : Launches} (i : ℕ) (h : s.pc i = .run) : LaunchStep s (s.goto i .unwindControl)
  | unwindControl {s : Launches} (i : ℕ) (h : s.pc i = .unwindControl) :
      LaunchStep s ({ s with control := none }.goto i .unwindGlobal)
  | unwindGlobal {s : Launches} (i : ℕ) (h : s.pc i = .unwindGlobal) :
      LaunchStep s ({ s with global := none }.goto i .exited)

/-! ### What a step can do -/

/-- The instance has got past the place where it binds its control socket. -/
def LaunchPc.pastControl : LaunchPc → Bool
  | checkConfiguration | fork | openPidfile | lockf _ | writePid _ | closePidfile _ => false
  | unlinkControl | bindControl => false
  | _ => true

/-- The same for the other socket. -/
def LaunchPc.pastGlobal : LaunchPc → Bool
  | unlinkGlobal | bindGlobal => false
  | pc => pc.pastControl

/-- One instance makes a step; it removes sockets whose they may be, and binds each of its own
once. -/
theorem LaunchStep.effect {s s' : Launches} (h : LaunchStep s s') :
    ∃ i, (∀ j, j ≠ i → s'.pc j = s.pc j) ∧
      ((s.pc i).pastControl = true → (s'.pc i).pastControl = true) ∧
      ((s.pc i).pastGlobal = true → (s'.pc i).pastGlobal = true) ∧
      (s'.control = s.control ∨ s'.control = none ∨
        (s'.control = some i ∧ (s.pc i).pastControl = false)) ∧
      (s'.global = s.global ∨ s'.global = none ∨
        (s'.global = some i ∧ (s.pc i).pastGlobal = false)) := by
  cases h with
  | step i h =>
      refine ⟨i, fun j hj => ?_, fun hp => ?_, fun hp => ?_, ?_, ?_⟩
      · cases h <;> simp [hj]
      · cases h <;> simp_all [LaunchPc.pastControl]
      · cases h <;> simp_all [LaunchPc.pastGlobal, LaunchPc.pastControl]
      · cases h <;> simp_all [LaunchPc.pastControl]
      · cases h <;> simp_all [LaunchPc.pastGlobal]
  | kill i h =>
      refine ⟨i, fun j hj => Function.update_of_ne hj _ _, fun _ => ?_, fun _ => ?_, .inl rfl,
        .inl rfl⟩
      · simp [Launches.kill, LaunchPc.pastControl]
      · simp [Launches.kill, LaunchPc.pastGlobal, LaunchPc.pastControl]
  | unwind i h =>
      refine ⟨i, fun j hj => by simp [hj], ?_, ?_, .inl rfl, .inl rfl⟩
      · simp [LaunchPc.pastControl]
      · simp [LaunchPc.pastGlobal, LaunchPc.pastControl]
  | unwindControl i h =>
      refine ⟨i, fun j hj => by simp [hj], ?_, ?_, .inr (.inl rfl), .inl rfl⟩
      · simp [LaunchPc.pastControl]
      · simp [LaunchPc.pastGlobal, LaunchPc.pastControl]
  | unwindGlobal i h =>
      refine ⟨i, fun j hj => by simp [hj], ?_, ?_, .inl rfl, .inr (.inl rfl)⟩
      · simp [LaunchPc.pastControl]
      · simp [LaunchPc.pastGlobal, LaunchPc.pastControl]

/-- The socket of an instance that has bound it and lost it. -/
structure Lost (j : ℕ) (s : Launches) : Prop where
  pastControl : (s.pc j).pastControl = true
  pastGlobal : (s.pc j).pastGlobal = true
  control : s.control ≠ some j
  global : s.global ≠ some j

theorem Lost.step {j : ℕ} (s s' : Launches) (h : Lost j s) (hstep : LaunchStep s s') :
    Lost j s' := by
  obtain ⟨i, hothers, hcontrol, hglobal, hbindControl, hbindGlobal⟩ := hstep.effect
  refine ⟨?_, ?_, ?_, ?_⟩
  · by_cases hj : j = i
    · subst hj
      exact hcontrol h.pastControl
    · rw [hothers j hj]
      exact h.pastControl
  · by_cases hj : j = i
    · subst hj
      exact hglobal h.pastGlobal
    · rw [hothers j hj]
      exact h.pastGlobal
  · obtain hsame | hnone | ⟨hbind, hpast⟩ := hbindControl
    · rw [hsame]
      exact h.control
    · rw [hnone]
      rintro ⟨⟩
    · rw [hbind]
      rintro ⟨⟩
      rw [h.pastControl] at hpast
      cases hpast
  · obtain hsame | hnone | ⟨hbind, hpast⟩ := hbindGlobal
    · rw [hsame]
      exact h.global
    · rw [hnone]
      rintro ⟨⟩
    · rw [hbind]
      rintro ⟨⟩
      rw [h.pastGlobal] at hpast
      cases hpast

/-! ### A new instance -/

/-- The inodes that are in use have been given out. -/
structure InodesUsed (s : Launches) : Prop where
  pidfile : ∀ inode, s.pidfile = some inode → inode < s.inodes
  opened : ∀ j inode, s.pc j = .lockf inode → inode < s.inodes
  locked : ∀ inode, s.locks inode ≠ none → inode < s.inodes

theorem InodesUsed.ofInit : InodesUsed .init where
  pidfile _ h := by cases h
  opened _ _ h := by cases h
  locked _ h := absurd rfl h

theorem InodesUsed.goto {s : Launches} (h : InodesUsed s) (i : ℕ) {pc : LaunchPc}
    (hpc : ∀ inode, pc = .lockf inode → inode < s.inodes) : InodesUsed (s.goto i pc) := by
  refine ⟨h.pidfile, fun j inode hj => ?_, h.locked⟩
  rw [Launches.goto_pc] at hj
  split_ifs at hj
  · exact hpc inode hj
  · exact h.opened j inode hj

theorem InodesUsed.step (s s' : Launches) (h : InodesUsed s) (hstep : LaunchStep s s') :
    InodesUsed s' := by
  have hold : ∀ {pidfile control global parent}, (∀ inode, pidfile = some inode →
      inode < s.inodes) → InodesUsed ⟨pidfile, s.inodes, s.locks, control, global, s.pc, parent⟩ :=
    fun hpidfile => ⟨hpidfile, h.opened, h.locked⟩
  have hlocks : ∀ {inode o}, inode < s.inodes → ∀ k,
      Function.update s.locks inode o k ≠ none → k < s.inodes := by
    intro inode o hinode k hk
    rw [Function.update_apply] at hk
    split_ifs at hk with hkey
    · rw [hkey]
      exact hinode
    · exact h.locked k hk
  cases hstep with
  | kill i hi =>
      refine ⟨h.pidfile, fun j inode hj => ?_, fun inode hinode => ?_⟩
      · have hpc : Function.update s.pc i .exited j = .lockf inode := hj
        rw [Function.update_apply] at hpc
        split_ifs at hpc
        exact h.opened j inode hpc
      · have hlocked : (if s.locks inode = some i then none else s.locks inode) ≠ none := hinode
        split_ifs at hlocked
        · exact absurd rfl hlocked
        · exact h.locked inode hlocked
  | unwind i hi => exact h.goto i (by rintro _ ⟨⟩)
  | unwindControl i hi => exact (hold h.pidfile).goto i (by rintro _ ⟨⟩)
  | unwindGlobal i hi => exact (hold h.pidfile).goto i (by rintro _ ⟨⟩)
  | step i hi =>
      cases hi with
      | fork hpc => exact (hold h.pidfile).goto i (by rintro _ ⟨⟩)
      | parentTeardown hparent => exact hold (by rintro _ ⟨⟩)
      | openOld hpc hfile =>
          refine h.goto i ?_
          rintro _ ⟨⟩
          exact h.pidfile _ hfile
      | openNew hpc hfile =>
          refine InodesUsed.goto ⟨?_, fun j inode hj => ?_, fun inode hinode => ?_⟩ i ?_
          · rintro _ ⟨⟩
            exact Nat.lt_succ_self s.inodes
          · exact Nat.lt_succ_of_lt (h.opened j inode hj)
          · exact Nat.lt_succ_of_lt (h.locked inode hinode)
          · rintro _ ⟨⟩
            exact Nat.lt_succ_self s.inodes
      | lock hpc hfree =>
          refine InodesUsed.goto ⟨?_, ?_, ?_⟩ i ?_
          · exact h.pidfile
          · exact h.opened
          · exact hlocks (h.opened i _ hpc)
          · rintro _ ⟨⟩
      | close hpc =>
          refine InodesUsed.goto ⟨?_, ?_, fun k hk => ?_⟩ i ?_
          · exact h.pidfile
          · exact h.opened
          · have hlocked : Function.update s.locks _ none k ≠ none := hk
            rw [Function.update_apply] at hlocked
            split_ifs at hlocked
            · exact absurd rfl hlocked
            · exact h.locked k hlocked
          · rintro _ ⟨⟩
      | unlinkControl hpc => exact (hold h.pidfile).goto i (by rintro _ ⟨⟩)
      | bindControl hpc hfree => exact (hold h.pidfile).goto i (by rintro _ ⟨⟩)
      | unlinkGlobal hpc => exact (hold h.pidfile).goto i (by rintro _ ⟨⟩)
      | bindGlobal hpc hfree => exact (hold h.pidfile).goto i (by rintro _ ⟨⟩)
      | removeControl hpc => exact (hold h.pidfile).goto i (by rintro _ ⟨⟩)
      | removeControlOnly hpc => exact (hold h.pidfile).goto i (by rintro _ ⟨⟩)
      | removeGlobal hpc => exact (hold h.pidfile).goto i (by rintro _ ⟨⟩)
      | removePidfile hpc => exact (hold (by rintro _ ⟨⟩)).goto i (by rintro _ ⟨⟩)
      | _ => exact h.goto i (by rintro _ ⟨⟩)

/-- The parent removes the pidfile, and the child locks a new one. -/
theorem daemonizes {s : Launches} (h : InodesUsed s) {i : ℕ} (hi : s.pc i = .checkConfiguration) :
    ∃ s', Run (InstanceStep i) s s' ∧ s'.pc i = .unlinkControl ∧ ∀ j, j ≠ i → s'.pc j = s.pc j := by
  have hfree : s.locks s.inodes = none := by
    by_contra hne
    exact lt_irrefl _ (h.locked _ hne)
  have hself : ∀ (pcs : ℕ → LaunchPc) pc, Function.update pcs i pc i = pc :=
    fun pcs pc => Function.update_self i pc pcs
  refine ⟨_, .head (.daemon hi) (.head (.fork (hself _ _)) (.head (.parentTeardown ?_)
    (.head (.openNew (hself _ _) rfl) (.head (.lock (hself _ _) hfree) (.head (.write (hself _ _))
    (.single (.close (hself _ _)))))))), hself _ _, fun j hj => ?_⟩
  · exact Function.update_self i true s.parent
  · simp [hj]

/-- It takes the sockets, whose they may be. -/
theorem takes_sockets {s : Launches} {i : ℕ} (hi : s.pc i = .unlinkControl) :
    ∃ s', Run (InstanceStep i) s s' ∧ s'.pc i = .network ∧ s'.control = some i ∧
      s'.global = some i ∧ ∀ j, j ≠ i → s'.pc j = s.pc j := by
  have hself : ∀ (pcs : ℕ → LaunchPc) pc, Function.update pcs i pc i = pc :=
    fun pcs pc => Function.update_self i pc pcs
  refine ⟨_, .head (.unlinkControl hi) (.head (.bindControl (hself _ _) rfl)
    (.head (.unlinkGlobal (hself _ _)) (.single (.bindGlobal (hself _ _) rfl)))), hself _ _, rfl,
    rfl, fun j hj => ?_⟩
  simp [hj]

/-- **The pidfile keeps no daemon from starting.**  Whatever the others have done, a new instance
can get past it by its own steps and take both sockets; those that serve go on, but no client will
ever find them again, whatever becomes of the new one. -/
theorem daemon_never_excluded {s : Launches} (h : Run LaunchStep .init s) {i : ℕ}
    (hi : s.pc i = .checkConfiguration) :
    ∃ s', Run (InstanceStep i) s s' ∧ s'.pc i = .network ∧ s'.control = some i ∧
      s'.global = some i ∧ (∀ j, j ≠ i → s'.pc j = s.pc j) ∧
      ∀ j, s.pc j = .run → ∀ t, Run LaunchStep s' t → t.control ≠ some j ∧ t.global ≠ some j := by
  have hused : InodesUsed s := h.invariant InodesUsed.step .ofInit
  obtain ⟨s₁, hrun₁, hpc₁, hothers₁⟩ := daemonizes hused hi
  obtain ⟨s₂, hrun₂, hpc₂, hcontrol, hglobal, hothers₂⟩ := takes_sockets hpc₁
  have hothers : ∀ j, j ≠ i → s₂.pc j = s.pc j := fun j hj =>
    (hothers₂ j hj).trans (hothers₁ j hj)
  refine ⟨s₂, hrun₁.trans hrun₂, hpc₂, hcontrol, hglobal, hothers, fun j hj t ht => ?_⟩
  have hne : j ≠ i := by
    rintro rfl
    rw [hi] at hj
    cases hj
  have hserves : s₂.pc j = .run := (hothers j hne).trans hj
  have hlost : Lost j s₂ := by
    refine ⟨by rw [hserves]; rfl, by rw [hserves]; rfl, ?_, ?_⟩
    · rw [hcontrol]
      exact fun hij => hne (Option.some.inj hij).symm
    · rw [hglobal]
      exact fun hij => hne (Option.some.inj hij).symm
  have hlost' : Lost j t := ht.invariant Lost.step hlost
  exact ⟨hlost'.control, hlost'.global⟩

/-- A daemon serves, and another one has its sockets. -/
theorem second_daemon_starts : ∃ s, Run LaunchStep .init s ∧ s.pc 0 = .run ∧ s.pc 1 = .network ∧
    s.control = some 1 ∧ s.global = some 1 ∧
    ∀ t, Run LaunchStep s t → t.control ≠ some 0 ∧ t.global ≠ some 0 := by
  have hlift : ∀ {i s s'}, Run (InstanceStep i) s s' → Run LaunchStep s s' := fun hrun =>
    Relation.ReflTransGen.mono (fun _ _ hstep => .step _ hstep) _ _ hrun
  obtain ⟨s₁, hrun₁, hpc₁, -, -, hothers₁, -⟩ :=
    daemon_never_excluded (s := .init) (i := 0) .refl rfl
  have hfirst : Run LaunchStep .init (s₁.goto 0 .run) :=
    (hlift hrun₁).tail (.step 0 (.network hpc₁))
  have hfresh : (s₁.goto 0 .run).pc 1 = .checkConfiguration := hothers₁ 1 (by decide)
  obtain ⟨s₂, hrun₂, hpc₂, hcontrol, hglobal, hothers₂, hlost⟩ :=
    daemon_never_excluded hfirst hfresh
  exact ⟨s₂, hfirst.trans (hlift hrun₂), hothers₂ 0 (by decide), hpc₂, hcontrol, hglobal,
    hlost 0 rfl⟩

/-! ### What is left -/

/-- The instance has its control socket bound, and will remove it. -/
def LaunchPc.hasControl : LaunchPc → Bool
  | unlinkGlobal | bindGlobal | network | run | removeControl _ => true
  | _ => false

def LaunchPc.hasGlobal : LaunchPc → Bool
  | network | run | removeControl true | removeGlobal => true
  | _ => false

/-- The instance has a `teardown` before it that removes the pidfile, unless it is refused. -/
def LaunchPc.hasPidfile : LaunchPc → Bool
  | checkConfiguration | fork | openPidfile | unwindControl | unwindGlobal | exited => false
  | _ => true

/-- Every file is one that some instance will remove. -/
structure FilesOwned (s : Launches) : Prop where
  control : ∀ i, s.control = some i → (s.pc i).hasControl = true
  global : ∀ i, s.global = some i → (s.pc i).hasGlobal = true
  pidfile : s.pidfile ≠ none → ∃ i, (s.pc i).hasPidfile = true
  locks : ∀ inode i, s.locks inode = some i →
    s.pc i = .writePid inode ∨ s.pc i = .closePidfile inode

theorem FilesOwned.ofInit : FilesOwned .init where
  control _ h := by cases h
  global _ h := by cases h
  pidfile h := absurd rfl h
  locks _ _ h := by cases h

namespace InstanceStep

variable {i : ℕ} {s s' : Launches}

theorem pc_of_ne (h : InstanceStep i s s') {j : ℕ} (hj : j ≠ i) : s'.pc j = s.pc j := by
  cases h <;> simp [hj]

theorem control (h : InstanceStep i s s') (howned : FilesOwned s) {j : ℕ}
    (hj : s'.control = some j) : (s'.pc j).hasControl = true := by
  have hold := howned.control j
  by_cases hji : j = i
  · subst hji
    cases h <;> simp_all [LaunchPc.hasControl]
  · rw [h.pc_of_ne hji]
    cases h <;> simp_all

theorem global (h : InstanceStep i s s') (howned : FilesOwned s) {j : ℕ}
    (hj : s'.global = some j) : (s'.pc j).hasGlobal = true := by
  have hold := howned.global j
  by_cases hji : j = i
  · subst hji
    cases h <;> simp_all [LaunchPc.hasGlobal]
  · rw [h.pc_of_ne hji]
    cases h <;> simp_all

theorem pidfile (h : InstanceStep i s s') (howned : FilesOwned s) (hfile : s'.pidfile ≠ none) :
    ∃ j, (s'.pc j).hasPidfile = true := by
  -- whoever was to remove it still is, or it is the instance of the step
  have hkeep : s.pidfile ≠ none → ((s.pc i).hasPidfile = true → (s'.pc i).hasPidfile = true) →
      ∃ j, (s'.pc j).hasPidfile = true := by
    intro hold hself
    obtain ⟨j, hj⟩ := howned.pidfile hold
    by_cases hji : j = i
    · subst hji
      exact ⟨j, hself hj⟩
    · exact ⟨j, by rwa [h.pc_of_ne hji]⟩
  cases h with
  | @lockFails inode j hpc hheld =>
      -- the one that has the lock has a `teardown` before it
      have hj := howned.locks inode j hheld
      have hji : j ≠ i := by
        rintro rfl
        rw [hpc] at hj
        obtain hj | hj := hj <;> cases hj
      refine ⟨j, ?_⟩
      rw [Launches.goto_pc, if_neg hji]
      obtain hj | hj := hj <;> rw [hj] <;> rfl
  | openNew hpc hnone => exact ⟨i, by simp [LaunchPc.hasPidfile]⟩
  | parentTeardown hparent => exact absurd rfl hfile
  | removePidfile hpc => exact absurd rfl hfile
  | _ => exact hkeep hfile (by simp_all [LaunchPc.hasPidfile])

theorem locks (h : InstanceStep i s s') (howned : FilesOwned s) {inode j : ℕ}
    (hj : s'.locks inode = some j) : s'.pc j = .writePid inode ∨ s'.pc j = .closePidfile inode := by
  have hold := howned.locks inode j
  by_cases hji : j = i
  · subst hji
    cases h with
    | lock hpc hfree =>
        have hlock : Function.update s.locks _ (some j) inode = some j := hj
        rw [Function.update_apply] at hlock
        split_ifs at hlock with hinode
        · rw [hinode]
          exact .inl (by simp)
        · rw [hpc] at hold
          obtain hno | hno := hold hlock <;> cases hno
    | close hpc =>
        have hlock : Function.update s.locks _ none inode = some j := hj
        rw [Function.update_apply] at hlock
        split_ifs at hlock with hinode
        rw [hpc] at hold
        obtain hno | hno := hold hlock
        · cases hno
        · cases hno
          exact absurd rfl hinode
    | _ => simp_all
  · rw [h.pc_of_ne hji]
    cases h with
    | lock hpc hfree =>
        have hlock : Function.update s.locks _ (some i) inode = some j := hj
        rw [Function.update_apply] at hlock
        split_ifs at hlock
        · exact absurd (Option.some.inj hlock).symm hji
        · exact hold hlock
    | close hpc =>
        have hlock : Function.update s.locks _ none inode = some j := hj
        rw [Function.update_apply] at hlock
        split_ifs at hlock
        exact hold hlock
    | _ => exact hold hj

end InstanceStep

theorem FilesOwned.step (s s' : Launches) (h : FilesOwned s)
    (hstep : ∃ i, InstanceStep i s s') : FilesOwned s' := by
  obtain ⟨i, hi⟩ := hstep
  exact ⟨fun _ => hi.control h, fun _ => hi.global h, hi.pidfile h, fun _ _ => hi.locks h⟩

/-- The `teardown` of an instance that has served. -/
theorem tears_down {s : Launches} {i : ℕ} (hi : s.pc i = .run) :
    ∃ s', Run (InstanceStep i) s s' ∧ s'.pc i = .exited ∧ ∀ j, j ≠ i → s'.pc j = s.pc j := by
  have hself : ∀ (pcs : ℕ → LaunchPc) pc, Function.update pcs i pc i = pc :=
    fun pcs pc => Function.update_self i pc pcs
  refine ⟨_, .head (.shutdown hi) (.head (.removeControl (hself _ _))
    (.head (.removeGlobal (hself _ _)) (.single (.removePidfile (hself _ _))))), hself _ _,
    fun j hj => ?_⟩
  simp [hj]

/-- A daemon in the foreground. -/
theorem serves_in_foreground {s : Launches} {i : ℕ} (hi : s.pc i = .checkConfiguration) :
    ∃ s', Run (InstanceStep i) s s' ∧ s'.pc i = .run ∧ ∀ j, j ≠ i → s'.pc j = s.pc j := by
  obtain ⟨s₁, hrun, hpc, -, -, hothers⟩ := takes_sockets (s := s.goto i .unlinkControl)
    (Function.update_self i _ _)
  refine ⟨s₁.goto i .run, (hrun.head (.foreground hi)).tail (.network hpc),
    Function.update_self i _ _, fun j hj => ?_⟩
  rw [Launches.goto_pc, if_neg hj, hothers j hj, Launches.goto_pc, if_neg hj]

/-- The instance has been started and has not ended. -/
def LaunchPc.alive : LaunchPc → Bool
  | checkConfiguration | exited => false
  | _ => true

/-- An instance is started only while no other one is alive. -/
def StartsAlone (s s' : Launches) : Prop :=
  ∀ i, s.pc i = .checkConfiguration → s'.pc i ≠ .checkConfiguration →
    ∀ j, j ≠ i → (s.pc j).alive = false

/-- There is at most one, and it has the sockets that it has bound. -/
structure Sole (s : Launches) : Prop where
  one : ∀ i j, (s.pc i).alive = true → (s.pc j).alive = true → i = j
  control : ∀ i, (s.pc i).hasControl = true → s.control = some i
  global : ∀ i, (s.pc i).hasGlobal = true → s.global = some i

theorem Sole.ofInit : Sole .init where
  one i j h := by cases h
  control i h := by cases h
  global i h := by cases h

theorem LaunchPc.alive_of_hasControl {pc : LaunchPc} (h : pc.hasControl = true) :
    pc.alive = true := by
  cases pc <;> first | rfl | cases h

theorem LaunchPc.alive_of_hasGlobal {pc : LaunchPc} (h : pc.hasGlobal = true) :
    pc.alive = true := by
  cases pc <;> first | rfl | cases h

/-- What a step means for an instance that is alone. -/
structure OwnEffect (i : ℕ) (s s' : Launches) : Prop where
  others : ∀ j, j ≠ i → s'.pc j = s.pc j
  starts : (s'.pc i).alive = true → (s.pc i).alive = true ∨ s.pc i = .checkConfiguration
  control : ((s.pc i).hasControl = true → s.control = some i) →
    (s'.pc i).hasControl = true → s'.control = some i
  global : ((s.pc i).hasGlobal = true → s.global = some i) →
    (s'.pc i).hasGlobal = true → s'.global = some i
  changes : s'.control ≠ s.control ∨ s'.global ≠ s.global → (s.pc i).alive = true

theorem LaunchStep.ownEffect {s s' : Launches} (h : LaunchStep s s') : ∃ i, OwnEffect i s s' := by
  cases h with
  | step i h =>
      refine ⟨i, fun j => h.pc_of_ne, ?_, ?_, ?_, ?_⟩
      · cases h <;> simp_all [LaunchPc.alive]
      · cases h <;> simp_all [LaunchPc.hasControl]
      · cases h <;> simp_all [LaunchPc.hasGlobal]
      · cases h <;> simp_all [LaunchPc.alive]
  | kill i h =>
      refine ⟨i, fun j hj => Function.update_of_ne hj _ _, fun ha => ?_, fun _ hc => ?_,
        fun _ hg => ?_, fun hchange => ?_⟩
      · simp [Launches.kill, LaunchPc.alive] at ha
      · simp [Launches.kill, LaunchPc.hasControl] at hc
      · simp [Launches.kill, LaunchPc.hasGlobal] at hg
      · simp [Launches.kill] at hchange
  | unwind i h =>
      refine ⟨i, fun j hj => by simp [hj], ?_, ?_, ?_, ?_⟩
      · simp [h, LaunchPc.alive]
      · simp [LaunchPc.hasControl]
      · simp [LaunchPc.hasGlobal]
      · simp
  | unwindControl i h =>
      refine ⟨i, fun j hj => by simp [hj], ?_, ?_, ?_, ?_⟩
      · simp [h, LaunchPc.alive]
      · simp [LaunchPc.hasControl]
      · simp [LaunchPc.hasGlobal]
      · simp [h, LaunchPc.alive]
  | unwindGlobal i h =>
      refine ⟨i, fun j hj => by simp [hj], ?_, ?_, ?_, ?_⟩
      · simp [LaunchPc.alive]
      · simp [LaunchPc.hasControl]
      · simp [LaunchPc.hasGlobal]
      · simp [h, LaunchPc.alive]

theorem Sole.step (s s' : Launches) (h : Sole s) (hstep : Guarded LaunchStep StartsAlone s s') :
    Sole s' := by
  obtain ⟨hstep, halone⟩ := hstep
  obtain ⟨i, hothers, hstarts, hcontrol, hglobal, hchanges⟩ := hstep.ownEffect
  -- no other instance is alive beside one that makes a step and is alive after it
  have hdead : (s'.pc i).alive = true → ∀ j, j ≠ i → (s.pc j).alive = false := by
    intro hi j hj
    obtain hi' | hi' := hstarts hi
    · by_contra hjalive
      exact hj (h.one j i (by simpa using hjalive) hi')
    · refine halone i hi' (fun hsame => ?_) j hj
      rw [hsame] at hi
      cases hi
  have hsockets : ∀ j, j ≠ i → (s.pc j).alive = true →
      s'.control = s.control ∧ s'.global = s.global := by
    intro j hj hjalive
    refine ⟨?_, ?_⟩
    · by_contra hchange
      exact hj (h.one j i hjalive (hchanges (.inl hchange)))
    · by_contra hchange
      exact hj (h.one j i hjalive (hchanges (.inr hchange)))
  refine ⟨fun j k hj hk => ?_, fun j hj => ?_, fun j hj => ?_⟩
  · by_cases hji : j = i <;> by_cases hki : k = i
    · rw [hji, hki]
    · subst hji
      rw [hothers k hki, hdead hj k hki] at hk
      cases hk
    · subst hki
      rw [hothers j hji, hdead hk j hji] at hj
      cases hj
    · rw [hothers j hji] at hj
      rw [hothers k hki] at hk
      exact h.one j k hj hk
  · by_cases hji : j = i
    · subst hji
      exact hcontrol (h.control j) hj
    · rw [hothers j hji] at hj
      rw [(hsockets j hji (LaunchPc.alive_of_hasControl hj)).1]
      exact h.control j hj
  · by_cases hji : j = i
    · subst hji
      exact hglobal (h.global j) hj
    · rw [hothers j hji] at hj
      rw [(hsockets j hji (LaunchPc.alive_of_hasGlobal hj)).2]
      exact h.global j hj

/-- **One at a time.**  If instances are started only while no other one is alive, an instance that
serves has both sockets, even if others before it were killed and left theirs behind. -/
theorem sole_daemon_reachable {s : Launches} (h : Run (Guarded LaunchStep StartsAlone) .init s)
    {i : ℕ} (hi : s.pc i = .run) : s.control = some i ∧ s.global = some i := by
  have hsole : Sole s := h.invariant Sole.step .ofInit
  exact ⟨hsole.control i (by rw [hi]; rfl), hsole.global i (by rw [hi]; rfl)⟩

/-- An instance beside which no other one is alive. -/
theorem guarded_of_alone {i : ℕ} {s s' : Launches} (h : Run (InstanceStep i) s s')
    (halone : ∀ j, j ≠ i → (s.pc j).alive = false) :
    Run (Guarded LaunchStep StartsAlone) s s' ∧ ∀ j, j ≠ i → s'.pc j = s.pc j := by
  induction h with
  | refl => exact ⟨.refl, fun _ _ => rfl⟩
  | @tail t t' _ hstep ih =>
      obtain ⟨hrun, hothers⟩ := ih
      refine ⟨hrun.tail ⟨.step i hstep, fun k hk hk' j hj => ?_⟩, fun j hj => ?_⟩
      · obtain rfl : k = i := by
          by_contra hki
          exact hk' ((hstep.pc_of_ne hki).trans hk)
        rw [hothers j hj]
        exact halone j hj
      · rw [hstep.pc_of_ne hj, hothers j hj]

/-- A daemon is killed, and the next one takes over the sockets that it has left. -/
theorem restarted_daemon_reachable : ∃ s, Run (Guarded LaunchStep StartsAlone) .init s ∧
    s.pc 0 = .exited ∧ s.pc 1 = .run ∧ s.control = some 1 ∧ s.global = some 1 := by
  obtain ⟨s₀, hrun₀, hpc₀, -⟩ := serves_in_foreground (s := .init) (i := 0) rfl
  obtain ⟨hguarded₀, hothers₀⟩ := guarded_of_alone hrun₀ fun _ _ => rfl
  have hkill : Guarded LaunchStep StartsAlone s₀ (s₀.kill 0) := by
    refine ⟨.kill 0 (by rw [hpc₀]; rintro ⟨⟩), fun k hk hk' => ?_⟩
    by_cases hk0 : k = 0
    · rw [hk0, hpc₀] at hk
      cases hk
    · exact absurd ((Function.update_of_ne hk0 _ _).trans hk) hk'
  have hpcs : ∀ j, j ≠ 1 → ((s₀.kill 0).pc j).alive = false := by
    intro j hj
    show (Function.update s₀.pc 0 .exited j).alive = false
    by_cases hj0 : j = 0
    · rw [hj0, Function.update_self]
      rfl
    · rw [Function.update_of_ne hj0, hothers₀ j hj0]
      rfl
  have hfresh : (s₀.kill 0).pc 1 = .checkConfiguration := by
    show Function.update s₀.pc 0 .exited 1 = _
    rw [Function.update_of_ne (by decide), hothers₀ 1 (by decide)]
    rfl
  obtain ⟨s₁, hrun₁, hpc₁, -⟩ := serves_in_foreground hfresh
  obtain ⟨hguarded₁, hothers₁⟩ := guarded_of_alone hrun₁ hpcs
  have hall := (hguarded₀.tail hkill).trans hguarded₁
  refine ⟨s₁, hall, ?_, hpc₁, sole_daemon_reachable hall hpc₁⟩
  rw [hothers₁ 0 (by decide)]
  exact Function.update_self 0 .exited s₀.pc

end Norns
