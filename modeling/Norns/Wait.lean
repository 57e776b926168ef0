import Norns.Client

/-! # The timeout of a wait

`norns_wait` and `nornsctl_wait` ask for the status of the task and, while it has not completed,
sleep.  `waitEvents` lists the requests and the sleeps that one call makes; what the call returns is
`waitLoop` of `Norns.Client`, and `waitLoop_slept` and `waitLoop_answers` say that the two belong to
the same run.

A call with a timeout is meant to check the task again when a signal interrupts the sleep, and then
to sleep for the time that remains.  The loop computes that time and falls through to
`return NORNS_ETIMEOUT`. -/

namespace Norns

/-! ### Answers -/

/-- The answer makes the wait return: it is an error, or the task has completed. -/
def Reply.ends (a : Reply) : Bool :=
  (sendStatusRequest ⟨0, 0, 0⟩ a).1 ≠ NORNS_SUCCESS ||
    (sendStatusRequest ⟨0, 0, 0⟩ a).2.finished

/-- The answer tells that the task has completed. -/
def Reply.terminal (a : Reply) : Bool :=
  (sendStatusRequest ⟨0, 0, 0⟩ a).1 = NORNS_SUCCESS &&
    (sendStatusRequest ⟨0, 0, 0⟩ a).2.finished

/-- The code in the answer is one of `urd_error`.  These are the codes that the daemon sends, and
`send_request` fails with no other. -/
def Reply.OfDaemon : Reply → Prop
  | .failed res _ => ∃ e : UrdError, res = e.code
  | .otherType => True
  | .status errorCode _ => ∃ e : UrdError, errorCode = e.code

theorem StatusAnswer.reply_ofDaemon (a : StatusAnswer) : a.reply.OfDaemon := by
  unfold StatusAnswer.reply
  split
  · exact ⟨.success, rfl⟩
  · exact ⟨.noSuchTask, rfl⟩

theorem UrdError.code_ne_timeout (e : UrdError) : e.code ≠ NORNS_ETIMEOUT := by
  cases e <;> decide

/-- No answer has the code of a timeout. -/
theorem Reply.OfDaemon.code_ne_timeout {a : Reply} (h : a.OfDaemon) :
    (sendStatusRequest ⟨0, 0, 0⟩ a).1 ≠ NORNS_ETIMEOUT := by
  cases a with
  | failed res hres =>
    obtain ⟨e, rfl⟩ := h
    exact e.code_ne_timeout
  | otherType => decide
  | status errorCode st =>
    obtain ⟨e, rfl⟩ := h
    exact e.code_ne_timeout

/-! ### The events of a call -/

inductive WaitEvent where
  | check (answer : Reply)
  | sleep (requested : ℕ) (result : Nanosleep)

/-- The time that a call of `nanosleep` has slept, at least. -/
def Nanosleep.time (requested : ℕ) : Nanosleep → ℕ
  | .slept => requested
  | .eintr remaining => requested - remaining
  | .einval | .failed => 0

/-- The next round of the loop sleeps for the result, if there is a next round. -/
def nextRequested (dflt : ℕ) (timeout : Option ℕ) (requested : ℕ) : Nanosleep → Option ℕ
  | .einval | .failed => none
  | .slept => if timeout.isNone then some requested else none
  | .eintr _ => if timeout.isNone then some dflt else none

/-- The requests and the sleeps of `waitLoop`. -/
def waitEvents (dflt : ℕ) (timeout : Option ℕ) :
    ℕ → List Reply → List Nanosleep → List WaitEvent
  | _, [], _ => []
  | requested, a :: replies, sleeps =>
      if a.ends then [.check a]
      else
        match sleeps with
        | [] => [.check a]
        | s :: sleeps =>
            .check a :: .sleep requested s ::
              match nextRequested dflt timeout requested s with
              | some next => waitEvents dflt timeout next replies sleeps
              | none => []

/-- The default timeout of a library. -/
def Library.defaultTimeout : Library → ℕ
  | .norns => LIBNORNS_DEFAULT_TIMEOUT
  | .nornsctl => LIBNORNSCTL_DEFAULT_TIMEOUT

/-- The events of `norns_wait` and of `nornsctl_wait`. -/
def Library.waitEvents (lib : Library) (task : Iotask) (timeout : Option ℕ) (replies : List Reply)
    (sleeps : List Nanosleep) : List WaitEvent :=
  if task.tId = 0 then []
  else Norns.waitEvents lib.defaultTimeout timeout (timeout.getD lib.defaultTimeout) replies sleeps

def WaitEvent.time : WaitEvent → ℕ
  | .check _ => 0
  | .sleep requested result => result.time requested

/-- The total time slept. -/
def sleptTime (events : List WaitEvent) : ℕ := (events.map WaitEvent.time).sum

/-- The answers that the requests among the events came back with. -/
def answers (events : List WaitEvent) : List Reply :=
  events.filterMap fun e => match e with
    | .check a => some a
    | .sleep _ _ => none

/-! ### The loop and its events -/

theorem finishCall_inv {α : Type} {replies : List Reply} {sleeps : List Nanosleep} {a b : α}
    (h : finishCall replies sleeps a = some b) : replies = [] ∧ sleeps = [] ∧ b = a := by
  have heq := finishCall_eq_some h
  unfold finishCall at h
  split_ifs at h with hempty
  rw [Bool.and_eq_true, List.isEmpty_iff, List.isEmpty_iff] at hempty
  exact ⟨hempty.1, hempty.2, heq.symm⟩

section loop

variable {dflt : ℕ} {timeout : Option ℕ} {task : Iotask} {requested slept : ℕ}
  {replies : List Reply} {sleeps : List Nanosleep} {r : WaitResult}

/-- A round whose answer makes the wait return. -/
theorem waitLoop_ends {a : Reply} (ha : a.ends = true)
    (h : waitLoop dflt timeout task requested slept (a :: replies) sleeps = some r) :
    r.slept = slept ∧ r.rv = (sendStatusRequest ⟨0, 0, 0⟩ a).1 ∧ replies = [] ∧ sleeps = [] := by
  unfold waitLoop at h
  dsimp only at h
  simp only [Reply.ends, Bool.or_eq_true, decide_eq_true_eq] at ha
  by_cases hrv : (sendStatusRequest ⟨0, 0, 0⟩ a).1 = NORNS_SUCCESS
  · rw [if_neg (not_not.mpr hrv), if_pos (ha.resolve_left (not_not.mpr hrv))] at h
    obtain ⟨hreplies, hsleeps, rfl⟩ := finishCall_inv h
    exact ⟨rfl, hrv.symm, hreplies, hsleeps⟩
  · rw [if_pos hrv] at h
    obtain ⟨hreplies, hsleeps, rfl⟩ := finishCall_inv h
    exact ⟨rfl, rfl, hreplies, hsleeps⟩

/-- A round that sleeps: the loop goes on, or the wait returns an error. -/
theorem waitLoop_sleeps {a : Reply} (ha : a.ends = false)
    (h : waitLoop dflt timeout task requested slept (a :: replies) sleeps = some r) :
    ∃ s rest, sleeps = s :: rest ∧
      ((∃ next, nextRequested dflt timeout requested s = some next ∧
          waitLoop dflt timeout task next (slept + s.time requested) replies rest = some r) ∨
        (nextRequested dflt timeout requested s = none ∧ replies = [] ∧ rest = [] ∧
          r.slept = slept + s.time requested ∧ r.rv ≠ NORNS_SUCCESS ∧
          (r.rv = NORNS_ETIMEOUT → timeout.isSome ∧ (s = .slept ∨ ∃ rem, s = .eintr rem)))) := by
  simp only [Reply.ends, Bool.or_eq_false_iff, decide_eq_false_iff_not, not_not] at ha
  unfold waitLoop at h
  dsimp only at h
  rw [if_neg (not_not.mpr ha.1), if_neg (by simp [ha.2])] at h
  match sleeps, h with
  | .einval :: rest, h =>
    obtain ⟨hreplies, hrest, rfl⟩ := finishCall_inv h
    have hrv : NORNS_EBADARGS ≠ NORNS_ETIMEOUT := by decide
    exact ⟨_, rest, rfl, .inr ⟨rfl, hreplies, hrest, rfl, nofun, fun h => absurd h hrv⟩⟩
  | .failed :: rest, h =>
    obtain ⟨hreplies, hrest, rfl⟩ := finishCall_inv h
    have hrv : NORNS_ESNAFU ≠ NORNS_ETIMEOUT := by decide
    exact ⟨_, rest, rfl, .inr ⟨rfl, hreplies, hrest, rfl, nofun, fun h => absurd h hrv⟩⟩
  | .slept :: rest, h =>
    refine ⟨_, rest, rfl, ?_⟩
    cases timeout with
    | none => exact .inl ⟨requested, rfl, h⟩
    | some T =>
      obtain ⟨hreplies, hrest, rfl⟩ := finishCall_inv h
      exact .inr ⟨rfl, hreplies, hrest, rfl, nofun, fun _ => ⟨rfl, .inl rfl⟩⟩
  | .eintr remaining :: rest, h =>
    refine ⟨_, rest, rfl, ?_⟩
    cases timeout with
    | none => exact .inl ⟨dflt, rfl, h⟩
    | some T =>
      obtain ⟨hreplies, hrest, rfl⟩ := finishCall_inv h
      exact .inr ⟨rfl, hreplies, hrest, rfl, nofun, fun _ => ⟨rfl, .inr ⟨remaining, rfl⟩⟩⟩

theorem waitEvents_ends {a : Reply} (ha : a.ends = true) :
    waitEvents dflt timeout requested (a :: replies) sleeps = [.check a] := by
  unfold waitEvents
  rw [if_pos ha]

theorem waitEvents_next {a : Reply} {s : Nanosleep} {next : ℕ} (ha : a.ends = false)
    (hs : nextRequested dflt timeout requested s = some next) :
    waitEvents dflt timeout requested (a :: replies) (s :: sleeps) =
      .check a :: .sleep requested s :: waitEvents dflt timeout next replies sleeps := by
  conv_lhs => unfold waitEvents
  rw [if_neg (by simp [ha])]
  simp only [hs]

theorem waitEvents_last {a : Reply} {s : Nanosleep} (ha : a.ends = false)
    (hs : nextRequested dflt timeout requested s = none) :
    waitEvents dflt timeout requested (a :: replies) (s :: sleeps) =
      [.check a, .sleep requested s] := by
  conv_lhs => unfold waitEvents
  rw [if_neg (by simp [ha])]
  simp only [hs]

/-- The time in the result of the loop is the time of its events. -/
theorem waitLoop_slept
    (h : waitLoop dflt timeout task requested slept replies sleeps = some r) :
    r.slept = slept + sleptTime (waitEvents dflt timeout requested replies sleeps) := by
  induction replies generalizing requested slept sleeps with
  | nil => simp [waitLoop] at h
  | cons a replies ih =>
    cases ha : a.ends with
    | true =>
      obtain ⟨hslept, -, -, -⟩ := waitLoop_ends ha h
      simp [waitEvents_ends ha, hslept, sleptTime, WaitEvent.time]
    | false =>
      obtain ⟨s, rest, rfl, ⟨next, hs, hnext⟩ | ⟨hs, -, -, hslept, -⟩⟩ := waitLoop_sleeps ha h
      · rw [ih hnext, waitEvents_next ha hs]
        simp [sleptTime, WaitEvent.time, Nat.add_assoc]
      · simp [waitEvents_last ha hs, hslept, sleptTime, WaitEvent.time]

/-- The loop has asked for all the answers it was given. -/
theorem waitLoop_answers
    (h : waitLoop dflt timeout task requested slept replies sleeps = some r) :
    answers (waitEvents dflt timeout requested replies sleeps) = replies := by
  induction replies generalizing requested slept sleeps with
  | nil => simp [waitLoop] at h
  | cons a replies ih =>
    cases ha : a.ends with
    | true =>
      obtain ⟨-, -, rfl, -⟩ := waitLoop_ends ha h
      simp [waitEvents_ends ha, answers]
    | false =>
      obtain ⟨s, rest, rfl, ⟨next, hs, hnext⟩ | ⟨hs, rfl, -⟩⟩ := waitLoop_sleeps ha h
      · rw [waitEvents_next ha hs]
        simpa [answers] using ih hnext
      · simp [waitEvents_last ha hs, answers]

/-- The loop returns success only with a terminal answer. -/
theorem waitLoop_success
    (h : waitLoop dflt timeout task requested slept replies sleeps = some r)
    (hrv : r.rv = NORNS_SUCCESS) : ∃ a ∈ replies, a.terminal = true := by
  induction replies generalizing requested slept sleeps with
  | nil => simp [waitLoop] at h
  | cons a replies ih =>
    cases ha : a.ends with
    | true =>
      obtain ⟨-, hcode, -, -⟩ := waitLoop_ends ha h
      refine ⟨a, List.mem_cons_self, ?_⟩
      have hsuccess := hcode.symm.trans hrv
      simp only [Reply.ends, hsuccess, ne_eq, not_true_eq_false, decide_false, Bool.false_or] at ha
      simp [Reply.terminal, hsuccess, ha]
    | false =>
      obtain ⟨s, rest, rfl, ⟨next, hs, hnext⟩ | ⟨-, -, -, -, hne, -⟩⟩ := waitLoop_sleeps ha h
      · obtain ⟨b, hb, hterminal⟩ := ih hnext
        exact ⟨b, List.mem_cons_of_mem _ hb, hterminal⟩
      · exact absurd hrv hne

/-- Without a timeout the loop never returns one. -/
theorem waitLoop_no_timeout (hreplies : ∀ a ∈ replies, a.OfDaemon)
    (h : waitLoop dflt none task requested slept replies sleeps = some r) :
    r.rv ≠ NORNS_ETIMEOUT := by
  induction replies generalizing requested slept sleeps with
  | nil => simp [waitLoop] at h
  | cons a replies ih =>
    cases ha : a.ends with
    | true =>
      obtain ⟨-, hcode, -, -⟩ := waitLoop_ends ha h
      rw [hcode]
      exact (hreplies a List.mem_cons_self).code_ne_timeout
    | false =>
      obtain ⟨s, rest, rfl, ⟨next, -, hnext⟩ | ⟨-, -, -, -, -, htimeout⟩⟩ := waitLoop_sleeps ha h
      · exact ih (fun b hb => hreplies b (List.mem_cons_of_mem _ hb)) hnext
      · intro hrv
        exact absurd (htimeout hrv).1 (by decide)

end loop

/-! ### Timeouts -/

/-- Every interrupted sleep is followed by a request and, unless its answer makes the wait return,
by a sleep for the time that remained. -/
def Rechecked (events : List WaitEvent) : Prop :=
  ∀ before after requested remaining,
    events = before ++ .sleep requested (.eintr remaining) :: after →
    ∃ a rest, after = .check a :: rest ∧
      (a.ends = false → ∃ result rest', rest = .sleep remaining result :: rest')

/-- The call with these events and this result honours its timeout. -/
structure HonoursTimeout (timeout : Option ℕ) (events : List WaitEvent) (r : WaitResult) :
    Prop where
  slept : ∀ T, timeout = some T → r.rv = NORNS_ETIMEOUT → T ≤ r.slept
  rechecked : timeout.isSome → Rechecked events
  never : timeout = none → r.rv ≠ NORNS_ETIMEOUT
  success : r.rv = NORNS_SUCCESS → ∃ a ∈ answers events, a.terminal = true

/-- A signal interrupts the sleep of a call with a timeout. -/
def Interrupted (task : Iotask) (timeout : Option ℕ) (replies : List Reply)
    (sleeps : List Nanosleep) : Prop :=
  task.tId ≠ 0 ∧ timeout.isSome ∧ (∃ a, replies.head? = some a ∧ a.ends = false) ∧
    ∃ remaining, sleeps.head? = some (.eintr remaining)

theorem rechecked_of_noInterrupt {events : List WaitEvent}
    (h : ∀ requested remaining, .sleep requested (.eintr remaining) ∉ events) :
    Rechecked events := by
  intro before after requested remaining heq
  refine absurd ?_ (h requested remaining)
  rw [heq]
  exact List.mem_append_right _ List.mem_cons_self

/-- A call that ends with an interrupted sleep has not checked the task again. -/
theorem not_rechecked_of_last (before : List WaitEvent) (requested remaining : ℕ) :
    ¬ Rechecked (before ++ [.sleep requested (.eintr remaining)]) := by
  intro h
  obtain ⟨a, rest, hnil, -⟩ := h before [] requested remaining rfl
  exact absurd hnil (by simp)

theorem Library.wait_eq (lib : Library) (task : Iotask) (timeout : Option ℕ)
    (replies : List Reply) (sleeps : List Nanosleep) :
    lib.wait task timeout replies sleeps =
      waitCall lib.defaultTimeout task timeout replies sleeps := by
  cases lib <;> rfl

section timeouts

variable {dflt T : ℕ} {timeout : Option ℕ} {task : Iotask} {requested : ℕ}
  {replies : List Reply} {sleeps : List Nanosleep} {r : WaitResult}

/-- With a timeout there is one round, and it keeps to the timeout unless it is interrupted. -/
theorem waitLoop_some (hreplies : ∀ a ∈ replies, a.OfDaemon)
    (h : waitLoop dflt (some T) task T 0 replies sleeps = some r)
    (hint : ¬ ((∃ a, replies.head? = some a ∧ a.ends = false) ∧
      ∃ remaining, sleeps.head? = some (.eintr remaining))) :
    (r.rv = NORNS_ETIMEOUT → T ≤ r.slept) ∧
      Rechecked (waitEvents dflt (some T) T replies sleeps) := by
  cases replies with
  | nil => simp [waitLoop] at h
  | cons a replies =>
    cases ha : a.ends with
    | true =>
      rw [waitEvents_ends ha]
      obtain ⟨-, hcode, -, -⟩ := waitLoop_ends ha h
      have hne := (hreplies a List.mem_cons_self).code_ne_timeout
      exact ⟨fun hrv => absurd (hcode.symm.trans hrv) hne, rechecked_of_noInterrupt (by simp)⟩
    | false =>
      obtain ⟨s, rest, rfl, hround⟩ := waitLoop_sleeps ha h
      have hs : nextRequested dflt (some T) T s = none := by cases s <;> rfl
      have hnot : ∀ remaining, s ≠ .eintr remaining := by
        rintro remaining rfl
        exact hint ⟨⟨a, rfl, ha⟩, remaining, rfl⟩
      obtain ⟨next, hnext, -⟩ | ⟨-, -, -, hslept, -, htimeout⟩ := hround
      · rw [hs] at hnext
        cases hnext
      · rw [waitEvents_last ha hs]
        refine ⟨fun hrv => ?_, rechecked_of_noInterrupt fun requested remaining hmem => ?_⟩
        · obtain rfl | ⟨remaining, rfl⟩ := (htimeout hrv).2
          · simp [hslept, Nanosleep.time]
          · exact absurd rfl (hnot remaining)
        · simp only [List.mem_cons, reduceCtorEq, List.not_mem_nil, or_false, false_or,
            WaitEvent.sleep.injEq] at hmem
          exact hnot remaining hmem.2.symm

end timeouts

/-- A call honours its timeout exactly if no signal interrupts the sleep of a call that has one. -/
theorem wait_honours_iff (lib : Library) (task : Iotask) (timeout : Option ℕ)
    (replies : List Reply) (sleeps : List Nanosleep) (r : WaitResult)
    (hreplies : ∀ a ∈ replies, a.OfDaemon)
    (hcall : lib.wait task timeout replies sleeps = some r) :
    HonoursTimeout timeout (lib.waitEvents task timeout replies sleeps) r ↔
      ¬ Interrupted task timeout replies sleeps := by
  rw [Library.wait_eq, waitCall] at hcall
  unfold Library.waitEvents
  by_cases hid : task.tId = 0
  · rw [if_pos hid] at hcall ⊢
    obtain ⟨-, -, rfl⟩ := finishCall_inv hcall
    have hrechecked : Rechecked [] := rechecked_of_noInterrupt (by simp)
    exact iff_of_true ⟨nofun, fun _ => hrechecked, nofun, nofun⟩ fun h => h.1 hid
  · rw [if_neg hid] at hcall ⊢
    have hsuccess : r.rv = NORNS_SUCCESS → ∃ a ∈ answers _, a.terminal = true :=
      fun hrv => (waitLoop_answers hcall).symm ▸ waitLoop_success hcall hrv
    cases timeout with
    | none =>
      have hnever := waitLoop_no_timeout hreplies hcall
      exact iff_of_true ⟨nofun, nofun, fun _ => hnever, hsuccess⟩ fun h => nomatch h.2.1
    | some T =>
      constructor
      · rintro ⟨-, hrechecked, -, -⟩ ⟨-, -, ⟨a, ha, hends⟩, remaining, hs⟩
        obtain ⟨replies, rfl⟩ := List.head?_eq_some_iff.mp ha
        obtain ⟨sleeps, rfl⟩ := List.head?_eq_some_iff.mp hs
        -- the call ends with the sleep that was interrupted
        rw [waitEvents_last hends rfl] at hrechecked
        exact not_rechecked_of_last [.check a] _ remaining (hrechecked rfl)
      · intro hint
        obtain ⟨htimeout, hrechecked⟩ := waitLoop_some hreplies hcall fun h => hint ⟨hid, rfl, h⟩
        refine ⟨?_, fun _ => hrechecked, nofun, hsuccess⟩
        rintro T' ⟨⟩
        exact htimeout

/-- A task that is pending while the call sleeps for its whole timeout. -/
theorem uninterrupted_wait_honours :
    HonoursTimeout (some 1000)
      (Library.norns.waitEvents ⟨1, ⟨0, 0, 0⟩⟩ (some 1000) [.status 0 ⟨-101, 0, 0⟩] [.slept])
      ⟨-5, ⟨1, ⟨0, 0, 0⟩⟩, 1000⟩ := by
  refine (wait_honours_iff _ _ _ _ _ _ (fun a ha => ?_) rfl).mpr ?_
  · rw [List.mem_singleton.mp ha]
    exact ⟨.success, rfl⟩
  · rintro ⟨-, -, -, remaining, h⟩
    simp at h

/-- A signal comes after 600 of 1000 nanoseconds, and the call returns a timeout at once. -/
theorem interrupted_wait_times_out :
    ∃ r, Library.norns.wait ⟨1, ⟨0, 0, 0⟩⟩ (some 1000) [.status 0 ⟨-101, 0, 0⟩] [.eintr 400] =
        some r ∧
      r.rv = NORNS_ETIMEOUT ∧ r.slept = 600 ∧
      ¬ HonoursTimeout (some 1000)
        (Library.norns.waitEvents ⟨1, ⟨0, 0, 0⟩⟩ (some 1000) [.status 0 ⟨-101, 0, 0⟩] [.eintr 400])
        r := by
  refine ⟨⟨-5, ⟨1, ⟨0, 0, 0⟩⟩, 600⟩, rfl, rfl, rfl, fun h => ?_⟩
  exact absurd (h.slept 1000 rfl rfl) (by decide)

end Norns
