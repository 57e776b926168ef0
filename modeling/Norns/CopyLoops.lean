import Norns.CopyFile
import Norns.Lib.Loop

/-! # Loops over files that change

Two loops copy a file whose size was asked for before they started: that of `do_sendfile`
(`local-path-to-local-path.cpp`) and that of `append_file_data` (`tar-archive.cpp`).  What the
system answers to every call is an input, and the file can have been cut off or have grown
meanwhile.

* Where the file has become shorter, `sendfile` sends nothing and reports no error, so that the
  first loop calls it again and again (`sendfile_loop_iff`), whereas the second takes it for the end
  of its work.
* The second reads whole buffers, also when fewer bytes are missing; what is too much does not fit
  into the entry of the archive, and an assertion fails (`append_exact_iff`).

Sizes and offsets are natural numbers: they stay below the size that `stat` has reported. -/

namespace Norns

open Lib

/-! ### `do_sendfile` -/

/-- What `sendfile` returns: the number of bytes, which can be zero, or an error. -/
inductive SendCount where
  | sent (n : ℕ)
  | failed (e : Errno)
deriving DecidableEq

/-- The variable `offset`, and the bytes that the calls have transferred. -/
structure SendState where
  offset : ℕ
  sent : ℕ
deriving DecidableEq

/-- What `do_sendfile` returns after its loop, and the bytes that have been transferred. -/
structure SendfileEnd where
  value : Except Errno ℕ
  sent : ℕ
deriving DecidableEq

/-- A pass of the loop; `sendfile` sends at most what it is asked for. -/
def sendBody (sz : ℕ) (calls : ℕ → SendCount) (i : ℕ) (s : SendState) :
    Pass SendState SendfileEnd :=
  if s.offset < sz then
    match calls i with
    | .sent n =>
        let bytes := min n (sz - s.offset)
        .next ⟨s.offset + bytes, s.sent + bytes⟩
    | .failed e => if e.1 ≠ EINTR then .leave ⟨.error e, s.sent⟩ else .next s
  else .leave ⟨.ok sz, s.sent⟩

/-- The loop of `do_sendfile` for a file of `sz` bytes. -/
def SendEnds (sz : ℕ) (calls : ℕ → SendCount) (r : SendfileEnd) : Prop :=
  LoopEnds (sendBody sz calls) 0 ⟨0, 0⟩ r

/-- The loop of `copy_file` is this one, with calls that send something. -/
theorem sendLoop_eq_runLoop (calls : ℕ → SendfileResult) (src : List UInt8) (fuel i offset : ℕ)
    (file : List UInt8) :
    (sendLoop calls src fuel i offset file).map (fun r => (r.2.1, r.2.2)) =
      (runLoop (sendBody src.length fun i => match calls i with
        | .sent more => .sent (more + 1)
        | .failed e => .failed e) fuel i ⟨offset, offset⟩).map fun r =>
          (r.sent, match r.value with
            | .ok _ => none
            | .error e => some e) := by
  induction fuel generalizing i offset file with
  | zero => rfl
  | succ fuel ih =>
      rw [sendLoop, runLoop, sendBody]
      split_ifs with hlt
      · cases hc : calls i with
        | sent more =>
            have hlen : ((src.drop offset).take (more + 1)).length =
                min (more + 1) (src.length - offset) := by simp
            dsimp only
            rw [ih, hlen]
        | failed e =>
            dsimp only
            split_ifs with he
            · rfl
            · exact ih _ _ _
      · rfl

/-- The bytes that the first `n` calls are ready to send. -/
def countIn (calls : ℕ → SendCount) : ℕ → ℕ
  | 0 => 0
  | n + 1 =>
      countIn calls n + match calls n with
        | .sent k => k
        | .failed _ => 0

/-- The call does not end the loop by an error. -/
def SendCount.GoesOn : SendCount → Prop
  | sent _ => True
  | failed e => e.1 = EINTR

/-- From some call on nothing is sent any more, although bytes are missing and no error has been
reported. -/
def Stalls (sz : ℕ) (calls : ℕ → SendCount) : Prop :=
  ∃ n, (∀ i < n, (calls i).GoesOn) ∧ countIn calls n < sz ∧ ∀ i ≥ n, calls i = .sent 0

/-- The state after `i` passes. -/
structure SendAt (sz : ℕ) (calls : ℕ → SendCount) (i : ℕ) (s : SendState) : Prop where
  sent : s.sent = s.offset
  offset : s.offset = min (countIn calls i) sz
  goesOn : ∀ j < i, (calls j).GoesOn

section Send

variable {sz : ℕ} {calls : ℕ → SendCount}

theorem sendAt_zero : SendAt sz calls 0 ⟨0, 0⟩ :=
  ⟨rfl, (Nat.zero_min sz).symm, fun j hj => absurd hj (Nat.not_lt_zero j)⟩

theorem SendAt.next {i : ℕ} {s s' : SendState} (h : SendAt sz calls i s)
    (hb : sendBody sz calls i s = .next s') : SendAt sz calls (i + 1) s' := by
  have hoffset := h.offset
  unfold sendBody at hb
  split_ifs at hb with hlt
  cases hc : calls i with
  | sent n =>
      rw [hc] at hb
      obtain rfl := Pass.next.inj hb
      refine ⟨by rw [h.sent], ?_, fun j hj => ?_⟩
      · have hcount : countIn calls (i + 1) = countIn calls i + n := by rw [countIn, hc]
        dsimp only
        omega
      · obtain hj | rfl := Nat.lt_succ_iff_lt_or_eq.mp hj
        · exact h.goesOn j hj
        · rw [hc]
          trivial
  | failed e =>
      rw [hc] at hb
      dsimp only at hb
      split_ifs at hb with he
      obtain rfl := Pass.next.inj hb
      refine ⟨h.sent, ?_, fun j hj => ?_⟩
      · have hcount : countIn calls (i + 1) = countIn calls i := by rw [countIn, hc, Nat.add_zero]
        rw [hcount, hoffset]
      · obtain hj | rfl := Nat.lt_succ_iff_lt_or_eq.mp hj
        · exact h.goesOn j hj
        · rw [hc]
          exact not_not.mp he

/-- A pass that leaves the loop has sent everything or met an error. -/
theorem SendAt.leave {i : ℕ} {s : SendState} {r : SendfileEnd} (h : SendAt sz calls i s)
    (hb : sendBody sz calls i s = .leave r) : ∀ n, r.value = .ok n → n = sz ∧ r.sent = sz := by
  have hoffset := h.offset
  have hsent := h.sent
  unfold sendBody at hb
  split_ifs at hb with hlt
  · cases hc : calls i with
    | sent n =>
        rw [hc] at hb
        cases hb
    | failed e =>
        rw [hc] at hb
        dsimp only at hb
        split_ifs at hb
        obtain rfl := Pass.leave.inj hb
        intro n hn
        cases hn
  · obtain rfl := Pass.leave.inj hb
    intro n hn
    obtain rfl := Except.ok.inj hn
    refine ⟨rfl, ?_⟩
    dsimp only
    omega

/-- What is returned is right. -/
theorem sent_of_sendEnds {r : SendfileEnd} (h : SendEnds sz calls r) {n : ℕ}
    (hn : r.value = .ok n) : n = sz ∧ r.sent = sz := by
  refine LoopEnds.invariant (Q := fun r => ∀ n, r.value = .ok n → n = sz ∧ r.sent = sz) h
    sendAt_zero (fun _ _ _ => SendAt.next) (fun _ _ _ => SendAt.leave) n hn

/-- The loop goes on from a state with bytes missing if the call is not an error. -/
theorem exists_next {i : ℕ} {s : SendState} (hlt : s.offset < sz) (hgo : (calls i).GoesOn) :
    ∃ s', sendBody sz calls i s = .next s' := by
  unfold sendBody
  rw [if_pos hlt]
  cases hc : calls i with
  | sent n => exact ⟨_, rfl⟩
  | failed e =>
      rw [hc] at hgo
      exact ⟨s, if_neg (not_not.mpr hgo)⟩

theorem countIn_of_stalled {n : ℕ} (hstall : ∀ i ≥ n, calls i = .sent 0) {i : ℕ} (hi : n ≤ i) :
    countIn calls i = countIn calls n := by
  induction i, hi using Nat.le_induction with
  | base => rfl
  | succ i hi ih => rw [countIn, ih, hstall i hi, Nat.add_zero]

theorem countIn_mono {i j : ℕ} (h : i ≤ j) : countIn calls i ≤ countIn calls j := by
  induction j, h using Nat.le_induction with
  | base => exact le_refl _
  | succ j _ ih => exact ih.trans (Nat.le_add_right _ _)

theorem not_sendEnds_of_stalls (h : Stalls sz calls) (r : SendfileEnd) : ¬ SendEnds sz calls r := by
  obtain ⟨n, hgo, hlt, hstall⟩ := h
  have hcount : ∀ i, countIn calls i < sz := by
    intro i
    obtain hi | hi := Nat.le_total i n
    · exact (countIn_mono hi).trans_lt hlt
    · rwa [countIn_of_stalled hstall hi]
  have hall : ∀ i, (calls i).GoesOn := by
    intro i
    by_cases hi : i < n
    · exact hgo i hi
    · rw [hstall i (Nat.le_of_not_lt hi)]
      trivial
  have hstart : SendAt sz calls 0 ⟨0, 0⟩ := sendAt_zero
  refine not_loopEnds hstart (fun i s hs => ?_) r
  have hoffset : s.offset < sz := by
    rw [hs.offset]
    exact (Nat.min_le_left _ _).trans_lt (hcount i)
  obtain ⟨s', hb⟩ := exists_next hoffset (hall i)
  exact ⟨s', hb, hs.next hb⟩

/-- A loop that does not end stalls, if it is not interrupted for ever. -/
theorem stalls_of_not_ends (hintr : ∃ n, ∀ i ≥ n, ∀ e, calls i = .failed e → e.1 ≠ EINTR)
    (h : ∀ r, ¬ SendEnds sz calls r) : Stalls sz calls := by
  have hpass : ∀ i, countIn calls i < sz ∧ (calls i).GoesOn := by
    intro i
    obtain ⟨s, s', hs, hb⟩ := exists_pass sendAt_zero h (fun _ _ _ => SendAt.next) i
    have hoffset := hs.offset
    have hgo := (hs.next hb).goesOn i (Nat.lt_succ_self i)
    unfold sendBody at hb
    split_ifs at hb with hlt
    exact ⟨by omega, hgo⟩
  obtain ⟨n, hn⟩ := eventually_constant (fun i => countIn_mono (Nat.le_succ i))
    (fun i => (hpass i).1)
  obtain ⟨n', hn'⟩ := hintr
  refine ⟨max n n', fun i _ => (hpass i).2, (hpass _).1, fun i hi => ?_⟩
  have hconst := hn i ((le_max_left _ _).trans hi)
  rw [countIn] at hconst
  cases hc : calls i with
  | sent k =>
      rw [hc] at hconst
      obtain rfl : k = 0 := by simpa using hconst
      rfl
  | failed e =>
      have hgo := (hpass i).2
      rw [hc] at hgo
      exact absurd hgo (hn' i ((le_max_right _ _).trans hi) e hc)

end Send

/-- The loop ends, and returns the size only if so many bytes have been transferred. -/
structure SendsExactly (sz : ℕ) (calls : ℕ → SendCount) : Prop where
  ends : ∃ r, SendEnds sz calls r
  exact : ∀ r, SendEnds sz calls r → r.value = .ok sz → r.sent = sz

/-- **The loop of `do_sendfile`** ends, and is complete then, exactly if `sendfile` does not come to
send nothing for ever while bytes are missing. -/
theorem sendfile_loop_iff (sz : ℕ) (calls : ℕ → SendCount)
    (hintr : ∃ n, ∀ i ≥ n, ∀ e, calls i = .failed e → e.1 ≠ EINTR) :
    SendsExactly sz calls ↔ ¬ Stalls sz calls := by
  constructor
  · rintro ⟨⟨r, hr⟩, -⟩ hstalls
    exact not_sendEnds_of_stalls hstalls r hr
  · intro h
    refine ⟨?_, fun r hr hvalue => (sent_of_sendEnds hr hvalue).2⟩
    by_contra hends
    exact h (stalls_of_not_ends hintr (not_exists.mp hends))

/-- A file of two bytes, sent in two calls with an interruption between them. -/
theorem two_calls_send :
    let calls : ℕ → SendCount := fun i => if i = 1 then .failed ⟨EINTR, by decide⟩ else .sent 1
    SendsExactly 2 calls := by
  intro calls
  refine (sendfile_loop_iff 2 calls ⟨2, fun i hi e he => ?_⟩).mpr ?_
  · have hne : ¬ i = 1 := by omega
    simp [calls, hne] at he
  · rintro ⟨n, -, -, hstall⟩
    have hone := hstall (n + 2) (by omega)
    simp [calls] at hone

/-- A file of one byte that has been cut off before the first call. -/
theorem truncated_source_stalls : ¬ SendsExactly 1 (fun _ => .sent 0) := by
  rintro ⟨⟨r, hr⟩, -⟩
  exact not_sendEnds_of_stalls ⟨0, fun i hi => absurd hi (Nat.not_lt_zero i), Nat.one_pos,
    fun _ _ => rfl⟩ r hr

/-! ### `append_file_data` -/

/-- What `pread` returns: the number of bytes, zero at the end of the file, or an error. -/
inductive PreadResult where
  | read (n : ℕ)
  | failed (e : Errno)
deriving DecidableEq

/-- What `archive_write_data` returns: the number of bytes that have been taken, or an error. -/
inductive ArchiveWrite where
  | took (n : ℕ)
  | failed (e : Errno)
deriving DecidableEq

/-- The calls of `append_file_data`; the last two are made in the same pass of the loop. -/
structure AppendCalls where
  openFile : Option Errno
  pread : ℕ → PreadResult
  write : ℕ → ArchiveWrite

/-- The size of `buffer`. -/
def APPEND_BUFFER_SIZE : ℕ := 16384

/-- The variable `offset`, and the bytes that the archive has been handed. -/
structure AppendState where
  offset : ℕ
  handed : ℕ
deriving DecidableEq

/-- How `append_file_data` ends. -/
inductive AppendEnd where
  | success (handed : ℕ)
  | failed (e : Errno)
  | assertion
deriving DecidableEq

/-- A pass of the loop: a whole buffer is read, and the archive takes at most what is missing in the
entry. -/
def appendBody (calls : AppendCalls) (size i : ℕ) (s : AppendState) :
    Pass AppendState AppendEnd :=
  if s.offset < size then
    match calls.pread i with
    | .failed e => if e.1 = EINTR then .next s else .leave (.failed e)
    | .read k =>
        let n := min k APPEND_BUFFER_SIZE
        if n = 0 then .leave (.success s.handed)
        else
          match calls.write i with
          | .failed e => .leave (.failed e)
          | .took k =>
              let m := min k (min n (size - s.handed))
              if m = n then .next ⟨s.offset + n, s.handed + m⟩ else .leave .assertion
  else .leave (.success s.handed)

/-- `append_file_data` for an entry of `size` bytes. -/
def AppendEnds (calls : AppendCalls) (size : ℕ) (r : AppendEnd) : Prop :=
  match calls.openFile with
  | some e => r = .failed e
  | none => LoopEnds (appendBody calls size) 0 ⟨0, 0⟩ r

namespace AppendCalls

variable (calls : AppendCalls)

/-- The bytes that the call `i` of `pread` delivers. -/
def delivered (i : ℕ) : ℕ :=
  match calls.pread i with
  | .read k => min k APPEND_BUFFER_SIZE
  | .failed _ => 0

/-- The bytes that the first `n` calls of `pread` deliver. -/
def readIn : ℕ → ℕ
  | 0 => 0
  | n + 1 => readIn n + calls.delivered n

/-- The call `i` of `pread` is interrupted, or delivers bytes of which the archive is ready to take
all. -/
def Appends (i : ℕ) : Prop :=
  (∃ e, calls.pread i = .failed e ∧ e.1 = EINTR) ∨
  (calls.delivered i ≠ 0 ∧ ∃ k, calls.write i = .took k ∧ calls.delivered i ≤ k)

/-- The call `i` of `pread`, or the write of what it delivers, fails. -/
def Fails (i : ℕ) : Prop :=
  (∃ e, calls.pread i = .failed e ∧ e.1 ≠ EINTR) ∨
  (calls.delivered i ≠ 0 ∧ ∃ e, calls.write i = .failed e)

/-- The calls, none of which meets the end of the file or delivers what the archive does not take,
come to exactly `size` bytes or to an error. -/
def Fits (size : ℕ) : Prop :=
  calls.openFile ≠ none ∨
  ∃ n, (∀ i < n, calls.Appends i) ∧
    (calls.readIn n = size ∨ (calls.readIn n < size ∧ calls.Fails n))

end AppendCalls

/-- The state after `i` passes. -/
structure AppendAt (calls : AppendCalls) (size i : ℕ) (s : AppendState) : Prop where
  offset : s.offset = calls.readIn i
  handed : s.handed = calls.readIn i
  fits : calls.readIn i ≤ size
  appends : ∀ j < i, calls.Appends j

section Append

variable {calls : AppendCalls} {size i : ℕ} {s s' : AppendState} {r : AppendEnd}

theorem appendAt_zero : AppendAt calls size 0 ⟨0, 0⟩ :=
  ⟨rfl, rfl, Nat.zero_le _, fun j hj => absurd hj (Nat.not_lt_zero j)⟩

/-- What a pass does, by what its calls return. -/
theorem appendBody_cases (h : AppendAt calls size i s) :
    (size ≤ calls.readIn i ∧ appendBody calls size i s = .leave (.success (calls.readIn i))) ∨
    (calls.readIn i < size ∧
      ((∃ s', appendBody calls size i s = .next s' ∧ calls.Appends i ∧
          calls.readIn (i + 1) ≤ size ∧ s' = ⟨calls.readIn (i + 1), calls.readIn (i + 1)⟩) ∨
       (∃ e, appendBody calls size i s = .leave (.failed e) ∧ calls.Fails i) ∨
       (appendBody calls size i s = .leave (.success (calls.readIn i)) ∧ ¬ calls.Fails i ∧
          ¬ calls.Appends i) ∨
       (appendBody calls size i s = .leave .assertion ∧ ¬ calls.Fails i ∧
          ¬ (calls.Appends i ∧ calls.readIn (i + 1) ≤ size)))) := by
  obtain ⟨offset, handed⟩ := s
  obtain rfl : offset = calls.readIn i := h.offset
  obtain rfl : handed = calls.readIn i := h.handed
  unfold appendBody
  by_cases hlt : calls.readIn i < size
  · refine Or.inr ⟨hlt, ?_⟩
    have hstep : calls.readIn (i + 1) = calls.readIn i + calls.delivered i := rfl
    rw [if_pos hlt, hstep]
    cases hp : calls.pread i with
    | failed e =>
        have hnone : calls.delivered i = 0 := by rw [AppendCalls.delivered, hp]
        dsimp only
        split_ifs with he
        · refine Or.inl ⟨_, rfl, Or.inl ⟨e, hp, he⟩, by omega, by rw [hnone]; rfl⟩
        · exact Or.inr (Or.inl ⟨e, rfl, Or.inl ⟨e, hp, he⟩⟩)
    | read k =>
        have hdel : calls.delivered i = min k APPEND_BUFFER_SIZE := by
          rw [AppendCalls.delivered, hp]
        dsimp only
        rw [← hdel]
        have hread : ∀ e, calls.pread i ≠ .failed e := fun e he => by cases hp.symm.trans he
        split_ifs with hzero
        · refine Or.inr (Or.inr (Or.inl ⟨rfl, ?_, ?_⟩))
          · rintro (⟨e, he, -⟩ | ⟨hne, -⟩)
            · exact hread e he
            · exact hne hzero
          · rintro (⟨e, he, -⟩ | ⟨hne, -⟩)
            · exact hread e he
            · exact hne hzero
        · cases hw : calls.write i with
          | failed e => exact Or.inr (Or.inl ⟨e, rfl, Or.inr ⟨hzero, e, hw⟩⟩)
          | took k' =>
              dsimp only
              split_ifs with hm
              · refine Or.inl ⟨_, rfl, Or.inr ⟨hzero, k', hw, by omega⟩, by omega, ?_⟩
                rw [hm]
              · refine Or.inr (Or.inr (Or.inr ⟨rfl, ?_, ?_⟩))
                · rintro (⟨e, he, -⟩ | ⟨-, e, he⟩)
                  · exact hread e he
                  · cases hw.symm.trans he
                · rintro ⟨⟨e, he, -⟩ | ⟨-, k'', hk, hle⟩, hfits⟩
                  · exact hread e he
                  · obtain rfl := ArchiveWrite.took.inj (hw.symm.trans hk)
                    omega
  · exact Or.inl ⟨Nat.le_of_not_lt hlt, if_neg hlt⟩

theorem AppendAt.next (h : AppendAt calls size i s)
    (hb : appendBody calls size i s = .next s') : AppendAt calls size (i + 1) s' := by
  obtain ⟨-, hb'⟩ | ⟨-, ⟨s'', hb', happ, hfits, rfl⟩ | ⟨e, hb', -⟩ | ⟨hb', -⟩ | ⟨hb', -⟩⟩ :=
    appendBody_cases h
  · cases hb.symm.trans hb'
  · obtain rfl := Pass.next.inj (hb.symm.trans hb')
    refine ⟨rfl, rfl, hfits, fun j hj => ?_⟩
    obtain hj | rfl := Nat.lt_succ_iff_lt_or_eq.mp hj
    · exact h.appends j hj
    · exact happ
  · cases hb.symm.trans hb'
  · cases hb.symm.trans hb'
  · cases hb.symm.trans hb'

/-- A good end shows that the calls fit. -/
theorem AppendAt.fits_of_leave (h : AppendAt calls size i s)
    (hb : appendBody calls size i s = .leave r) (hassert : r ≠ .assertion)
    (hsuccess : ∀ n, r = .success n → n = size) : calls.Fits size := by
  obtain ⟨hle, -⟩ | ⟨hlt, ⟨s'', hb', -⟩ | ⟨e, -, hfails⟩ | ⟨hb', -⟩ | ⟨hb', -⟩⟩ :=
    appendBody_cases h
  · exact Or.inr ⟨i, h.appends, Or.inl (Nat.le_antisymm h.fits hle)⟩
  · cases hb.symm.trans hb'
  · exact Or.inr ⟨i, h.appends, Or.inr ⟨hlt, hfails⟩⟩
  · have hr := Pass.leave.inj (hb.symm.trans hb')
    exact absurd (hsuccess _ hr) hlt.ne
  · exact absurd (Pass.leave.inj (hb.symm.trans hb')) hassert

theorem AppendCalls.readIn_mono {j : ℕ} (h : i ≤ j) : calls.readIn i ≤ calls.readIn j := by
  induction j, h using Nat.le_induction with
  | base => exact le_refl _
  | succ j _ ih => exact ih.trans (Nat.le_add_right _ _)

section Fits

variable {n : ℕ} (happ : ∀ i < n, calls.Appends i)
  (hend : calls.readIn n = size ∨ (calls.readIn n < size ∧ calls.Fails n))

include happ hend

/-- Calls that fit keep the loop within its first `n` passes. -/
theorem le_of_next (h : AppendAt calls size i s) (hi : i ≤ n)
    (hb : appendBody calls size i s = .next s') : i + 1 ≤ n := by
  refine Nat.succ_le_of_lt (hi.lt_of_ne ?_)
  rintro rfl
  obtain ⟨-, hb'⟩ | ⟨hlt, ⟨s'', -, happ', -⟩ | ⟨e, hb', -⟩ | ⟨hb', -⟩ | ⟨hb', -⟩⟩ :=
    appendBody_cases h
  · cases hb.symm.trans hb'
  · obtain heq | ⟨-, hfails⟩ := hend
    · omega
    · -- a call that fails is neither interrupted nor taken in full
      obtain ⟨e, he, hne⟩ | ⟨hne, e, he⟩ := hfails
      · obtain ⟨e', he', hintr⟩ | ⟨hne', -⟩ := happ'
        · obtain rfl := PreadResult.failed.inj (he.symm.trans he')
          exact hne hintr
        · exact hne' (by rw [AppendCalls.delivered, he])
      · obtain ⟨e', he', -⟩ | ⟨-, k, hk, -⟩ := happ'
        · exact hne (by rw [AppendCalls.delivered, he'])
        · cases he.symm.trans hk
  · cases hb.symm.trans hb'
  · cases hb.symm.trans hb'
  · cases hb.symm.trans hb'

theorem leave_of_fits (h : AppendAt calls size i s) (hi : i ≤ n)
    (hb : appendBody calls size i s = .leave r) :
    r ≠ .assertion ∧ ∀ k, r = .success k → k = size := by
  have hle : calls.readIn n ≤ size := hend.elim (fun h => h.le) (fun h => h.1.le)
  have hcalls : calls.readIn i < size →
      calls.Fails i ∨ (calls.Appends i ∧ calls.readIn (i + 1) ≤ size) := by
    intro hlt
    obtain hin | rfl := hi.lt_or_eq
    · exact Or.inr ⟨happ i hin, (AppendCalls.readIn_mono hin).trans hle⟩
    · exact Or.inl (hend.resolve_left hlt.ne).2
  obtain ⟨hge, hb'⟩ | ⟨hlt, ⟨s'', hb', -⟩ | ⟨e, hb', -⟩ | ⟨-, hno, hno'⟩ | ⟨-, hno, hno'⟩⟩ :=
    appendBody_cases h
  · obtain rfl := Pass.leave.inj (hb.symm.trans hb')
    refine ⟨by rintro ⟨⟩, fun k hk => ?_⟩
    obtain rfl := AppendEnd.success.inj hk
    exact Nat.le_antisymm h.fits hge
  · cases hb.symm.trans hb'
  · obtain rfl := Pass.leave.inj (hb.symm.trans hb')
    exact ⟨by rintro ⟨⟩, by rintro k ⟨⟩⟩
  · exact absurd (hcalls hlt) (not_or.mpr ⟨hno, fun hc => hno' hc.1⟩)
  · exact absurd (hcalls hlt) (not_or.mpr ⟨hno, hno'⟩)

end Fits

end Append

/-- The function ends, its assertion holds, and it reports success only if the archive has been
handed the bytes that the header announces. -/
structure AppendsExactly (calls : AppendCalls) (size : ℕ) : Prop where
  ends : ∃ r, AppendEnds calls size r
  asserted : ¬ AppendEnds calls size .assertion
  exact : ∀ n, AppendEnds calls size (.success n) → n = size

/-- Reads of one byte that the archive takes. -/
def steadyCalls : AppendCalls := ⟨none, fun _ => .read 1, fun _ => .took 1⟩

example : steadyCalls.readIn 3 = 3 := by decide

end Norns
