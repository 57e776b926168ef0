import Norns.LocalCopy

/-! # The system calls of a local copy

`copy_file` and `copy_memory_region` down to their system calls: what each call returns is an
input, and so is the value that `errno` has when the copy begins.  The destination is opened without
being truncated, it is given its size by `fallocate`, and then the bytes go over.

* `fallocate` never makes a file smaller, so that a longer file keeps its tail, and it refuses a
  length of zero, so that an empty file is never copied.
* `posix_fadvise` returns its error and leaves `errno` alone, from which the error is read: if it is
  zero then, the copy is reported as done before it has begun.

`local_copy_exact_iff` says that nothing else goes wrong, and `copyFile_writes` that a copy that
goes through does to the destination what `Disk.writeFile` says.

Loops run on fuel; that a call does not return means that no fuel is enough. -/

namespace Norns

open Lib Lib.FileTree

/-! ### The calls -/

/-- What a call that fails leaves in `errno`. -/
abbrev Errno := {e : ErrorCode // e ≠ 0}

/-- `errno` after a call that may have failed. -/
def errnoAfterCall (errno : ErrorCode) (call : Option Errno) : ErrorCode :=
  match call with
  | none => errno
  | some e => e

/-- What `sendfile` returns: it sends up to `more + 1` bytes, or fails. -/
inductive SendfileResult where
  | sent (more : ℕ)
  | failed (e : Errno)

/-- The calls that give the destination its size. -/
structure ResizeCalls where
  fallocate : Option Errno
  ftruncate : Option Errno

/-- The calls of `copy_file`; `sendfile` and `close` are called more than once. -/
structure CopyCalls extends ResizeCalls where
  errno : ErrorCode
  openIn : Option Errno
  openOut : Option Errno
  fstat : Option Errno
  adviseWillneed : Option Errno
  adviseSequential : Option Errno
  sendfile : ℕ → SendfileResult
  close : ℕ → Option Errno

/-- The calls of `copy_memory_region`. -/
structure RegionCalls extends ResizeCalls where
  openOut : Option Errno
  mmap : Option Errno
  processVmReadv : Except Errno ℕ
  close : ℕ → Option Errno

/-- What is at the destination afterwards, the bytes that went over, and the code that is
returned. -/
structure CopyResult where
  dst : Option (List UInt8)
  sent : ℕ
  code : ErrorCode
deriving DecidableEq

/-- `bytes` written into a file. -/
def writeAt (file : List UInt8) (offset : ℕ) (bytes : List UInt8) : List UInt8 :=
  file.take offset ++ bytes ++ file.drop (offset + bytes.length)

/-- A file extended by zeros. -/
def extendTo (file : List UInt8) (size : ℕ) : List UInt8 :=
  file ++ List.replicate (size - file.length) 0

/-- `fallocate(fd, 0, 0, size)`, which refuses a size of zero. -/
def ResizeCalls.fallocateTo (calls : ResizeCalls) (size : ℕ) : Option Errno :=
  if size = 0 then some ⟨EINVAL, by decide⟩ else calls.fallocate

/-- The preallocation, the same in both functions. -/
def ResizeCalls.preallocate (calls : ResizeCalls) (size : ℕ) (file : List UInt8) :
    Except Errno (List UInt8) :=
  match calls.fallocateTo size with
  | none => .ok (extendTo file size)
  | some e =>
      if e.1 ≠ EOPNOTSUPP then .error e
      else
        match calls.ftruncate with
        | some e => .error e
        | none => .ok ((extendTo file size).take size)

/-- The loop of `do_sendfile`, from the call `i` on: the file, the bytes that have been sent, and
the error that ended it. -/
def sendLoop (calls : ℕ → SendfileResult) (src : List UInt8) :
    ℕ → ℕ → ℕ → List UInt8 → Option (List UInt8 × ℕ × Option Errno)
  | 0, _, _, _ => none
  | fuel + 1, i, offset, file =>
      if offset < src.length then
        match calls i with
        | .sent more =>
            let bytes := (src.drop offset).take (more + 1)
            sendLoop calls src fuel (i + 1) (offset + bytes.length) (writeAt file offset bytes)
        | .failed e =>
            if e.1 ≠ EINTR then some (file, offset, some e)
            else sendLoop calls src fuel (i + 1) offset file
      else some (file, offset, none)

/-- `do_sendfile`; an error is the value of `errno`.  The size of a file that `fstat` fails for is
-1, and `posix_fadvise` refuses it. -/
def doSendfile (calls : CopyCalls) (fuel : ℕ) (src file : List UInt8) :
    Option (List UInt8 × ℕ × Except ErrorCode Unit) :=
  match calls.fstat with
  | some e => some (file, 0, .error e)
  | none =>
      if calls.adviseWillneed ≠ none then some (file, 0, .error calls.errno)
      else if calls.adviseSequential ≠ none then some (file, 0, .error calls.errno)
      else
        match calls.preallocate src.length file with
        | .error e => some (file, 0, .error e)
        | .ok file =>
            (sendLoop calls.sendfile src fuel 0 0 file).map fun r =>
              (r.1, r.2.1, match r.2.2 with
                | none => .ok ()
                | some e => .error e)

/-- The loop around `close`, from the call `i` on: the number of the next call, and the error. -/
def closeLoop (close : ℕ → Option Errno) : ℕ → ℕ → Option (ℕ × Option Errno)
  | 0, _ => none
  | fuel + 1, i =>
      match close i with
      | none => some (i + 1, none)
      | some e => if e.1 = EINTR then closeLoop close fuel (i + 1) else some (i + 1, some e)

/-- `copy_file`, for the content of the source and what is at the destination. -/
def copyFileCalls (calls : CopyCalls) (fuel : ℕ) (src : List UInt8) (old : Option (List UInt8)) :
    Option CopyResult :=
  match calls.openIn with
  | some e => some ⟨old, 0, e⟩
  | none =>
      match calls.openOut with
      | some e => some ⟨old, 0, errnoAfterCall e (calls.close 0)⟩
      | none =>
          match doSendfile calls fuel src (old.getD []) with
          | none => none
          | some (file, sent, .error errno) =>
              some ⟨some file, sent,
                errnoAfterCall (errnoAfterCall errno (calls.close 0)) (calls.close 1)⟩
          | some (file, sent, .ok ()) =>
              match closeLoop calls.close fuel 0 with
              | none => none
              | some (_, some e) => some ⟨some file, sent, e⟩
              | some (i, none) =>
                  match closeLoop calls.close fuel i with
                  | none => none
                  | some (_, some e) => some ⟨some file, sent, e⟩
                  | some (_, none) => some ⟨some file, sent, 0⟩

/-- The part of `copy_memory_region` between `open` and `cleanup_on_error`. -/
def RegionCalls.fill (calls : RegionCalls) (src file : List UInt8) : List UInt8 × ℕ × ErrorCode :=
  match calls.preallocate src.length file with
  | .error e => (file, 0, e)
  | .ok file =>
      match calls.mmap with
      | some e => (file, 0, e)
      | none =>
          match calls.processVmReadv with
          | .error e => (file, 0, e)
          | .ok nbytes =>
              let bytes := src.take nbytes
              (writeAt file 0 bytes, bytes.length, if nbytes < src.length then EIO else 0)

/-- `copy_memory_region`, for the content of the region; the destination is not a directory. -/
def copyMemoryRegionCalls (calls : RegionCalls) (fuel : ℕ) (src : List UInt8)
    (old : Option (List UInt8)) : Option CopyResult :=
  match calls.openOut with
  | some e => some ⟨old, 0, e⟩
  | none =>
      let (file, sent, rv) := calls.fill src (old.getD [])
      match closeLoop calls.close fuel 0 with
      | none => none
      | some (_, some e) => some ⟨some file, sent, e⟩
      | some (_, none) => some ⟨some file, sent, rv⟩

/-! ### The loops -/

/-- The call is not the last one of the loop because it fails. -/
def SendfileResult.GoesOn : SendfileResult → Prop
  | .sent _ => True
  | .failed e => e.1 = EINTR

/-- The bytes that the first `n` calls are ready to send. -/
def sentIn (calls : ℕ → SendfileResult) : ℕ → ℕ
  | 0 => 0
  | n + 1 =>
      sentIn calls n + match calls n with
        | .sent more => more + 1
        | .failed _ => 0

/-- Interruptions apart, calls succeed until `size` bytes have been sent. -/
def Sends (calls : ℕ → SendfileResult) (size : ℕ) : Prop :=
  ∃ n, (∀ i < n, (calls i).GoesOn) ∧ size ≤ sentIn calls n

/-- From the call `i` on `close` is interrupted until the call `j` succeeds. -/
def Closes (close : ℕ → Option Errno) (i j : ℕ) : Prop :=
  i ≤ j ∧ (∀ k, i ≤ k → k < j → ∃ e, close k = some e ∧ e.1 = EINTR) ∧ close j = none

theorem sentIn_mono (calls : ℕ → SendfileResult) {i j : ℕ} (h : i ≤ j) :
    sentIn calls i ≤ sentIn calls j := by
  induction j, h using Nat.le_induction with
  | base => exact le_refl _
  | succ j _ ih => exact ih.trans (Nat.le_add_right _ _)

section Send

variable {calls : ℕ → SendfileResult} {src : List UInt8}

/-- The bytes of one call, put between those that are there and those that come. -/
theorem writeAt_sent {file bytes : List UInt8} {offset n : ℕ}
    (hbytes : bytes = (src.drop offset).take n) (hle : src.length ≤ file.length)
    (hoffset : offset ≤ src.length) :
    offset + bytes.length ≤ src.length ∧
      src.length ≤ (writeAt file offset bytes).length ∧
      (writeAt file offset bytes).take (offset + bytes.length) ++
          src.drop (offset + bytes.length) =
        file.take offset ++ src.drop offset ∧
      (writeAt file offset bytes).drop src.length = file.drop src.length := by
  have hlength : bytes.length = min n (src.length - offset) := by
    rw [hbytes, List.length_take, List.length_drop]
  have hprefix : (file.take offset ++ bytes).length = offset + bytes.length := by
    rw [List.length_append, List.length_take]
    omega
  refine ⟨by omega, ?_, ?_, ?_⟩
  · rw [writeAt, List.length_append, hprefix, List.length_drop]
    omega
  · have hrest : bytes ++ src.drop (offset + bytes.length) = src.drop offset := by
      rw [← List.drop_drop]
      conv_rhs => rw [← List.take_append_drop bytes.length (src.drop offset)]
      congr 1
      rw [hlength, hbytes, List.take_eq_take_iff, List.length_drop]
      omega
    rw [writeAt, ← hprefix, List.take_left, hprefix, List.append_assoc, hrest]
  · rw [writeAt, List.drop_append, hprefix, List.drop_eq_nil_of_le (by omega), List.nil_append,
      List.drop_drop]
    congr 1
    omega

/-- What a loop that ends well has written. -/
theorem sendLoop_written {fuel i offset : ℕ} {file file' : List UInt8} {sent : ℕ}
    (h : sendLoop calls src fuel i offset file = some (file', sent, none))
    (hle : src.length ≤ file.length) (hoffset : offset ≤ src.length) :
    sent = src.length ∧ file' = file.take offset ++ src.drop offset ++ file.drop src.length := by
  induction fuel generalizing i offset file with
  | zero => cases h
  | succ fuel ih =>
      rw [sendLoop] at h
      split_ifs at h with hlt
      · cases hcall : calls i with
        | sent more =>
            rw [hcall] at h
            obtain ⟨hnext, hlong, htake, hdrop⟩ :=
              writeAt_sent (n := more + 1) rfl hle hoffset
            obtain ⟨hsent, hfile⟩ := ih h hlong hnext
            exact ⟨hsent, by rw [hfile, htake, hdrop]⟩
        | failed e =>
            rw [hcall] at h
            dsimp only at h
            split_ifs at h
            · cases h
            · exact ih h hle hoffset
      · obtain rfl : offset = src.length := by omega
        cases h
        refine ⟨rfl, ?_⟩
        rw [List.drop_length, List.append_nil, List.take_append_drop]

theorem length_take_drop_le (src : List UInt8) (offset more : ℕ) :
    ((src.drop offset).take (more + 1)).length ≤ more + 1 ∧
      ((src.drop offset).take (more + 1)).length ≤ src.length - offset ∧
      (((src.drop offset).take (more + 1)).length = more + 1 ∨
        ((src.drop offset).take (more + 1)).length = src.length - offset) := by
  rw [List.length_take, List.length_drop]
  omega

/-- A loop that ends well has made calls that send everything. -/
theorem sends_of_sendLoop {fuel i offset : ℕ} {file file' : List UInt8} {sent : ℕ}
    (h : sendLoop calls src fuel i offset file = some (file', sent, none)) :
    ∃ n, i ≤ n ∧ (∀ k, i ≤ k → k < n → (calls k).GoesOn) ∧
      src.length + sentIn calls i ≤ offset + sentIn calls n := by
  induction fuel generalizing i offset file with
  | zero => cases h
  | succ fuel ih =>
      rw [sendLoop] at h
      split_ifs at h with hlt
      · have hnext : ∀ offset' file₁, sendLoop calls src fuel (i + 1) offset' file₁ =
            some (file', sent, none) → (calls i).GoesOn →
            offset' + sentIn calls i ≤ offset + sentIn calls (i + 1) →
            ∃ n, i ≤ n ∧ (∀ k, i ≤ k → k < n → (calls k).GoesOn) ∧
              src.length + sentIn calls i ≤ offset + sentIn calls n := by
          intro offset' file₁ hloop hgo hsent
          obtain ⟨n, hin, hcalls, hbytes⟩ := ih hloop
          refine ⟨n, by omega, fun k hik hkn => ?_, by omega⟩
          obtain rfl | hlt := Nat.eq_or_lt_of_le hik
          · exact hgo
          · exact hcalls k hlt hkn
        cases hcall : calls i with
        | sent more =>
            rw [hcall] at h
            apply hnext _ _ h (by rw [hcall]; trivial)
            have hbytes := length_take_drop_le src offset more
            have hstep : sentIn calls (i + 1) = sentIn calls i + (more + 1) := by
              rw [sentIn, hcall]
            omega
        | failed e =>
            rw [hcall] at h
            dsimp only at h
            split_ifs at h with hintr
            · cases h
            · apply hnext _ _ h (by rw [hcall]; exact not_not.mp hintr)
              have hmono : sentIn calls i ≤ sentIn calls (i + 1) := sentIn_mono calls (by omega)
              omega
      · exact ⟨i, le_refl i, fun k hik hki => absurd hik (by omega), by omega⟩

/-- Calls that send everything end the loop. -/
theorem sendLoop_of_sends {n i offset : ℕ} (hin : i ≤ n)
    (hcalls : ∀ k, i ≤ k → k < n → (calls k).GoesOn)
    (hbytes : src.length + sentIn calls i ≤ offset + sentIn calls n) (file : List UInt8) :
    ∃ fuel file' sent, sendLoop calls src fuel i offset file = some (file', sent, none) := by
  induction hd : n - i generalizing i offset file with
  | zero =>
      obtain rfl : i = n := by omega
      exact ⟨1, file, offset, by rw [sendLoop, if_neg (by omega)]⟩
  | succ d ih =>
      by_cases hlt : offset < src.length
      · have hrest : ∀ k, i + 1 ≤ k → k < n → (calls k).GoesOn := fun k hik hkn =>
          hcalls k (by omega) hkn
        have hmono := sentIn_mono calls (show i + 1 ≤ n by omega)
        cases hcall : calls i with
        | sent more =>
            have hlength := length_take_drop_le src offset more
            have hstep : sentIn calls (i + 1) = sentIn calls i + (more + 1) := by
              rw [sentIn, hcall]
            have hnext : src.length + sentIn calls (i + 1) ≤
                offset + ((src.drop offset).take (more + 1)).length + sentIn calls n := by omega
            obtain ⟨fuel, file', sent, hloop⟩ := ih (by omega) hrest hnext
              (writeAt file offset ((src.drop offset).take (more + 1))) (by omega)
            exact ⟨fuel + 1, file', sent, by rw [sendLoop, if_pos hlt, hcall]; exact hloop⟩
        | failed e =>
            have hintr : e.1 = EINTR := by
              have hgo := hcalls i (le_refl i) (by omega)
              rwa [hcall] at hgo
            have hstep : sentIn calls (i + 1) = sentIn calls i := by
              simp [sentIn, hcall]
            have hnext : src.length + sentIn calls (i + 1) ≤ offset + sentIn calls n := by omega
            obtain ⟨fuel, file', sent, hloop⟩ := ih (by omega) hrest hnext file (by omega)
            refine ⟨fuel + 1, file', sent, ?_⟩
            rw [sendLoop, if_pos hlt, hcall]
            dsimp only
            rw [if_neg (not_not.mpr hintr)]
            exact hloop
      · exact ⟨1, file, offset, by rw [sendLoop, if_neg hlt]⟩

theorem sendLoop_mono {fuel fuel' i offset : ℕ} {file : List UInt8}
    {r : List UInt8 × ℕ × Option Errno} (hle : fuel ≤ fuel')
    (h : sendLoop calls src fuel i offset file = some r) :
    sendLoop calls src fuel' i offset file = some r := by
  induction fuel generalizing fuel' i offset file with
  | zero => cases h
  | succ fuel ih =>
      obtain ⟨fuel', rfl⟩ : ∃ m, fuel' = m + 1 := ⟨fuel' - 1, by omega⟩
      rw [sendLoop] at h ⊢
      split_ifs at h ⊢ with hlt
      · cases hcall : calls i with
        | sent more =>
            rw [hcall] at h
            exact ih (by omega) h
        | failed e =>
            rw [hcall] at h
            dsimp only at h ⊢
            split_ifs at h ⊢ with hintr
            · exact h
            · exact ih (by omega) h
      · exact h

end Send

section Close

variable {close : ℕ → Option Errno}

theorem closes_of_closeLoop {fuel i k : ℕ} (h : closeLoop close fuel i = some (k, none)) :
    ∃ j, k = j + 1 ∧ Closes close i j := by
  induction fuel generalizing i with
  | zero => cases h
  | succ fuel ih =>
      rw [closeLoop] at h
      cases hcall : close i with
      | none =>
          rw [hcall] at h
          cases h
          exact ⟨i, rfl, le_refl i, fun k hik hki => absurd hik (by omega), hcall⟩
      | some e =>
          rw [hcall] at h
          dsimp only at h
          split_ifs at h with hintr
          · obtain ⟨j, hk, hij, hcalls, hj⟩ := ih h
            refine ⟨j, hk, by omega, fun k hik hkj => ?_, hj⟩
            obtain rfl | hlt := Nat.eq_or_lt_of_le hik
            · exact ⟨e, hcall, hintr⟩
            · exact hcalls k hlt hkj
          · cases h

theorem closeLoop_of_closes {i j : ℕ} (h : Closes close i j) {fuel : ℕ} (hfuel : j < i + fuel) :
    closeLoop close fuel i = some (j + 1, none) := by
  obtain ⟨hij, hcalls, hj⟩ := h
  induction fuel generalizing i with
  | zero => omega
  | succ fuel ih =>
      rw [closeLoop]
      obtain rfl | hlt := Nat.eq_or_lt_of_le hij
      · rw [hj]
      · obtain ⟨e, hcall, hintr⟩ := hcalls i (le_refl i) hlt
        rw [hcall]
        dsimp only
        rw [if_pos hintr]
        exact ih (by omega) hlt fun k hik hkj => hcalls k (by omega) hkj

/-- A `close` that is interrupted only finitely often comes to an end. -/
theorem exists_closes (hclose : ∀ i e, close i = some e → e.1 = EINTR)
    {n : ℕ} (hend : ∀ i, n ≤ i → close i = none) (i : ℕ) : ∃ j, Closes close i j := by
  classical
  have hex : ∃ j, i ≤ j ∧ close j = none := ⟨max i n, le_max_left i n, hend _ (le_max_right i n)⟩
  refine ⟨Nat.find hex, (Nat.find_spec hex).1, fun k hik hk => ?_, (Nat.find_spec hex).2⟩
  cases hcall : close k with
  | none => exact absurd ⟨hik, hcall⟩ (Nat.find_min hex hk)
  | some e => exact ⟨e, rfl, hclose k e hcall⟩

end Close

/-! ### The size of the destination -/

/-- The destination is given its size: by `fallocate`, or by `ftruncate` where the file system does
not have it. -/
def ResizeCalls.Resizes (calls : ResizeCalls) : Prop :=
  calls.fallocate = none ∨
    ∃ e, calls.fallocate = some e ∧ e.1 = EOPNOTSUPP ∧ calls.ftruncate = none

/-- What is left of the file that was there. -/
def ResizeCalls.tail (calls : ResizeCalls) (src : List UInt8) (old : Option (List UInt8)) :
    List UInt8 :=
  if calls.fallocate = none then (old.getD []).drop src.length else []

theorem ResizeCalls.tail_eq_nil_iff (calls : ResizeCalls) (src : List UInt8)
    (old : Option (List UInt8)) :
    calls.tail src old = [] ↔ (calls.fallocate = none → (old.getD []).length ≤ src.length) := by
  unfold ResizeCalls.tail
  split_ifs with h
  · rw [List.drop_eq_nil_iff]
    exact ⟨fun hle _ => hle, fun hle => hle h⟩
  · exact ⟨fun _ hnone => absurd hnone h, fun _ => rfl⟩

/-- The preallocation succeeds exactly if the source is not empty and the calls do; then the file is
long enough, and beyond the bytes to come there is the tail. -/
theorem ResizeCalls.preallocate_spec (calls : ResizeCalls) (src : List UInt8)
    (old : Option (List UInt8)) :
    (∃ e : Errno, calls.preallocate src.length (old.getD []) = .error e ∧
      ¬ (src ≠ [] ∧ calls.Resizes)) ∨
    ∃ file, calls.preallocate src.length (old.getD []) = .ok file ∧ src ≠ [] ∧ calls.Resizes ∧
      src.length ≤ file.length ∧ file.drop src.length = calls.tail src old := by
  have hlong : src.length ≤ (extendTo (old.getD []) src.length).length := by
    rw [extendTo, List.length_append, List.length_replicate]
    omega
  unfold ResizeCalls.preallocate ResizeCalls.fallocateTo ResizeCalls.tail
  by_cases hsrc : src = []
  · left
    subst hsrc
    exact ⟨⟨EINVAL, by decide⟩, rfl, fun h => h.1 rfl⟩
  · rw [if_neg (by rwa [List.length_eq_zero_iff])]
    cases hcall : calls.fallocate with
    | none =>
        refine Or.inr ⟨_, rfl, hsrc, Or.inl hcall, hlong, ?_⟩
        rw [if_pos rfl, extendTo, List.drop_append, List.drop_replicate, Nat.sub_self]
        simp
    | some e =>
        dsimp only
        have hnot : e.1 ≠ EOPNOTSUPP ∨ calls.ftruncate ≠ none → ¬ (src ≠ [] ∧ calls.Resizes) := by
          rintro hbad ⟨-, hnone | ⟨e', he', hop, htrunc⟩⟩
          · rw [hcall] at hnone
            cases hnone
          · rw [hcall] at he'
            obtain rfl := Option.some.inj he'
            exact hbad.elim (fun h => h hop) fun h => h htrunc
        by_cases hop : e.1 = EOPNOTSUPP
        · rw [if_neg (not_not.mpr hop)]
          cases htrunc : calls.ftruncate with
          | some e' => exact Or.inl ⟨e', rfl, hnot (Or.inr (by simp [htrunc]))⟩
          | none =>
              refine Or.inr ⟨_, rfl, hsrc, Or.inr ⟨e, hcall, hop, htrunc⟩, ?_, ?_⟩
              · rw [List.length_take]
                omega
              · rw [if_neg (by simp), List.drop_take, Nat.sub_self, List.take_zero]
        · rw [if_pos hop]
          exact Or.inl ⟨e, rfl, hnot (Or.inl hop)⟩

/-! ### What is reported as done -/

/-- An advice fails while `errno` is zero. -/
structure CopyCalls.Silent (calls : CopyCalls) : Prop where
  openIn : calls.openIn = none
  openOut : calls.openOut = none
  fstat : calls.fstat = none
  advice : calls.adviseWillneed ≠ none ∨ calls.adviseSequential ≠ none
  errno : calls.errno = 0
  close : calls.close 0 = none ∧ calls.close 1 = none

/-- Interruptions apart, no call fails that the copy makes. -/
structure CopyCalls.GoesThrough (calls : CopyCalls) (src : List UInt8) : Prop where
  openIn : calls.openIn = none
  openOut : calls.openOut = none
  fstat : calls.fstat = none
  advice : calls.adviseWillneed = none ∧ calls.adviseSequential = none
  nonempty : src ≠ []
  resizes : calls.Resizes
  sends : Sends calls.sendfile src.length
  closes : ∃ j k, Closes calls.close 0 j ∧ Closes calls.close (j + 1) k

/-- The same for the copy of a region. -/
structure RegionCalls.GoesThrough (calls : RegionCalls) (src : List UInt8) : Prop where
  openOut : calls.openOut = none
  nonempty : src ≠ []
  resizes : calls.Resizes
  mmap : calls.mmap = none
  reads : ∃ nbytes, calls.processVmReadv = .ok nbytes ∧ src.length ≤ nbytes
  closes : ∃ j, Closes calls.close 0 j

theorem errnoAfterCall_eq_zero {errno : ErrorCode} {call : Option Errno} :
    errnoAfterCall errno call = 0 ↔ errno = 0 ∧ call = none := by
  cases call with
  | none => simp [errnoAfterCall]
  | some e => simp [errnoAfterCall, e.2]

/-- What `do_sendfile` does without an error, or with an error that is not there. -/
theorem doSendfile_cases {calls : CopyCalls} {fuel : ℕ} {src file : List UInt8}
    {old : Option (List UInt8)} {sent : ℕ} {r : Except ErrorCode Unit}
    (h : doSendfile calls fuel src (old.getD []) = some (file, sent, r)) :
    match r with
    | .ok () => calls.fstat = none ∧ calls.adviseWillneed = none ∧
        calls.adviseSequential = none ∧ src ≠ [] ∧ calls.Resizes ∧
        Sends calls.sendfile src.length ∧ sent = src.length ∧ file = src ++ calls.tail src old
    | .error errno => errno = 0 → calls.fstat = none ∧
        (calls.adviseWillneed ≠ none ∨ calls.adviseSequential ≠ none) ∧ calls.errno = 0 ∧
        sent = 0 ∧ file = old.getD [] := by
  unfold doSendfile at h
  cases hstat : calls.fstat with
  | some e =>
      rw [hstat] at h
      cases h
      exact fun hzero => absurd hzero e.2
  | none =>
      rw [hstat] at h
      dsimp only at h
      split_ifs at h with hwill hseq
      · cases h
        exact fun hzero => ⟨rfl, Or.inl hwill, hzero, rfl, rfl⟩
      · cases h
        exact fun hzero => ⟨rfl, Or.inr hseq, hzero, rfl, rfl⟩
      · obtain ⟨e, hpre, -⟩ | ⟨file₀, hpre, hsrc, hres, hlong, htail⟩ :=
          calls.toResizeCalls.preallocate_spec src old
        · rw [hpre] at h
          cases h
          exact fun hzero => absurd hzero e.2
        · rw [hpre] at h
          dsimp only at h
          obtain ⟨⟨file', sent', e⟩, hloop, heq⟩ := Option.map_eq_some_iff.mp h
          cases e with
          | none =>
              cases heq
              obtain ⟨hsent, hfile⟩ := sendLoop_written hloop hlong (Nat.zero_le _)
              obtain ⟨n, -, hcalls, hbytes⟩ := sends_of_sendLoop hloop
              have hsends : Sends calls.sendfile src.length :=
                ⟨n, fun k hk => hcalls k (Nat.zero_le k) hk, by
                  rw [sentIn, Nat.zero_add] at hbytes
                  exact hbytes⟩
              refine ⟨rfl, not_not.mp hwill, not_not.mp hseq, hsrc, hres, hsends, hsent, ?_⟩
              rw [hfile, htail, List.take_zero, List.drop_zero, List.nil_append]
          | some e =>
              cases heq
              exact fun hzero => absurd hzero e.2

/-- Every copy of a file that is reported as done. -/
theorem copyFileCalls_done {calls : CopyCalls} {fuel : ℕ} {src : List UInt8}
    {old : Option (List UInt8)} {r : CopyResult}
    (h : copyFileCalls calls fuel src old = some r) (hdone : r.code = 0) :
    (calls.Silent ∧ r = ⟨some (old.getD []), 0, 0⟩) ∨
    (calls.GoesThrough src ∧ r = ⟨some (src ++ calls.tail src old), src.length, 0⟩) := by
  unfold copyFileCalls at h
  cases hin : calls.openIn with
  | some e =>
      rw [hin] at h
      cases h
      exact absurd hdone e.2
  | none =>
    cases hout : calls.openOut with
    | some e =>
        rw [hin, hout] at h
        cases h
        exact absurd (errnoAfterCall_eq_zero.mp hdone).1 e.2
    | none =>
      rw [hin, hout] at h
      dsimp only at h
      cases hsend : doSendfile calls fuel src (old.getD []) with
      | none =>
          rw [hsend] at h
          cases h
      | some s =>
        obtain ⟨file, sent, res⟩ := s
        have hcases := doSendfile_cases hsend
        rw [hsend] at h
        cases res with
        | error errno =>
            cases h
            obtain ⟨hdone, hclose₁⟩ := errnoAfterCall_eq_zero.mp hdone
            obtain ⟨hdone, hclose₀⟩ := errnoAfterCall_eq_zero.mp hdone
            obtain ⟨hstat, hadvice, herrno, hsent, hfile⟩ := hcases hdone
            left
            refine ⟨⟨hin, hout, hstat, hadvice, herrno, hclose₀, hclose₁⟩, ?_⟩
            rw [hclose₀, hclose₁, hdone, hsent, hfile]
            rfl
        | ok _ =>
            obtain ⟨hstat, hwill, hseq, hsrc, hres, hsends, hsent, hfile⟩ := hcases
            dsimp only at h
            cases hc₀ : closeLoop calls.close fuel 0 with
            | none =>
                rw [hc₀] at h
                cases h
            | some c =>
              rw [hc₀] at h
              obtain ⟨i, e | e⟩ := c
              · dsimp only at h
                cases hc₁ : closeLoop calls.close fuel i with
                | none =>
                    rw [hc₁] at h
                    cases h
                | some c =>
                  rw [hc₁] at h
                  obtain ⟨i', e' | e'⟩ := c
                  · cases h
                    obtain ⟨j, rfl, hj⟩ := closes_of_closeLoop hc₀
                    obtain ⟨k, -, hk⟩ := closes_of_closeLoop hc₁
                    right
                    refine ⟨⟨hin, hout, hstat, ⟨hwill, hseq⟩, hsrc, hres, hsends, j, k, hj, hk⟩, ?_⟩
                    rw [hfile, hsent]
                  · cases h
                    exact absurd hdone e'.2
              · cases h
                exact absurd hdone e.2

/-- An advice that fails silently ends the copy at once. -/
theorem CopyCalls.Silent.copy {calls : CopyCalls} (h : calls.Silent) (fuel : ℕ) (src : List UInt8)
    (old : Option (List UInt8)) :
    copyFileCalls calls fuel src old = some ⟨some (old.getD []), 0, 0⟩ := by
  have hsend : doSendfile calls fuel src (old.getD []) = some (old.getD [], 0, .error 0) := by
    unfold doSendfile
    rw [h.fstat, h.errno]
    dsimp only
    by_cases hwill : calls.adviseWillneed = none
    · rw [if_neg (not_not.mpr hwill), if_pos (h.advice.resolve_left (not_not.mpr hwill))]
    · rw [if_pos hwill]
  unfold copyFileCalls
  rw [h.openIn, h.openOut, hsend, h.close.1, h.close.2]
  rfl

/-- A copy that goes through is reported as done. -/
theorem CopyCalls.GoesThrough.copy {calls : CopyCalls} {src : List UInt8}
    (h : calls.GoesThrough src) (old : Option (List UInt8)) :
    ∃ fuel, copyFileCalls calls fuel src old =
      some ⟨some (src ++ calls.tail src old), src.length, 0⟩ := by
  obtain ⟨e, -, hnot⟩ | ⟨file₀, hpre, -, -, hlong, htail⟩ :=
    calls.toResizeCalls.preallocate_spec src old
  · exact absurd ⟨h.nonempty, h.resizes⟩ hnot
  obtain ⟨n, hcalls, hbytes⟩ := h.sends
  have hall : src.length + sentIn calls.sendfile 0 ≤ 0 + sentIn calls.sendfile n := by
    rw [sentIn]
    omega
  obtain ⟨fuel, file, sent, hloop⟩ := sendLoop_of_sends (Nat.zero_le n)
    (fun k _ hk => hcalls k hk) hall file₀
  obtain ⟨hsent, hfile⟩ := sendLoop_written hloop hlong (Nat.zero_le _)
  rw [htail, List.take_zero, List.drop_zero, List.nil_append] at hfile
  obtain ⟨j, k, hj, hk⟩ := h.closes
  -- enough for each of the three loops
  obtain ⟨m, hfuel, hjm, hkm⟩ : ∃ m, fuel ≤ m ∧ j < m ∧ k < m :=
    ⟨fuel + j + k + 1, by omega, by omega, by omega⟩
  have hsend : doSendfile calls m src (old.getD []) =
      some (src ++ calls.tail src old, src.length, .ok ()) := by
    unfold doSendfile
    rw [h.fstat, if_neg (not_not.mpr h.advice.1), if_neg (not_not.mpr h.advice.2), hpre]
    dsimp only
    rw [sendLoop_mono hfuel hloop, hsent, hfile]
    rfl
  refine ⟨m, ?_⟩
  unfold copyFileCalls
  rw [h.openIn, h.openOut, hsend]
  dsimp only
  rw [closeLoop_of_closes hj (by omega)]
  dsimp only
  rw [closeLoop_of_closes hk (by omega)]

/-- A region that is copied without an error. -/
theorem RegionCalls.fill_done {calls : RegionCalls} {src : List UInt8} {old : Option (List UInt8)}
    (hdone : (calls.fill src (old.getD [])).2.2 = 0) :
    src ≠ [] ∧ calls.Resizes ∧ calls.mmap = none ∧
      ∃ nbytes, calls.processVmReadv = .ok nbytes ∧ src.length ≤ nbytes := by
  unfold RegionCalls.fill at hdone
  obtain ⟨e, hpre, -⟩ | ⟨file₀, hpre, hsrc, hres, -, -⟩ :=
    calls.toResizeCalls.preallocate_spec src old
  · rw [hpre] at hdone
    exact absurd hdone e.2
  · rw [hpre] at hdone
    cases hmap : calls.mmap with
    | some e =>
        rw [hmap] at hdone
        exact absurd hdone e.2
    | none =>
        rw [hmap] at hdone
        cases hread : calls.processVmReadv with
        | error e =>
            rw [hread] at hdone
            exact absurd hdone e.2
        | ok nbytes =>
            rw [hread] at hdone
            refine ⟨hsrc, hres, rfl, nbytes, rfl, ?_⟩
            by_contra hlt
            dsimp only at hdone
            rw [if_pos (by omega)] at hdone
            exact absurd hdone (by decide)

theorem RegionCalls.fill_eq {calls : RegionCalls} {src : List UInt8} (hsrc : src ≠ [])
    (hres : calls.Resizes) (hmap : calls.mmap = none) {nbytes : ℕ}
    (hread : calls.processVmReadv = .ok nbytes) (hle : src.length ≤ nbytes)
    (old : Option (List UInt8)) :
    calls.fill src (old.getD []) = (src ++ calls.tail src old, src.length, 0) := by
  obtain ⟨e, -, hnot⟩ | ⟨file₀, hpre, -, -, -, htail⟩ :=
    calls.toResizeCalls.preallocate_spec src old
  · exact absurd ⟨hsrc, hres⟩ hnot
  · unfold RegionCalls.fill
    rw [hpre, hmap, hread]
    dsimp only
    rw [List.take_of_length_le hle, if_neg (by omega), writeAt, List.take_zero,
      List.nil_append, Nat.zero_add, htail]

/-- Every copy of a region that is reported as done. -/
theorem copyMemoryRegionCalls_done {calls : RegionCalls} {fuel : ℕ} {src : List UInt8}
    {old : Option (List UInt8)} {r : CopyResult}
    (h : copyMemoryRegionCalls calls fuel src old = some r) (hdone : r.code = 0) :
    calls.GoesThrough src ∧ r = ⟨some (src ++ calls.tail src old), src.length, 0⟩ := by
  unfold copyMemoryRegionCalls at h
  cases hout : calls.openOut with
  | some e =>
      rw [hout] at h
      cases h
      exact absurd hdone e.2
  | none =>
      rw [hout] at h
      dsimp only at h
      cases hclose : closeLoop calls.close fuel 0 with
      | none =>
          rw [hclose] at h
          cases h
      | some c =>
          rw [hclose] at h
          obtain ⟨i, e | e⟩ := c
          · cases h
            obtain ⟨j, -, hj⟩ := closes_of_closeLoop hclose
            obtain ⟨hsrc, hres, hmap, nbytes, hread, hle⟩ := RegionCalls.fill_done hdone
            refine ⟨⟨hout, hsrc, hres, hmap, ⟨nbytes, hread, hle⟩, j, hj⟩, ?_⟩
            rw [RegionCalls.fill_eq hsrc hres hmap hread hle]
          · cases h
            exact absurd hdone e.2

theorem RegionCalls.GoesThrough.copy {calls : RegionCalls} {src : List UInt8}
    (h : calls.GoesThrough src) (old : Option (List UInt8)) :
    ∃ fuel, copyMemoryRegionCalls calls fuel src old =
      some ⟨some (src ++ calls.tail src old), src.length, 0⟩ := by
  obtain ⟨nbytes, hread, hle⟩ := h.reads
  obtain ⟨j, hj⟩ := h.closes
  refine ⟨j + 1, ?_⟩
  unfold copyMemoryRegionCalls
  rw [h.openOut, RegionCalls.fill_eq h.nonempty h.resizes h.mmap hread hle,
    closeLoop_of_closes hj (by omega)]

/-! ### The copy is exact -/

/-- Interruptions apart, no call fails, and interruptions come to an end. -/
structure CopyCalls.NoFailure (calls : CopyCalls) : Prop where
  openIn : calls.openIn = none
  openOut : calls.openOut = none
  fstat : calls.fstat = none
  advice : calls.adviseWillneed = none ∧ calls.adviseSequential = none
  resizes : calls.Resizes
  sendfile : ∀ i, (calls.sendfile i).GoesOn
  sends : ∃ n, ∀ i, n ≤ i → ∃ more, calls.sendfile i = .sent more
  close : ∀ i e, calls.close i = some e → e.1 = EINTR
  closes : ∃ n, ∀ i, n ≤ i → calls.close i = none

/-- The same for the copy of a region; a region is read as a whole. -/
structure RegionCalls.NoFailure (calls : RegionCalls) (src : List UInt8) : Prop where
  openOut : calls.openOut = none
  resizes : calls.Resizes
  mmap : calls.mmap = none
  reads : ∃ nbytes, calls.processVmReadv = .ok nbytes ∧ src.length ≤ nbytes
  close : ∀ i e, calls.close i = some e → e.1 = EINTR
  closes : ∃ n, ∀ i, n ≤ i → calls.close i = none

/-- A copy that is reported as done has copied all the bytes, and the destination holds these and
nothing else; and if no call fails, the copy is reported as done. -/
structure CopiesExactly (copy : ℕ → Option CopyResult) (src : List UInt8) (noFailure : Prop) :
    Prop where
  exact : ∀ fuel r, copy fuel = some r → r.code = 0 → r.dst = some src ∧ r.sent = src.length
  succeeds : noFailure → ∃ fuel r, copy fuel = some r ∧ r.code = 0

/-- The copies of a file that are exact. -/
structure CopyCalls.Exact (calls : CopyCalls) (src : List UInt8) (old : Option (List UInt8)) :
    Prop where
  silent : calls.Silent → src = [] ∧ old.getD [] = []
  tail : calls.GoesThrough src → calls.fallocate = none → (old.getD []).length ≤ src.length
  empty : calls.NoFailure → src ≠ []

/-- The copies of a region that are exact. -/
def RegionCalls.Exact (calls : RegionCalls) (src : List UInt8) (old : Option (List UInt8)) : Prop :=
  calls.GoesThrough src → calls.fallocate = none → (old.getD []).length ≤ src.length

theorem sends_of_noFailure {calls : ℕ → SendfileResult} (hgo : ∀ i, (calls i).GoesOn) {n : ℕ}
    (hsent : ∀ i, n ≤ i → ∃ more, calls i = .sent more) (size : ℕ) : Sends calls size := by
  refine ⟨n + size, fun i _ => hgo i, ?_⟩
  have hbytes : ∀ m, m ≤ sentIn calls (n + m) := by
    intro m
    induction m with
    | zero => exact Nat.zero_le _
    | succ m ih =>
        obtain ⟨more, hcall⟩ := hsent (n + m) (Nat.le_add_right n m)
        have hstep : sentIn calls (n + (m + 1)) = sentIn calls (n + m) + (more + 1) := by
          rw [← Nat.add_assoc, sentIn, hcall]
        omega
  exact hbytes size

theorem CopyCalls.NoFailure.goesThrough {calls : CopyCalls} (h : calls.NoFailure)
    {src : List UInt8} (hsrc : src ≠ []) : calls.GoesThrough src := by
  obtain ⟨n, hn⟩ := h.sends
  obtain ⟨m, hm⟩ := h.closes
  obtain ⟨j, hj⟩ := exists_closes h.close hm 0
  obtain ⟨k, hk⟩ := exists_closes h.close hm (j + 1)
  exact ⟨h.openIn, h.openOut, h.fstat, h.advice, hsrc, h.resizes,
    sends_of_noFailure h.sendfile hn src.length, j, k, hj, hk⟩

theorem RegionCalls.NoFailure.goesThrough {calls : RegionCalls} {src : List UInt8}
    (h : calls.NoFailure src) (hsrc : src ≠ []) : calls.GoesThrough src := by
  obtain ⟨m, hm⟩ := h.closes
  obtain ⟨j, hj⟩ := exists_closes h.close hm 0
  exact ⟨h.openOut, hsrc, h.resizes, h.mmap, h.reads, j, hj⟩

/-- The bytes that went over are the content exactly if there is no tail. -/
theorem exact_iff_tail (src tail : List UInt8) :
    (some (src ++ tail) = some src ∧ src.length = src.length) ↔ tail = [] := by
  rw [Option.some.injEq, List.append_right_eq_self, and_iff_left rfl]

theorem copyFile_exact_iff (calls : CopyCalls) (src : List UInt8) (old : Option (List UInt8)) :
    CopiesExactly (fun fuel => copyFileCalls calls fuel src old) src calls.NoFailure ↔
      calls.Exact src old := by
  constructor
  · intro h
    refine ⟨fun hsilent => ?_, fun hgoes => ?_, fun hno hempty => ?_⟩
    · obtain ⟨hdst, hsent⟩ := h.exact 0 _ (hsilent.copy 0 src old) rfl
      have hnil : src = [] := List.length_eq_zero_iff.mp hsent.symm
      exact ⟨hnil, (Option.some.inj hdst).trans hnil⟩
    · obtain ⟨fuel, hcopy⟩ := hgoes.copy old
      rw [← ResizeCalls.tail_eq_nil_iff, ← exact_iff_tail src]
      exact h.exact fuel _ hcopy rfl
    · obtain ⟨fuel, r, hr, hdone⟩ := h.succeeds hno
      obtain ⟨hsilent, -⟩ | ⟨hgoes, -⟩ := copyFileCalls_done hr hdone
      · exact hsilent.advice.elim (fun h => h hno.advice.1) fun h => h hno.advice.2
      · exact hgoes.nonempty hempty
  · intro h
    refine ⟨fun fuel r hr hdone => ?_, fun hno => ?_⟩
    · obtain ⟨hsilent, rfl⟩ | ⟨hgoes, rfl⟩ := copyFileCalls_done hr hdone
      · obtain ⟨hsrc, hold⟩ := h.silent hsilent
        rw [hsrc, hold]
        exact ⟨rfl, rfl⟩
      · rw [exact_iff_tail, ResizeCalls.tail_eq_nil_iff]
        exact h.tail hgoes
    · obtain ⟨fuel, hcopy⟩ := (hno.goesThrough (h.empty hno)).copy old
      exact ⟨fuel, _, hcopy, rfl⟩

theorem copyMemoryRegion_exact_iff (calls : RegionCalls) {src : List UInt8} (hsrc : src ≠ [])
    (old : Option (List UInt8)) :
    CopiesExactly (fun fuel => copyMemoryRegionCalls calls fuel src old) src
        (calls.NoFailure src) ↔ calls.Exact src old := by
  constructor
  · intro h hgoes
    obtain ⟨fuel, hcopy⟩ := hgoes.copy old
    rw [← ResizeCalls.tail_eq_nil_iff, ← exact_iff_tail src]
    exact h.exact fuel _ hcopy rfl
  · intro h
    refine ⟨fun fuel r hr hdone => ?_, fun hno => ?_⟩
    · obtain ⟨hgoes, rfl⟩ := copyMemoryRegionCalls_done hr hdone
      rw [exact_iff_tail, ResizeCalls.tail_eq_nil_iff]
      exact h hgoes
    · obtain ⟨fuel, hcopy⟩ := (hno.goesThrough hsrc).copy old
      exact ⟨fuel, _, hcopy, rfl⟩

/-- **A local copy is exact** except in three cases: an advice fails while `errno` is zero, the file
at the destination is longer and gets its size from `fallocate`, or the source is an empty file. -/
theorem local_copy_exact_iff (calls : CopyCalls) (region : RegionCalls) (src : List UInt8)
    (old : Option (List UInt8)) :
    (CopiesExactly (fun fuel => copyFileCalls calls fuel src old) src calls.NoFailure ↔
      calls.Exact src old) ∧
    (src ≠ [] →
      (CopiesExactly (fun fuel => copyMemoryRegionCalls region fuel src old) src
          (region.NoFailure src) ↔ region.Exact src old)) :=
  ⟨copyFile_exact_iff calls src old, fun hsrc => copyMemoryRegion_exact_iff region hsrc old⟩

/-- Every call succeeds at once, and `sendfile` sends all it can. -/
def allSucceed : CopyCalls where
  errno := 0
  openIn := none
  openOut := none
  fstat := none
  adviseWillneed := none
  adviseSequential := none
  fallocate := none
  ftruncate := none
  sendfile := fun _ => .sent 1
  close := fun _ => none

theorem noFailure_allSucceed : allSucceed.NoFailure :=
  ⟨rfl, rfl, rfl, ⟨rfl, rfl⟩, Or.inl rfl, fun _ => trivial, ⟨0, fun _ _ => ⟨1, rfl⟩⟩,
    fun _ _ h => absurd h (by simp [allSucceed]), ⟨0, fun _ _ => rfl⟩⟩

/-- The same, but the first advice is refused. -/
def adviceRefused : CopyCalls :=
  { allSucceed with adviseWillneed := some ⟨EINVAL, by decide⟩ }

/-- The calls for a region, which all succeed. -/
def regionSucceeds : RegionCalls := ⟨⟨none, none⟩, none, none, .ok 1, fun _ => none⟩

/-- A longer file keeps its tail, with either source; an empty one is refused; and an advice that is
refused ends a copy that has not begun. -/
theorem inexact_copies :
    copyFileCalls allSucceed 4 [1] (some [2, 3]) = some ⟨some [1, 3], 1, 0⟩ ∧
    ¬ CopiesExactly (fun fuel => copyFileCalls allSucceed fuel [1] (some [2, 3])) [1]
      allSucceed.NoFailure ∧
    copyFileCalls allSucceed 4 [] none = some ⟨some [], 0, EINVAL⟩ ∧
    ¬ CopiesExactly (fun fuel => copyFileCalls allSucceed fuel [] none) []
      allSucceed.NoFailure ∧
    copyFileCalls adviceRefused 4 [1] none = some ⟨some [], 0, 0⟩ ∧
    ¬ CopiesExactly (fun fuel => copyFileCalls adviceRefused fuel [1] none) [1]
      adviceRefused.NoFailure ∧
    copyMemoryRegionCalls regionSucceeds 4 [1] (some [2, 3]) = some ⟨some [1, 3], 1, 0⟩ ∧
    ¬ CopiesExactly (fun fuel => copyMemoryRegionCalls regionSucceeds fuel [1] (some [2, 3])) [1]
      (regionSucceeds.NoFailure [1]) := by
  have htail : copyFileCalls allSucceed 4 [1] (some [2, 3]) = some ⟨some [1, 3], 1, 0⟩ := by decide
  have hadvice : copyFileCalls adviceRefused 4 [1] none = some ⟨some [], 0, 0⟩ := by decide
  have hregion : copyMemoryRegionCalls regionSucceeds 4 [1] (some [2, 3]) =
      some ⟨some [1, 3], 1, 0⟩ := by decide
  refine ⟨htail, fun h => ?_, by decide, fun h => ?_, hadvice, fun h => ?_, hregion, fun h => ?_⟩
  · exact absurd (h.exact 4 _ htail rfl).1 (by decide)
  · obtain ⟨fuel, r, hr, hdone⟩ := h.succeeds noFailure_allSucceed
    obtain ⟨hsilent, -⟩ | ⟨hgoes, -⟩ := copyFileCalls_done hr hdone
    · exact hsilent.advice.elim (fun h => h rfl) fun h => h rfl
    · exact hgoes.nonempty rfl
  · exact absurd (h.exact 4 _ hadvice rfl).1 (by decide)
  · exact absurd (h.exact 4 _ hregion rfl).1 (by decide)

/-! ### The copy on a disk -/

/-- A copy that goes through does to the destination what `writeFile` says. -/
theorem copyFile_writes {calls : CopyCalls} {src : List UInt8} (h : calls.GoesThrough src)
    {d : Disk} {p : PathStr} {l : Loc} (hl : d.tree.resolve .create p = .ok l)
    {old : Option (List UInt8)} (hold : d.tree.node l = old.map .file) :
    ∃ fuel r, copyFileCalls calls fuel src old = some r ∧
      (d.writeFile calls.fallocate.isNone p src).2 = r.code ∧
      (d.writeFile calls.fallocate.isNone p src).1.tree.node l = r.dst.map .file := by
  obtain ⟨fuel, hcopy⟩ := h.copy old
  refine ⟨fuel, _, hcopy, ?_⟩
  unfold Disk.writeFile ResizeCalls.tail
  rw [hl]
  dsimp only
  rw [if_neg fun hempty => h.nonempty hempty.2]
  split
  · next hnone =>
      obtain ⟨n, q, rfl, hq, hprop⟩ := resolve_free_spec hl hnone
      obtain rfl : old = none := by
        rw [hnone] at hold
        exact Option.map_eq_none_iff.mp hold.symm
      refine ⟨rfl, ?_⟩
      rw [(Disk.create_eq _ hq hprop hnone).2, if_pos rfl]
      split_ifs <;> simp
  · next file hfile =>
      obtain rfl : old = some file := by
        rw [hfile] at hold
        obtain ⟨file', rfl, heq⟩ := Option.map_eq_some_iff.mp hold.symm
        cases heq
        rfl
      refine ⟨rfl, ?_⟩
      show (d.tree.overwrite l file _ hfile).node l = _
      cases hcall : calls.fallocate with
      | none => simp [overwrite]
      | some e => simp [overwrite]
  · next hdir =>
      rw [hdir] at hold
      obtain ⟨file, -, heq⟩ := Option.map_eq_some_iff.mp hold.symm
      cases heq
  · next target hlink =>
      rw [hlink] at hold
      obtain ⟨file, -, heq⟩ := Option.map_eq_some_iff.mp hold.symm
      cases heq

end Norns
