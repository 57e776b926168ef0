import Norns.CopyFile

/-! # The resources of `copy_memory_region`

`copy_memory_region` (`memory-to-local-path.cpp`) opens the destination, maps it and has one label,
`cleanup_on_error`, at which both are given back.  Whether there is something to unmap is read off
the variable `dst_addr`: it is compared with `MAP_FAILED`, which it is after a failed `mmap`, but it
begins as `NULL`.  If the preallocation fails, `munmap` is called for a range that begins at zero.

The code that is returned is that of the first call that has failed, unless `close` fails as well.

`region_paired_iff` says for which outcomes of the calls the resources are paired and the code is
right.  An interrupted `close` is called again and is not a failure, and neither is a `fallocate`
that the file system does not support. -/

namespace Norns

open Lib

/-- A `void*`. -/
abbrev Address := UInt64

/-- `NULL`. -/
def NULL : Address := 0

/-- `MAP_FAILED`. -/
def MAP_FAILED : Address := -1

/-- What is acquired and given back. -/
inductive RegionEvent where
  | opened
  | mapped (address : Address) (size : ℕ)
  | unmapped (address : Address) (size : ℕ)
  | closed
deriving DecidableEq, Repr

/-- The ranges that `mmap` has mapped. -/
def mapsOf (events : List RegionEvent) : List (Address × ℕ) :=
  events.filterMap fun
    | .mapped address size => some (address, size)
    | _ => none

/-- The ranges that `munmap` has been called for. -/
def unmapsOf (events : List RegionEvent) : List (Address × ℕ) :=
  events.filterMap fun
    | .unmapped address size => some (address, size)
    | _ => none

/-- The calls, with the address that `mmap` returns if it succeeds. -/
structure MappedCalls extends RegionCalls where
  address : Address
  address_ne : address ≠ MAP_FAILED

namespace MappedCalls

variable (calls : MappedCalls)

/-- The error of `process_vm_readv`, or that of a short read. -/
def readError (size : ℕ) : Option Errno :=
  match calls.processVmReadv with
  | .error e => some e
  | .ok nbytes => if nbytes < size then some ⟨ EIO, by decide⟩ else none

/-- From `open` to the label: what has been mapped, and the variables `dst_addr` and `rv`. -/
def toCleanup (size : ℕ) : List RegionEvent × Address × ErrorCode :=
  match calls.preallocate size [] with
  | .error e => ([], NULL, e)
  | .ok _ =>
      match calls.mmap with
      | some e => ([], MAP_FAILED, e)
      | none => ([.mapped calls.address size], calls.address, errnoAfterCall 0 (calls.readError size))

/-- `copy_memory_region` for a destination that is not a directory: the events and the code. -/
def copyMemoryRegionEvents (fuel size : ℕ) : Option (List RegionEvent × ErrorCode) :=
  match calls.openOut with
  | some e => some ([], e)
  | none =>
      let (events, dstAddr, rv) := calls.toCleanup size
      let events := .opened :: events ++
        if dstAddr ≠ MAP_FAILED then [.unmapped dstAddr size] else []
      match closeLoop calls.close fuel 0 with
      | none => none
      | some (_, closeEc) => some (events ++ [.closed], errnoAfterCall rv closeEc)

/-- The part after a successful preallocation sets `rv` as `RegionCalls.fill` says. -/
theorem mapped_code (src file : List UInt8) :
    (match calls.mmap with
      | some e => (([], MAP_FAILED, e) : List RegionEvent × Address × ErrorCode)
      | none => ([.mapped calls.address src.length], calls.address,
          errnoAfterCall 0 (calls.readError src.length))).2.2 =
    (match calls.mmap with
      | some e => ((file, 0, e) : List UInt8 × ℕ × ErrorCode)
      | none =>
          match calls.processVmReadv with
          | .error e => (file, 0, e)
          | .ok nbytes =>
              let bytes := src.take nbytes
              (writeAt file 0 bytes, bytes.length, if nbytes < src.length then EIO else 0)).2.2 := by
  cases calls.mmap with
  | some e => rfl
  | none =>
      unfold readError
      cases calls.processVmReadv with
      | error e => rfl
      | ok nbytes =>
          dsimp only
          split_ifs <;> rfl

/-- The code is the one that the function returns. -/
theorem copyMemoryRegionEvents_code (fuel : ℕ) (src : List UInt8) (old : Option (List UInt8)) :
    (calls.copyMemoryRegionEvents fuel src.length).map Prod.snd =
      (copyMemoryRegionCalls calls.toRegionCalls fuel src old).map CopyResult.code := by
  have hfill : (calls.toCleanup src.length).2.2 = (calls.fill src (old.getD [])).2.2 := by
    unfold toCleanup RegionCalls.fill ResizeCalls.preallocate
    cases calls.fallocateTo src.length with
    | none => exact calls.mapped_code src _
    | some e =>
        dsimp only
        split_ifs with he
        · rfl
        · cases calls.ftruncate with
          | some e => rfl
          | none => exact calls.mapped_code src _
  unfold copyMemoryRegionEvents copyMemoryRegionCalls
  cases calls.openOut with
  | some e => rfl
  | none =>
      dsimp only
      rw [hfill]
      cases closeLoop calls.close fuel 0 with
      | none => rfl
      | some r =>
          obtain ⟨n, _ | e⟩ := r <;> rfl

/-- The error of the preallocation. -/
def resizeError (size : ℕ) : Option Errno :=
  match calls.preallocate size [] with
  | .error e => some e
  | .ok _ => none

/-- The errors of the calls before `close`, in order. -/
def errors (size : ℕ) : List Errno :=
  [calls.openOut, calls.resizeError size, calls.mmap, calls.readError size].filterMap id

/-- After interruptions `close` answers `closeEc`. -/
def CloseAnswers (closeEc : Option Errno) : Prop :=
  ∃ n, (∀ k < n, ∃ e, calls.close k = some e ∧ e.1 = EINTR) ∧ calls.close n = closeEc ∧
    ∀ e, closeEc = some e → e.1 ≠ EINTR

/-- The code of the first failure, zero if there is none. -/
def firstError (size : ℕ) (closeEc : Option Errno) : ErrorCode :=
  match (calls.errors size ++ closeEc.toList).head? with
  | some e => e
  | none => 0

/-- The function returns, what it maps it unmaps, what it opens it closes, and the code is that of
the first failure. -/
structure Paired (size : ℕ) : Prop where
  returns : ∃ fuel r, calls.copyMemoryRegionEvents fuel size = some r
  unmaps : ∀ fuel r, calls.copyMemoryRegionEvents fuel size = some r → unmapsOf r.1 = mapsOf r.1
  closes : ∀ fuel r, calls.copyMemoryRegionEvents fuel size = some r →
    r.1.count .closed = r.1.count .opened
  code : ∀ fuel r, calls.copyMemoryRegionEvents fuel size = some r →
    (calls.openOut ≠ none → ∀ closeEc, r.2 = calls.firstError size closeEc) ∧
    (calls.openOut = none → ∀ closeEc, calls.CloseAnswers closeEc →
      r.2 = calls.firstError size closeEc)

end MappedCalls

/-! ### The loop around `close` -/

theorem closeLoop_spec {close : ℕ → Option Errno} {fuel i k : ℕ} {closeEc : Option Errno}
    (h : closeLoop close fuel i = some (k, closeEc)) :
    ∃ n, i ≤ n ∧ (∀ j, i ≤ j → j < n → ∃ e, close j = some e ∧ e.1 = EINTR) ∧ close n = closeEc ∧
      ∀ e, closeEc = some e → e.1 ≠ EINTR := by
  induction fuel generalizing i with
  | zero => cases h
  | succ fuel ih =>
      rw [closeLoop] at h
      cases hcall : close i with
      | none =>
          rw [hcall] at h
          cases h
          exact ⟨i, le_refl i, fun j hij hji => absurd hij (by omega), hcall, by rintro e ⟨⟩⟩
      | some e =>
          rw [hcall] at h
          dsimp only at h
          split_ifs at h with hintr
          · obtain ⟨n, hin, hcalls, hn, hne⟩ := ih h
            refine ⟨n, by omega, fun j hij hjn => ?_, hn, hne⟩
            obtain rfl | hlt := Nat.eq_or_lt_of_le hij
            · exact ⟨e, hcall, hintr⟩
            · exact hcalls j hlt hjn
          · cases h
            refine ⟨i, le_refl i, fun j hij hji => absurd hij (by omega), hcall, ?_⟩
            rintro e' ⟨⟩
            exact hintr

theorem closeLoop_of_answer {close : ℕ → Option Errno} {i n : ℕ} {closeEc : Option Errno}
    (hin : i ≤ n) (hcalls : ∀ j, i ≤ j → j < n → ∃ e, close j = some e ∧ e.1 = EINTR)
    (hn : close n = closeEc) (hne : ∀ e, closeEc = some e → e.1 ≠ EINTR) {fuel : ℕ}
    (hfuel : n < i + fuel) : closeLoop close fuel i = some (n + 1, closeEc) := by
  induction fuel generalizing i with
  | zero => omega
  | succ fuel ih =>
      rw [closeLoop]
      obtain rfl | hlt := Nat.eq_or_lt_of_le hin
      · rw [hn]
        cases closeEc with
        | none => rfl
        | some e =>
            dsimp only
            rw [if_neg (hne e rfl)]
      · obtain ⟨e, hcall, hintr⟩ := hcalls i (le_refl i) hlt
        rw [hcall]
        dsimp only
        rw [if_pos hintr]
        exact ih (by omega) (fun j hij hjn => hcalls j (by omega) hjn) (by omega)

namespace MappedCalls

variable {calls : MappedCalls} {size : ℕ} {closeEc closeEc' : Option Errno}

theorem CloseAnswers.unique (h : calls.CloseAnswers closeEc) (h' : calls.CloseAnswers closeEc') :
    closeEc = closeEc' := by
  obtain ⟨n, hcalls, hn, hne⟩ := h
  obtain ⟨n', hcalls', hn', hne'⟩ := h'
  obtain hlt | rfl | hlt := Nat.lt_trichotomy n n'
  · obtain ⟨e, he, hintr⟩ := hcalls' n hlt
    exact absurd hintr (hne e (hn.symm.trans he))
  · exact hn.symm.trans hn'
  · obtain ⟨e, he, hintr⟩ := hcalls n' hlt
    exact absurd hintr (hne' e (hn'.symm.trans he))

/-- The function returns once `close` does. -/
theorem copyMemoryRegionEvents_iff (hopen : calls.openOut = none)
    {r : List RegionEvent × ErrorCode} :
    (∃ fuel, calls.copyMemoryRegionEvents fuel size = some r) ↔
      ∃ closeEc, calls.CloseAnswers closeEc ∧
        r = ((.opened :: (calls.toCleanup size).1 ++
            if (calls.toCleanup size).2.1 ≠ MAP_FAILED then
              [.unmapped (calls.toCleanup size).2.1 size] else []) ++ [.closed],
          errnoAfterCall (calls.toCleanup size).2.2 closeEc) := by
  simp only [copyMemoryRegionEvents, hopen]
  constructor
  · rintro ⟨fuel, h⟩
    cases hloop : closeLoop calls.close fuel 0 with
    | none =>
        rw [hloop] at h
        cases h
    | some p =>
        obtain ⟨k, closeEc⟩ := p
        rw [hloop] at h
        obtain ⟨n, -, hcalls, hn, hne⟩ := closeLoop_spec hloop
        exact ⟨closeEc, ⟨n, fun j hj => hcalls j (Nat.zero_le j) hj, hn, hne⟩,
          (Option.some.inj h).symm⟩
  · rintro ⟨closeEc, ⟨n, hcalls, hn, hne⟩, rfl⟩
    refine ⟨n + 1, ?_⟩
    rw [closeLoop_of_answer (Nat.zero_le n) (fun j _ hj => hcalls j hj) hn hne (by omega)]

/-- What is known at the label. -/
theorem toCleanup_cases (calls : MappedCalls) (size : ℕ) :
    (∃ e, calls.resizeError size = some e ∧ calls.toCleanup size = ([], NULL, e.1)) ∨
    (calls.resizeError size = none ∧ ∃ e, calls.mmap = some e ∧
      calls.toCleanup size = ([], MAP_FAILED, e.1)) ∨
    (calls.resizeError size = none ∧ calls.mmap = none ∧ calls.toCleanup size =
      ([.mapped calls.address size], calls.address, errnoAfterCall 0 (calls.readError size))) := by
  unfold resizeError toCleanup
  cases calls.preallocate size [] with
  | error e => exact Or.inl ⟨e, rfl, rfl⟩
  | ok file =>
      refine Or.inr ?_
      cases hmap : calls.mmap with
      | some e => exact Or.inl ⟨rfl, e, rfl, rfl⟩
      | none => exact Or.inr ⟨rfl, rfl, rfl⟩

/-- The first of the errors between `open` and the label. -/
theorem firstError_eq (hopen : calls.openOut = none) (hresize : calls.resizeError size = none) :
    calls.firstError size closeEc =
      if (calls.toCleanup size).2.2 ≠ 0 then (calls.toCleanup size).2.2
      else errnoAfterCall 0 closeEc := by
  have hclose : ∀ o : Option Errno, (match o.toList.head? with
      | some e => (e.1 : ErrorCode)
      | none => 0) = errnoAfterCall 0 o := by
    rintro (_ | e) <;> rfl
  obtain ⟨e, he, -⟩ | ⟨-, e, hmap, hto⟩ | ⟨-, hmap, hto⟩ := calls.toCleanup_cases size
  · cases hresize.symm.trans he
  · rw [hto, if_pos e.2]
    simp [firstError, errors, hopen, hresize, hmap]
  · rw [hto]
    cases hread : calls.readError size with
    | some e =>
        have hne : errnoAfterCall 0 (some e) ≠ 0 := e.2
        rw [if_pos hne]
        simp [firstError, errors, hopen, hresize, hmap, hread, errnoAfterCall]
    | none =>
        rw [if_neg (by simp [errnoAfterCall])]
        simp only [firstError, errors, hopen, hresize, hmap, hread, List.filterMap_cons, id,
          List.filterMap_nil, List.nil_append]
        exact hclose closeEc

end MappedCalls

open MappedCalls

/-- The condition on the outcomes: the destination cannot be opened; or it is preallocated, `close`
comes to an end, and it does not hide the error of an earlier call behind another one. -/
def MappedCalls.CleansUp (calls : MappedCalls) (size : ℕ) : Prop :=
  calls.openOut ≠ none ∨
  (calls.resizeError size = none ∧ ∃ closeEc, calls.CloseAnswers closeEc ∧
    ∀ e e', (calls.mmap = some e ∨ (calls.mmap = none ∧ calls.readError size = some e)) →
      closeEc = some e' → e'.1 = e.1)

/-- The error at the label, once the file has been preallocated. -/
theorem MappedCalls.toCleanup_error {calls : MappedCalls} {size : ℕ}
    (hresize : calls.resizeError size = none) (ec : ErrorCode) :
    ((calls.toCleanup size).2.2 = ec ∧ ec ≠ 0) ↔
      ∃ e : Errno, e.1 = ec ∧
        (calls.mmap = some e ∨ (calls.mmap = none ∧ calls.readError size = some e)) := by
  obtain ⟨e, he, -⟩ | ⟨-, e, hmap, hto⟩ | ⟨-, hmap, hto⟩ := calls.toCleanup_cases size
  · cases hresize.symm.trans he
  · rw [hto, hmap]
    constructor
    · rintro ⟨rfl, -⟩
      exact ⟨e, rfl, Or.inl rfl⟩
    · rintro ⟨e', rfl, he | ⟨he, -⟩⟩
      · obtain rfl := Option.some.inj he
        exact ⟨rfl, e.2⟩
      · cases he
  · rw [hto, hmap]
    cases hread : calls.readError size with
    | none =>
        constructor
        · rintro ⟨rfl, hne⟩
          exact absurd rfl hne
        · rintro ⟨e', -, he | ⟨-, he⟩⟩ <;> cases he
    | some e =>
        constructor
        · rintro ⟨rfl, -⟩
          exact ⟨e, rfl, Or.inr ⟨rfl, rfl⟩⟩
        · rintro ⟨e', rfl, he | ⟨-, he⟩⟩
          · cases he
          · obtain rfl := Option.some.inj he
            exact ⟨rfl, e.2⟩

theorem MappedCalls.paired_of_closed {calls : MappedCalls} {size : ℕ} {e : Errno}
    (hopen : calls.openOut = some e) : calls.Paired size := by
  have hrun : ∀ fuel, calls.copyMemoryRegionEvents fuel size = some ([], e.1) := by
    intro fuel
    simp only [copyMemoryRegionEvents, hopen]
  refine ⟨⟨0, _, hrun 0⟩, fun fuel r hr => ?_, fun fuel r hr => ?_, fun fuel r hr => ⟨?_, ?_⟩⟩
  · obtain rfl := Option.some.inj ((hrun fuel).symm.trans hr)
    rfl
  · obtain rfl := Option.some.inj ((hrun fuel).symm.trans hr)
    rfl
  · obtain rfl := Option.some.inj ((hrun fuel).symm.trans hr)
    intro _ closeEc
    simp [firstError, errors, hopen]
  · intro hnone
    cases hopen.symm.trans hnone

/-- What is unmapped at the label. -/
theorem MappedCalls.unmapsOf_iff (calls : MappedCalls) (size : ℕ) :
    unmapsOf ((.opened :: (calls.toCleanup size).1 ++
        if (calls.toCleanup size).2.1 ≠ MAP_FAILED then
          [.unmapped (calls.toCleanup size).2.1 size] else []) ++ [.closed]) =
      mapsOf ((.opened :: (calls.toCleanup size).1 ++
        if (calls.toCleanup size).2.1 ≠ MAP_FAILED then
          [.unmapped (calls.toCleanup size).2.1 size] else []) ++ [.closed]) ↔
    calls.resizeError size = none := by
  obtain ⟨e, he, hto⟩ | ⟨hnone, e, -, hto⟩ | ⟨hnone, -, hto⟩ := calls.toCleanup_cases size
  · have hnull : NULL ≠ MAP_FAILED := by decide
    simp [hto, he, hnull, unmapsOf, mapsOf]
  · simp [hto, hnone, unmapsOf, mapsOf]
  · simp [hto, hnone, calls.address_ne, unmapsOf, mapsOf]

/-- **The resources of `copy_memory_region`** are paired, and the code is that of the first failure,
exactly if the preallocation does not fail, `close` comes to an end and hides no other error. -/
theorem region_paired_iff (calls : MappedCalls) (size : ℕ) :
    calls.Paired size ↔ calls.CleansUp size := by
  cases hopen : calls.openOut with
  | some e => exact iff_of_true (paired_of_closed hopen) (Or.inl (by simp [hopen]))
  | none =>
      constructor
      · intro h
        obtain ⟨fuel, r, hr⟩ := h.returns
        obtain ⟨closeEc, hclose, rfl⟩ := (copyMemoryRegionEvents_iff hopen).mp ⟨fuel, hr⟩
        have hresize := (calls.unmapsOf_iff size).mp (h.unmaps fuel _ hr)
        refine Or.inr ⟨hresize, closeEc, hclose, fun e e' he he' => ?_⟩
        have hcode := (h.code fuel _ hr).2 hopen closeEc hclose
        obtain ⟨hrv, hne⟩ := (toCleanup_error hresize e.1).mpr ⟨e, rfl, he⟩
        rw [firstError_eq hopen hresize, hrv, if_pos hne, he'] at hcode
        exact hcode
      · intro h
        obtain ⟨hresize, closeEc, hclose, hhides⟩ := h.resolve_left (by simp [hopen])
        have hresult : ∀ fuel r, calls.copyMemoryRegionEvents fuel size = some r →
            ∃ closeEc', calls.CloseAnswers closeEc' ∧ r = _ := fun fuel r hr =>
          (copyMemoryRegionEvents_iff hopen).mp ⟨fuel, hr⟩
        refine ⟨?_, fun fuel r hr => ?_, fun fuel r hr => ?_,
          fun fuel r hr => ⟨fun hne => absurd hopen hne, fun _ closeEc' hclose' => ?_⟩⟩
        · obtain ⟨fuel, hr⟩ : ∃ fuel, calls.copyMemoryRegionEvents fuel size = some _ :=
            (copyMemoryRegionEvents_iff hopen).mpr ⟨closeEc, hclose, rfl⟩
          exact ⟨fuel, _, hr⟩
        · obtain ⟨closeEc', -, rfl⟩ := hresult fuel r hr
          exact (calls.unmapsOf_iff size).mpr hresize
        · obtain ⟨closeEc', -, rfl⟩ := hresult fuel r hr
          obtain ⟨e, he, -⟩ | ⟨-, e, -, hto⟩ | ⟨-, -, hto⟩ := calls.toCleanup_cases size
          · cases hresize.symm.trans he
          · simp [hto]
          · simp [hto, calls.address_ne]
        · obtain ⟨closeEc'', hclose'', rfl⟩ := hresult fuel r hr
          obtain rfl := hclose.unique hclose'
          obtain rfl := hclose.unique hclose''
          rw [firstError_eq hopen hresize]
          dsimp only
          split_ifs with hrv
          · obtain ⟨e, he, hcalls⟩ := (toCleanup_error hresize _).mp ⟨rfl, hrv⟩
            cases closeEc with
            | none => rfl
            | some e' => rw [← he]; exact hhides e e' hcalls rfl
          · rw [not_not.mp hrv]

/-- Calls that succeed, for a region of eight bytes at a place of the daemon's own. -/
def MappedCalls.sample : MappedCalls :=
  ⟨⟨⟨none, none⟩, none, none, .ok 8, fun _ => none⟩, 4096, by decide⟩

/-- A full disk: the range from `NULL` on is unmapped although nothing has been mapped.  A `close`
that fails after `process_vm_readv` hides the first error. -/
theorem full_disk_unmaps :
    (let calls : MappedCalls := { MappedCalls.sample with fallocate := some ⟨28, by decide⟩ }
    calls.copyMemoryRegionEvents 1 8 = some ([.opened, .unmapped NULL 8, .closed], 28) ∧
      ¬ calls.Paired 8) ∧
    (let calls : MappedCalls := { MappedCalls.sample with
        processVmReadv := .error ⟨3, by decide⟩, close := fun _ => some ⟨5, by decide⟩ }
    calls.firstError 8 (some ⟨5, by decide⟩) = 3 ∧ ¬ calls.Paired 8) := by
  refine ⟨⟨by decide, fun h => ?_⟩, by decide, fun h => ?_⟩
  · exact absurd (h.unmaps 1 _ rfl) (by decide)
  · have hclose : MappedCalls.CloseAnswers { MappedCalls.sample with
        processVmReadv := .error ⟨3, by decide⟩, close := fun _ => some ⟨5, by decide⟩ }
        (some ⟨5, by decide⟩) :=
      ⟨0, fun k hk => absurd hk (Nat.not_lt_zero k), rfl, by rintro e ⟨⟩; decide⟩
    exact absurd ((h.code 1 _ rfl).2 rfl _ hclose) (by decide)

end Norns
