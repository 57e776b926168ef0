import Mathlib.Tactic

/-! # Byte order

Words as lists of bytes.  `bytesLE k n` lists the `k` low bytes of `n`, the least significant
first, and `ofBytesLE` reads such a list; big-endian lists are the reversed ones.  A host of
either endianness stores the bytes of a word in its own order. -/

namespace Norns.Lib

/-- The `k` low bytes of `n`, least significant first. -/
def bytesLE : ℕ → ℕ → List UInt8
  | 0, _ => []
  | k + 1, n => UInt8.ofNat n :: bytesLE k (n / 256)

def ofBytesLE : List UInt8 → ℕ
  | [] => 0
  | b :: bs => b.toNat + 256 * ofBytesLE bs

def bytesBE (k n : ℕ) : List UInt8 := (bytesLE k n).reverse

def ofBytesBE (bs : List UInt8) : ℕ := ofBytesLE bs.reverse

@[simp] theorem length_bytesLE (k n : ℕ) : (bytesLE k n).length = k := by
  induction k generalizing n with
  | zero => rfl
  | succ k ih => simp only [bytesLE, List.length_cons, ih]

@[simp] theorem length_bytesBE (k n : ℕ) : (bytesBE k n).length = k := by
  rw [bytesBE, List.length_reverse, length_bytesLE]

theorem ofBytesLE_lt (bs : List UInt8) : ofBytesLE bs < 256 ^ bs.length := by
  induction bs with
  | nil => decide
  | cons b bs ih =>
    have hb : b.toNat < 256 := b.toNat_lt
    rw [ofBytesLE, List.length_cons, Nat.pow_succ]
    omega

theorem ofBytesBE_lt (bs : List UInt8) : ofBytesBE bs < 256 ^ bs.length := by
  have h := ofBytesLE_lt bs.reverse
  rwa [List.length_reverse] at h

theorem ofBytesLE_bytesLE (k n : ℕ) (h : n < 256 ^ k) : ofBytesLE (bytesLE k n) = n := by
  induction k generalizing n with
  | zero =>
    have hn : n = 0 := by simpa using h
    rw [hn, bytesLE, ofBytesLE]
  | succ k ih =>
    have hdiv : n / 256 < 256 ^ k := by
      rw [Nat.pow_succ] at h
      omega
    rw [bytesLE, ofBytesLE, ih _ hdiv, UInt8.toNat_ofNat']
    omega

theorem bytesLE_ofBytesLE (bs : List UInt8) : bytesLE bs.length (ofBytesLE bs) = bs := by
  induction bs with
  | nil => rfl
  | cons b bs ih =>
    have hb : b.toNat < 256 := b.toNat_lt
    have hdiv : (b.toNat + 256 * ofBytesLE bs) / 256 = ofBytesLE bs := by omega
    have hlow : UInt8.ofNat (b.toNat + 256 * ofBytesLE bs) = b := by
      apply UInt8.toNat_inj.mp
      rw [UInt8.toNat_ofNat']
      omega
    rw [List.length_cons, ofBytesLE, bytesLE, hdiv, hlow, ih]

theorem bytesBE_ofBytesBE (bs : List UInt8) : bytesBE bs.length (ofBytesBE bs) = bs := by
  have h := bytesLE_ofBytesLE bs.reverse
  rw [List.length_reverse] at h
  rw [bytesBE, ofBytesBE, h, List.reverse_reverse]

theorem ofBytesLE_append (lo hi : List UInt8) :
    ofBytesLE (lo ++ hi) = ofBytesLE lo + 256 ^ lo.length * ofBytesLE hi := by
  induction lo with
  | nil => simp [ofBytesLE]
  | cons b lo ih =>
    rw [List.cons_append, ofBytesLE, ofBytesLE, ih, List.length_cons, Nat.pow_succ]
    ring

/-! ### Halves of a 64-bit word -/

theorem toUInt32_and_mask {x : UInt64} {lo hi : ℕ} (hx : x.toNat = lo + 2 ^ 32 * hi) :
    (x &&& 0xFFFFFFFF).toUInt32 = UInt32.ofNat lo := by
  have hand : (x &&& 0xFFFFFFFF).toNat = x.toNat % 2 ^ 32 := by
    rw [UInt64.toNat_and]
    exact Nat.and_two_pow_sub_one_eq_mod x.toNat 32
  apply UInt32.toNat_inj.mp
  rw [UInt64.toNat_toUInt32, hand, UInt32.toNat_ofNat', hx]
  omega

theorem toUInt32_shiftRight {x : UInt64} {lo hi : ℕ} (hlo : lo < 2 ^ 32)
    (hx : x.toNat = lo + 2 ^ 32 * hi) : (x >>> 32).toUInt32 = UInt32.ofNat hi := by
  have hshift : (x >>> 32).toNat = x.toNat / 2 ^ 32 := by
    rw [UInt64.toNat_shiftRight, Nat.shiftRight_eq_div_pow]
    rfl
  apply UInt32.toNat_inj.mp
  rw [UInt64.toNat_toUInt32, hshift, UInt32.toNat_ofNat', hx]
  omega

theorem toNat_shiftLeft_or (hi lo : UInt32) :
    ((hi.toUInt64 <<< 32) ||| lo.toUInt64).toNat = lo.toNat + 2 ^ 32 * hi.toNat := by
  have hlo := lo.toNat_lt
  have hhi := hi.toNat_lt
  have hwidth : (32 : UInt64).toNat % 64 = 32 := by decide
  have hshift : (hi.toUInt64 <<< 32).toNat = hi.toNat <<< 32 := by
    rw [UInt64.toNat_shiftLeft, UInt32.toNat_toUInt64, hwidth, Nat.shiftLeft_eq]
    omega
  rw [UInt64.toNat_or, hshift, UInt32.toNat_toUInt64, ← Nat.shiftLeft_add_eq_or_of_lt hlo,
    Nat.shiftLeft_eq]
  omega

/-! ### Hosts -/

/-- The order in which a host stores the bytes of a word. -/
inductive Endian where
  | little
  | big
deriving DecidableEq, Repr

/-- The memory of a word of `k` bytes. -/
def Endian.store (e : Endian) (k n : ℕ) : List UInt8 :=
  match e with
  | little => bytesLE k n
  | big => bytesBE k n

/-- The word in memory. -/
def Endian.load (e : Endian) (bs : List UInt8) : ℕ :=
  match e with
  | little => ofBytesLE bs
  | big => ofBytesBE bs

end Norns.Lib
