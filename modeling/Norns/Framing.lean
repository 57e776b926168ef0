import Norns.Response
import Norns.Lib.ByteOrder

/-! # Framing

Messages on the sockets of the daemon are preceded by their length, 64 bits in network order.
`send_message` and `recv_message` are the client's side of it, `message::encode_response` the
daemon's.

`recv_data` calls `read` until it has the bytes it was asked for, and folds everything that can
end the loop into its return value: the caller sees a negative number after an error, and the
number of bytes otherwise, which after an end of file is smaller than the number asked for.
`recv_message` only tests for a negative value.  `client_framing_iff` gives the streams for
which it nevertheless delivers a whole message or fails.  `recvReads_terminates_iff` gives the
results of `read` for which the loop itself ends.

A connection is what its future holds: chunks of bytes and interruptions in the order in which
`read` meets them, and what comes after the last of them.  Loops run on fuel; that a call does not
return means that no fuel is enough. -/

namespace Norns

open Lib

/-! ### Network order -/

/-- `htonl`, and also `ntohl`. -/
def htonl (e : Endian) (x : UInt32) : UInt32 :=
  match e with
  | .little => UInt32.ofNat (ofBytesBE (bytesLE 4 x.toNat))
  | .big => x

/-- `htonll` of `norns-rpc.h`. -/
def htonll (e : Endian) (x : UInt64) : UInt64 :=
  if 1 = htonl e 1 then x
  else ((htonl e (x &&& 0xFFFFFFFF).toUInt32).toUInt64 <<< 32) |||
    (htonl e (x >>> 32).toUInt32).toUInt64

/-- `ntohll`, the same expression. -/
def ntohll (e : Endian) (x : UInt64) : UInt64 := htonll e x

/-- `NORNS_RPC_HEADER_LENGTH`. -/
def NORNS_RPC_HEADER_LENGTH : ℕ := 8

/-- The header of a message of the given length, as its bytes in memory. -/
def header (e : Endian) (length : ℕ) : List UInt8 :=
  e.store NORNS_RPC_HEADER_LENGTH (htonll e (UInt64.ofNat length)).toNat

/-- A message on the wire. -/
def frame (e : Endian) (body : List UInt8) : List UInt8 := header e body.length ++ body

theorem htonl_little_ofBytesLE (bs : List UInt8) (h : bs.length = 4) :
    (htonl .little (UInt32.ofNat (ofBytesLE bs))).toNat = ofBytesBE bs := by
  have hlt := ofBytesLE_lt bs
  have hlt' := ofBytesBE_lt bs
  rw [h] at hlt hlt'
  have hmod : (UInt32.ofNat (ofBytesLE bs)).toNat = ofBytesLE bs := by
    rw [UInt32.toNat_ofNat']
    exact Nat.mod_eq_of_lt hlt
  rw [htonl, hmod, ← h, bytesLE_ofBytesLE, UInt32.toNat_ofNat']
  exact Nat.mod_eq_of_lt hlt'

/-- On a little-endian host `htonll` reverses the eight bytes of a word. -/
theorem htonll_little_ofBytesLE (bs : List UInt8) (h : bs.length = 8) :
    (htonll .little (UInt64.ofNat (ofBytesLE bs))).toNat = ofBytesBE bs := by
  obtain ⟨lo, hi, rfl, hlo, hhi⟩ : ∃ lo hi, bs = lo ++ hi ∧ lo.length = 4 ∧ hi.length = 4 :=
    ⟨bs.take 4, bs.drop 4, (List.take_append_drop 4 bs).symm, by simp [h], by simp [h]⟩
  have hlt := ofBytesLE_lt (lo ++ hi)
  have hltlo := ofBytesLE_lt lo
  have hval := ofBytesLE_append lo hi
  rw [h] at hlt
  rw [hlo] at hltlo hval
  have hx : (UInt64.ofNat (ofBytesLE (lo ++ hi))).toNat = ofBytesLE lo + 2 ^ 32 * ofBytesLE hi := by
    rw [UInt64.toNat_ofNat']
    exact (Nat.mod_eq_of_lt hlt).trans hval
  rw [htonll, if_neg (by decide), toUInt32_and_mask hx, toUInt32_shiftRight hltlo hx,
    toNat_shiftLeft_or, htonl_little_ofBytesLE lo hlo, htonl_little_ofBytesLE hi hhi, ofBytesBE,
    ofBytesBE, ofBytesBE, List.reverse_append, ofBytesLE_append, List.length_reverse, hhi]
  norm_num

@[simp] theorem length_header (e : Endian) (length : ℕ) :
    (header e length).length = NORNS_RPC_HEADER_LENGTH := by
  cases e with
  | little => exact length_bytesLE _ _
  | big => exact length_bytesBE _ _

theorem htonll_big (x : UInt64) : htonll .big x = x := if_pos rfl

/-- The header is the length in big-endian order on every host. -/
theorem header_eq (e : Endian) (length : ℕ) (h : length < 2 ^ 64) :
    header e length = bytesBE NORNS_RPC_HEADER_LENGTH length := by
  have hmod : (UInt64.ofNat length).toNat = length := by
    rw [UInt64.toNat_ofNat', Nat.mod_eq_of_lt h]
  cases e with
  | big => rw [header, htonll_big, hmod, NORNS_RPC_HEADER_LENGTH, Endian.store]
  | little =>
    have hswap := htonll_little_ofBytesLE (bytesLE 8 length) (length_bytesLE 8 length)
    rw [ofBytesLE_bytesLE 8 length h] at hswap
    have hrev := bytesLE_ofBytesLE (bytesBE 8 length)
    rw [length_bytesBE] at hrev
    rw [header, hswap, NORNS_RPC_HEADER_LENGTH, Endian.store]
    exact hrev

/-- What the receiver reads in a header. -/
theorem ntohll_load (e : Endian) (bs : List UInt8) (h : bs.length = 8) :
    (ntohll e (UInt64.ofNat (e.load bs))).toNat = ofBytesBE bs := by
  cases e with
  | big =>
    have hlt := ofBytesBE_lt bs
    rw [h] at hlt
    rw [ntohll, htonll_big, UInt64.toNat_ofNat', Endian.load]
    exact Nat.mod_eq_of_lt hlt
  | little => exact htonll_little_ofBytesLE bs h

/-! ### Writing -/

/-- The results of `write`: a count, an interruption, or another error. -/
inductive WriteEvent where
  | accepted (n : ℕ)
  | interrupted
  | failed (errnum : ErrorCode) (hne : errnum ≠ EINTR)
deriving DecidableEq, Repr

/-- The returned value, the bytes that have been written, and the results still to come. -/
structure SendResult where
  ret : ℤ
  sent : List UInt8
  writes : List WriteEvent
deriving DecidableEq, Repr

/-- `send_data`; `none` if a call of `write` does not return. -/
def sendData (writes : List WriteEvent) (data : List UInt8) : Option SendResult :=
  if data = [] then some ⟨0, [], writes⟩
  else
    match writes with
    | [] => none
    | .accepted n :: writes => do
        let r ← sendData writes (data.drop n)
        return ⟨if r.ret < 0 then -1 else min n data.length + r.ret, data.take n ++ r.sent,
          r.writes⟩
    | .interrupted :: writes => sendData writes data
    | .failed _ _ :: writes => some ⟨-1, [], writes⟩

/-- `send_message`. -/
def sendMessage (e : Endian) (writes : List WriteEvent) (body : List UInt8) : Option SendResult :=
  if body = [] then some ⟨-1, [], writes⟩
  else do
    let head ← sendData writes (header e body.length)
    if head.ret < 0 then some { head with ret := -1 }
    else
      let tail ← sendData head.writes body
      if tail.ret < 0 then some ⟨-1, head.sent ++ tail.sent, tail.writes⟩
      else some ⟨0, head.sent ++ tail.sent, tail.writes⟩

/-- `message::encode_response`: the header and the body that the daemon sends. -/
def encodeResponse (e : Endian) (serialize : ResponseMsg → List UInt8) (resp : Response)
    (buffer : List UInt8) : List UInt8 × List UInt8 :=
  let body := storeToBuffer serialize resp buffer
  (header e body.length, body)

theorem sendData_sent {writes : List WriteEvent} {data : List UInt8} {r : SendResult}
    (h : sendData writes data = some r) (hret : 0 ≤ r.ret) : r.sent = data := by
  induction writes generalizing data r with
  | nil =>
    unfold sendData at h
    split_ifs at h with hnil
    cases h
    exact hnil.symm
  | cons ev writes ih =>
    unfold sendData at h
    split_ifs at h with hnil
    · cases h
      exact hnil.symm
    · cases ev with
      | accepted n =>
        obtain ⟨r', hr', heq⟩ := Option.bind_eq_some_iff.mp h
        cases heq
        have hret' : 0 ≤ r'.ret := by
          by_contra hneg
          simp only [if_pos (not_le.mp hneg)] at hret
          omega
        simp only [ih hr' hret', List.take_append_drop]
      | interrupted => exact ih h hret
      | failed errnum hne =>
        cases h
        simp at hret

/-- What `send_message` has written when it returns zero. -/
theorem sendMessage_sent {e : Endian} {writes : List WriteEvent} {body : List UInt8}
    {r : SendResult} (h : sendMessage e writes body = some r) (hret : r.ret = 0) :
    r.sent = frame e body := by
  unfold sendMessage at h
  split_ifs at h
  · cases h
    cases hret
  · obtain ⟨head, hhead, h⟩ := Option.bind_eq_some_iff.mp h
    split_ifs at h with hneg
    · cases h
      cases hret
    · obtain ⟨tail, htail, h⟩ := Option.bind_eq_some_iff.mp h
      split_ifs at h with hneg'
      · cases h
        cases hret
      · cases h
        simp only [sendData_sent hhead (not_lt.mp hneg), sendData_sent htail (not_lt.mp hneg'),
          frame]

/-! ### Reading -/

/-- What `read` meets: bytes that have arrived, at least one, or a signal. -/
inductive ReadEvent where
  | data (b : UInt8) (bs : List UInt8)
  | interrupted
deriving DecidableEq, Repr

/-- What `read` meets after all events: the end of the stream, an error other than an
interruption, or nothing, so that it blocks. -/
inductive Ending where
  | closed
  | failed (errnum : ErrorCode) (hne : errnum ≠ EINTR)
  | silent
deriving DecidableEq, Repr

/-- A connection, with `errno`. -/
structure Conn where
  errno : ErrorCode
  events : List ReadEvent
  ending : Ending
deriving DecidableEq, Repr

/-- The bytes that will arrive. -/
def ReadEvent.bytes : ReadEvent → List UInt8
  | data b bs => b :: bs
  | interrupted => []

def Conn.bytes (conn : Conn) : List UInt8 := conn.events.flatMap ReadEvent.bytes

/-- The results of `read`: a positive count with the bytes, zero, or -1. -/
inductive ReadResult where
  | got (bs : List UInt8)
  | eof
  | error
deriving DecidableEq, Repr

/-- `read(conn, .., count)` for a positive `count`; `none` if it does not return.  Bytes that do
not fit stay for the next call, and the end of the stream is reported again and again. -/
def Conn.read (conn : Conn) (count : ℕ) : Option (ReadResult × Conn) :=
  match conn.events, conn.ending with
  | .data b bs :: rest, _ =>
      match (b :: bs).drop count with
      | [] => some (.got (b :: bs), { conn with events := rest })
      | b' :: bs' =>
          some (.got ((b :: bs).take count), { conn with events := .data b' bs' :: rest })
  | .interrupted :: rest, _ => some (.error, { conn with errno := EINTR, events := rest })
  | [], .closed => some (.eof, conn)
  | [], .failed errnum _ => some (.error, { conn with errno := errnum })
  | [], .silent => none

/-- The returned value, the bytes that have been stored, and the connection. -/
structure RecvResult where
  ret : ℤ
  data : List UInt8
  conn : Conn
deriving DecidableEq, Repr

/-- The loop of `recv_data`; `data` has been received. -/
def recvLoop (size : ℕ) : ℕ → List UInt8 → Conn → Option RecvResult
  | 0, _, _ => none
  | fuel + 1, data, conn =>
      if data.length < size then
        match conn.read (size - data.length) with
        | none => none
        | some (.got bs, conn) => recvLoop size fuel (data ++ bs) conn
        | some (.eof, conn) =>
            if conn.errno = EINTR then recvLoop size fuel data conn
            else some ⟨data.length, data, conn⟩
        | some (.error, conn) =>
            if conn.errno = EINTR then recvLoop size fuel data conn else some ⟨-1, data, conn⟩
      else some ⟨data.length, data, conn⟩

/-- `recv_data`. -/
def recvData (fuel : ℕ) (conn : Conn) (size : ℕ) : Option RecvResult :=
  recvLoop size fuel [] conn

section recvMessage

variable (e : Endian) (alloc : ℕ → Bool) (junk : ℕ → UInt8)

/-- `xmalloc_nz(size) != NULL`.  No object is larger than `PTRDIFF_MAX`. -/
def xmallocNz (size : ℕ) : Bool := decide (0 < size ∧ size < 2 ^ 63) && alloc size

/-- Memory of `size` bytes after `data` has been stored at its beginning. -/
def overwrite (size : ℕ) (data : List UInt8) : List UInt8 :=
  data ++ (List.range' data.length (size - data.length)).map junk

/-- `recv_message`: the returned value, the buffer, and the connection.  `junk` is what the
allocated memory holds before it is written. -/
def recvMessage (fuel : ℕ) (conn : Conn) : Option (ℤ × List UInt8 × Conn) := do
  let head ← recvData fuel conn NORNS_RPC_HEADER_LENGTH
  if head.ret < 0 then some (-1, [], head.conn)
  else
    -- the prefix has been set to zero
    let word := overwrite (fun _ => 0) NORNS_RPC_HEADER_LENGTH head.data
    let msgSize := (ntohll e (UInt64.ofNat (e.load word))).toNat
    if msgSize = 0 then some (-1, [], head.conn)
    else if !xmallocNz alloc msgSize then some (-1, [], head.conn)
    else
      let body ← recvData fuel head.conn msgSize
      if body.ret < 0 then some (-1, [], body.conn)
      else some (0, overwrite junk msgSize body.data, body.conn)

end recvMessage

/-! ### What the loop receives -/

theorem Conn.bytes_mk (errno : ErrorCode) (events : List ReadEvent) (ending : Ending) :
    (Conn.mk errno events ending).bytes = events.flatMap ReadEvent.bytes := rfl

theorem recvLoop_of_le {size fuel : ℕ} {data : List UInt8} (conn : Conn)
    (h : size ≤ data.length) :
    recvLoop size (fuel + 1) data conn = some ⟨data.length, data, conn⟩ := by
  rw [recvLoop, if_neg (by omega)]

/-- More fuel does not change a result. -/
theorem recvLoop_mono {size fuel : ℕ} {data : List UInt8} {conn : Conn} {r : RecvResult}
    (h : recvLoop size fuel data conn = some r) :
    recvLoop size (fuel + 1) data conn = some r := by
  induction fuel generalizing data conn with
  | zero => cases h
  | succ fuel ih =>
    rw [recvLoop] at h ⊢
    by_cases hlt : data.length < size
    · rw [if_pos hlt] at h ⊢
      cases hread : conn.read (size - data.length) with
      | none =>
        rw [hread] at h
        cases h
      | some p =>
        obtain ⟨res, conn'⟩ := p
        rw [hread] at h
        cases res with
        | got bs => exact ih h
        | eof =>
          simp only at h ⊢
          split_ifs at h ⊢
          · exact ih h
          · exact h
        | error =>
          simp only at h ⊢
          split_ifs at h ⊢
          · exact ih h
          · exact h
    · rw [if_neg hlt] at h ⊢
      exact h

theorem recvLoop_add {size fuel : ℕ} {data : List UInt8} {conn : Conn} {r : RecvResult}
    (h : recvLoop size fuel data conn = some r) (k : ℕ) :
    recvLoop size (fuel + k) data conn = some r := by
  induction k with
  | zero => exact h
  | succ k ih => exact recvLoop_mono ih

section rounds

variable {size fuel : ℕ} {data : List UInt8} {errno : ErrorCode} {rest : List ReadEvent}
  {ending : Ending}

/-- A signal sends the loop round again. -/
theorem recvLoop_interrupted (h : data.length < size) :
    recvLoop size (fuel + 1) data ⟨errno, .interrupted :: rest, ending⟩ =
      recvLoop size fuel data ⟨EINTR, rest, ending⟩ := by
  rw [recvLoop, if_pos h]
  exact if_pos rfl

/-- A chunk that is asked for as a whole is taken off the stream. -/
theorem recvLoop_data {b : UInt8} {bs : List UInt8} (h : data.length < size)
    (hfits : (b :: bs).length ≤ size - data.length) :
    recvLoop size (fuel + 1) data ⟨errno, .data b bs :: rest, ending⟩ =
      recvLoop size fuel (data ++ b :: bs) ⟨errno, rest, ending⟩ := by
  rw [recvLoop, if_pos h, Conn.read]
  simp only [List.drop_eq_nil_of_le hfits]

/-- Of a longer chunk the rest stays. -/
theorem recvLoop_data_rest {b : UInt8} {bs : List UInt8} (h : data.length < size)
    (hlong : size - data.length < (b :: bs).length) :
    ∃ b' bs', (b :: bs).drop (size - data.length) = b' :: bs' ∧
      recvLoop size (fuel + 1) data ⟨errno, .data b bs :: rest, ending⟩ =
        recvLoop size fuel (data ++ (b :: bs).take (size - data.length))
          ⟨errno, .data b' bs' :: rest, ending⟩ := by
  cases hdrop : (b :: bs).drop (size - data.length) with
  | nil =>
    have hlen := congrArg List.length hdrop
    rw [List.length_drop, List.length_nil] at hlen
    omega
  | cons b' bs' =>
    refine ⟨b', bs', rfl, ?_⟩
    rw [recvLoop, if_pos h, Conn.read]
    simp only [hdrop]

end rounds

/-- The loop has received what it was asked for: the first `size` of all bytes. -/
def Received (size : ℕ) (all : List UInt8) (ending : Ending) (bound : ℕ)
    (o : Option RecvResult) : Prop :=
  ∃ conn', o = some ⟨size, all.take size, conn'⟩ ∧ conn'.bytes = all.drop size ∧
    conn'.ending = ending ∧ conn'.events.length ≤ bound

/-- With enough bytes to come, the loop receives what it was asked for. -/
theorem received_recvLoop {size : ℕ} (ending : Ending) (events : List ReadEvent) (fuel : ℕ)
    (data : List UInt8) (errno : ErrorCode) (hle : data.length ≤ size)
    (hsize : size ≤ (data ++ events.flatMap ReadEvent.bytes).length)
    (hfuel : events.length < fuel) :
    Received size (data ++ events.flatMap ReadEvent.bytes) ending events.length
      (recvLoop size fuel data ⟨errno, events, ending⟩) := by
  induction events generalizing fuel data errno with
  | nil =>
    obtain ⟨fuel, rfl⟩ : ∃ k, fuel = k + 1 := ⟨fuel - 1, by omega⟩
    rw [List.flatMap_nil, List.append_nil] at hsize ⊢
    obtain rfl : data.length = size := by omega
    rw [recvLoop_of_le _ (le_refl _)]
    exact ⟨_, by rw [List.take_length], by rw [List.drop_length]; rfl, rfl, le_refl _⟩
  | cons ev rest ih =>
    rw [List.length_cons] at hfuel
    obtain ⟨fuel, rfl⟩ : ∃ k, fuel = k + 2 := ⟨fuel - 2, by omega⟩
    by_cases hlt : data.length < size
    swap
    · obtain rfl : data.length = size := by omega
      rw [recvLoop_of_le _ (le_refl _)]
      exact ⟨_, by rw [List.take_left], by rw [List.drop_left]; rfl, rfl, le_refl _⟩
    cases ev with
    | interrupted =>
      rw [recvLoop_interrupted hlt]
      obtain ⟨conn', hloop, hbytes, hending, hlen⟩ :=
        ih (fuel + 1) data EINTR hle hsize (by omega)
      exact ⟨conn', hloop, hbytes, hending, hlen.trans (Nat.le_succ _)⟩
    | data b bs =>
      rw [List.flatMap_cons, ReadEvent.bytes] at hsize ⊢
      by_cases hfits : (b :: bs).length ≤ size - data.length
      · rw [recvLoop_data hlt hfits]
        rw [← List.append_assoc] at hsize ⊢
        obtain ⟨conn', hloop, hbytes, hending, hlen⟩ :=
          ih (fuel + 1) (data ++ b :: bs) errno (by rw [List.length_append]; omega) hsize (by omega)
        exact ⟨conn', hloop, hbytes, hending, hlen.trans (Nat.le_succ _)⟩
      · obtain ⟨b', bs', hdrop, hloop⟩ := recvLoop_data_rest hlt (not_le.mp hfits)
        have htake : ((b :: bs).take (size - data.length)).length = size - data.length := by
          rw [List.length_take]
          omega
        have hlen : (data ++ (b :: bs).take (size - data.length)).length = size := by
          rw [List.length_append, htake]
          omega
        have hall : data ++ (b :: bs ++ rest.flatMap ReadEvent.bytes) =
            (data ++ (b :: bs).take (size - data.length)) ++
              (b' :: bs' ++ rest.flatMap ReadEvent.bytes) := by
          rw [← hdrop, List.append_assoc, ← List.append_assoc (List.take _ _),
            List.take_append_drop]
        rw [hloop, recvLoop_of_le _ hlen.ge, hall]
        refine ⟨_, by rw [List.take_left' hlen, hlen], ?_, rfl, le_refl _⟩
        rw [List.drop_left' hlen, Conn.bytes_mk, List.flatMap_cons, ReadEvent.bytes]

/-- `errno` after `read` has met the events. -/
def errnoAfter (errno : ErrorCode) (events : List ReadEvent) : ErrorCode :=
  if .interrupted ∈ events then EINTR else errno

/-- With too few bytes to come, the loop reads all of them and comes to the ending. -/
theorem recvLoop_drain {size : ℕ} (ending : Ending) (events : List ReadEvent) (fuel : ℕ)
    (data : List UInt8) (errno : ErrorCode)
    (hsize : (data ++ events.flatMap ReadEvent.bytes).length < size) :
    recvLoop size (fuel + events.length) data ⟨errno, events, ending⟩ =
      recvLoop size fuel (data ++ events.flatMap ReadEvent.bytes)
        ⟨errnoAfter errno events, [], ending⟩ := by
  induction events generalizing data errno with
  | nil => simp [errnoAfter]
  | cons ev rest ih =>
    have hlt : data.length < size := by
      rw [List.length_append] at hsize
      omega
    cases ev with
    | interrupted =>
      have herrno : errnoAfter errno (.interrupted :: rest) = errnoAfter EINTR rest := by
        simp [errnoAfter]
      rw [List.length_cons, ← Nat.add_assoc, recvLoop_interrupted hlt, ih data EINTR hsize, herrno]
      rfl
    | data b bs =>
      have herrno : errnoAfter errno (.data b bs :: rest) = errnoAfter errno rest := by
        simp [errnoAfter]
      rw [List.flatMap_cons, ReadEvent.bytes, ← List.append_assoc] at hsize ⊢
      have hfits : (b :: bs).length ≤ size - data.length := by
        rw [List.length_append, List.length_append] at hsize
        omega
      rw [List.length_cons, ← Nat.add_assoc, recvLoop_data hlt hfits,
        ih (data ++ b :: bs) errno hsize, herrno]

section short

variable {size : ℕ} {conn : Conn}

/-- An end of file in front of the last byte: the loop returns what it has. -/
theorem recvData_closed (hshort : conn.bytes.length < size) (hending : conn.ending = .closed)
    (herrno : errnoAfter conn.errno conn.events ≠ EINTR) (fuel : ℕ)
    (hfuel : conn.events.length < fuel) :
    recvData fuel conn size = some ⟨conn.bytes.length, conn.bytes,
      ⟨errnoAfter conn.errno conn.events, [], .closed⟩⟩ := by
  obtain ⟨errno, events, ending⟩ := conn
  obtain ⟨fuel, rfl⟩ : ∃ k, fuel = k + 1 + events.length := ⟨fuel - 1 - events.length, by
    simp only at hfuel
    omega⟩
  simp only at hending
  subst hending
  rw [recvData, recvLoop_drain .closed events _ [] errno hshort, recvLoop, List.nil_append,
    ← Conn.bytes_mk errno events .closed, if_pos hshort]
  exact if_neg herrno

/-- The loop never returns if it does not do so at the ending. -/
theorem recvData_never (hshort : conn.bytes.length < size)
    (hnever : ∀ k, recvLoop size k conn.bytes
      ⟨errnoAfter conn.errno conn.events, [], conn.ending⟩ = none) (fuel : ℕ) :
    recvData fuel conn size = none := by
  cases hrecv : recvData fuel conn size with
  | none => rfl
  | some r =>
    have hmore := recvLoop_add hrecv conn.events.length
    rw [recvLoop_drain conn.ending conn.events fuel [] conn.errno hshort] at hmore
    exact absurd ((hnever fuel).symm.trans hmore) (by simp)

/-- If `errno` says that a call was interrupted, the end of file is taken for an interruption,
again and again. -/
theorem recvData_spins (hshort : conn.bytes.length < size) (hending : conn.ending = .closed)
    (herrno : errnoAfter conn.errno conn.events = EINTR) (fuel : ℕ) :
    recvData fuel conn size = none := by
  refine recvData_never hshort (fun k => ?_) fuel
  rw [herrno, hending]
  induction k with
  | zero => rfl
  | succ k ih =>
    rw [recvLoop, if_pos hshort]
    exact (if_pos rfl).trans ih

/-- On a silent connection the loop blocks. -/
theorem recvData_blocks (hshort : conn.bytes.length < size) (hending : conn.ending = .silent)
    (fuel : ℕ) : recvData fuel conn size = none := by
  refine recvData_never hshort (fun k => ?_) fuel
  rw [hending]
  cases k with
  | zero => rfl
  | succ k =>
    rw [recvLoop, if_pos hshort]
    rfl

/-- An error in front of the last byte is reported. -/
theorem recvData_failed (hshort : conn.bytes.length < size) {errnum : ErrorCode}
    {hne : errnum ≠ EINTR} (hending : conn.ending = .failed errnum hne) (fuel : ℕ)
    (hfuel : conn.events.length < fuel) :
    ∃ conn', recvData fuel conn size = some ⟨-1, conn.bytes, conn'⟩ := by
  obtain ⟨errno, events, ending⟩ := conn
  obtain ⟨fuel, rfl⟩ : ∃ k, fuel = k + 1 + events.length := ⟨fuel - 1 - events.length, by
    simp only at hfuel
    omega⟩
  simp only at hending
  subst hending
  rw [recvData, recvLoop_drain _ events _ [] errno hshort, recvLoop, List.nil_append,
    ← Conn.bytes_mk errno events (.failed errnum hne), if_pos hshort]
  exact ⟨_, if_neg hne⟩

end short

/-- `recvData` on a stream with enough bytes. -/
theorem received_recvData {size fuel : ℕ} {conn : Conn} (hsize : size ≤ conn.bytes.length)
    (hfuel : conn.events.length < fuel) :
    Received size conn.bytes conn.ending conn.events.length (recvData fuel conn size) :=
  received_recvLoop conn.ending conn.events fuel [] conn.errno (Nat.zero_le _) hsize hfuel

/-! ### Whole messages -/

theorem length_overwrite {junk : ℕ → UInt8} {size : ℕ} {data : List UInt8}
    (h : data.length ≤ size) : (overwrite junk size data).length = size := by
  rw [overwrite, List.length_append, List.length_map, List.length_range']
  omega

theorem overwrite_of_length {junk : ℕ → UInt8} {size : ℕ} {data : List UInt8}
    (h : data.length = size) : overwrite junk size data = data := by
  rw [overwrite, h, Nat.sub_self, List.range'_zero, List.map_nil, List.append_nil]

/-- The length that a stream announces; bytes that are missing from the header count as zero. -/
def announced (bytes : List UInt8) : ℕ :=
  ofBytesBE (overwrite (fun _ => 0) NORNS_RPC_HEADER_LENGTH (bytes.take NORNS_RPC_HEADER_LENGTH))

/-- A stream that does not end inside a message for which memory can be had. -/
def Conn.Whole (alloc : ℕ → Bool) (conn : Conn) : Prop :=
  conn.ending = .closed →
    if NORNS_RPC_HEADER_LENGTH ≤ conn.bytes.length then
      xmallocNz alloc (announced conn.bytes) = true →
        announced conn.bytes ≤ conn.bytes.length - NORNS_RPC_HEADER_LENGTH
    else
      conn.errno ≠ EINTR ∧ .interrupted ∉ conn.events ∧
        xmallocNz alloc (announced conn.bytes) = false

section message

variable {e : Endian} {alloc : ℕ → Bool} {junk : ℕ → UInt8} {fuel : ℕ} {conn : Conn}

theorem lt_of_xmallocNz {size : ℕ} (h : xmallocNz alloc size = true) :
    0 < size ∧ size < 2 ^ 63 := by
  simp only [xmallocNz, Bool.and_eq_true, decide_eq_true_eq] at h
  exact h.1

/-- `recv_message` after its first call of `recv_data`. -/
theorem recvMessage_of_head {head : RecvResult}
    (hhead : recvData fuel conn NORNS_RPC_HEADER_LENGTH = some head) (hret : 0 ≤ head.ret)
    (hdata : head.data = conn.bytes.take NORNS_RPC_HEADER_LENGTH) :
    recvMessage e alloc junk fuel conn =
      if xmallocNz alloc (announced conn.bytes) then
        (recvData fuel head.conn (announced conn.bytes)).bind fun body =>
          if body.ret < 0 then some (-1, [], body.conn)
          else some (0, overwrite junk (announced conn.bytes) body.data, body.conn)
      else some (-1, [], head.conn) := by
  have hlen : (overwrite (fun _ => 0) NORNS_RPC_HEADER_LENGTH head.data).length = 8 := by
    apply length_overwrite
    rw [hdata, List.length_take]
    exact Nat.min_le_left _ _
  have hsize : (ntohll e (UInt64.ofNat (e.load
      (overwrite (fun _ => 0) NORNS_RPC_HEADER_LENGTH head.data)))).toNat =
      announced conn.bytes := by
    rw [ntohll_load e _ hlen, hdata, announced]
  rw [recvMessage, hhead, Option.bind_eq_bind, Option.bind_some, if_neg (not_lt.mpr hret)]
  simp only [hsize]
  by_cases hzero : announced conn.bytes = 0
  · rw [if_pos hzero, hzero, if_neg (by simp [xmallocNz])]
  · rw [if_neg hzero]
    cases hmem : xmallocNz alloc (announced conn.bytes) with
    | false => simp
    | true => rfl

theorem recvMessage_mono {r : ℤ × List UInt8 × Conn}
    (h : recvMessage e alloc junk fuel conn = some r) :
    recvMessage e alloc junk (fuel + 1) conn = some r := by
  unfold recvMessage recvData at h ⊢
  cases hhead : recvLoop NORNS_RPC_HEADER_LENGTH fuel [] conn with
  | none =>
    rw [hhead] at h
    cases h
  | some head =>
    rw [hhead] at h
    rw [recvLoop_mono hhead]
    simp only [Option.bind_eq_bind, Option.bind_some] at h ⊢
    split_ifs at h ⊢
    · exact h
    · exact h
    · exact h
    · cases hbody : recvLoop (ntohll e (UInt64.ofNat (e.load (overwrite (fun _ => 0)
          NORNS_RPC_HEADER_LENGTH head.data)))).toNat fuel [] head.conn with
      | none =>
        rw [hbody] at h
        cases h
      | some body =>
        rw [hbody] at h
        rw [recvLoop_mono hbody]
        exact h

theorem recvMessage_add {r : ℤ × List UInt8 × Conn}
    (h : recvMessage e alloc junk fuel conn = some r) (k : ℕ) :
    recvMessage e alloc junk (fuel + k) conn = some r := by
  induction k with
  | zero => exact h
  | succ k ih => exact recvMessage_mono ih

/-- How a call can end as promised: with a message that was sent as a whole, with an error and no
buffer, or not at all on a silent connection. -/
inductive Proper (e : Endian) (conn : Conn) : Option (ℤ × List UInt8 × Conn) → Prop
  | delivered {body : List UInt8} {conn' : Conn} (h : conn.bytes = frame e body ++ conn'.bytes) :
      Proper e conn (some (0, body, conn'))
  | refused {conn' : Conn} : Proper e conn (some (-1, [], conn'))
  | blocked (h : conn.ending = .silent) : Proper e conn none

/-- How it can end otherwise: with a buffer that is longer than what has arrived, or not at all
after the peer has closed the connection. -/
inductive Broken (conn : Conn) : Option (ℤ × List UInt8 × Conn) → Prop
  | short {buf : List UInt8} {conn' : Conn}
      (h : conn.bytes.length < NORNS_RPC_HEADER_LENGTH + buf.length) :
      Broken conn (some (0, buf, conn'))
  | spins (h : conn.ending = .closed) : Broken conn none

/-- A header that has arrived is that of a message of the announced length. -/
theorem header_announced {bytes : List UInt8} (h : NORNS_RPC_HEADER_LENGTH ≤ bytes.length) :
    header e (announced bytes) = bytes.take NORNS_RPC_HEADER_LENGTH := by
  have hlen : (bytes.take NORNS_RPC_HEADER_LENGTH).length = NORNS_RPC_HEADER_LENGTH := by
    rw [List.length_take]
    exact Nat.min_eq_left h
  have hlt := ofBytesBE_lt (bytes.take NORNS_RPC_HEADER_LENGTH)
  have hbytes := bytesBE_ofBytesBE (bytes.take NORNS_RPC_HEADER_LENGTH)
  rw [hlen] at hlt hbytes
  rw [announced, overwrite_of_length hlen, header_eq e _ hlt, hbytes]

/-- The whole header has arrived. -/
theorem recvMessage_of_header (hlen : NORNS_RPC_HEADER_LENGTH ≤ conn.bytes.length)
    (hfuel : conn.events.length < fuel) :
    if xmallocNz alloc (announced conn.bytes) = true ∧ conn.ending = .closed ∧
        conn.bytes.length - NORNS_RPC_HEADER_LENGTH < announced conn.bytes then
      Broken conn (recvMessage e alloc junk fuel conn)
    else Proper e conn (recvMessage e alloc junk fuel conn) := by
  obtain ⟨conn₁, hhead, hbytes, hending, hevents⟩ := received_recvData hlen hfuel
  rw [recvMessage_of_head hhead (by simp) rfl]
  cases hmem : xmallocNz alloc (announced conn.bytes) with
  | false =>
    rw [if_neg (by simp), if_neg (by simp)]
    exact .refused
  | true =>
    simp only [true_and, if_true]
    have hrest : conn₁.bytes.length = conn.bytes.length - NORNS_RPC_HEADER_LENGTH := by
      rw [hbytes, List.length_drop]
    have hfuel₁ : conn₁.events.length < fuel := hevents.trans_lt hfuel
    by_cases hbody : announced conn.bytes ≤ conn₁.bytes.length
    · rw [if_neg (by omega)]
      obtain ⟨conn₂, hrecv, hbytes₂, -, -⟩ := received_recvData hbody hfuel₁
      have htake : (conn₁.bytes.take (announced conn.bytes)).length = announced conn.bytes := by
        rw [List.length_take]
        exact Nat.min_eq_left hbody
      rw [hrecv, Option.bind_some, if_neg (by simp), overwrite_of_length htake]
      refine .delivered ?_
      rw [frame, htake, header_announced hlen, hbytes₂, List.append_assoc, List.take_append_drop,
        hbytes, List.take_append_drop]
    · have hshort : conn₁.bytes.length < announced conn.bytes := not_le.mp hbody
      cases hend : conn.ending with
      | closed =>
        rw [if_pos ⟨rfl, hrest ▸ hshort⟩]
        have hlen₁ : (overwrite junk (announced conn.bytes) conn₁.bytes).length =
            announced conn.bytes := length_overwrite hshort.le
        by_cases herrno : errnoAfter conn₁.errno conn₁.events = EINTR
        · rw [recvData_spins hshort (hending.trans hend) herrno fuel]
          exact .spins hend
        · rw [recvData_closed hshort (hending.trans hend) herrno fuel hfuel₁, Option.bind_some,
            if_neg (by simp)]
          refine .short ?_
          dsimp only
          omega
      | failed errnum hne =>
        rw [if_neg (by simp)]
        obtain ⟨conn₂, hrecv⟩ := recvData_failed hshort (hending.trans hend) fuel hfuel₁
        rw [hrecv, Option.bind_some, if_pos (by simp)]
        exact .refused
      | silent =>
        rw [if_neg (by simp), recvData_blocks hshort (hending.trans hend) fuel]
        exact .blocked hend

/-- The stream ends inside the header. -/
theorem recvMessage_of_short_header (hlen : conn.bytes.length < NORNS_RPC_HEADER_LENGTH)
    (hfuel : conn.events.length < fuel) :
    if conn.ending = .closed ∧ (errnoAfter conn.errno conn.events = EINTR ∨
        xmallocNz alloc (announced conn.bytes) = true) then
      Broken conn (recvMessage e alloc junk fuel conn)
    else Proper e conn (recvMessage e alloc junk fuel conn) := by
  cases hend : conn.ending with
  | closed =>
    by_cases herrno : errnoAfter conn.errno conn.events = EINTR
    · rw [if_pos ⟨rfl, .inl herrno⟩, recvMessage, recvData_spins hlen hend herrno fuel]
      exact .spins hend
    · rw [recvMessage_of_head (recvData_closed hlen hend herrno fuel hfuel) (by simp)
        (List.take_of_length_le hlen.le).symm]
      cases hmem : xmallocNz alloc (announced conn.bytes) with
      | false =>
        rw [if_neg (by simp [herrno]), if_neg (by simp)]
        exact .refused
      | true =>
        -- the connection is at its end, and the second call returns at once
        have hbody := @recvData_closed (announced conn.bytes)
          ⟨errnoAfter conn.errno conn.events, [], .closed⟩ (lt_of_xmallocNz hmem).1 rfl herrno fuel
          (Nat.zero_lt_of_lt hfuel)
        rw [if_pos ⟨rfl, .inr rfl⟩, if_pos rfl, hbody, Option.bind_some, if_neg (by simp)]
        have hlen₁ : (overwrite junk (announced conn.bytes) []).length = announced conn.bytes :=
          length_overwrite (Nat.zero_le _)
        exact .short (by simp only [Conn.bytes_mk, List.flatMap_nil]; omega)
  | failed errnum hne =>
    rw [if_neg (by simp), recvMessage]
    obtain ⟨conn₁, hrecv⟩ := recvData_failed hlen hend fuel hfuel
    rw [hrecv, Option.bind_eq_bind, Option.bind_some, if_pos (by simp)]
    exact .refused
  | silent =>
    rw [if_neg (by simp), recvMessage, recvData_blocks hlen hend fuel]
    exact .blocked hend

/-- What `recv_message` promises for a connection: zero is returned with a message that was sent
as a whole, anything else is -1 without a buffer, and the call returns unless it has to wait for a
peer that sends nothing. -/
def Framed (e : Endian) (alloc : ℕ → Bool) (junk : ℕ → UInt8) (conn : Conn) : Prop :=
  (∀ fuel rc buf conn', recvMessage e alloc junk fuel conn = some (rc, buf, conn') →
    (rc = 0 ∧ conn.bytes = frame e buf ++ conn'.bytes) ∨ (rc = -1 ∧ buf = [])) ∧
  (conn.ending ≠ .silent → ∃ fuel, (recvMessage e alloc junk fuel conn).isSome)

theorem framed_of_proper
    (h : ∀ fuel, conn.events.length < fuel → Proper e conn (recvMessage e alloc junk fuel conn)) :
    Framed e alloc junk conn := by
  refine ⟨fun fuel rc buf conn' hrecv => ?_, fun hending => ⟨conn.events.length + 1, ?_⟩⟩
  · have hproper := h (fuel + (conn.events.length + 1)) (by omega)
    rw [recvMessage_add hrecv] at hproper
    cases hproper with
    | delivered hbytes => exact .inl ⟨rfl, hbytes⟩
    | refused => exact .inr ⟨rfl, rfl⟩
  · have hproper := h (conn.events.length + 1) (by omega)
    cases hrecv : recvMessage e alloc junk (conn.events.length + 1) conn with
    | some r => rfl
    | none =>
      rw [hrecv] at hproper
      cases hproper with
      | blocked hsilent => exact absurd hsilent hending

theorem not_framed_of_broken
    (h : ∀ fuel, conn.events.length < fuel → Broken conn (recvMessage e alloc junk fuel conn)) :
    ¬ Framed e alloc junk conn := by
  rintro ⟨hret, hterm⟩
  -- a result is too long a buffer, whatever the fuel
  have hshort : ∀ fuel r, conn.events.length < fuel →
      recvMessage e alloc junk fuel conn ≠ some r := by
    intro fuel r hfuel hrecv
    have hbroken := h fuel hfuel
    rw [hrecv] at hbroken
    cases hbroken with
    | short hlen =>
      obtain ⟨-, hbytes⟩ | ⟨hrc, -⟩ := hret _ _ _ _ hrecv
      · have hlen' := congrArg List.length hbytes
        rw [List.length_append, frame, List.length_append, length_header] at hlen'
        omega
      · cases hrc
  have hbroken := h (conn.events.length + 1) (by omega)
  cases hrecv : recvMessage e alloc junk (conn.events.length + 1) conn with
  | some r => exact hshort _ r (by omega) hrecv
  | none =>
    rw [hrecv] at hbroken
    cases hbroken with
    | spins hclosed =>
      obtain ⟨fuel, hsome⟩ := hterm (by simp [hclosed])
      obtain ⟨r, hr⟩ := Option.isSome_iff_exists.mp hsome
      exact hshort (fuel + (conn.events.length + 1)) r (by omega) (recvMessage_add hr _)

theorem errnoAfter_eq_EINTR {errno : ErrorCode} {events : List ReadEvent} :
    errnoAfter errno events = EINTR ↔ errno = EINTR ∨ .interrupted ∈ events := by
  unfold errnoAfter
  split_ifs with hmem
  · exact ⟨fun _ => .inr hmem, fun _ => rfl⟩
  · exact ⟨.inl, fun h => h.resolve_right hmem⟩

theorem framed_iff_whole : Framed e alloc junk conn ↔ conn.Whole alloc := by
  unfold Conn.Whole
  by_cases hlen : NORNS_RPC_HEADER_LENGTH ≤ conn.bytes.length
  · rw [if_pos hlen]
    have hcases := fun fuel => @recvMessage_of_header e alloc junk fuel conn hlen
    split_ifs at hcases with hbroken
    · refine iff_of_false (not_framed_of_broken hcases) fun hwhole => ?_
      exact absurd (hwhole hbroken.2.1 hbroken.1) (not_le.mpr hbroken.2.2)
    · refine iff_of_true (framed_of_proper hcases) fun hclosed hmem => ?_
      exact not_lt.mp fun hlt => hbroken ⟨hmem, hclosed, hlt⟩
  · rw [if_neg hlen]
    have hcases := fun fuel => @recvMessage_of_short_header e alloc junk fuel conn (not_le.mp hlen)
    split_ifs at hcases with hbroken
    · refine iff_of_false (not_framed_of_broken hcases) fun hwhole => ?_
      obtain ⟨herrno, hevents, hmem⟩ := hwhole hbroken.1
      obtain h | h := hbroken.2
      · exact (errnoAfter_eq_EINTR.mp h).elim herrno hevents
      · exact absurd (hmem.symm.trans h) (by simp)
    · refine iff_of_true (framed_of_proper hcases) fun hclosed => ?_
      have herrno : errnoAfter conn.errno conn.events ≠ EINTR :=
        fun h => hbroken ⟨hclosed, .inl h⟩
      have hmem : ¬ xmallocNz alloc (announced conn.bytes) = true :=
        fun h => hbroken ⟨hclosed, .inr h⟩
      rw [Ne, errnoAfter_eq_EINTR, not_or] at herrno
      exact ⟨herrno.1, herrno.2, by simpa using hmem⟩

/-- A message that has arrived as a whole is delivered. -/
theorem recvMessage_frame {body rest : List UInt8} (hbytes : conn.bytes = frame e body ++ rest)
    (hmem : xmallocNz alloc body.length = true) :
    ∃ fuel conn', recvMessage e alloc junk fuel conn = some (0, body, conn') ∧
      conn'.bytes = rest := by
  have hlt := lt_of_xmallocNz hmem
  have hheader : conn.bytes.take NORNS_RPC_HEADER_LENGTH = header e body.length := by
    rw [hbytes, frame, List.append_assoc, List.take_left' (length_header e _)]
  have hdrop : conn.bytes.drop NORNS_RPC_HEADER_LENGTH = body ++ rest := by
    rw [hbytes, frame, List.append_assoc, List.drop_left' (length_header e _)]
  have hannounced : announced conn.bytes = body.length := by
    rw [announced, hheader, overwrite_of_length (length_header e _), header_eq e _ (by omega),
      ofBytesBE, bytesBE, List.reverse_reverse, ofBytesLE_bytesLE _ _ (hlt.2.trans (by decide))]
  have hlen : NORNS_RPC_HEADER_LENGTH ≤ conn.bytes.length := by
    rw [hbytes, List.length_append, frame, List.length_append, length_header]
    omega
  obtain ⟨conn₁, hhead, hbytes₁, -, hevents⟩ := received_recvData hlen (Nat.lt_succ_self _)
  have hbody : body.length ≤ conn₁.bytes.length := by
    rw [hbytes₁, hdrop, List.length_append]
    omega
  obtain ⟨conn₂, hrecv, hbytes₂, -, -⟩ := received_recvData hbody (Nat.lt_succ_of_le hevents)
  refine ⟨conn.events.length + 1, conn₂, ?_, ?_⟩
  · rw [recvMessage_of_head hhead (by simp) rfl, hannounced, if_pos hmem, hrecv, Option.bind_some,
      if_neg (by simp)]
    simp only [hbytes₁, hdrop, List.take_left]
    rw [overwrite_of_length rfl]
  · rw [hbytes₂, hbytes₁, hdrop, List.drop_left]

end message

/-- **Client framing.**  `recv_message` keeps its promise exactly on the streams that do not end
inside a message.  It delivers a message that arrives as a whole, and both senders of the
repository write such messages. -/
theorem client_framing_iff (e : Endian) (alloc : ℕ → Bool) (junk : ℕ → UInt8) (conn : Conn) :
    (Framed e alloc junk conn ↔ conn.Whole alloc) ∧
    (∀ body rest, conn.bytes = frame e body ++ rest → xmallocNz alloc body.length = true →
      ∃ fuel conn', recvMessage e alloc junk fuel conn = some (0, body, conn') ∧
        conn'.bytes = rest) ∧
    (∀ writes body r, sendMessage e writes body = some r → r.ret = 0 → r.sent = frame e body) ∧
    (∀ serialize resp buffer, (encodeResponse e serialize resp buffer).1 ++
      (encodeResponse e serialize resp buffer).2 =
        frame e (storeToBuffer serialize resp buffer)) :=
  ⟨framed_iff_whole, fun _ _ => recvMessage_frame, fun _ _ _ => sendMessage_sent,
    fun _ _ _ => rfl⟩

/-- The peer announces two bytes, sends one and closes the connection: the call returns zero, and
the second byte is whatever the memory held. -/
theorem closed_inside_body :
    ∃ conn : Conn, conn = ⟨0, [.data 0 [0, 0, 0, 0, 0, 0, 2, 7]], .closed⟩ ∧
      (recvMessage .little (fun _ => true) (fun _ => 0xAA) 3 conn).map (fun r => (r.1, r.2.1)) =
        some (0, [7, 0xAA]) ∧
      ¬ Framed .little (fun _ => true) (fun _ => 0xAA) conn := by
  refine ⟨_, rfl, by decide, fun hframed => ?_⟩
  exact absurd (framed_iff_whole.mp hframed rfl) (by decide)

/-! ### Sequences of results

The loop again, with the results of `read` as an arbitrary sequence. -/

/-- A result of `read`: one byte and `n` more, as far as they were asked for, the end of the file,
or an error. -/
inductive ReadOutcome where
  | data (n : ℕ)
  | eof
  | error (errnum : ErrorCode)
deriving DecidableEq, Repr

/-- `recv_data` on a sequence of results; `brecvd` bytes have been received. -/
def recvReads (size : ℕ) : ℕ → (ℕ → ReadOutcome) → ErrorCode → ℕ → Option ℤ
  | 0, _, _, _ => none
  | fuel + 1, reads, errno, brecvd =>
      if brecvd < size then
        match reads 0 with
        | .data n =>
            recvReads size fuel (fun i => reads (i + 1)) errno
              (brecvd + min (n + 1) (size - brecvd))
        -- `errno` is what some earlier call has left
        | .eof =>
            if errno = EINTR then recvReads size fuel (fun i => reads (i + 1)) errno brecvd
            else some (brecvd : ℤ)
        | .error errnum =>
            if errnum = EINTR then recvReads size fuel (fun i => reads (i + 1)) errnum brecvd
            else some (-1)
      else some (brecvd : ℤ)

/-- The bytes that a result brings. -/
def ReadOutcome.count : ReadOutcome → ℕ
  | data n => n + 1
  | _ => 0

/-- The bytes that the first results bring. -/
def bytesBefore (reads : ℕ → ReadOutcome) : ℕ → ℕ
  | 0 => 0
  | k + 1 => bytesBefore reads k + (reads k).count

/-- `errno` after the first results. -/
def errnoBefore (errno : ErrorCode) (reads : ℕ → ReadOutcome) : ℕ → ErrorCode
  | 0 => errno
  | k + 1 =>
      match reads k with
      | .error errnum => errnum
      | _ => errnoBefore errno reads k

/-- Results that neither end the loop nor are the end of the file. -/
def ReadOutcome.GoesOn : ReadOutcome → Prop
  | data _ => True
  | eof => False
  | error errnum => errnum = EINTR

/-- An end of file before all bytes have arrived, with an `errno` that says that a call was
interrupted: the caller's, or that of an earlier `read`. -/
def StaleEof (size : ℕ) (errno : ErrorCode) (reads : ℕ → ReadOutcome) : Prop :=
  ∃ i, reads i = .eof ∧ (∀ j < i, (reads j).GoesOn) ∧ bytesBefore reads i < size ∧
    (errno = EINTR ∨ ∃ j < i, reads j = .error EINTR)

section

variable {size : ℕ} {errno : ErrorCode} {reads : ℕ → ReadOutcome}

theorem recvReads_of_le {fuel brecvd : ℕ} (h : size ≤ brecvd) :
    recvReads size (fuel + 1) reads errno brecvd = some (brecvd : ℤ) := by
  rw [recvReads, if_neg (by omega)]

theorem recvReads_mono {fuel brecvd : ℕ} {r : ℤ}
    (h : recvReads size fuel reads errno brecvd = some r) :
    recvReads size (fuel + 1) reads errno brecvd = some r := by
  induction fuel generalizing reads errno brecvd with
  | zero => cases h
  | succ fuel ih =>
    rw [recvReads] at h ⊢
    by_cases hlt : brecvd < size
    · rw [if_pos hlt] at h ⊢
      cases hread : reads 0 with
      | data n =>
        rw [hread] at h
        exact ih h
      | eof =>
        rw [hread] at h
        dsimp only at h ⊢
        split_ifs at h ⊢
        · exact ih h
        · exact h
      | error errnum =>
        rw [hread] at h
        dsimp only at h ⊢
        split_ifs at h ⊢
        · exact ih h
        · exact h
    · rw [if_neg hlt] at h ⊢
      exact h

theorem recvReads_add {fuel brecvd : ℕ} {r : ℤ}
    (h : recvReads size fuel reads errno brecvd = some r) (k : ℕ) :
    recvReads size (fuel + k) reads errno brecvd = some r := by
  induction k with
  | zero => exact h
  | succ k ih => exact recvReads_mono ih

/-- The loop is past the first `k` results. -/
theorem recvReads_pass (fuel k : ℕ) (hgo : ∀ j < k, (reads j).GoesOn)
    (hbytes : bytesBefore reads k < size) :
    recvReads size (fuel + k) reads errno 0 =
      recvReads size fuel (fun i => reads (i + k)) (errnoBefore errno reads k)
        (bytesBefore reads k) := by
  induction k generalizing fuel with
  | zero => rfl
  | succ k ih =>
    have hbytes' : bytesBefore reads k + (reads k).count < size := hbytes
    rw [show fuel + (k + 1) = fuel + 1 + k by omega,
      ih (fuel + 1) (fun j hj => hgo j (by omega)) (by omega), recvReads, if_pos (by omega),
      Nat.zero_add, bytesBefore, errnoBefore]
    have hshift : (fun i => reads (i + 1 + k)) = fun i => reads (i + (k + 1)) := by
      funext i
      rw [show i + 1 + k = i + (k + 1) by omega]
    have hgo' := hgo k (by omega)
    cases hread : reads k with
    | data n =>
      rw [hread, ReadOutcome.count] at hbytes'
      dsimp only [ReadOutcome.count]
      rw [hshift, Nat.min_eq_left (by omega)]
    | eof =>
      rw [hread] at hgo'
      exact hgo'.elim
    | error errnum =>
      rw [hread] at hgo'
      obtain rfl : errnum = EINTR := hgo'
      dsimp only [ReadOutcome.count]
      rw [if_pos rfl, hshift]
      rfl

theorem errnoBefore_eq_iff (k : ℕ) (hgo : ∀ j < k, (reads j).GoesOn) :
    errnoBefore errno reads k = EINTR ↔ errno = EINTR ∨ ∃ j < k, reads j = .error EINTR := by
  induction k with
  | zero => simp [errnoBefore]
  | succ k ih =>
    have ih' := ih fun j hj => hgo j (by omega)
    have hgo' := hgo k (by omega)
    rw [errnoBefore]
    simp only [Nat.lt_succ_iff_lt_or_eq, or_and_right, exists_or, exists_eq_left]
    cases hread : reads k with
    | data n => simp [ih']
    | eof =>
      rw [hread] at hgo'
      exact hgo'.elim
    | error errnum =>
      rw [hread] at hgo'
      obtain rfl : errnum = EINTR := hgo'
      simp

/-- After a stale end of file the loop does not end. -/
theorem recvReads_eof_spins {brecvd : ℕ} (hlt : brecvd < size) (heof : ∀ i, reads i = .eof)
    (fuel : ℕ) : recvReads size fuel reads EINTR brecvd = none := by
  induction fuel generalizing reads with
  | zero => rfl
  | succ fuel ih =>
    rw [recvReads, if_pos hlt, heof 0]
    exact (if_pos rfl).trans (ih fun i => heof (i + 1))

theorem le_bytesBefore {n : ℕ} (h : ∀ i, n ≤ i → ∃ m, reads i = .data m) (k : ℕ) :
    k ≤ bytesBefore reads (n + k) := by
  induction k with
  | zero => exact Nat.zero_le _
  | succ k ih =>
    obtain ⟨m, hm⟩ := h (n + k) (by omega)
    rw [← Nat.add_assoc, bytesBefore, hm, ReadOutcome.count]
    omega

/-- A result at which the loop ends, or would if it got there. -/
theorem exists_last (hintr : ∃ n, ∀ i, n ≤ i → reads i ≠ .error EINTR) :
    ∃ k, ¬ (reads k).GoesOn ∨ size ≤ bytesBefore reads (k + 1) := by
  obtain ⟨n, hn⟩ := hintr
  by_contra hnever
  simp only [not_exists, not_or, not_not, not_le] at hnever
  have hdata : ∀ i, n ≤ i → ∃ m, reads i = .data m := by
    intro i hi
    have hgo := (hnever i).1
    cases hread : reads i with
    | data m => exact ⟨m, rfl⟩
    | eof =>
      rw [hread] at hgo
      exact hgo.elim
    | error errnum =>
      rw [hread] at hgo
      obtain rfl : errnum = EINTR := hgo
      exact absurd hread (hn i hi)
  have hle := le_bytesBefore hdata (size + 1)
  have hlt := (hnever (n + size)).2
  rw [Nat.add_assoc] at hlt
  omega

end

/-- The loop on a connection that does not fall silent is the loop on the results that the
connection gives. -/
theorem recvLoop_reads (size : ℕ) {ending : Ending} (hending : ending ≠ .silent)
    (events : List ReadEvent) (errno : ErrorCode) (data : List UInt8) :
    ∃ reads, ∀ fuel, (recvLoop size fuel data ⟨errno, events, ending⟩).map RecvResult.ret =
      recvReads size fuel reads errno data.length := by
  induction events generalizing errno data with
  | nil =>
    cases ending with
    | closed =>
      refine ⟨fun _ => .eof, fun fuel => ?_⟩
      induction fuel with
      | zero => rfl
      | succ fuel ih =>
        rw [recvLoop, recvReads]
        split_ifs with hlt herrno
        · exact (congrArg _ (if_pos herrno)).trans ih
        · exact congrArg _ (if_neg herrno)
        · rfl
    | failed errnum hne =>
      refine ⟨fun _ => .error errnum, fun fuel => ?_⟩
      cases fuel with
      | zero => rfl
      | succ fuel =>
        rw [recvLoop, recvReads]
        by_cases hlt : data.length < size
        · rw [if_pos hlt, if_pos hlt]
          exact (congrArg _ (if_neg hne)).trans (if_neg hne).symm
        · rw [if_neg hlt, if_neg hlt]
          rfl
    | silent => exact absurd rfl hending
  | cons ev rest ih =>
    by_cases hlt : data.length < size
    swap
    · refine ⟨fun _ => .eof, fun fuel => ?_⟩
      cases fuel with
      | zero => rfl
      | succ fuel =>
        rw [recvLoop_of_le _ (not_lt.mp hlt), recvReads_of_le (not_lt.mp hlt)]
        rfl
    cases ev with
    | interrupted =>
      obtain ⟨reads, hreads⟩ := ih EINTR data
      refine ⟨fun i => i.casesOn (.error EINTR) reads, fun fuel => ?_⟩
      cases fuel with
      | zero => rfl
      | succ fuel =>
        rw [recvLoop_interrupted hlt, hreads, recvReads, if_pos hlt]
        exact (if_pos rfl).symm
    | data b bs =>
      by_cases hfits : (b :: bs).length ≤ size - data.length
      · obtain ⟨reads, hreads⟩ := ih errno (data ++ b :: bs)
        refine ⟨fun i => i.casesOn (.data bs.length) reads, fun fuel => ?_⟩
        cases fuel with
        | zero => rfl
        | succ fuel =>
          rw [recvLoop_data hlt hfits, hreads, recvReads, if_pos hlt, List.length_append]
          exact congrArg _ (congrArg _ (Nat.min_eq_left hfits).symm)
      · refine ⟨fun _ => .data bs.length, fun fuel => ?_⟩
        rw [not_le] at hfits
        have hlen : (data ++ (b :: bs).take (size - data.length)).length = size := by
          rw [List.length_append, List.length_take]
          omega
        have hmin : data.length + min (bs.length + 1) (size - data.length) = size := by
          rw [List.length_cons] at hfits
          omega
        match fuel with
        | 0 => rfl
        | fuel + 1 =>
          obtain ⟨b', bs', -, hloop⟩ : ∃ b' bs', (b :: bs).drop (size - data.length) = b' :: bs' ∧
              recvLoop size (fuel + 1) data ⟨errno, .data b bs :: rest, ending⟩ =
                recvLoop size fuel (data ++ (b :: bs).take (size - data.length))
                  ⟨errno, .data b' bs' :: rest, ending⟩ := recvLoop_data_rest hlt hfits
          rw [hloop, recvReads, if_pos hlt]
          dsimp only
          rw [hmin]
          cases fuel with
          | zero => rfl
          | succ fuel =>
            rw [recvLoop_of_le _ hlen.ge, recvReads_of_le (le_refl _), hlen]
            rfl

/-- **Termination of `recv_data`**: on every sequence of results in which the end of the file lasts
and interruptions do not, the loop ends exactly if no end of file meets an `errno` that says
`EINTR`. -/
theorem recvReads_terminates_iff (size : ℕ) (errno : ErrorCode) (reads : ℕ → ReadOutcome)
    (heof : ∀ i j, i ≤ j → reads i = .eof → reads j = .eof)
    (hintr : ∃ n, ∀ i, n ≤ i → reads i ≠ .error EINTR) :
    (∃ fuel r, recvReads size fuel reads errno 0 = some r) ↔ ¬ StaleEof size errno reads := by
  classical
  constructor
  · rintro ⟨fuel, r, hr⟩ ⟨i, hi, hgo, hbytes, hstale⟩
    have hpass : recvReads size (fuel + i) reads errno 0 =
        recvReads size fuel (fun j => reads (j + i)) (errnoBefore errno reads i)
          (bytesBefore reads i) := recvReads_pass fuel i hgo hbytes
    rw [recvReads_add hr i, (errnoBefore_eq_iff i hgo).mpr hstale,
      recvReads_eof_spins hbytes fun j => heof i (j + i) (by omega) hi] at hpass
    cases hpass
  · intro hfresh
    by_cases hsize : size = 0
    · exact ⟨1, 0, by rw [recvReads, if_neg (by omega)]; rfl⟩
    -- the first result at which the loop ends
    have hlast : ∃ k, ¬ (reads k).GoesOn ∨ size ≤ bytesBefore reads (k + 1) := exists_last hintr
    obtain ⟨k, hk, hfirst⟩ : ∃ k, (¬ (reads k).GoesOn ∨ size ≤ bytesBefore reads (k + 1)) ∧
        ∀ j < k, (reads j).GoesOn ∧ bytesBefore reads (j + 1) < size := by
      refine ⟨Nat.find hlast, Nat.find_spec hlast, fun j hj => ?_⟩
      have hnot := Nat.find_min hlast hj
      rw [not_or, not_not, not_le] at hnot
      exact hnot
    have hgo : ∀ j < k, (reads j).GoesOn := fun j hj => (hfirst j hj).1
    have hbytes : bytesBefore reads k < size := by
      cases k with
      | zero => exact Nat.pos_of_ne_zero hsize
      | succ k => exact (hfirst k (by omega)).2
    refine ⟨2 + k, ?_⟩
    rw [recvReads_pass 2 k hgo hbytes, recvReads, if_pos hbytes, Nat.zero_add]
    cases hread : reads k with
    | data n =>
      have hall : size ≤ bytesBefore reads k + (n + 1) := by
        rw [hread, bytesBefore, hread] at hk
        exact hk.resolve_left fun h => h trivial
      exact ⟨_, recvReads_of_le (by omega)⟩
    | eof =>
      have hne : errnoBefore errno reads k ≠ EINTR := by
        intro h
        exact hfresh ⟨k, hread, hgo, hbytes, (errnoBefore_eq_iff k hgo).mp h⟩
      exact ⟨_, if_neg hne⟩
    | error errnum =>
      have hne : errnum ≠ EINTR := by
        intro h
        rw [hread, bytesBefore, hread] at hk
        obtain hgo' | hle := hk
        · exact hgo' h
        · exact absurd hbytes (not_lt.mpr hle)
      exact ⟨_, if_neg hne⟩

/-- The peer closes the connection at once, and `errno` is zero. -/
theorem closed_connection_ends :
    (∃ fuel r, recvReads 8 fuel (fun _ => .eof) 0 0 = some r) ∧
    ¬ StaleEof 8 0 fun _ => .eof := by
  have hfresh : ¬ StaleEof 8 0 fun _ => .eof := by
    rintro ⟨i, -, -, -, h | ⟨j, -, hj⟩⟩
    · exact absurd h (by decide)
    · cases hj
  exact ⟨(recvReads_terminates_iff 8 0 (fun _ => .eof) (fun _ _ _ h => h)
    ⟨0, fun _ _ h => by cases h⟩).mpr hfresh, hfresh⟩

/-- The same with the `errno` of a call that was interrupted before: the loop does not end. -/
theorem stale_errno_spins :
    (∀ i j : ℕ, i ≤ j → (fun _ => ReadOutcome.eof) i = .eof → (fun _ => ReadOutcome.eof) j = .eof) ∧
    (∃ n : ℕ, ∀ i, n ≤ i → (fun _ : ℕ => ReadOutcome.eof) i ≠ .error EINTR) ∧
    ¬ ∃ fuel r, recvReads 8 fuel (fun _ => .eof) EINTR 0 = some r := by
  refine ⟨fun _ _ _ h => h, ⟨0, fun _ _ h => by cases h⟩, ?_⟩
  rintro ⟨fuel, r, hr⟩
  rw [recvReads_eof_spins (by decide) (fun _ => rfl)] at hr
  cases hr

end Norns
