import Mathlib.Data.List.Basic
import Mathlib.Data.Nat.Basic
import Mathlib.Tactic.Common

/-!
# Errors and the byte stream below the framer

`Error` is the error type of the crate. The transport is a pair of a reader and a writer whose behaviour the environment
chooses: a reader is the list of the reads it will serve, a writer is the list of the answers its calls will give.
-/

namespace DarkbioWire

/-- The kinds of `std::io::Error` the code can meet; only `Interrupted` is told apart, by `write_all`. -/
inductive IoError
  | interrupted
  | writeZero
  | other (message : String)
  deriving DecidableEq, Repr

/-- `darkbio_cobs::DecodeError`. The wire names only `EmptyInput`. -/
inductive DecodeError
  | emptyInput
  | invalid (message : String)
  deriving DecidableEq, Repr

/-- Things that can go wrong in the wire transport. -/
inductive Error
  | packetTooLarge (size : Nat)
  | packetEncodingFailed (err : String)
  | packetDecodingFailed (err : String)
  | frameTooLarge (size : Nat)
  | frameEncodingFailed (err : String)
  | frameDecodingFailed (err : DecodeError)
  | sendFailed (err : IoError)
  | recvFailed (err : IoError)
  | terminated
  | invalidAttestation
  | handshakeFailed (message : String)
  | encryptionFailed (message : String)
  deriving DecidableEq, Repr

/-- The bytes of a buffer from `lo` up to `hi`. -/
def slice (buffer : List UInt8) (lo hi : Nat) : List UInt8 := (buffer.take hi).drop lo

/-- The same slice as the source takes it, which panics out of bounds. -/
def slice? (buffer : List UInt8) (lo hi : Nat) : Option (List UInt8) :=
  if lo ≤ hi ∧ hi ≤ buffer.length then some (slice buffer lo hi) else none

/-- A buffer with `bytes` written over it from index `start` on. -/
def overwrite (buffer : List UInt8) (start : Nat) (bytes : List UInt8) : List UInt8 :=
  buffer.take start ++ bytes ++ buffer.drop (start + bytes.length)

theorem slice?_eq_some {buffer : List UInt8} {lo hi : Nat} (hle : lo ≤ hi) (hlen : hi ≤ buffer.length) :
    slice? buffer lo hi = some (slice buffer lo hi) := if_pos ⟨hle, hlen⟩

theorem length_slice {buffer : List UInt8} {lo hi : Nat} (hlen : hi ≤ buffer.length) :
    (slice buffer lo hi).length = hi - lo := by
  rw [slice, List.length_drop, List.length_take, Nat.min_eq_left hlen]

@[simp] theorem slice_self (buffer : List UInt8) (lo : Nat) : slice buffer lo lo = [] := by
  rw [slice, List.drop_eq_nil_iff]
  exact List.length_take_le lo buffer

theorem slice_append {buffer : List UInt8} {lo mid hi : Nat} (hlo : lo ≤ mid) (hhi : mid ≤ hi) :
    slice buffer lo mid ++ slice buffer mid hi = slice buffer lo hi := by
  have hmid : (buffer.take hi).take mid = buffer.take mid := by
    rw [List.take_take, Nat.min_eq_left hhi]
  rw [slice, slice, slice, ← hmid, List.drop_take]
  have hsplit := List.take_append_drop (mid - lo) ((buffer.take hi).drop lo)
  rwa [List.drop_drop, Nat.add_sub_cancel' hlo] at hsplit

theorem length_overwrite {buffer bytes : List UInt8} {start : Nat} (hfit : start + bytes.length ≤ buffer.length) :
    (overwrite buffer start bytes).length = buffer.length := by
  simp only [overwrite, List.length_append, List.length_take, List.length_drop]
  omega

theorem slice_overwrite_before {buffer bytes : List UInt8} {start lo : Nat} (hstart : start ≤ buffer.length) :
    slice (overwrite buffer start bytes) lo start = slice buffer lo start := by
  rw [slice, slice, overwrite, List.append_assoc, List.take_append_of_le_length (by simp [hstart]), List.take_take,
    Nat.min_self]

theorem slice_overwrite_at {buffer bytes : List UInt8} {start : Nat} (hstart : start ≤ buffer.length) :
    slice (overwrite buffer start bytes) start (start + bytes.length) = bytes := by
  have hlen : (buffer.take start).length = start := List.length_take_of_le hstart
  have htake : (overwrite buffer start bytes).take (start + bytes.length) = buffer.take start ++ bytes := by
    rw [overwrite]
    exact List.take_left' (by rw [List.length_append, hlen])
  rw [slice, htake]
  exact List.drop_left' hlen

/-! ### The reader -/

/-- One read the transport will serve: bytes that are waiting, none of them being the end of the stream, or a failure.
-/
inductive ReadEvent
  | data (bytes : List UInt8)
  | fail (err : IoError)
  deriving DecidableEq, Repr

/-- A reader is what it will serve from now on. With nothing left to serve a read blocks. -/
abbrev Reader := List ReadEvent

/-- Outcome of one `Read::read`. -/
inductive ReadResult
  | ok (bytes : List UInt8)
  | failed (err : IoError)
  | blocked
  deriving DecidableEq, Repr

namespace Reader

/-- `Read::read` into a buffer of `room` bytes. Bytes that do not fit wait for the next read. -/
def read (room : Nat) : Reader → ReadResult × Reader
  | [] => (.blocked, [])
  | .fail err :: reader => (.failed err, reader)
  | .data bytes :: reader =>
      if bytes.length ≤ room then (.ok bytes, reader) else (.ok (bytes.take room), .data (bytes.drop room) :: reader)

/-- The bytes that arrive before the reads fail, end or block. -/
def bytes : Reader → List UInt8
  | .data (b :: bs) :: reader => b :: bs ++ bytes reader
  | _ => []

/-- What the reader serves once those bytes are gone. -/
def stop : Reader → Reader
  | .data (_ :: _) :: reader => stop reader
  | reader => reader

@[simp] theorem bytes_nil : bytes [] = [] := rfl
@[simp] theorem stop_nil : stop [] = [] := rfl

theorem stopped {reader : Reader} (hne : ∀ b bs rest, reader = .data (b :: bs) :: rest → False) :
    bytes reader = [] ∧ stop reader = reader := by
  rcases reader with _ | ⟨served | err, rest⟩
  · exact ⟨rfl, rfl⟩
  · cases served with
    | nil => exact ⟨rfl, rfl⟩
    | cons b bs => exact absurd rfl (hne b bs rest)
  · exact ⟨rfl, rfl⟩

theorem bytes_stop (reader : Reader) : bytes (stop reader) = [] := by
  induction reader using stop.induct with
  | case1 b bs reader ih => simpa [stop] using ih
  | case2 reader hne =>
      rw [(stopped hne).2]
      exact (stopped hne).1

/-- The read that serves these bytes. A read of no bytes would be the end of the stream, so no bytes are no read. -/
def chunk (served : List UInt8) : Reader := if served = [] then [] else [.data served]

@[simp] theorem bytes_chunk (served : List UInt8) : bytes (chunk served) = served := by
  cases served with
  | nil => rfl
  | cons b bs => simp [chunk, bytes]

@[simp] theorem stop_chunk (served : List UInt8) : stop (chunk served) = [] := by
  cases served <;> rfl

theorem bytes_append {reader : Reader} (h : stop reader = []) (more : Reader) :
    bytes (reader ++ more) = bytes reader ++ bytes more ∧ stop (reader ++ more) = stop more := by
  induction reader using stop.induct with
  | case1 b bs reader ih =>
      rw [stop] at h
      obtain ⟨hbytes, hstop⟩ := ih h
      rw [List.cons_append, bytes, bytes, hbytes, List.append_assoc, stop]
      exact ⟨rfl, hstop⟩
  | case2 reader hne =>
      rw [(stopped hne).2] at h
      subst h
      exact ⟨rfl, rfl⟩

theorem read_bytes {room : Nat} {reader reader' : Reader} {b : UInt8} {bs : List UInt8}
    (h : read room reader = (.ok (b :: bs), reader')) :
    (b :: bs).length ≤ room ∧ b :: bs ++ bytes reader' = bytes reader ∧ stop reader' = stop reader := by
  match reader, h with
  | .data served :: rest, h =>
      rw [read] at h
      split at h
      · rename_i hfit
        obtain ⟨hserved, rfl⟩ := Prod.mk.inj h
        obtain rfl : served = b :: bs := by injection hserved
        exact ⟨hfit, rfl, rfl⟩
      · rename_i hlong
        obtain ⟨htake, rfl⟩ := Prod.mk.inj h
        have htake' : served.take room = b :: bs := by injection htake
        have hdrop : 0 < (served.drop room).length := by
          rw [List.length_drop]
          omega
        obtain ⟨c, cs, hcs⟩ := List.exists_cons_of_length_pos hdrop
        have hserved : served = b :: (bs ++ c :: cs) := by
          rw [← List.take_append_drop room served, htake', hcs, List.cons_append]
        refine ⟨?_, ?_, ?_⟩
        · rw [← htake', List.length_take]
          omega
        · rw [hcs, hserved, bytes, bytes, ← List.append_assoc, ← List.cons_append]
        · rw [hcs, hserved, stop, stop]

/-- A read that serves no bytes: what it is, and what it leaves. -/
def Stops (result : ReadResult) (reader' : Reader) : Reader → Prop
  | [] => result = .blocked ∧ reader' = []
  | .data _ :: rest => result = .ok [] ∧ reader' = rest
  | .fail err :: rest => result = .failed err ∧ reader' = rest

/-- A read that serves no bytes meets what stops the reader. -/
theorem read_stop {room : Nat} (hroom : 0 < room) {reader reader' : Reader} {result : ReadResult}
    (h : read room reader = (result, reader')) (hresult : ∀ b bs, result ≠ .ok (b :: bs)) :
    bytes reader = [] ∧ stop reader = reader ∧ Stops result reader' reader := by
  match reader, h with
  | [], h => exact ⟨rfl, rfl, (Prod.mk.inj h).1.symm, (Prod.mk.inj h).2.symm⟩
  | .fail err :: rest, h => exact ⟨rfl, rfl, (Prod.mk.inj h).1.symm, (Prod.mk.inj h).2.symm⟩
  | .data [] :: rest, h =>
      have hread : read room (.data [] :: rest) = (.ok [], rest) := by simp [read]
      rw [hread] at h
      exact ⟨rfl, rfl, (Prod.mk.inj h).1.symm, (Prod.mk.inj h).2.symm⟩
  | .data (b :: bs) :: rest, h =>
      obtain ⟨room, rfl⟩ : ∃ k, room = k + 1 := ⟨room - 1, by omega⟩
      rw [read] at h
      split at h
      · exact absurd (Prod.mk.inj h).1.symm (hresult b bs)
      · exact absurd (Prod.mk.inj h).1.symm (hresult b (bs.take room))

end Reader

/-! ### The writer -/

/-- One answer of the writer: it accepts up to `count` bytes of a write, or fails. A flush only looks at which. -/
inductive WriteEvent
  | accept (count : Nat)
  | fail (err : IoError)
  deriving DecidableEq, Repr

/-- A writer is the bytes it has taken so far and the answers it will give. Without an answer left it takes everything.
-/
structure Writer where
  wire : List UInt8
  plan : List WriteEvent
  deriving DecidableEq, Repr

namespace Writer

/-- The loop of `Write::write_all` over the answers the writer gives. -/
def writeLoop : List WriteEvent → List UInt8 → List UInt8 → Except IoError Unit × Writer
  | plan, wire, [] => (.ok (), ⟨wire, plan⟩)
  | [], wire, bytes => (.ok (), ⟨wire ++ bytes, []⟩)
  | .accept 0 :: plan, wire, _ => (.error .writeZero, ⟨wire, plan⟩)
  | .accept (count + 1) :: plan, wire, bytes =>
      writeLoop plan (wire ++ bytes.take (count + 1)) (bytes.drop (count + 1))
  | .fail .interrupted :: plan, wire, bytes => writeLoop plan wire bytes
  | .fail err :: plan, wire, _ => (.error err, ⟨wire, plan⟩)

/-- `Write::write_all`. -/
def writeAll (writer : Writer) (bytes : List UInt8) : Except IoError Unit × Writer :=
  writeLoop writer.plan writer.wire bytes

/-- `Write::flush`. -/
def flush (writer : Writer) : Except IoError Unit × Writer :=
  match writer.plan with
  | .fail err :: plan => (.error err, { writer with plan })
  | _ :: plan => (.ok (), { writer with plan })
  | [] => (.ok (), writer)

/-- `write_all` followed by `flush`, the closure both senders of the framer run. -/
def send (writer : Writer) (bytes : List UInt8) : Except Error Unit × Writer :=
  match writer.writeAll bytes with
  | (.error err, writer) => (.error (.sendFailed err), writer)
  | (.ok (), writer) =>
      match writer.flush with
      | (.error err, writer) => (.error (.sendFailed err), writer)
      | (.ok (), writer) => (.ok (), writer)

theorem writeLoop_cases (plan : List WriteEvent) (wire bytes : List UInt8) :
    ((writeLoop plan wire bytes).1 = .ok () ∧ (writeLoop plan wire bytes).2.wire = wire ++ bytes) ∨
      ∃ err count, (writeLoop plan wire bytes).1 = .error err ∧ count < bytes.length ∧
        (writeLoop plan wire bytes).2.wire = wire ++ bytes.take count := by
  induction plan generalizing wire bytes with
  | nil => cases bytes <;> simp [writeLoop]
  | cons event plan ih =>
      match bytes with
      | [] => simp [writeLoop]
      | b :: bs =>
          have hstop : wire = wire ++ (b :: bs).take 0 := by simp
          match event with
          | .accept 0 => exact Or.inr ⟨.writeZero, 0, rfl, Nat.succ_pos _, hstop⟩
          | .fail (.other message) => exact Or.inr ⟨.other message, 0, rfl, Nat.succ_pos _, hstop⟩
          | .fail .writeZero => exact Or.inr ⟨.writeZero, 0, rfl, Nat.succ_pos _, hstop⟩
          | .fail .interrupted => exact ih wire (b :: bs)
          | .accept (count + 1) =>
              change (writeLoop plan (wire ++ (b :: bs).take (count + 1)) ((b :: bs).drop (count + 1))).1 = .ok () ∧ _ ∨ _
              rcases ih (wire ++ (b :: bs).take (count + 1)) ((b :: bs).drop (count + 1)) with
                ⟨hok, hwire⟩ | ⟨err, more, herr, hmore, hwire⟩
              · refine Or.inl ⟨hok, ?_⟩
                rw [List.append_assoc, List.take_append_drop] at hwire
                exact hwire
              · rw [List.length_drop] at hmore
                refine Or.inr ⟨err, count + 1 + more, herr, by omega, ?_⟩
                have htake : (b :: bs).take (count + 1 + more) =
                    (b :: bs).take (count + 1) ++ ((b :: bs).drop (count + 1)).take more := List.take_add
                rw [htake, ← List.append_assoc]
                exact hwire

/-- What a send leaves on the wire: all of its bytes, also when only the flush failed, or a proper prefix of them. -/
theorem send_cases (writer : Writer) (bytes : List UInt8) :
    ((writer.send bytes).1 = .ok () ∧ (writer.send bytes).2.wire = writer.wire ++ bytes) ∨
      ∃ err count, (writer.send bytes).1 = .error (.sendFailed err) ∧ count ≤ bytes.length ∧
        (writer.send bytes).2.wire = writer.wire ++ bytes.take count := by
  have hloop := writeLoop_cases writer.plan writer.wire bytes
  rw [send, writeAll]
  rcases hwrite : writeLoop writer.plan writer.wire bytes with ⟨result, written⟩
  rw [hwrite] at hloop
  rcases hloop with ⟨hok, hwire⟩ | ⟨err, count, herr, hcount, hwire⟩
  · obtain rfl : result = .ok () := hok
    dsimp only at hwire ⊢
    rcases hplan : written.plan with _ | ⟨event, plan⟩
    · exact Or.inl (by simp [flush, hplan, hwire])
    · cases event with
      | accept count => exact Or.inl (by simp [flush, hplan, hwire])
      | fail err => exact Or.inr ⟨err, bytes.length, by simp [flush, hplan, hwire]⟩
  · obtain rfl : result = .error err := herr
    exact Or.inr ⟨err, count, rfl, Nat.le_of_lt hcount, hwire⟩

theorem send_healthy (writer : Writer) (hplan : writer.plan = []) (bytes : List UInt8) :
    writer.send bytes = (.ok (), { writer with wire := writer.wire ++ bytes }) := by
  obtain ⟨wire, plan⟩ := writer
  obtain rfl : plan = [] := hplan
  cases bytes <;> simp [send, writeAll, writeLoop, flush]

end Writer

end DarkbioWire
