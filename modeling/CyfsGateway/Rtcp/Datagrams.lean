import CyfsGateway.Rtcp.EncryptedStream

/-!
# Datagrams over a stream

A datagram goes over a stream as its length and its bytes.  A receive takes the
length from the stream before it looks at the caller's buffer, so the boundaries
survive only as long as every buffer holds the datagram that it gets to.
-/

namespace CyfsGateway.Rtcp

open List

inductive IoError
  | unexpectedEof
  | invalidInput (msg : String)
  | invalidData (msg : String)
  | other (msg : String)

def maxRtcpDatagramBytes : Nat := 65507

structure AsyncStreamWithDatagram where
  maxDatagramBytes : Nat
  bounded : maxDatagramBytes ≤ maxRtcpDatagramBytes

namespace AsyncStreamWithDatagram

def newWithLimit (maxDatagramBytes : Nat) : AsyncStreamWithDatagram :=
  ⟨min maxDatagramBytes maxRtcpDatagramBytes, Nat.min_le_right ..⟩

def new : AsyncStreamWithDatagram := newWithLimit maxRtcpDatagramBytes

def lengthBytes (length : Nat) : Bytes :=
  [UInt8.ofNat (length / 2 ^ 24), UInt8.ofNat (length / 2 ^ 16), UInt8.ofNat (length / 2 ^ 8),
    UInt8.ofNat length]

def lengthOf (bytes : Bytes) : Nat := bytes.foldl (fun length byte => length * 256 + byte.toNat) 0

/-- The bytes that a transport delivers, read by read.  An empty read is one that was
not ready. -/
def readExact : Nat → List Bytes → Option Bytes × List Bytes
  | 0, reads => (some [], reads)
  | _ + 1, [] => (none, [])
  | count + 1, read :: reads =>
    if count + 1 ≤ read.length then (some (read.take (count + 1)), read.drop (count + 1) :: reads)
    else
      let (rest, left) := readExact (count + 1 - read.length) reads
      (rest.map (read ++ ·), left)

/-- The two writes happen under the lock of the sending half. -/
def sendDatagram (this : AsyncStreamWithDatagram) (buffer wire : Bytes) :
    Except IoError Nat × Bytes :=
  if this.maxDatagramBytes < buffer.length then
    (.error (.invalidInput
      s!"rtcp datagram length {buffer.length} exceeds protocol limit {this.maxDatagramBytes}"),
      wire)
  else (.ok buffer.length, wire ++ lengthBytes buffer.length ++ buffer)

/-- `read_exact` never returns fewer bytes than it was asked for, so the checks of its
result are left out. -/
def recvDatagram (this : AsyncStreamWithDatagram) (bufferLen : Nat) (reads : List Bytes) :
    Except IoError Bytes × List Bytes :=
  match readExact 4 reads with
  | (none, left) => (.error .unexpectedEof, left)
  | (some lenBuffer, left) =>
    let datagramLen := lengthOf lenBuffer
    if this.maxDatagramBytes < datagramLen then
      (.error (.invalidData
        s!"rtcp datagram length {datagramLen} exceeds protocol limit {this.maxDatagramBytes}"),
        left)
    else if bufferLen < datagramLen then
      (.error (.other ("recv datagram error with insufficient buffer: " ++
        s!"datagram_len={datagramLen}, buffer_len={bufferLen}")), left)
    else
      match readExact datagramLen left with
      | (none, left) => (.error .unexpectedEof, left)
      | (some datagram, left) => (.ok datagram, left)

def sendDatagrams (this : AsyncStreamWithDatagram) (datagrams : List Bytes) : Bytes :=
  datagrams.foldl (fun wire datagram => (this.sendDatagram datagram wire).2) []

def recvDatagrams (this : AsyncStreamWithDatagram) :
    List Nat → List Bytes → List (Except IoError Bytes)
  | [], _ => []
  | bufferLen :: later, reads =>
    let (outcome, left) := this.recvDatagram bufferLen reads
    outcome :: this.recvDatagrams later left

/-! ## One frame -/

theorem lengthOf_lengthBytes {length : Nat} (hlen : length < 2 ^ 32) :
    lengthOf (lengthBytes length) = length := by
  simp only [lengthOf, lengthBytes, foldl_cons, foldl_nil, UInt8.toNat_ofNat']
  omega

/-- A read depends on the bytes alone, not on how they arrive. -/
theorem readExact_append {rest : Bytes} (reads : List Bytes) :
    ∀ {bytes : Bytes}, reads.flatten = bytes ++ rest →
      ∃ left, readExact bytes.length reads = (some bytes, left) ∧ left.flatten = rest := by
  induction reads with
  | nil =>
    intro bytes hreads
    obtain ⟨rfl, rfl⟩ := append_eq_nil_iff.mp hreads.symm
    exact ⟨[], rfl, rfl⟩
  | cons read reads ih =>
    rintro (_ | ⟨byte, bytes⟩) hreads
    · exact ⟨read :: reads, rfl, hreads⟩
    rw [flatten_cons] at hreads
    rw [length_cons, readExact, ← length_cons]
    split
    · rename_i hlen
      have htake := congrArg (take (byte :: bytes).length) hreads
      rw [take_append_of_le_length hlen, take_left] at htake
      refine ⟨_, by rw [htake], ?_⟩
      rw [← take_append_drop (byte :: bytes).length read, htake, append_assoc] at hreads
      exact append_cancel_left hreads
    · rename_i hlen
      obtain ⟨more, hmore, hrest⟩ | ⟨more, hmore, -⟩ := append_eq_append_iff.mp hreads
      · obtain ⟨left, hleft, hflat⟩ := ih hrest
        refine ⟨left, ?_, hflat⟩
        rw [hmore, length_append, Nat.add_sub_cancel_left, hleft]
        rfl
      · rw [hmore, length_append] at hlen
        omega

theorem readExact_eof {count : Nat} (reads : List Bytes) (hreads : reads.flatten = []) :
    readExact (count + 1) reads = (none, []) := by
  induction reads with
  | nil => rfl
  | cons read reads ih =>
    obtain ⟨rfl, hrest⟩ := append_eq_nil_iff.mp hreads
    rw [readExact, length_nil, if_neg (Nat.not_succ_le_zero count), Nat.sub_zero, ih hrest]
    rfl

variable {this : AsyncStreamWithDatagram}

theorem recvDatagram_frame {bufferLen : Nat} {reads : List Bytes} {datagram rest : Bytes}
    (hlimit : datagram.length ≤ this.maxDatagramBytes) (hbuffer : datagram.length ≤ bufferLen)
    (hreads : reads.flatten = lengthBytes datagram.length ++ (datagram ++ rest)) :
    ∃ left, this.recvDatagram bufferLen reads = (.ok datagram, left) ∧ left.flatten = rest := by
  obtain ⟨left, hhead, hleft⟩ := readExact_append reads hreads
  obtain ⟨after, hbody, hafter⟩ := readExact_append left hleft
  have hlen : lengthOf (lengthBytes datagram.length) = datagram.length :=
    lengthOf_lengthBytes ((hlimit.trans this.bounded).trans_lt (by decide))
  refine ⟨after, ?_, hafter⟩
  rw [recvDatagram, show 4 = (lengthBytes datagram.length).length from rfl, hhead]
  dsimp only
  rw [hlen, if_neg hlimit.not_gt, if_neg hbuffer.not_gt, hbody]

/-- A receive that refuses a datagram, because its buffer or the receiver's limit is too
small, leaves the reader behind the length of that datagram and before its bytes. -/
theorem recvDatagram_refused {bufferLen : Nat} {reads : List Bytes} {datagram rest : Bytes}
    (hsent : datagram.length ≤ maxRtcpDatagramBytes)
    (hsmall : bufferLen < datagram.length ∨ this.maxDatagramBytes < datagram.length)
    (hreads : reads.flatten = lengthBytes datagram.length ++ (datagram ++ rest)) :
    ∃ error left, this.recvDatagram bufferLen reads = (.error error, left) ∧
      left.flatten = datagram ++ rest := by
  obtain ⟨left, hhead, hleft⟩ := readExact_append reads hreads
  have hlen : lengthOf (lengthBytes datagram.length) = datagram.length :=
    lengthOf_lengthBytes (hsent.trans_lt (by decide))
  rw [recvDatagram, show 4 = (lengthBytes datagram.length).length from rfl, hhead]
  dsimp only
  rw [hlen]
  by_cases hlimit : this.maxDatagramBytes < datagram.length
  · exact ⟨_, left, if_pos hlimit, hleft⟩
  · rw [if_neg hlimit, if_pos (hsmall.resolve_right hlimit)]
    exact ⟨_, left, rfl, hleft⟩

/-! ## Whole sequences -/

def accepted (this : AsyncStreamWithDatagram) (datagrams : List Bytes) : List Bytes :=
  datagrams.filter (·.length ≤ this.maxDatagramBytes)

def frames (datagrams : List Bytes) : Bytes :=
  datagrams.flatMap fun datagram => lengthBytes datagram.length ++ datagram

theorem sendDatagrams_eq (datagrams : List Bytes) :
    this.sendDatagrams datagrams = frames (this.accepted datagrams) := by
  suffices ∀ wire, datagrams.foldl (fun wire datagram => (this.sendDatagram datagram wire).2) wire =
      wire ++ frames (this.accepted datagrams) from this []
  induction datagrams with
  | nil => simp [frames, accepted]
  | cons datagram datagrams ih =>
    intro wire
    rw [foldl_cons, ih, sendDatagram]
    by_cases hlimit : this.maxDatagramBytes < datagram.length
    · simp [accepted, hlimit.not_ge, hlimit]
    · simp [accepted, frames, Nat.le_of_not_gt hlimit, hlimit]

/-- Every receive gets to a datagram that its buffer and the receiver's limit hold. -/
def Holds (this : AsyncStreamWithDatagram) (buffers : List Nat) (datagrams : List Bytes) : Prop :=
  ∀ turn ∈ buffers.zip datagrams,
    turn.2.length ≤ turn.1 ∧ turn.2.length ≤ this.maxDatagramBytes

/-- With buffers that are large enough the receives return the datagrams that were sent,
one by one, and then the end of the stream. -/
theorem datagrams_received_in_order (sender receiver : AsyncStreamWithDatagram)
    (datagrams : List Bytes) (buffers : List Nat) (reads : List Bytes)
    (hreads : reads.flatten = sender.sendDatagrams datagrams)
    (hholds : receiver.Holds buffers (sender.accepted datagrams)) :
    receiver.recvDatagrams buffers reads =
      ((sender.accepted datagrams).take buffers.length).map .ok ++
        replicate (buffers.length - (sender.accepted datagrams).length)
          (.error .unexpectedEof) := by
  rw [sendDatagrams_eq] at hreads
  generalize sender.accepted datagrams = sent at hreads hholds
  induction buffers generalizing sent reads with
  | nil => simp [recvDatagrams]
  | cons bufferLen buffers ih =>
    rw [recvDatagrams]
    cases sent with
    | nil =>
      rw [recvDatagram, readExact_eof _ hreads]
      simpa [replicate_succ] using ih [] [] (by simp [frames]) (by simp [Holds])
    | cons datagram sent =>
      obtain ⟨⟨hbuffer, hlimit⟩, hlater⟩ := forall_mem_cons.mp hholds
      rw [frames, flatMap_cons, append_assoc] at hreads
      obtain ⟨left, hturn, hleft⟩ := recvDatagram_frame hlimit hbuffer hreads
      rw [hturn]
      simpa using ih left sent hleft hlater

/-- Two datagrams that arrive in three reads. -/
theorem datagrams_received_in_order_split :
    new.recvDatagrams [2, 1] [[0, 0], [0, 2, 7, 8, 0], [0, 0, 1, 9]] = [.ok [7, 8], .ok [9]] :=
  datagrams_received_in_order new new [[7, 8], [9]] _ _ rfl
    (by simp [Holds, accepted, new, newWithLimit, maxRtcpDatagramBytes])

/-- Behind a refused datagram the receives go on at its bytes, whatever the reads are and
whatever was sent next, and the first four of them are taken for a length. -/
theorem recvDatagrams_refused {bufferLen : Nat} {buffers : List Nat} {reads : List Bytes}
    {datagram : Bytes} {datagrams : List Bytes}
    (hsent : datagram.length ≤ maxRtcpDatagramBytes)
    (hsmall : bufferLen < datagram.length ∨ this.maxDatagramBytes < datagram.length)
    (hreads : reads.flatten = frames (datagram :: datagrams)) :
    ∃ error left, left.flatten = datagram ++ frames datagrams ∧
      this.recvDatagrams (bufferLen :: buffers) reads =
        .error error :: this.recvDatagrams buffers left := by
  rw [frames, flatMap_cons, append_assoc] at hreads
  obtain ⟨error, left, hturn, hleft⟩ := recvDatagram_refused hsent hsmall hreads
  exact ⟨error, left, hleft, by rw [recvDatagrams, hturn]⟩

/-- A receive with a small buffer leaves the bytes of the datagram on the stream, and the
next one takes them for a length. -/
theorem recvDatagrams_misaligned :
    (new.recvDatagrams [4, 5] [new.sendDatagrams [[0, 0, 0, 1, 42]]])[1]? = some (.ok [42]) :=
  rfl

end AsyncStreamWithDatagram

end CyfsGateway.Rtcp
