import Mathlib

/-!
# The encrypted stream

A tunnel and each of its data streams run over a record layer: two bytes of
length, the ciphertext and its tag.  Both halves are polled state machines that
keep their buffers across calls.  Every poll of the transport is scripted, so that
a script stands for one behaviour of the transport: how much it takes or gives,
when it is not ready and when it fails.
-/

namespace CyfsGateway.Rtcp

abbrev Bytes := List UInt8

/-- Twelve bytes, the first of them the most significant. -/
abbrev Nonce := BitVec 96

def tagLen : Nat := 16

def lenField : Nat := 2

def maxPlaintext : Nat := 16 * 1024

structure AeadUsageBudget where
  maxRecordsPerDirection : Nat
  maxPlaintextBytesPerDirection : Nat
  /-- In seconds. -/
  maxAge : Nat
  deriving DecidableEq

namespace AeadUsageBudget

def control : AeadUsageBudget where
  maxRecordsPerDirection := 2 ^ 24
  maxPlaintextBytesPerDirection := 4 * 1024 * 1024 * 1024
  maxAge := 24 * 60 * 60

def stream : AeadUsageBudget where
  maxRecordsPerDirection := 2 ^ 20
  maxPlaintextBytesPerDirection := 1024 * 1024 * 1024
  maxAge := 24 * 60 * 60

end AeadUsageBudget

inductive EncryptionRole where
  | initiator
  | responder
  deriving DecidableEq

def EncryptionRole.peer : EncryptionRole → EncryptionRole
  | initiator => responder
  | responder => initiator

@[simp]
theorem EncryptionRole.peer_peer (role : EncryptionRole) : role.peer.peer = role := by
  cases role <;> rfl

@[simp]
theorem EncryptionRole.peer_ne (role : EncryptionRole) : role.peer ≠ role := by
  cases role <;> exact nofun

theorem EncryptionRole.eq_or_eq_peer (role other : EncryptionRole) :
    role = other ∨ role = other.peer := by cases role <;> cases other <;> simp [peer]

inductive ReadPhase where
  | needHeader
  | needBody
  deriving DecidableEq

inductive ErrorKind where
  | unexpectedEof
  | invalidData
  | brokenPipe
  | writeZero
  | other
  deriving DecidableEq

inductive AeadBudgetExhausted where
  | keyAge
  | readRecords
  | readBytes
  | writeRecords
  | writeBytes
  deriving DecidableEq

/-- The error of a poll: one of the record layer, an exhausted budget, or one that
the transport reported. -/
inductive StreamFailure where
  | ioErr (kind : ErrorKind) (msg : String)
  | budgetErr (reason : AeadBudgetExhausted)
  | inner
  deriving DecidableEq

/-- An authentication, length or truncation error. -/
def StreamFailure.tampering : StreamFailure → Bool
  | ioErr .unexpectedEof _ => true
  | ioErr .invalidData _ => true
  | _ => false

inductive Poll (Value : Type) where
  | pending
  | ok (value : Value)
  | err (failure : StreamFailure)
  deriving DecidableEq

/-- One direction of the transport: what can still be read, and whether more can
follow. -/
structure Channel where
  bytes : Bytes
  closed : Bool
  deriving DecidableEq

inductive InnerRead where
  | pending
  | failed
  | ready (limit : Nat)
  deriving DecidableEq

/-- What the transport answers to a write.  A write that fails may have taken bytes. -/
inductive InnerWrite where
  | pending
  | failed (taken : Nat)
  | accepted (count : Nat)
  deriving DecidableEq

/-- What the transport answers to a flush or a shutdown. -/
inductive InnerDone where
  | pending
  | failed
  | done
  deriving DecidableEq

namespace Channel

/-- `poll_read` of the transport into a buffer of the given capacity.  No bytes into
a buffer with room are the end of the transport. -/
def pollRead (channel : Channel) (capacity : Nat) : InnerRead → Poll Bytes × Channel
  | .pending => (.pending, channel)
  | .failed => (.err .inner, channel)
  | .ready limit =>
    let chunk := channel.bytes.take (min limit capacity)
    if chunk ≠ [] then
      (.ok chunk, { channel with bytes := channel.bytes.drop (min limit capacity) })
    else if capacity = 0 ∨ channel.bytes = [] ∧ channel.closed = true then (.ok [], channel)
    else (.pending, channel)

def push (channel : Channel) (bytes : Bytes) : Channel :=
  if channel.closed then channel else { channel with bytes := channel.bytes ++ bytes }

end Channel

/-- The first twelve bytes of the digest of a label and the initialisation vector. -/
def deriveNonceBases (sha256 : Bytes → Nonce) (iv : Bytes) : Nonce × Nonce :=
  (sha256 ("rtcp-aead-nonce/A".toUTF8.toList ++ iv),
    sha256 ("rtcp-aead-nonce/B".toUTF8.toList ++ iv))

/-- The counter goes into the low eight bytes. -/
def makeNonce (base : Nonce) (seq : Nat) : Nonce := base ^^^ (BitVec.ofNat 64 seq).setWidth 96

/-- A base gives every counter another nonce. -/
theorem makeNonce_injective (hfirst : first < 2 ^ 64)
    (hsnd : second < 2 ^ 64) (hnonce : makeNonce base first = makeNonce base second) :
    first = second := by
  have hcounters := congrArg (fun nonce => (base ^^^ nonce).toNat) hnonce
  simp only [makeNonce, ← BitVec.xor_assoc, BitVec.xor_self, BitVec.zero_xor,
    BitVec.toNat_setWidth, BitVec.toNat_ofNat] at hcounters
  omega

theorem extract_makeNonce (base : Nonce) (seq : Nat) :
    (makeNonce base seq).extractLsb' 64 32 = base.extractLsb' 64 32 := by
  apply BitVec.eq_of_getElem_eq
  simp [makeNonce]

/-- Bases with different first four bytes have no nonce in common. -/
theorem makeNonce_ne (hbases : left.extractLsb' 64 32 ≠ right.extractLsb' 64 32)
    (first second : Nat) :
    makeNonce left first ≠ makeNonce right second := by
  intro hnonce
  rw [← extract_makeNonce left first, hnonce, extract_makeNonce] at hbases
  exact hbases rfl

structure SealedRecord where
  nonce : Nonce
  plaintext : Bytes
  ciphertext : Bytes
  deriving DecidableEq

/-- Both halves of a stream.  A buffer with a position is the part of it that is still
to be used: `writeBuf` is still to be written, `plaintext` still to be delivered,
`header` and `body` are filled.  `sealed` is not in the code: the records
encrypted so far. -/
structure EncryptedStream where
  writeNonceBase : Nonce
  readNonceBase : Nonce
  writeSeq : Nat
  readSeq : Nat
  writePlaintextBytes : Nat
  readPlaintextBytes : Nat
  budget : AeadUsageBudget
  writeBuf : Bytes
  shutdownStarted : Bool
  readPhase : ReadPhase
  header : Bytes
  body : Bytes
  bodyNeeded : Nat
  plaintext : Bytes
  readEof : Bool
  firstRecordReceived : Bool
  sealed : List SealedRecord
  deriving DecidableEq

/-- `checked_add` of two 64-bit counters. -/
def checkedAdd (left right : Nat) : Option Nat :=
  if left + right < 2 ^ 64 then some (left + right) else none

theorem checkedAdd_eq_some_iff {left right total} :
    checkedAdd left right = some total ↔ left + right < 2 ^ 64 ∧ left + right = total := by
  simp [checkedAdd]

def toBeBytes (length : Nat) : Bytes := [UInt8.ofNat (length / 256), UInt8.ofNat length]

def fromBeBytes : Bytes → Nat
  | [high, low] => high.toNat * 256 + low.toNat
  | _ => 0

def frame (ciphertext : Bytes) : Bytes := toBeBytes ciphertext.length ++ ciphertext

namespace EncryptedStream

def newWithBudget (sha256 : Bytes → Nonce) (iv : Bytes) (role : EncryptionRole)
    (budget : AeadUsageBudget) : EncryptedStream :=
  let (nonceA, nonceB) := deriveNonceBases sha256 iv
  let (writeNonceBase, readNonceBase) :=
    match role with
    | .initiator => (nonceA, nonceB)
    | .responder => (nonceB, nonceA)
  { writeNonceBase, readNonceBase, writeSeq := 0, readSeq := 0, writePlaintextBytes := 0,
    readPlaintextBytes := 0, budget, writeBuf := [], shutdownStarted := false,
    readPhase := .needHeader, header := [], body := [], bodyNeeded := 0, plaintext := [],
    readEof := false, firstRecordReceived := false, sealed := [] }

variable (decrypt : Nonce → Bytes → Option Bytes) (this : EncryptedStream)

def budgetAgeExhausted (elapsed : Nat) : Bool :=
  decide (this.budget.maxAge ≤ elapsed)

/-- The age of the key when the loop comes round, and the answer of the transport. -/
structure InnerPoll where
  elapsed : Nat
  answer : InnerRead
  deriving DecidableEq

/-- The buffer holds a whole record: `none` lets the loop go on. -/
def openRecord : Option (Poll Bytes) × EncryptedStream :=
  if this.budget.maxRecordsPerDirection ≤ this.readSeq then
    (some (.err (.budgetErr .readRecords)), this)
  else
    match checkedAdd this.readPlaintextBytes (this.bodyNeeded - tagLen) with
    | none => (some (.err (.budgetErr .readBytes)), this)
    | some nextBytes =>
      if this.budget.maxPlaintextBytesPerDirection < nextBytes then
        (some (.err (.budgetErr .readBytes)), this)
      else
        match checkedAdd this.readSeq 1 with
        | none => (some (.err (.ioErr .other "AEAD read sequence overflow")), this)
        | some nextSeq =>
          match decrypt (makeNonce this.readNonceBase this.readSeq) this.body with
          | none =>
            (some (.err (.ioErr .invalidData "AEAD authentication failed")),
              { this with readSeq := nextSeq })
          | some plaintext =>
            (none, { this with
              readSeq := nextSeq, readPlaintextBytes := nextBytes, plaintext,
              firstRecordReceived := true, header := [], body := [], bodyNeeded := 0,
              readPhase := .needHeader })

def takeHeader (bytes : Bytes) : Option (Poll Bytes) × EncryptedStream :=
  if bytes = [] then
    if this.header ≠ [] then
      (some (.err (.ioErr .unexpectedEof "unexpected EOF in AEAD record header")), this)
    else if ¬this.firstRecordReceived then
      (some (.err (.ioErr .unexpectedEof "peer closed before any AEAD record")), this)
    else (some (.ok []), { this with readEof := true })
  else
    let this := { this with header := this.header ++ bytes }
    if this.header.length = lenField then
      let recordLen := fromBeBytes this.header
      if recordLen < tagLen ∨ maxPlaintext + tagLen < recordLen then
        (some (.err (.ioErr .invalidData "invalid AEAD record length")), this)
      else
        (none, { this with bodyNeeded := recordLen, body := [], readPhase := .needBody })
    else (none, this)

def takeBody (bytes : Bytes) : Option (Poll Bytes) × EncryptedStream :=
  if bytes = [] then
    (some (.err (.ioErr .unexpectedEof "unexpected EOF in AEAD record body")), this)
  else
    let this := { this with body := this.body ++ bytes }
    if this.body.length = this.bodyNeeded then this.openRecord decrypt else (none, this)

/-- The room in the buffer that the next read of the transport fills. -/
def capacity : Nat :=
  match this.readPhase with
  | .needHeader => lenField - this.header.length
  | .needBody => this.bodyNeeded - this.body.length

/-- One turn of the loop of `poll_read` behind the delivery of pending plaintext. -/
def readTurn (channel : Channel) (poll : InnerPoll) :
    Option (Poll Bytes) × EncryptedStream × Channel :=
  if this.budgetAgeExhausted poll.elapsed then
    (some (.err (.budgetErr .keyAge)), this, channel)
  else
    match channel.pollRead this.capacity poll.answer with
    | (.pending, channel) => (some .pending, this, channel)
    | (.err failure, channel) => (some (.err failure), this, channel)
    | (.ok bytes, channel) =>
      let (result, this) :=
        match this.readPhase with
        | .needHeader => this.takeHeader bytes
        | .needBody => this.takeBody decrypt bytes
      (result, this, channel)

/-- `poll_read` into a buffer of the given room.  A script that has run out stands for
a transport that is not ready. -/
def pollRead (decrypt : Nonce → Bytes → Option Bytes) (room : Nat) :
    List InnerPoll → EncryptedStream → Channel → Poll Bytes × EncryptedStream × Channel
  | polls, this, channel =>
    if this.plaintext ≠ [] then
      (.ok (this.plaintext.take room), { this with plaintext := this.plaintext.drop room }, channel)
    else if this.readEof then (.ok [], this, channel)
    else
      match polls with
      | [] => (.pending, this, channel)
      | poll :: rest =>
        match this.readTurn decrypt channel poll with
        | (some result, this, channel) => (result, this, channel)
        | (none, this, channel) => pollRead decrypt room rest this channel

def drainPending :
    List InnerWrite → EncryptedStream → Channel → Poll Unit × EncryptedStream × Channel
  | answers, this, channel =>
    if this.writeBuf = [] then (.ok (), this, channel)
    else
      match answers with
      | [] => (.pending, this, channel)
      | .pending :: _ => (.pending, this, channel)
      | .failed taken :: _ => (.err .inner, this, channel.push (this.writeBuf.take taken))
      | .accepted count :: rest =>
        if count = 0 then
          (.err (.ioErr .writeZero "inner stream accepted zero bytes"), this, channel)
        else
          drainPending rest { this with writeBuf := this.writeBuf.drop count }
            (channel.push (this.writeBuf.take count))

/-- One record from the first bytes of the input, up to the opportunistic drain. -/
def sealRecord (encrypt : Nonce → Bytes → Option Bytes) (this : EncryptedStream)
    (chunk : Bytes) : Except StreamFailure Unit × EncryptedStream :=
  if this.budget.maxRecordsPerDirection ≤ this.writeSeq then
    (.error (.budgetErr .writeRecords), this)
  else
    match checkedAdd this.writePlaintextBytes chunk.length with
    | none => (.error (.budgetErr .writeBytes), this)
    | some nextBytes =>
      if this.budget.maxPlaintextBytesPerDirection < nextBytes then
        (.error (.budgetErr .writeBytes), this)
      else
        let nonce := makeNonce this.writeNonceBase this.writeSeq
        match checkedAdd this.writeSeq 1 with
        | none => (.error (.ioErr .other "AEAD write sequence overflow"), this)
        | some nextSeq =>
          match encrypt nonce chunk with
          | none =>
            (.error (.ioErr .other "AEAD encrypt failed"), { this with writeSeq := nextSeq })
          | some ciphertext =>
            (.ok (), { this with
              writeSeq := nextSeq, writePlaintextBytes := nextBytes,
              writeBuf := frame ciphertext,
              sealed := this.sealed ++ [{ nonce, plaintext := chunk, ciphertext }] })

/-- `poll_write`, with what the transport answers to the drain of an earlier record and
to that of the new one. -/
def pollWrite (encrypt : Nonce → Bytes → Option Bytes) (elapsed : Nat) (buf : Bytes)
    (earlier own : List InnerWrite) (this : EncryptedStream) (channel : Channel) :
    Poll Nat × EncryptedStream × Channel :=
  if this.shutdownStarted then
    (.err (.ioErr .brokenPipe "encrypted stream already shut down"), this, channel)
  else if this.budgetAgeExhausted elapsed then
    (.err (.budgetErr .keyAge), this, channel)
  else
    match drainPending earlier this channel with
    | (.pending, this, channel) => (.pending, this, channel)
    | (.err failure, this, channel) => (.err failure, this, channel)
    | (.ok (), this, channel) =>
      if buf = [] then (.ok 0, this, channel)
      else
        let accept := min buf.length maxPlaintext
        match this.sealRecord encrypt (buf.take accept) with
        | (.error failure, this) => (.err failure, this, channel)
        | (.ok (), this) =>
          match drainPending own this channel with
          | (.err failure, this, channel) => (.err failure, this, channel)
          | (_, this, channel) => (.ok accept, this, channel)

def innerDone : InnerDone → Poll Unit
  | .pending => .pending
  | .failed => .err .inner
  | .done => .ok ()

def pollFlush (answers : List InnerWrite) (inner : InnerDone) (this : EncryptedStream)
    (channel : Channel) : Poll Unit × EncryptedStream × Channel :=
  match drainPending answers this channel with
  | (.ok (), this, channel) => (innerDone inner, this, channel)
  | other => other

/-- `poll_shutdown`.  Behind it the transport ends where the writer ended. -/
def pollShutdown (answers : List InnerWrite) (inner : InnerDone) (this : EncryptedStream)
    (channel : Channel) : Poll Unit × EncryptedStream × Channel :=
  match drainPending answers this channel with
  | (.ok (), this, channel) =>
    let this := { this with shutdownStarted := true }
    match inner with
    | .done => (.ok (), this, { channel with closed := true })
    | _ => (innerDone inner, this, channel)
  | other => other

end EncryptedStream

namespace Channel

variable {channel after : Channel} {capacity : Nat} {answer : InnerRead} {result : Poll Bytes}

/-- A read of the transport pauses, finds the end or takes the next bytes. -/
theorem pollRead_cases (hpoll : channel.pollRead capacity answer = (result, after)) :
    (result = .pending ∨ result = .err .inner) ∧ after = channel ∨
      (result = .ok [] ∧ after = channel ∧
        (capacity = 0 ∨ channel.bytes = [] ∧ channel.closed = true)) ∨
      ∃ chunk, chunk ≠ [] ∧ chunk.length ≤ capacity ∧ result = .ok chunk ∧
        channel.bytes = chunk ++ after.bytes ∧ after.closed = channel.closed := by
  cases answer with
  | pending =>
    cases hpoll
    exact .inl ⟨.inl rfl, rfl⟩
  | failed =>
    cases hpoll
    exact .inl ⟨.inr rfl, rfl⟩
  | ready limit =>
    simp only [pollRead] at hpoll
    split at hpoll
    · next hchunk =>
      cases hpoll
      refine .inr (.inr ⟨_, hchunk, ?_, rfl, (List.take_append_drop _ _).symm, rfl⟩)
      rw [List.length_take]
      omega
    · split at hpoll
      · next hend =>
        cases hpoll
        exact .inr (.inl ⟨rfl, rfl, hend⟩)
      · cases hpoll
        exact .inl ⟨.inl rfl, rfl⟩

theorem pollRead_ready (hbytes : channel.bytes ≠ []) (hcapacity : 0 < capacity)
    (hlimit : 0 < limit) :
    channel.pollRead capacity (.ready limit) = (.ok (channel.bytes.take (min limit capacity)),
        { channel with bytes := channel.bytes.drop (min limit capacity) }) := by
  have hchunk : channel.bytes.take (min limit capacity) ≠ [] := by
    rw [Ne, List.take_eq_nil_iff]
    rintro (hzero | hnone)
    · omega
    · exact hbytes hnone
  rw [pollRead, if_pos hchunk]

end Channel

namespace EncryptedStream

variable {decrypt : Nonce → Bytes → Option Bytes} {this after : EncryptedStream}
  {channel behind : Channel} {result : Option (Poll Bytes)}

/-- The reader is between two records. -/
def AtBoundary (this : EncryptedStream) : Prop := this.readPhase = .needHeader ∧ this.header = []

instance : Decidable this.AtBoundary := inferInstanceAs (Decidable (_ ∧ _))

inductive Turn (decrypt : Nonce → Bytes → Option Bytes) (this : EncryptedStream)
    (channel : Channel) : Option (Poll Bytes) → EncryptedStream → Channel → Prop
  | paused {result : Poll Bytes} (hresult : result = .pending ∨ result = .err .inner ∨
      result = .err (.budgetErr .keyAge)) : Turn decrypt this channel (some result) this channel
  | ended {msg : String} (hend : this.capacity = 0 ∨ channel.bytes = [] ∧ channel.closed = true)
      (hinside : this.AtBoundary → this.firstRecordReceived = false) :
      Turn decrypt this channel (some (.err (.ioErr .unexpectedEof msg))) this channel
  | finished (hend : channel.bytes = [] ∧ channel.closed = true) (hboundary : this.AtBoundary)
      (hfirst : this.firstRecordReceived = true) :
      Turn decrypt this channel (some (.ok [])) { this with readEof := true } channel
  | header {bytes : Bytes} {behind : Channel} (hphase : this.readPhase = .needHeader)
      (hbytes : bytes ≠ []) (hchannel : channel.bytes = bytes ++ behind.bytes)
      (hclosed : behind.closed = channel.closed)
      (hlength : (this.header ++ bytes).length < lenField) :
      Turn decrypt this channel none { this with header := this.header ++ bytes } behind
  | badLength {bytes : Bytes} {behind : Channel} (hphase : this.readPhase = .needHeader)
      (hbytes : bytes ≠ []) (hchannel : channel.bytes = bytes ++ behind.bytes)
      (hclosed : behind.closed = channel.closed)
      (hlength : (this.header ++ bytes).length = lenField)
      (hbad : fromBeBytes (this.header ++ bytes) < tagLen ∨
        maxPlaintext + tagLen < fromBeBytes (this.header ++ bytes)) :
      Turn decrypt this channel (some (.err (.ioErr .invalidData "invalid AEAD record length")))
        { this with header := this.header ++ bytes } behind
  | headerDone {bytes : Bytes} {behind : Channel} (hphase : this.readPhase = .needHeader)
      (hbytes : bytes ≠ []) (hchannel : channel.bytes = bytes ++ behind.bytes)
      (hclosed : behind.closed = channel.closed)
      (hlength : (this.header ++ bytes).length = lenField)
      (hgood : tagLen ≤ fromBeBytes (this.header ++ bytes) ∧
        fromBeBytes (this.header ++ bytes) ≤ maxPlaintext + tagLen) :
      Turn decrypt this channel none
        { this with
          header := this.header ++ bytes, bodyNeeded := fromBeBytes (this.header ++ bytes),
          body := [], readPhase := .needBody } behind
  | body {bytes : Bytes} {behind : Channel} (hphase : this.readPhase = .needBody)
      (hbytes : bytes ≠ []) (hchannel : channel.bytes = bytes ++ behind.bytes)
      (hclosed : behind.closed = channel.closed)
      (hlength : (this.body ++ bytes).length < this.bodyNeeded) :
      Turn decrypt this channel none { this with body := this.body ++ bytes } behind
  | bodyDone {bytes : Bytes} {behind : Channel} {result : Option (Poll Bytes)}
      {after : EncryptedStream} (hphase : this.readPhase = .needBody)
      (hbytes : bytes ≠ []) (hchannel : channel.bytes = bytes ++ behind.bytes)
      (hclosed : behind.closed = channel.closed)
      (hlength : (this.body ++ bytes).length = this.bodyNeeded)
      (hopen : openRecord decrypt { this with body := this.body ++ bytes } = (result, after)) :
      Turn decrypt this channel result after behind

theorem turn_takeHeader_nil (hphase : this.readPhase = .needHeader)
    (hend : this.capacity = 0 ∨ channel.bytes = [] ∧ channel.closed = true)
    (htake : this.takeHeader [] = (result, after)) :
    Turn decrypt this channel result after channel := by
  rw [takeHeader, if_pos rfl] at htake
  split at htake
  · next hheader =>
    cases htake
    exact .ended hend fun hbdry => absurd hbdry.2 hheader
  · next hheader =>
    have hempty := not_not.mp hheader
    split at htake
    · next hfirst =>
      cases htake
      exact .ended hend fun _ => by simpa using hfirst
    · next hfirst =>
      cases htake
      refine .finished (hend.resolve_left ?_) ⟨hphase, hempty⟩ (by simpa using hfirst)
      simp [capacity, hphase, hempty, lenField]

section Takes

variable {bytes : Bytes} (hbytes : bytes ≠ []) (hchan : channel.bytes = bytes ++ behind.bytes)
  (hclosed : behind.closed = channel.closed) (hroom : bytes.length ≤ this.capacity)

include hbytes hchan hclosed hroom

theorem turn_takeHeader (hphase : this.readPhase = .needHeader)
    (htake : this.takeHeader bytes = (result, after)) :
    Turn decrypt this channel result after behind := by
  have hpos := List.length_pos_iff.mpr hbytes
  have hlen : (this.header ++ bytes).length ≤ lenField := by
    simp only [capacity, hphase] at hroom
    rw [List.length_append]
    omega
  rw [takeHeader, if_neg hbytes] at htake
  dsimp only at htake
  split at htake
  · next hfull =>
    split at htake
    · next hbad =>
      cases htake
      exact .badLength hphase hbytes hchan hclosed hfull hbad
    · next hgood =>
      cases htake
      exact .headerDone hphase hbytes hchan hclosed hfull (by omega)
  · next hpart =>
    cases htake
    exact .header hphase hbytes hchan hclosed (by omega)

theorem turn_takeBody (hphase : this.readPhase = .needBody)
    (htake : this.takeBody decrypt bytes = (result, after)) :
    Turn decrypt this channel result after behind := by
  have hpos := List.length_pos_iff.mpr hbytes
  have hlen : (this.body ++ bytes).length ≤ this.bodyNeeded := by
    simp only [capacity, hphase] at hroom
    rw [List.length_append]
    omega
  rw [takeBody, if_neg hbytes] at htake
  dsimp only at htake
  split at htake
  · next hfull => exact .bodyDone hphase hbytes hchan hclosed hfull htake
  · next hpart =>
    cases htake
    exact .body hphase hbytes hchan hclosed (by omega)

end Takes

theorem turn_of_readTurn (hturn : this.readTurn decrypt channel poll = (result, after, behind)) :
    Turn decrypt this channel result after behind := by
  rw [readTurn] at hturn
  split at hturn
  · cases hturn
    exact .paused (.inr (.inr rfl))
  split at hturn
  · next hpoll =>
    cases hturn
    rcases Channel.pollRead_cases hpoll with ⟨-, rfl⟩ | ⟨hok, -⟩ | ⟨_, -, -, hok, -⟩
    · exact .paused (.inl rfl)
    · cases hok
    · cases hok
  · next failure _ hpoll =>
    cases hturn
    rcases Channel.pollRead_cases hpoll with ⟨hfail, rfl⟩ | ⟨hok, -⟩ | ⟨_, -, -, hok, -⟩
    · exact .paused (.inr (.inl (hfail.resolve_left nofun)))
    · cases hok
    · cases hok
  · next bytes _ hpoll =>
    rcases Channel.pollRead_cases hpoll with
      ⟨hpaused, -⟩ | ⟨hok, rfl, hend⟩ | ⟨chunk, hchunk, hroom, hok, hchan, hclosed⟩
    · rcases hpaused with hpaused | hpaused <;> cases hpaused
    · cases hok
      cases hphase : this.readPhase with
      | needHeader =>
        rw [hphase] at hturn
        cases hturn
        exact turn_takeHeader_nil hphase hend rfl
      | needBody =>
        rw [hphase] at hturn
        cases hturn
        refine .ended hend fun hbdry => ?_
        cases hphase.symm.trans hbdry.1
    · cases hok
      cases hphase : this.readPhase with
      | needHeader =>
        rw [hphase] at hturn
        cases hturn
        exact turn_takeHeader hchunk hchan hclosed hroom hphase rfl
      | needBody =>
        rw [hphase] at hturn
        cases hturn
        exact turn_takeBody hchunk hchan hclosed hroom hphase rfl

theorem openRecord_cases (hopen : this.openRecord decrypt = (result, after)) :
    (∃ failure, result = some (.err failure) ∧ failure.tampering = false ∧ after = this) ∨
      (result = some (.err (.ioErr .invalidData "AEAD authentication failed")) ∧
        after = { this with readSeq := this.readSeq + 1 }) ∨
      ∃ plaintext, result = none ∧ this.readSeq < this.budget.maxRecordsPerDirection ∧
        this.readSeq + 1 < 2 ^ 64 ∧
        decrypt (makeNonce this.readNonceBase this.readSeq) this.body = some plaintext ∧
        after = { this with
          readSeq := this.readSeq + 1,
          readPlaintextBytes := this.readPlaintextBytes + (this.bodyNeeded - tagLen),
          plaintext, firstRecordReceived := true, header := [], body := [], bodyNeeded := 0,
          readPhase := .needHeader } := by
  rw [openRecord] at hopen
  split at hopen
  · cases hopen
    exact .inl ⟨_, rfl, rfl, rfl⟩
  next hrecs =>
  split at hopen
  · cases hopen
    exact .inl ⟨_, rfl, rfl, rfl⟩
  next nextBytes hbytes =>
  split at hopen
  · cases hopen
    exact .inl ⟨_, rfl, rfl, rfl⟩
  split at hopen
  · cases hopen
    exact .inl ⟨_, rfl, rfl, rfl⟩
  · next nextSeq hseq =>
    obtain ⟨-, rfl⟩ := checkedAdd_eq_some_iff.mp hbytes
    obtain ⟨hfits, rfl⟩ := checkedAdd_eq_some_iff.mp hseq
    split at hopen
    · cases hopen
      exact .inr (.inl ⟨rfl, rfl⟩)
    next plaintext hdecr =>
    cases hopen
    exact .inr (.inr ⟨plaintext, rfl, Nat.lt_of_not_le hrecs, hfits, hdecr, rfl⟩)

theorem openRecord_eq {plaintext} (hrecs : this.readSeq < this.budget.maxRecordsPerDirection)
    (hnext : this.readSeq + 1 < 2 ^ 64)
    (hbytes : this.readPlaintextBytes + (this.bodyNeeded - tagLen) ≤
      this.budget.maxPlaintextBytesPerDirection)
    (hfits : this.readPlaintextBytes + (this.bodyNeeded - tagLen) < 2 ^ 64)
    (hdecr : decrypt (makeNonce this.readNonceBase this.readSeq) this.body = some plaintext) :
    this.openRecord decrypt = (none, { this with
      readSeq := this.readSeq + 1,
      readPlaintextBytes := this.readPlaintextBytes + (this.bodyNeeded - tagLen),
      plaintext, firstRecordReceived := true, header := [], body := [], bodyNeeded := 0,
      readPhase := .needHeader }) := by
  rw [openRecord, if_neg (Nat.not_le_of_lt hrecs), checkedAdd_eq_some_iff.mpr ⟨hfits, rfl⟩]
  dsimp only
  rw [if_neg (Nat.not_lt_of_le hbytes), checkedAdd_eq_some_iff.mpr ⟨hnext, rfl⟩]
  rw [hdecr]

/-- Induction over the loop of `poll_read`: what the turns preserve holds when the
poll returns. -/
theorem pollRead_rule (Invariant : EncryptedStream → Channel → Prop)
    (Post : Poll Bytes → EncryptedStream → Channel → Prop)
    (hdeliver : ∀ this channel, Invariant this channel → this.plaintext ≠ [] →
      Post (.ok (this.plaintext.take room))
        { this with plaintext := this.plaintext.drop room } channel)
    (heof : ∀ this channel, Invariant this channel → this.plaintext = [] →
      this.readEof = true → Post (.ok []) this channel)
    (hpend : ∀ this channel, Invariant this channel → this.plaintext = [] →
      this.readEof = false → Post .pending this channel)
    (hreturn : ∀ this channel result after behind, Invariant this channel →
      this.plaintext = [] → this.readEof = false →
      Turn decrypt this channel (some result) after behind → Post result after behind)
    (hagain : ∀ this channel after behind, Invariant this channel →
      this.plaintext = [] → this.readEof = false →
      Turn decrypt this channel none after behind → Invariant after behind)
    (hfirst : Invariant this channel)
    (hread : pollRead decrypt room polls this channel = (outcome, after, behind)) :
    Post outcome after behind := by
  induction polls generalizing this channel with
  | nil =>
    rw [pollRead] at hread
    split at hread
    · next hplain =>
      cases hread
      exact hdeliver _ _ hfirst hplain
    · next hplain =>
      have hempty := not_not.mp hplain
      split at hread
      · next hend =>
        cases hread
        exact heof _ _ hfirst hempty hend
      · next hopen =>
        cases hread
        exact hpend _ _ hfirst hempty (by simpa using hopen)
  | cons poll rest ih =>
    rw [pollRead] at hread
    split at hread
    · next hplain =>
      cases hread
      exact hdeliver _ _ hfirst hplain
    · next hplain =>
      have hempty := not_not.mp hplain
      split at hread
      · next hend =>
        cases hread
        exact heof _ _ hfirst hempty hend
      · next hopen =>
        have hopen : this.readEof = false := by simpa using hopen
        split at hread
        · next hturn =>
          cases hread
          exact hreturn _ _ _ _ _ hfirst hempty hopen (turn_of_readTurn hturn)
        · next hturn => exact ih (hagain _ _ _ _ hfirst hempty hopen (turn_of_readTurn hturn)) hread

end EncryptedStream

theorem Channel.push_push (channel : Channel) (first second : Bytes) :
    (channel.push first).push second = channel.push (first ++ second) := by
  cases hclosed : channel.closed <;> simp [push, hclosed]

@[simp]
theorem Channel.push_nil (channel : Channel) : channel.push [] = channel := by simp [push]

@[simp]
theorem Channel.closed_push (channel : Channel) (bytes : Bytes) :
    (channel.push bytes).closed = channel.closed := by
  cases hclosed : channel.closed <;> simp [push, hclosed]

namespace EncryptedStream

variable {encrypt : Nonce → Bytes → Option Bytes} {this after : EncryptedStream}
  {channel behind : Channel}

/-- What a drain can do: the transport has a first part of the buffer, and perhaps more
of it if a write failed. -/
inductive Drained (this : EncryptedStream) (channel : Channel) :
    Poll Unit → EncryptedStream → Channel → Prop
  | done : Drained this channel (.ok ()) { this with writeBuf := [] } (channel.push this.writeBuf)
  | waiting {written rest : Bytes} (hbuf : this.writeBuf = written ++ rest) :
      Drained this channel .pending { this with writeBuf := rest } (channel.push written)
  | failed {failure : StreamFailure} {written leaked rest : Bytes}
      (hbuf : this.writeBuf = written ++ (leaked ++ rest)) :
      Drained this channel (.err failure) { this with writeBuf := leaked ++ rest }
        (channel.push (written ++ leaked))

theorem Drained.cons {written rest result} (hbuf : this.writeBuf = written ++ rest)
    (hdrain : Drained { this with writeBuf := rest } (channel.push written) result after
      behind) : Drained this channel result after behind := by
  cases hdrain with
  | done =>
    rw [Channel.push_push, ← hbuf]
    exact .done
  | waiting hrest =>
    rw [Channel.push_push]
    exact .waiting (by rw [hbuf, List.append_assoc, ← hrest])
  | failed hrest =>
    rw [Channel.push_push, ← List.append_assoc]
    exact .failed (by rw [hbuf, List.append_assoc, ← hrest])

theorem Drained.writeBuf_only {result} (hdrain : Drained this channel result after behind) :
    ∃ writeBuf, after = { this with writeBuf } := by
  cases hdrain
  all_goals exact ⟨_, rfl⟩

theorem drained_empty (hempty : this.writeBuf = []) :
    Drained this channel (.ok ()) this channel := by
  have hdone : Drained this channel (.ok ()) { this with writeBuf := [] }
      (channel.push this.writeBuf) := .done
  have hsame : { this with writeBuf := [] } = this := by rw [← hempty]
  rwa [hsame, hempty, Channel.push_nil] at hdone

theorem drained_waiting : Drained this channel .pending this channel := by
  have hwaiting : Drained this channel .pending { this with writeBuf := this.writeBuf }
      (channel.push []) := .waiting rfl
  rwa [Channel.push_nil] at hwaiting

theorem drained_failed {failure} (taken : Nat) :
    Drained this channel (.err failure) this (channel.push (this.writeBuf.take taken)) := by
  have hsplit := List.take_append_drop taken this.writeBuf
  have hfail : Drained this channel (.err failure)
      { this with writeBuf := this.writeBuf.take taken ++ this.writeBuf.drop taken }
      (channel.push ([] ++ this.writeBuf.take taken)) := .failed hsplit.symm
  rwa [hsplit] at hfail

theorem drained_drainPending {answers result}
    (hdrain : drainPending answers this channel = (result, after, behind)) :
    Drained this channel result after behind := by
  induction answers generalizing this channel with
  | nil =>
    unfold drainPending at hdrain
    split at hdrain
    · next hempty =>
      cases hdrain
      exact drained_empty hempty
    · cases hdrain
      exact drained_waiting
  | cons answer rest ih =>
    unfold drainPending at hdrain
    split at hdrain
    · next hempty =>
      cases hdrain
      exact drained_empty hempty
    · cases answer with
      | pending =>
        cases hdrain
        exact drained_waiting
      | failed taken =>
        cases hdrain
        exact drained_failed taken
      | accepted count =>
        dsimp only at hdrain
        split at hdrain
        · cases hdrain
          simpa using drained_failed 0
        · exact (ih hdrain).cons (List.take_append_drop count this.writeBuf).symm

theorem sealRecord_cases {result} (hseal : this.sealRecord encrypt chunk = (result, after)) :
    (∃ failure, result = .error failure ∧ after = this) ∨
      (∃ failure, result = .error failure ∧ this.writeSeq < this.budget.maxRecordsPerDirection ∧
        this.writeSeq + 1 < 2 ^ 64 ∧ after = { this with writeSeq := this.writeSeq + 1 }) ∨
      ∃ ciphertext, result = .ok () ∧
        this.writeSeq < this.budget.maxRecordsPerDirection ∧ this.writeSeq + 1 < 2 ^ 64 ∧
        this.writePlaintextBytes + chunk.length ≤ this.budget.maxPlaintextBytesPerDirection ∧
        this.writePlaintextBytes + chunk.length < 2 ^ 64 ∧
        encrypt (makeNonce this.writeNonceBase this.writeSeq) chunk = some ciphertext ∧
        after = { this with
          writeSeq := this.writeSeq + 1,
          writePlaintextBytes := this.writePlaintextBytes + chunk.length,
          writeBuf := frame ciphertext,
          sealed := this.sealed ++
            [⟨makeNonce this.writeNonceBase this.writeSeq, chunk, ciphertext⟩] } := by
  rw [sealRecord] at hseal
  split at hseal
  · cases hseal
    exact .inl ⟨_, rfl, rfl⟩
  next hrecs =>
  split at hseal
  · cases hseal
    exact .inl ⟨_, rfl, rfl⟩
  next nextBytes hbytes =>
  split at hseal
  · cases hseal
    exact .inl ⟨_, rfl, rfl⟩
  next hbudg =>
  dsimp only at hseal
  split at hseal
  · cases hseal
    exact .inl ⟨_, rfl, rfl⟩
  next nextSeq hseq =>
  obtain ⟨hfits, rfl⟩ := checkedAdd_eq_some_iff.mp hbytes
  obtain ⟨hnext, rfl⟩ := checkedAdd_eq_some_iff.mp hseq
  split at hseal
  · cases hseal
    exact .inr (.inl ⟨_, rfl, Nat.lt_of_not_le hrecs, hnext, rfl⟩)
  next ciphertext henc =>
  cases hseal
  exact .inr (.inr ⟨ciphertext, rfl, Nat.lt_of_not_le hrecs, hnext,
    Nat.le_of_not_lt hbudg, hfits, henc, rfl⟩)

inductive Wrote (encrypt : Nonce → Bytes → Option Bytes) (buf : Bytes)
    (this : EncryptedStream) (channel : Channel) :
    Poll Nat → EncryptedStream → Channel → Prop
  | refused {failure : StreamFailure} : Wrote encrypt buf this channel (.err failure) this channel
  | waiting {after : EncryptedStream} {behind : Channel}
      (hdrained : Drained this channel .pending after behind) :
      Wrote encrypt buf this channel .pending after behind
  | broken {failure : StreamFailure} {after : EncryptedStream} {behind : Channel}
      (hdrained : Drained this channel (.err failure) after behind) :
      Wrote encrypt buf this channel (.err failure) after behind
  | nothing {after : EncryptedStream} {behind : Channel}
      (hdrained : Drained this channel (.ok ()) after behind) (hbuf : buf = []) :
      Wrote encrypt buf this channel (.ok 0) after behind
  | unsealed {failure : StreamFailure} {middle after : EncryptedStream} {behind : Channel}
      (hdrained : Drained this channel (.ok ()) middle behind)
      (hseal : middle.sealRecord encrypt (buf.take (min buf.length maxPlaintext)) =
        (.error failure, after)) :
      Wrote encrypt buf this channel (.err failure) after behind
  | sealed {result : Poll Unit} {middle record after : EncryptedStream} {between behind : Channel}
      (hopen : this.shutdownStarted = false)
      (hdrained : Drained this channel (.ok ()) middle between) (hbuf : buf ≠ [])
      (hseal : middle.sealRecord encrypt (buf.take (min buf.length maxPlaintext)) =
        (.ok (), record))
      (hrecord : Drained record between result after behind) (hresult : ∀ f, result ≠ .err f) :
      Wrote encrypt buf this channel (.ok (min buf.length maxPlaintext)) after behind
  | sealedBroken {failure : StreamFailure} {middle record after : EncryptedStream}
      {between behind : Channel}
      (hopen : this.shutdownStarted = false)
      (hdrained : Drained this channel (.ok ()) middle between) (hbuf : buf ≠ [])
      (hseal : middle.sealRecord encrypt (buf.take (min buf.length maxPlaintext)) =
        (.ok (), record))
      (hrecord : Drained record between (.err failure) after behind) :
      Wrote encrypt buf this channel (.err failure) after behind

theorem wrote_pollWrite {result}
    (hwrite : pollWrite encrypt elapsed buf earlier own this channel = (result, after, behind)) :
    Wrote encrypt buf this channel result after behind := by
  rw [pollWrite] at hwrite
  split at hwrite
  · cases hwrite
    exact .refused
  next hopen =>
  have hopen : this.shutdownStarted = false := by simpa using hopen
  split at hwrite
  · cases hwrite
    exact .refused
  split at hwrite
  · next hdrain =>
    cases hwrite
    exact .waiting (drained_drainPending hdrain)
  · next hdrain =>
    cases hwrite
    exact .broken (drained_drainPending hdrain)
  · next hdrain =>
    have hdrained := drained_drainPending hdrain
    split at hwrite
    · next hbuf =>
      cases hwrite
      exact .nothing hdrained hbuf
    · next hbuf =>
      dsimp only at hwrite
      split at hwrite
      · next hseal =>
        cases hwrite
        exact .unsealed hdrained hseal
      · next hseal =>
        split at hwrite
        · next hrec =>
          cases hwrite
          exact .sealedBroken hopen hdrained hbuf hseal (drained_drainPending hrec)
        · next hres hrec =>
          cases hwrite
          exact .sealed hopen hdrained hbuf hseal (drained_drainPending hrec) hres

end EncryptedStream

namespace EncryptedStream

variable {decrypt : Nonce → Bytes → Option Bytes} {this after : EncryptedStream}
  {channel behind : Channel} {answers : List InnerWrite} {inner : InnerDone} {result : Poll Unit}

theorem pollFlush_cases (hflush : pollFlush answers inner this channel = (result, after, behind)) :
    ∃ drain, Drained this channel drain after behind ∧ (result = .ok () → drain = .ok ()) ∧
      ∀ failure, drain = .err failure → result = .err failure := by
  rw [pollFlush] at hflush
  split at hflush
  · next hdrain =>
    cases hflush
    exact ⟨_, drained_drainPending hdrain, fun _ => rfl, nofun⟩
  · exact ⟨_, drained_drainPending hflush, id, fun _ => id⟩

theorem pollShutdown_cases
    (hshut : pollShutdown answers inner this channel = (result, after, behind)) :
    (Drained this channel result after behind ∧ result ≠ .ok ()) ∨
      ∃ middle between closed, Drained this channel (.ok ()) middle between ∧
        after = { middle with shutdownStarted := true } ∧
        behind = { between with closed := between.closed || closed } := by
  rw [pollShutdown] at hshut
  split at hshut
  · next middle between hdrain =>
    have hdrained := drained_drainPending hdrain
    cases inner with
    | done =>
      cases hshut
      exact .inr ⟨middle, between, true, hdrained, rfl, by rw [Bool.or_true]⟩
    | pending | failed =>
      cases hshut
      exact .inr ⟨middle, behind, false, hdrained, rfl, by rw [Bool.or_false]⟩
  · next hother =>
    refine .inl ⟨drained_drainPending hshut, ?_⟩
    rintro rfl
    exact hother _ _ hshut

/-- The writing halves agree, and so do the bases and the budget. -/
def SameWriting (before after : EncryptedStream) : Prop :=
  ∃ readSeq readPlaintextBytes readPhase header body bodyNeeded plaintext readEof
      firstRecordReceived,
    after = { before with
      readSeq, readPlaintextBytes, readPhase, header, body, bodyNeeded, plaintext, readEof,
      firstRecordReceived }

/-- The reading halves agree, and so do the bases and the budget. -/
def SameReading (before after : EncryptedStream) : Prop :=
  ∃ writeSeq writePlaintextBytes writeBuf shutdownStarted records,
    after = { before with
      writeSeq, writePlaintextBytes, writeBuf, shutdownStarted, sealed := records }

theorem sameWriting_refl : SameWriting this this := ⟨_, _, _, _, _, _, _, _, _, rfl⟩

theorem sameReading_refl : SameReading this this := ⟨_, _, _, _, _, rfl⟩

theorem SameWriting.trans (hfirst : SameWriting this middle)
    (hsnd : SameWriting middle after) : SameWriting this after := by
  obtain ⟨_, _, _, _, _, _, _, _, _, rfl⟩ := hfirst
  obtain ⟨_, _, _, _, _, _, _, _, _, rfl⟩ := hsnd
  exact ⟨_, _, _, _, _, _, _, _, _, rfl⟩

theorem SameReading.trans (hfirst : SameReading this middle)
    (hsnd : SameReading middle after) : SameReading this after := by
  obtain ⟨_, _, _, _, _, rfl⟩ := hfirst
  obtain ⟨_, _, _, _, _, rfl⟩ := hsnd
  exact ⟨_, _, _, _, _, rfl⟩

theorem Turn.sameWriting {result} (hturn : Turn decrypt this channel result after behind) :
    SameWriting this after := by
  cases hturn with
  | bodyDone _ _ _ _ _ hopen =>
    rcases openRecord_cases hopen with ⟨_, -, -, rfl⟩ | ⟨-, rfl⟩ | ⟨_, -, -, -, -, rfl⟩
    all_goals exact ⟨_, _, _, _, _, _, _, _, _, rfl⟩
  | _ => exact ⟨_, _, _, _, _, _, _, _, _, rfl⟩

theorem sameWriting_pollRead {room}
    (hread : pollRead decrypt room polls this channel = (outcome, after, behind)) :
    SameWriting this after := by
  apply pollRead_rule (fun now _ => SameWriting this now) (fun _ now _ => SameWriting this now)
    _ _ _ _ _ sameWriting_refl hread
  · exact fun _ _ hsame _ => hsame.trans ⟨_, _, _, _, _, _, _, _, _, rfl⟩
  · exact fun _ _ hsame _ _ => hsame
  · exact fun _ _ hsame _ _ => hsame
  · exact fun _ _ _ _ _ hsame _ _ hturn => hsame.trans hturn.sameWriting
  · exact fun _ _ _ _ hsame _ _ hturn => hsame.trans hturn.sameWriting

theorem Drained.sameReading (hdrain : Drained this channel result after behind) :
    SameReading this after := by
  cases hdrain
  all_goals exact ⟨_, _, _, _, _, rfl⟩

theorem sameReading_sealRecord
    (hseal : this.sealRecord encrypt chunk = (outcome, after)) : SameReading this after := by
  rcases sealRecord_cases hseal with ⟨_, -, rfl⟩ | ⟨_, -, -, -, rfl⟩ | ⟨_, -, -, -, -, -, -, rfl⟩
  all_goals exact ⟨_, _, _, _, _, rfl⟩

theorem Wrote.sameReading (hwrote : Wrote encrypt buf this channel count after behind) :
    SameReading this after := by
  cases hwrote with
  | refused => exact sameReading_refl
  | waiting hdrain | broken hdrain | nothing hdrain _ => exact hdrain.sameReading
  | unsealed hdrain hseal => exact hdrain.sameReading.trans (sameReading_sealRecord hseal)
  | sealed _ hdrain _ hseal hrec _ | sealedBroken _ hdrain _ hseal hrec =>
    exact (hdrain.sameReading.trans (sameReading_sealRecord hseal)).trans hrec.sameReading

theorem sameReading_pollFlush
    (hflush : pollFlush answers inner this channel = (result, after, behind)) :
    SameReading this after := by
  obtain ⟨_, hdrain, -⟩ := pollFlush_cases hflush
  exact hdrain.sameReading

theorem sameReading_pollShutdown
    (hshut : pollShutdown answers inner this channel = (result, after, behind)) :
    SameReading this after := by
  rcases pollShutdown_cases hshut with ⟨hdrain, -⟩ | ⟨_, _, _, hdrain, rfl, -⟩
  · exact hdrain.sameReading
  · exact hdrain.sameReading.trans ⟨_, _, _, _, _, rfl⟩

end EncryptedStream

end CyfsGateway.Rtcp
