import CyfsGateway.Core.Transition
import CyfsGateway.Rtcp.EncryptedStream

/-!
# The record layer as a channel

Two streams of one key and opposite roles talk over a transport that belongs to an
attacker.  The attacker may put any bytes in the place of those in transit and close
the transport.  The cipher is ideal: a ciphertext opens under a nonce only if one of
the two ends encrypted it under that nonce.
-/

namespace CyfsGateway.Rtcp

open Transition EncryptedStream EncryptionRole List

/-- One end with what its user saw: the bytes that `poll_write` accepted, the buffer of
the `poll_write` that failed, the bytes accepted before the last successful flush, the
bytes that `poll_read` delivered. -/
structure End where
  stream : EncryptedStream
  accepted : Bytes
  refused : Bytes
  flushed : Bytes
  writeFailed : Bool
  delivered : Bytes
  readFailed : Bool
  deriving DecidableEq

namespace End

def wrote (writer : End) (buf : Bytes) (stream : EncryptedStream) : Poll Nat → End
  | .pending => { writer with stream }
  | .ok count => { writer with stream, accepted := writer.accepted ++ buf.take count }
  | .err _ => { writer with stream, refused := buf, writeFailed := true }

def flushedTo (writer : End) (stream : EncryptedStream) : Poll Unit → End
  | .pending => { writer with stream }
  | .ok () => { writer with stream, flushed := writer.accepted }
  | .err _ => { writer with stream, writeFailed := true }

def shutTo (writer : End) (stream : EncryptedStream) : Poll Unit → End
  | .err _ => { writer with stream, writeFailed := true }
  | _ => { writer with stream }

def read (reader : End) (stream : EncryptedStream) : Poll Bytes → End
  | .pending => { reader with stream }
  | .ok bytes => { reader with stream, delivered := reader.delivered ++ bytes }
  | .err failure => { reader with stream, readFailed := reader.readFailed || failure.tampering }

end End

/-- The two ends, and for each of them the channel that it writes to. -/
structure Link where
  ends : EncryptionRole → End
  channels : EncryptionRole → Channel

inductive LinkMove where
  | write (role : EncryptionRole) (elapsed : Nat) (buf : Bytes) (earlier own : List InnerWrite)
  | flush (role : EncryptionRole) (answers : List InnerWrite) (inner : InnerDone)
  | shutdown (role : EncryptionRole) (answers : List InnerWrite) (inner : InnerDone)
  | read (role : EncryptionRole) (room : Nat) (polls : List InnerPoll)
  | tamper (role : EncryptionRole) (bytes : Bytes)
  | close (role : EncryptionRole)

/-- The attacker interferes with what the role writes. -/
def LinkMove.Alters (role : EncryptionRole) : LinkMove → Prop
  | tamper owner _ => owner = role
  | close owner => owner = role
  | _ => False

/-- What the two ends share, and their budgets. -/
structure LinkConfig where
  sha256 : Bytes → Nonce
  iv : Bytes
  encrypt : Nonce → Bytes → Option Bytes
  budget : EncryptionRole → AeadUsageBudget

namespace LinkConfig

def base (config : LinkConfig) : EncryptionRole → Nonce
  | .initiator => (deriveNonceBases config.sha256 config.iv).1
  | .responder => (deriveNonceBases config.sha256 config.iv).2

/-- The digests of the two labels do not meet within the budgets: no counter of one
direction gives the nonce of any counter of the other. -/
def Apart (config : LinkConfig) : Prop :=
  ∀ role first second, first < (config.budget role).maxRecordsPerDirection →
    second < (config.budget role).maxRecordsPerDirection →
    makeNonce (config.base .initiator) first ≠ makeNonce (config.base .responder) second

/-- The ciphertext is as long as the plaintext and the tag. -/
def Sized (config : LinkConfig) : Prop :=
  ∀ nonce plaintext ciphertext, config.encrypt nonce plaintext = some ciphertext →
    ciphertext.length = plaintext.length + tagLen

end LinkConfig

namespace Link

def start (config : LinkConfig) : Link where
  ends role :=
    { stream := .newWithBudget config.sha256 config.iv role (config.budget role)
      accepted := [], refused := [], flushed := [], writeFailed := false, delivered := []
      readFailed := false }
  channels _ := ⟨[], false⟩

/-- The ideal cipher opens what an end encrypted. -/
def decrypt (link : Link) (nonce : Nonce) (ciphertext : Bytes) : Option Bytes :=
  (((link.ends .initiator).stream.sealed ++ (link.ends .responder).stream.sealed).find?
    fun record => record.nonce == nonce && record.ciphertext == ciphertext).map
      SealedRecord.plaintext

def put (link : Link) (role : EncryptionRole) (moved : End) (owner : EncryptionRole)
    (channel : Channel) : Link where
  ends := Function.update link.ends role moved
  channels := Function.update link.channels owner channel

section Put

variable (link : Link) (role owner : EncryptionRole) (moved : End) (channel : Channel)

@[simp]
theorem ends_put : (link.put role moved owner channel).ends role = moved := Function.update_self ..

@[simp]
theorem ends_put_peer : (link.put role moved owner channel).ends role.peer = link.ends role.peer :=
  Function.update_of_ne role.peer_ne ..

@[simp]
theorem channels_put : (link.put role moved owner channel).channels owner = channel :=
  Function.update_self ..

@[simp]
theorem channels_put_peer :
    (link.put role moved owner channel).channels owner.peer = link.channels owner.peer :=
  Function.update_of_ne owner.peer_ne ..

end Put

/-- A writer is not used again after an error, a closed channel does not open again. -/
def move (config : LinkConfig) (link : Link) : LinkMove → Option Link
  | .write role elapsed buf earlier own =>
    let writer := link.ends role
    if writer.writeFailed then none
    else
      let (result, stream, channel) := writer.stream.pollWrite config.encrypt elapsed buf
        earlier own (link.channels role)
      some (link.put role (writer.wrote buf stream result) role channel)
  | .flush role answers inner =>
    let writer := link.ends role
    if writer.writeFailed then none
    else
      let (result, stream, channel) := writer.stream.pollFlush answers inner (link.channels role)
      some (link.put role (writer.flushedTo stream result) role channel)
  | .shutdown role answers inner =>
    let writer := link.ends role
    if writer.writeFailed then none
    else
      let (result, stream, channel) := writer.stream.pollShutdown answers inner (link.channels role)
      some (link.put role (writer.shutTo stream result) role channel)
  | .read role room polls =>
    let reader := link.ends role
    let (result, stream, channel) :=
      reader.stream.pollRead link.decrypt room polls (link.channels role.peer)
    some (link.put role (reader.read stream result) role.peer channel)
  | .tamper role bytes =>
    if (link.channels role).closed then none
    else some (link.put role (link.ends role) role ⟨bytes, false⟩)
  | .close role =>
    some (link.put role (link.ends role) role { link.channels role with closed := true })

end Link

def plaintexts (records : List SealedRecord) : Bytes := records.flatMap SealedRecord.plaintext

@[simp]
theorem plaintexts_append (first second : List SealedRecord) :
    plaintexts (first ++ second) = plaintexts first ++ plaintexts second := by simp [plaintexts]

theorem plaintexts_take_isPrefix (records : List SealedRecord) (count : Nat) :
    plaintexts (records.take count) <+: plaintexts records := by
  refine ⟨plaintexts (records.drop count), ?_⟩
  rw [← plaintexts_append, take_append_drop]

theorem plaintexts_take_succ {records : List SealedRecord} {count} {record : SealedRecord}
    (hrec : records[count]? = some record) :
    plaintexts (records.take (count + 1)) =
      plaintexts (records.take count) ++ record.plaintext := by
  simp [plaintexts, take_add_one, hrec]

variable {config : LinkConfig} {role : EncryptionRole} {stream after : EncryptedStream}
  {channel behind : Channel} {records : List SealedRecord} {delivered : Bytes} {result : Poll Unit}

section Ends

variable {writer : End}

/-- The records of a writer are numbered, stay within its budget and hold what it
accepted, and perhaps a part of what its last call offered. -/
structure Writing (config : LinkConfig) (role : EncryptionRole) (writer : End) : Prop where
  base : writer.stream.writeNonceBase = config.base role
  budget : writer.stream.budget = config.budget role
  records : ∀ index record, writer.stream.sealed[index]? = some record →
    record.nonce = makeNonce (config.base role) index ∧ record.plaintext ≠ [] ∧
      record.plaintext.length ≤ maxPlaintext ∧
      config.encrypt record.nonce record.plaintext = some record.ciphertext
  behind : writer.stream.sealed.length ≤ writer.stream.writeSeq
  numbered : writer.writeFailed = false → writer.stream.writeSeq = writer.stream.sealed.length
  recordBudget : writer.stream.writeSeq ≤ (config.budget role).maxRecordsPerDirection
  recordsFit : writer.stream.writeSeq < 2 ^ 64
  bytes : writer.stream.writePlaintextBytes = (plaintexts writer.stream.sealed).length
  byteBudget : writer.stream.writePlaintextBytes ≤
    (config.budget role).maxPlaintextBytesPerDirection
  bytesFit : writer.stream.writePlaintextBytes < 2 ^ 64
  accepted : writer.accepted <+: plaintexts writer.stream.sealed
  offered : plaintexts writer.stream.sealed <+: writer.accepted ++ writer.refused
  complete : writer.writeFailed = false → plaintexts writer.stream.sealed = writer.accepted

section Writers

variable (hwrite : Writing config role writer)

include hwrite

theorem Writing.quiet {moved} (hbase : moved.stream.writeNonceBase = writer.stream.writeNonceBase)
    (hbudg : moved.stream.budget = writer.stream.budget)
    (hseq : moved.stream.writeSeq = writer.stream.writeSeq)
    (hbytes : moved.stream.writePlaintextBytes = writer.stream.writePlaintextBytes)
    (hsealed : moved.stream.sealed = writer.stream.sealed)
    (hacc : moved.accepted = writer.accepted)
    (href : writer.writeFailed = false ∨ moved.refused = writer.refused)
    (hfail : moved.writeFailed = false → writer.writeFailed = false) :
    Writing config role moved where
  base := hbase.trans hwrite.base
  budget := hbudg.trans hwrite.budget
  records := by rw [hsealed]; exact hwrite.records
  behind := by rw [hsealed, hseq]; exact hwrite.behind
  numbered hopen := by rw [hsealed, hseq]; exact hwrite.numbered (hfail hopen)
  recordBudget := by rw [hseq]; exact hwrite.recordBudget
  recordsFit := by rw [hseq]; exact hwrite.recordsFit
  bytes := by rw [hbytes, hsealed]; exact hwrite.bytes
  byteBudget := by rw [hbytes]; exact hwrite.byteBudget
  bytesFit := by rw [hbytes]; exact hwrite.bytesFit
  accepted := by rw [hacc, hsealed]; exact hwrite.accepted
  offered := by
    rw [hsealed, hacc]
    rcases href with hopen | href
    · rw [hwrite.complete hopen]
      exact prefix_append _ _
    · rw [href]
      exact hwrite.offered
  complete hopen := by rw [hsealed, hacc]; exact hwrite.complete (hfail hopen)

theorem Writing.drained {result} (hdrain : writer.stream.Drained channel result after behind) :
    Writing config role { writer with stream := after } := by
  cases hdrain
  all_goals exact hwrite.quiet rfl rfl rfl rfl rfl rfl (.inr rfl) id

theorem Writing.fail {result} (hopen : writer.writeFailed = false) (refused : Bytes)
    (hdrain : writer.stream.Drained channel result after behind) :
    Writing config role { writer with stream := after, refused, writeFailed := true } :=
  (hwrite.drained hdrain).quiet rfl rfl rfl rfl rfl rfl (.inl hopen) nofun

/-- A record is sealed, and the user learns that its bytes were accepted or that the call
failed. -/
theorem Writing.seal {moved result} (hopen : writer.writeFailed = false)
    (hchunk : chunk ≠ []) (hshort : chunk.length ≤ maxPlaintext)
    (hseal : writer.stream.sealRecord config.encrypt chunk = (.ok (), record))
    (hdrain : record.Drained between result moved.stream behind)
    (hacc : moved.accepted <+: writer.accepted ++ chunk)
    (hoffered : writer.accepted ++ chunk <+: moved.accepted ++ moved.refused)
    (hcomplete : moved.writeFailed = false → writer.accepted ++ chunk = moved.accepted) :
    Writing config role moved := by
  rcases sealRecord_cases hseal with
    ⟨_, herror, -⟩ | ⟨_, herror, -⟩ | ⟨ciphertext, -, hrecs, hnext, hbytes, hfits, henc, rfl⟩
  · cases herror
  · cases herror
  obtain ⟨_, hstream⟩ := hdrain.writeBuf_only
  have hnumber := hwrite.numbered hopen
  have hplain : plaintexts moved.stream.sealed = writer.accepted ++ chunk := by
    rw [hstream, plaintexts_append, hwrite.complete hopen]
    simp [plaintexts]
  rw [hwrite.budget] at hrecs hbytes
  exact {
    base := by rw [hstream]; exact hwrite.base
    budget := by rw [hstream]; exact hwrite.budget
    records := by
      intro index record hrec
      rw [hstream, getElem?_append] at hrec
      split at hrec
      · exact hwrite.records index record hrec
      next hlast =>
      rw [getElem?_singleton] at hrec
      split at hrec
      · next hzero =>
        have hindex : writer.stream.writeSeq = index := by omega
        cases hrec
        rw [← hwrite.base, ← hindex]
        exact ⟨rfl, hchunk, hshort, henc⟩
      · cases hrec
    behind := by
      rw [hstream, length_append]
      exact Nat.add_le_add_right hwrite.behind 1
    numbered := fun _ => by
      rw [hstream, length_append]
      exact congrArg (· + 1) hnumber
    recordBudget := by rw [hstream]; exact hrecs
    recordsFit := by rw [hstream]; exact hnext
    bytes := by rw [hplain, hstream, length_append, ← hwrite.complete hopen, ← hwrite.bytes]
    byteBudget := by rw [hstream]; exact hbytes
    bytesFit := by rw [hstream]; exact hfits
    accepted := by rw [hplain]; exact hacc
    offered := by rw [hplain]; exact hoffered
    complete := fun hfine => hplain.trans (hcomplete hfine) }

theorem Writing.wrote {buf result} (hopen : writer.writeFailed = false)
    (hwrote : writer.stream.Wrote config.encrypt buf channel result after behind) :
    Writing config role (writer.wrote buf after result) := by
  have hshort : (buf.take (min buf.length maxPlaintext)).length ≤ maxPlaintext := by
    rw [length_take]
    omega
  have hchunk (hbuf : buf ≠ []) : buf.take (min buf.length maxPlaintext) ≠ [] := by
    have hpos := length_pos_iff.mpr hbuf
    apply length_pos_iff.mp
    rw [length_take, maxPlaintext]
    omega
  cases hwrote with
  | refused => exact hwrite.quiet rfl rfl rfl rfl rfl rfl (.inl hopen) nofun
  | waiting hdrain => exact hwrite.drained hdrain
  | broken hdrain => exact hwrite.fail hopen buf hdrain
  | nothing hdrain _ =>
    exact (hwrite.drained hdrain).quiet rfl rfl rfl rfl rfl (by simp [End.wrote]) (.inr rfl) id
  | @unsealed _ middle _ _ hdrain hseal =>
    have hmid := hwrite.fail hopen buf hdrain
    rcases sealRecord_cases hseal with
      ⟨_, -, rfl⟩ | ⟨_, -, hrecs, hnext, rfl⟩ | ⟨_, hok, -⟩
    · exact hmid
    · rw [hmid.budget] at hrecs
      exact { hmid with
        behind := Nat.le_succ_of_le hmid.behind
        numbered := nofun
        recordBudget := hrecs
        recordsFit := hnext }
    · cases hok
  | sealed _ hdrain hbuf hseal hrec _ =>
    exact (hwrite.drained hdrain).seal hopen (hchunk hbuf) hshort hseal hrec (prefix_refl _)
      (prefix_append _ _) fun _ => rfl
  | sealedBroken _ hdrain hbuf hseal hrec =>
    exact (hwrite.drained hdrain).seal hopen (hchunk hbuf) hshort hseal hrec
      (prefix_append _ _) ((prefix_append_right_inj _).mpr (List.take_prefix _ _)) nofun

end Writers

/-- A reader has the plaintexts of the first records, the last of them perhaps not yet
delivered.  As long as its buffer has room it counts these records. -/
structure Reading (config : LinkConfig) (role : EncryptionRole) (records : List SealedRecord)
    (delivered : Bytes) (stream : EncryptedStream) : Prop where
  base : stream.readNonceBase = config.base role
  budget : stream.budget = config.budget role.peer
  delivered : ∃ count ≤ records.length,
    delivered ++ stream.plaintext = plaintexts (records.take count) ∧
      (stream.capacity = 0 ∨ stream.readSeq = count)
  boundary : stream.plaintext ≠ [] → stream.AtBoundary
  eof : stream.readEof = true → stream.AtBoundary ∧ stream.firstRecordReceived = true

/-- The reader finds under the nonce of a counter only the record of that number.  The
ideal cipher provides this while the nonces of the two directions stay apart. -/
def Authentic (config : LinkConfig) (role : EncryptionRole) (records : List SealedRecord)
    (decrypt : Nonce → Bytes → Option Bytes) : Prop :=
  ∀ seq ciphertext plaintext,
    seq < (config.budget role.peer).maxRecordsPerDirection → seq + 1 < 2 ^ 64 →
    decrypt (makeNonce (config.base role) seq) ciphertext = some plaintext →
    ∃ record, records[seq]? = some record ∧ plaintext = record.plaintext

namespace EncryptedStream

theorem not_atBoundary_of_capacity (hfull : stream.capacity = 0) : ¬stream.AtBoundary := by
  rintro ⟨hphase, hheader⟩
  simp [capacity, hphase, hheader, lenField] at hfull

theorem AtBoundary.capacity_pos (hbdry : stream.AtBoundary) : 0 < stream.capacity :=
  Nat.pos_of_ne_zero fun hfull => not_atBoundary_of_capacity hfull hbdry

/-- A turn takes bytes that the buffer has room for, or it takes none and returns. -/
theorem Turn.takes_or_stays {decrypt result}
    (hturn : stream.Turn decrypt channel result after behind) :
    (0 < stream.capacity ∧ ∃ bytes ≠ [], channel.bytes = bytes ++ behind.bytes) ∨
      result ≠ none ∧ behind = channel ∧ after.plaintext = stream.plaintext ∧
        after.capacity = stream.capacity := by
  cases hturn
  case paused | ended | finished => exact .inr ⟨Option.some_ne_none _, rfl, rfl, rfl⟩
  case header hphase hbytes hlen hchan _ | badLength hphase hbytes hlen _ hchan _ |
      headerDone hphase hbytes hlen _ hchan _ | body hphase hbytes hlen hchan _ |
      bodyDone hphase hbytes hlen _ hchan _ =>
    refine .inl ⟨?_, _, hbytes, hchan⟩
    have hpos := length_pos_iff.mpr hbytes
    rw [length_append] at hlen
    simp only [capacity, hphase]
    omega

end EncryptedStream

theorem Reading.quiet (hreading : Reading config role records delivered stream)
    (hbase : after.readNonceBase = stream.readNonceBase) (hbudg : after.budget = stream.budget)
    (hempty : stream.plaintext = []) (hplain : after.plaintext = [])
    (hcount : after.capacity = 0 ∨ 0 < stream.capacity ∧ after.readSeq = stream.readSeq)
    (heof : after.readEof = true → after.AtBoundary ∧ after.firstRecordReceived = true) :
    Reading config role records delivered after where
  base := hbase.trans hreading.base
  budget := hbudg.trans hreading.budget
  delivered := by
    obtain ⟨count, hle, hdeliv, hseq⟩ := hreading.delivered
    refine ⟨count, hle, by rwa [hplain, ← hempty], ?_⟩
    rcases hcount with hfull | ⟨hroom, hsame⟩
    · exact .inl hfull
    · exact .inr (hsame.trans (hseq.resolve_left (Nat.ne_of_gt hroom)))
  boundary hne := absurd hplain hne
  eof := heof

/-- A turn reads on, or the buffer stays full for good. -/
theorem Reading.turn {decrypt : Nonce → Bytes → Option Bytes} {result : Option (Poll Bytes)}
    (hauthn : Authentic config role records decrypt)
    (hreading : Reading config role records delivered stream)
    (hempty : stream.plaintext = []) (hopen : stream.readEof = false)
    (hturn : stream.Turn decrypt channel result after behind) :
    Reading config role records delivered after := by
  have hnever {anything : Prop} (heof : stream.readEof = true) : anything := by
    rw [hopen] at heof
    cases heof
  have hroom (hnone : result = none) : 0 < stream.capacity :=
    (hturn.takes_or_stays.resolve_right fun hstays => hstays.1 hnone).1
  cases hturn with
  | paused | ended => exact hreading
  | finished _ hbdry hfirst =>
    exact hreading.quiet rfl rfl hempty hempty
      (.inr ⟨hbdry.capacity_pos, rfl⟩) fun _ => ⟨hbdry, hfirst⟩
  | header | headerDone | body =>
    exact hreading.quiet rfl rfl hempty hempty (.inr ⟨hroom rfl, rfl⟩) hnever
  | badLength hphase _ _ _ hlen _ =>
    refine hreading.quiet rfl rfl hempty hempty (.inl ?_) hnever
    simp only [capacity, hphase, hlen, Nat.sub_self]
  | @bodyDone bytes _ _ _ hphase hbytes _ _ hlen hrec =>
    have hfull : ({ stream with body := stream.body ++ bytes } : EncryptedStream).capacity =
        0 := by simp only [capacity, hphase, hlen, Nat.sub_self]
    have hroom : 0 < stream.capacity := by
      have hpos := length_pos_iff.mpr hbytes
      rw [length_append] at hlen
      simp only [capacity, hphase]
      omega
    rcases openRecord_cases hrec with
      ⟨_, -, -, rfl⟩ | ⟨-, rfl⟩ | ⟨plaintext, -, hbudg, hfits, hdecr, rfl⟩
    · exact hreading.quiet rfl rfl hempty hempty (.inl hfull) hnever
    · exact hreading.quiet rfl rfl hempty hempty (.inl hfull) hnever
    · obtain ⟨count, hle, hdeliv, hseq⟩ := hreading.delivered
      have hcount := hseq.resolve_left (Nat.ne_of_gt hroom)
      rw [hreading.budget] at hbudg
      rw [hreading.base] at hdecr
      obtain ⟨record, hfound, rfl⟩ := hauthn _ _ _ hbudg hfits hdecr
      rw [hempty, append_nil] at hdeliv
      rw [hcount] at hfound
      refine ⟨hreading.base, hreading.budget, ⟨count + 1, ?_, ?_, .inr ?_⟩,
        fun _ => ⟨rfl, rfl⟩, hnever⟩
      · exact (List.getElem?_eq_some_iff.mp hfound).1
      · rw [plaintexts_take_succ hfound, hdeliv]
      · exact congrArg (· + 1) hcount

end Ends

/-! ## Whole polls -/

section Polls

variable {decrypt : Nonce → Bytes → Option Bytes}

theorem Writing.flushedTo {answers inner} (hwrite : Writing config role writer)
    (hflush : writer.stream.pollFlush answers inner channel = (result, after, behind)) :
    Writing config role (writer.flushedTo after result) := by
  obtain ⟨_, hdrain, -⟩ := pollFlush_cases hflush
  have hmoved := hwrite.drained hdrain
  cases result with
  | pending => exact hmoved
  | ok => exact hmoved.quiet rfl rfl rfl rfl rfl rfl (.inr rfl) id
  | err => exact hmoved.quiet rfl rfl rfl rfl rfl rfl (.inr rfl) nofun

theorem Writing.shutTo {answers inner} (hwrite : Writing config role writer)
    (hshut : writer.stream.pollShutdown answers inner channel = (result, after, behind)) :
    Writing config role (writer.shutTo after result) := by
  have hmoved : Writing config role { writer with stream := after } := by
    rcases pollShutdown_cases hshut with
      ⟨hdrain, -⟩ | ⟨_, _, _, hdrain, rfl, -⟩
    · exact hwrite.drained hdrain
    · exact (hwrite.drained hdrain).quiet rfl rfl rfl rfl rfl rfl (.inr rfl) id
  cases result with
  | pending | ok => exact hmoved
  | err => exact hmoved.quiet rfl rfl rfl rfl rfl rfl (.inr rfl) nofun

def Poll.bytes : Poll Bytes → Bytes
  | .ok bytes => bytes
  | _ => []

variable {outcome : Poll Bytes}

theorem EncryptedStream.Turn.bytes_eq_nil
    (hturn : stream.Turn decrypt channel (some outcome) after behind) : outcome.bytes = [] := by
  cases hturn with
  | paused hres => rcases hres with rfl | rfl | rfl <;> rfl
  | ended => rfl
  | finished => rfl
  | badLength => rfl
  | bodyDone _ _ _ _ _ hopen =>
    rcases openRecord_cases hopen with ⟨_, hres, -⟩ | ⟨hres, -⟩ | ⟨_, hres, -⟩ <;>
      cases hres <;> rfl

variable {room : Nat} {polls : List InnerPoll}

theorem Reading.pollRead (hauthn : Authentic config role records decrypt)
    (hreading : Reading config role records delivered stream)
    (hread : stream.pollRead decrypt room polls channel = (outcome, after, behind)) :
    Reading config role records (delivered ++ outcome.bytes) after := by
  apply pollRead_rule (fun now _ => Reading config role records delivered now)
    (fun outcome now _ => Reading config role records (delivered ++ outcome.bytes) now)
    _ _ _ _ _ hreading hread
  · intro now _ hnow hplain
    obtain ⟨count, hle, hdeliv, hseq⟩ := hnow.delivered
    refine ⟨hnow.base, hnow.budget, ⟨count, hle, ?_, hseq⟩, fun _ => hnow.boundary hplain, hnow.eof⟩
    rw [← hdeliv, append_assoc, Poll.bytes, take_append_drop]
  · intro now _ hnow _ _
    rwa [Poll.bytes, append_nil]
  · intro now _ hnow _ _
    change Reading config role records (delivered ++ []) now
    rwa [append_nil]
  · intro now _ outcome next _ hnow hempty hopen hturn
    rw [hturn.bytes_eq_nil, append_nil]
    exact hnow.turn hauthn hempty hopen hturn
  · intro now _ next _ hnow hempty hopen hturn
    exact hnow.turn hauthn hempty hopen hturn

/-- Nothing more comes out: the buffer is full or the transport has ended.  Both are
final, whatever is called on the reader. -/
def Dead (stream : EncryptedStream) (channel : Channel) : Prop :=
  stream.plaintext = [] ∧ (stream.capacity = 0 ∨ channel.bytes = [] ∧ channel.closed = true)

theorem Dead.turn {outcome} (hdead : Dead stream channel)
    (hturn : stream.Turn decrypt channel outcome after behind) :
    outcome ≠ none ∧ Dead after behind := by
  obtain ⟨hempty, hstop⟩ := hdead
  rcases hturn.takes_or_stays with
    ⟨hroom, bytes, hbytes, hchan⟩ | ⟨hsome, rfl, hplain, hcapacity⟩
  · have hended := hstop.resolve_left (Nat.ne_of_gt hroom)
    rw [hended.1] at hchan
    exact absurd (append_eq_nil_iff.mp hchan.symm).1 hbytes
  · exact ⟨hsome, hplain.trans hempty, by rwa [hcapacity]⟩

theorem Dead.pollRead (hdead : Dead stream channel)
    (hread : stream.pollRead decrypt room polls channel = (outcome, after, behind)) :
    outcome.bytes = [] ∧ Dead after behind := by
  apply pollRead_rule Dead
    (fun outcome now next => outcome.bytes = [] ∧ Dead now next) _ _ _ _ _ hdead hread
  · exact fun _ _ hnow hplain => absurd hnow.1 hplain
  · exact fun _ _ hnow _ _ => ⟨rfl, hnow⟩
  · exact fun _ _ hnow _ _ => ⟨rfl, hnow⟩
  · exact fun _ _ _ _ _ hnow _ _ hturn => ⟨hturn.bytes_eq_nil, (hnow.turn hturn).2⟩
  · exact fun _ _ _ _ hnow _ _ hturn => (hnow.turn hturn).2

/-- An authentication, length or truncation error leaves the reader dead. -/
theorem dead_of_tampering {failure}
    (hread : stream.pollRead decrypt room polls channel = (.err failure, after, behind))
    (htampering : failure.tampering = true) : Dead after behind := by
  apply pollRead_rule (fun _ _ => True)
    (fun outcome now next => outcome = .err failure → Dead now next)
    _ _ _ _ _ trivial hread rfl
  · exact fun _ _ _ _ => nofun
  · exact fun _ _ _ _ _ => nofun
  · exact fun _ _ _ _ _ => nofun
  · intro now next outcome after behind _ hempty _ hturn herror
    cases hturn with
    | paused hres =>
      rw [herror] at hres
      rcases hres with hres | hres | hres <;> cases hres <;> cases htampering
    | ended hend => exact ⟨hempty, hend⟩
    | finished => cases herror
    | badLength hphase _ _ _ hlen _ =>
      refine ⟨hempty, .inl ?_⟩
      simp only [capacity, hphase, hlen, Nat.sub_self]
    | bodyDone hphase _ _ _ hlen hopen =>
      rcases openRecord_cases hopen with
        ⟨_, hres, hfine, -⟩ | ⟨-, rfl⟩ | ⟨_, hres, -⟩
      · cases hres
        cases herror
        rw [hfine] at htampering
        cases htampering
      · refine ⟨hempty, .inl ?_⟩
        simp only [capacity, hphase, hlen, Nat.sub_self]
      · cases hres
  · exact fun _ _ _ _ _ _ _ _ => trivial

end Polls

section Invariant

variable {actor : EncryptionRole} {link next : Link}

/-- One direction: the role writes and its peer reads.  The reader is related to the
records of the writer, not to the bytes in transit, which the attacker may have changed. -/
structure Direction (config : LinkConfig) (role : EncryptionRole) (link : Link) : Prop where
  writing : Writing config role (link.ends role)
  reading : Reading config role (link.ends role).stream.sealed (link.ends role.peer).delivered
    (link.ends role.peer).stream
  dead : (link.ends role.peer).readFailed = true →
    Dead (link.ends role.peer).stream (link.channels role)

def Secured (config : LinkConfig) (link : Link) : Prop := ∀ role, Direction config role link

theorem secured_start : Secured config (Link.start config) := by
  intro role
  refine ⟨?_, ?_, nofun⟩
  · constructor <;> cases role <;> simp [Link.start, newWithBudget, LinkConfig.base, plaintexts]
  · constructor <;> cases role <;> simp [Link.start, newWithBudget,
      LinkConfig.base, plaintexts, peer]

theorem Reading.append (hreading : Reading config role records delivered stream)
    (more : List SealedRecord) : Reading config role (records ++ more) delivered stream := by
  obtain ⟨count, hle, hdeliv, hseq⟩ := hreading.delivered
  refine ⟨hreading.base, hreading.budget, ⟨count, ?_, ?_, hseq⟩, hreading.boundary, hreading.eof⟩
  · rw [length_append]
    exact Nat.le_add_right_of_le hle
  · rwa [take_append_of_le_length hle]

theorem Reading.sameReading (hreading : Reading config role records delivered stream)
    (hsame : stream.SameReading after) : Reading config role records delivered after := by
  obtain ⟨_, _, _, _, _, rfl⟩ := hsame
  exact ⟨hreading.base, hreading.budget, hreading.delivered, hreading.boundary, hreading.eof⟩

theorem Dead.sameReading (hdead : Dead stream channel) (hsame : stream.SameReading after) :
    Dead after channel := by
  obtain ⟨_, _, _, _, _, rfl⟩ := hsame
  exact hdead

theorem Dead.kept (hdead : Dead stream channel)
    (hkept : channel.closed = true → behind = channel) : Dead stream behind := by
  refine ⟨hdead.1, hdead.2.imp_right fun hended => ?_⟩
  rw [hkept hended.2]
  exact hended

/-- The ideal cipher opens under a nonce of the reader only the record that the writer
numbered so: nonces of the other direction and of other numbers differ. -/
theorem authentic_decrypt (hapart : config.Apart) (hsec : Secured config link)
    (role : EncryptionRole) :
    Authentic config role (link.ends role).stream.sealed link.decrypt := by
  intro seq ciphertext plaintext hbudg hfits hdecr
  obtain ⟨record, hfound, rfl⟩ := Option.map_eq_some_iff.mp hdecr
  have hnonce : record.nonce = makeNonce (config.base role) seq := by
    have hmatch := find?_some hfound
    simp only [Bool.and_eq_true, beq_iff_eq] at hmatch
    exact hmatch.1
  have howner : ∃ owner, record ∈ (link.ends owner).stream.sealed :=
    (mem_append.mp (mem_of_find?_eq_some hfound)).elim (⟨_, ·⟩) (⟨_, ·⟩)
  obtain ⟨owner, hmem⟩ := howner
  have hwrite := (hsec owner).writing
  obtain ⟨index, hindex⟩ := mem_iff_getElem?.mp hmem
  have hnumber := (hwrite.records index record hindex).1
  have hlen := (List.getElem?_eq_some_iff.mp hindex).1
  have hbelow : index < (config.budget owner).maxRecordsPerDirection :=
    Nat.lt_of_lt_of_le hlen (Nat.le_trans hwrite.behind hwrite.recordBudget)
  rw [hnonce] at hnumber
  by_cases hsame : owner = role
  · subst hsame
    have hseq : seq = index := makeNonce_injective (by omega) (Nat.lt_of_lt_of_le hlen
        (Nat.le_trans hwrite.behind (Nat.le_of_lt hwrite.recordsFit))) hnumber
    exact ⟨record, hseq ▸ hindex, rfl⟩
  · obtain rfl := (owner.eq_or_eq_peer role).resolve_left hsame
    cases role with
    | initiator => exact absurd hnumber (hapart _ _ _ hbudg hbelow)
    | responder => exact absurd hnumber.symm (hapart _ _ _ hbelow hbudg)

/-- What the moves of a writer have in common. -/
structure WriterMoved (config : LinkConfig) (role : EncryptionRole) (before : End)
    (channel : Channel) (moved : End) (behind : Channel) : Prop where
  writing : Writing config role moved
  reading : before.stream.SameReading moved.stream
  records : ∃ more, moved.stream.sealed = before.stream.sealed ++ more
  delivered : moved.delivered = before.delivered
  readFailed : moved.readFailed = before.readFailed
  kept : channel.closed = true → behind = channel

theorem Secured.writerMoved {moved} (hsec : Secured config link)
    (hmoved : WriterMoved config actor (link.ends actor) (link.channels actor) moved behind) :
    Secured config (link.put actor moved actor behind) := by
  intro role
  rcases role.eq_or_eq_peer actor with rfl | rfl
  · obtain ⟨hwrite, hreading, hdead⟩ := hsec role
    obtain ⟨more, hrecs⟩ := hmoved.records
    constructor
    · rw [Link.ends_put]
      exact hmoved.writing
    · rw [Link.ends_put, Link.ends_put_peer, hrecs]
      exact hreading.append more
    · rw [Link.ends_put_peer, Link.channels_put]
      exact fun hfail => (hdead hfail).kept hmoved.kept
  · obtain ⟨hwrite, hreading, hdead⟩ := hsec actor.peer
    rw [peer_peer] at hreading hdead
    constructor
    · rw [Link.ends_put_peer]
      exact hwrite
    · rw [peer_peer, Link.ends_put, Link.ends_put_peer, hmoved.delivered]
      exact hreading.sameReading hmoved.reading
    · rw [peer_peer, Link.ends_put, Link.channels_put_peer, hmoved.readFailed]
      exact fun hfail => (hdead hfail).sameReading hmoved.reading

theorem EncryptedStream.Drained.kept
    (hdrain : stream.Drained channel result after behind) (hclosed : channel.closed = true) :
    behind = channel := by
  cases hdrain
  all_goals exact if_pos hclosed

variable {answers : List InnerWrite} {inner : InnerDone}

theorem EncryptedStream.kept_pollShutdown
    (hshut : pollShutdown answers inner stream channel = (result, after, behind))
    (hclosed : channel.closed = true) : behind = channel := by
  rcases pollShutdown_cases hshut with ⟨hdrain, -⟩ | ⟨_, _, _, hdrain, -, rfl⟩
  · exact hdrain.kept hclosed
  · obtain rfl := hdrain.kept hclosed
    rw [hclosed, Bool.true_or, ← hclosed]

theorem EncryptedStream.Drained.sealed_eq
    (hdrain : stream.Drained channel result after behind) : after.sealed = stream.sealed := by
  cases hdrain
  all_goals rfl

variable {buf : Bytes}

theorem EncryptedStream.Wrote.kept {result}
    (hwrote : stream.Wrote encrypt buf channel result after behind)
    (hclosed : channel.closed = true) : behind = channel := by
  cases hwrote with
  | refused => rfl
  | waiting hdrain | broken hdrain | nothing hdrain _ | unsealed hdrain _ =>
    exact hdrain.kept hclosed
  | sealed _ hdrain _ _ hrec _ | sealedBroken _ hdrain _ _ hrec =>
    obtain rfl := hdrain.kept hclosed
    exact hrec.kept hclosed

theorem EncryptedStream.sealed_sealRecord {outcome}
    (hseal : stream.sealRecord encrypt chunk = (outcome, after)) :
    ∃ more, after.sealed = stream.sealed ++ more := by
  rcases sealRecord_cases hseal with
    ⟨_, -, rfl⟩ | ⟨_, -, -, -, rfl⟩ | ⟨_, -, -, -, -, -, -, rfl⟩
  · exact ⟨[], (append_nil _).symm⟩
  · exact ⟨[], (append_nil _).symm⟩
  · exact ⟨_, rfl⟩

theorem EncryptedStream.Wrote.sealed_append {result}
    (hwrote : stream.Wrote encrypt buf channel result after behind) :
    ∃ more, after.sealed = stream.sealed ++ more := by
  cases hwrote with
  | refused => exact ⟨[], (append_nil _).symm⟩
  | waiting hdrain | broken hdrain | nothing hdrain _ =>
    exact ⟨[], by rw [hdrain.sealed_eq, append_nil]⟩
  | unsealed hdrain hseal => exact hdrain.sealed_eq ▸ sealed_sealRecord hseal
  | sealed _ hdrain _ hseal hrec _ | sealedBroken _ hdrain _ hseal hrec =>
    rw [hrec.sealed_eq, ← hdrain.sealed_eq]
    exact sealed_sealRecord hseal

theorem Writing.sameWriting {writer moved} (hwrite : Writing config role writer)
    (hsame : writer.stream.SameWriting moved.stream) (hacc : moved.accepted = writer.accepted)
    (href : moved.refused = writer.refused) (hfail : moved.writeFailed = writer.writeFailed) :
    Writing config role moved := by
  obtain ⟨_, _, _, _, _, _, _, _, _, hstream⟩ := hsame
  apply hwrite.quiet _ _ _ _ _ hacc (.inr href) fun hopen => hfail ▸ hopen
  all_goals rw [hstream]

section Read

variable (reader : End) (result : Poll Bytes)

theorem End.stream_read : (reader.read after result).stream = after := by cases result <;> rfl

theorem End.delivered_read :
    (reader.read after result).delivered = reader.delivered ++ result.bytes := by
  cases result <;> simp [End.read, Poll.bytes]

theorem End.accepted_read : (reader.read after result).accepted = reader.accepted := by
  cases result <;> rfl

theorem End.refused_read : (reader.read after result).refused = reader.refused := by
  cases result <;> rfl

theorem End.writeFailed_read : (reader.read after result).writeFailed = reader.writeFailed := by
  cases result <;> rfl

theorem End.readFailed_read (hfail : (reader.read after result).readFailed = true) :
    reader.readFailed = true ∨ ∃ failure, result = .err failure ∧ failure.tampering = true := by
  cases result with
  | pending | ok => exact .inl hfail
  | err failure =>
    exact (Bool.or_eq_true_iff.mp hfail).imp_right fun htampering => ⟨failure, rfl, htampering⟩

end Read

theorem Secured.read (hapart : config.Apart) (hsec : Secured config link) {room polls result}
    (hread : (link.ends actor).stream.pollRead link.decrypt room polls
      (link.channels actor.peer) = (result, after, behind)) :
    Secured config (link.put actor ((link.ends actor).read after result) actor.peer behind) := by
  have hsame := sameWriting_pollRead hread
  intro role
  rcases role.eq_or_eq_peer actor with rfl | rfl
  · obtain ⟨hwrite, hreading, hdead⟩ := hsec role
    have hchannels := Link.channels_put_peer link role role.peer
      ((link.ends role).read after result) behind
    rw [peer_peer] at hchannels
    constructor
    · rw [Link.ends_put]
      exact hwrite.sameWriting (by rwa [End.stream_read]) (End.accepted_read ..)
        (End.refused_read ..) (End.writeFailed_read ..)
    · rw [Link.ends_put, Link.ends_put_peer, End.stream_read]
      obtain ⟨_, _, _, _, _, _, _, _, _, rfl⟩ := hsame
      exact hreading
    · rw [Link.ends_put_peer, hchannels]
      exact hdead
  · obtain ⟨hwrite, hreading, hdead⟩ := hsec actor.peer
    have hauthn := authentic_decrypt hapart hsec actor.peer
    rw [peer_peer] at hreading hdead
    have hmoved := hreading.pollRead hauthn hread
    constructor
    · rw [Link.ends_put_peer]
      exact hwrite
    · rw [peer_peer, Link.ends_put, Link.ends_put_peer, End.stream_read, End.delivered_read]
      exact hmoved
    · rw [peer_peer, Link.ends_put, Link.channels_put, End.stream_read]
      intro hfail
      rcases End.readFailed_read _ _ hfail with hbefore | ⟨failure, herror, htampering⟩
      · exact ((hdead hbefore).pollRead hread).2
      · rw [herror] at hread
        exact dead_of_tampering hread htampering

inductive Moved (config : LinkConfig) (link : Link) : LinkMove → Link → Prop
  | write {role : EncryptionRole} {elapsed : Nat} {buf : Bytes} {earlier own : List InnerWrite}
      {result : Poll Nat} {stream : EncryptedStream} {channel : Channel}
      (hopen : (link.ends role).writeFailed = false)
      (hwrote : (link.ends role).stream.Wrote config.encrypt buf (link.channels role) result
        stream channel) :
      Moved config link (.write role elapsed buf earlier own)
        (link.put role ((link.ends role).wrote buf stream result) role channel)
  | flush {role : EncryptionRole} {answers : List InnerWrite} {inner : InnerDone}
      {result : Poll Unit} {stream : EncryptedStream} {channel : Channel}
      (hopen : (link.ends role).writeFailed = false)
      (hflush : (link.ends role).stream.pollFlush answers inner (link.channels role) =
        (result, stream, channel)) :
      Moved config link (.flush role answers inner)
        (link.put role ((link.ends role).flushedTo stream result) role channel)
  | shutdown {role : EncryptionRole} {answers : List InnerWrite} {inner : InnerDone}
      {result : Poll Unit} {stream : EncryptedStream} {channel : Channel}
      (hopen : (link.ends role).writeFailed = false)
      (hshutdown : (link.ends role).stream.pollShutdown answers inner (link.channels role) =
        (result, stream, channel)) :
      Moved config link (.shutdown role answers inner)
        (link.put role ((link.ends role).shutTo stream result) role channel)
  | read {role : EncryptionRole} {room : Nat} {polls : List InnerPoll}
      {result : Poll Bytes} {stream : EncryptedStream} {channel : Channel}
      (hread : (link.ends role).stream.pollRead link.decrypt room polls
        (link.channels role.peer) = (result, stream, channel)) :
      Moved config link (.read role room polls)
        (link.put role ((link.ends role).read stream result) role.peer channel)
  | tamper {role : EncryptionRole} {bytes : Bytes} (hopen : (link.channels role).closed = false) :
      Moved config link (.tamper role bytes) (link.put role (link.ends role) role ⟨bytes, false⟩)
  | close {role : EncryptionRole} : Moved config link (.close role)
        (link.put role (link.ends role) role { link.channels role with closed := true })

variable {label : LinkMove}

theorem moved_of_move (hmove : link.move config label = some next) :
    Moved config link label next := by
  cases label with
  | write role =>
    obtain ⟨hopen, hmove⟩ := Option.ite_none_left_eq_some.mp hmove
    cases hmove
    exact .write (by simpa using hopen) (wrote_pollWrite rfl)
  | flush role =>
    obtain ⟨hopen, hmove⟩ := Option.ite_none_left_eq_some.mp hmove
    cases hmove
    exact .flush (by simpa using hopen) rfl
  | shutdown role =>
    obtain ⟨hopen, hmove⟩ := Option.ite_none_left_eq_some.mp hmove
    cases hmove
    exact .shutdown (by simpa using hopen) rfl
  | read role =>
    cases hmove
    exact .read rfl
  | tamper role =>
    obtain ⟨hopen, hmove⟩ := Option.ite_none_left_eq_some.mp hmove
    cases hmove
    exact .tamper (by simpa using hopen)
  | close role =>
    cases hmove
    exact .close

variable {before : End}

theorem Writing.writerMoved_wrote {result} (hwrite : Writing config role before)
    (hopen : before.writeFailed = false)
    (hwrote : before.stream.Wrote config.encrypt buf channel result after behind) :
    WriterMoved config role before channel (before.wrote buf after result) behind where
  writing := hwrite.wrote hopen hwrote
  reading := by cases result <;> exact hwrote.sameReading
  records := by cases result <;> exact hwrote.sealed_append
  delivered := by cases result <;> rfl
  readFailed := by cases result <;> rfl
  kept := hwrote.kept

theorem Writing.writerMoved_flush (hwrite : Writing config role before)
    (hflush : before.stream.pollFlush answers inner channel = (result, after, behind)) :
    WriterMoved config role before channel (before.flushedTo after result) behind := by
  obtain ⟨_, hdrain, -⟩ := pollFlush_cases hflush
  have hsealed : ∃ more, after.sealed = before.stream.sealed ++ more :=
    ⟨[], by rw [hdrain.sealed_eq, append_nil]⟩
  exact {
    writing := hwrite.flushedTo hflush
    reading := by cases result <;> exact hdrain.sameReading
    records := by cases result <;> exact hsealed
    delivered := by cases result <;> rfl
    readFailed := by cases result <;> rfl
    kept := hdrain.kept }

theorem Writing.writerMoved_shutdown (hwrite : Writing config role before)
    (hshut : before.stream.pollShutdown answers inner channel = (result, after, behind)) :
    WriterMoved config role before channel (before.shutTo after result) behind := by
  have hsealed : ∃ more, after.sealed = before.stream.sealed ++ more := by
    refine ⟨[], ?_⟩
    rw [append_nil]
    rcases pollShutdown_cases hshut with
      ⟨hdrain, -⟩ | ⟨_, _, _, hdrain, rfl, -⟩
    · exact hdrain.sealed_eq
    · exact hdrain.sealed_eq
  have hsame := sameReading_pollShutdown hshut
  exact {
    writing := hwrite.shutTo hshut
    reading := by cases result <;> exact hsame
    records := by cases result <;> exact hsealed
    delivered := by cases result <;> rfl
    readFailed := by cases result <;> rfl
    kept := kept_pollShutdown hshut }

theorem Secured.interfere (hsec : Secured config link)
    (hkept : ∀ reader, Dead reader (link.channels actor) → Dead reader channel) :
    Secured config (link.put actor (link.ends actor) actor channel) := by
  have hends (role : EncryptionRole) :
      (link.put actor (link.ends actor) actor channel).ends role = link.ends role := by
    rw [Link.put, Function.update_eq_self]
  intro role
  obtain ⟨hwrite, hreading, hdead⟩ := hsec role
  constructor
  · rw [hends]
    exact hwrite
  · rw [hends, hends]
    exact hreading
  · rw [hends]
    intro hfail
    rcases role.eq_or_eq_peer actor with rfl | rfl
    · rw [Link.channels_put]
      exact hkept _ (hdead hfail)
    · rw [Link.channels_put_peer]
      exact hdead hfail

theorem Secured.moved (hapart : config.Apart)
    (hsec : Secured config link) (hmoved : Moved config link label next) :
    Secured config next := by
  cases hmoved with
  | @write role _ _ _ _ _ _ _ hopen hwrote =>
    exact hsec.writerMoved ((hsec role).writing.writerMoved_wrote hopen hwrote)
  | @flush role _ _ _ _ _ _ hflush =>
    exact hsec.writerMoved ((hsec role).writing.writerMoved_flush hflush)
  | @shutdown role _ _ _ _ _ _ hshut =>
    exact hsec.writerMoved ((hsec role).writing.writerMoved_shutdown hshut)
  | read hread => exact hsec.read hapart hread
  | tamper hopen =>
    refine hsec.interfere fun _ hdead => ⟨hdead.1, .inl (hdead.2.resolve_right ?_)⟩
    rintro ⟨-, hclosed⟩
    rw [hopen] at hclosed
    cases hclosed
  | close =>
    exact hsec.interfere fun _ hdead =>
      ⟨hdead.1, hdead.2.imp_right fun hended => ⟨hended.1, rfl⟩⟩

abbrev Link.Step (config : LinkConfig) (before : Link) (label : LinkMove) (after : Link) :
    Prop := before.move config label = some after

theorem secured_run (hapart : config.Apart)
    (hrun : Trace (Link.Step config) (Link.start config) labels link) : Secured config link :=
  hrun.preserves (Secured config)
    (fun _ _ _ _ hmove hsec => hsec.moved hapart (moved_of_move hmove)) secured_start

theorem Direction.delivered_isPrefix_sealed (hdir : Direction config role link) :
    (link.ends role.peer).delivered <+: plaintexts (link.ends role).stream.sealed := by
  obtain ⟨count, -, hdeliv, -⟩ := hdir.reading.delivered
  have hfirst : (link.ends role.peer).delivered <+:
      plaintexts ((link.ends role).stream.sealed.take count) := ⟨_, hdeliv⟩
  exact hfirst.trans (plaintexts_take_isPrefix _ _)

/-- What was delivered is a prefix of what the writer accepted and, if its last call
failed, of what that call offered. -/
theorem Direction.delivered_isPrefix (hdir : Direction config role link) :
    (link.ends role.peer).delivered <+: (link.ends role).accepted ++ (link.ends role).refused := by
  exact hdir.delivered_isPrefix_sealed.trans hdir.writing.offered

theorem Direction.delivered_isPrefix_accepted (hdir : Direction config role link)
    (hopen : (link.ends role).writeFailed = false) :
    (link.ends role.peer).delivered <+: (link.ends role).accepted := by
  rw [← hdir.writing.complete hopen]
  exact hdir.delivered_isPrefix_sealed

/-- What a move is for an end as a reader: nothing, or a read. -/
theorem Moved.reader (hmoved : Moved config link label next) (role : EncryptionRole) :
    ((next.ends role).delivered = (link.ends role).delivered ∧
        (next.ends role).readFailed = (link.ends role).readFailed) ∨
      ∃ room polls result stream channel,
        (link.ends role).stream.pollRead link.decrypt room polls (link.channels role.peer) =
          (result, stream, channel) ∧ next.ends role = (link.ends role).read stream result := by
  have hput {actor owner : EncryptionRole} {moved : End} {channel : Channel}
      (hdeliv : moved.delivered = (link.ends actor).delivered)
      (hfail : moved.readFailed = (link.ends actor).readFailed) :
      ((link.put actor moved owner channel).ends role).delivered = (link.ends role).delivered ∧
        ((link.put actor moved owner channel).ends role).readFailed =
          (link.ends role).readFailed := by
    rcases role.eq_or_eq_peer actor with rfl | rfl
    · rw [Link.ends_put]
      exact ⟨hdeliv, hfail⟩
    · rw [Link.ends_put_peer]
      exact ⟨rfl, rfl⟩
  cases hmoved with
  | @write _ _ _ _ _ result | @flush _ _ _ result | @shutdown _ _ _ result =>
    exact .inl (hput (by cases result <;> rfl) (by cases result <;> rfl))
  | @read actor _ _ _ _ _ hread =>
    rcases role.eq_or_eq_peer actor with rfl | rfl
    · exact .inr ⟨_, _, _, _, _, hread, Link.ends_put ..⟩
    · refine .inl ?_
      rw [Link.ends_put_peer]
      exact ⟨rfl, rfl⟩
  | tamper | close => exact .inl (hput rfl rfl)

theorem delivered_of_readFailed (hapart : config.Apart) (hsec : Secured config link)
    (hfail : (link.ends role).readFailed = true)
    (hrun : Trace (Link.Step config) link labels next) :
    (next.ends role).delivered = (link.ends role).delivered := by
  have hkept : Secured config next ∧ (next.ends role).readFailed = true ∧
      (next.ends role).delivered = (link.ends role).delivered := by
    refine hrun.preserves (fun now => Secured config now ∧ (now.ends role).readFailed = true ∧
      (now.ends role).delivered = (link.ends role).delivered) ?_ ⟨hsec, hfail, rfl⟩
    intro label _ before after hstep hbefore
    obtain ⟨hsec, hfail, hdeliv⟩ := hbefore
    have hmoved := moved_of_move hstep
    refine ⟨hsec.moved hapart hmoved, ?_⟩
    rcases hmoved.reader role with ⟨hsame, hstill⟩ | ⟨_, _, result, _, _, hread, hreader⟩
    · rw [hsame, hstill]
      exact ⟨hfail, hdeliv⟩
    have hdead := (hsec role.peer).dead
    rw [peer_peer] at hdead
    rw [hreader, End.delivered_read, ((hdead hfail).pollRead hread).1, append_nil]
    refine ⟨?_, hdeliv⟩
    cases result <;> simp [End.read, hfail]
  exact hkept.2.2

end Invariant

end CyfsGateway.Rtcp
