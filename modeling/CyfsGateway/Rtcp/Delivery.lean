import CyfsGateway.Rtcp.RecordLayer

/-!
# Delivery over an honest transport

As long as nobody interferes with what a writer sends, the bytes of the record that
the reader is in, those in transit and those that the writer still holds are the
records that the reader has not opened.  From this the reader gets, poll by poll,
everything that was accepted before a successful flush.
-/

namespace CyfsGateway.Rtcp

open Transition EncryptedStream EncryptionRole Link List Nat

def frames (records : List SealedRecord) : Bytes :=
  records.flatMap fun record => frame record.ciphertext

@[simp]
theorem frames_append (first second : List SealedRecord) :
    frames (first ++ second) = frames first ++ frames second := by simp [frames]

theorem drop_eq_cons {records : List SealedRecord} {record}
    (hrec : records[index]? = some record) :
    records.drop index = record :: records.drop (index + 1) := by
  obtain ⟨hindex, rfl⟩ := List.getElem?_eq_some_iff.mp hrec
  exact drop_eq_getElem_cons hindex

theorem length_toBeBytes (length : Nat) : (toBeBytes length).length = lenField := rfl

theorem fromBeBytes_toBeBytes {length} (hlen : length < 2 ^ 16) :
    fromBeBytes (toBeBytes length) = length := by
  simp only [fromBeBytes, toBeBytes, UInt8.toNat_ofNat']
  omega

def EncryptedStream.held (stream : EncryptedStream) : Bytes := stream.header ++ stream.body

variable {config : LinkConfig} {role : EncryptionRole} {writer moved : End}
  {stream after : EncryptedStream} {channel behind : Channel}
  {decrypt : Nonce → Bytes → Option Bytes} {room : Nat}

section Flow

variable {delivered : Bytes}

/-- The state of a direction that nobody interferes with. -/
structure Flowing (writer : End) (stream : EncryptedStream) (channel : Channel) : Prop where
  room : 0 < stream.capacity
  header : stream.readPhase = .needHeader → stream.body = []
  body : stream.readPhase = .needBody →
    stream.header.length = lenField ∧ stream.bodyNeeded = fromBeBytes stream.header
  bytesRead : stream.readPlaintextBytes =
    (plaintexts (writer.stream.sealed.take stream.readSeq)).length
  /-- Behind a failed write nobody knows what the transport took. -/
  pipe : ∃ rest, stream.held ++ channel.bytes ++ rest =
      frames (writer.stream.sealed.drop stream.readSeq) ∧
    (writer.writeFailed = false → rest = writer.stream.writeBuf)
  closed : channel.closed = true →
    writer.stream.shutdownStarted = true ∧ writer.stream.writeBuf = []
  flushed : ∃ count ≤ writer.stream.sealed.length,
    writer.flushed = plaintexts (writer.stream.sealed.take count) ∧
      frames ((writer.stream.sealed.take count).drop stream.readSeq) <+:
        stream.held ++ channel.bytes
  eof : stream.readEof = true → channel.bytes = [] ∧ channel.closed = true

/-- Bytes in transit begin with those of the first record that was not opened. -/
theorem Flowing.next (hflow : Flowing writer stream channel) (hbytes : channel.bytes ≠ []) :
    ∃ record rest, writer.stream.sealed[stream.readSeq]? = some record ∧
      stream.held ++ (channel.bytes ++ rest) =
        toBeBytes record.ciphertext.length ++ (record.ciphertext ++
          frames (writer.stream.sealed.drop (stream.readSeq + 1))) ∧
      (writer.writeFailed = false → rest = writer.stream.writeBuf) := by
  obtain ⟨rest, hpipe, hrest⟩ := hflow.pipe
  cases hrecs : writer.stream.sealed.drop stream.readSeq with
  | nil =>
    rw [hrecs] at hpipe
    have hnone := (append_eq_nil_iff.mp (append_eq_nil_iff.mp hpipe).1).2
    exact absurd hnone hbytes
  | cons record later =>
    have hrec : writer.stream.sealed[stream.readSeq]? = some record := by
      rw [← head?_drop, hrecs, head?_cons]
    have hlater : writer.stream.sealed.drop (stream.readSeq + 1) = later := by
      rw [← tail_drop, hrecs, tail_cons]
    refine ⟨record, rest, hrec, ?_, hrest⟩
    rw [← append_assoc, hpipe, hrecs, hlater]
    simp [frames, frame]

theorem Flowing.fill (hflow : Flowing writer stream channel)
    (hroom : 0 < after.capacity) (hheader : after.readPhase = .needHeader → after.body = [])
    (hbody : after.readPhase = .needBody →
      after.header.length = lenField ∧ after.bodyNeeded = fromBeBytes after.header)
    (hread : after.readPlaintextBytes = stream.readPlaintextBytes)
    (hseq : after.readSeq = stream.readSeq)
    (hheld : after.held ++ behind.bytes = stream.held ++ channel.bytes)
    (hclosed : behind.closed = channel.closed)
    (heof : after.readEof = true → behind.bytes = [] ∧ behind.closed = true) :
    Flowing writer after behind where
  room := hroom
  header := hheader
  body := hbody
  bytesRead := by rw [hread, hseq]; exact hflow.bytesRead
  pipe := by rw [hheld, hseq]; exact hflow.pipe
  closed := by rw [hclosed]; exact hflow.closed
  flushed := by rw [hheld, hseq]; exact hflow.flushed
  eof := heof

variable {record : SealedRecord}

theorem Writing.length_ciphertext (hsized : config.Sized) (hwrite : Writing config role writer)
    {index : Nat} (hrec : writer.stream.sealed[index]? = some record) :
    record.ciphertext.length = record.plaintext.length + tagLen ∧
      record.ciphertext.length ≤ maxPlaintext + tagLen := by
  obtain ⟨-, -, hshort, henc⟩ := hwrite.records index record hrec
  have hlen := hsized _ _ _ henc
  exact ⟨hlen, hlen ▸ Nat.add_le_add_right hshort tagLen⟩

variable {bytes : Bytes}

section Heads

variable (hflow : Flowing writer stream channel)
  (hchan : channel.bytes = bytes ++ behind.bytes)

include hflow hchan

theorem Flowing.header_eq (hphase : stream.readPhase = .needHeader) (hbytes : bytes ≠ [])
    (hlen : (stream.header ++ bytes).length = lenField) :
    ∃ record, writer.stream.sealed[stream.readSeq]? = some record ∧
      stream.header ++ bytes = toBeBytes record.ciphertext.length := by
  have hsome : channel.bytes ≠ [] := by
    rw [hchan]
    exact append_ne_nil_of_left_ne_nil hbytes _
  obtain ⟨record, rest, hrec, hwire, -⟩ := hflow.next hsome
  rw [held, hflow.header hphase, append_nil, hchan, append_assoc, ← append_assoc] at hwire
  exact ⟨record, hrec, (append_inj hwire hlen).1⟩

theorem Flowing.body_eq (hsized : config.Sized) (hwrite : Writing config role writer)
    (hphase : stream.readPhase = .needBody) (hbytes : bytes ≠ [])
    (hlen : (stream.body ++ bytes).length = stream.bodyNeeded) :
    ∃ record rest, writer.stream.sealed[stream.readSeq]? = some record ∧
      stream.header = toBeBytes record.ciphertext.length ∧
      stream.body ++ bytes = record.ciphertext ∧
      behind.bytes ++ rest = frames (writer.stream.sealed.drop (stream.readSeq + 1)) ∧
      (writer.writeFailed = false → rest = writer.stream.writeBuf) := by
  have hsome : channel.bytes ≠ [] := by
    rw [hchan]
    exact append_ne_nil_of_left_ne_nil hbytes _
  obtain ⟨record, rest, hrec, hwire, hrest⟩ := hflow.next hsome
  obtain ⟨hheader, hneeded⟩ := hflow.body hphase
  rw [held, hchan, append_assoc] at hwire
  obtain ⟨hhead, hwire⟩ := append_inj hwire hheader
  have hcount : stream.bodyNeeded = record.ciphertext.length := by
    obtain ⟨-, hshort⟩ := hwrite.length_ciphertext hsized hrec
    rw [hneeded, hhead, fromBeBytes_toBeBytes]
    exact lt_of_le_of_lt hshort (by decide)
  rw [append_assoc, ← append_assoc] at hwire
  obtain ⟨hbody, hlater⟩ := append_inj hwire (hlen.trans hcount)
  exact ⟨record, rest, hrec, hhead, hbody, hlater, hrest⟩

/-- The reader's budget is at least the writer's. -/
def LinkConfig.Roomy (config : LinkConfig) (role : EncryptionRole) : Prop :=
  (config.budget role).maxRecordsPerDirection ≤ (config.budget role.peer).maxRecordsPerDirection ∧
    (config.budget role).maxPlaintextBytesPerDirection ≤
      (config.budget role.peer).maxPlaintextBytesPerDirection

def Opens (config : LinkConfig) (role : EncryptionRole) (records : List SealedRecord)
    (decrypt : Nonce → Bytes → Option Bytes) : Prop :=
  ∀ seq record, records[seq]? = some record →
    decrypt (makeNonce (config.base role) seq) record.ciphertext = some record.plaintext

theorem Flowing.opened {rest : Bytes} (hopen : stream.readEof = false)
    (hrec : writer.stream.sealed[stream.readSeq]? = some record)
    (hheader : stream.header = toBeBytes record.ciphertext.length)
    (hbody : stream.body ++ bytes = record.ciphertext) (hclosed : behind.closed = channel.closed)
    (hlater : behind.bytes ++ rest = frames (writer.stream.sealed.drop (stream.readSeq + 1)))
    (hrest : writer.writeFailed = false → rest = writer.stream.writeBuf) :
    Flowing writer { stream with
      readSeq := stream.readSeq + 1,
      readPlaintextBytes := stream.readPlaintextBytes + record.plaintext.length,
      plaintext := record.plaintext, firstRecordReceived := true, header := [], body := [],
      bodyNeeded := 0, readPhase := .needHeader } behind where
  room := zero_lt_two
  header _ := rfl
  body := nofun
  bytesRead := by rw [plaintexts_take_succ hrec, length_append, ← hflow.bytesRead]
  pipe := ⟨rest, hlater, hrest⟩
  closed := by rw [hclosed]; exact hflow.closed
  flushed := by
    obtain ⟨count, hle, hflushed, hwire⟩ := hflow.flushed
    refine ⟨count, hle, hflushed, ?_⟩
    by_cases hcount : stream.readSeq < count
    · have htaken : (writer.stream.sealed.take count).drop stream.readSeq =
          record :: (writer.stream.sealed.take count).drop (stream.readSeq + 1) := by
        apply drop_eq_cons
        rwa [getElem?_take_of_lt hcount]
      have hframe : stream.held ++ channel.bytes = frame record.ciphertext ++ behind.bytes := by
        rw [held, hchan, hheader, ← append_assoc, append_assoc _ _ bytes, hbody, frame]
      rw [htaken, hframe] at hwire
      exact (prefix_append_right_inj _).mp hwire
    · have hnone : (writer.stream.sealed.take count).drop (stream.readSeq + 1) = [] := by
        rw [drop_eq_nil_iff, length_take]
        omega
      rw [hnone]
      exact nil_prefix
  eof heof := by
    rw [hopen] at heof
    cases heof

end Heads

/-- How much is still to be read, the bytes in transit counted twice: taking a byte off
the transport makes progress, and so does handing it on. -/
def unread (stream : EncryptedStream) (channel : Channel) : Nat :=
  2 * channel.bytes.length + stream.held.length + stream.plaintext.length

/-- A turn on a transport that is ready takes bytes. -/
theorem channel_readTurn_ready {result} (hroom : 0 < stream.capacity)
    (hbytes : channel.bytes ≠ []) (hlimit : 0 < limit) (hyoung : elapsed < stream.budget.maxAge)
    (hturn : stream.readTurn decrypt channel ⟨elapsed, .ready limit⟩ =
      (result, after, behind)) : behind ≠ channel := by
  have hage : stream.budgetAgeExhausted elapsed = false := by
    rw [budgetAgeExhausted, decide_eq_false (Nat.not_le_of_lt hyoung)]
  rw [EncryptedStream.readTurn, hage, if_neg Bool.false_ne_true,
    Channel.pollRead_ready hbytes hroom hlimit] at hturn
  cases hturn
  intro hsame
  have hpos := length_pos_iff.mpr hbytes
  have hlen := congrArg (fun channel => channel.bytes.length) hsame
  simp only [length_drop] at hlen
  omega

variable {outcome : Poll Bytes}

section Reader

variable (hsized : config.Sized) (hroomy : config.Roomy role)
  (hopens : Opens config role writer.stream.sealed decrypt) (hwrite : Writing config role writer)
  (hreading : Reading config role writer.stream.sealed delivered stream)
  (hflow : Flowing writer stream channel)

include hsized hroomy hopens hwrite hreading hflow

theorem Flowing.openRecord_eq (hphase : stream.readPhase = .needBody)
    (hrec : writer.stream.sealed[stream.readSeq]? = some record)
    (hheader : stream.header = toBeBytes record.ciphertext.length)
    (hbody : stream.body ++ bytes = record.ciphertext) :
    openRecord decrypt { stream with body := stream.body ++ bytes } =
      (none, { stream with
        readSeq := stream.readSeq + 1,
        readPlaintextBytes := stream.readPlaintextBytes + record.plaintext.length,
        plaintext := record.plaintext, firstRecordReceived := true, header := [], body := [],
        bodyNeeded := 0, readPhase := .needHeader }) := by
  obtain ⟨hlen, hshort⟩ := hwrite.length_ciphertext hsized hrec
  have hneeded : stream.bodyNeeded - tagLen = record.plaintext.length := by
    rw [(hflow.body hphase).2, hheader, fromBeBytes_toBeBytes, hlen, Nat.add_sub_cancel]
    exact lt_of_le_of_lt hshort (by decide)
  have hindex : stream.readSeq < writer.stream.writeSeq :=
    lt_of_lt_of_le (List.getElem?_eq_some_iff.mp hrec).1 hwrite.behind
  have hbytes : stream.readPlaintextBytes + record.plaintext.length ≤
      writer.stream.writePlaintextBytes := by
    rw [hflow.bytesRead, ← length_append, ← plaintexts_take_succ hrec, hwrite.bytes]
    exact (plaintexts_take_isPrefix _ _).length_le
  have hrecs := hwrite.recordBudget
  have hfits := hwrite.recordsFit
  have hbudg := hwrite.byteBudget
  have hbytesFit := hwrite.bytesFit
  obtain ⟨hmoreRecords, hmoreBytes⟩ := hroomy
  rw [← hreading.budget] at hmoreRecords hmoreBytes
  rw [← hneeded]
  apply EncryptedStream.openRecord_eq
  · exact lt_of_lt_of_le hindex (le_trans hrecs hmoreRecords)
  · exact lt_of_le_of_lt hindex hfits
  · rw [hneeded]
    exact le_trans hbytes (le_trans hbudg hmoreBytes)
  · rw [hneeded]
    exact lt_of_le_of_lt hbytes hbytesFit
  · rw [hreading.base, hbody]
    exact hopens _ _ hrec

/-- A turn takes bytes off the transport and goes on, or it returns and takes none. -/
theorem Flowing.turn {result : Option (Poll Bytes)} (hempty : stream.plaintext = [])
    (hopen : stream.readEof = false)
    (hturn : stream.Turn decrypt channel result after behind) :
    Flowing writer after behind ∧ (result = none ∧ unread after behind < unread stream channel ∨
        result ≠ none ∧ behind = channel ∧ after.plaintext = [] ∧
          unread after behind = unread stream channel) := by
  have hnever {anything : Prop} (heof : stream.readEof = true) : anything := by
    rw [hopen] at heof
    cases heof
  cases hturn with
  | paused | ended => exact ⟨hflow, .inr ⟨Option.some_ne_none _, rfl, hempty, rfl⟩⟩
  | finished hend hbdry =>
    refine ⟨?_, .inr ⟨Option.some_ne_none _, rfl, hempty, rfl⟩⟩
    exact hflow.fill hflow.room hflow.header hflow.body rfl rfl rfl rfl fun _ => hend
  | @header bytes _ hphase hbytes hchan hclosed hlen =>
    have hpos := length_pos_iff.mpr hbytes
    have hbody := hflow.header hphase
    refine ⟨hflow.fill ?_ hflow.header ?_ rfl rfl ?_ hclosed hnever, .inl ⟨rfl, ?_⟩⟩
    · simp only [capacity, hphase]
      omega
    · intro hother
      cases hphase.symm.trans hother
    · simp [held, hbody, hchan]
    · simp only [unread, held, hchan, length_append]
      omega
  | @badLength bytes _ hphase hbytes hchan _ hlen hbad =>
    obtain ⟨record, hrec, hheader⟩ := hflow.header_eq hchan hphase hbytes hlen
    obtain ⟨hsize, hshort⟩ := hwrite.length_ciphertext hsized hrec
    rw [hheader, fromBeBytes_toBeBytes (lt_of_le_of_lt hshort (by decide))] at hbad
    omega
  | @headerDone bytes _ hphase hbytes hchan hclosed hlen hgood =>
    have hpos := length_pos_iff.mpr hbytes
    have hbody := hflow.header hphase
    refine ⟨hflow.fill (lt_of_lt_of_le (by decide) hgood.1) (by rintro ⟨⟩)
      (fun _ => ⟨hlen, rfl⟩) rfl rfl ?_ hclosed hnever, .inl ⟨rfl, ?_⟩⟩
    · simp [held, hbody, hchan]
    · simp only [unread, held, hbody, hchan, length_append]
      omega
  | @body bytes _ hphase hbytes hchan hclosed hlen =>
    have hpos := length_pos_iff.mpr hbytes
    refine ⟨hflow.fill ?_ ?_ hflow.body rfl rfl ?_ hclosed hnever, .inl ⟨rfl, ?_⟩⟩
    · simp only [capacity, hphase]
      omega
    · intro hother
      cases hphase.symm.trans hother
    · simp [held, hchan]
    · simp only [unread, held, hchan, length_append]
      omega
  | @bodyDone bytes _ _ _ hphase hbytes hchan hclosed hlen hrecordOpen =>
    obtain ⟨record, rest, hrec, hheader, hbody, hlater, hrest⟩ :=
      hflow.body_eq hchan hsized hwrite hphase hbytes hlen
    rw [hflow.openRecord_eq hsized hroomy hopens hwrite hreading hphase hrec hheader
      hbody] at hrecordOpen
    cases hrecordOpen
    refine ⟨hflow.opened hchan hopen hrec hheader hbody hclosed hlater hrest,
      .inl ⟨rfl, ?_⟩⟩
    have hsize := (hwrite.length_ciphertext hsized hrec).1
    have hpos := length_pos_iff.mpr hbytes
    rw [← hbody, length_append] at hsize
    simp only [unread, held, hchan, length_append, hempty, length_nil]
    omega

/-! ## Polls -/

theorem Flowing.pollRead (hauthn : Authentic config role writer.stream.sealed decrypt) {polls}
    (hread : stream.pollRead decrypt room polls channel = (outcome, after, behind)) :
    Flowing writer after behind ∧ unread after behind ≤ unread stream channel := by
  apply pollRead_rule (fun now next => Reading config role writer.stream.sealed delivered now ∧
      Flowing writer now next ∧ unread now next ≤ unread stream channel)
    (fun _ now next => Flowing writer now next ∧ unread now next ≤ unread stream channel)
    _ _ _ _ _ ⟨hreading, hflow, le_refl _⟩ hread
  · rintro now next ⟨-, hnow, hle⟩ -
    refine ⟨hnow.fill hnow.room hnow.header hnow.body rfl rfl rfl rfl hnow.eof, le_trans ?_ hle⟩
    simp only [unread, held, length_drop]
    omega
  · exact fun _ _ hnow _ _ => hnow.2
  · exact fun _ _ hnow _ _ => hnow.2
  · rintro now next result after behind ⟨hreads, hnow, hle⟩ hempty hopen hturn
    obtain ⟨hflows, hunread⟩ := hnow.turn hsized hroomy hopens hwrite hreads hempty hopen hturn
    refine ⟨hflows, ?_⟩
    rcases hunread with ⟨hnone, -⟩ | ⟨-, -, -, hsame⟩
    · cases hnone
    · rwa [hsame]
  · rintro now next after behind ⟨hreads, hnow, hle⟩ hempty hopen hturn
    obtain ⟨hflows, hunread⟩ := hnow.turn hsized hroomy hopens hwrite hreads hempty hopen hturn
    refine ⟨hreads.turn hauthn hempty hopen hturn, hflows, ?_⟩
    rcases hunread with ⟨-, hless⟩ | ⟨hsome, -⟩
    · exact le_of_lt (lt_of_lt_of_le hless hle)
    · exact absurd rfl hsome

/-- A poll with room makes progress on a transport that is ready. -/
theorem Flowing.progress (hauthn : Authentic config role writer.stream.sealed decrypt)
    (hroom : 0 < room) (hlimit : 0 < limit)
    (hyoung : elapsed < stream.budget.maxAge) (hleft : channel.bytes ≠ [] ∨ stream.plaintext ≠ [])
    (hread : stream.pollRead decrypt room (⟨elapsed, .ready limit⟩ :: rest) channel =
      (outcome, after, behind)) :
    unread after behind < unread stream channel := by
  rw [EncryptedStream.pollRead] at hread
  split at hread
  · next hplain =>
    cases hread
    have hpos := length_pos_iff.mpr hplain
    simp only [unread, held, length_drop]
    omega
  · next hplain =>
    have hbytes := hleft.resolve_right hplain
    have hempty := not_not.mp hplain
    split at hread
    · next heof => exact absurd (hflow.eof heof).1 hbytes
    next heof =>
    have hopen : stream.readEof = false := by simpa using heof
    -- Only a turn that takes bytes leaves the channel changed, and it does not return.
    have hkind {result now next} (hturn : stream.readTurn decrypt channel
        ⟨elapsed, .ready limit⟩ = (result, now, next)) :
        Flowing writer now next ∧ result = none ∧ unread now next < unread stream channel := by
      obtain ⟨hflows, hunread⟩ := hflow.turn hsized hroomy hopens hwrite hreading
        hempty hopen (turn_of_readTurn hturn)
      refine ⟨hflows, hunread.resolve_right fun hkept => ?_⟩
      exact channel_readTurn_ready hflow.room hbytes hlimit hyoung hturn hkept.2.1
    split at hread
    · next hturn => cases (hkind hturn).2.1
    next hturn =>
    obtain ⟨hflows, -, hless⟩ := hkind hturn
    have hreads := hreading.turn hauthn hempty hopen (turn_of_readTurn hturn)
    have hrest := (hflows.pollRead hsized hroomy hopens hwrite hreads hauthn hread).2
    exact lt_of_le_of_lt hrest hless

end Reader

theorem idle_pollRead {polls} (hbytes : channel.bytes = []) (hplain : stream.plaintext = [])
    (hread : stream.pollRead decrypt room polls channel = (outcome, after, behind)) :
    behind.bytes = [] ∧ after.plaintext = [] := by
  have hturn {now next : EncryptedStream} {current later : Channel}
      {result : Option (Poll Bytes)} (hnow : current.bytes = [] ∧ now.plaintext = [])
      (hturn : now.Turn decrypt current result next later) :
      later.bytes = [] ∧ next.plaintext = [] := by
    rcases hturn.takes_or_stays with ⟨-, bytes, hbytes, hchan⟩ | ⟨-, rfl, hplain, -⟩
    · rw [hnow.1] at hchan
      exact absurd (append_eq_nil_iff.mp hchan.symm).1 hbytes
    · exact ⟨hnow.1, hplain.trans hnow.2⟩
  apply pollRead_rule (fun now current => current.bytes = [] ∧ now.plaintext = [])
    (fun _ now current => current.bytes = [] ∧ now.plaintext = [])
    _ _ _ _ _ ⟨hbytes, hplain⟩ hread
  · exact fun _ _ hnow hne => absurd hnow.2 hne
  · exact fun _ _ hnow _ _ => hnow
  · exact fun _ _ hnow _ _ => hnow
  · exact fun _ _ _ _ _ hnow _ _ hkind => hturn hnow hkind
  · exact fun _ _ _ _ hnow _ _ hkind => hturn hnow hkind

section Held

variable (hsized : config.Sized) (hwrite : Writing config role writer)
  (hflow : Flowing writer stream channel)

include hsized hwrite hflow

/-- The buffer of the reader never holds a whole record. -/
theorem Flowing.held_lt {index : Nat}
    (hrec : writer.stream.sealed[index]? = some record) :
    ¬frame record.ciphertext <+: stream.held := by
  rintro ⟨rest, hframe⟩
  have hroom := hflow.room
  have hlen := congrArg length hframe
  simp only [frame, length_append, length_toBeBytes, held] at hlen
  cases hphase : stream.readPhase with
  | needHeader =>
    rw [hflow.header hphase, length_nil] at hlen
    simp only [capacity, hphase] at hroom
    omega
  | needBody =>
    obtain ⟨hheader, hneeded⟩ := hflow.body hphase
    rw [frame, append_assoc] at hframe
    have hhead := (append_inj hframe hheader.symm).1
    have hshort := (hwrite.length_ciphertext hsized hrec).2
    rw [← hhead, fromBeBytes_toBeBytes (lt_of_le_of_lt hshort (by decide))] at hneeded
    simp only [capacity, hphase] at hroom
    omega

/-- Once everything is read, all that was flushed is delivered. -/
theorem Flowing.flushed_isPrefix
    (hreading : Reading config role writer.stream.sealed delivered stream)
    (hbytes : channel.bytes = [])
    (hplain : stream.plaintext = []) : writer.flushed <+: delivered := by
  obtain ⟨opened, -, hdeliv, hseq⟩ := hreading.delivered
  obtain ⟨count, hle, hflushed, hwire⟩ := hflow.flushed
  rw [hplain, append_nil, ← hseq.resolve_left (ne_of_gt hflow.room)] at hdeliv
  have hcount : count ≤ stream.readSeq := by
    by_contra hlater
    have hindex : stream.readSeq < (writer.stream.sealed.take count).length := by
      rw [length_take]
      omega
    have hrec := getElem?_eq_getElem hindex
    rw [drop_eq_cons hrec, hbytes, append_nil] at hwire
    rw [getElem?_take_of_lt (by omega)] at hrec
    exact hflow.held_lt hsized hwrite hrec ((prefix_append _ _).trans hwire)
  have hfirst := plaintexts_take_isPrefix (writer.stream.sealed.take stream.readSeq) count
  rw [take_take, min_eq_left hcount] at hfirst
  rwa [hflushed, hdeliv]

end Held

end Flow

section Writers

variable {result : Poll Unit}

theorem Channel.bytes_push {bytes} (hopen : channel.closed = true → bytes = []) :
    (channel.push bytes).bytes = channel.bytes ++ bytes := by
  cases hclosed : channel.closed with
  | false => simp [push, hclosed]
  | true => simp [push, hclosed, hopen hclosed]

theorem EncryptedStream.Drained.writeBuf_of_ok
    (hdrained : stream.Drained channel (.ok ()) after behind) : after.writeBuf = [] := by
  cases hdrained
  rfl

section Drains

variable (hdrained : stream.Drained channel result after behind)

include hdrained

theorem EncryptedStream.Drained.bytes_isPrefix : channel.bytes <+: behind.bytes := by
  have hpush (bytes : Bytes) : channel.bytes <+: (channel.push bytes).bytes := by
    cases hclosed : channel.closed <;> simp [Channel.push, hclosed]
  cases hdrained
  all_goals exact hpush _

/-- A drain moves the first bytes of the buffer to the transport. -/
theorem EncryptedStream.Drained.pipe (hopen : channel.closed = true → stream.writeBuf = []) :
    ∃ rest, behind.bytes ++ rest = channel.bytes ++ stream.writeBuf ∧
      ((∀ failure, result ≠ .err failure) → rest = after.writeBuf) := by
  have hfirst {written rest : Bytes} (hbuf : stream.writeBuf = written ++ rest) :
      (channel.push written).bytes ++ rest = channel.bytes ++ stream.writeBuf := by
    rw [Channel.bytes_push, hbuf, append_assoc]
    intro hclosed
    rw [hopen hclosed] at hbuf
    exact (append_eq_nil_iff.mp hbuf.symm).1
  cases hdrained with
  | done => exact ⟨[], hfirst (append_nil _).symm, fun _ => rfl⟩
  | waiting hbuf => exact ⟨_, hfirst hbuf, fun _ => rfl⟩
  | @failed failure _ _ rest hbuf =>
    refine ⟨rest, hfirst (by rw [hbuf, append_assoc]), fun hfine => ?_⟩
    exact absurd rfl (hfine failure)

theorem EncryptedStream.Drained.writeBuf_of_nil (hempty : stream.writeBuf = []) :
    after.writeBuf = [] := by
  cases hdrained with
  | done => rfl
  | waiting hbuf | failed hbuf =>
    rw [hempty] at hbuf
    exact (append_eq_nil_iff.mp hbuf.symm).2

theorem EncryptedStream.Drained.closed_eq : behind.closed = channel.closed := by
  cases hdrained
  all_goals exact Channel.closed_push _ _

theorem EncryptedStream.Drained.shutdownStarted_eq :
    after.shutdownStarted = stream.shutdownStarted := by
  cases hdrained
  all_goals rfl

end Drains

variable (hflow : Flowing writer stream channel)
  (hcounted : stream.readSeq ≤ writer.stream.sealed.length) (hopen : writer.writeFailed = false)

include hflow hcounted hopen

/-- What a writer does to the flow: new records come behind the old bytes. -/
theorem Flowing.appended (more : List SealedRecord)
    (hsealed : moved.stream.sealed = writer.stream.sealed ++ more)
    (hpipe : ∃ rest, behind.bytes ++ rest = channel.bytes ++ writer.stream.writeBuf ++ frames more ∧
      (moved.writeFailed = false → rest = moved.stream.writeBuf))
    (hkept : channel.bytes <+: behind.bytes) (hclosed : behind.closed = true →
      moved.stream.shutdownStarted = true ∧ moved.stream.writeBuf = [])
    (heof : channel.closed = true → behind = channel)
    (hflushed : moved.flushed = writer.flushed ∨ moved.writeFailed = false ∧
      moved.stream.writeBuf = [] ∧ moved.flushed = plaintexts moved.stream.sealed) :
    Flowing moved stream behind := by
  have hwire : ∃ rest, stream.held ++ behind.bytes ++ rest =
      frames (moved.stream.sealed.drop stream.readSeq) ∧
        (moved.writeFailed = false → rest = moved.stream.writeBuf) := by
    obtain ⟨before, hbefore, hbuf⟩ := hflow.pipe
    obtain ⟨rest, hrest, hnow⟩ := hpipe
    refine ⟨rest, ?_, hnow⟩
    rw [hsealed, drop_append_of_le_length hcounted, frames_append, ← hbefore, hbuf hopen,
      append_assoc, hrest]
    simp only [append_assoc]
  refine ⟨hflow.room, hflow.header, hflow.body, ?_, hwire, hclosed, ?_, ?_⟩
  · rw [hsealed, take_append_of_le_length hcounted]
    exact hflow.bytesRead
  · rcases hflushed with hsame | ⟨hfine, hempty, hall⟩
    · obtain ⟨count, hle, hbytes, hframes⟩ := hflow.flushed
      refine ⟨count, ?_, ?_, ?_⟩
      · rw [hsealed, length_append]
        exact le_add_right_of_le hle
      · rw [hsame, hsealed, take_append_of_le_length hle]
        exact hbytes
      · rw [hsealed, take_append_of_le_length hle]
        exact hframes.trans ((prefix_append_right_inj _).mpr hkept)
    · refine ⟨moved.stream.sealed.length, le_refl _, ?_, ?_⟩
      · rw [take_length]
        exact hall
      · obtain ⟨rest, hrest, hbuf⟩ := hwire
        rw [hbuf hfine, hempty, append_nil] at hrest
        rewrite [take_length, hrest]
        exact prefix_refl _
  · intro hend
    have hended := hflow.eof hend
    rw [heof hended.2]
    exact hended

theorem Flowing.drained (hdrained : writer.stream.Drained channel result after behind)
    (hstream : moved.stream.sealed = after.sealed ∧ moved.stream.writeBuf = after.writeBuf ∧
      moved.stream.shutdownStarted = after.shutdownStarted)
    (hfail : ∀ failure, result = .err failure → moved.writeFailed = true)
    (hflushed : moved.flushed = writer.flushed ∨ moved.writeFailed = false ∧
      result = .ok () ∧ moved.flushed = plaintexts writer.stream.sealed) :
    Flowing moved stream behind := by
  obtain ⟨hsealed, hbuffer, hshut⟩ := hstream
  have hempty (hclosed : channel.closed = true) := (hflow.closed hclosed).2
  rw [hdrained.sealed_eq] at hsealed
  refine hflow.appended hcounted hopen [] ?_ ?_ hdrained.bytes_isPrefix ?_ hdrained.kept ?_
  · rw [hsealed, append_nil]
  · obtain ⟨rest, hrest, hbuf⟩ := hdrained.pipe hempty
    rw [hbuffer]
    refine ⟨rest, by rw [hrest]; simp [frames], fun hfine => hbuf fun failure hres => ?_⟩
    rw [hfail failure hres] at hfine
    cases hfine
  · rw [hdrained.closed_eq, hshut, hdrained.shutdownStarted_eq, hbuffer]
    exact fun hclosed => ⟨(hflow.closed hclosed).1, hdrained.writeBuf_of_nil (hempty hclosed)⟩
  · refine hflushed.imp_right fun ⟨hfine, hok, hall⟩ => ⟨hfine, ?_, ?_⟩
    · subst hok
      exact hbuffer.trans hdrained.writeBuf_of_ok
    · rw [hall, hsealed]

theorem Flowing.wrote {buf count}
    (hwrote : writer.stream.Wrote config.encrypt buf channel count after behind) :
    Flowing (writer.wrote buf after count) stream behind := by
  have hempty (hclosed : channel.closed = true) := (hflow.closed hclosed).2
  have hseal {middle record : EncryptedStream} {between : Channel} {last : Poll Unit}
      {reported : End} (hrunning : writer.stream.shutdownStarted = false)
      (hdrained : writer.stream.Drained channel (.ok ()) middle between)
      (hseal : middle.sealRecord config.encrypt (buf.take (min buf.length maxPlaintext)) =
        (.ok (), record))
      (hrec : record.Drained between last after behind)
      (hstream : reported.stream = after) (hsame : reported.flushed = writer.flushed)
      (hfail : ∀ failure, last = .err failure → reported.writeFailed = true) :
      Flowing reported stream behind := by
    have hrunningChannel : channel.closed = false := by
      by_contra hclosed
      rw [(hflow.closed (by simpa using hclosed)).1] at hrunning
      cases hrunning
    have hclosed : behind.closed = false := by
      rw [hrec.closed_eq, hdrained.closed_eq, hrunningChannel]
    subst hstream
    rcases sealRecord_cases hseal with
      ⟨_, herror, -⟩ | ⟨_, herror, -⟩ | ⟨ciphertext, -, -, -, -, -, -, rfl⟩
    · cases herror
    · cases herror
    · refine hflow.appended hcounted hopen [⟨makeNonce middle.writeNonceBase middle.writeSeq,
          buf.take (min buf.length maxPlaintext), ciphertext⟩] ?_ ?_
        (hdrained.bytes_isPrefix.trans hrec.bytes_isPrefix) ?_ ?_ (.inl hsame)
      · rw [hrec.sealed_eq, hdrained.sealed_eq]
      · obtain ⟨_, hfirst, hnone⟩ := hdrained.pipe hempty
        rw [hnone nofun, hdrained.writeBuf_of_ok, append_nil] at hfirst
        obtain ⟨rest, hrest, hbuf⟩ := hrec.pipe fun hend => by
          rw [hdrained.closed_eq, hrunningChannel] at hend
          cases hend
        refine ⟨rest, by rw [hrest, hfirst]; simp [frames],
          fun hfine => hbuf fun failure hlast => ?_⟩
        rw [hfail failure hlast] at hfine
        cases hfine
      · rw [hclosed]
        exact nofun
      · rw [hrunningChannel]
        exact nofun
  cases hwrote with
  | refused =>
    exact hflow.drained hcounted hopen drained_waiting ⟨rfl, rfl, rfl⟩
      (fun _ _ => rfl) (.inl rfl)
  | waiting hdrained | nothing hdrained _ =>
    exact hflow.drained hcounted hopen hdrained ⟨rfl, rfl, rfl⟩ (fun _ => nofun) (.inl rfl)
  | broken hdrained =>
    exact hflow.drained hcounted hopen hdrained ⟨rfl, rfl, rfl⟩ (fun _ _ => rfl) (.inl rfl)
  | unsealed hdrained hunsealed =>
    refine hflow.drained hcounted hopen hdrained ?_ (fun _ _ => rfl) (.inl rfl)
    rcases sealRecord_cases hunsealed with
      ⟨_, -, rfl⟩ | ⟨_, -, -, -, rfl⟩ | ⟨_, hok, -⟩
    · exact ⟨rfl, rfl, rfl⟩
    · exact ⟨rfl, rfl, rfl⟩
    · cases hok
  | sealed hrunning hdrained _ hsealed hrec hfine =>
    exact hseal hrunning hdrained hsealed hrec rfl rfl
      fun failure hlast => absurd hlast (hfine failure)
  | sealedBroken hrunning hdrained _ hsealed hrec =>
    exact hseal hrunning hdrained hsealed hrec rfl rfl fun _ _ => rfl

theorem Flowing.flushedTo {answers inner} (hwrite : Writing config role writer)
    (hflush : writer.stream.pollFlush answers inner channel = (result, after, behind)) :
    Flowing (writer.flushedTo after result) stream behind := by
  obtain ⟨drain, hdrained, hdone, hbroken⟩ := pollFlush_cases hflush
  have hfail (failure : StreamFailure) (hdrain : drain = .err failure) :
      (writer.flushedTo after result).writeFailed = true := by
    rw [hbroken failure hdrain]
    rfl
  refine hflow.drained hcounted hopen hdrained (by cases result <;> exact ⟨rfl, rfl, rfl⟩)
    hfail ?_
  cases result with
  | pending | err => exact .inl rfl
  | ok => exact .inr ⟨hopen, hdone rfl, (hwrite.complete hopen).symm⟩

theorem Flowing.shutTo {answers inner}
    (hshut : writer.stream.pollShutdown answers inner channel = (result, after, behind)) :
    Flowing (writer.shutTo after result) stream behind := by
  have hstream : (writer.shutTo after result).stream = after := by cases result <;> rfl
  have hflushed : (writer.shutTo after result).flushed = writer.flushed := by cases result <;> rfl
  rcases pollShutdown_cases hshut with
    ⟨hdrained, -⟩ | ⟨middle, between, _, hdrained, rfl, hbehind⟩
  · refine hflow.drained hcounted hopen hdrained ?_ ?_ (.inl hflushed)
    · rw [hstream]
      exact ⟨rfl, rfl, rfl⟩
    · rintro _ rfl
      rfl
  · have hbytes : behind.bytes = between.bytes := by rw [hbehind]
    refine hflow.appended hcounted hopen [] ?_ ?_ ?_ ?_
      (kept_pollShutdown hshut) (.inl hflushed)
    · rw [hstream, append_nil]
      exact hdrained.sealed_eq
    · obtain ⟨rest, hrest, hbuf⟩ := hdrained.pipe fun hclosed => (hflow.closed hclosed).2
      rw [hstream, hbytes]
      exact ⟨rest, by rw [hrest]; simp [frames], fun _ => hbuf fun _ => nofun⟩
    · rw [hbytes]
      exact hdrained.bytes_isPrefix
    · rw [hstream]
      exact fun _ => ⟨rfl, hdrained.writeBuf_of_ok⟩

end Writers

/-! ## Honest runs -/

section Runs

variable {actor : EncryptionRole} {link next : Link}

/-- Nobody has interfered with what the role writes. -/
def Link.Flows (link : Link) (role : EncryptionRole) : Prop :=
  Flowing (link.ends role) (link.ends role.peer).stream (link.channels role)

theorem flows_start : (start config).Flows role := by
  refine ⟨zero_lt_two, fun _ => rfl, nofun, ?_, ⟨[], ?_, fun _ => rfl⟩, nofun,
    ⟨0, le_refl _, ?_, ?_⟩, nofun⟩
  all_goals simp [start, newWithBudget, plaintexts, frames, held]

theorem Flowing.sameReading (hflow : Flowing writer stream channel)
    (hsame : stream.SameReading after) : Flowing writer after channel := by
  obtain ⟨_, _, _, _, _, rfl⟩ := hsame
  exact hflow.fill hflow.room hflow.header hflow.body rfl rfl rfl rfl hflow.eof

theorem Flowing.sameWriting (hflow : Flowing writer stream channel)
    (hsame : writer.stream.SameWriting moved.stream) (hflushed : moved.flushed = writer.flushed)
    (hfail : moved.writeFailed = writer.writeFailed) : Flowing moved stream channel := by
  obtain ⟨_, _, _, _, _, _, _, _, _, hstream⟩ := hsame
  obtain ⟨hroom, hheader, hbody, hbytes, hpipe, hclosed, hcount, heof⟩ := hflow
  refine ⟨hroom, hheader, hbody, ?_, ?_, ?_, ?_, heof⟩
  · rw [hstream]
    exact hbytes
  · rw [hstream, hfail]
    exact hpipe
  · rw [hstream]
    exact hclosed
  · rw [hstream, hflushed]
    exact hcount

theorem Direction.counted (hdir : Direction config role link) (hflows : link.Flows role) :
    (link.ends role.peer).stream.readSeq ≤ (link.ends role).stream.sealed.length := by
  obtain ⟨count, hle, -, hseq⟩ := hdir.reading.delivered
  rwa [hseq.resolve_left (ne_of_gt hflows.room)]

theorem opens_decrypt (hapart : config.Apart) (hroomy : config.Roomy role)
    (hsec : Secured config link) :
    Opens config role (link.ends role).stream.sealed link.decrypt := by
  intro seq record hrec
  have hwrite := (hsec role).writing
  have hnonce := (hwrite.records seq record hrec).1
  have hindex : seq < (link.ends role).stream.writeSeq :=
    lt_of_lt_of_le (List.getElem?_eq_some_iff.mp hrec).1 hwrite.behind
  have hsome : (link.decrypt (makeNonce (config.base role) seq) record.ciphertext).isSome := by
    have hmem : record ∈ (link.ends .initiator).stream.sealed ++
        (link.ends .responder).stream.sealed := by
      have howner := mem_of_getElem? hrec
      cases role with
      | initiator => exact mem_append_left _ howner
      | responder => exact mem_append_right _ howner
    rw [decrypt, Option.isSome_map, find?_isSome]
    exact ⟨record, hmem, by simp [hnonce]⟩
  obtain ⟨plaintext, hplaintext⟩ := Option.isSome_iff_exists.mp hsome
  have hbudg : seq < (config.budget role.peer).maxRecordsPerDirection :=
    lt_of_lt_of_le hindex (le_trans hwrite.recordBudget hroomy.1)
  obtain ⟨found, hfound, rfl⟩ := authentic_decrypt hapart hsec role _ _ _ hbudg
    (lt_of_le_of_lt hindex hwrite.recordsFit) hplaintext
  rw [hfound] at hrec
  cases hrec
  exact hplaintext

theorem Link.Flows.put_writer (hflows : link.Flows role)
    (hsame : (link.ends actor).stream.SameReading moved.stream)
    (hflow : role = actor → Flowing moved (link.ends actor.peer).stream behind) :
    (link.put actor moved actor behind).Flows role := by
  rcases role.eq_or_eq_peer actor with rfl | rfl
  · rw [Flows, ends_put, ends_put_peer, channels_put]
    exact hflow rfl
  rw [Flows, peer_peer] at hflows
  rw [Flows, peer_peer, ends_put, ends_put_peer, channels_put_peer]
  exact hflows.sameReading hsame

variable {polls : List InnerPoll}

section Flows

variable (hapart : config.Apart) (hsized : config.Sized) (hroomy : config.Roomy role)

include hapart hsized hroomy

theorem Link.Flows.read (hsec : Secured config link) (hflows : link.Flows role) {result}
    (hread : (link.ends actor).stream.pollRead link.decrypt room polls
      (link.channels actor.peer) = (result, after, behind)) :
    (link.put actor ((link.ends actor).read after result) actor.peer behind).Flows role := by
  rcases role.eq_or_eq_peer actor with rfl | rfl
  · have hchannels := channels_put_peer link role role.peer
      ((link.ends role).read after result) behind
    rw [peer_peer] at hchannels
    rw [Flows, ends_put, ends_put_peer, hchannels]
    refine hflows.sameWriting ?_ (by cases result <;> rfl) (End.writeFailed_read ..)
    rw [End.stream_read]
    exact sameWriting_pollRead hread
  · have hdir := hsec actor.peer
    have hreading := hdir.reading
    rw [peer_peer] at hreading
    rw [Flows, peer_peer] at hflows
    rw [Flows, peer_peer, ends_put, ends_put_peer, channels_put, End.stream_read]
    exact (hflows.pollRead hsized hroomy (opens_decrypt hapart hroomy hsec)
      hdir.writing hreading (authentic_decrypt hapart hsec _) hread).1

/-- A move keeps the flow unless it interferes. -/
theorem Link.Flows.step {label} (hsec : Secured config link) (hflows : link.Flows role)
    (hhonest : ¬label.Alters role) (hmoved : Moved config link label next) :
    next.Flows role := by
  have hcounted := (hsec role).counted hflows
  have hinterfere {owner : EncryptionRole} (hother : ¬owner = role) (channel : Channel) :
      (link.put owner (link.ends owner) owner channel).Flows role :=
    hflows.put_writer sameReading_refl fun hsame => absurd hsame.symm hother
  cases hmoved with
  | @write actor _ _ _ _ result _ _ hopen hwrote =>
    refine hflows.put_writer (by cases result <;> exact hwrote.sameReading) ?_
    rintro rfl
    exact hflows.wrote hcounted hopen hwrote
  | @flush actor _ _ result _ _ hopen hflush =>
    have hsame := sameReading_pollFlush hflush
    refine hflows.put_writer (by cases result <;> exact hsame) ?_
    rintro rfl
    exact hflows.flushedTo hcounted hopen (hsec role).writing hflush
  | @shutdown actor _ _ result _ _ hopen hshut =>
    have hsame := sameReading_pollShutdown hshut
    refine hflows.put_writer (by cases result <;> exact hsame) ?_
    rintro rfl
    exact hflows.shutTo hcounted hopen hshut
  | read hread => exact hflows.read hapart hsized hroomy hsec hread
  | tamper | close => exact hinterfere hhonest _

theorem flows_run (hhonest : ∀ label ∈ labels, ¬label.Alters role)
    (hrun : Trace (Step config) (start config) labels link) : link.Flows role := by
  have hboth : Secured config link ∧ link.Flows role := by
    refine hrun.preserves (fun now => Secured config now ∧ now.Flows role) ?_
      ⟨secured_start, flows_start⟩
    rintro label hlabel before after hstep ⟨hsec, hflows⟩
    have hmoved := moved_of_move hstep
    exact ⟨hsec.moved hapart hmoved,
      hflows.step hapart hsized hroomy hsec (hhonest label hlabel) hmoved⟩
  exact hboth.2

end Flows

/-- A read with room, made before the key has aged, of a transport that is ready. -/
def LinkMove.Eager (config : LinkConfig) (role : EncryptionRole) : LinkMove → Prop
  | .read actor room (⟨elapsed, .ready limit⟩ :: _) =>
    actor = role ∧ 0 < room ∧ 0 < limit ∧ elapsed < (config.budget role).maxAge
  | _ => False

theorem LinkMove.Eager.cases {label : LinkMove} (heager : label.Eager config role) :
    ∃ room elapsed limit rest, label = .read role room (⟨elapsed, .ready limit⟩ :: rest) ∧
      0 < room ∧ 0 < limit ∧ elapsed < (config.budget role).maxAge := by
  unfold Eager at heager
  split at heager
  · obtain ⟨rfl, hrest⟩ := heager
    exact ⟨_, _, _, _, rfl, hrest⟩
  · exact heager.elim

/-- Enough eager reads deliver all that was flushed. -/
theorem delivered_of_eager {labels : List LinkMove} (hapart : config.Apart)
    (hsized : config.Sized) (hroomy : config.Roomy role) (hsec : Secured config link)
    (hflows : link.Flows role) (heager : ∀ label ∈ labels, label.Eager config role.peer)
    (henough : (link.channels role).bytes = [] ∧ (link.ends role.peer).stream.plaintext = [] ∨
      unread (link.ends role.peer).stream (link.channels role) ≤ labels.length) :
    ∃ final, runs (move config) link labels = some final ∧
      (link.ends role).flushed <+: (final.ends role.peer).delivered := by
  induction labels generalizing link with
  | nil =>
    have hidle : (link.channels role).bytes = [] ∧ (link.ends role.peer).stream.plaintext = [] := by
      refine henough.elim id fun hunread => ?_
      simp only [unread, length_nil] at hunread
      exact ⟨length_eq_zero_iff.mp (by omega), length_eq_zero_iff.mp (by omega)⟩
    exact ⟨link, rfl, hflows.flushed_isPrefix hsized (hsec role).writing
      (hsec role).reading hidle.1 hidle.2⟩
  | cons label rest ih =>
    obtain ⟨room, elapsed, limit, later, rfl, hroom, hlimit, hyoung⟩ :=
      (heager label mem_cons_self).cases
    obtain ⟨⟨result, after, behind⟩, hread⟩ : ∃ polled,
      (link.ends role.peer).stream.pollRead link.decrypt room
        (⟨elapsed, .ready limit⟩ :: later) (link.channels role) = polled := ⟨_, rfl⟩
    let moved := (link.ends role.peer).read after result
    have hmove : link.move config (.read role.peer room (⟨elapsed, .ready limit⟩ :: later)) =
        some (link.put role.peer moved role behind) := by
      simp only [move, peer_peer, hread]
      rfl
    have hmoved := moved_of_move hmove
    have hreading := (hsec role).reading
    have hsame : (link.put role.peer moved role behind).ends role = link.ends role := by
      have hpeer := ends_put_peer link role.peer role moved behind
      rwa [peer_peer] at hpeer
    have hnext := ih (hsec.moved hapart hmoved)
      (hflows.step hapart hsized hroomy hsec id hmoved)
      (fun label hlabel => heager label (mem_cons_of_mem _ hlabel)) ?_
    · obtain ⟨final, hruns, hflushed⟩ := hnext
      rw [hsame] at hflushed
      exact ⟨final, by rw [runs, hmove, Option.bind_some, hruns], hflushed⟩
    · rw [ends_put, channels_put, End.stream_read]
      by_cases hidle : (link.channels role).bytes = [] ∧ (link.ends role.peer).stream.plaintext = []
      · exact .inl (idle_pollRead hidle.1 hidle.2 hread)
      have hless := hflows.progress hsized hroomy (opens_decrypt hapart hroomy hsec)
        (hsec role).writing hreading (authentic_decrypt hapart hsec _) hroom hlimit
        (by rwa [hreading.budget]) (by tauto) hread
      have hle := henough.resolve_left hidle
      rw [length_cons] at hle
      exact .inr (by omega)

/-- A read with room reports the end of the stream only between two records, the first of
which was authenticated. -/
theorem Reading.eof_of_pollRead {delivered} (hauthn : Authentic config role records decrypt)
    (hreading : Reading config role records delivered stream) (hroom : 0 < room)
    (hread : stream.pollRead decrypt room polls channel = (.ok [], after, behind)) :
    after.AtBoundary ∧ after.firstRecordReceived = true := by
  refine pollRead_rule (fun now _ => Reading config role records delivered now)
    (fun outcome now _ => outcome = .ok [] → now.AtBoundary ∧ now.firstRecordReceived = true)
    ?_ ?_ ?_ ?_ ?_ hreading hread rfl
  · intro now _ _ hplain hnone
    injection hnone with hnone
    rw [take_eq_nil_iff] at hnone
    rcases hnone with hzero | hempty
    · omega
    · exact absurd hempty hplain
  · exact fun _ _ hnow _ heof _ => hnow.eof heof
  · exact fun _ _ _ _ _ => nofun
  · intro now _ outcome _ _ hnow _ _ hturn hok
    cases hturn with
    | paused hres =>
      rw [hok] at hres
      rcases hres with hres | hres | hres <;> cases hres
    | ended | badLength => cases hok
    | finished _ hbdry hfirst => exact ⟨hbdry, hfirst⟩
    | bodyDone _ _ _ _ _ hopen =>
      rw [hok] at hopen
      rcases openRecord_cases hopen with
        ⟨_, hres, -⟩ | ⟨hres, -⟩ | ⟨_, hres, -⟩ <;> cases hres
  · exact fun _ _ _ _ hnow hempty hopen hturn => hnow.turn hauthn hempty hopen hturn

/-- The transport has ended before the first record or inside a record. -/
def Truncated (stream : EncryptedStream) (channel : Channel) : Prop :=
  stream.plaintext = [] ∧ (channel.bytes = [] ∧ channel.closed = true) ∧
    ¬(stream.AtBoundary ∧ stream.firstRecordReceived = true)

theorem Truncated.readTurn (htrunc : Truncated stream channel)
    (hyoung : elapsed < stream.budget.maxAge) :
    ∃ msg, (stream.readTurn decrypt channel ⟨elapsed, .ready limit⟩).1 =
      some (.err (.ioErr .unexpectedEof msg)) := by
  obtain ⟨-, hended, hinside⟩ := htrunc
  have hage : stream.budgetAgeExhausted elapsed = false := by
    rw [budgetAgeExhausted, decide_eq_false (Nat.not_le_of_lt hyoung)]
  have hpoll : channel.pollRead stream.capacity (.ready limit) = (.ok [], channel) := by
    rw [Channel.pollRead, hended.1, take_nil, if_neg (not_not.mpr rfl),
      if_pos (.inr ⟨rfl, hended.2⟩)]
  rw [EncryptedStream.readTurn, hage, if_neg Bool.false_ne_true, hpoll]
  cases hphase : stream.readPhase with
  | needBody => exact ⟨_, rfl⟩
  | needHeader =>
    dsimp only
    rw [takeHeader, if_pos rfl]
    split
    · exact ⟨_, rfl⟩
    next hheader =>
    rw [if_pos]
    · exact ⟨_, rfl⟩
    · exact fun hfirst => hinside ⟨⟨hphase, not_not.mp hheader⟩, hfirst⟩

/-- A truncated stream delivers nothing and does not end; a transport that is ready
makes it an error. -/
theorem Truncated.pollRead {delivered} (hreading : Reading config role records delivered stream)
    (htrunc : Truncated stream channel) {result}
    (hread : stream.pollRead decrypt room polls channel = (result, after, behind)) :
    (∀ bytes, result ≠ .ok bytes) ∧ ∀ elapsed limit rest, polls = ⟨elapsed, .ready limit⟩ :: rest →
        elapsed < stream.budget.maxAge → ∃ msg, result = .err (.ioErr .unexpectedEof msg) := by
  have hdead : Dead stream channel := ⟨htrunc.1, .inr htrunc.2.1⟩
  have hopen : stream.readEof ≠ true := fun heof => htrunc.2.2 (hreading.eof heof)
  have hempty : ¬stream.plaintext ≠ [] := not_not.mpr htrunc.1
  cases polls with
  | nil =>
    rw [EncryptedStream.pollRead, if_neg hempty, if_neg hopen] at hread
    cases hread
    exact ⟨by rintro _ ⟨⟩, by rintro _ _ _ ⟨⟩⟩
  | cons poll rest =>
    rw [EncryptedStream.pollRead, if_neg hempty, if_neg hopen] at hread
    split at hread
    · next outcome _ _ hturn =>
      cases hread
      refine ⟨?_, ?_⟩
      · rintro bytes rfl
        cases turn_of_readTurn hturn with
        | paused hres => rcases hres with hres | hres | hres <;> cases hres
        | finished _ hbdry hfirst => exact htrunc.2.2 ⟨hbdry, hfirst⟩
        | bodyDone _ _ _ _ _ hrec =>
          rcases openRecord_cases hrec with
            ⟨_, hres, -⟩ | ⟨hres, -⟩ | ⟨_, hres, -⟩ <;> cases hres
      · rintro elapsed limit _ hpolls hyoung
        cases hpolls
        obtain ⟨msg, hmsg⟩ := htrunc.readTurn hyoung
        rw [hturn] at hmsg
        cases hmsg
        exact ⟨msg, rfl⟩
    · next hturn => exact absurd rfl (hdead.turn (turn_of_readTurn hturn)).1

end Runs

section Channel

/-- The record layer is a tamper-evident channel.  For every run of the two ends and the
attacker, in each direction:

* what was delivered is a prefix of what the writer accepted, as long as its writes did
  not fail, and of that and the buffer of the failed `poll_write` otherwise;
* if nobody interfered and the reader's budget is at least the writer's, all that was
  accepted before a successful flush is delivered by enough reads that are made before
  the key has aged;
* behind an authentication, length or truncation error nothing more is delivered;
* the end of the stream is reported only between records, and an end of the transport
  before the first record or inside a record is an error. -/
theorem record_layer_tamper_evident (hapart : config.Apart) (hsized : config.Sized)
    {labels : List LinkMove} {link : Link}
    (hrun : Trace (Step config) (start config) labels link) (role : EncryptionRole) :
    ((link.ends role).writeFailed = false →
        (link.ends role.peer).delivered <+: (link.ends role).accepted) ∧
      (link.ends role.peer).delivered <+: (link.ends role).accepted ++ (link.ends role).refused ∧
      (config.Roomy role → (∀ label ∈ labels, ¬label.Alters role) →
        ∀ reads : List LinkMove, (∀ label ∈ reads, label.Eager config role.peer) →
          unread (link.ends role.peer).stream (link.channels role) ≤ reads.length →
          ∃ final, runs (move config) link reads = some final ∧
            (link.ends role).flushed <+: (final.ends role.peer).delivered) ∧
      ((link.ends role).readFailed = true → ∀ more final, Trace (Step config) link more final →
          (final.ends role).delivered = (link.ends role).delivered) ∧
      ∀ room polls result after behind, 0 < room →
        (link.ends role).stream.pollRead link.decrypt room polls (link.channels role.peer) =
          (result, after, behind) →
        (result = .ok [] → after.AtBoundary ∧ after.firstRecordReceived = true) ∧
          (Truncated (link.ends role).stream (link.channels role.peer) →
            (∀ bytes, result ≠ .ok bytes) ∧
              ∀ elapsed limit rest, polls = ⟨elapsed, .ready limit⟩ :: rest →
                elapsed < (link.ends role).stream.budget.maxAge →
                ∃ msg, result = .err (.ioErr .unexpectedEof msg)) := by
  have hsec := secured_run hapart hrun
  refine ⟨(hsec role).delivered_isPrefix_accepted, (hsec role).delivered_isPrefix, ?_,
    ?_, ?_⟩
  · intro hroomy hhonest reads heager henough
    exact delivered_of_eager hapart hsized hroomy hsec
      (flows_run hapart hsized hroomy hhonest hrun) heager (.inr henough)
  · intro hfail more final hmore
    exact delivered_of_readFailed hapart hsec hfail hmore
  · intro room polls result after behind hroom hread
    have hreading := (hsec role.peer).reading
    rw [peer_peer] at hreading
    refine ⟨?_, fun htrunc => htrunc.pollRead hreading hread⟩
    rintro rfl
    exact hreading.eof_of_pollRead (authentic_decrypt hapart hsec role.peer) hroom hread

/-- The initialisation vector 0, 1, ‥, 15 with the first twelve bytes of the two SHA-256
digests that `derive_nonce_bases` takes for it.  The ideal cipher puts an empty tag
behind the plaintext. -/
def sampleLink : LinkConfig where
  sha256 bytes :=
    if bytes = "rtcp-aead-nonce/A".toUTF8.toList ++ (range 16).map UInt8.ofNat then
      0x3bd069db0b8c8154a3ec9137#96
    else 0x59beb1a65492d2feab44dca8#96
  iv := (range 16).map UInt8.ofNat
  encrypt _ plaintext := some (plaintext ++ replicate 16 0)
  budget _ := .stream

theorem sampleLink_apart : sampleLink.Apart := by
  intro role first second _ _
  exact makeNonce_ne (by decide +kernel) first second

theorem sampleLink_sized : sampleLink.Sized := by
  intro nonce plaintext ciphertext henc
  cases henc
  simp [tagLen]

def sampleWrite (answer : InnerWrite) : LinkMove := .write .initiator 0 [7] [] [answer]

def sampleFlush : LinkMove := .flush .initiator [] .done

def sampleRead : LinkMove := .read .responder 1 [⟨0, .ready 100⟩, ⟨0, .ready 100⟩]

theorem record_layer_tamper_evident_sample : ∃ link, Trace (Step sampleLink) (start sampleLink)
        [sampleWrite (.accepted 100), sampleFlush] link ∧ (link.ends .initiator).flushed = [7] ∧
      ∃ final, runs (move sampleLink) link (replicate 50 sampleRead) = some final ∧
        [7] <+: (final.ends .responder).delivered := by
  obtain ⟨link, hruns, hflushed, hunread⟩ : ∃ link, runs (move sampleLink) (start sampleLink)
        [sampleWrite (.accepted 100), sampleFlush] = some link ∧
      (link.ends .initiator).flushed = [7] ∧
      unread (link.ends .responder).stream (link.channels .initiator) ≤ 50 :=
    ⟨_, rfl, rfl, by decide +kernel⟩
  have hrun := trace_runs hruns
  have hhonest : ∀ label ∈ [sampleWrite (.accepted 100), sampleFlush],
      ¬label.Alters .initiator := by simp [sampleWrite, sampleFlush, LinkMove.Alters]
  have heager : ∀ label ∈ replicate 50 sampleRead, label.Eager sampleLink .responder := by
    intro label hlabel
    obtain rfl := eq_of_mem_replicate hlabel
    simp [sampleRead, LinkMove.Eager, sampleLink, AeadUsageBudget.stream]
  obtain ⟨-, -, hdeliv, -⟩ :=
    record_layer_tamper_evident sampleLink_apart sampleLink_sized hrun .initiator
  have hfinal := hdeliv ⟨le_refl _, le_refl _⟩ hhonest _ heager hunread
  rw [hflushed] at hfinal
  exact ⟨link, hrun, hflushed, hfinal⟩

/-- Once the key has aged a read of an empty buffer changes nothing. -/
theorem pollRead_aged {decrypt} {stream after : EncryptedStream} {channel behind polls room result}
    (hempty : stream.plaintext = []) (haged : ∀ poll ∈ polls, stream.budget.maxAge ≤ poll.elapsed)
    (hread : stream.pollRead decrypt room polls channel = (result, after, behind)) :
    result.bytes = [] ∧ after = stream := by
  cases polls with
  | nil =>
    rw [EncryptedStream.pollRead, if_neg (not_not.mpr hempty)] at hread
    split at hread
    all_goals
      cases hread
      exact ⟨rfl, rfl⟩
  | cons poll rest =>
    have hage : stream.budgetAgeExhausted poll.elapsed = true :=
      decide_eq_true (haged poll mem_cons_self)
    have hturn : stream.readTurn decrypt channel poll =
        (some (.err (.budgetErr .keyAge)), stream, channel) := by
      rw [EncryptedStream.readTurn, if_pos hage]
    rw [EncryptedStream.pollRead, if_neg (not_not.mpr hempty), hturn] at hread
    split at hread
    all_goals
      cases hread
      exact ⟨rfl, rfl⟩

def LinkMove.Reads (role : EncryptionRole) : LinkMove → Prop
  | .read actor _ _ => actor = role
  | _ => False

/-- Reads of the role that all come after the key has aged. -/
def LinkMove.Late (config : LinkConfig) (role : EncryptionRole) : LinkMove → Prop
  | .read actor _ polls => actor = role ∧ ∀ poll ∈ polls, (config.budget role).maxAge ≤ poll.elapsed
  | _ => False

theorem LinkMove.Late.reads {role label} (hlate : LinkMove.Late config role label) :
    label.Reads role := by
  cases label with
  | read => exact hlate.1
  | _ => exact hlate

/-- A reader that gives nothing and stays as silent as it was has delivered all it ever
will, as long as only its reads happen. -/
theorem delivered_of_silent {role} {link final : Link}
    (Silent : EncryptedStream → Channel → Prop)
    (hsilent : ∀ decrypt room polls stream channel result after behind,
      .read role room polls ∈ labels → Silent stream channel →
      stream.pollRead decrypt room polls channel = (result, after, behind) →
      result.bytes = [] ∧ Silent after behind)
    (hreads : ∀ label ∈ labels, label.Reads role)
    (hlink : Silent (link.ends role).stream (link.channels role.peer))
    (hruns : runs (move config) link labels = some final) :
    (final.ends role).delivered = (link.ends role).delivered := by
  have hkept : Silent (final.ends role).stream (final.channels role.peer) ∧
      (final.ends role).delivered = (link.ends role).delivered := by
    refine (trace_runs hruns).preserves (fun now =>
      Silent (now.ends role).stream (now.channels role.peer) ∧
        (now.ends role).delivered = (link.ends role).delivered) ?_ ⟨hlink, rfl⟩
    rintro label hlabel before after hmove ⟨hnow, hdeliv⟩
    have hthis := hreads label hlabel
    cases label with
    | read actor room polls =>
      obtain rfl := hthis
      obtain ⟨⟨result, stream, channel⟩, hread⟩ : ∃ polled, (before.ends actor).stream.pollRead
        before.decrypt room polls (before.channels actor.peer) = polled := ⟨_, rfl⟩
      simp only [move, hread] at hmove
      cases hmove
      obtain ⟨hnone, hstill⟩ := hsilent _ _ _ _ _ _ _ _ hlabel hnow hread
      rw [ends_put, channels_put, End.stream_read, End.delivered_read, hnone, append_nil]
      exact ⟨hstill, hdeliv⟩
    | _ => exact hthis.elim
  exact hkept.2

theorem delivered_of_late {role} {link final : Link}
    (hlate : ∀ label ∈ labels, label.Late config role)
    (hempty : (link.ends role).stream.plaintext = [])
    (hbudg : (link.ends role).stream.budget = config.budget role)
    (hruns : runs (move config) link labels = some final) :
    (final.ends role).delivered = (link.ends role).delivered := by
  refine delivered_of_silent (fun stream _ => stream = (link.ends role).stream) ?_
    (fun label hlabel => (hlate label hlabel).reads) rfl hruns
  rintro decrypt room polls _ channel result after behind hlabel rfl hread
  refine pollRead_aged hempty ?_ hread
  rw [hbudg]
  exact (hlate _ hlabel).2

/-- A reader that may open one record of a writer that may send a million. -/
def tightLink : LinkConfig :=
  { sampleLink with
    budget := Function.update sampleLink.budget .responder
      { AeadUsageBudget.stream with maxRecordsPerDirection := 1 } }

/-- The second record stays in the buffer, which has no room for a byte of the third. -/
theorem spent_tightLink : (runs (move tightLink) (start tightLink)
    [sampleWrite (.accepted 100), sampleWrite (.accepted 100), sampleFlush, sampleRead,
      sampleRead]).any (fun link => (link.ends .initiator).flushed = [7, 7] ∧
        (link.ends .responder).delivered = [7] ∧ (link.ends .responder).stream.plaintext = [] ∧
        (link.ends .responder).stream.capacity = 0) = true := by
  decide +kernel

/-- A transport that takes a record and reports a failure has bytes delivered that
`poll_write` did not accept.  A reader that comes after the key has aged gets nothing of
what was flushed, and one whose budget is spent gets nothing behind the records that it
has opened. -/
theorem channel_not_absolute : (∃ link, runs (move sampleLink) (start sampleLink)
        [sampleWrite (.failed 100), sampleRead] = some link ∧
      (link.ends .initiator).accepted = [] ∧ (link.ends .responder).delivered = [7]) ∧
    (∃ link, runs (move sampleLink) (start sampleLink)
        [sampleWrite (.accepted 100), sampleFlush] = some link ∧
      (link.ends .initiator).flushed = [7] ∧
      ∀ labels final, (∀ label ∈ labels, label.Late sampleLink .responder) →
        runs (move sampleLink) link labels = some final →
        (final.ends .responder).delivered = []) ∧
    ∃ link, runs (move tightLink) (start tightLink)
        [sampleWrite (.accepted 100), sampleWrite (.accepted 100), sampleFlush, sampleRead,
          sampleRead] = some link ∧
      (link.ends .initiator).flushed = [7, 7] ∧
      ∀ labels final, (∀ label ∈ labels, label.Reads .responder) →
        runs (move tightLink) link labels = some final →
        (final.ends .responder).delivered = [7] := by
  refine ⟨⟨_, rfl, rfl, by decide +kernel⟩, ⟨_, rfl, rfl, ?_⟩, ?_⟩
  · intro labels final hlate hruns
    exact delivered_of_late hlate rfl rfl hruns
  · obtain ⟨link, hlink, hspent⟩ := (Option.any_eq_true _ _).mp spent_tightLink
    obtain ⟨hflushed, hdeliv, hempty, hfull⟩ := of_decide_eq_true hspent
    refine ⟨link, hlink, hflushed, fun labels final hreads hruns => ?_⟩
    have hkept := delivered_of_silent Dead
      (fun _ _ _ _ _ _ _ _ _ hdead hread => hdead.pollRead hread) hreads
      ⟨hempty, .inl hfull⟩ hruns
    exact hkept.trans hdeliv

end Channel

end CyfsGateway.Rtcp
