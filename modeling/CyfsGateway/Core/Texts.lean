import Mathlib

/-!
# Byte texts

UTF-8 texts as byte lists: lossy decoding, which replaces what is not UTF-8
by U+FFFD, and lower-case hexadecimal.
-/

namespace CyfsGateway.Texts

open List

/-! ## ASCII and UTF-8 -/

def IsAscii (bytes : List UInt8) : Prop := ∀ byte ∈ bytes, byte < 128

instance (bytes : List UInt8) : Decidable (IsAscii bytes) :=
  inferInstanceAs (Decidable (∀ byte ∈ bytes, byte < 128))

variable {byte : UInt8} {bytes : List UInt8}

@[simp]
theorem isAscii_cons : IsAscii (byte :: bytes) ↔ byte < 128 ∧ IsAscii bytes := by simp [IsAscii]

def replacement : List UInt8 := [0xEF, 0xBF, 0xBD]

/-- An unfinished character: the bytes read, how many are still owed and the
range the next one must lie in. -/
structure Pending where
  read : List UInt8
  owed : Nat
  low : UInt8
  high : UInt8

/-- What a lead byte announces; `none` for a byte that leads no character. -/
def Pending.lead (byte : UInt8) : Option Pending :=
  if 0xC2 ≤ byte ∧ byte ≤ 0xDF then some ⟨[byte], 1, 0x80, 0xBF⟩
  else if byte = 0xE0 then some ⟨[byte], 2, 0xA0, 0xBF⟩
  else if byte = 0xED then some ⟨[byte], 2, 0x80, 0x9F⟩
  else if 0xE1 ≤ byte ∧ byte ≤ 0xEF then some ⟨[byte], 2, 0x80, 0xBF⟩
  else if byte = 0xF0 then some ⟨[byte], 3, 0x90, 0xBF⟩
  else if 0xF1 ≤ byte ∧ byte ≤ 0xF3 then some ⟨[byte], 3, 0x80, 0xBF⟩
  else if byte = 0xF4 then some ⟨[byte], 3, 0x80, 0x8F⟩
  else none

/-- Start a character: the text to emit now and the character left unfinished. -/
def startChar (byte : UInt8) : List UInt8 × Option Pending :=
  if byte < 128 then ([byte], none)
  else
    match Pending.lead byte with
    | some pending => ([], some pending)
    | none => (replacement, none)

/-- Continue an unfinished character.  A byte that cannot continue it ends it
with a replacement and starts the next one. -/
def continueChar (pending : Pending) (byte : UInt8) : List UInt8 × Option Pending :=
  if pending.low ≤ byte ∧ byte ≤ pending.high then
    if pending.owed ≤ 1 then (pending.read ++ [byte], none)
    else ([], some ⟨pending.read ++ [byte], pending.owed - 1, 0x80, 0xBF⟩)
  else
    let (emitted, next) := startChar byte
    (replacement ++ emitted, next)

def decodeFrom : Option Pending → List UInt8 → List UInt8
  | none, [] => []
  | some _, [] => replacement
  | none, byte :: rest => (startChar byte).1 ++ decodeFrom (startChar byte).2 rest
  | some pending, byte :: rest =>
    (continueChar pending byte).1 ++ decodeFrom (continueChar pending byte).2 rest

def fromUtf8Lossy (bytes : List UInt8) : List UInt8 := decodeFrom none bytes

theorem fromUtf8Lossy_cons (hascii : byte < 128) (rest : List UInt8) :
    fromUtf8Lossy (byte :: rest) = byte :: fromUtf8Lossy rest := by
  simp [fromUtf8Lossy, decodeFrom, startChar, hascii]

def BeginsForeign (bytes : List UInt8) : Prop := ∃ byte rest, bytes = byte :: rest ∧ ¬byte < 128

theorem BeginsForeign.append (hforeign : BeginsForeign bytes)
    (rest : List UInt8) : BeginsForeign (bytes ++ rest) := by
  obtain ⟨byte, more, rfl, hbyte⟩ := hforeign
  exact ⟨byte, more ++ rest, rfl, hbyte⟩

theorem beginsForeign_replacement : BeginsForeign replacement := ⟨0xEF, _, rfl, by decide⟩

/-- An unfinished character yields itself or a replacement. -/
theorem beginsForeign_decodeFrom (hread : BeginsForeign pending.read) (bytes : List UInt8) :
    BeginsForeign (decodeFrom (some pending) bytes) := by
  induction bytes generalizing pending with
  | nil => exact beginsForeign_replacement
  | cons byte rest ih =>
    rw [decodeFrom, continueChar]
    split
    · split
      · exact (hread.append [byte]).append _
      · exact ih (hread.append [byte])
    · exact (beginsForeign_replacement.append _).append _

theorem lead_read (hlead : Pending.lead byte = some pending) : pending.read = [byte] := by
  simp only [Pending.lead] at hlead
  repeat' split at hlead
  all_goals first
    | (obtain rfl := Option.some.inj hlead; rfl)
    | simp at hlead

theorem beginsForeign_fromUtf8Lossy (hforeign : ¬byte < 128)
    (rest : List UInt8) : BeginsForeign (fromUtf8Lossy (byte :: rest)) := by
  rw [fromUtf8Lossy, decodeFrom, startChar, if_neg hforeign]
  cases hlead : Pending.lead byte with
  | none => exact beginsForeign_replacement.append _
  | some pending =>
    have hread : BeginsForeign pending.read := by
      rw [lead_read hlead]
      exact ⟨byte, [], rfl, hforeign⟩
    exact beginsForeign_decodeFrom hread rest

/-- A lossy decoding keeps what is ASCII, and what it makes of a byte outside ASCII
begins outside ASCII. -/
structure LossyUtf8 (decode : List UInt8 → List UInt8) : Prop where
  nil : decode [] = []
  cons : ∀ byte rest, byte < 128 → decode (byte :: rest) = byte :: decode rest
  foreign : ∀ byte rest, ¬byte < 128 → BeginsForeign (decode (byte :: rest))

theorem lossyUtf8_fromUtf8Lossy : LossyUtf8 fromUtf8Lossy where
  nil := rfl
  cons _ rest hascii := fromUtf8Lossy_cons hascii rest
  foreign _ rest hforeign := beginsForeign_fromUtf8Lossy hforeign rest

namespace LossyUtf8

variable {decode : List UInt8 → List UInt8} (hlossy : LossyUtf8 decode)

include hlossy

theorem append (hascii : IsAscii bytes) (rest : List UInt8) :
    decode (bytes ++ rest) = bytes ++ decode rest := by
  induction bytes with
  | nil => rfl
  | cons byte bytes ih =>
    rw [isAscii_cons] at hascii
    rw [cons_append, hlossy.cons _ _ hascii.1, ih hascii.2, cons_append]

theorem of_isAscii (hascii : IsAscii bytes) : decode bytes = bytes := by
  simpa [hlossy.nil] using hlossy.append hascii []

theorem eq_nil_iff : decode bytes = [] ↔ bytes = [] := by
  constructor
  · intro hnil
    cases bytes with
    | nil => rfl
    | cons byte rest =>
      by_cases hascii : byte < 128
      · rw [hlossy.cons _ _ hascii] at hnil
        cases hnil
      · obtain ⟨first, more, hfirst, -⟩ := hlossy.foreign byte rest hascii
        rw [hfirst] at hnil
        cases hnil
  · rintro rfl
    exact hlossy.nil

theorem isAscii_iff : IsAscii (decode bytes) ↔ IsAscii bytes := by
  constructor
  · intro hascii
    induction bytes with
    | nil => rwa [hlossy.nil] at hascii
    | cons byte rest ih =>
      by_cases hbyte : byte < 128
      · rw [hlossy.cons _ _ hbyte, isAscii_cons] at hascii
        exact isAscii_cons.mpr ⟨hbyte, ih hascii.2⟩
      · obtain ⟨first, more, hfirst, hforeign⟩ := hlossy.foreign byte rest hbyte
        rw [hfirst, isAscii_cons] at hascii
        exact absurd hascii.1 hforeign
  · intro hascii
    rwa [hlossy.of_isAscii hascii]

/-- Decoding neither adds nor removes an ASCII start. -/
theorem start_iff (hascii : IsAscii start) : start <+: decode bytes ↔ start <+: bytes := by
  constructor
  · induction start generalizing bytes with
    | nil => exact fun _ => nil_prefix
    | cons byte start ih =>
      intro hstart
      rw [isAscii_cons] at hascii
      cases bytes with
      | nil =>
        rw [hlossy.nil, prefix_nil] at hstart
        cases hstart
      | cons first rest =>
        by_cases hfirst : first < 128
        · rw [hlossy.cons _ _ hfirst, cons_prefix_cons] at hstart
          exact cons_prefix_cons.mpr ⟨hstart.1, ih hascii.2 hstart.2⟩
        obtain ⟨foreign, more, hdec, hforeign⟩ := hlossy.foreign first rest hfirst
        rw [hdec, cons_prefix_cons] at hstart
        exact absurd (hstart.1 ▸ hascii.1) hforeign
  · rintro ⟨rest, rfl⟩
    rw [hlossy.append hascii]
    exact prefix_append start _

end LossyUtf8

/-! ## Hexadecimal -/

def hexDigit (value : UInt8) : UInt8 := if value < 10 then 48 + value else 87 + value

def isHexDigit (byte : UInt8) : Bool :=
  (48 ≤ byte && byte ≤ 57) || (65 ≤ byte && byte ≤ 70) || (97 ≤ byte && byte ≤ 102)

def hexByte (byte : UInt8) : List UInt8 := [hexDigit (byte / 16), hexDigit (byte % 16)]

def hexEncode (bytes : List UInt8) : List UInt8 := bytes.flatMap hexByte

theorem hexEncode_cons (byte : UInt8) (bytes : List UInt8) : hexEncode (byte :: bytes) =
      hexDigit (byte / 16) :: hexDigit (byte % 16) :: hexEncode bytes := rfl

theorem length_hexEncode (bytes : List UInt8) : (hexEncode bytes).length = 2 * bytes.length := by
  induction bytes with
  | nil => rfl
  | cons byte bytes ih =>
    rw [hexEncode_cons, length_cons, length_cons, ih, length_cons]
    omega

theorem all_hexByte (byte : UInt8) : (hexByte byte).all isHexDigit = true := by
  revert byte
  decide +kernel

def hexValue (digit : UInt8) : UInt8 := if digit < 58 then digit - 48 else digit - 87

theorem hexValue_hexDigits (byte : UInt8) :
    16 * hexValue (hexDigit (byte / 16)) + hexValue (hexDigit (byte % 16)) = byte := by
  revert byte
  decide +kernel

theorem all_hexEncode (bytes : List UInt8) : (hexEncode bytes).all isHexDigit = true := by
  rw [hexEncode, all_flatMap, all_eq_true]
  exact fun byte _ => all_hexByte byte

theorem hexEncode_injective (heq : hexEncode left = hexEncode right) : left = right := by
  induction left generalizing right with
  | nil =>
    have hlen := congrArg length heq
    rw [length_hexEncode, length_hexEncode] at hlen
    exact (eq_nil_of_length_eq_zero (by simpa using hlen.symm)).symm
  | cons byte bytes ih =>
    cases right with
    | nil => cases heq
    | cons other others =>
      rw [hexEncode_cons, hexEncode_cons, cons.injEq, cons.injEq] at heq
      obtain ⟨hhigh, hlow, hrest⟩ := heq
      have hbyte : byte = other := by
        rw [← hexValue_hexDigits byte, hhigh, hlow, hexValue_hexDigits]
      rw [hbyte, ih hrest]

end CyfsGateway.Texts
