import CyfsGateway.Bns.Contents
import CyfsGateway.Indexer.Conversion

/-!
# Agreement of the validators

The contract and the indexer check names, document types, DIDs, hashes,
principals and document references independently.  What the contract accepts
converts and passes the indexer's check, except for DIDs of the `bns` method:
the indexer wants a canonical name in them and the contract does not look.
-/

namespace CyfsGateway.BnsValidators

open Evm Texts Reverting Checks BnsModel BnsConversion BnsValidation List
open BnsValidation (validName validateNameLoop validDocType validDid dot hyphen storageInline)
open BnsContents (SoundRef)
open AbiDecoder (decodeString lossy)

@[mk_iff]
structure IsLabel (label : Bytes) : Prop where
  nonempty : label ≠ []
  short : label.length ≤ 126
  start : label.head? ≠ some 45
  stop : label.getLast? ≠ some 45
  bytes : label.all isLabelByte = true

variable {name : Bytes}

theorem validateLabel_ok_iff : validateLabel name label = .ok () ↔ IsLabel label := by
  simp only [validateLabel, rejectIf_ok_iff, List.isEmpty_iff, not_or, Nat.not_lt, gt_iff_lt,
    Bool.not_eq_true', Bool.not_eq_false, and_true]
  constructor
  · rintro ⟨hempty, hshort, ⟨hstart, hstop⟩, hbytes⟩
    exact ⟨hempty, hshort, hstart, hstop, hbytes⟩
  · rintro ⟨hempty, hshort, hstart, hstop, hbytes⟩
    exact ⟨hempty, hshort, ⟨hstart, hstop⟩, hbytes⟩

theorem splitOn_cons_dot (rest : Bytes) :
    (46 :: rest : Bytes).splitOn 46 = [] :: rest.splitOn 46 := by
  simp [splitOn, splitOnP_cons_eq_if_modifyHead]

theorem splitOn_cons_of_ne {byte : UInt8} (hne : byte ≠ 46) {rest label : Bytes}
    {others : List Bytes} (hrest : rest.splitOn 46 = label :: others) :
    (byte :: rest).splitOn 46 = (byte :: label) :: others := by
  rw [splitOn] at hrest
  rw [splitOn, splitOnP_cons_eq_if_modifyHead, hrest]
  simp [hne]

/-- What is left of the label that has begun. -/
@[mk_iff]
structure EndsLabel (previous : UInt8) (labelLength : Nat) (part : Bytes) : Prop where
  nonempty : labelLength + part.length ≠ 0
  short : labelLength + part.length ≤ 126
  start : labelLength = 0 → part.head? ≠ some 45
  stop : part.getLast?.getD previous ≠ 45
  bytes : part.all isLabelByte = true

theorem endsLabel_zero_iff : EndsLabel previous 0 label ↔ IsLabel label := by
  rcases eq_or_ne label [] with rfl | hne
  · exact ⟨fun hends => absurd rfl hends.nonempty, fun hlabel => absurd rfl hlabel.nonempty⟩
  · simp [endsLabel_iff, isLabel_iff, getLast?_eq_some_getLast hne, hne]

/-- The parts of the rest of an accepted name: the first one ends the label that has
begun, the others are labels of their own. -/
def EndsName (previous : UInt8) (labelLength dots : Nat) : List Bytes → Prop
  | [] => False
  | part :: others => EndsLabel previous labelLength part ∧ (∀ other ∈ others, IsLabel other) ∧
      others.length ≤ 1 - dots

theorem validateNameLoop_iff {rest : Bytes} {previous : UInt8} {labelLength dots : Nat} :
    validateNameLoop rest previous labelLength dots = true ↔
      EndsName previous labelLength dots (rest.splitOn 46) := by
  induction rest generalizing previous labelLength dots with
  | nil => simp [validateNameLoop, hyphen, EndsName, endsLabel_iff, and_assoc]
  | cons char rest ih =>
    obtain ⟨part, others, hsplit⟩ := exists_cons_of_ne_nil (splitOn_ne_nil 46 rest)
    simp only [hsplit] at ih
    by_cases hdot : char = 46
    · -- the label ends here and the next one begins
      subst hdot
      have hloop : validateNameLoop (46 :: rest) previous labelLength dots = true ↔
          EndsLabel previous labelLength [] ∧ dots = 0 ∧
            validateNameLoop rest 46 0 (dots + 1) = true := by
        simp [validateNameLoop, endsLabel_iff, dot, hyphen, and_assoc]
      have hdots : others.length + 1 ≤ 1 - dots ↔ dots = 0 ∧ others.length ≤ 1 - (dots + 1) := by
        omega
      rw [splitOn_cons_dot, hsplit, hloop, ih, EndsName, EndsName, endsLabel_zero_iff,
        forall_mem_cons, length_cons, hdots]
      tauto
    · have hbyte : isLabelByte char = (BnsValidation.isLowerOrDigit char || char == hyphen) := rfl
      have hloop : validateNameLoop (char :: rest) previous labelLength dots = true ↔
          (labelLength = 0 → char ≠ 45) ∧ isLabelByte char = true ∧
            validateNameLoop rest char (labelLength + 1) dots = true := by
        simp [validateNameLoop, hbyte, dot, hyphen, hdot, imp_iff_not_or]
      have hpart : EndsLabel previous labelLength (char :: part) ↔
          (labelLength = 0 → char ≠ 45) ∧ isLabelByte char = true ∧
            EndsLabel char (labelLength + 1) part := by
        simp [endsLabel_iff, getLast?_cons, Nat.add_right_comm, ← Nat.add_assoc]
        tauto
      rw [splitOn_cons_of_ne hdot hsplit, hloop, ih, EndsName, EndsName, hpart]
      tauto

/-- What `canonical_bns_name` accepts. -/
structure IsCanonical (name : Bytes) : Prop where
  nonempty : name ≠ []
  trimmed : hasOuterWhitespace name = false
  bare : didBns.isPrefixOf name = false
  short : name.length ≤ 253
  labels : ∀ label ∈ name.splitOn 46, IsLabel label

theorem canonicalBnsName_ok_iff :
    canonicalBnsName name = .ok result ↔ IsCanonical name ∧ result = name := by
  have hchecks : (name.splitOn 46).forM (validateLabel name) = .ok () ↔
      ∀ label ∈ name.splitOn 46, IsLabel label := by simp only [forM_ok_iff, validateLabel_ok_iff]
  simp only [canonicalBnsName, rejectIf_ok_iff, then_ok_iff, done_ok_iff, List.isEmpty_iff,
    Bool.not_eq_true, Nat.not_lt, gt_iff_lt]
  constructor
  · rintro ⟨hempty, htrimmed, hbare, hshort, ⟨⟩, hlabels, rfl⟩
    exact ⟨⟨hempty, htrimmed, hbare, hshort, hchecks.mp hlabels⟩, rfl⟩
  · rintro ⟨⟨hempty, htrimmed, hbare, hshort, hlabels⟩, rfl⟩
    exact ⟨hempty, htrimmed, hbare, hshort, (), hchecks.mpr hlabels, rfl⟩

def isNameByte (byte : UInt8) : Bool := isLabelByte byte || byte == 46

theorem all_isNameByte (hlabels : ∀ label ∈ name.splitOn 46, label.all isLabelByte = true) :
    name.all isNameByte = true := by
  induction name with
  | nil => rfl
  | cons byte rest ih =>
    by_cases hdot : byte = 46
    · subst hdot
      rw [splitOn_cons_dot, forall_mem_cons] at hlabels
      rw [all_cons, ih hlabels.2]
      rfl
    · obtain ⟨label, others, hsplit⟩ := exists_cons_of_ne_nil (splitOn_ne_nil 46 rest)
      rw [splitOn_cons_of_ne hdot hsplit, forall_mem_cons, all_cons, Bool.and_eq_true] at hlabels
      rw [hsplit, forall_mem_cons] at ih
      rw [all_cons, ih ⟨hlabels.1.2, hlabels.2⟩, isNameByte, hlabels.1.1]
      rfl

theorem isNameByte_lt (hbyte : isNameByte byte = true) : byte < 128 := by
  revert byte
  decide +kernel

theorem isAscii_of_isNameByte (hbytes : name.all isNameByte = true) : IsAscii name :=
  fun byte hbyte => isNameByte_lt (all_eq_true.mp hbytes byte hbyte)

theorem IsCanonical.isAscii (hcanon : IsCanonical name) : IsAscii name :=
  isAscii_of_isNameByte (all_isNameByte fun label hlabel => (hcanon.labels label hlabel).bytes)

theorem not_subset_of_isNameByte (hbytes : name.all isNameByte = true)
    (hpart : part.all isNameByte = false) : ¬part ⊆ name := by
  intro hsubset
  rw [all_eq_false] at hpart
  obtain ⟨byte, hbyte, hforeign⟩ := hpart
  exact hforeign (all_eq_true.mp hbytes byte (hsubset hbyte))

theorem validName_iff_labels : validName name = true ↔ name ≠ [] ∧ name.length ≤ 253 ∧
    (∀ label ∈ name.splitOn 46, IsLabel label) ∧ (name.splitOn 46).length ≤ 2 := by
  obtain ⟨part, others, hsplit⟩ := exists_cons_of_ne_nil (splitOn_ne_nil 46 name)
  rw [validName, Bool.and_eq_true, validateNameLoop_iff, hsplit, EndsName, endsLabel_zero_iff,
    forall_mem_cons, length_cons]
  simp [and_assoc]

/-- The contract's names are the canonical ones of two labels at most. -/
theorem validName_iff :
    validName name = true ↔ IsCanonical name ∧ (name.splitOn 46).length ≤ 2 := by
  rw [validName_iff_labels]
  constructor
  · rintro ⟨hnonempty, hshort, hlabels, hcount⟩
    have hall := all_isNameByte fun part hpart => (hlabels part hpart).bytes
    refine ⟨⟨hnonempty, ?_, ?_, hshort, hlabels⟩, hcount⟩
    · rw [hasOuterWhitespace, any_eq_false]
      intro space hspace
      have hforeign : ∀ blank ∈ whitespace, blank.all isNameByte = false := by decide
      have hnot := not_subset_of_isNameByte hall (hforeign space hspace)
      rw [Bool.or_eq_true, isPrefixOf_iff_prefix, isSuffixOf_iff_suffix]
      rintro (hbefore | hafter)
      · exact hnot hbefore.subset
      · exact hnot hafter.subset
    · rw [Bool.eq_false_iff, ne_eq, isPrefixOf_iff_prefix]
      exact fun hbefore => not_subset_of_isNameByte hall (by decide) hbefore.subset
  · rintro ⟨⟨hnonempty, -, -, hshort, hlabels⟩, hcount⟩
    exact ⟨hnonempty, hshort, hlabels, hcount⟩

section ValidNames

variable (hvalid : validName name = true)

include hvalid

theorem isCanonical_of_validName : IsCanonical name := (validName_iff.mp hvalid).1

theorem canonicalBnsName_of_validName : canonicalBnsName name = .ok name :=
  canonicalBnsName_ok_iff.mpr ⟨isCanonical_of_validName hvalid, rfl⟩

theorem decode_of_validName (hlossy : LossyUtf8 decode) : decode name = name :=
  hlossy.of_isAscii (isCanonical_of_validName hvalid).isAscii

theorem canonicalBnsNameOrEmpty_of_validName : canonicalBnsNameOrEmpty name = .ok name := by
  rw [canonicalBnsNameOrEmpty, if_neg, canonicalBnsName_of_validName hvalid]
  simpa using (isCanonical_of_validName hvalid).nonempty

end ValidNames

variable {docType : Bytes}

theorem canonicalDocType_ok_iff :
    canonicalDocType docType = .ok result ↔ validDocType docType = true ∧ result = docType := by
  simp only [validDocType, canonicalDocType, rejectIf_ok_iff, List.isEmpty_iff, Nat.not_lt,
    gt_iff_lt, Bool.not_eq_true', Bool.not_eq_false, Bool.and_eq_true, Bool.or_eq_false_iff,
    beq_eq_false_iff_ne, decide_eq_false_iff_not, ne_eq, length_eq_zero_iff, Except.ok.injEq]
  constructor
  · rintro ⟨hempty, hshort, hbytes, rfl⟩
    exact ⟨⟨⟨hempty, hshort⟩, hbytes⟩, rfl⟩
  · rintro ⟨⟨⟨hempty, hshort⟩, hbytes⟩, rfl⟩
    exact ⟨hempty, hshort, hbytes, rfl⟩

theorem canonicalDocType_of_validDocType (hvalid : validDocType docType = true) :
    canonicalDocType docType = .ok docType := canonicalDocType_ok_iff.mpr ⟨hvalid, rfl⟩

theorem isAscii_of_validDocType (hvalid : validDocType docType = true) : IsAscii docType := by
  rw [validDocType, Bool.and_eq_true] at hvalid
  intro byte hbyte
  have hallow := all_eq_true.mp hvalid.2 byte hbyte
  clear hbyte
  revert byte
  decide +kernel

theorem canonicalDocTypeOrEmpty_of_validDocType [AbiDecoder]
    (hvalid : docType.length ≠ 0 → validDocType docType = true) :
    canonicalDocTypeOrEmpty (decodeString docType) = .ok docType := by
  by_cases hempty : docType.length = 0
  · rw [eq_nil_of_length_eq_zero hempty, lossy.nil]
    rfl
  have hdoc := hvalid hempty
  rw [lossy.of_isAscii (isAscii_of_validDocType hdoc), canonicalDocTypeOrEmpty,
    if_neg, canonicalDocType_of_validDocType hdoc]
  simpa using fun hnil => hempty (by rw [hnil]; rfl)

theorem parentName_eq (name : Bytes) :
    BnsValidation.parentName name = (BnsModel.parentName name).getD [] := by
  induction name with
  | nil => rfl
  | cons byte rest ih =>
    rw [BnsValidation.parentName, ih, BnsModel.parentName, BnsModel.parentName]
    by_cases hdot : byte = 46 <;> simp [hdot, dot]

theorem label_of_parentName {parent : Bytes} (hpar : BnsModel.parentName name = some parent) :
    ∃ label, name = label ++ 46 :: parent ∧ name.splitOn 46 = label :: parent.splitOn 46 := by
  induction name with
  | nil => cases hpar
  | cons byte rest ih =>
    by_cases hdot : byte = 46
    · subst hdot
      cases hpar
      exact ⟨[], rfl, splitOn_cons_dot _⟩
    · rw [BnsModel.parentName, dropWhile_cons_of_pos (by simpa using hdot)] at hpar
      obtain ⟨label, hname, hsplit⟩ := ih hpar
      exact ⟨byte :: label, by rw [hname, cons_append], splitOn_cons_of_ne hdot hsplit⟩

theorem validName_parentName (hvalid : validName name = true)
    (hpar : BnsModel.parentName name = some parent) : parent ≠ [] ∧ validName parent = true := by
  rw [validName_iff_labels] at hvalid ⊢
  obtain ⟨-, hshort, hlabels, hcount⟩ := hvalid
  obtain ⟨label, hname, hsplit⟩ := label_of_parentName hpar
  rw [hname, length_append, length_cons] at hshort
  rw [hsplit, length_cons] at hcount
  rw [hsplit, forall_mem_cons] at hlabels
  have hnonempty : parent ≠ [] := by
    rintro rfl
    exact (hlabels.2 [] mem_cons_self).nonempty rfl
  exact ⟨hnonempty, hnonempty, by omega, hlabels.2, by omega⟩

/-- The contract and the client accept the same names and document types, and they
agree on parents. -/
theorem names_and_types_agree (bytes : Bytes) :
    ((∃ hash, validateName bytes = .ok hash) ↔ fromUtf8Lossy bytes = bytes ∧
        (∃ name, canonicalBnsName bytes = .ok name) ∧ ensureRegisterableDepth bytes = .ok ()) ∧
      (∀ hash, validateName bytes = .ok hash → canonicalBnsName bytes = .ok bytes ∧
        (BnsModel.parentName bytes = if BnsValidation.parentName bytes = [] then none
          else some (BnsValidation.parentName bytes)) ∧
        ∀ parent, BnsModel.parentName bytes = some parent →
          ∃ hash, validateName parent = .ok hash) ∧
      ((∃ hash, validateDocType bytes = .ok hash) ↔ fromUtf8Lossy bytes = bytes ∧
        ∃ docType, canonicalDocType bytes = .ok docType) := by
  simp only [validateName_ok_iff, validateDocType_ok_iff, canonicalBnsName_ok_iff,
    canonicalDocType_ok_iff, ensureRegisterableDepth, rejectIf_ok_iff, Nat.not_lt, gt_iff_lt,
    exists_and_left, exists_eq, and_true, ← validName_iff]
  have hlossy := lossyUtf8_fromUtf8Lossy
  refine ⟨⟨fun hvalid => ⟨decode_of_validName hvalid hlossy, hvalid⟩, And.right⟩, ?_,
    fun hvalid => ⟨hlossy.of_isAscii (isAscii_of_validDocType hvalid), hvalid⟩, And.right⟩
  rintro _ ⟨hvalid, -⟩
  refine ⟨isCanonical_of_validName hvalid, ?_, fun _ hpar =>
    (validName_parentName hvalid hpar).2⟩
  rw [parentName_eq]
  cases hpar : BnsModel.parentName bytes with
  | none => rfl
  | some parent => exact (if_neg (validName_parentName hvalid hpar).1).symm

theorem validateHash_hashString (hash : Bytes32) : validateHash (hashString hash) = .ok () := by
  have hstrip : stripHexMarker (hashString hash) = hexEncode hash.val := by
    rw [stripHexMarker, if_pos]
    · rfl
    · exact isPrefixOf_iff_prefix.mpr (prefix_append _ _)
  have hlen : (hexEncode hash.val).length = 64 := by rw [length_hexEncode, hash.property]
  simp only [validateHash, hstrip, rejectIf_ok_iff, hlen, all_hexEncode]
  simp

theorem length_hashString (hash : Bytes32) : (hashString hash).length = 66 := by
  rw [hashString, length_append, length_hexEncode, hash.property]
  rfl

theorem length_addressOrEmpty (hnz : address ≠ .zero) :
    (addressOrEmpty address).length = 42 := by
  rw [addressOrEmpty, if_neg hnz, length_append, length_hexEncode, address.property]
  rfl

theorem bytes32LabelOrHash_ne_nil (value : Bytes32) : bytes32LabelOrHash value ≠ [] := by
  simp only [bytes32LabelOrHash]
  split
  · decide
  split
  · rename_i hlabel
    exact ne_nil_of_length_pos hlabel.1
  · apply ne_nil_of_length_pos
    rw [length_hashString]
    decide

theorem replicate_of_all_zero {padding : Bytes} (hzero : padding.all (· == 0) = true) :
    padding = replicate padding.length 0 := by
  rw [all_eq_true] at hzero
  exact eq_replicate_of_mem fun byte hbyte => by simpa using hzero byte hbyte

theorem hashString_injective (hequal : hashString left = hashString right) : left = right :=
  Subtype.ext (hexEncode_injective (append_cancel_left hequal))

/-- A word reads as its digits, or as the label it pads with zeros. -/
theorem bytes32LabelOrHash_cases (value : Bytes32) : bytes32LabelOrHash value = hashString value ∨
      ((bytes32LabelOrHash value).length ≤ 32 ∧ value.val = bytes32LabelOrHash value ++
          replicate (32 - (bytes32LabelOrHash value).length) 0) := by
  by_cases hzero : value = .zero
  · subst hzero
    exact .inl (by decide)
  by_cases htext : (value.val.takeWhile (· != 0)).length > 0 ∧
      (value.val.dropWhile (· != 0)).all (· == 0) = true ∧
      (value.val.takeWhile (· != 0)).all isLabelChar = true
  · right
    have hlabel : bytes32LabelOrHash value = value.val.takeWhile (· != 0) := by
      simp only [bytes32LabelOrHash]
      rw [if_neg hzero, if_pos htext]
    have hwhole := takeWhile_append_dropWhile (p := (· != 0)) (l := value.val)
    have hpadding := replicate_of_all_zero htext.2.1
    have htotal := congrArg length hwhole
    rw [length_append, value.property] at htotal
    have hcount : (value.val.dropWhile (· != 0)).length =
        32 - (value.val.takeWhile (· != 0)).length := by omega
    rw [hlabel]
    refine ⟨by omega, ?_⟩
    rw [← hcount, ← hpadding, hwhole]
  · left
    simp only [bytes32LabelOrHash]
    rw [if_neg hzero, if_neg htext]

theorem bytes32LabelOrHash_injective
    (hequal : bytes32LabelOrHash left = bytes32LabelOrHash right) : left = right := by
  have hlen := length_hashString left
  have hother := length_hashString right
  rcases bytes32LabelOrHash_cases left with hleft | ⟨hleft, hvalue⟩ <;>
    rcases bytes32LabelOrHash_cases right with hright | ⟨hright, hpadded⟩
  · exact hashString_injective (by rw [← hleft, ← hright, hequal])
  · rw [← hequal, hleft] at hright
    omega
  · rw [hequal, hright] at hleft
    omega
  · rw [← hequal] at hpadded
    exact Subtype.ext (hvalue.trans hpadded.symm)

theorem bytes32LabelOrHash_inline_iff :
    bytes32LabelOrHash value = storageTypeInline ↔ value = storageInline := by
  have hinline : bytes32LabelOrHash storageInline = storageTypeInline := by decide
  rw [← hinline]
  exact ⟨bytes32LabelOrHash_injective, fun hvalue => by rw [hvalue]⟩

/-! ## DIDs -/

theorem isCanonical_decode_iff (hlossy : LossyUtf8 decode) :
    IsCanonical (decode name) ↔ IsCanonical name := by
  constructor
  · intro hcanon
    have hascii := hlossy.isAscii_iff.mp hcanon.isAscii
    rwa [hlossy.of_isAscii hascii] at hcanon
  · intro hcanon
    rwa [hlossy.of_isAscii hcanon.isAscii]

/-- A DID that is not of the `bns` method, or names a canonical name. -/
def ForeignOrCanonical (did : Bytes) : Prop := ∀ name, did = didBns ++ name → IsCanonical name

theorem validateDid_of_bns (name : Bytes) :
    BnsModel.validateDid (didBns ++ name) = .ok () ↔ IsCanonical name := by
  have hstart : didBns.isPrefixOf (didBns ++ name) = true :=
    isPrefixOf_iff_prefix.mpr (prefix_append _ _)
  rw [BnsModel.validateDid, if_pos hstart, drop_left]
  simp only [then_ok_iff, canonicalBnsName_ok_iff, done_ok_iff]
  simp

/-- Of the DIDs the contract accepts, the indexer refuses those of the `bns`
method without a canonical name. -/
theorem validateDid_decode_iff (hlossy : LossyUtf8 decode) (hvalid : validDid did = true) :
    BnsModel.validateDid (decode did) = .ok () ↔ ForeignOrCanonical did := by
  have hmethod : IsAscii didBns := by decide +kernel
  by_cases hbns : didBns <+: did
  · obtain ⟨name, rfl⟩ := hbns
    rw [hlossy.append hmethod, validateDid_of_bns, isCanonical_decode_iff hlossy]
    constructor
    · intro hcanon other hother
      rwa [← append_cancel_left hother]
    · intro hcanon
      exact hcanon name rfl
  · have hforeign : ¬didBns.isPrefixOf (decode did) = true := by
      rwa [List.isPrefixOf_iff_prefix, hlossy.start_iff hmethod]
    have hscheme : IsAscii (text "did:") := by decide +kernel
    rw [validDid, Bool.and_eq_true, decide_eq_true_eq, beq_iff_eq] at hvalid
    obtain ⟨hlen, hstart⟩ := hvalid
    obtain ⟨rest, hdid⟩ : ∃ rest, did = text "did:" ++ rest :=
      ⟨did.drop 4, by rw [← hstart, take_append_drop]⟩
    have hrest : decode rest ≠ [] := by
      rw [ne_eq, hlossy.eq_nil_iff]
      rintro rfl
      rw [hdid] at hlen
      exact absurd hlen (by decide)
    have hdec : decode did = text "did:" ++ decode rest := by
      rw [hdid, hlossy.append hscheme]
    have hacc : (text "did:").isPrefixOf (decode did) = true ∧
        (decode did).length > 4 := by
      rw [List.isPrefixOf_iff_prefix, hdec, length_append]
      have hpos := length_pos_of_ne_nil hrest
      have hfour : (text "did:").length = 4 := by decide
      exact ⟨prefix_append _ _, by omega⟩
    rw [BnsModel.validateDid, if_neg hforeign, if_pos hacc]
    constructor
    · rintro - name rfl
      exact absurd (prefix_append _ _) hbns
    · exact fun _ => rfl

theorem length_of_tryAddressFromBytes (haddr : tryAddressFromBytes value = some account) :
    value.length = 20 ∨ value.length = 32 := by
  rw [tryAddressFromBytes] at haddr
  split at haddr
  · exact .inl (by assumption)
  split at haddr
  · exact .inr (by assumption)
  · cases haddr

theorem principalFromEvm_bnsName (hkind : principal.kind = .bnsName)
    (hvalid : validName principal.value = true) :
    principalFromEvm principal = .ok { kind := .bnsName, value := principal.value } := by
  simp [principalFromEvm, hkind, decode_of_validName hvalid lossyUtf8_fromUtf8Lossy,
    Principal.bnsName,
    canonicalBnsName_of_validName hvalid, bind, Except.bind, pure, Except.pure]

theorem principalFromEvm_of_validatePrincipal (hvalid : validatePrincipal principal = .ok ()) :
    ∃ row, principalFromEvm principal = .ok row ∧ row.validate = .ok () ∧
      row.kind = principal.kind := by
  cases hkind : principal.kind with
  | unset => exact ⟨{}, by simp [principalFromEvm, hkind], rfl, rfl⟩
  | chainAccount =>
    simp only [validatePrincipal, hkind] at hvalid
    cases haddr : tryAddressFromBytes principal.value with
    | none => simp [haddr] at hvalid
    | some account =>
      have hlen := length_of_tryAddressFromBytes haddr
      have hconvertible : ¬(principal.value.length ≠ 20 ∧ principal.value.length ≠ 32) := by omega
      refine ⟨_, by simp only [principalFromEvm, hkind]; rw [if_neg hconvertible], ?_, rfl⟩
      simp [Principal.validate, hexMarker, text]
  | bnsName =>
    simp only [validatePrincipal, hkind, then_ok_iff, validateName_ok_iff] at hvalid
    obtain ⟨-, ⟨hname, -⟩, -⟩ := hvalid
    refine ⟨_, principalFromEvm_bnsName hkind hname, ?_, rfl⟩
    simp [Principal.validate, canonicalBnsName_of_validName hname]

theorem validatePrincipal_of_validateSemanticOwner
    (hvalid : BnsValidation.validateSemanticOwner owner = .ok ()) :
    owner.kind ≠ .chainAccount ∧ validatePrincipal owner = .ok () := by
  cases hkind : owner.kind <;>
    simp_all [BnsValidation.validateSemanticOwner, validatePrincipal]

theorem principalFromEvm_of_validateSemanticOwner
    (hvalid : BnsValidation.validateSemanticOwner owner = .ok ()) :
    ∃ row, principalFromEvm owner = .ok row ∧ BnsModel.validateSemanticOwner row = .ok () := by
  obtain ⟨haccount, hprin⟩ := validatePrincipal_of_validateSemanticOwner hvalid
  obtain ⟨row, hrow, hcheck, hkind⟩ := principalFromEvm_of_validatePrincipal hprin
  refine ⟨row, hrow, ?_⟩
  rw [BnsModel.validateSemanticOwner]
  cases hrowKind : row.kind <;> simp_all

theorem validateShape_documentRefFromEvm [AbiDecoder] (hsound : SoundRef chain documentRef) :
    (documentRefFromEvm { documentRef with
      uri := decodeString documentRef.uri }).validateShape chain = .ok () := by
  have hlabel := bytes32LabelOrHash_ne_nil documentRef.storageType
  simp only [DocumentRef.validateShape, documentRefFromEvm, validateHash_hashString,
    rejectIf_ok_iff, then_ok_iff, exists_unit_iff, List.isEmpty_iff, hlabel,
    bytes32LabelOrHash_inline_iff, not_false_iff, true_and]
  rcases hsound with hvalid | rfl
  · simp only [validateDocumentRef, rejectIf_ok_iff] at hvalid
    obtain ⟨-, hvalid⟩ := hvalid
    by_cases hinline : documentRef.storageType = storageInline
    · rw [if_pos hinline] at hvalid ⊢
      simp only [rejectIf_ok_iff, ne_eq, not_not, not_or, length_eq_zero_iff] at hvalid
      obtain ⟨huri, ⟨hnonempty, hsmall⟩, hdigest, -⟩ := hvalid
      simp only [rejectIf_ok_iff, huri, lossy.nil, hnonempty, sha256Hex, hdigest]
      exact ⟨by simp, not_false, hsmall, fun hne => hne rfl, trivial⟩
    · rw [if_neg hinline] at hvalid ⊢
      simp only [rejectIf_ok_iff, ne_eq, not_not, length_eq_zero_iff] at hvalid
      simp [hvalid.1]
  · rw [if_neg (by decide)]
    rfl

theorem docType_of_validateControllerRule (hvalid : validateControllerRule rule = .ok ())
    (hnonempty : rule.docType.length ≠ 0) : validDocType rule.docType = true := by
  simp only [validateControllerRule, then_ok_iff, exists_unit_iff,
    rejectIf_ok_iff, if_pos hnonempty, validateDocType_ok_iff] at hvalid
  obtain ⟨-, -, -, ⟨htype, -⟩, -⟩ := hvalid
  exact htype

theorem controllerRuleFromEvm_of_validateControllerRule [AbiDecoder]
    (hvalid : validateControllerRule rule = .ok ()) :
    ∃ row, controllerRuleFromEvm (decodeControllerRule rule) = .ok row ∧ row.validate = .ok () := by
  have htype := docType_of_validateControllerRule hvalid
  simp only [validateControllerRule, then_ok_iff, exists_unit_iff, rejectIf_ok_iff] at hvalid
  obtain ⟨hprin, hset, -⟩ := hvalid
  obtain ⟨controller, hctrl, hcheck, hkind⟩ :=
    principalFromEvm_of_validatePrincipal hprin
  have hconverted := canonicalDocTypeOrEmpty_of_validDocType htype
  refine ⟨_, by
    simp only [controllerRuleFromEvm, decodeControllerRule, hctrl, hconverted]
    rfl, ?_⟩
  rw [← hkind] at hset
  simp only [ControllerRule.validate, then_ok_iff, exists_unit_iff, rejectIf_ok_iff,
    validateHash_hashString]
  refine ⟨hcheck, hset, ?_⟩
  by_cases hempty : rule.docType.length = 0
  · rw [eq_nil_of_length_eq_zero hempty]
    rfl
  · rw [if_pos (by simpa using fun hnil => hempty (by rw [hnil]; rfl)),
      canonicalDocType_of_validDocType (htype hempty)]
    rfl

theorem controllerRules_of_validateControllerRule [AbiDecoder]
    {rules : List BnsTypes.ControllerRule}
    (hvalid : ∀ rule ∈ rules, validateControllerRule rule = .ok ()) :
    ∃ rows, (rules.map decodeControllerRule).mapM controllerRuleFromEvm = .ok rows ∧
      ∀ row ∈ rows, row.validate = .ok () := by
  refine exists_mapM_ok fun decoded hdec => ?_
  obtain ⟨rule, hrule, rfl⟩ := mem_map.mp hdec
  exact controllerRuleFromEvm_of_validateControllerRule (hvalid rule hrule)

end CyfsGateway.BnsValidators
