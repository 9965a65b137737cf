import CyfsGateway.Core.Checks

/-!
# The transaction signer of the SN

The signer checks where a transaction goes, what it costs and which method it selects.  For
everything behind the selector it trusts the request.
-/

namespace CyfsGateway.SnSigner

open Checks

inductive SnBnsProxyOperation
  | registerNameBootstrap | publishDnsTxt | publishRelayAssignment | publishDocument
  deriving DecidableEq

inductive BnsEvmWriteOperation
  | manual | registerName | bootstrapName | applyMutations | publishDocument | revokeDocument
  | setMinDocumentIat | setControllerPolicy | updateAuthorityKeys
  deriving DecidableEq

structure BnsEvmSignRequest where
  operation : BnsEvmWriteOperation
  name : String
  docType : Option String

abbrev Address := BitVec 160

inductive TxKind
  | create
  | call (address : Address)
  deriving DecidableEq

structure TxEip1559 where
  chainId : UInt64
  toKind : TxKind
  gasLimit : UInt64
  maxFeePerGas : BitVec 128
  maxPriorityFeePerGas : BitVec 128
  value : BitVec 256
  input : List UInt8

structure SnBnsTxSigner (Key : Type) where
  chainId : UInt64
  contract : Address
  maxGasLimit : UInt64
  maxFeePerGas : BitVec 128
  maxPriorityFeePerGas : BitVec 128
  allowedOperations : List SnBnsProxyOperation
  keys : List (String × Key)

/-- The refusals of the signer, with the values that their texts show. -/
inductive Refusal
  | unknownControllerId (id : String)
  | unknownChainId (found expected : UInt64)
  | unknownContract (found expected : Address)
  | contractCreation
  | gasLimit (found limit : UInt64)
  | maxFeePerGas (found limit : BitVec 128)
  | maxPriorityFeePerGas (found limit : BitVec 128)
  | nonZeroValue
  | noSelector
  | otherOperation (selector : String) (declared : BnsEvmWriteOperation)
  | noDocType
  | unknownSelector (selector : List UInt8)
  | notAllowed (operation : SnBnsProxyOperation)
  | signing (error : String)
  deriving DecidableEq

/-- What the two methods of the contract name in their calldata. -/
inductive BnsMethodCall
  | registerName (name : String)
  | publishDocument (name docType : String)
  deriving DecidableEq

/-- The calldata of the two methods.  `decode` reads what is the full encoding of a call. -/
structure BnsAbi where
  registerNameSelector : List UInt8
  publishDocumentSelector : List UInt8
  distinct : registerNameSelector ≠ publishDocumentSelector
  decode : List UInt8 → Option BnsMethodCall
  selects : ∀ input call, decode input = some call → input.take 4 = match call with
    | .registerName _ => registerNameSelector
    | .publishDocument _ _ => publishDocumentSelector

def dnsTxtDocType : String := "dns_txt"

def relayAssignmentDocType : String := "relay_assignment"

variable {Key Signed : Type} (abi : BnsAbi) (this : SnBnsTxSigner Key)

/-- The operation that the selector and the request stand for. -/
def proxyOperation (request : BnsEvmSignRequest) (selector : List UInt8) :
    Except Refusal SnBnsProxyOperation :=
  if selector = abi.registerNameSelector then
    if request.operation = .registerName ∨ request.operation = .bootstrapName then
      .ok .registerNameBootstrap
    else .error (.otherOperation "registerName" request.operation)
  else if selector = abi.publishDocumentSelector then
    if request.operation ≠ .publishDocument then
      .error (.otherOperation "publishDocument" request.operation)
    else match request.docType with
      | some docType =>
        if docType = dnsTxtDocType then .ok .publishDnsTxt
        else if docType = relayAssignmentDocType then .ok .publishRelayAssignment
        else if docType = "" then .error .noDocType
        else .ok .publishDocument
      | none => .error .noDocType
  else .error (.unknownSelector selector)

def validateRequestTx (request : BnsEvmSignRequest) (tx : TxEip1559) : Except Refusal Unit :=
  if tx.chainId ≠ this.chainId then .error (.unknownChainId tx.chainId this.chainId)
  else match tx.toKind with
  | .create => .error .contractCreation
  | .call address =>
    if address ≠ this.contract then .error (.unknownContract address this.contract)
    else if this.maxGasLimit < tx.gasLimit then .error (.gasLimit tx.gasLimit this.maxGasLimit)
    else if this.maxFeePerGas < tx.maxFeePerGas then
      .error (.maxFeePerGas tx.maxFeePerGas this.maxFeePerGas)
    else if this.maxPriorityFeePerGas < tx.maxPriorityFeePerGas then
      .error (.maxPriorityFeePerGas tx.maxPriorityFeePerGas this.maxPriorityFeePerGas)
    else if tx.value ≠ 0 then .error .nonZeroValue
    else if tx.input.length < 4 then .error .noSelector
    else do
      let operation ← proxyOperation abi request (tx.input.take 4)
      if operation ∉ this.allowedOperations then .error (.notAllowed operation) else .ok ()

/-- Signs with the key of a controller; `sign` is the library's. -/
def signForController (sign : Key → TxEip1559 → Except String Signed) (controllerId : String)
    (request : BnsEvmSignRequest) (tx : TxEip1559) : Except Refusal Signed :=
  match this.keys.lookup controllerId with
  | none => .error (.unknownControllerId controllerId)
  | some key => do
    validateRequestTx abi this request tx
    (sign key tx).mapError .signing

/-! ## What is signed -/

def BnsMethodCall.operation : BnsMethodCall → SnBnsProxyOperation
  | .registerName _ => .registerNameBootstrap
  | .publishDocument _ docType =>
    if docType = dnsTxtDocType then .publishDnsTxt
    else if docType = relayAssignmentDocType then .publishRelayAssignment
    else .publishDocument

/-- The calldata is a call that names what the request declares. -/
def Declares (request : BnsEvmSignRequest) : BnsMethodCall → Prop
  | .registerName name => name = request.name
  | .publishDocument name docType => name = request.name ∧ request.docType = some docType

variable {abi this} {request : BnsEvmSignRequest} {tx : TxEip1559}

theorem operation_of_declares (hcall : abi.decode tx.input = some call)
    (hdeclares : Declares request call)
    (hoperation : proxyOperation abi request (tx.input.take 4) = .ok operation) :
    call.operation = operation := by
  rw [abi.selects _ _ hcall, proxyOperation] at hoperation
  cases call with
  | registerName name =>
    rw [if_pos rfl] at hoperation
    split at hoperation <;> cases hoperation
    rfl
  | publishDocument name docType =>
    rw [if_neg abi.distinct.symm, if_pos rfl, rejectIf_ok_iff, hdeclares.2] at hoperation
    have hresult := hoperation.2
    simp only [BnsMethodCall.operation] at hresult ⊢
    split_ifs at hresult ⊢ <;> cases hresult <;> rfl

/-- A transaction to the contract on its chain, without value and within the limits. -/
structure Within (this : SnBnsTxSigner Key) (tx : TxEip1559) : Prop where
  chainId : tx.chainId = this.chainId
  contract : tx.toKind = .call this.contract
  value : tx.value = 0
  gasLimit : tx.gasLimit ≤ this.maxGasLimit
  maxFeePerGas : tx.maxFeePerGas ≤ this.maxFeePerGas
  maxPriorityFeePerGas : tx.maxPriorityFeePerGas ≤ this.maxPriorityFeePerGas

/-- What the signer itself checks: the transaction, a selector, an allowed operation as the
selector and the request have it, and a key that signs. -/
structure Accepts (abi : BnsAbi) (this : SnBnsTxSigner Key)
    (sign : Key → TxEip1559 → Except String Signed) (controllerId : String)
    (request : BnsEvmSignRequest) (tx : TxEip1559) : Prop where
  within : Within this tx
  selector : 4 ≤ tx.input.length
  allowed : ∃ operation ∈ this.allowedOperations,
    proxyOperation abi request (tx.input.take 4) = .ok operation
  signs : ∃ key signed, this.keys.lookup controllerId = some key ∧ sign key tx = .ok signed

theorem validateRequestTx_ok_iff : validateRequestTx abi this request tx = .ok () ↔
    Within this tx ∧ 4 ≤ tx.input.length ∧ ∃ operation ∈ this.allowedOperations,
      proxyOperation abi request (tx.input.take 4) = .ok operation := by
  rw [validateRequestTx, rejectIf_ok_iff]
  cases hkind : tx.toKind with
  | create =>
    refine iff_of_false (fun hvalid => by cases hvalid.2) ?_
    rintro ⟨hwithin, -⟩
    cases hkind.symm.trans hwithin.contract
  | call address =>
    simp only [rejectIf_ok_iff, then_ok_iff, not_not, not_lt, UInt64.not_lt, BitVec.not_lt]
    constructor
    · rintro ⟨hchain, rfl, hgas, hfee, hpriority, hvalue, hselector, operation, hoperation,
        hallowed, -⟩
      exact ⟨⟨hchain, hkind, hvalue, hgas, hfee, hpriority⟩, hselector, operation, hallowed,
        hoperation⟩
    · rintro ⟨⟨hchain, hcontract, hvalue, hgas, hfee, hpriority⟩, hselector, operation, hallowed,
        hoperation⟩
      cases hkind.symm.trans hcontract
      exact ⟨hchain, rfl, hgas, hfee, hpriority, hvalue, hselector, operation, hoperation,
        hallowed, trivial⟩

theorem signForController_ok_iff {sign : Key → TxEip1559 → Except String Signed} :
    (∃ signed, signForController abi this sign controllerId request tx = .ok signed) ↔
      Accepts abi this sign controllerId request tx := by
  rw [signForController]
  cases hkey : this.keys.lookup controllerId with
  | none =>
    refine iff_of_false (fun ⟨_, hsigned⟩ => by cases hsigned) ?_
    rintro ⟨-, -, -, key, signed, hlookup, -⟩
    cases hkey.symm.trans hlookup
  | some key =>
    simp only [then_ok_iff]
    constructor
    · rintro ⟨signed, _, hvalid, hsign⟩
      obtain ⟨hwithin, hselector, hallowed⟩ := validateRequestTx_ok_iff.mp hvalid
      refine ⟨hwithin, hselector, hallowed, key, signed, hkey, ?_⟩
      cases hresult : sign key tx <;> rw [hresult] at hsign <;> cases hsign
      rfl
    · rintro ⟨hwithin, hselector, hallowed, _, signed, hlookup, hsign⟩
      cases hkey.symm.trans hlookup
      exact ⟨signed, (), validateRequestTx_ok_iff.mpr ⟨hwithin, hselector, hallowed⟩,
        by rw [hsign]; rfl⟩

/-- What is signed goes to the contract on its chain, without value and within the limits.  Only
a full call that names what the request declares, with an allowed operation, is signed exactly
unless the checks of the signer itself pass for calldata that is no such call. -/
theorem signs_only_allowed (abi : BnsAbi) (this : SnBnsTxSigner Key)
    (sign : Key → TxEip1559 → Except String Signed) (controllerId : String)
    (request : BnsEvmSignRequest) (tx : TxEip1559) :
    (∀ signed, signForController abi this sign controllerId request tx = .ok signed →
      Within this tx) ∧
    ((∀ signed, signForController abi this sign controllerId request tx = .ok signed →
        ∃ call, abi.decode tx.input = some call ∧ Declares request call ∧
          call.operation ∈ this.allowedOperations) ↔
      ¬(Accepts abi this sign controllerId request tx ∧
        ¬∃ call, abi.decode tx.input = some call ∧ Declares request call)) := by
  refine ⟨fun signed hsigned => (signForController_ok_iff.mp ⟨signed, hsigned⟩).within, ?_, ?_⟩
  · rintro hall ⟨haccepts, hnone⟩
    obtain ⟨signed, hsigned⟩ := signForController_ok_iff.mpr haccepts
    obtain ⟨call, hcall, hdeclares, -⟩ := hall signed hsigned
    exact hnone ⟨call, hcall, hdeclares⟩
  · intro hdeclared signed hsigned
    have haccepts := signForController_ok_iff.mp ⟨signed, hsigned⟩
    obtain ⟨call, hcall, hdeclares⟩ := not_not.mp fun hnone => hdeclared ⟨haccepts, hnone⟩
    obtain ⟨operation, hallowed, hoperation⟩ := haccepts.allowed
    refine ⟨call, hcall, hdeclares, ?_⟩
    rwa [operation_of_declares hcall hdeclares hoperation]

/-- Two documents of two names can be published. -/
def sampleAbi : BnsAbi where
  registerNameSelector := [0, 0, 0, 1]
  publishDocumentSelector := [0, 0, 0, 2]
  distinct := by decide
  decode input :=
    if input = [0, 0, 0, 2, 1] then some (.publishDocument "alice" dnsTxtDocType)
    else if input = [0, 0, 0, 2, 2] then some (.publishDocument "bob" "zone")
    else none
  selects input call hcall := by
    split_ifs at hcall with hfirst hsecond
    all_goals
      cases hcall
      simp [*]

def sampleSigner : SnBnsTxSigner Unit :=
  ⟨1, 7, 100, 10, 10, [.publishDnsTxt], [("main", ())]⟩

def sampleRequest : BnsEvmSignRequest := ⟨.publishDocument, "alice", some dnsTxtDocType⟩

def sampleTx (document : UInt8) : TxEip1559 := ⟨1, .call 7, 100, 10, 10, 0, [0, 0, 0, 2, document]⟩

def sampleSign (_ : Unit) (tx : TxEip1559) : Except String (List UInt8) := .ok tx.input

/-- With the request for the records of one name, a document of another name is signed. -/
theorem signs_undeclared :
    signForController sampleAbi sampleSigner sampleSign "main" sampleRequest (sampleTx 2) =
      .ok (sampleTx 2).input ∧
    sampleAbi.decode (sampleTx 2).input = some (.publishDocument "bob" "zone") ∧
    (BnsMethodCall.publishDocument "bob" "zone").operation ∉ sampleSigner.allowedOperations :=
  ⟨rfl, rfl, by decide⟩

end CyfsGateway.SnSigner
