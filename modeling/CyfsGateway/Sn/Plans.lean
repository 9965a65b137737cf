import CyfsGateway.Sn.Controller

/-!
# What a write is planned from

Before a write is signed, its plan reads documents, the state of the name and its
authority set, and does nothing else.
-/

namespace CyfsGateway.SnPlans

open Evm Checks Tasks BnsModel SnRequests SnActions SnDocuments SnIdempotency SnController

def Reads : Action → Prop
  | .now | .resolveDocument .. | .queryNameState _ | .getAuthoritySet _ => True
  | _ => False

def ReadsOnly (plan : ControllerProgram Write) : Prop := plan.run.Only Reads

/-! ## Reads -/

theorem only_currentDocumentState (name docType : Bytes) :
    (currentDocumentState name docType).run.Only Reads := by
  refine only_try (only_effect (Action.resolveDocument name docType) trivial) fun result => ?_
  match result with
  | .ok result => exact only_ite trivial trivial
  | .error (.registry code _) => exact only_ite trivial trivial
  | .error (.transport _) => exact trivial
  | .error (.serialization _) => exact trivial
  | .error (.invalidResponse _) => exact trivial

theorem only_requiredNameState (name : Bytes) : (requiredNameState name).run.Only Reads := by
  refine only_try (only_effect (Action.queryNameState name) trivial) fun state => ?_
  match state with
  | .ok (some state) => exact trivial
  | .ok none => exact trivial
  | .error error => exact trivial

theorem only_getAuthoritySet (name : Bytes) : (getAuthoritySet name).run.Only Reads :=
  only_mapError (only_fallible (only_perform (Action.getAuthoritySet name) trivial))

theorem readsOnly_publishDocumentUpdateOnce {requestId kind name authority} :
    ReadsOnly (publishDocumentUpdateOnce requestId kind name update authority) :=
  only_try (only_requiredNameState name) fun _ =>
    only_try (only_getAuthoritySet name) fun _ => trivial

theorem only_requiredOwnerDocument (name : Bytes) :
    (requiredOwnerDocument name).run.Only Reads := by
  refine only_try (only_currentDocumentState name ownerDocType) fun current => ?_
  cases current with
  | some state | none => exact trivial

section Plans

variable {formats : Formats} {config : SnBnsControllerConfig}

theorem readsOnly_publishJsonWithExpected :
    ReadsOnly (publishJsonDocumentWithExpectedOnce formats config requestId kind name docType
      expected document authority) :=
  only_try (only_computed _) fun _ => readsOnly_publishDocumentUpdateOnce

theorem readsOnly_publishJsonDocumentOnce :
    ReadsOnly (publishJsonDocumentOnce formats config requestId kind name docType document
      authority) :=
  only_try (only_currentDocumentState name docType) fun _ => readsOnly_publishJsonWithExpected

theorem readsOnly_publishInlineDocumentOnce :
    ReadsOnly (publishInlineDocumentOnce formats config requestId kind name docType document
      authority) :=
  only_try (only_currentDocumentState name docType) fun _ =>
    only_try (only_computed _) fun _ => readsOnly_publishDocumentUpdateOnce

theorem readsOnly_publishGuardedOwnerDocumentOnce (params : PublishDocumentParams) :
    ReadsOnly (publishGuardedOwnerDocumentOnce formats config params) :=
  only_try (only_currentDocumentState params.name ownerDocType) fun _ =>
    only_try (only_computed _) fun _ => readsOnly_publishJsonWithExpected

theorem readsOnly_upsertDnsTxtOnce (params : UpsertDnsTxtParams) :
    ReadsOnly (upsertDnsTxtOnce formats config params) :=
  only_try (only_currentDocumentState params.name dnsTxtDocType) fun _ =>
    only_try (only_computed _) fun _ => only_try (only_computed _) fun _ =>
      only_try (only_computed _) fun _ => readsOnly_publishDocumentUpdateOnce

theorem readsOnly_publishDeviceMiniDocOnce (params : PublishDeviceMiniDocParams) :
    ReadsOnly (publishDeviceMiniDocOnce formats config params) :=
  only_try (only_currentDocumentState params.name deviceMiniDocType) fun _ =>
    only_try (only_computed _) fun _ => only_try (only_computed _) fun _ =>
      readsOnly_publishJsonWithExpected

theorem readsOnly_bindZoneDocumentsOnce (params : BindZoneDocumentsParams) :
    ReadsOnly (bindZoneDocumentsOnce formats config params) := by
  refine only_try (only_requiredNameState params.name) fun _ => ?_
  refine only_try (only_currentDocumentState params.name zoneDocType) fun _ => ?_
  refine only_try (only_computed _) fun _ => ?_
  refine only_try (only_ite trivial ?_) fun _ => ?_
  · exact only_try (only_currentDocumentState params.name bootDocType) fun _ =>
      only_try (only_computed _) fun _ => trivial
  · exact only_try (only_getAuthoritySet params.name) fun _ => trivial

theorem only_allowsLegacy (document : Value) (name zoneDid : Bytes) :
    (allowsLegacy document name zoneDid).run.Only Reads :=
  only_ite (only_try (only_currentDocumentState name zoneDocType) fun _ => trivial) trivial

theorem readsOnly_removeBoundZoneOnce (params : RemoveBoundZoneParams) :
    ReadsOnly (removeBoundZoneOnce formats config params) := by
  refine only_try (only_requiredOwnerDocument params.name) fun current => ?_
  refine only_try (only_computed _) fun source => ?_
  refine only_try (only_computed _) fun _ => ?_
  refine only_try (only_allowsLegacy _ _ _) fun allowLegacy => ?_
  refine only_try (only_computed _) fun removed => ?_
  refine only_try (only_effect Action.now trivial) fun now => ?_
  refine only_try (only_computed _) fun result => ?_
  refine only_try (only_computed _) fun resultHash => ?_
  refine only_try (only_computed _) fun update => ?_
  exact only_try (only_requiredNameState params.name) fun _ =>
    only_try (only_getAuthoritySet params.name) fun _ => trivial

theorem readsOnly_operation {call : WriteCall} :
    Yields (fun operation : Operation => ReadsOnly operation.plan)
      (call.operation formats config) := by
  cases call with
  | registerName params => exact yields_then fun _ _ => yields_pure trivial
  | publishOwnerDocument params | publishDocument params =>
    exact yields_then fun _ _ => yields_pure readsOnly_publishJsonDocumentOnce
  | publishContentDocument params =>
    exact yields_then fun _ _ => yields_then fun _ _ => yields_then fun _ _ =>
      yields_then fun _ _ => yields_pure readsOnly_publishInlineDocumentOnce
  | publishGuardedOwnerDocument params =>
    exact yields_then fun _ _ => yields_then fun _ _ => yields_then fun _ _ =>
      yields_pure (readsOnly_publishGuardedOwnerDocumentOnce params)
  | removeBoundZone params =>
    exact yields_then fun _ _ => yields_then fun _ _ => yields_then fun _ _ =>
      yields_pure (readsOnly_removeBoundZoneOnce params)
  | bindZoneDocuments params =>
    exact yields_then fun _ _ => yields_then fun _ _ => yields_then fun _ _ =>
      yields_pure (readsOnly_bindZoneDocumentsOnce params)
  | publishDeviceMiniDoc params =>
    exact yields_then fun _ _ => yields_then fun _ _ => yields_then fun _ _ =>
      yields_pure (readsOnly_publishDeviceMiniDocOnce params)
  | upsertDnsTxt params =>
    exact yields_then fun _ _ => yields_pure (readsOnly_upsertDnsTxtOnce params)
  | publishRelayAssignment params =>
    exact yields_then fun _ _ => yields_then fun _ _ =>
      yields_pure readsOnly_publishInlineDocumentOnce

end Plans

end CyfsGateway.SnPlans
