import ImposbroSearch.Auth.TenantPolicy

/-!
# Tenant authorization of writes

Under `required` and `inject` every tenant a document names must be one of the
caller's, and each write gets exactly one tenant identity, which becomes part of
the identity of its indexing event. Under `off` documents pass unchanged, deletes
carry no filter, and the event's tenant is whatever the caller's token claims.
-/

namespace ImposbroSearch.Auth

/-- A JSON value as Python parses it; a number is given by its `str`. -/
inductive Json where
  | null
  | bool (value : Bool)
  | number (text : String)
  | string (text : String)
  | array (items : List Json)
  | object (fields : List (String × Json))

/-- The fields of a JSON object. -/
abbrev Document := List (String × Json)

structure HttpError where
  status : ℕ
  detail : String
  deriving DecidableEq, Repr

/-- What the request's authentication leaves to decide on: the text of the
`tenant_id` claim, and the tenant values of the policy's claim, absent for an API
key that bypasses tenancy. -/
structure Caller where
  claimedTenant : String
  tenants : Option (List TenantValue)

namespace Json

/-- `str(value)`. The text of a container starts with a bracket, which no tenant
value contains, so it is left out. -/
def scalarText : Json → Option String
  | null => some "None"
  | bool true => some "True"
  | bool false => some "False"
  | number text => some text
  | string text => some text
  | array _ => none
  | object _ => none

/-- `value in (None, "")` -/
def isUnset : Json → Bool
  | null => true
  | string text => text = ""
  | _ => false

/-- `str(value) in tenants` -/
def isTenant (tenants : List TenantValue) (value : Json) : Bool :=
  tenants.any fun tenant => value.scalarText = some tenant.text

end Json

/-- `path.split(".")` -/
def pathParts (path : String) : List String :=
  (path.toList.splitOn '.').map String.ofList

def valueAt : List String → Json → Json
  | [], value => value
  | part :: parts, .object fields =>
    match fields.lookup part with
    | some value => valueAt parts value
    | none => .null
  | _ :: _, _ => .null

/-- `_document_value` -/
def documentValue (document : Document) (path : String) : Json :=
  valueAt (pathParts path) (.object document)

/-- `document[name] = value` -/
def setField (document : Document) (name : String) (value : Json) : Document :=
  if (document.lookup name).isSome then
    document.map fun field => if field.1 = name then (name, value) else field
  else document ++ [(name, value)]

def setValueAt : List String → Document → Json → Except HttpError Document
  | [], document, _ => .ok document
  | [part], document, value => .ok (setField document part value)
  | part :: parts, document, value =>
    match (document.lookup part).getD .null with
    | .null => (setValueAt parts [] value).map fun next => setField document part (.object next)
    | .object fields =>
      (setValueAt parts fields value).map fun next => setField document part (.object next)
    | _ => .error ⟨403, "Document tenant path is not allowed"⟩

/-- `_set_document_value` -/
def setDocumentValue (document : Document) (path : String) (value : Json) :
    Except HttpError Document :=
  setValueAt (pathParts path) document value

/-- `_value_is_within_authorized_tenants` -/
def valueIsWithinAuthorizedTenants (value : Json) (tenants : List TenantValue) : Bool :=
  match value with
  | .array items => !items.isEmpty && items.all (Json.isTenant tenants)
  | value => value.isTenant tenants

/-- `authorize_ingest_document` -/
def authorizeIngestDocument (policy : TenantPolicy) (tenants : Option (List TenantValue))
    (document : Document) : Except HttpError Document :=
  match policy.mode, tenants with
  | .off, _ => .ok document
  | _, none => .ok document
  | mode, some tenants =>
    let currentValue := documentValue document policy.field.path
    if currentValue.isUnset ∧ mode = .inject then
      match tenants with
      | [tenant] => setDocumentValue document policy.field.path (.string tenant.text)
      | _ => .error ⟨403, "Cannot inject tenant when token has multiple tenants"⟩
    else if valueIsWithinAuthorizedTenants currentValue tenants then .ok document
    else .error ⟨403, "Document tenant is not allowed"⟩

/-- `TENANT_VALUE_PATTERN.fullmatch` -/
def isTenantValue (text : String) : Bool :=
  1 ≤ text.length ∧ text.length ≤ 128 ∧ text.toList.all isTenantValueChar

/-- The one tenant a document names: its text, or the only text of a list. -/
def documentTenant (value : Json) : Option String :=
  match value with
  | .string text => some text
  | .array items =>
    match (items.map Json.scalarText).eraseDups with
    | [text] => text
    | _ => none
  | _ => none

/-- The caller's only tenant. -/
def singleTenant : List TenantValue → Except HttpError String
  | [tenant] => .ok tenant.text
  | _ => .error
    ⟨403, "A single tenant identity is required for versioned indexing events"⟩

/-- The tenant the document names, when it is the caller's; else the caller's only one. -/
def unambiguousTenant (tenants : List TenantValue) (named : Option String) :
    Except HttpError String :=
  match named with
  | some text =>
    if tenants.any fun tenant => tenant.text = text then .ok text else singleTenant tenants
  | none => singleTenant tenants

/-- `event_tenant_identity` -/
def eventTenantIdentity (enterprise : Bool) (policy : TenantPolicy) (caller : Caller)
    (document : Option Document) : Except HttpError String :=
  match policy.mode, caller.tenants with
  | .off, _ =>
    .ok (if isTenantValue caller.claimedTenant then caller.claimedTenant else "development")
  | _, none =>
    if enterprise then .error ⟨403, "Tenant identity is required"⟩ else .ok "development"
  | _, some tenants =>
    unambiguousTenant tenants
      (document.bind fun document => documentTenant (documentValue document policy.field.path))

/-- `authorize_delete_filter` -/
def authorizeDeleteFilter (policy : TenantPolicy) (tenants : Option (List TenantValue))
    (documentId : String) : Option String :=
  match policy.mode, tenants with
  | .off, _ => none
  | _, none => none
  | _, some tenants => some ("(id:=" ++ documentId ++ ") && " ++ tenantFilter policy.field tenants)

/-! ## Whose identity an event carries -/

theorem singleTenant_mem {tenants : List TenantValue} {text : String}
    (single : singleTenant tenants = .ok text) : text ∈ tenants.map TenantValue.text := by
  match tenants with
  | [] => cases single
  | [tenant] =>
      cases single
      simp
  | _ :: _ :: _ => cases single

theorem unambiguousTenant_mem {tenants : List TenantValue} {named : Option String} {text : String}
    (chosen : unambiguousTenant tenants named = .ok text) :
    text ∈ tenants.map TenantValue.text := by
  unfold unambiguousTenant at chosen
  split at chosen
  · split_ifs at chosen with authorized
    · cases chosen
      obtain ⟨tenant, member, equal⟩ := List.any_eq_true.mp authorized
      exact List.mem_map.mpr ⟨tenant, member, by simpa using equal⟩
    · exact singleTenant_mem chosen
  · exact singleTenant_mem chosen

/-- **Under an enforced policy an event's tenant is one of the caller's.** -/
theorem eventTenantIdentity_mem {enterprise : Bool} {policy : TenantPolicy} {caller : Caller}
    {tenants : List TenantValue} {document : Option Document} {text : String}
    (enforced : policy.mode ≠ .off) (presented : caller.tenants = some tenants)
    (identified : eventTenantIdentity enterprise policy caller document = .ok text) :
    text ∈ tenants.map TenantValue.text := by
  unfold eventTenantIdentity at identified
  rw [presented] at identified
  cases mode : policy.mode with
  | off => exact absurd mode enforced
  | required =>
      simp only [mode] at identified
      exact unambiguousTenant_mem identified
  | inject =>
      simp only [mode] at identified
      exact unambiguousTenant_mem identified

/-- **Without a tenant policy nothing about a write depends on its document or id.** -/
theorem authorize_off {policy : TenantPolicy} (off : policy.mode = .off)
    (tenants : Option (List TenantValue)) (document : Document) (documentId : String) :
    authorizeIngestDocument policy tenants document = .ok document ∧
      authorizeDeleteFilter policy tenants documentId = none := by
  unfold authorizeIngestDocument authorizeDeleteFilter
  rw [off]
  exact ⟨rfl, rfl⟩

end ImposbroSearch.Auth
