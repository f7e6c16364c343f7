import ImposbroSearch.Foundation.Checks
import ImposbroSearch.Foundation.Texts

/-!
# Snapshots of the control plane

A snapshot is the exported state of the control plane. Without secrets, the inline key of
every cluster is masked. An import checks a snapshot, and applies it only if the check
passes; the check of an application also looks for masked keys and resolves the secrets.

The clusters and their keys are followed in full. Of the clusters, the checks of the other
sections (aliases, schemas, routing rules, rollouts) read only the names: these checks are
a parameter.
-/

namespace ImposbroSearch.ControlPlane.StateSnapshot

open ImposbroSearch.Foundation

inductive DeploymentProfile where
  | development
  | production
  | enterprise
  deriving DecidableEq

/-- The configuration of a cluster, as a dictionary: a key may be missing. -/
structure ClusterConfig where
  name : Option Text
  protocol : Option Text
  host : Text
  port : ℤ
  apiKeyRef : Option Text
  apiKey : Option Text
  deriving DecidableEq

/-- What the federation holds of the state. -/
structure FederationState (Sections : Type) where
  clustersConfig : List (Text × ClusterConfig)
  sections : Sections

/-- `ControlPlaneStateSnapshot`, of what an import reads. -/
structure Snapshot (Sections : Type) where
  version : Text
  clustersConfig : List (Text × ClusterConfig)
  sections : Sections

inductive ImportError where
  | unsupportedVersion
  | invalidName
  | invalidSection
  | nameMismatch
  | invalidCluster
  | missingHost
  | inlineKey
  | maskedKey
  | unresolvedSecret
  deriving DecidableEq

/-! ## Cluster configurations -/

/-- The value of a key that may be missing, as a truth value. -/
def isTruthy (value : Option Text) : Bool := !(value.getD []).isEmpty

def lowerChar (c : ℕ) : ℕ := if 65 ≤ c ∧ c ≤ 90 then c + 32 else c

/-- `normalize_protocol`; beyond ASCII, nothing is lowered to a letter of a protocol. -/
def normalizeProtocol (protocol : Option Text) : Option Text :=
  let named := if isTruthy protocol then protocol.getD [] else chars "http"
  let normalized := (stripText named).map lowerChar
  if normalized = chars "http" ∨ normalized = chars "https" then some normalized else none

/-- `normalize_cluster_config` -/
def normalizeClusterConfig (config : ClusterConfig) (name : Option Text) : Option ClusterConfig :=
  (normalizeProtocol config.protocol).map fun protocol =>
    { config with
      name := if isTruthy name ∧ ¬isTruthy config.name then name else config.name
      protocol := some protocol }

/-! ## Masking -/

/-- `N/A` -/
def notAvailable : Text := chars "N/A"

/-- `_mask_api_key` -/
def maskApiKey (apiKey : Text) : Text :=
  if apiKey = [] ∨ apiKey = notAvailable then apiKey
  else if apiKey.length ≤ 4 then chars "***"
  else List.replicate (apiKey.length - 4) 42 ++ apiKey.drop (apiKey.length - 4)

/-- `_is_masked_api_key` -/
def isMaskedApiKey : Option Text → Bool
  | some value => (chars "***").isPrefixOf value
  | none => false

/-- The configuration of a cluster with its key masked. -/
def maskConfig (config : ClusterConfig) : ClusterConfig :=
  { config with apiKey := config.apiKey.map maskApiKey }

/-- `_mask_cluster_secrets` -/
def maskClusterSecrets (clustersConfig : List (Text × ClusterConfig)) :
    List (Text × ClusterConfig) :=
  clustersConfig.map fun cluster => (cluster.1, maskConfig cluster.2)

/-- `imposbro.state.v2` -/
def currentVersion : Text := chars "imposbro.state.v2"

/-- `_state_snapshot_from_federation`, which raises on an unknown protocol. -/
def stateSnapshotFromFederation {Sections : Type} (federation : FederationState Sections)
    (includeSecrets : Bool) : Option (Snapshot Sections) :=
  (federation.clustersConfig.mapM fun cluster =>
    (normalizeClusterConfig cluster.2 (some cluster.1)).map fun config => (cluster.1, config)).map
    fun clustersConfig =>
      { version := currentVersion
        clustersConfig := if includeSecrets then clustersConfig else maskClusterSecrets clustersConfig
        sections := federation.sections }

/-! ## Secrets -/

/-- The configured secret providers: of a locator, the value that is there now. -/
abbrev SecretResolver := Text → Option (Text → Option Text)

/-- `^[a-z][a-z0-9_-]{0,31}$` -/
def isScheme : Text → Bool
  | [] => false
  | c :: rest =>
    (97 ≤ c && c ≤ 122) && rest.length ≤ 31 &&
      rest.all fun c => 97 ≤ c && c ≤ 122 || isDigit c || c = 95 || c = 45

/-- `parse_secret_reference` -/
def parseSecretReference (reference : Text) : Option (Text × Text) :=
  if reference = [] ∨ reference ≠ stripText reference then none
  else if 1024 < reference.length then none
  else
    let scheme := reference.takeWhile (· ≠ 58)
    let locator := (reference.dropWhile (· ≠ 58)).drop 1
    if ¬isScheme scheme ∨ locator = [] then none
    else if locator.any fun c => c = 0 || c = 13 || c = 10 then none
    else some (scheme, locator)

/-- `_validated_secret_value` -/
def validatedSecretValue (value : Text) : Option Text :=
  let normalized := value.rdropWhile fun c => c = 13 || c = 10
  if normalized = [] then none
  else if 0 ∈ normalized then none
  else some normalized

/-- `resolve`; every provider ends in `_validated_secret_value`. -/
def resolveSecret (resolver : SecretResolver) (reference : Text) : Option Text :=
  match parseSecretReference reference with
  | none => none
  | some (scheme, locator) =>
    match resolver scheme with
    | none => none
    | some provider => (provider locator).bind validatedSecretValue

/-- `materialize_cluster_secret` -/
def materializeClusterSecret (resolver : SecretResolver) (allowInline : Bool)
    (config : ClusterConfig) : Option Text :=
  if isTruthy config.apiKey = isTruthy config.apiKeyRef then none
  else if isTruthy config.apiKey ∧ ¬allowInline then none
  else if isTruthy config.apiKeyRef then resolveSecret resolver (config.apiKeyRef.getD [])
  else validatedSecretValue (config.apiKey.getD [])

/-- `materialize_cluster_config` -/
def materializeClusterConfig (resolver : SecretResolver) (allowInline : Bool)
    (config : ClusterConfig) : Option ClusterConfig :=
  (normalizeClusterConfig config none).bind fun normalized =>
    (materializeClusterSecret resolver allowInline normalized).map fun apiKey =>
      { normalized with
        apiKeyRef := none
        apiKey := some apiKey }

/-! ## Checks of an import -/

/-- A character of `NAME_PATTERN` -/
def isNameChar (c : ℕ) : Bool :=
  97 ≤ c && c ≤ 122 || 65 ≤ c && c ≤ 90 || isDigit c || c = 95 || c = 45

/-- `NAME_PATTERN` -/
def isName (text : Text) : Bool := !text.isEmpty && text.all isNameChar

/-- `Cluster.model_validate({"name": cluster_name, **config})` -/
def isCluster (clusterName : Text) (config : ClusterConfig) : Bool :=
  isName (config.name.getD clusterName) &&
    (config.protocol.all fun protocol => protocol = chars "http" || protocol = chars "https") &&
    (1 ≤ config.port && config.port ≤ 65535) &&
    (config.apiKeyRef.all fun reference => 1 ≤ reference.length && reference.length ≤ 1024) &&
    isTruthy config.apiKeyRef != isTruthy config.apiKey

/-- The checks of the other sections, before and after those of the clusters. -/
structure SectionChecks (Sections : Type) where
  beforeClusters : List Text → Sections → Bool
  afterClusters : List Text → Sections → Bool

/-- The settings and the federation of the instance that imports. -/
structure Importer where
  profile : DeploymentProfile
  resolver : SecretResolver

/-- `allow_inline_secrets` -/
def Importer.allowInline (importer : Importer) : Bool := importer.profile = .development

/-- The checks of one cluster. -/
def checkCluster (importer : Importer) (apply : Bool) (cluster : Text × ClusterConfig) :
    Except ImportError Unit := do
  check (cluster.2.name.getD cluster.1 = cluster.1) .nameMismatch
  check (isCluster cluster.1 cluster.2) .invalidCluster
  check (stripText cluster.2.host ≠ []) .missingHost
  check (¬(isTruthy cluster.2.apiKey ∧ importer.profile ≠ .development)) .inlineKey
  check (¬(apply ∧ isMaskedApiKey cluster.2.apiKey)) .maskedKey
  check (¬apply || (materializeClusterConfig importer.resolver importer.allowInline
    cluster.2).isSome) .unresolvedSecret

/-- `_validate_import_snapshot`, given the federation. -/
def validateImportSnapshot {Sections : Type} (checks : SectionChecks Sections)
    (importer : Importer) (snapshot : Snapshot Sections) (apply : Bool) :
    Except ImportError Unit := do
  let names := snapshot.clustersConfig.map Prod.fst
  check (snapshot.version = chars "imposbro.state.v1" || snapshot.version = currentVersion)
    .unsupportedVersion
  check (names.all isName) .invalidName
  check (checks.beforeClusters names snapshot.sections) .invalidSection
  snapshot.clustersConfig.forM (checkCluster importer apply)
  check (checks.afterClusters names snapshot.sections) .invalidSection

end ImposbroSearch.ControlPlane.StateSnapshot
