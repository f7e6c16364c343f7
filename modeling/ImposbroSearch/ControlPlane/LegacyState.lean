import ImposbroSearch.ControlPlane.Integrity
import ImposbroSearch.ControlPlane.StateSnapshot
import ImposbroSearch.Foundation.JsonCharacters

/-!
# Migration of the legacy state

Before the transactional store, the state was one Typesense document with the state as a
JSON text. The manager still writes it under that backend, and a reader brings it into the
new store. Writer and reader have lists of keys of their own: the reader refuses what it
does not know, and does not know the rollouts, which the writer always writes.
-/

namespace ImposbroSearch.ControlPlane.LegacyState

open ImposbroSearch.Foundation
open ImposbroSearch.ControlPlane.StateSnapshot

variable {F : Type}

/-- A dict with the characters of a Python string in its strings. -/
structure StateDict (F : Type) where
  fields : List (Text × Json F)
  unique : (Json.object fields).Unique
  points : ∀ text, .text text ∈ (Json.object fields).parts → ∀ c ∈ text, c < 0x110000

def StateDict.json (dict : StateDict F) : Json F := .object dict.fields

theorem unique_empty : (Json.object ([] : List (Text × Json F))).Unique := by
  simp [Json.Unique, Json.parts, Json.partsOfFields]

theorem points_empty (text : Text)
    (member : .text text ∈ (Json.object ([] : List (Text × Json F))).parts) :
    ∀ c ∈ text, c < 0x110000 := by
  simp [Json.parts, Json.partsOfFields] at member

/-- `{}` -/
def StateDict.empty : StateDict F where
  fields := []
  unique := unique_empty
  points := points_empty

/-! ## The writer -/

/-- What `_validate_cluster_secrets` and `save_state` read of a manager. -/
structure StateManager (F : Type) where
  allowInlineClusterSecrets : Bool
  secretProviders : List Text
  routingRollouts : StateDict F

/-- The value of a key, if it is a string that is not empty. -/
def secretField (config : Json F) (key : Text) : Option Text :=
  match config.field key with
  | some (.str (c :: text)) => some (c :: text)
  | _ => none

/-- `validate_cluster_secret_config` -/
def validateClusterSecretConfig (manager : StateManager F) (config : Json F) : Bool :=
  match secretField config (chars "api_key"), secretField config (chars "api_key_ref") with
  | some _, none => manager.allowInlineClusterSecrets
  | none, some reference =>
    match parseSecretReference reference with
    | some (scheme, _) => manager.secretProviders.contains scheme
    | none => false
  | _, _ => false

inductive SaveError where
  | invalidSecret
  | notSaved
  deriving DecidableEq

/-- `"federation_clusters_config"` and the other keys of the state. -/
def clustersKey : Text := chars "federation_clusters_config"
def rulesKey : Text := chars "collection_routing_rules"
def schemasKey : Text := chars "collection_schemas"
def aliasesKey : Text := chars "collection_aliases"
def rolloutsKey : Text := chars "routing_rollouts"

/-- The arguments of `save_state` that make up the state. -/
structure SavedState (F : Type) where
  federationClustersConfig : StateDict F
  collectionRoutingRules : StateDict F
  collectionSchemas : Option (StateDict F)
  collectionAliases : Option (StateDict F)
  routingRollouts : Option (StateDict F)

/-- The state that is written. -/
def SavedState.json (state : SavedState F) (manager : StateManager F) : Json F :=
  .object
    [(clustersKey, state.federationClustersConfig.json),
      (rulesKey, state.collectionRoutingRules.json),
      (schemasKey, (state.collectionSchemas.getD .empty).json),
      (aliasesKey, (state.collectionAliases.getD .empty).json),
      (rolloutsKey, (state.routingRollouts.getD manager.routingRollouts).json)]

/-- The layout of `json.dumps` without arguments. -/
def plainStyle : JsonStyle := ⟨true, true⟩

/-- What a read of the document gives. -/
inductive Retrieved (F : Type) where
  | notFound
  | failed
  | document (fields : List (Text × Json F))
  | other

section Stores

variable [PyFloat F]

/-- `json.dumps`: the constants are printed, an integer with too many digits is not. -/
def dumps (v : Json F) : Option Text :=
  if v.parts.all fun part =>
      match part with
      | .int n => (natText n.natAbs).length ≤ maxStrDigits
      | _ => true then
    some (Json.print plainStyle v)
  else none

/-- `save_state` under the Typesense backend, up to the upsert: the document that is stored. -/
def saveState (manager : StateManager F) (state : SavedState F) :
    Except SaveError (List (Text × Json F)) :=
  if ¬(state.federationClustersConfig.fields.all fun cluster =>
      validateClusterSecretConfig manager cluster.2) then .error .invalidSecret
  else
    match dumps (state.json manager) with
    | none => .error .notSaved
    | some text => .ok [(chars "id", .str (chars "config_v1")), (chars "state_data", .str text)]

/-! ## The reader -/

/-- `LEGACY_STATE_KEYS` -/
def legacyStateKeys : List Text := [clustersKey, rulesKey, schemasKey, aliasesKey]

inductive LegacyStateError where
  | unreadable
  | notString
  | invalidJson
  | tooManyDigits
  | notObject
  | unsupportedKeys (keys : List Text)
  | fieldNotObject (key : Text)
  | unsupportedValues
  | undigestible
  deriving DecidableEq

/-- `LegacyStateSnapshot` -/
structure LegacyStateSnapshot (F : Type) where
  state : JsonValue F
  stateDigest : Text
  loadedAt : Timestamp

/-- `decoded.get(key) or {}` -/
def fieldOrEmpty (fields : List (Text × Json F)) (key : Text) : Json F :=
  match fields.lookup key with
  | none => .object []
  | some value => if value.isFalsy then .object [] else value

/-- The fields that are taken over, each an object. -/
def takeFields (fields : List (Text × Json F)) :
    List Text → Except LegacyStateError (List (Text × Json F))
  | [] => .ok []
  | key :: keys =>
    if isObject (fieldOrEmpty fields key) then
      match takeFields fields keys with
      | .error error => .error error
      | .ok taken => .ok ((key, fieldOrEmpty fields key) :: taken)
    else .error (.fieldNotObject key)

variable (hash : List ℕ → Text) (now : Timestamp)

/-- `load` -/
def load : Retrieved F → Except LegacyStateError (Option (LegacyStateSnapshot F))
  | .notFound => .ok none
  | .failed => .error .unreadable
  | .other => .error .notString
  | .document document =>
    match document.lookup (chars "state_data") with
    | some (.str rawState) =>
      match Json.loads (F := F) rawState with
      | .error .malformed => .error .invalidJson
      | .error .tooManyDigits => .error .tooManyDigits
      | .ok decoded =>
        match decoded.json with
        | .object fields =>
          let unknownKeys :=
            ((fields.map Prod.fst).filter fun key => !legacyStateKeys.contains key).insertionSort
              (· ≤ ·)
          if ¬unknownKeys.isEmpty then .error (.unsupportedKeys unknownKeys)
          else
            match takeFields fields legacyStateKeys with
            | .error error => .error error
            | .ok taken =>
              match Json.normalize (Json.held (.object taken)) with
              | none => .error .unsupportedValues
              | some state =>
                match canonicalStateDigest hash state with
                | none => .error .undigestible
                | some stateDigest => .ok (some { state, stateDigest, loadedAt := now })
        | _ => .error .notObject
    | _ => .error .notString

/-! ## What the reader makes of the writer's document -/

/-- The keys of a saved state. -/
def stateKeys : List Text := [clustersKey, rulesKey, schemasKey, aliasesKey, rolloutsKey]

/-- The migrated state has the same clusters, rules, schemas, aliases and rollouts as the
one that was saved, up to the order of their keys. -/
def Migrates (manager : StateManager F) (state : SavedState F)
    (document : List (Text × Json F)) : Prop :=
  ∃ snapshot, load hash now (.document document) = .ok (some snapshot) ∧
    ∀ key ∈ stateKeys,
      snapshot.state.json.field key = ((state.json manager).field key).map Json.sortKeys

theorem dumps_eq {v : Json F} {text : Text} (dumped : dumps v = some text) :
    text = Json.print plainStyle v ∧ Json.ShortIntegers v.parts := by
  unfold dumps at dumped
  split at dumped
  next printable =>
    refine ⟨(Option.some.inj dumped).symm, fun n member => ?_⟩
    exact of_decide_eq_true (List.all_eq_true.mp printable (.int n) member)
  next => exact nomatch dumped

omit [PyFloat F] in
theorem StateDict.text_points (dict : StateDict F) {text : Text}
    (part : .text text ∈ dict.json.parts) : ∀ c ∈ text, c < 0x110000 := dict.points text part

omit [PyFloat F] in
/-- The strings of a saved state are Python strings. -/
theorem json_points (manager : StateManager F) (state : SavedState F) {text : Text}
    (part : .text text ∈ (state.json manager).parts) : ∀ c ∈ text, c < 0x110000 := by
  obtain keys | ⟨field, member, own | inside⟩ := Json.mem_parts_object.mp part
  · exact nomatch keys
  · have ascii : ∀ key ∈ stateKeys, ∀ c ∈ key, c < 0x110000 := by decide
    have listed : field.1 ∈ stateKeys := List.mem_map_of_mem (f := Prod.fst) member
    obtain rfl : text = field.1 := by injection own
    exact ascii _ listed
  · simp only [List.mem_cons, List.not_mem_nil, or_false] at member
    rcases member with rfl | rfl | rfl | rfl | rfl
    all_goals exact StateDict.text_points _ inside

omit [PyFloat F] in
theorem scannable_json {manager : StateManager F} {state : SavedState F}
    (short : Json.ShortIntegers (state.json manager).parts) :
    (state.json manager).Scannable plainStyle true := by
  intro part member
  cases part with
  | int n => exact short n member
  | float x => trivial
  | constant => rfl
  | text characters => exact fun _ => json_points manager state member
  | keys listed => trivial

/-- What a saved state is read back as: an object with the five keys. -/
theorem loads_state {manager : StateManager F} {state : SavedState F} {text : Text}
    (dumped : dumps (state.json manager) = some text) :
    ∃ decoded : JsonValue F, Json.loads text = .ok decoded ∧
      ∃ fields, decoded.json = .object fields ∧ fields.map Prod.fst = stateKeys := by
  obtain ⟨rfl, short⟩ := dumps_eq dumped
  unfold Json.loads
  rw [Json.read_print_reread (scannable_json short)]
  refine ⟨_, rfl, ?_⟩
  show ∃ fields, (Json.reread plainStyle (state.json manager)).dicts = .object fields ∧ _
  have keys : ∀ fields : List (Text × Json F),
      (Json.rereadFields plainStyle fields).map Prod.fst =
        fields.map fun field => rejoin true field.1 := by
    intro fields
    induction fields with
    | nil => rfl
    | cons field fields ih =>
        rw [Json.rereadFields, List.map_cons, List.map_cons, ih]
        rfl
  unfold SavedState.json
  rw [Json.reread, Json.dicts, Json.dictsOfFields_eq]
  refine ⟨_, rfl, ?_⟩
  rw [dictOf_of_nodup]
  all_goals
    rw [List.map_map]
    show _
  · show List.map Prod.fst (Json.rereadFields _ _) = _
    rw [keys]
    show stateKeys.map (rejoin true) = stateKeys
    decide
  · show (List.map Prod.fst (Json.rereadFields _ _)).Nodup
    rw [keys]
    show (stateKeys.map (rejoin true)).Nodup
    decide

variable {hash now}

/-- The reader refuses every document that the manager has saved. -/
theorem load_saved {manager : StateManager F} {state : SavedState F}
    {document : List (Text × Json F)} (saved : saveState manager state = .ok document) :
    load hash now (.document document) = .error (.unsupportedKeys [rolloutsKey]) := by
  unfold saveState at saved
  split at saved
  next => exact nomatch saved
  next =>
    split at saved
    next => exact nomatch saved
    next text dumped =>
      obtain rfl := Except.ok.inj saved
      obtain ⟨decoded, loaded, fields, object, keys⟩ := loads_state dumped
      have found : List.lookup (chars "state_data") ([(chars "id", .str (chars "config_v1")),
          (chars "state_data", .str text)] : List (Text × Json F)) = some (.str text) := rfl
      have unknown : ((stateKeys.filter fun key => !legacyStateKeys.contains key).insertionSort
          (· ≤ ·)) = [rolloutsKey] := by decide
      unfold load
      simp only [found, loaded, object, keys, unknown]
      rfl

/-- **No saved state is migrated**: the reader does not know the rollouts, and they are in
every document the manager saves. -/
theorem saved_state_never_migrates (manager : StateManager F) (state : SavedState F)
    (document : List (Text × Json F)) (saved : saveState manager state = .ok document) :
    ¬Migrates hash now manager state document := by
  rintro ⟨snapshot, loaded, -⟩
  rw [load_saved saved] at loaded
  exact nomatch loaded

end Stores

/-- A manager that has loaded nothing yet. -/
def freshManager : StateManager SampleFloat where
  allowInlineClusterSecrets := true
  secretProviders := [chars "env", chars "file"]
  routingRollouts := .empty

/-- The state of an installation without clusters. -/
def emptyState : SavedState SampleFloat where
  federationClustersConfig := .empty
  collectionRoutingRules := .empty
  collectionSchemas := none
  collectionAliases := none
  routingRollouts := none

/-- The document of an installation without clusters. -/
def emptyDocument : List (Text × Json SampleFloat) :=
  [(chars "id", .str (chars "config_v1")),
    (chars "state_data", .str (Json.print plainStyle (emptyState.json freshManager)))]

theorem saveState_empty : saveState freshManager emptyState = .ok emptyDocument := rfl

/-- The time of the migration. -/
def migrationTime : Timestamp where
  year := 2021
  month := 5
  day := 4
  hour := 3
  minute := 2
  second := 1
  microsecond := 0
  date := by decide
  time := by decide

theorem saved_state_never_migrates_empty :
    ¬Migrates (fun _ => []) migrationTime freshManager emptyState emptyDocument :=
  saved_state_never_migrates freshManager emptyState emptyDocument rfl

/-- The state of an installation without clusters is saved and not migrated. -/
theorem empty_state_not_migrated :
    ¬(saveState freshManager emptyState = .ok emptyDocument →
      Migrates (fun _ => []) migrationTime freshManager emptyState emptyDocument) := by
  intro migrates
  obtain ⟨snapshot, loaded, -⟩ := migrates saveState_empty
  rw [load_saved saveState_empty] at loaded
  exact nomatch loaded

end ImposbroSearch.ControlPlane.LegacyState
