import ImposbroSearch.ControlPlane.StateSnapshot

/-!
# Masked secrets and the import

Which masked keys the import recognises. A mask shows the last four characters of a key and
a star for each character before: a key of five or six characters has a mask with too few
stars, which is recognised only if the characters shown begin with the missing ones.
-/

namespace ImposbroSearch.ControlPlane.StateSnapshot

open ImposbroSearch.Foundation

/-! ## Masks -/

/-- The characters of a key that its mask shows. -/
def shownPart (apiKey : Text) : Text := apiKey.drop (apiKey.length - 4)

/-- The keys whose mask is recognised. -/
def HasRecognisedMask (apiKey : Text) : Prop :=
  apiKey ≠ [] ∧ apiKey ≠ notAvailable ∧
    (apiKey.length ≤ 4 ∨ 7 ≤ apiKey.length ∨
      List.replicate (7 - apiKey.length) 42 <+: shownPart apiKey)

instance (apiKey : Text) : Decidable (HasRecognisedMask apiKey) :=
  inferInstanceAs (Decidable (_ ∧ _))

theorem maskApiKey_short {apiKey : Text} (inline : apiKey ≠ []) (secret : apiKey ≠ notAvailable)
    (short : apiKey.length ≤ 4) : maskApiKey apiKey = chars "***" := by
  unfold maskApiKey
  rw [if_neg (not_or.mpr ⟨inline, secret⟩), if_pos short]

theorem maskApiKey_long {apiKey : Text} (long : 4 < apiKey.length) :
    maskApiKey apiKey = List.replicate (apiKey.length - 4) 42 ++ shownPart apiKey := by
  have inline : apiKey ≠ [] := List.ne_nil_of_length_pos (by omega)
  have secret : apiKey ≠ notAvailable := by
    rintro rfl
    exact absurd long (by decide)
  unfold maskApiKey
  rw [if_neg (not_or.mpr ⟨inline, secret⟩), if_neg (by omega)]
  rfl

/-- A run of stars in front of a longer run of stars. -/
theorem replicate_prefix_append {α : Type} (star : α) (wanted given : ℕ) (rest : List α) :
    List.replicate wanted star <+: List.replicate given star ++ rest ↔
      List.replicate (wanted - given) star <+: rest := by
  rcases le_total wanted given with enough | missing
  · rw [Nat.sub_eq_zero_of_le enough]
    refine iff_of_true ?_ List.nil_prefix
    rw [← Nat.add_sub_cancel' enough, List.replicate_add, List.append_assoc]
    exact List.prefix_append _ _
  · conv_lhs => rw [← Nat.add_sub_cancel' missing, List.replicate_add]
    exact List.prefix_append_right_inj _

/-- **The masks that are recognised**, of all keys. -/
theorem isMaskedApiKey_mask (apiKey : Text) :
    isMaskedApiKey (some (maskApiKey apiKey)) = true ↔ HasRecognisedMask apiKey := by
  unfold isMaskedApiKey HasRecognisedMask
  rw [List.isPrefixOf_iff_prefix]
  by_cases empty : apiKey = []
  · subst empty
    exact iff_of_false (by decide) (fun recognised => recognised.1 rfl)
  by_cases absent : apiKey = notAvailable
  · subst absent
    exact iff_of_false (by decide) (fun recognised => recognised.2.1 rfl)
  by_cases short : apiKey.length ≤ 4
  · rw [maskApiKey_short empty absent short]
    exact iff_of_true List.prefix_rfl ⟨empty, absent, Or.inl short⟩
  · rw [maskApiKey_long (by omega)]
    have stars : chars "***" = List.replicate 3 42 := rfl
    rw [stars, replicate_prefix_append]
    have missing : 3 - (apiKey.length - 4) = 7 - apiKey.length := by omega
    rw [missing]
    constructor
    · intro shown
      exact ⟨empty, absent, Or.inr (Or.inr shown)⟩
    · rintro ⟨-, -, tooShort | long | shown⟩
      · exact absurd tooShort short
      · rw [Nat.sub_eq_zero_of_le long]
        exact List.nil_prefix
      · exact shown

/-- A mask is empty exactly if the key is. -/
theorem isTruthy_mask (apiKey : Option Text) :
    isTruthy (apiKey.map maskApiKey) = isTruthy apiKey := by
  cases apiKey with
  | none => rfl
  | some apiKey =>
      by_cases short : apiKey.length ≤ 4
      · by_cases empty : apiKey = []
        · subst empty
          rfl
        by_cases absent : apiKey = notAvailable
        · subst absent
          rfl
        have long : apiKey.isEmpty = false := by simpa using empty
        simp [isTruthy, maskApiKey_short empty absent short, long, chars]
      · have long : apiKey.isEmpty = false := by
          rw [List.isEmpty_eq_false_iff]
          exact List.ne_nil_of_length_pos (by omega)
        have stars : apiKey.length - 4 ≠ 0 := by omega
        simp [isTruthy, maskApiKey_long (not_le.mp short), long, stars]

/-! ## Secret values -/

/-- Line ends at the end of a value are dropped; a secret is something else, without NUL. -/
theorem validatedSecretValue_isSome (value : Text) :
    (validatedSecretValue value).isSome = true ↔
      (∃ c ∈ value, c ≠ 13 ∧ c ≠ 10) ∧ 0 ∉ value := by
  unfold validatedSecretValue
  have empty : (value.rdropWhile fun c => c = 13 || c = 10) = [] ↔
      ¬∃ c ∈ value, c ≠ 13 ∧ c ≠ 10 := by
    simp only [List.rdropWhile_eq_nil_iff, Bool.or_eq_true, decide_eq_true_eq, not_exists, not_and,
      ne_eq, not_not, or_iff_not_imp_left]
  have kept : 0 ∈ (value.rdropWhile fun c => c = 13 || c = 10) ↔ 0 ∈ value := by
    constructor
    · intro member
      exact (List.rdropWhile_prefix _ _).subset member
    · intro member
      rw [List.rdropWhile, List.mem_reverse]
      rw [← List.mem_reverse, ← @List.takeWhile_append_dropWhile _ (fun c => c = 13 || c = 10)
        value.reverse, List.mem_append] at member
      rcases member with taken | dropped
      · exact absurd (List.mem_takeWhile_imp taken) (by decide)
      · exact dropped
  by_cases blank : ∃ c ∈ value, c ≠ 13 ∧ c ≠ 10
  · rw [if_neg (empty.not.mpr (not_not_intro blank))]
    by_cases nul : 0 ∈ value
    · rw [if_pos (kept.mpr nul)]
      exact iff_of_false nofun fun both => both.2 nul
    · rw [if_neg (kept.not.mpr nul)]
      exact iff_of_true rfl ⟨blank, nul⟩
  · rw [if_pos (empty.mpr blank)]
    exact iff_of_false nofun fun both => blank both.1

/-- The mask of a key that is not recognised is a secret value, if the part it shows is. -/
theorem validatedSecretValue_mask {apiKey : Text} (long : 4 < apiKey.length) :
    (validatedSecretValue (maskApiKey apiKey)).isSome = true ↔ 0 ∉ shownPart apiKey := by
  rw [validatedSecretValue_isSome, maskApiKey_long long]
  have star : (42 : ℕ) ∈ List.replicate (apiKey.length - 4) 42 :=
    List.mem_replicate.mpr ⟨by omega, rfl⟩
  have solid : ∃ c ∈ List.replicate (apiKey.length - 4) 42 ++ shownPart apiKey,
      c ≠ 13 ∧ c ≠ 10 := ⟨42, List.mem_append_left _ star, by decide, by decide⟩
  rw [and_iff_right solid, List.mem_append, List.mem_replicate]
  simp

/-! ## Importable clusters -/

/-- What a cluster that is exported with its mask needs for its secret: the reference
resolves, or the mask shows no NUL. -/
def SecretAvailable (resolver : SecretResolver) (config : ClusterConfig) : Prop :=
  if isTruthy config.apiKeyRef then
    (resolveSecret resolver (config.apiKeyRef.getD [])).isSome = true
  else ∀ apiKey ∈ config.apiKey, 4 < apiKey.length → 0 ∉ shownPart apiKey

/-- A cluster of the federation that an import accepts, whatever its inline key. -/
def ImportableCluster (resolver : SecretResolver) (cluster : Text × ClusterConfig) : Prop :=
  ∃ config, normalizeClusterConfig cluster.2 (some cluster.1) = some config ∧
    isName cluster.1 = true ∧ config.name.getD cluster.1 = cluster.1 ∧
    isCluster cluster.1 config = true ∧ stripText config.host ≠ [] ∧
    SecretAvailable resolver config

/-- A state that an import accepts, whatever its inline keys. -/
def Importable {Sections : Type} (checks : SectionChecks Sections) (resolver : SecretResolver)
    (federation : FederationState Sections) : Prop :=
  (∀ cluster ∈ federation.clustersConfig, ImportableCluster resolver cluster) ∧
    checks.beforeClusters (federation.clustersConfig.map Prod.fst) federation.sections = true ∧
    checks.afterClusters (federation.clustersConfig.map Prod.fst) federation.sections = true

/-- The instance under development. -/
def developer (resolver : SecretResolver) : Importer where
  profile := .development
  resolver := resolver

@[simp] theorem isCluster_maskConfig (clusterName : Text) (config : ClusterConfig) :
    isCluster clusterName (maskConfig config) = isCluster clusterName config := by
  unfold isCluster maskConfig
  rw [isTruthy_mask]

theorem isCluster_secret {clusterName : Text} {config : ClusterConfig}
    (valid : isCluster clusterName config = true) :
    isTruthy config.apiKeyRef ≠ isTruthy config.apiKey := by
  unfold isCluster at valid
  simp only [Bool.and_eq_true, bne_iff_ne] at valid
  exact valid.2

theorem normalizeProtocol_isSome {clusterName : Text} {config : ClusterConfig}
    (valid : isCluster clusterName config = true) :
    (normalizeProtocol config.protocol).isSome = true := by
  unfold isCluster at valid
  simp only [Bool.and_eq_true] at valid
  have named := valid.1.1.1.2
  cases protocol : config.protocol with
  | none => decide
  | some value =>
      rw [protocol, Option.all_some, Bool.or_eq_true, decide_eq_true_eq, decide_eq_true_eq] at named
      rcases named with rfl | rfl <;> decide

/-- The secret of a masked cluster, which is valid and whose mask was not recognised. -/
theorem materializeClusterConfig_mask {resolver : SecretResolver} {clusterName : Text}
    {config : ClusterConfig} (valid : isCluster clusterName config = true)
    (unrecognised : ∀ apiKey ∈ config.apiKey, ¬HasRecognisedMask apiKey) :
    (materializeClusterConfig resolver true (maskConfig config)).isSome = true ↔
      SecretAvailable resolver config := by
  obtain ⟨protocol, known⟩ := Option.isSome_iff_exists.mp (normalizeProtocol_isSome valid)
  have exactlyOne := isCluster_secret valid
  unfold materializeClusterConfig normalizeClusterConfig materializeClusterSecret SecretAvailable
  simp only [maskConfig, known, Option.map_some, Option.bind_some, Option.isSome_map,
    isTruthy_mask, if_neg exactlyOne.symm, not_true, and_false, if_false]
  by_cases reference : isTruthy config.apiKeyRef = true
  · rw [if_pos reference, if_pos reference]
  rw [if_neg reference, if_neg reference]
  cases present : config.apiKey with
  | none =>
      rw [present] at exactlyOne
      exact absurd (Bool.not_eq_true _ ▸ reference) exactlyOne
  | some apiKey =>
      have hidden := unrecognised apiKey present
      simp only [Option.map_some, Option.getD_some, Option.mem_def, Option.some.injEq,
        forall_eq']
      by_cases long : 4 < apiKey.length
      · rw [validatedSecretValue_mask long, forall_prop_of_true long]
      · refine iff_of_true ?_ fun long' => absurd long' long
        have inline : apiKey ≠ [] := by
          rintro rfl
          rw [present] at exactlyOne
          exact exactlyOne (Bool.eq_false_of_not_eq_true reference)
        have absent : apiKey = notAvailable := by
          by_contra secret
          exact hidden ⟨inline, secret, Or.inl (not_lt.mp long)⟩
        rw [absent]
        decide

/-- The checks of a masked cluster. -/
theorem checkCluster_mask {resolver : SecretResolver} {clusterName : Text}
    {config : ClusterConfig} :
    checkCluster (developer resolver) true (clusterName, maskConfig config) = .ok ⟨⟩ ↔
      (∀ apiKey ∈ config.apiKey, ¬HasRecognisedMask apiKey) ∧
        config.name.getD clusterName = clusterName ∧ isCluster clusterName config = true ∧
        stripText config.host ≠ [] ∧ SecretAvailable resolver config := by
  have unmasked : ¬isMaskedApiKey (maskConfig config).apiKey = true ↔
      ∀ apiKey ∈ config.apiKey, ¬HasRecognisedMask apiKey := by
    cases present : config.apiKey with
    | none => simp [maskConfig, present, isMaskedApiKey]
    | some apiKey => simp [maskConfig, present, isMaskedApiKey_mask]
  unfold checkCluster
  simp only [bind_eq_ok, check_eq_ok, isCluster_maskConfig, decide_eq_true_eq, ← unmasked]
  have development : (developer resolver).profile = .development := rfl
  have inline : (developer resolver).allowInline = true := rfl
  rw [inline]
  simp only [development, ne_eq, not_true, and_false, not_false_eq_true, true_and, Bool.false_or,
    decide_false]
  constructor
  · rintro ⟨named, valid, host, hidden, secret⟩
    refine ⟨hidden, named, valid, host, ?_⟩
    exact (materializeClusterConfig_mask valid (unmasked.mp hidden)).mp secret
  · rintro ⟨hidden, named, valid, host, secret⟩
    refine ⟨named, valid, host, hidden, ?_⟩
    exact (materializeClusterConfig_mask valid (unmasked.mp hidden)).mpr secret

/-! ## The import of an export -/

section Import

variable {Sections : Type} (checks : SectionChecks Sections) (resolver : SecretResolver)
  (federation : FederationState Sections)

/-- Under development, the export without secrets cannot be applied. -/
def RejectsMasked : Prop :=
  ∀ snapshot, stateSnapshotFromFederation federation false = some snapshot →
    validateImportSnapshot checks (developer resolver) snapshot true ≠ .ok ⟨⟩

/-- An inline key whose mask is recognised. -/
def HasRecognisedKey : Prop :=
  ∃ cluster ∈ federation.clustersConfig, ∃ apiKey ∈ cluster.2.apiKey, HasRecognisedMask apiKey

/-- The clusters of an export, with the name each is under. -/
def normalizeClusters : Option (List (Text × ClusterConfig)) :=
  federation.clustersConfig.mapM fun cluster =>
    (normalizeClusterConfig cluster.2 (some cluster.1)).map fun config => (cluster.1, config)

variable {checks resolver federation}

theorem normalizeClusterConfig_apiKey {config normalized : ClusterConfig} {name : Option Text}
    (normalizes : normalizeClusterConfig config name = some normalized) :
    normalized.apiKey = config.apiKey := by
  obtain ⟨protocol, -, rfl⟩ := Option.map_eq_some_iff.mp normalizes
  rfl

theorem mem_normalizeClusters {clusters : List (Text × ClusterConfig)}
    (exported : normalizeClusters federation = some clusters) {name : Text}
    {config : ClusterConfig} :
    (name, config) ∈ clusters ↔ ∃ cluster ∈ federation.clustersConfig,
      cluster.1 = name ∧ normalizeClusterConfig cluster.2 (some name) = some config := by
  rw [mem_of_mapM exported]
  refine exists_congr fun cluster => and_congr_right fun _ => ?_
  rw [Option.map_eq_some_iff]
  constructor
  · rintro ⟨normalized, normalizes, same⟩
    obtain ⟨rfl, rfl⟩ := Prod.mk.inj same
    exact ⟨rfl, normalizes⟩
  · rintro ⟨rfl, normalizes⟩
    exact ⟨config, normalizes, rfl⟩

theorem names_normalizeClusters {clusters : List (Text × ClusterConfig)}
    (exported : normalizeClusters federation = some clusters) :
    clusters.map Prod.fst = federation.clustersConfig.map Prod.fst := by
  refine map_of_mapM ?_ exported
  intro cluster result normalizes
  obtain ⟨config, -, rfl⟩ := Option.map_eq_some_iff.mp normalizes
  rfl

/-- The check of an export without secrets. -/
theorem validateImportSnapshot_masked {clusters : List (Text × ClusterConfig)} :
    validateImportSnapshot checks (developer resolver)
        { version := currentVersion
          clustersConfig := maskClusterSecrets clusters
          sections := federation.sections } true = .ok ⟨⟩ ↔
      (∀ name ∈ clusters.map Prod.fst, isName name = true) ∧
        checks.beforeClusters (clusters.map Prod.fst) federation.sections = true ∧
        (∀ cluster ∈ clusters,
          checkCluster (developer resolver) true (cluster.1, maskConfig cluster.2) = .ok ⟨⟩) ∧
        checks.afterClusters (clusters.map Prod.fst) federation.sections = true := by
  have names : (maskClusterSecrets clusters).map Prod.fst = clusters.map Prod.fst := by
    unfold maskClusterSecrets
    rw [List.map_map]
    rfl
  unfold validateImportSnapshot
  simp only [bind_eq_ok, check_eq_ok, forM_eq_ok, names, decide_true, Bool.or_true, true_and,
    List.all_eq_true]
  unfold maskClusterSecrets
  simp only [List.forall_mem_map]

/-- An export whose clusters pass their checks. -/
theorem clusters_accepted {clusters : List (Text × ClusterConfig)}
    (exported : normalizeClusters federation = some clusters) :
    ((∀ name ∈ clusters.map Prod.fst, isName name = true) ∧ ∀ cluster ∈ clusters,
        checkCluster (developer resolver) true (cluster.1, maskConfig cluster.2) = .ok ⟨⟩) ↔
      ¬HasRecognisedKey federation ∧
        ∀ cluster ∈ federation.clustersConfig, ImportableCluster resolver cluster := by
  have member := @mem_normalizeClusters _ federation clusters exported
  constructor
  · rintro ⟨named, passed⟩
    have normalized : ∀ cluster ∈ federation.clustersConfig, ∃ config,
        normalizeClusterConfig cluster.2 (some cluster.1) = some config ∧
          (cluster.1, config) ∈ clusters := by
      intro cluster registered
      have some : ∃ config, normalizeClusterConfig cluster.2 (some cluster.1) = some config := by
        rw [← Option.ne_none_iff_exists']
        intro unknown
        have lost : normalizeClusters federation = none :=
          mapM_eq_none.mpr ⟨cluster, registered, by rw [unknown]; rfl⟩
        rw [lost] at exported
        exact nomatch exported
      obtain ⟨config, normalizes⟩ := some
      exact ⟨config, normalizes, member.mpr ⟨cluster, registered, rfl, normalizes⟩⟩
    constructor
    · rintro ⟨cluster, registered, apiKey, inline, recognised⟩
      obtain ⟨config, normalizes, listed⟩ := normalized cluster registered
      have unrecognised := (checkCluster_mask.mp (passed _ listed)).1
      rw [normalizeClusterConfig_apiKey normalizes] at unrecognised
      exact unrecognised apiKey inline recognised
    · intro cluster registered
      obtain ⟨config, normalizes, listed⟩ := normalized cluster registered
      refine ⟨config, normalizes, named _ (List.mem_map.mpr ⟨_, listed, rfl⟩), ?_⟩
      exact (checkCluster_mask.mp (passed _ listed)).2
  · rintro ⟨unrecognised, importable⟩
    have each : ∀ cluster ∈ clusters, isName cluster.1 = true ∧
        checkCluster (developer resolver) true (cluster.1, maskConfig cluster.2) = .ok ⟨⟩ := by
      rintro ⟨name, config⟩ listed
      obtain ⟨cluster, registered, rfl, normalizes⟩ := member.mp listed
      obtain ⟨same, normalizes', named, rest⟩ := importable cluster registered
      obtain rfl : same = config := Option.some.inj (normalizes'.symm.trans normalizes)
      refine ⟨named, checkCluster_mask.mpr ⟨?_, rest⟩⟩
      rw [normalizeClusterConfig_apiKey normalizes]
      intro apiKey inline recognised
      exact unrecognised ⟨cluster, registered, apiKey, inline, recognised⟩
    exact ⟨List.forall_mem_map.mpr fun cluster listed => (each cluster listed).1,
      fun cluster listed => (each cluster listed).2⟩

/-- An export that can be applied. -/
theorem exists_accepted_iff :
    (∃ snapshot, stateSnapshotFromFederation federation false = some snapshot ∧
        validateImportSnapshot checks (developer resolver) snapshot true = .ok ⟨⟩) ↔
      ¬HasRecognisedKey federation ∧ Importable checks resolver federation := by
  have exports : ∀ snapshot, stateSnapshotFromFederation federation false = some snapshot ↔
      ∃ clusters, normalizeClusters federation = some clusters ∧
        { version := currentVersion
          clustersConfig := maskClusterSecrets clusters
          sections := federation.sections } = snapshot :=
    fun snapshot => Option.map_eq_some_iff
  constructor
  · rintro ⟨snapshot, exported, accepted⟩
    obtain ⟨clusters, normalizes, rfl⟩ := (exports snapshot).mp exported
    obtain ⟨named, before, passed, behind⟩ := validateImportSnapshot_masked.mp accepted
    rw [names_normalizeClusters normalizes] at before behind
    obtain ⟨unrecognised, importable⟩ := (clusters_accepted normalizes).mp ⟨named, passed⟩
    exact ⟨unrecognised, importable, before, behind⟩
  · rintro ⟨unrecognised, importable, before, behind⟩
    have normalizes : ∃ clusters, normalizeClusters federation = some clusters := by
      rw [← Option.ne_none_iff_exists']
      intro lost
      obtain ⟨cluster, registered, unknown⟩ := mapM_eq_none.mp lost
      obtain ⟨config, known, -⟩ := importable cluster registered
      rw [known] at unknown
      exact nomatch unknown
    obtain ⟨clusters, normalizes⟩ := normalizes
    have passed := (clusters_accepted normalizes).mpr ⟨unrecognised, importable⟩
    refine ⟨_, (exports _).mpr ⟨clusters, normalizes, rfl⟩, ?_⟩
    refine validateImportSnapshot_masked.mpr ⟨passed.1, ?_, passed.2, ?_⟩
    · rw [names_normalizeClusters normalizes]
      exact before
    · rw [names_normalizeClusters normalizes]
      exact behind

end Import

/-- **When a masked export cannot be applied**: exactly if the mask of some key is
recognised, or the state could not be imported in any case. -/
theorem masked_export_rejected_iff {Sections : Type} (checks : SectionChecks Sections)
    (resolver : SecretResolver) (federation : FederationState Sections) :
    RejectsMasked checks resolver federation ↔
      HasRecognisedKey federation ∨ ¬Importable checks resolver federation := by
  have accepted := @exists_accepted_iff _ checks resolver federation
  unfold RejectsMasked
  rw [← not_iff_not, not_or, not_not, ← accepted]
  push Not
  rfl

/-- A federation with one cluster and an inline key of five characters. -/
def fiveCharacterKey : FederationState Unit where
  clustersConfig :=
    [(chars "europe",
      { name := some (chars "europe")
        protocol := some (chars "http")
        host := chars "typesense-europe"
        port := 8108
        apiKeyRef := none
        apiKey := some (chars "s3cr3") })]
  sections := ()

/-- The mask of a key of five characters is applied as the key of the cluster. -/
theorem five_character_mask_accepted :
    ¬RejectsMasked ⟨fun _ _ => true, fun _ _ => true⟩ (fun _ => none) fiveCharacterKey := by
  intro rejects
  exact rejects _ rfl (by decide +kernel)

end ImposbroSearch.ControlPlane.StateSnapshot
