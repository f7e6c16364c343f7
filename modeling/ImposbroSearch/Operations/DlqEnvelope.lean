import ImposbroSearch.Foundation.Base64
import ImposbroSearch.Indexing.EventDigest
import ImposbroSearch.Indexing.KafkaValues
import ImposbroSearch.Operations.DlqResolver

/-!
# The wrapper of a quarantined record

The worker wraps what it quarantines, with where it comes from and why, and sends it as JSON.
The resolver reads the wrapper again with a parser of its own, which is strict about JSON and
about sizes. So there are records that are quarantined and cannot be resolved: the condition
below says which.
-/

namespace ImposbroSearch.Operations

open ImposbroSearch.Foundation ImposbroSearch.Indexing ImposbroSearch.ControlPlane
open ImposbroSearch.Indexing.EventEnvelope (NamePattern get isAlphanumeric)
open ImposbroSearch.ControlPlane.LegacyState (plainStyle)

variable {F : Type}

/-! ## Quarantine -/

/-- A record of a collection topic. -/
structure KafkaRecord where
  topic : Text
  partition : ℕ
  offset : ℕ
  key : Option (List ℕ)
  value : Option (List ℕ)
  topic_scalar : ∀ c ∈ topic, IsScalar c
  partition_lt : partition < 2 ^ 31
  offset_lt : offset < 2 ^ 63
  key_bytes : ∀ bytes ∈ key, ∀ b ∈ bytes, b < 256

/-- The exception that a record is quarantined for. -/
structure ProcessingFailure where
  className : Text
  message : Text
  className_scalar : ∀ c ∈ className, IsScalar c
  message_points : ∀ c ∈ message, c < 0x110000

/-- `_encode_dlq_key` -/
def encodeDlqKey (messageKey : Option (List ℕ)) : Option Text := messageKey.map b64encode

/-- The fields of a wrapper. -/
def wrapperFields (record : KafkaRecord) (className errorMessage : Text) (message : Json F) :
    List (Text × Json F) :=
  [(chars "source_topic", .str record.topic),
    (chars "error", .str className),
    (chars "error_message", .str errorMessage),
    (chars "message", message),
    (chars "source_partition", .int record.partition),
    (chars "source_offset", .int record.offset)] ++
    match encodeDlqKey record.key with
    | none => []
    | some encodedKey =>
      [(chars "message_key", .str encodedKey),
        (chars "message_key_encoding", .str (chars "base64"))]

section Worker

variable [PyFloat F]

/-- What the worker quarantines of a record: the message, or the text of what is none. On
another error it leaves the record where it is. -/
def quarantinedMessage (rawValue : Option (List ℕ)) : Option (JsonValue F) :=
  match decodeKafkaValue rawValue with
  | .ok message => some message
  | .error .invalidKafkaMessage => some (Json.held (dlqSafeMessage rawValue))
  | .error .valueError => none

/-- `publish_to_dlq`: the bytes that are sent. -/
def publishToDlq (record : KafkaRecord) (failure : ProcessingFailure) (message : JsonValue F) :
    Option (List ℕ) :=
  valueSerializer
    (.object (wrapperFields record failure.className failure.message message.json))

end Worker

/-! ## The parser of the resolver -/

/-- `TOPIC_PATTERN` -/
def topicPattern : NamePattern := ⟨fun c => isAlphanumeric c || c = 46 || c = 95 || c = 45, 1, 249⟩

/-- `IDENTIFIER_PATTERN` -/
def identifierPattern : NamePattern :=
  ⟨fun c => isAlphanumeric c || c = 46 || c = 95 || c = 58 || c = 64 || c = 45, 1, 128⟩

/-- `MAX_ERROR_MESSAGE_BYTES` -/
def maxErrorMessageBytes : ℕ := 16384

/-- `ResolverError`, or the error of a text that cannot be encoded. -/
inductive DlqParseError where
  | refused (error : ResolverError)
  | unicodeEncodeError

/-- `ParsedDlqEnvelope` -/
structure ParsedDlqEnvelope (F : Type) where
  sourceTopic : Text
  sourcePartition : ℤ
  sourceOffset : ℤ
  errorClass : Text
  errorMessageSha256 : Text
  message : JsonValue F
  messageSha256 : Text
  messageKey : Option (List ℕ)
  messageKeySha256 : Option Text
  wrapperSha256 : Text
  wrapperSizeBytes : ℕ

def refused {α : Type} (code message : String) : Except DlqParseError α :=
  .error (.refused ⟨code, message⟩)

def malformedWrapper {α : Type} (message : String) : Except DlqParseError α :=
  refused "malformed_dlq_wrapper" message

/-- The fields that a wrapper has. -/
def requiredFields : List String :=
  ["source_topic", "source_partition", "source_offset", "error", "error_message", "message"]

/-- The fields that a wrapper may have. -/
def allowedFields : List String := requiredFields ++ ["message_key", "message_key_encoding"]

/-- The check of the fields of a wrapper. -/
def checkFields (wrapper : List (Text × Json F)) : Except DlqParseError Unit :=
  let keys := wrapper.map Prod.fst
  if (requiredFields.map chars).all keys.contains ∧ keys.all (allowedFields.map chars).contains then
    .ok ()
  else malformedWrapper "DLQ wrapper fields do not match the supported contract"

/-- The check of `source_topic`. -/
def parseSourceTopic (value : Json F) (expectedSourceTopic : Text) : Except DlqParseError Text :=
  match value with
  | .str sourceTopic =>
    if topicPattern.fullmatch sourceTopic then
      if sourceTopic = expectedSourceTopic then .ok sourceTopic
      else refused "source_topic_mismatch" "DLQ source_topic does not match --expected-source-topic"
    else malformedWrapper "DLQ source_topic is invalid"
  | _ => malformedWrapper "DLQ source_topic is invalid"

/-- `strict_nonnegative` -/
def strictNonnegative (value : Json F) (field : String) : Except DlqParseError ℤ :=
  match value with
  | .int n =>
    if n < 0 then malformedWrapper ("DLQ " ++ field ++ " must be a non-negative integer")
    else .ok n
  | _ => malformedWrapper ("DLQ " ++ field ++ " must be a non-negative integer")

/-- The check of `error`. -/
def parseErrorClass (value : Json F) : Except DlqParseError Text :=
  match value with
  | .str errorClass =>
    if identifierPattern.fullmatch errorClass then .ok errorClass
    else malformedWrapper "DLQ error class is invalid"
  | _ => malformedWrapper "DLQ error class is invalid"

/-- The bytes of `error_message`. -/
def parseErrorMessage (value : Json F) : Except DlqParseError (List ℕ) :=
  match value with
  | .str errorMessage =>
    match utf8Encode errorMessage with
    | none => .error .unicodeEncodeError
    | some bytes =>
      if maxErrorMessageBytes < bytes.length then
        malformedWrapper "DLQ error message is invalid or too large"
      else .ok bytes
  | _ => malformedWrapper "DLQ error message is invalid or too large"

/-- The bytes of `message_key`. -/
def parseMessageKey (value encoding : Json F) : Except DlqParseError (Option (List ℕ)) :=
  match value with
  | .null =>
    match encoding with
    | .null => .ok none
    | _ => malformedWrapper "message_key_encoding is not allowed without message_key"
  | .str encodedKey =>
    match encoding with
    | .str other =>
      if other = chars "base64" then
        match b64decode encodedKey with
        | none => malformedWrapper "DLQ message_key is not valid base64"
        | some messageKey =>
          if messageKey = [] ∨ 2048 < messageKey.length then
            malformedWrapper "DLQ message_key size is invalid"
          else .ok (some messageKey)
      else malformedWrapper "DLQ message_key must use explicit base64 encoding"
    | _ => malformedWrapper "DLQ message_key must use explicit base64 encoding"
  | _ => malformedWrapper "DLQ message_key must use explicit base64 encoding"

section Resolver

variable [PyFloat F]

/-- `_canonical_json` -/
def canonicalBytes (value : Json F) : Except DlqParseError (List ℕ) :=
  match (Json.canonicalJson value).bind utf8Encode with
  | some bytes => .ok bytes
  | none => refused "invalid_json_value"
      "DLQ message contains a value that cannot be represented as strict JSON"

/-- `_strict_json_object` -/
def strictJsonObject (raw : List ℕ) : Except DlqParseError (List (Text × Json F)) :=
  match (utf8Decode raw).bind fun decoded => (Json.read false decoded).toOption with
  | none => refused "malformed_dlq_json" "Selected DLQ record is not a strict UTF-8 JSON object"
  | some value =>
    if value.Unique then
      match value with
      | .object wrapper => .ok wrapper
      | _ => refused "malformed_dlq_wrapper"
          "Selected DLQ record must contain a JSON object wrapper"
    else refused "malformed_dlq_json" "Selected DLQ record is not a strict UTF-8 JSON object"

/-- `parse_dlq_envelope` -/
def parseDlqEnvelope (hash : List ℕ → Text) (rawValue : Option (List ℕ))
    (expectedSourceTopic : Text) (maxRecordBytes : ℕ) :
    Except DlqParseError (ParsedDlqEnvelope F) :=
  match rawValue with
  | none => refused "malformed_dlq_value" "Selected DLQ record value must be raw bytes"
  | some rawValue =>
    if rawValue = [] ∨ maxRecordBytes < rawValue.length then
      refused "invalid_record_size" "Selected DLQ record size is outside the approved bound"
    else do
      let wrapper ← strictJsonObject rawValue
      checkFields wrapper
      let sourceTopic ← parseSourceTopic (get wrapper "source_topic") expectedSourceTopic
      let sourcePartition ← strictNonnegative (get wrapper "source_partition") "source_partition"
      let sourceOffset ← strictNonnegative (get wrapper "source_offset") "source_offset"
      let errorClass ← parseErrorClass (get wrapper "error")
      let errorMessage ← parseErrorMessage (get wrapper "error_message")
      let messageKey ←
        parseMessageKey (get wrapper "message_key") (get wrapper "message_key_encoding")
      let message := Json.held (get wrapper "message")
      let messageBytes ← canonicalBytes message.json
      .ok
        { sourceTopic, sourcePartition, sourceOffset, errorClass
          errorMessageSha256 := hash errorMessage
          message
          messageSha256 := hash messageBytes
          messageKey
          messageKeySha256 := messageKey.map hash
          wrapperSha256 := hash rawValue
          wrapperSizeBytes := rawValue.length }

end Resolver

/-! ## What a wrapper consists of -/

/-- The keys of a wrapper without a message key. -/
def wrapperKeys : List Text :=
  [chars "source_topic", chars "error", chars "error_message", chars "message",
    chars "source_partition", chars "source_offset"]

/-- The keys of a wrapper with a message key. -/
def keyedKeys : List Text := wrapperKeys ++ [chars "message_key", chars "message_key_encoding"]

theorem wrapperKeys_nodup : wrapperKeys.Nodup := by decide

theorem keyedKeys_nodup : keyedKeys.Nodup := by decide

section Parts

variable {record : KafkaRecord} {className errorMessage : Text} {message : Json F}

/-- The fields of a wrapper, apart from those of its message. -/
theorem forall_parts_wrapper {P : JsonPart F → Prop}
    (keys : ∀ listed : List Text, listed.Nodup → P (.keys listed))
    (texts : ∀ text, (∀ c ∈ text, IsScalar c) → P (.text text))
    (ints : ∀ n : ℕ, n < 2 ^ 63 → P (.int n)) (named : ∀ c ∈ className, IsScalar c)
    (described : P (.text errorMessage)) :
    (∀ part ∈ (Json.object (wrapperFields record className errorMessage message)).parts, P part) ↔
      ∀ part ∈ message.parts, P part := by
  have ascii : ∀ word : String, (∀ c ∈ chars word, c < 128) → P (.text (chars word)) :=
    fun word small => texts _ fun c member => Or.inl ((small c member).trans (by norm_num))
  have text : ∀ text, P (.text text) → ∀ part ∈ (Json.str text : Json F).parts, P part := by
    intro text holds part member
    obtain rfl := List.mem_singleton.mp member
    exact holds
  have int : ∀ n : ℕ, n < 2 ^ 63 → ∀ part ∈ (Json.int n : Json F).parts, P part := by
    intro n small part member
    obtain rfl := List.mem_singleton.mp member
    exact ints n small
  have partition := int record.partition (record.partition_lt.trans (by norm_num))
  have offset := int record.offset record.offset_lt
  unfold wrapperFields encodeDlqKey
  rw [Json.forall_parts_object]
  cases key : record.key with
  | none =>
      simp only [Option.map_none, List.append_nil, List.forall_mem_cons]
      constructor
      · rintro ⟨-, -, -, -, ⟨-, inside⟩, -⟩
        exact inside
      · intro inside
        exact ⟨keys wrapperKeys wrapperKeys_nodup, ⟨ascii _ (by decide), text _ (texts _ record.topic_scalar)⟩,
          ⟨ascii _ (by decide), text _ (texts _ named)⟩, ⟨ascii _ (by decide), text _ described⟩,
          ⟨ascii _ (by decide), inside⟩, ⟨ascii _ (by decide), partition⟩,
          ⟨ascii _ (by decide), offset⟩, fun _ member => absurd member List.not_mem_nil⟩
  | some bytes =>
      have encoded : P (.text (b64encode bytes)) := texts _ fun c member =>
        Or.inl ((mem_b64encode (record.key_bytes bytes key) member).trans (by norm_num))
      simp only [Option.map_some, List.cons_append, List.nil_append, List.forall_mem_cons]
      constructor
      · rintro ⟨-, -, -, -, ⟨-, inside⟩, -⟩
        exact inside
      · intro inside
        exact ⟨keys keyedKeys keyedKeys_nodup, ⟨ascii _ (by decide), text _ (texts _ record.topic_scalar)⟩,
          ⟨ascii _ (by decide), text _ (texts _ named)⟩, ⟨ascii _ (by decide), text _ described⟩,
          ⟨ascii _ (by decide), inside⟩, ⟨ascii _ (by decide), partition⟩,
          ⟨ascii _ (by decide), offset⟩, ⟨ascii _ (by decide), text _ encoded⟩,
          ⟨ascii _ (by decide), text _ (texts _ (by decide))⟩,
          fun _ member => absurd member List.not_mem_nil⟩

end Parts

/-- The error text as the resolver reads it. -/
def ProcessingFailure.received (failure : ProcessingFailure) : Text := rejoin true failure.message

section Transport

variable [PyFloat F] {record : KafkaRecord} {failure : ProcessingFailure} {message : JsonValue F}

omit [PyFloat F] in
/-- A wrapper arrives as it was sent, apart from pairs of surrogates in the error text. -/
theorem reread_wrapper (deliverable : Deliverable message.json) :
    Json.reread plainStyle
        (.object (wrapperFields record failure.className failure.message message.json)) =
      .object (wrapperFields record failure.className failure.received message.json) := by
  have topic : rejoin plainStyle.ensureAscii record.topic = record.topic :=
    rejoin_settled (settled_of_scalar record.topic_scalar)
  have named : rejoin plainStyle.ensureAscii failure.className = failure.className :=
    rejoin_settled (settled_of_scalar failure.className_scalar)
  have same : Json.reread plainStyle message.json = message.json :=
    Json.reread_of_settled deliverable.settled
  have words : ∀ key ∈ keyedKeys, rejoin plainStyle.ensureAscii key = key := by decide
  unfold wrapperFields encodeDlqKey ProcessingFailure.received
  rw [Json.reread, Json.rereadFields_map]
  refine congrArg Json.object ?_
  rw [List.map_append]
  refine congrArg₂ (· ++ ·) ?_ ?_
  · simp only [List.map_cons, List.map_nil, Json.reread, topic, named, same,
      words (chars "source_topic") (by decide), words (chars "error") (by decide),
      words (chars "error_message") (by decide), words (chars "message") (by decide),
      words (chars "source_partition") (by decide), words (chars "source_offset") (by decide)]
    rfl
  · cases key : record.key with
    | none => rfl
    | some bytes =>
        have encoded : rejoin plainStyle.ensureAscii (b64encode bytes) = b64encode bytes :=
          rejoin_settled (settled_of_scalar fun c member =>
            Or.inl ((mem_b64encode (record.key_bytes bytes key) member).trans (by norm_num)))
        have base64 : rejoin plainStyle.ensureAscii (chars "base64") = chars "base64" := by decide
        simp only [Option.map_some, List.map_cons, List.map_nil, Json.reread, encoded, base64,
          words (chars "message_key") (by decide), words (chars "message_key_encoding") (by decide)]

omit [PyFloat F] in
theorem scalar_lt {text : Text} (scalars : ∀ c ∈ text, IsScalar c) : ∀ c ∈ text, c < 0x110000 :=
  (settled_of_scalar scalars).points

/-- An integer of a wrapper can be printed. -/
theorem natText_short {n : ℕ} (small : n < 2 ^ 63) :
    (natText (n : ℤ).natAbs).length ≤ maxStrDigits := by
  have digits : n < 10 ^ 19 := small.trans (by norm_num)
  rw [Int.natAbs_natCast]
  exact (natText_length_le (by norm_num) digits).trans (by norm_num [maxStrDigits])

omit [PyFloat F] in
theorem scannable_wrapper (deliverable : Deliverable message.json) :
    (Json.object (wrapperFields record failure.className failure.message message.json)).Scannable
      plainStyle true := by
  unfold Json.Scannable
  rw [forall_parts_wrapper]
  · exact deliverable.scannable
  · exact fun _ _ => trivial
  · exact fun text scalars _ => scalar_lt scalars
  · exact fun n small => natText_short small
  · exact failure.className_scalar
  · exact fun _ => failure.message_points

/-- The worker can send every wrapper. -/
theorem publishToDlq_eq (deliverable : Deliverable message.json) :
    publishToDlq record failure message = some (Json.print plainStyle
      (.object (wrapperFields record failure.className failure.message message.json))) := by
  refine valueSerializer_eq (Json.shortIntegers_iff.mpr ?_)
  rw [forall_parts_wrapper]
  · exact Json.shortIntegers_iff.mp deliverable.short
  · exact fun _ _ _ same => by cases same
  · exact fun _ _ _ same => by cases same
  · rintro n small other same
    obtain rfl := JsonPart.int.inj same
    exact natText_short small
  · exact failure.className_scalar
  · exact fun _ same => by cases same

omit [PyFloat F] in
theorem finite_wrapper {errorMessage : Text} :
    (Json.object (wrapperFields record failure.className errorMessage message.json)).Finite ↔
      message.json.Finite := by
  rw [Json.finite_iff, Json.finite_iff, forall_parts_wrapper]
  · exact fun _ _ same => by cases same
  · exact fun _ _ same => by cases same
  · exact fun _ _ same => by cases same
  · exact failure.className_scalar
  · exact fun same => by cases same

omit [PyFloat F] in
theorem unique_wrapper {errorMessage : Text} :
    (Json.object (wrapperFields record failure.className errorMessage message.json)).Unique := by
  rw [Json.unique_iff, forall_parts_wrapper]
  · exact Json.unique_iff.mp message.unique
  · exact fun _ distinct => distinct
  · exact fun _ _ => trivial
  · exact fun _ _ => trivial
  · exact failure.className_scalar
  · exact trivial

/-- **The strict reader takes a wrapper** if its message has no constants. -/
theorem strictJsonObject_sent (deliverable : Deliverable message.json)
    {wrapper : List (Text × Json F)} :
    strictJsonObject (Json.print plainStyle
        (.object (wrapperFields record failure.className failure.message message.json))) =
          .ok wrapper ↔
      message.json.Finite ∧
        wrapper = wrapperFields record failure.className failure.received message.json := by
  have scannable : (Json.object (wrapperFields record failure.className failure.message
      message.json)).Scannable plainStyle true := scannable_wrapper deliverable
  unfold strictJsonObject
  rw [utf8Decode_print, Option.bind_some]
  by_cases finite : message.json.Finite
  · rw [Json.read_print_reread ((finite_wrapper.mpr finite).scannable scannable),
      reread_wrapper deliverable]
    simp only [Except.toOption]
    rw [if_pos unique_wrapper]
    simp only [Except.ok.injEq, finite, true_and]
    exact eq_comm
  · have unread : (Json.read false (Json.print plainStyle (.object (wrapperFields record
        failure.className failure.message message.json))) : Except JsonError (Json F)).toOption =
          none := by
      cases result : (Json.read false (Json.print plainStyle (.object (wrapperFields record
          failure.className failure.message message.json))) : Except JsonError (Json F)) with
      | error error => rfl
      | ok w => exact absurd (finite_wrapper.mp (Json.finite_of_read scannable result)) finite
    rw [unread]
    refine iff_of_false (fun parsed => ?_) fun both => finite both.1
    unfold refused at parsed
    cases parsed

end Transport

/-! ## The checks of the resolver -/

section Checks

variable {record : KafkaRecord} {className errorMessage : Text} {message : Json F}

theorem checkFields_wrapper :
    checkFields (wrapperFields record className errorMessage message) = .ok () := by
  have keyless : (requiredFields.map chars).all wrapperKeys.contains ∧
      wrapperKeys.all (allowedFields.map chars).contains := by decide
  have keyed : (requiredFields.map chars).all keyedKeys.contains ∧
      keyedKeys.all (allowedFields.map chars).contains := by decide
  unfold checkFields wrapperFields encodeDlqKey
  cases record.key with
  | none => exact if_pos keyless
  | some bytes => exact if_pos keyed

theorem parseSourceTopic_eq_ok {topic result : Text} :
    parseSourceTopic (.str topic : Json F) topic = .ok result ↔
      topicPattern.fullmatch topic = true ∧ result = topic := by
  unfold parseSourceTopic
  simp only
  split_ifs with matched
  · simp only [Except.ok.injEq, matched, true_and]
    exact eq_comm
  · exact iff_of_false nofun fun both => matched both.1

theorem strictNonnegative_nat (n : ℕ) (field : String) :
    strictNonnegative (.int n : Json F) field = .ok (n : ℤ) := by
  unfold strictNonnegative
  exact if_neg (not_lt.mpr (Int.natCast_nonneg n))

theorem parseErrorClass_eq_ok {errorClass result : Text} :
    parseErrorClass (.str errorClass : Json F) = .ok result ↔
      identifierPattern.fullmatch errorClass = true ∧ result = errorClass := by
  unfold parseErrorClass
  simp only
  split_ifs with matched
  · simp only [Except.ok.injEq, matched, true_and]
    exact eq_comm
  · exact iff_of_false nofun fun both => matched both.1

theorem parseErrorMessage_eq_ok {text : Text} {bytes : List ℕ} :
    parseErrorMessage (.str text : Json F) = .ok bytes ↔
      utf8Encode text = some bytes ∧ bytes.length ≤ maxErrorMessageBytes := by
  unfold parseErrorMessage
  simp only
  cases utf8Encode text with
  | none => exact iff_of_false nofun fun both => by cases both.1
  | some encoded =>
      simp only
      split_ifs with large
      · refine iff_of_false nofun ?_
        rintro ⟨same, small⟩
        obtain rfl := Option.some.inj same
        exact absurd small (not_le.mpr large)
      · simp only [Except.ok.injEq, Option.some.injEq]
        constructor
        · rintro rfl
          exact ⟨rfl, not_lt.mp large⟩
        · exact fun both => both.1

/-- **The key comes back** if its size is admitted. -/
theorem parseMessageKey_wrapper {messageKey : Option (List ℕ)} :
    parseMessageKey
        (get (wrapperFields record className errorMessage message) "message_key")
        (get (wrapperFields record className errorMessage message) "message_key_encoding") =
          .ok messageKey ↔
      (∀ bytes ∈ record.key, 1 ≤ bytes.length ∧ bytes.length ≤ 2048) ∧
        messageKey = record.key := by
  unfold wrapperFields encodeDlqKey
  cases key : record.key with
  | none =>
      show parseMessageKey (.null : Json F) .null = .ok messageKey ↔ _
      simp [parseMessageKey, eq_comm]
  | some bytes =>
      show parseMessageKey (.str (b64encode bytes) : Json F) (.str (chars "base64")) =
        .ok messageKey ↔ _
      unfold parseMessageKey
      simp only [if_true]
      rw [b64decode_encode (record.key_bytes bytes key)]
      simp only
      split_ifs with outside
      · refine iff_of_false nofun fun both => ?_
        have sized := both.1 bytes rfl
        rcases outside with empty | large
        · rw [empty] at sized
          exact absurd sized.1 (by decide)
        · omega
      · rw [not_or, not_lt] at outside
        have sized : 1 ≤ bytes.length ∧ bytes.length ≤ 2048 :=
          ⟨List.length_pos_of_ne_nil outside.1, outside.2⟩
        simp only [Except.ok.injEq, Option.mem_def, Option.some.injEq, forall_eq', sized, true_and,
          and_self]
        exact eq_comm

variable [PyFloat F]

/-- The message can be printed canonically if it is finite and in Unicode. -/
theorem canonicalBytes_isOk (short : Json.ShortIntegers message.parts) :
    (∃ bytes, canonicalBytes message = .ok bytes) ↔ message.Finite ∧
      ∀ text, .text text ∈ message.parts → ∀ c ∈ text, IsScalar c := by
  have dumpable : message.Dumpable ↔ message.Finite := by
    constructor
    · exact fun dumpable constant => dumpable .constant constant
    · intro finite part member
      cases part with
      | int n => exact short n member
      | constant => exact absurd member finite
      | _ => trivial
  have encodable : utf8Encode (Json.print Json.compact (Json.sortKeys message)) ≠ none ↔
      ∀ text, .text text ∈ message.parts → ∀ c ∈ text, IsScalar c := by
    rw [EventEnvelope.utf8Encode_isSome, EventEnvelope.scalar_print]
    exact forall_congr' fun text => imp_congr_left EventEnvelope.text_mem_sortKeys
  unfold canonicalBytes
  by_cases finite : message.Finite
  · rw [Json.canonicalJson_eq (dumpable.mpr finite), Option.bind_some, ← encodable]
    cases utf8Encode (Json.print Json.compact (Json.sortKeys message)) with
    | none => exact iff_of_false nofun fun both => both.2 rfl
    | some bytes => exact iff_of_true ⟨bytes, rfl⟩ ⟨finite, Option.some_ne_none _⟩
  · have unprinted : Json.canonicalJson message = none := if_neg (mt dumpable.mp finite)
    rw [unprinted]
    exact iff_of_false nofun fun both => finite both.1

end Checks

/-! ## Agreement -/

section Agreement

variable [PyFloat F]

/-- What the resolver takes: a wrapper whose sizes are admitted, with a topic and a class
of an error that have their forms, an error text in Unicode, and a message of JSON proper in
Unicode. -/
structure Resolvable (record : KafkaRecord) (failure : ProcessingFailure) (message : Json F)
    (wrapperBytes maxRecordBytes : ℕ) : Prop where
  size : wrapperBytes ≤ maxRecordBytes
  topic : topicPattern.fullmatch record.topic = true
  errorClass : identifierPattern.fullmatch failure.className = true
  errorText : ∃ bytes, utf8Encode failure.received = some bytes ∧
    bytes.length ≤ maxErrorMessageBytes
  key : ∀ bytes ∈ record.key, 1 ≤ bytes.length ∧ bytes.length ≤ 2048
  finite : message.Finite
  unicode : ∀ text, .text text ∈ message.parts → ∀ c ∈ text, IsScalar c

/-- The envelope says what was quarantined. -/
structure ParsedDlqEnvelope.Carries (envelope : ParsedDlqEnvelope F) (record : KafkaRecord)
    (failure : ProcessingFailure) (message : JsonValue F) : Prop where
  sourceTopic : envelope.sourceTopic = record.topic
  sourcePartition : envelope.sourcePartition = record.partition
  sourceOffset : envelope.sourceOffset = record.offset
  errorClass : envelope.errorClass = failure.className
  message : envelope.message = message
  messageKey : envelope.messageKey = record.key

omit [PyFloat F] in
theorem held_message (message : JsonValue F) : Json.held message.json = message :=
  JsonValue.ext (Json.dicts_of_unique message.unique)

theorem deliverable_of_quarantined {rawValue : Option (List ℕ)} {message : JsonValue F}
    (quarantined : quarantinedMessage rawValue = some message) : Deliverable message.json := by
  unfold quarantinedMessage at quarantined
  split at quarantined
  next decoded found =>
    obtain rfl := Option.some.inj quarantined
    exact deliverable_of_decoded found
  next =>
    obtain rfl := Option.some.inj quarantined
    cases rawValue with
    | none => exact deliverable_dlqSafeMessage none
    | some bytes => exact deliverable_dlqSafeMessage (some bytes)
  next => cases quarantined

/-- The envelope of a wrapper that passes every check. -/
theorem parseDlqEnvelope_eq_ok {hash : List ℕ → Text} {record : KafkaRecord}
    {failure : ProcessingFailure} {maxRecordBytes : ℕ} {message : JsonValue F}
    (deliverable : Deliverable message.json) {wrapper : List ℕ}
    (sent : wrapper = Json.print plainStyle
      (.object (wrapperFields record failure.className failure.message message.json)))
    {envelope : ParsedDlqEnvelope F} :
    parseDlqEnvelope hash (some wrapper) record.topic maxRecordBytes = .ok envelope ↔
      wrapper.length ≤ maxRecordBytes ∧ message.json.Finite ∧
        topicPattern.fullmatch record.topic = true ∧
        identifierPattern.fullmatch failure.className = true ∧
        (∀ bytes ∈ record.key, 1 ≤ bytes.length ∧ bytes.length ≤ 2048) ∧
        ∃ errorMessage, (utf8Encode failure.received = some errorMessage ∧
            errorMessage.length ≤ maxErrorMessageBytes) ∧
          ∃ messageBytes, canonicalBytes message.json = .ok messageBytes ∧
            envelope =
              { sourceTopic := record.topic
                sourcePartition := record.partition
                sourceOffset := record.offset
                errorClass := failure.className
                errorMessageSha256 := hash errorMessage
                message
                messageSha256 := hash messageBytes
                messageKey := record.key
                messageKeySha256 := record.key.map hash
                wrapperSha256 := hash wrapper
                wrapperSizeBytes := wrapper.length } := by
  have filled : wrapper ≠ [] := by
    obtain ⟨c, tail, text, -⟩ := Json.print_begins plainStyle
      (.object (wrapperFields record failure.className failure.message message.json)) []
    rw [List.append_nil] at text
    rw [sent, text]
    exact List.cons_ne_nil c tail
  have strict : ∀ fields, strictJsonObject wrapper = .ok fields ↔ message.json.Finite ∧
      fields = wrapperFields record failure.className failure.received message.json := by
    rw [sent]
    exact fun fields => strictJsonObject_sent deliverable
  unfold parseDlqEnvelope
  simp only [filled, false_or]
  by_cases size : maxRecordBytes < wrapper.length
  · rw [if_pos size]
    exact iff_of_false nofun fun all => absurd all.1 (not_le.mpr size)
  · rw [if_neg size]
    simp only [except_bind_eq_ok, strict]
    constructor
    · rintro ⟨fields, ⟨finite, rfl⟩, -, -, sourceTopic, topic, sourcePartition, partition,
        sourceOffset, offset, errorClass, named, errorMessage, described, messageKey, keyed,
        messageBytes, printed, same⟩
      obtain ⟨matched, rfl⟩ := parseSourceTopic_eq_ok.mp topic
      obtain ⟨formed, rfl⟩ := parseErrorClass_eq_ok.mp named
      obtain ⟨sized, rfl⟩ := parseMessageKey_wrapper.mp keyed
      obtain rfl := Except.ok.inj ((strictNonnegative_nat _ _).symm.trans partition)
      obtain rfl := Except.ok.inj ((strictNonnegative_nat _ _).symm.trans offset)
      have inside : Json.held (get (wrapperFields record failure.className failure.received
        message.json) "message") = message := held_message message
      rw [inside] at printed same
      exact ⟨not_lt.mp size, finite, matched, formed, sized, errorMessage,
        parseErrorMessage_eq_ok.mp described, messageBytes, printed, (Except.ok.inj same).symm⟩
    · rintro ⟨-, finite, topic, named, keyed, errorMessage, described, messageBytes, printed, rfl⟩
      have inside : Json.held (get (wrapperFields record failure.className failure.received
        message.json) "message") = message := held_message message
      refine ⟨_, ⟨finite, rfl⟩, (), checkFields_wrapper, _, parseSourceTopic_eq_ok.mpr ⟨topic, rfl⟩,
        _, strictNonnegative_nat _ _, _, strictNonnegative_nat _ _, _,
        parseErrorClass_eq_ok.mpr ⟨named, rfl⟩, _, parseErrorMessage_eq_ok.mpr described, _,
        parseMessageKey_wrapper.mpr ⟨keyed, rfl⟩, messageBytes, ?_, ?_⟩
      · rw [inside]
        exact printed
      · rw [inside]

/-- **What the worker quarantines and what the resolver takes.** The worker can wrap and send
every record that it quarantines, with any key and for any error. The resolver takes the
wrapper exactly if the condition holds, and then the envelope has the topic, the partition,
the offset, the key and the message of the record. -/
theorem dlq_wrapper_round_trip (hash : List ℕ → Text) (record : KafkaRecord)
    (failure : ProcessingFailure) (maxRecordBytes : ℕ) (message : JsonValue F)
    (quarantined : quarantinedMessage record.value = some message) :
    ∃ wrapper, publishToDlq record failure message = some wrapper ∧
      ((∃ envelope : ParsedDlqEnvelope F,
          parseDlqEnvelope hash (some wrapper) record.topic maxRecordBytes = .ok envelope) ↔
        Resolvable record failure message.json wrapper.length maxRecordBytes) ∧
      ∀ envelope, parseDlqEnvelope hash (some wrapper) record.topic maxRecordBytes =
        .ok envelope → envelope.Carries record failure message := by
  have deliverable := deliverable_of_quarantined quarantined
  refine ⟨_, publishToDlq_eq deliverable, ?_, ?_⟩
  · constructor
    · rintro ⟨envelope, parsed⟩
      obtain ⟨size, finite, topic, named, keyed, errorMessage, described, messageBytes, printed, -⟩ :=
        (parseDlqEnvelope_eq_ok deliverable rfl).mp parsed
      obtain ⟨-, unicode⟩ := (canonicalBytes_isOk deliverable.short).mp ⟨messageBytes, printed⟩
      exact ⟨size, topic, named, ⟨errorMessage, described⟩, keyed, finite, unicode⟩
    · rintro ⟨size, topic, named, ⟨errorMessage, described⟩, keyed, finite, unicode⟩
      obtain ⟨messageBytes, printed⟩ :=
        (canonicalBytes_isOk deliverable.short).mpr ⟨finite, unicode⟩
      exact ⟨_, (parseDlqEnvelope_eq_ok deliverable rfl).mpr
        ⟨size, finite, topic, named, keyed, errorMessage, described, messageBytes, printed, rfl⟩⟩
  · intro envelope parsed
    obtain ⟨-, -, -, -, -, errorMessage, -, messageBytes, -, rfl⟩ :=
      (parseDlqEnvelope_eq_ok deliverable rfl).mp parsed
    exact ⟨rfl, rfl, rfl, rfl, rfl, rfl⟩

/-- A record with a byte that UTF-8 does not have. -/
def poisonRecord : KafkaRecord where
  topic := chars "imposbro_books"
  partition := 0
  offset := 7
  key := some [98]
  value := some [255]
  topic_scalar := by decide
  partition_lt := by norm_num
  offset_lt := by norm_num
  key_bytes := by simp

def poisonFailure : ProcessingFailure where
  className := chars "InvalidKafkaMessageError"
  message := chars "Invalid Kafka JSON payload"
  className_scalar := by decide
  message_points := by decide

/-- The record is quarantined as text. -/
def poisonMessage : JsonValue SampleFloat := Json.held (.str [0xfffd])

theorem dlq_wrapper_round_trip_poison :
    ∃ wrapper, publishToDlq poisonRecord poisonFailure poisonMessage = some wrapper ∧
      ((∃ envelope : ParsedDlqEnvelope SampleFloat, parseDlqEnvelope id (some wrapper)
          poisonRecord.topic 1048576 = .ok envelope) ↔
        Resolvable poisonRecord poisonFailure poisonMessage.json wrapper.length 1048576) ∧
      ∀ envelope, parseDlqEnvelope id (some wrapper) poisonRecord.topic 1048576 = .ok envelope →
        envelope.Carries poisonRecord poisonFailure poisonMessage :=
  dlq_wrapper_round_trip id poisonRecord poisonFailure 1048576 poisonMessage rfl

end Agreement

end ImposbroSearch.Operations
