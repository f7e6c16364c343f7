import ImposbroSearch.ControlPlane.LegacyState
import ImposbroSearch.Foundation.JsonTransport

/-!
# Values of Kafka records

The producers print a value as JSON and send the text as bytes. The worker decodes the bytes
of a record and reads the text. What it does not take as a message is quarantined as text,
unless the error is another one than those that the decoder expects.
-/

namespace ImposbroSearch.Indexing

open ImposbroSearch.Foundation ImposbroSearch.ControlPlane
open ImposbroSearch.ControlPlane.LegacyState (plainStyle dumps dumps_eq)

variable {F : Type} [PyFloat F]

/-- `value_serializer` of the producers: `json.dumps(v).encode("utf-8")`. -/
def valueSerializer (v : Json F) : Option (List ℕ) := (dumps v).bind utf8Encode

/-- `InvalidKafkaMessageError`, and the error that an integer with too many digits raises. -/
inductive DecodeError where
  | invalidKafkaMessage
  | valueError
  deriving DecidableEq, Repr

/-- `decode_kafka_value`, of the bytes of a record or of none. -/
def decodeKafkaValue (rawValue : Option (List ℕ)) : Except DecodeError (JsonValue F) :=
  match rawValue.bind utf8Decode with
  | none => .error .invalidKafkaMessage
  | some decoded =>
    match Json.loads decoded with
    | .error .malformed => .error .invalidKafkaMessage
    | .error .tooManyDigits => .error .valueError
    | .ok message =>
      if isObject message.json then .ok message else .error .invalidKafkaMessage

/-- `dlq_safe_message` -/
def dlqSafeMessage (rawValue : Option (List ℕ)) : Json F :=
  match rawValue with
  | none => .null
  | some bytes => .str (utf8DecodeReplace bytes)

/-! ## What is sent -/

theorem utf8Encode_ascii {text : Text} (ascii : ∀ c ∈ text, c < 128) :
    utf8Encode text = some text := by
  have scalars : ∀ c ∈ text, IsScalar c := fun c member =>
    Or.inl ((ascii c member).trans (by norm_num))
  unfold utf8Encode
  rw [if_pos scalars]
  refine congrArg some ?_
  induction text with
  | nil => rfl
  | cons c text ih =>
      obtain ⟨small, others⟩ := List.forall_mem_cons.mp ascii
      have single : utf8Char c = [c] := if_pos small
      rw [List.flatMap_cons, single, ih others (List.forall_mem_cons.mp scalars).2]
      rfl

/-- **What is sent** is the printed text itself, which is in ASCII. -/
theorem valueSerializer_eq {v : Json F} (short : Json.ShortIntegers v.parts) :
    valueSerializer v = some (Json.print plainStyle v) := by
  have ascii : ∀ c ∈ Json.print plainStyle v, c < 128 := fun c member =>
    (Json.print_ascii rfl c member).trans (by norm_num)
  have dumped : dumps v = some (Json.print plainStyle v) := by
    refine if_pos (List.all_eq_true.mpr fun part member => ?_)
    cases part with
    | int n => exact decide_eq_true (short n member)
    | _ => rfl
  unfold valueSerializer
  rw [dumped, Option.bind_some, utf8Encode_ascii ascii]

theorem utf8Decode_print (v : Json F) :
    utf8Decode (Json.print plainStyle v) = some (Json.print plainStyle v) :=
  utf8Decode_ascii fun c member => (Json.print_ascii rfl c member).trans (by norm_num)

omit [PyFloat F] in
/-- What the reader takes, of a value whose strings are Python strings. -/
theorem scannable_of_short {v : Json F} (short : Json.ShortIntegers v.parts)
    (points : ∀ text, .text text ∈ v.parts → ∀ c ∈ text, c < 0x110000) :
    v.Scannable plainStyle true := by
  intro part member
  cases part with
  | int n => exact short n member
  | float x => trivial
  | constant => rfl
  | text characters => exact fun _ => points characters member
  | keys listed => trivial

/-! ## What is received -/

/-- A value of a record that was decoded, or that may be sent as one. -/
structure Deliverable (v : Json F) : Prop where
  settled : v.IsSettled
  short : Json.ShortIntegers v.parts

omit [PyFloat F] in
theorem Deliverable.scannable {v : Json F} (deliverable : Deliverable v) :
    v.Scannable plainStyle true :=
  scannable_of_short deliverable.short fun text part => (deliverable.settled text part).points

/-- **Every message that was decoded can be sent on unchanged.** -/
theorem deliverable_of_decoded {rawValue : Option (List ℕ)} {message : JsonValue F}
    (decoded : decodeKafkaValue rawValue = .ok message) : Deliverable message.json := by
  unfold decodeKafkaValue at decoded
  split at decoded
  next => cases decoded
  next text received =>
    obtain ⟨bytes, -, unicode⟩ := Option.bind_eq_some_iff.mp received
    split at decoded
    next => cases decoded
    next => cases decoded
    next loaded found =>
      split_ifs at decoded
      obtain rfl := Except.ok.inj decoded
      unfold Json.loads at found
      cases read : (Json.read true text : Except JsonError (Json F)) with
      | error error =>
          rw [read] at found
          cases found
      | ok v =>
          rw [read] at found
          obtain rfl := Except.ok.inj found
          constructor
          · exact Json.isSettled_dicts (Json.isSettled_read (utf8Decode_scalar unicode) read)
          · exact Json.shortIntegers_dicts (Json.read_short read)

omit [PyFloat F] in
theorem deliverable_dlqSafeMessage (rawValue : Option (List ℕ)) :
    Deliverable (dlqSafeMessage rawValue : Json F) := by
  cases rawValue with
  | none =>
      constructor
      · exact fun text member => absurd member List.not_mem_nil
      · exact fun n member => absurd member List.not_mem_nil
  | some bytes =>
      constructor
      · intro text member
        cases List.mem_singleton.mp member
        exact settled_of_scalar (utf8DecodeReplace_scalar bytes)
      · intro n member
        cases List.mem_singleton.mp member

/-- **What is sent is received**, of an object that can be sent. -/
theorem decodeKafkaValue_sent {message : JsonValue F} (deliverable : Deliverable message.json)
    (object : isObject message.json = true) :
    decodeKafkaValue (valueSerializer message.json) = .ok message := by
  have loaded : Json.loads (Json.print plainStyle message.json) = .ok message := by
    unfold Json.loads
    rw [Json.read_print_reread deliverable.scannable, Json.reread_of_settled deliverable.settled]
    refine congrArg Except.ok (JsonValue.ext ?_)
    exact Json.dicts_of_unique message.unique
  unfold decodeKafkaValue
  rw [valueSerializer_eq deliverable.short, Option.bind_some, utf8Decode_print]
  simp only
  rw [loaded]
  simp only
  rw [if_pos object]

end ImposbroSearch.Indexing
