import Mathlib.Data.List.Basic
import Mathlib.Tactic.Common
import ImposbroSearch.Foundation.Pattern

/-!
# Topic mapping

Three strings share the namespace of Kafka topics: the topic that the producer writes a
collection's events to, the pattern that the indexing worker subscribes to, and the topic
that the worker quarantines records in. The pattern leaves the quarantine topic out by
name, so a collection can only be told from it by its own name.
-/

namespace ImposbroSearch.Indexing.TopicMapping

open Foundation

/-! ## Names -/

def isNameChar (c : Char) : Bool :=
  ('a' ≤ c ∧ c ≤ 'z') ∨ ('A' ≤ c ∧ c ≤ 'Z') ∨ ('0' ≤ c ∧ c ≤ '9') ∨ c = '_' ∨ c = '-'

/-- `^[a-zA-Z0-9_-]+$` -/
def namePattern : Pattern :=
  .seq .start (.seq (.one isNameChar) (.seq (.many isNameChar) .finish))

/-- A collection name that the API accepts. -/
structure CollectionName where
  text : String
  accepted : namePattern.matchesWhole text = true

theorem CollectionName.ext_text {name other : CollectionName} (same : name.text = other.text) :
    name = other := by
  cases name
  cases other
  cases same
  rfl

/-- The accepted names are the nonempty texts of letters, digits, underscores and hyphens. -/
theorem accepted_iff (text : String) :
    namePattern.matchesWhole text = true ↔ text ≠ "" ∧ text.toList.all isNameChar = true :=
  Pattern.matchesWhole_class isNameChar text

/-! ## Topics -/

def dlqTopicSuffix : String := "_dlq"

/-- The topic of `KafkaService._publish_prepared`. -/
def producerTopic (topicPrefix collection : String) : String :=
  topicPrefix ++ "_" ++ collection

/-- The topic of `publish_to_dlq`. -/
def dlqTopic (topicPrefix : String) : String := topicPrefix ++ dlqTopicSuffix

/-- `str.lstrip` -/
def lstrip (c : Char) (text : String) : String :=
  String.ofList (text.toList.dropWhile fun other => other = c)

/-- `^{escaped_prefix}_(?!{dlq_topic_name}$).*` -/
def buildTopicSubscriptionPattern (topicPrefix : String) : Pattern :=
  let escapedPrefix := Pattern.literal topicPrefix.toList
  let dlqTopicName := Pattern.literal (lstrip '_' dlqTopicSuffix).toList
  .seq .start (.seq escapedPrefix (.seq (.literal ['_'])
    (.seq (.notAhead (.seq dlqTopicName .finish)) (.many fun c => c ≠ '\n'))))

/-- The producer's topic of a collection is one that the worker reads and does not
quarantine into, and it is no other collection's topic. -/
def Mapped (topicPrefix : String) (collection : CollectionName) : Prop :=
  (buildTopicSubscriptionPattern topicPrefix).matchesStart
      (producerTopic topicPrefix collection.text) = true ∧
  producerTopic topicPrefix collection.text ≠ dlqTopic topicPrefix ∧
  ∀ other : CollectionName, other ≠ collection →
    producerTopic topicPrefix other.text ≠ producerTopic topicPrefix collection.text

theorem lstrip_dlqTopicSuffix : (lstrip '_' dlqTopicSuffix).toList = ['d', 'l', 'q'] := by
  decide

/-- **The subscription**: under the prefix, everything but `dlq` and `dlq` with a newline. -/
theorem matches_subscription_iff (topicPrefix rest : String) :
    (buildTopicSubscriptionPattern topicPrefix).matchesStart (topicPrefix ++ "_" ++ rest) = true ↔
      rest.toList ≠ ['d', 'l', 'q'] ∧ rest.toList ≠ ['d', 'l', 'q', '\n'] := by
  have split : (topicPrefix ++ "_" ++ rest).toList =
      topicPrefix.toList ++ (['_'] ++ rest.toList) := by
    rw [String.toList_append, String.toList_append, List.append_assoc]
    rfl
  have before : ∀ body : Pattern,
      Pattern.ends (.seq .start (.seq (.literal topicPrefix.toList) (.seq (.literal ['_']) body)))
          (true, (topicPrefix ++ "_" ++ rest).toList) =
        Pattern.ends body (false, rest.toList) := by
    intro body
    have begun : Pattern.ends .start (true, (topicPrefix ++ "_" ++ rest).toList) =
        [(true, (topicPrefix ++ "_" ++ rest).toList)] := if_pos rfl
    rw [Pattern.ends_seq, begun, List.flatMap_singleton, split, Pattern.ends_seq,
      Pattern.ends_literal, List.flatMap_singleton, Pattern.ends_seq, Pattern.ends_literal,
      List.flatMap_singleton]
    simp
  unfold Pattern.matchesStart buildTopicSubscriptionPattern
  rw [decide_eq_true_eq, before, lstrip_dlqTopicSuffix, Pattern.ends_seq]
  have last := Pattern.ends_literal_finish ['d', 'l', 'q'] rest.toList false
  by_cases reserved : Pattern.ends (.seq (.literal ['d', 'l', 'q']) .finish)
      (false, rest.toList) = []
  · have ahead : Pattern.ends (.notAhead (.seq (.literal ['d', 'l', 'q']) .finish))
        (false, rest.toList) = [(false, rest.toList)] := if_pos reserved
    rw [ahead, List.flatMap_singleton]
    refine iff_of_true (Pattern.reach_ne_nil _ _ _) ⟨?_, ?_⟩
    · intro same
      exact last.mpr (Or.inl same) reserved
    · intro same
      exact last.mpr (Or.inr same) reserved
  · have ahead : Pattern.ends (.notAhead (.seq (.literal ['d', 'l', 'q']) .finish))
        (false, rest.toList) = [] := if_neg reserved
    rw [ahead]
    refine iff_of_false (not_not.mpr rfl) ?_
    rintro ⟨bare, newline⟩
    rcases last.mp reserved with same | same
    · exact bare same
    · exact newline same

/-- The worker does not read the topic that it quarantines into. -/
theorem subscription_excludes_dlqTopic (topicPrefix : String) :
    (buildTopicSubscriptionPattern topicPrefix).matchesStart (dlqTopic topicPrefix) = false := by
  have same : dlqTopic topicPrefix = topicPrefix ++ "_" ++ "dlq" := by
    rw [String.append_assoc]
    rfl
  rw [same, ← Bool.not_eq_true, matches_subscription_iff]
  rintro ⟨bare, -⟩
  exact bare (by decide)

theorem producerTopic_inj (topicPrefix : String) {collection other : String}
    (same : producerTopic topicPrefix collection = producerTopic topicPrefix other) :
    collection = other :=
  String.append_right_inj _ |>.mp same

theorem producerTopic_eq_dlqTopic (topicPrefix collection : String) :
    producerTopic topicPrefix collection = dlqTopic topicPrefix ↔ collection = "dlq" := by
  have same : dlqTopic topicPrefix = producerTopic topicPrefix "dlq" := by
    unfold producerTopic
    rw [String.append_assoc]
    rfl
  rw [same]
  constructor
  · intro equal
    exact producerTopic_inj topicPrefix equal
  · rintro rfl
    rfl

/-- An accepted name has no newline. -/
theorem CollectionName.newline_not_mem (collection : CollectionName) :
    '\n' ∉ collection.text.toList := by
  intro there
  have within := ((accepted_iff collection.text).mp collection.accepted).2
  exact absurd (List.all_eq_true.mp within '\n' there) (by decide)

/-- **The topic mapping** holds of the accepted collections that are not called `dlq`:
nothing reserves the name of the quarantine topic. -/
theorem mapped_iff (topicPrefix : String) (collection : CollectionName) :
    Mapped topicPrefix collection ↔ collection.text ≠ "dlq" := by
  constructor
  · rintro ⟨-, apart, -⟩
    exact fun same => apart ((producerTopic_eq_dlqTopic _ _).mpr same)
  · intro unreserved
    refine ⟨?_, ?_, ?_⟩
    · apply (matches_subscription_iff topicPrefix collection.text).mpr
      refine ⟨?_, ?_⟩
      · intro same
        apply unreserved
        rw [← String.ofList_toList (s := collection.text), same]
      · intro same
        apply collection.newline_not_mem
        rw [same]
        decide
    · intro same
      exact unreserved ((producerTopic_eq_dlqTopic _ _).mp same)
    · intro other differs same
      exact differs (CollectionName.ext_text (producerTopic_inj _ same))

/-- A collection called `dlq` is accepted, and its events go where no worker reads them. -/
theorem mapped_misses_dlq :
    ¬∀ (topicPrefix : String) (collection : CollectionName), Mapped topicPrefix collection := by
  intro always
  have mapped := always "imposbro_search_sharded" ⟨"dlq", by decide +kernel⟩
  exact mapped.2.1 (by decide)

end ImposbroSearch.Indexing.TopicMapping
