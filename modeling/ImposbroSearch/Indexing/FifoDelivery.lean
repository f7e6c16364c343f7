import ImposbroSearch.Foundation.KeyedDelivery
import ImposbroSearch.Indexing.Delivery
import Mathlib.Data.List.Induction

/-!
# Deliveries in the order Kafka keeps

Kafka keeps the order of records with one key, and the key of an indexing event
is its logical key. Under such an order the checkpoints never suppress a first
delivery and never admit a second: an event writes all its targets the first
time it arrives and nothing afterwards. Which document a target ends with is
then decided by which key happened to come last.
-/

namespace ImposbroSearch.Indexing

open ImposbroSearch.Foundation

variable {Doc : Type}

/-- The events of a log as delivered by Kafka: FIFO per logical key. -/
abbrev KafkaOrder (log order : List (IndexingEventV2 Doc)) : Prop :=
  Fifo (fun event : IndexingEventV2 Doc => event.identity.logicalKey)
    IndexingEventV2.sequence log order

/-- Nothing has been recorded yet. -/
def Storage.Fresh (storage : Storage Doc) : Prop :=
  ∀ key target, storage.checkpoints key target = none

/-- Empty clusters, and nothing recorded. -/
def Storage.blank : Storage Doc := ⟨fun _ _ => none, fun _ _ => none⟩

theorem Storage.blank_fresh : (Storage.blank : Storage Doc).Fresh := fun _ _ => rfl

section Orders

variable {satisfies : String → Doc → Bool} {digest : IndexingEventV2 Doc → String}
  {initial : Storage Doc} {log order : List (IndexingEventV2 Doc)} {event : IndexingEventV2 Doc}

/-- After `order`, every checkpoint was written by a delivered event, and every
delivered event is recorded on each of its targets. -/
structure Recorded (digest : IndexingEventV2 Doc → String) (order : List (IndexingEventV2 Doc))
    (storage : Storage Doc) : Prop where
  named : Named {event | event ∈ order} (encoded digest) storage.checkpoints
  reached : ∀ event ∈ order, ∀ target ∈ event.targetClusters,
    WithBot.some event.sequence ≤ checkpointSequence storage event.identity target

theorem Named.mono {events others : Set (IndexingEventV2 Doc)} {digest : Digest Doc}
    {table : CheckpointTable} (named : Named events digest table)
    (sub : ∀ event ∈ events, event ∈ others) : Named others digest table := by
  intro key target row found
  obtain ⟨event, member, rest⟩ := named key target row found
  exact ⟨event, sub event member, rest⟩

/-- The recorded sequence is that of a delivered event of the same key. -/
theorem Named.sequence_cases {events : Set (IndexingEventV2 Doc)} {digest : Digest Doc}
    {storage : Storage Doc} (named : Named events digest storage.checkpoints)
    (identity : EventIdentity) (target : ClusterName) :
    checkpointSequence storage identity target = ⊥ ∨
      ∃ event ∈ events, event.identity.logicalKey = identity.logicalKey ∧
        target ∈ event.targetClusters ∧
        checkpointSequence storage identity target = WithBot.some event.sequence := by
  unfold checkpointSequence
  cases found : storage.checkpoints identity.logicalKey target with
  | none => exact Or.inl rfl
  | some row =>
      obtain ⟨event, member, key, targeted, written⟩ := named _ _ row found
      refine Or.inr ⟨event, member, key, targeted, ?_⟩
      rw [recordedSequence, (checkpointFromEvent_some written).2.2.1]

/-- **A first delivery writes every target, a later one none.** -/
theorem Recorded.admits_iff (logged : EventLog {event | event ∈ log})
    {storage : Storage Doc} (recorded : Recorded digest order storage)
    (fifo : KafkaOrder log (order ++ [event])) (target : ClusterName) :
    storage.Admits event target ↔ target ∈ event.targetClusters ∧ event ∉ order := by
  have member : event ∈ log := fifo.sent event (by simp)
  constructor
  · rintro ⟨targeted, -, newer⟩
    refine ⟨targeted, fun delivered => ?_⟩
    exact absurd (recorded.reached event delivered target targeted) (not_le_of_gt newer)
  · rintro ⟨targeted, fresh⟩
    have below : ∀ other, checkpointSequence storage event.identity other <
        WithBot.some event.sequence := by
      intro other
      rcases recorded.named.sequence_cases event.identity other with
        unrecorded | ⟨writer, delivered, sameKey, -, sequence⟩
      · rw [unrecorded]
        exact WithBot.bot_lt_coe _
      · have le := fifo.left.rank_le_of_fresh member fresh delivered sameKey
        have ne : writer.sequence ≠ event.sequence := by
          intro equal
          obtain rfl := logged.sequence_inj writer (fifo.left.sent writer delivered) event member
            sameKey equal
          exact fresh delivered
        rw [sequence]
        exact WithBot.coe_lt_coe.mpr (lt_of_le_of_ne le ne)
    exact ⟨targeted, fun other _ => le_of_lt (below other), below target⟩

/-- One more delivery keeps the record complete. -/
theorem Recorded.deliver (satisfies : String → Doc → Bool)
    (logged : EventLog {event | event ∈ log}) {storage : Storage Doc}
    (recorded : Recorded digest order storage) (fifo : KafkaOrder log (order ++ [event])) :
    Recorded digest (order ++ [event]) (deliver satisfies digest storage event) := by
  have member : event ∈ log := fifo.sent event (by simp)
  have named : Named {event | event ∈ log} (encoded digest) storage.checkpoints :=
    recorded.named.mono fifo.left.sent
  constructor
  · intro key target row found
    rw [logged.deliver_checkpoints satisfies named member] at found
    split_ifs at found with written
    · exact ⟨event, List.mem_append_right _ (List.mem_singleton.mpr rfl), written.2.symm,
        written.1.1, found⟩
    · obtain ⟨writer, delivered, rest⟩ := recorded.named key target row found
      exact ⟨writer, List.mem_append_left _ delivered, rest⟩
  · intro other delivered target targeted
    rw [logged.deliver_sequence satisfies named member]
    rcases List.mem_append.mp delivered with delivered | here
    · have before := recorded.reached other delivered target targeted
      split_ifs with written
      · have newer := written.1.2.2
        unfold checkpointSequence at before newer
        rw [written.2] at before
        exact le_trans before (le_of_lt newer)
      · exact before
    · obtain rfl := List.mem_singleton.mp here
      split_ifs with written
      · exact le_refl _
      · have repeated : other ∈ order := by
          by_contra fresh
          exact written ⟨(recorded.admits_iff logged fifo target).mpr ⟨targeted, fresh⟩, rfl⟩
        exact recorded.reached other repeated target targeted

/-- The record is complete after every admissible order. -/
theorem recorded_run (satisfies : String → Doc → Bool) (digest : IndexingEventV2 Doc → String)
    (logged : EventLog {event | event ∈ log}) (fresh : initial.Fresh)
    (fifo : KafkaOrder log order) :
    Recorded digest order (run (deliver satisfies digest) initial order) := by
  induction order using List.reverseRecOn with
  | nil =>
      constructor
      · intro key target row found
        rw [run_nil, fresh key target] at found
        cases found
      · simp
  | append_singleton order event ih =>
      rw [run_snoc]
      exact (ih fifo.left).deliver satisfies logged fifo

open scoped Classical in
/-- **The documents after one more delivery.** -/
theorem run_snoc_documents (satisfies : String → Doc → Bool)
    (digest : IndexingEventV2 Doc → String) (logged : EventLog {event | event ∈ log})
    (fresh : initial.Fresh) (fifo : KafkaOrder log (order ++ [event])) (cluster : ClusterName)
    (address : PhysicalAddress) :
    (run (deliver satisfies digest) initial (order ++ [event])).documents cluster address =
      if (cluster ∈ event.targetClusters ∧ address = event.identity.address) ∧ event ∉ order then
        event.mutation.effect satisfies
          ((run (deliver satisfies digest) initial order).documents cluster address)
      else (run (deliver satisfies digest) initial order).documents cluster address := by
  have recorded := recorded_run satisfies digest logged fresh fifo.left
  have named := recorded.named.mono fifo.left.sent
  rw [run_snoc, logged.deliver_documents satisfies named (fifo.sent event (by simp))]
  refine if_congr ?_ rfl rfl
  rw [recorded.admits_iff logged fifo]
  tauto

end Orders

end ImposbroSearch.Indexing
