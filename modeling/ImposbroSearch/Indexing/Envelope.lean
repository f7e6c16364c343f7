import ImposbroSearch.Foundation.Runs

/-!
# The version 2 indexing envelope

The Query API publishes one logical event per accepted mutation, addressed to
every physical target at once. What the worker decides on is the identity, the
two monotone counters, the operation, and the target set. Trace metadata and
`occurred_at` are diagnostic: neither the digest nor any decision reads them,
so they are not part of this record.

The document type stays abstract. Only the tenant-safe delete filter ever looks
inside a document, through the engine's matching predicate `satisfies`.
-/

namespace ImposbroSearch.Indexing

abbrev ClusterName := String

def identitySeparator : String := "\x1f"

/-- `EventIdentity` -/
@[ext] structure EventIdentity where
  tenantId : String
  collection : String
  documentId : String
  deriving DecidableEq, Repr

/-- How the search engine addresses a document: by collection and id only. -/
@[ext] structure PhysicalAddress where
  collection : String
  documentId : String
  deriving DecidableEq, Repr

namespace EventIdentity

/-- The key under which checkpoints are stored and Kafka partitions records. -/
def logicalKey (identity : EventIdentity) : String :=
  identitySeparator.intercalate [identity.tenantId, identity.collection, identity.documentId]

def address (identity : EventIdentity) : PhysicalAddress :=
  ⟨identity.collection, identity.documentId⟩

end EventIdentity

inductive Operation where
  | upsert
  | delete
  | tombstone
  deriving DecidableEq, Repr

/-- The operation with the payload the envelope allows it to carry: a document
for an upsert, an optional tenant-safe filter otherwise. -/
inductive Mutation (Doc : Type) where
  | upsert (document : Doc)
  | delete (deleteFilter : Option String)
  | tombstone (deleteFilter : Option String)
  deriving DecidableEq, Repr

variable {Doc : Type}

namespace Mutation

def operation : Mutation Doc → Operation
  | upsert _ => .upsert
  | delete _ => .delete
  | tombstone _ => .tombstone

def document : Mutation Doc → Option Doc
  | upsert document => some document
  | _ => none

/-- `delete_document`: by filter when one is present and non-empty, by id
otherwise. A missing document is a no-op. -/
def deleteDocument (satisfies : String → Doc → Bool) (filterBy : Option String)
    (stored : Option Doc) : Option Doc :=
  match filterBy with
  | some filter =>
    if filter.isEmpty then none else stored.filter (fun document => !satisfies filter document)
  | none => none

/-- What the side effect of a mutation leaves at the document's address. -/
def effect (satisfies : String → Doc → Bool) (mutation : Mutation Doc)
    (stored : Option Doc) : Option Doc :=
  match mutation with
  | upsert document => some document
  | delete filterBy => deleteDocument satisfies filterBy stored
  | tombstone filterBy => deleteDocument satisfies filterBy stored

/-- The content the mutation is meant to leave behind: its document, or absence. -/
def outcome (mutation : Mutation Doc) : Option Doc := mutation.document

@[simp] theorem effect_upsert (satisfies : String → Doc → Bool) (document : Doc)
    (stored : Option Doc) :
    (upsert document).effect satisfies stored = some document := rfl

/-- The mutation removes `document`: an upsert trivially, a delete by id, and a
filtered delete when its filter matches. -/
def Removes (satisfies : String → Doc → Bool) (mutation : Mutation Doc) (document : Doc) : Prop :=
  match mutation with
  | upsert _ => True
  | delete filterBy => deleteDocument satisfies filterBy (some document) = none
  | tombstone filterBy => deleteDocument satisfies filterBy (some document) = none

theorem deleteDocument_none (satisfies : String → Doc → Bool) (filterBy : Option String) :
    deleteDocument satisfies filterBy (none : Option Doc) = none := by
  cases filterBy with
  | none => rfl
  | some filter => simp [deleteDocument]

/-- A delete leaves only what was there. -/
theorem eq_of_deleteDocument {satisfies : String → Doc → Bool} {filterBy : Option String}
    {stored : Option Doc} {document : Doc}
    (left : deleteDocument satisfies filterBy stored = some document) : stored = some document := by
  unfold deleteDocument at left
  split at left
  · split_ifs at left
    exact (Option.filter_eq_some_iff.mp left).1
  · cases left

/-- A document found after a mutation was put there by it or was there before. -/
theorem eq_of_effect {satisfies : String → Doc → Bool} {mutation : Mutation Doc}
    {stored : Option Doc} {document : Doc}
    (left : mutation.effect satisfies stored = some document) :
    mutation = upsert document ∨ stored = some document := by
  cases mutation with
  | upsert written => exact Or.inl (congrArg _ (Option.some.inj left))
  | delete filterBy => exact Or.inr (eq_of_deleteDocument left)
  | tombstone filterBy => exact Or.inr (eq_of_deleteDocument left)

/-- A mutation that does not remove the stored document leaves it there. -/
theorem effect_of_not_removes {satisfies : String → Doc → Bool} {mutation : Mutation Doc}
    {document : Doc} (spared : ¬mutation.Removes satisfies document) :
    mutation.effect satisfies (some document) = some document := by
  have kept : ∀ {filterBy : Option String},
      ¬deleteDocument satisfies filterBy (some document) = none →
        deleteDocument satisfies filterBy (some document) = some document := by
    intro filterBy left
    obtain ⟨found, content⟩ := Option.ne_none_iff_exists'.mp left
    rw [content, eq_of_deleteDocument content]
  cases mutation with
  | upsert _ => exact absurd trivial spared
  | delete filterBy => exact kept spared
  | tombstone filterBy => exact kept spared

/-- A mutation that removes whatever is stored leaves exactly its outcome. -/
theorem effect_eq_outcome {satisfies : String → Doc → Bool} {mutation : Mutation Doc}
    {stored : Option Doc}
    (removes : ∀ document, stored = some document → mutation.Removes satisfies document) :
    mutation.effect satisfies stored = mutation.outcome := by
  cases stored with
  | none => cases mutation <;> simp [effect, outcome, Mutation.document, deleteDocument_none]
  | some document =>
      have removed := removes document rfl
      cases mutation with
      | upsert _ => rfl
      | delete filterBy => exact removed
      | tombstone filterBy => exact removed

end Mutation

/-- `IndexingEventV2`, as the strict parser accepts it: counters are positive
and the target list is non-empty without duplicates. -/
@[ext] structure IndexingEventV2 (Doc : Type) where
  eventId : String
  identity : EventIdentity
  documentVersion : ℕ
  sequence : ℕ
  mutation : Mutation Doc
  routingRevision : ℕ
  rolloutId : Option String
  targetClusters : List ClusterName
  documentVersion_pos : 0 < documentVersion := by decide
  sequence_pos : 0 < sequence := by decide
  targets_ne : targetClusters ≠ [] := by decide
  targets_nodup : targetClusters.Nodup := by decide
  deriving DecidableEq

namespace IndexingEventV2

def operation (event : IndexingEventV2 Doc) : Operation := event.mutation.operation

end IndexingEventV2

end ImposbroSearch.Indexing
