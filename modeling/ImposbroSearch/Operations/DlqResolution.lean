import ImposbroSearch.Operations.DlqResolver

/-!
# The resolver never skips a record

A commit moves the offset past the record of the invocation only after a read that
found the offset at that record. Whatever happened since, the records before it had
been resolved at that moment, and what is resolved stays resolved. The offset can move
back, never past a record that is not resolved.
-/

namespace ImposbroSearch.Operations

open ImposbroSearch.Foundation

namespace DlqResolver

variable {Record Envelope : Type}
  (parse : Record → String → Except ResolverError Envelope)
  {validateReplay : Envelope → String → Except String Unit}
  (initial : DlqPartition → Option ℕ) {state next : DlqResolver Record Envelope}

/-- The record has been replayed to its source topic, and the broker has acknowledged it. -/
def Replayed (state : DlqResolver Record Envelope) (partition : DlqPartition) (offset : ℕ) : Prop :=
  ∃ replay ∈ state.replays, replay.invocation.selection.dlqPartition = partition ∧
    replay.invocation.selection.offset = offset ∧
    ∃ record, (state.records partition)[offset]? = some record ∧
      parse record replay.invocation.selection.expectedSourceTopic = .ok replay.envelope

/-- An operator has disposed of the record and confirmed it in so many words. -/
def Disposed (state : DlqResolver Record Envelope) (partition : DlqPartition) (offset : ℕ) : Prop :=
  ∃ invocation ∈ state.dispositions, invocation.selection.dlqPartition = partition ∧
    invocation.selection.offset = offset ∧ invocation.commit = true ∧
    invocation.confirm = "DISPOSITION-AND-COMMIT:" ++ invocation.selection.token ∧
    IsIdentifier invocation.reason ∧ IsIdentifier invocation.approver

def Resolved (state : DlqResolver Record Envelope) (partition : DlqPartition) (offset : ℕ) : Prop :=
  state.Replayed parse partition offset ∨ state.Disposed partition offset

/-- Everything from the initial offset up to `mark` is resolved. -/
def Covered (state : DlqResolver Record Envelope) (partition : DlqPartition) (mark : ℕ) : Prop :=
  ∃ first, initial partition = some first ∧ first ≤ mark ∧
    ∀ offset, first ≤ offset → offset < mark → state.Resolved parse partition offset

/-- One more record is resolved. -/
theorem Covered.succ {partition : DlqPartition} {mark : ℕ}
    (covered : state.Covered parse initial partition mark)
    (resolved : state.Resolved parse partition mark) :
    state.Covered parse initial partition (mark + 1) := by
  obtain ⟨first, started, le, each⟩ := covered
  refine ⟨first, started, Nat.le_succ_of_le le, fun offset from_ below => ?_⟩
  rcases Nat.lt_succ_iff_lt_or_eq.mp below with earlier | rfl
  · exact each offset from_ earlier
  · exact resolved

/-- The fetched record is the selected one. -/
def Fetched (state : DlqResolver Record Envelope) (invocation : Invocation)
    (fetch : FetchResult Record) : Prop :=
  fetch.offset = invocation.selection.offset ∧
    (state.records invocation.selection.dlqPartition)[fetch.offset]? = some fetch.record

/-- What an invocation has made sure of when it has come to `stage`. -/
def StageHolds (state : DlqResolver Record Envelope) (invocation : Invocation) :
    ResolverStage Record Envelope → Prop
  | .fetching => True
  | .bounded _ _ => True
  | .positioned _ _ _ => True
  | .fetched fetch => state.Fetched invocation fetch
  | .sending fetch envelope => state.Fetched invocation fetch ∧
    parse fetch.record invocation.selection.expectedSourceTopic = .ok envelope
  | .flushing fetch =>
    state.Resolved parse invocation.selection.dlqPartition fetch.offset
  | .rechecking fetch => state.Resolved parse invocation.selection.dlqPartition fetch.offset
  | .committing fetch => state.Resolved parse invocation.selection.dlqPartition fetch.offset ∧
    state.Covered parse initial invocation.selection.dlqPartition fetch.offset
  | .verifying _ => True

/-- **The invariant.** -/
structure Resolves (state : DlqResolver Record Envelope) : Prop where
  covered : ∀ partition mark, state.committed partition = some mark →
    state.Covered parse initial partition mark
  stages : ∀ id invocation stage, state.invocations id = some (invocation, stage) →
    state.StageHolds parse initial invocation stage

/-- Records, replays and dispositions are only added. -/
structure Extends (state next : DlqResolver Record Envelope) : Prop where
  records : ∀ (partition : DlqPartition) (offset : ℕ) (record : Record),
    (state.records partition)[offset]? = some record →
    (next.records partition)[offset]? = some record
  replays : state.replays ⊆ next.replays
  dispositions : state.dispositions ⊆ next.dispositions

variable {parse initial}

theorem Resolved.extends {partition : DlqPartition} {offset : ℕ} (extends_ : state.Extends next)
    (resolved : state.Resolved parse partition offset) : next.Resolved parse partition offset := by
  rcases resolved with ⟨replay, member, same, here, record, found, parsed⟩ | ⟨invocation, member, rest⟩
  · exact Or.inl ⟨replay, extends_.replays member, same, here, record,
      extends_.records _ _ _ found, parsed⟩
  · exact Or.inr ⟨invocation, extends_.dispositions member, rest⟩

theorem Covered.extends {partition : DlqPartition} {mark : ℕ} (extends_ : state.Extends next)
    (covered : state.Covered parse initial partition mark) :
    next.Covered parse initial partition mark := by
  obtain ⟨first, started, le, each⟩ := covered
  exact ⟨first, started, le, fun offset from_ below => (each offset from_ below).extends extends_⟩

theorem StageHolds.extends {invocation : Invocation} {stage : ResolverStage Record Envelope}
    (extends_ : state.Extends next) (holds : state.StageHolds parse initial invocation stage) :
    next.StageHolds parse initial invocation stage := by
  cases stage with
  | fetching => trivial
  | bounded beginningOffset endOffset => trivial
  | positioned beginningOffset endOffset committedOffset => trivial
  | fetched fetch => exact ⟨holds.1, extends_.records _ _ _ holds.2⟩
  | sending fetch envelope => exact ⟨⟨holds.1.1, extends_.records _ _ _ holds.1.2⟩, holds.2⟩
  | flushing fetch => exact Resolved.extends extends_ holds
  | rechecking fetch => exact Resolved.extends extends_ holds
  | committing fetch => exact ⟨holds.1.extends extends_, holds.2.extends extends_⟩
  | verifying fetch => trivial

/-- **A step that only adds**, with offsets and stages that are covered. -/
theorem Resolves.of_extends (resolves : state.Resolves parse initial) (extends_ : state.Extends next)
    (committed : ∀ partition mark, next.committed partition = some mark →
      state.committed partition = some mark ∨ next.Covered parse initial partition mark)
    (stages : ∀ id invocation stage, next.invocations id = some (invocation, stage) →
      state.invocations id = some (invocation, stage) ∨
        next.StageHolds parse initial invocation stage) : next.Resolves parse initial where
  covered partition mark found := by
    rcases committed partition mark found with before | here
    · exact (resolves.covered partition mark before).extends extends_
    · exact here
  stages id invocation stage found := by
    rcases stages id invocation stage found with before | here
    · exact (resolves.stages id invocation stage before).extends extends_
    · exact here

/-- Only invocations, results and beginnings change. -/
theorem Resolves.of_same (resolves : state.Resolves parse initial)
    (records : next.records = state.records) (replays : next.replays = state.replays)
    (dispositions : next.dispositions = state.dispositions)
    (committed : next.committed = state.committed)
    (stages : ∀ id invocation stage, next.invocations id = some (invocation, stage) →
      state.invocations id = some (invocation, stage) ∨
        state.StageHolds parse initial invocation stage) : next.Resolves parse initial := by
  have extends_ : state.Extends next := by
    refine ⟨fun _ _ _ found => ?_, ?_, ?_⟩
    · rwa [records]
    · rw [replays]
      exact List.Subset.refl _
    · rw [dispositions]
      exact List.Subset.refl _
  refine resolves.of_extends extends_ (fun _ _ found => Or.inl (committed ▸ found)) ?_
  intro id invocation stage found
  exact (stages id invocation stage found).imp_right (StageHolds.extends extends_)

theorem Resolves.finish (resolves : state.Resolves parse initial) (id : ℕ) (invocation : Invocation)
    (result : Except ResolverError ResolverOutcome) :
    (state.finish id invocation result).Resolves parse initial := by
  refine resolves.of_same rfl rfl rfl rfl ?_
  intro other invocation stage found
  simp only [DlqResolver.finish] at found
  split_ifs at found
  exact Or.inl found

theorem Resolves.goOn (resolves : state.Resolves parse initial) (id : ℕ) {invocation : Invocation}
    {stage : ResolverStage Record Envelope}
    (holds : state.StageHolds parse initial invocation stage) :
    (state.goOn id invocation stage).Resolves parse initial := by
  refine resolves.of_same rfl rfl rfl rfl ?_
  intro other after reached found
  simp only [DlqResolver.goOn] at found
  split_ifs at found
  · obtain ⟨rfl, rfl⟩ := Prod.mk.inj (Option.some.inj found)
    exact Or.inr holds
  · exact Or.inl found

/-! ## The calls of an invocation -/

section Calls

variable {id : ℕ} {invocation : Invocation} {fetch : FetchResult Record}

theorem Resolves.readBounds (resolves : state.Resolves parse initial) (id : ℕ)
    (invocation : Invocation) : (state.readBounds id invocation).Resolves parse initial := by
  unfold DlqResolver.readBounds
  simp only
  split_ifs
  · exact resolves.finish _ _ _
  · exact resolves.finish _ _ _
  · exact resolves.goOn id trivial

theorem Resolves.poll (resolves : state.Resolves parse initial) (id : ℕ) (invocation : Invocation)
    (beginningOffset endOffset : ℕ) (committedOffset : Option ℕ) :
    (state.poll id invocation beginningOffset endOffset committedOffset).Resolves parse initial := by
  unfold DlqResolver.poll
  simp only
  split
  · exact resolves.finish _ _ _
  next record found =>
    split_ifs
    · exact resolves.finish _ _ _
    · apply resolves.goOn
      exact ⟨rfl, found⟩

/-- A confirmed disposition. -/
theorem disposed_of_not_refused (accepted : refuseDisposition fetch invocation = none)
    (action : invocation.action = .disposition) :
    invocation.commit = true ∧
      invocation.confirm = "DISPOSITION-AND-COMMIT:" ++ invocation.selection.token ∧
      IsIdentifier invocation.reason ∧ IsIdentifier invocation.approver := by
  unfold refuseDisposition at accepted
  split at accepted
  · cases accepted
  · split_ifs at accepted with uncommitted reason approver confirm
    refine ⟨by simpa using uncommitted, ?_, reason, approver⟩
    rw [not_not.mp confirm]
    unfold expectedConfirmation
    rw [action]

/-- **The decision** leaves nothing behind but a confirmed disposition. -/
theorem Resolves.decide (resolves : state.Resolves parse initial) (id : ℕ)
    (fetched : state.Fetched invocation fetch) :
    (state.decide parse validateReplay id invocation fetch).Resolves parse initial := by
  unfold DlqResolver.decide
  split
  · exact resolves.finish _ _ _
  next envelope parsed =>
    split
    · split_ifs
      · exact resolves.finish _ _ _
      · exact resolves.finish _ _ _
    · split_ifs
      · exact resolves.finish _ _ _
      · split
        · exact resolves.finish _ _ _
        · exact resolves.finish _ _ _
    · split
      · exact resolves.finish _ _ _
      · split
        · exact resolves.finish _ _ _
        · apply resolves.goOn
          exact ⟨fetched, parsed⟩
    next action =>
      split
      · exact resolves.finish _ _ _
      next accepted =>
        have confirmed := disposed_of_not_refused accepted action
        refine resolves.of_extends ?_ (fun _ _ found => Or.inl found) ?_
        · exact ⟨fun _ _ _ found => found, List.Subset.refl _, List.subset_append_left _ _⟩
        · intro other after reached found
          simp only [DlqResolver.goOn] at found
          split_ifs at found
          · obtain ⟨rfl, rfl⟩ := Prod.mk.inj (Option.some.inj found)
            refine Or.inr (Or.inr ⟨invocation, ?_, rfl, fetched.1.symm, confirmed⟩)
            exact List.mem_append_right _ (List.mem_singleton_self _)
          · exact Or.inl found

/-- **An acknowledged replay** resolves its record. -/
theorem Resolves.acknowledge (resolves : state.Resolves parse initial) (id : ℕ) {envelope : Envelope}
    (fetched : state.Fetched invocation fetch)
    (parsed : parse fetch.record invocation.selection.expectedSourceTopic = .ok envelope) :
    ({ state.goOn id invocation (.flushing fetch) with
      replays := state.replays ++ [⟨invocation, envelope⟩] } :
        DlqResolver Record Envelope).Resolves parse initial := by
  refine resolves.of_extends ?_ (fun _ _ found => Or.inl found) ?_
  · exact ⟨fun _ _ _ found => found, List.subset_append_left _ _, List.Subset.refl _⟩
  · intro other after reached found
    simp only [DlqResolver.goOn] at found
    split_ifs at found
    · obtain ⟨rfl, rfl⟩ := Prod.mk.inj (Option.some.inj found)
      refine Or.inr (Or.inl ⟨⟨invocation, envelope⟩, ?_, rfl, fetched.1.symm, fetch.record,
        fetched.2, parsed⟩)
      exact List.mem_append_right _ (List.mem_singleton_self _)
    · exact Or.inl found

/-- The second read finds everything before the record resolved. -/
theorem Resolves.recheck (resolves : state.Resolves parse initial) (id : ℕ)
    (resolved : state.Resolved parse invocation.selection.dlqPartition fetch.offset) :
    (state.recheck id invocation fetch).Resolves parse initial := by
  unfold DlqResolver.recheck
  split_ifs with moved
  · exact resolves.finish _ _ _
  · apply resolves.goOn
    exact ⟨resolved, resolves.covered _ _ (not_not.mp moved)⟩

/-- **A commit** passes the resolved record and nothing else. -/
theorem Resolves.moveOffset (resolves : state.Resolves parse initial)
    (resolved : state.Resolved parse invocation.selection.dlqPartition fetch.offset)
    (covered : state.Covered parse initial invocation.selection.dlqPartition fetch.offset) :
    (state.moveOffset invocation fetch).Resolves parse initial := by
  refine resolves.of_extends ⟨fun _ _ _ found => found, List.Subset.refl _, List.Subset.refl _⟩ ?_
    fun _ _ _ found => Or.inl found
  intro partition mark found
  simp only [DlqResolver.moveOffset] at found
  split_ifs at found with here
  · subst here
    obtain rfl := Option.some.inj found
    exact Or.inr (Covered.succ parse initial covered resolved)
  · exact Or.inl found

theorem Resolves.verify (resolves : state.Resolves parse initial) (id : ℕ) (invocation : Invocation)
    (fetch : FetchResult Record) : (state.verify id invocation fetch).Resolves parse initial := by
  unfold DlqResolver.verify
  split
  · exact resolves.finish _ _ _
  · split
    · exact resolves.finish _ _ _
    · exact resolves.finish _ _ _

/-- **Every call**, with any outcome. -/
theorem Resolves.advance (resolves : state.Resolves parse initial) (id : ℕ)
    (outcome : KafkaOutcome) :
    (state.advance parse validateReplay id outcome).Resolves parse initial := by
  unfold DlqResolver.advance
  split
  · exact resolves
  next invocation stage found =>
    have holds := resolves.stages id invocation stage found
    cases stage with
    | fetching =>
        simp only
        split_ifs
        · exact resolves.readBounds id invocation
        · exact resolves.finish _ _ _
    | bounded beginningOffset endOffset =>
        simp only
        split_ifs
        · exact resolves.goOn id trivial
        · exact resolves.finish _ _ _
    | positioned beginningOffset endOffset committedOffset =>
        simp only
        split_ifs
        · exact resolves.poll _ _ _ _ _
        · exact resolves.finish _ _ _
    | fetched fetch => exact resolves.decide id holds
    | sending fetch envelope =>
        simp only
        split_ifs
        · exact resolves.acknowledge id holds.1 holds.2
        · exact resolves.finish _ _ _
    | flushing fetch =>
        simp only
        split_ifs
        · exact resolves.finish _ _ _
        · exact resolves.goOn id holds
        · exact resolves.finish _ _ _
    | rechecking fetch =>
        simp only
        split_ifs
        · exact resolves.recheck id holds
        · exact resolves.finish _ _ _
    | committing fetch =>
        have moved := resolves.moveOffset holds.1 holds.2
        cases outcome with
        | answered => exact moved.goOn id trivial
        | failed => exact resolves.finish _ _ _
        | lost => exact moved.finish _ _ _
    | verifying fetch =>
        simp only
        split_ifs
        · exact resolves.verify id invocation fetch
        · exact resolves.finish _ _ _

end Calls

/-- **Every step** keeps the invariant. -/
theorem Resolves.step (resolves : state.Resolves parse initial) (step : ResolverStep Record) :
    (state.step parse validateReplay step).Resolves parse initial := by
  cases step with
  | produce partition record =>
      refine resolves.of_extends ⟨?_, List.Subset.refl _, List.Subset.refl _⟩
        (fun _ _ found => Or.inl found) fun _ _ _ found => Or.inl found
      intro other offset before found
      simp only [DlqResolver.step]
      split_ifs
      · exact List.getElem?_append_left (List.getElem?_eq_some_iff.mp found).1 ▸ found
      · exact found
  | expire partition beginning =>
      exact resolves.of_same rfl rfl rfl rfl fun _ _ _ found => Or.inl found
  | start id invocation =>
      unfold DlqResolver.step DlqResolver.start
      simp only
      split
      · exact resolves.of_same rfl rfl rfl rfl fun _ _ _ found => Or.inl found
      · split
        · exact resolves.of_same rfl rfl rfl rfl fun _ _ _ found => Or.inl found
        · split
          · exact resolves
          · apply resolves.goOn
            exact trivial
  | advance id outcome => exact resolves.advance id outcome
  | crash id =>
      refine resolves.of_same rfl rfl rfl rfl ?_
      intro other invocation stage found
      simp only [DlqResolver.step] at found
      split_ifs at found
      exact Or.inl found

/-- The partitions before any invocation. -/
def idle (records : DlqPartition → List Record) (beginning : DlqPartition → ℕ)
    (committed : DlqPartition → Option ℕ) : DlqResolver Record Envelope where
  records
  beginning
  committed

/-- **The resolver never skips a record.** Wherever the invocations leave the committed
offset, each record between the initial offset and it has been replayed, with the
acknowledgement of the broker, or disposed of, with the confirmation of an operator. -/
theorem resolver_never_skips (parse : Record → String → Except ResolverError Envelope)
    (validateReplay : Envelope → String → Except String Unit)
    (records : DlqPartition → List Record) (beginning : DlqPartition → ℕ)
    (initial : DlqPartition → Option ℕ) (steps : List (ResolverStep Record))
    (partition : DlqPartition) (mark : ℕ)
    (committed : (run (DlqResolver.step parse validateReplay) (idle records beginning initial)
      steps).committed partition = some mark) :
    ∃ first, initial partition = some first ∧ first ≤ mark ∧
      ∀ offset, first ≤ offset → offset < mark →
        (run (DlqResolver.step parse validateReplay) (idle records beginning initial)
          steps).Replayed parse partition offset ∨
        (run (DlqResolver.step parse validateReplay) (idle records beginning initial)
          steps).Disposed partition offset := by
  have opened : (idle records beginning initial : DlqResolver Record Envelope).Resolves parse
      initial := by
    constructor
    case covered =>
      intro partition mark found
      exact ⟨mark, found, le_rfl, fun offset from_ below => absurd below (not_lt_of_ge from_)⟩
    case stages =>
      intro id invocation stage found
      cases found
  have resolves : (run (DlqResolver.step parse validateReplay) (idle records beginning initial)
      steps).Resolves parse initial :=
    run_invariant_always (fun _ step resolves => resolves.step step) opened
  exact resolves.covered partition mark committed

/-! ## One record -/

/-- An operator who replays the first record of a partition. -/
def replayFirst : Invocation where
  action := .replay
  selection := ⟨"imposbro_dlq", 0, 0, "imposbro_docs"⟩
  operationId := "op-1"
  commit := true
  confirm := "REPLAY-AND-COMMIT:imposbro_dlq:0:0"

/-- The invocation with all its calls answered. -/
def replayedOnce : DlqResolver String String :=
  run (DlqResolver.step (fun record _ => .ok record) fun _ _ => .ok ())
    (idle (fun _ => ["record"]) (fun _ => 0) fun _ => some 0)
    (.start 0 replayFirst :: List.replicate 9 (.advance 0 .answered))

theorem replayedOnce_committed : replayedOnce.committed ("imposbro_dlq", 0) = some 1 := by
  decide +kernel

theorem resolver_never_skips_replayedOnce :
    replayedOnce.Replayed (fun record _ => .ok record) ("imposbro_dlq", 0) 0 ∨
      replayedOnce.Disposed ("imposbro_dlq", 0) 0 := by
  obtain ⟨first, started, -, resolved⟩ := resolver_never_skips (fun record _ => .ok record)
    (fun _ _ => .ok ()) (fun _ => ["record"]) (fun _ => 0) (fun _ => some 0) _ _ 1
    replayedOnce_committed
  obtain rfl := Option.some.inj started
  exact resolved 0 le_rfl Nat.zero_lt_one

end DlqResolver

end ImposbroSearch.Operations
