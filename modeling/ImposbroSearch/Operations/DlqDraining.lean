import ImposbroSearch.Operations.DlqResolution

/-!
# Draining a DLQ partition

Whether the record that is reported as next can be resolved. An invocation that no other
one disturbs reads the partition, acts, and reads the committed offset again before it
commits. A group that has committed nothing is taken to be at the beginning of the
partition when the order is checked, and at no offset at all when it is checked again.
-/

namespace ImposbroSearch.Operations

open ImposbroSearch.Foundation

/-! ## Eligibility -/

/-- `resolution_order_eligible` -/
def FetchResult.resolutionOrderEligible {Record : Type} (fetch : FetchResult Record) : Bool :=
  if fetch.committedOffset.any (· < fetch.beginningOffset) then false
  else fetch.offset = fetch.expectedNextOffset

/-- What is reported and what is required agree. -/
theorem FetchResult.requireResolutionOrder_eq_none {Record : Type} {fetch : FetchResult Record} :
    fetch.requireResolutionOrder = none ↔ fetch.resolutionOrderEligible = true := by
  unfold requireResolutionOrder resolutionOrderEligible
  split_ifs with expired next
  · exact iff_of_false nofun nofun
  · exact iff_of_false nofun fun same => next (of_decide_eq_true same)
  · exact iff_of_true rfl (decide_eq_true (not_not.mp next))

namespace DlqResolver

variable {Record Envelope : Type}

/-- What a fetch reports of a record. -/
def report (state : DlqResolver Record Envelope) (partition : DlqPartition) (offset : ℕ)
    (record : Record) : FetchResult Record where
  offset := offset
  record := record
  beginningOffset := state.beginning partition
  endOffset := (state.records partition).length
  committedOffset := state.committed partition

/-- A committed offset makes its own record the next one; without any, the first record
that is retained is next. -/
theorem eligible_iff {fetch : FetchResult Record} :
    fetch.resolutionOrderEligible = true ↔
      fetch.committedOffset = some fetch.offset ∧ fetch.beginningOffset ≤ fetch.offset ∨
        fetch.committedOffset = none ∧ fetch.offset = fetch.beginningOffset := by
  unfold FetchResult.resolutionOrderEligible FetchResult.expectedNextOffset
  cases fetch.committedOffset with
  | none => simp
  | some committed =>
      simp only [Option.any_some, decide_eq_true_eq, Option.getD_some, Option.some.injEq,
        reduceCtorEq, false_and, or_false]
      constructor
      · intro eligible
        split at eligible
        · exact Bool.noConfusion eligible
        · have same := of_decide_eq_true eligible
          omega
      · rintro ⟨rfl, retained⟩
        rw [if_neg (not_lt.mpr retained)]
        exact decide_eq_true rfl

/-! ## An invocation alone -/

/-- The steps while no other resolver acts: the calls of one invocation, with their
answers, new records, and expiry short of the record. -/
inductive Alone (id : ℕ) (partition : DlqPartition) (offset : ℕ) : ResolverStep Record → Prop where
  | call : Alone id partition offset (.advance id .answered)
  | produce (other : DlqPartition) (record : Record) :
      Alone id partition offset (.produce other record)
  | expire (other : DlqPartition) (beginning : ℕ)
      (short : other = partition → beginning ≤ offset) :
      Alone id partition offset (.expire other beginning)

/-- The calls among the steps. -/
def calls (steps : List (ResolverStep Record)) : ℕ :=
  steps.countP fun step => match step with
    | .advance _ _ => true
    | _ => false

/-- The calls that are left at most. -/
def ResolverStage.left : ResolverStage Record Envelope → ℕ
  | .fetching => 9
  | .bounded _ _ => 8
  | .positioned _ _ _ => 7
  | .fetched _ => 6
  | .sending _ _ => 5
  | .flushing _ => 4
  | .rechecking _ => 3
  | .committing _ => 2
  | .verifying _ => 1

def callsLeft (state : DlqResolver Record Envelope) (id : ℕ) : ℕ :=
  (state.invocations id).elim 0 fun running => ResolverStage.left running.2

/-- A replay that is to be committed, or a valid disposition, of this record. -/
structure Accepts (parse : Record → String → Except ResolverError Envelope)
    (validateReplay : Envelope → String → Except String Unit) (invocation : Invocation)
    (record : Record) : Prop where
  selector : invocation.selection.validate = none
  operationId : IsIdentifier invocation.operationId
  commits : invocation.commit = true
  confirm : invocation.confirm = expectedConfirmation invocation
  accepted : ∃ envelope, parse record invocation.selection.expectedSourceTopic = .ok envelope ∧
    (invocation.action = .replay ∧
        validateReplay envelope invocation.selection.dlqTopic = .ok () ∨
      invocation.action = .disposition ∧ IsIdentifier invocation.reason ∧
        IsIdentifier invocation.approver)

section Course

variable (invocation : Invocation) (record : Record) (committed : Option ℕ)

/-- The record is still there and next. -/
structure Ready (state : DlqResolver Record Envelope) : Prop where
  found : (state.records invocation.selection.dlqPartition)[invocation.selection.offset]? =
    some record
  unmoved : state.committed invocation.selection.dlqPartition = committed
  retained : state.beginning invocation.selection.dlqPartition ≤ invocation.selection.offset
  next : committed = some invocation.selection.offset ∨
    committed = none ∧
      invocation.selection.offset = state.beginning invocation.selection.dlqPartition

/-- The offset has not moved since the fetch, which found the record in order. -/
structure InOrder (state : DlqResolver Record Envelope) (fetch : FetchResult Record) : Prop where
  offset : fetch.offset = invocation.selection.offset
  unmoved : state.committed invocation.selection.dlqPartition = committed
  next : committed = some invocation.selection.offset ∨ committed = none

/-- Where an undisturbed invocation is. -/
def StageOnCourse (state : DlqResolver Record Envelope) : ResolverStage Record Envelope → Prop
  | .fetching => Ready invocation record committed state
  | .bounded beginning _ => Ready invocation record committed state ∧
    (committed = none → beginning = invocation.selection.offset) ∧
      beginning ≤ invocation.selection.offset
  | .positioned beginning _ read => Ready invocation record committed state ∧
    (committed = none → beginning = invocation.selection.offset) ∧
      beginning ≤ invocation.selection.offset ∧ read = committed
  | .fetched fetch => InOrder invocation committed state fetch ∧ fetch.record = record ∧
    fetch.resolutionOrderEligible = true
  | .sending fetch _ => InOrder invocation committed state fetch
  | .flushing fetch => InOrder invocation committed state fetch
  | .rechecking fetch => InOrder invocation committed state fetch
  | .committing fetch => fetch.offset = invocation.selection.offset ∧ committed ≠ none ∧
    state.committed invocation.selection.dlqPartition = some invocation.selection.offset
  | .verifying _ => committed ≠ none ∧
    state.committed invocation.selection.dlqPartition = some (invocation.selection.offset + 1)

/-- Where it ends: past the record, if the group had committed something. -/
def OnCourse (id : ℕ) (state : DlqResolver Record Envelope) : Prop :=
  match state.invocations id with
  | some (running, stage) => running = invocation ∧
    StageOnCourse invocation record committed state stage
  | none => state.committed invocation.selection.dlqPartition =
    committed.map fun _ => invocation.selection.offset + 1

end Course

section Steps

variable {parse : Record → String → Except ResolverError Envelope}
  {validateReplay : Envelope → String → Except String Unit} {invocation : Invocation}
  {record : Record} {committed : Option ℕ} {id : ℕ} {state next : DlqResolver Record Envelope}

/-- One more call has been made, and the invocation is on course. -/
def Advances (invocation : Invocation) (record : Record) (committed : Option ℕ) (id : ℕ)
    (left : ℕ) (next : DlqResolver Record Envelope) : Prop :=
  OnCourse invocation record committed id next ∧ next.callsLeft id ≤ left

/-- The invocation ends. -/
theorem advances_finish (result : Except ResolverError ResolverOutcome) (left : ℕ)
    (ended : state.committed invocation.selection.dlqPartition =
      committed.map fun _ => invocation.selection.offset + 1) :
    Advances invocation record committed id left (state.finish id invocation result) := by
  have gone : (state.finish id invocation result).invocations id = none := if_pos rfl
  constructor
  · unfold OnCourse
    rw [gone]
    exact ended
  · unfold callsLeft
    rw [gone]
    exact Nat.zero_le _

/-- What keeps the record ready and the offset in place keeps the course. -/
theorem StageOnCourse.keep
    (ready : Ready invocation record committed state → Ready invocation record committed next)
    (offsets : next.committed = state.committed) {stage : ResolverStage Record Envelope}
    (course : StageOnCourse invocation record committed state stage) :
    StageOnCourse invocation record committed next stage := by
  have inOrder : ∀ fetch, InOrder invocation committed state fetch →
      InOrder invocation committed next fetch := by
    rintro fetch ⟨offset, unmoved, eligible⟩
    exact ⟨offset, offsets ▸ unmoved, eligible⟩
  cases stage with
  | fetching => exact ready course
  | bounded first last => exact ⟨ready course.1, course.2⟩
  | positioned first last read => exact ⟨ready course.1, course.2⟩
  | fetched fetch => exact ⟨inOrder fetch course.1, course.2⟩
  | sending fetch envelope => exact inOrder fetch course
  | flushing fetch => exact inOrder fetch course
  | rechecking fetch => exact inOrder fetch course
  | committing fetch => exact ⟨course.1, course.2.1, offsets ▸ course.2.2⟩
  | verifying fetch => exact ⟨course.1, offsets ▸ course.2⟩

/-- The invocation goes on. -/
theorem advances_goOn (stage : ResolverStage Record Envelope) {left : ℕ}
    (course : StageOnCourse invocation record committed state stage)
    (fewer : ResolverStage.left stage ≤ left)
    (running : next.invocations id = some (invocation, stage))
    (records : next.records = state.records) (beginning : next.beginning = state.beginning)
    (offsets : next.committed = state.committed) :
    Advances invocation record committed id left next := by
  constructor
  · unfold OnCourse
    rw [running]
    refine ⟨rfl, StageOnCourse.keep ?_ offsets course⟩
    rintro ⟨found, unmoved, retained, eligible⟩
    exact ⟨records ▸ found, offsets ▸ unmoved, beginning ▸ retained, beginning ▸ eligible⟩
  · unfold callsLeft
    rw [running]
    exact fewer

/-- The partition changes, and the invocation waits. -/
theorem OnCourse.keep (course : OnCourse invocation record committed id state)
    (invocations : next.invocations = state.invocations)
    (offsets : next.committed = state.committed)
    (ready : Ready invocation record committed state → Ready invocation record committed next) :
    Advances invocation record committed id (state.callsLeft id) next := by
  constructor
  · unfold OnCourse at course ⊢
    rw [invocations]
    cases running : state.invocations id with
    | none =>
        rw [running] at course
        simp only at course ⊢
        rw [offsets]
        exact course
    | some current =>
        rw [running] at course
        exact ⟨course.1, course.2.keep ready offsets⟩
  · unfold callsLeft
    rw [invocations]

theorem goOn_running (stage : ResolverStage Record Envelope) :
    (state.goOn id invocation stage).invocations id = some (invocation, stage) := if_pos rfl

/-- The bounds show the record. -/
theorem Ready.readBounds (ready : Ready invocation record committed state) :
    Advances invocation record committed id 8 (state.readBounds id invocation) := by
  have below := (List.getElem?_eq_some_iff.mp ready.found).1
  unfold DlqResolver.readBounds
  simp only
  rw [if_neg (not_lt.mpr ready.retained), if_neg (not_le.mpr below)]
  refine advances_goOn (.bounded _ _) ⟨ready, ?_, ready.retained⟩ le_rfl (goOn_running _) rfl rfl
    rfl
  intro nothing
  rcases ready.next with known | ⟨-, first⟩
  · rw [nothing] at known
    exact nomatch known
  · exact first.symm

/-- The poll returns the record, in order. -/
theorem Ready.poll {first last : ℕ} (ready : Ready invocation record committed state)
    (start : committed = none → first = invocation.selection.offset)
    (retained : first ≤ invocation.selection.offset) :
    Advances invocation record committed id 6 (state.poll id invocation first last committed) := by
  unfold DlqResolver.poll
  simp only [ready.found]
  rw [if_neg (not_lt.mpr ready.retained)]
  have next : committed = some invocation.selection.offset ∨ committed = none :=
    ready.next.imp_right And.left
  refine advances_goOn (.fetched _) ⟨⟨rfl, ready.unmoved, next⟩, rfl, ?_⟩ le_rfl (goOn_running _)
    rfl rfl rfl
  rw [eligible_iff]
  rcases ready.next with known | ⟨nothing, -⟩
  · exact Or.inl ⟨known, retained⟩
  · exact Or.inr ⟨nothing, (start nothing).symm⟩

/-- The decision is to act. -/
theorem Accepts.decide (accepts : Accepts parse validateReplay invocation record)
    {fetch : FetchResult Record} (order : InOrder invocation committed state fetch)
    (own : fetch.record = record) (eligible : fetch.resolutionOrderEligible = true) :
    Advances invocation record committed id 5
      (state.decide parse validateReplay id invocation fetch) := by
  obtain ⟨envelope, parsed, action⟩ := accepts.accepted
  have inOrder := FetchResult.requireResolutionOrder_eq_none.mpr eligible
  unfold DlqResolver.decide
  rw [own, parsed]
  rcases action with ⟨replay, valid⟩ | ⟨disposition, reason, approver⟩
  · have accepted : refuseReplay validateReplay fetch envelope invocation.selection.dlqTopic =
        none := by
      unfold refuseReplay
      rw [inOrder, valid]
    simp only [replay, accepted]
    rw [if_neg (not_not_intro accepts.confirm)]
    exact advances_goOn (.sending fetch envelope) order le_rfl (goOn_running _) rfl rfl rfl
  · have accepted : refuseDisposition fetch invocation = none := by
      unfold refuseDisposition
      rw [inOrder]
      simp only
      rw [if_neg (by simp [accepts.commits]), if_neg (not_not_intro reason),
        if_neg (not_not_intro approver), if_neg (not_not_intro accepts.confirm)]
    simp only [disposition, accepted]
    exact advances_goOn (.rechecking fetch) order (Nat.le_add_right 3 2) (goOn_running _) rfl rfl rfl

/-- **The second read** finds the offset only if the group has committed one. -/
theorem InOrder.recheck {fetch : FetchResult Record}
    (order : InOrder invocation committed state fetch) :
    Advances invocation record committed id 2 (state.recheck id invocation fetch) := by
  unfold DlqResolver.recheck
  rw [order.unmoved, order.offset]
  rcases order.next with known | nothing
  · rw [known, if_neg (not_not_intro rfl)]
    refine advances_goOn (.committing fetch) ⟨order.offset, ?_, ?_⟩ le_rfl (goOn_running _) rfl rfl
      rfl
    · exact Option.some_ne_none _
    · exact order.unmoved.trans known
  · rw [nothing, if_pos nofun]
    exact advances_finish _ 2 (by rw [order.unmoved, nothing]; rfl)

/-- **Every call** of an undisturbed invocation. -/
theorem OnCourse.advance (accepts : Accepts parse validateReplay invocation record)
    (course : OnCourse invocation record committed id state) :
    Advances invocation record committed id (state.callsLeft id - 1)
      (state.advance parse validateReplay id .answered) := by
  unfold OnCourse at course
  unfold DlqResolver.advance callsLeft
  cases running : state.invocations id with
  | none =>
      rw [running] at course
      refine ⟨?_, ?_⟩
      · unfold OnCourse
        simp only [running]
        exact course
      · unfold callsLeft
        simp only [running]
        exact le_rfl
  | some current =>
      obtain ⟨asked, stage⟩ := current
      rw [running] at course
      obtain ⟨rfl, course⟩ := course
      cases stage with
      | fetching => exact Ready.readBounds course
      | bounded first last =>
          obtain ⟨ready, start, retained⟩ := course
          simp only [if_true, ready.unmoved]
          exact advances_goOn (.positioned first last committed) ⟨ready, start, retained, rfl⟩ le_rfl
            (goOn_running _) rfl rfl rfl
      | positioned first last read =>
          obtain ⟨ready, start, retained, rfl⟩ := course
          exact ready.poll start retained
      | fetched fetch =>
          obtain ⟨order, own, eligible⟩ := course
          exact accepts.decide order own eligible
      | sending fetch envelope =>
          exact advances_goOn (.flushing fetch) course le_rfl (goOn_running _) rfl rfl rfl
      | flushing fetch =>
          simp only [ne_eq, not_true, if_false, accepts.commits, if_true]
          exact advances_goOn (.rechecking fetch) course le_rfl (goOn_running _) rfl rfl rfl
      | rechecking fetch => exact InOrder.recheck course
      | committing fetch =>
          obtain ⟨own, known, offset⟩ := course
          have moved : StageOnCourse asked record committed
              (state.moveOffset asked fetch) (.verifying fetch) := by
            refine ⟨known, ?_⟩
            show (if _ = _ then some (fetch.offset + 1) else _) = _
            rw [if_pos rfl, own]
          exact advances_goOn (.verifying fetch) moved le_rfl (goOn_running _) rfl rfl rfl
      | verifying fetch =>
          obtain ⟨known, offset⟩ := course
          obtain ⟨before, rfl⟩ := Option.ne_none_iff_exists'.mp known
          simp only [if_true]
          unfold DlqResolver.verify
          rw [offset]
          simp only
          split
          · exact advances_finish _ 0 offset
          · exact advances_finish _ 0 offset

/-- **Every step** while no other resolver acts. -/
theorem OnCourse.step (accepts : Accepts parse validateReplay invocation record)
    (course : OnCourse invocation record committed id state) {step : ResolverStep Record}
    (alone : Alone id invocation.selection.dlqPartition invocation.selection.offset step) :
    Advances invocation record committed id (state.callsLeft id - calls [step])
      (state.step parse validateReplay step) := by
  cases alone with
  | call => exact course.advance accepts
  | produce other added =>
      refine course.keep rfl rfl ?_
      rintro ⟨found, unmoved, retained, eligible⟩
      refine ⟨?_, unmoved, retained, eligible⟩
      simp only [DlqResolver.step]
      split
      · exact List.getElem?_append_left (List.getElem?_eq_some_iff.mp found).1 ▸ found
      · exact found
  | expire other beginning short =>
      refine course.keep rfl rfl ?_
      rintro ⟨found, unmoved, retained, eligible⟩
      have bound : (state.step parse validateReplay (.expire other beginning)).beginning
          invocation.selection.dlqPartition =
            max (state.beginning invocation.selection.dlqPartition)
              (if other = invocation.selection.dlqPartition then beginning else 0) := by
        simp only [DlqResolver.step, eq_comm]
        split
        · rfl
        · exact (Nat.max_zero _).symm
      have within : (if other = invocation.selection.dlqPartition then beginning else 0) ≤
          invocation.selection.offset := by
        split
        next same => exact short same
        next => exact Nat.zero_le _
      refine ⟨found, unmoved, bound ▸ max_le retained within, ?_⟩
      refine eligible.imp_right fun nothing => ⟨nothing.1, ?_⟩
      rw [bound, ← nothing.2, max_eq_left within]

/-- **A whole run** while no other resolver acts. -/
theorem OnCourse.run (accepts : Accepts parse validateReplay invocation record)
    (course : OnCourse invocation record committed id state) {steps : List (ResolverStep Record)}
    (alone : ∀ step ∈ steps,
      Alone id invocation.selection.dlqPartition invocation.selection.offset step) :
    Advances invocation record committed id (state.callsLeft id - calls steps)
      (Foundation.run (DlqResolver.step parse validateReplay) state steps) := by
  induction steps generalizing state with
  | nil => exact ⟨course, le_rfl⟩
  | cons step steps ih =>
      obtain ⟨next, fewer⟩ := course.step accepts (alone step List.mem_cons_self)
      obtain ⟨last, left⟩ := ih next fun other member => alone other (List.mem_cons_of_mem _ member)
      refine ⟨last, left.trans ?_⟩
      have count : calls (step :: steps) = calls steps + calls [step] := by
        unfold calls
        rw [List.countP_cons, List.countP_cons, List.countP_nil, Nat.zero_add]
      omega

end Steps

/-- **When an eligible record can be resolved**: exactly if the group has committed an
offset. The record is reported as next, no other resolver acts, and the invocation, a
replay that is to be committed or a valid disposition, has all its calls answered. -/
theorem eligible_record_resolved_iff (parse : Record → String → Except ResolverError Envelope)
    (validateReplay : Envelope → String → Except String Unit)
    (state : DlqResolver Record Envelope) (id : ℕ) (invocation : Invocation) (record : Record)
    (idle : state.invocations id = none)
    (accepts : Accepts parse validateReplay invocation record)
    (found : (state.records invocation.selection.dlqPartition)[invocation.selection.offset]? =
      some record)
    (eligible : (state.report invocation.selection.dlqPartition invocation.selection.offset
      record).resolutionOrderEligible = true)
    (steps : List (ResolverStep Record))
    (alone : ∀ step ∈ steps,
      Alone id invocation.selection.dlqPartition invocation.selection.offset step)
    (enough : 9 ≤ calls steps) :
    (run (DlqResolver.step parse validateReplay) state (.start id invocation :: steps)).committed
        invocation.selection.dlqPartition = some (invocation.selection.offset + 1) ↔
      state.committed invocation.selection.dlqPartition ≠ none := by
  have ready : Ready invocation record (state.committed invocation.selection.dlqPartition) state := by
    rcases eligible_iff.mp eligible with ⟨known, retained⟩ | ⟨nothing, first⟩
    · exact ⟨found, rfl, retained, Or.inl known⟩
    · exact ⟨found, rfl, first.ge, Or.inr ⟨nothing, first⟩⟩
  have started : Advances invocation record (state.committed invocation.selection.dlqPartition) id 9
      (state.step parse validateReplay (.start id invocation)) := by
    have begins : state.step parse validateReplay (.start id invocation) =
        state.goOn id invocation .fetching := by
      simp only [DlqResolver.step, DlqResolver.start]
      rw [accepts.selector]
      simp only
      rw [if_neg (not_not_intro accepts.operationId), idle]
      rfl
    rw [begins]
    exact advances_goOn .fetching ready le_rfl (goOn_running _) rfl rfl rfl
  obtain ⟨last, left⟩ := started.1.run accepts alone
  rw [run_cons]
  have ended : (run (DlqResolver.step parse validateReplay)
      (state.step parse validateReplay (.start id invocation)) steps).invocations id = none := by
    have none_left := left.trans (Nat.sub_eq_zero_of_le (started.2.trans enough)).le
    unfold callsLeft at none_left
    cases running : (run (DlqResolver.step parse validateReplay)
      (state.step parse validateReplay (.start id invocation)) steps).invocations id with
    | none => rfl
    | some current =>
        rw [running] at none_left
        obtain ⟨_, stage⟩ := current
        cases stage <;> exact absurd none_left (by simp [ResolverStage.left])
  unfold OnCourse at last
  rw [ended] at last
  simp only at last
  rw [last]
  cases state.committed invocation.selection.dlqPartition with
  | none => simp
  | some before => simp

/-- A partition with one record, and what the group has committed. -/
def oneRecord (committed : Option ℕ) : DlqResolver String String :=
  idle (fun _ => ["record"]) (fun _ => 0) fun _ => committed

def parseRecord (record : String) (_ : String) : Except ResolverError String := .ok record

def validateAny (_ : String) (_ : String) : Except String Unit := .ok ()

theorem accepts_replayFirst : Accepts parseRecord validateAny replayFirst "record" where
  selector := rfl
  operationId := by decide
  commits := rfl
  confirm := by decide
  accepted := ⟨"record", rfl, Or.inl ⟨rfl, rfl⟩⟩

/-- All the calls of the invocation. -/
def nineCalls : List (ResolverStep String) := List.replicate 9 (.advance 0 .answered)

theorem alone_nineCalls (partition : DlqPartition) (offset : ℕ) :
    ∀ step ∈ nineCalls, Alone 0 partition offset step := by
  intro step member
  obtain rfl := List.eq_of_mem_replicate member
  exact Alone.call

theorem eligible_record_resolved_committed :
    (run (DlqResolver.step parseRecord validateAny) (oneRecord (some 0))
      (.start 0 replayFirst :: nineCalls)).committed ("imposbro_dlq", 0) = some 1 ↔
      (oneRecord (some 0)).committed ("imposbro_dlq", 0) ≠ none :=
  eligible_record_resolved_iff parseRecord validateAny (oneRecord (some 0)) 0 replayFirst "record"
    rfl accepts_replayFirst rfl rfl nineCalls (alone_nineCalls _ _) le_rfl

/-- The first record of a group that has committed nothing is eligible, is replayed, and
stays unresolved. -/
theorem uncommitted_record_unresolved :
    Accepts parseRecord validateAny replayFirst "record" ∧
      ((oneRecord none).report ("imposbro_dlq", 0) 0 "record").resolutionOrderEligible = true ∧
      (run (DlqResolver.step parseRecord validateAny) (oneRecord none)
        (.start 0 replayFirst :: nineCalls)).replays.length = 1 ∧
      (run (DlqResolver.step parseRecord validateAny) (oneRecord none)
        (.start 0 replayFirst :: nineCalls)).committed ("imposbro_dlq", 0) ≠ some 1 := by
  refine ⟨accepts_replayFirst, rfl, ?_, ?_⟩
  · decide +kernel
  · decide +kernel

end DlqResolver

end ImposbroSearch.Operations
