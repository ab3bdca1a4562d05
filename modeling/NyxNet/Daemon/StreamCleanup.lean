import NyxNet.Daemon.StreamManager

/-!
# Cleanup of streams

`cleanup_loop` of `nyx-daemon/src/stream_manager.rs`.  Nothing writes to a session
once it is stored, not even its last activity, so a turn of the loop closes every
stream that has been open for longer than its timeout.
-/

namespace NyxNet.Streams

open KeyedTable TaskPool

variable {config : StreamManagerConfig} {shards : Shards}

/-- The session is as `open_stream` has built it. -/
def AsOpened (config : StreamManagerConfig) (streamId : UInt32)
    (session : StreamSession) : Prop :=
  ∃ request target input,
    SocketAddr.fromStr request.targetAddress = some target ∧
      session = newSession config request target streamId input

/-- The stream has been open for longer than its timeout. -/
def Overdue (now : SystemTime) (session : StreamSession) : Prop :=
  session.createdAt.asNanos +
      (Duration.fromMillis session.options.timeoutMs.toUInt64).asNanos <
    now.asNanos

theorem isExpired_iff {now : SystemTime} {streamId : UInt32}
    {session : StreamSession} (asOpened : AsOpened config streamId session) :
    isExpired now session = true ↔ Overdue now session := by
  obtain ⟨request, target, input, valid, rfl⟩ := asOpened
  unfold isExpired SystemTime.durationSince Overdue newSession
  dsimp only
  rw [decide_eq_true_iff]
  split
  · next ordered =>
      rw [Option.getD_some, Duration.asNanos_ofNanos]
      omega
  · next reversed =>
      have zero : Duration.zero.asNanos = 0 := rfl
      rw [Option.getD_none, zero]
      omega

/-- What a step leaves under a number was there before, or is inserted by it. -/
theorem lookup_of_moves {before after : StreamManager} {input : Input}
    {task rest : Task} {event : Event} {streamId : UInt32}
    {session : StreamSession}
    (moves : Moves config shards before input task event after rest)
    (found : after.streams.lookup streamId = some session) :
    before.streams.lookup streamId = some session ∨
      session.streamId = streamId ∧ (∃ targetAddress,
        task = .inserting targetAddress session) ∧
          ∃ replaced, event = .inserted session replaced := by
  cases moves with
  | inserted targetAddress other =>
      by_cases same : streamId = other.streamId
      · subst same
        rw [StreamManager.withStreams, AList.lookup_insert] at found
        obtain rfl := Option.some.inj found
        exact Or.inr ⟨rfl, ⟨targetAddress, rfl⟩, ⟨_, rfl⟩⟩
      · rw [StreamManager.withStreams, AList.lookup_insert_ne same] at found
        exact Or.inl found
  | removed other | missed other | expired _ _ other | vanished _ _ other =>
      by_cases same : streamId = other
      · subst same
        rw [StreamManager.withStreams, AList.lookup_erase] at found
        cases found
      · rw [StreamManager.withStreams, AList.lookup_erase_ne same] at found
        exact Or.inl found
  | _ => exact Or.inl found

/-- The session was inserted after the call had begun its turn. -/
def InsertedSince (past : Past Request Input Event) (index : Nat)
    (session : StreamSession) : Prop :=
  ∃ began started position other replaced,
    Did past began index (.startedCleanup started) ∧ began < position ∧
      Did past position other (.inserted session replaced)

/-- What a turn has collected so far: streams that were overdue when it began, and
all of them in the shards that it has seen. -/
structure Listed (config : StreamManagerConfig) (shards : Shards)
    (past : Past Request Input Event) (manager : StreamManager) (index : Nat)
    (started : SystemTime) (seen : Nat) (expired : List UInt32) : Prop where
  began : ∃ position, Did past position index (.startedCleanup started)
  overdue : ∀ streamId ∈ expired, ∀ session,
    manager.streams.lookup streamId = some session →
      Overdue started session ∨ InsertedSince past index session
  complete : ∀ streamId session,
    manager.streams.lookup streamId = some session →
      (shards.shardOf streamId).val < seen → Overdue started session →
        streamId ∈ expired ∨ InsertedSince past index session

def TurnKnows (config : StreamManagerConfig) (shards : Shards)
    (past : Past Request Input Event) (manager : StreamManager)
    (index : Nat) : Task → Prop
  | .inserting _ session => AsOpened config session.streamId session
  | .scanning started seen expired =>
      Listed config shards past manager index started seen expired
  | .expiring started expired =>
      Listed config shards past manager index started shards.count expired
  | .uncountingExpired started expired =>
      Listed config shards past manager index started shards.count expired
  | _ => True

theorem InsertedSince.append {past : Past Request Input Event} {index : Nat}
    {session : StreamSession} (since : InsertedSince past index session)
    (later : Past Request Input Event) :
    InsertedSince (past ++ later) index session := by
  obtain ⟨began, started, position, other, replaced, start, after, inserted⟩ :=
    since
  exact ⟨began, started, position, other, replaced, start.append _, after,
    inserted.append _⟩

theorem Listed.quiet {past : Past Request Input Event}
    {manager : StreamManager} {index : Nat} {started : SystemTime}
    {seen : Nat} {expired : List UInt32}
    (listed : Listed config shards past manager index started seen expired)
    (later : Past Request Input Event) :
    Listed config shards (past ++ later) manager index started seen expired := by
  obtain ⟨⟨position, began⟩, overdue, complete⟩ := listed
  refine ⟨⟨position, began.append _⟩, ?_, ?_⟩
  · intro streamId member session found
    exact (overdue streamId member session found).imp_right fun since =>
      since.append _
  · intro streamId session found inSeen late
    exact (complete streamId session found inSeen late).imp_right fun since =>
      since.append _

/-- What another step leaves of the streams. -/
theorem Listed.step {past : Past Request Input Event}
    {before after : StreamManager} {index mover : Nat} {input : Input}
    {task rest : Task} {event : Event} {started : SystemTime} {seen : Nat}
    {expired : List UInt32}
    (listed : Listed config shards past before index started seen expired)
    (moves : Moves config shards before input task event after rest) :
    Listed config shards (past ++ [(.run mover input, some event)]) after index
      started seen expired := by
  obtain ⟨⟨position, began⟩, overdue, complete⟩ := listed
  have inserted : ∀ streamId session,
      after.streams.lookup streamId = some session →
        before.streams.lookup streamId = some session ∨
          InsertedSince (past ++ [(.run mover input, some event)]) index
            session := by
    intro streamId session found
    rcases lookup_of_moves moves found with old | ⟨_, _, replaced, same⟩
    · exact Or.inl old
    · have last := did_last past mover input event
      rw [same] at last ⊢
      exact Or.inr ⟨position, started, past.length, mover, replaced,
        began.append _, began.lt, last⟩
  refine ⟨⟨position, began.append _⟩, ?_, ?_⟩
  · intro streamId member session found
    rcases inserted streamId session found with old | new
    · exact (overdue streamId member session old).imp_right fun since =>
        since.append _
    · exact Or.inr new
  · intro streamId session found inSeen late
    rcases inserted streamId session found with old | new
    · exact (complete streamId session old inSeen late).imp_right fun since =>
        since.append _
    · exact Or.inr new

/-- Every stored session is as it was opened. -/
def Stored (config : StreamManagerConfig) (manager : StreamManager) : Prop :=
  ∀ streamId session, manager.streams.lookup streamId = some session →
    AsOpened config streamId session

theorem stored_of_moves {before after : StreamManager} {input : Input}
    {task rest : Task} {event : Event} {past : Past Request Input Event}
    {index : Nat} (stored : Stored config before)
    (knows : TurnKnows config shards past before index task)
    (moves : Moves config shards before input task event after rest) :
    Stored config after := by
  intro streamId session found
  rcases lookup_of_moves moves found with old | ⟨same, ⟨_, isTask⟩, _⟩
  · exact stored streamId session old
  · rw [isTask] at knows
    rw [← same]
    exact knows

/-- What a shard gives to the turn. -/
theorem mem_expiredIn {manager : StreamManager} {started : SystemTime}
    {shard : Nat} {streamId : UInt32} (stored : Stored config manager) :
    streamId ∈ manager.expiredIn shards started shard ↔
      (shards.shardOf streamId).val = shard ∧ ∃ session,
        manager.streams.lookup streamId = some session ∧
          Overdue started session := by
  constructor
  · intro member
    obtain ⟨⟨key, session⟩, filtered, same⟩ := List.mem_map.mp member
    obtain ⟨isEntry, passes⟩ := List.mem_filter.mp filtered
    have found : manager.streams.lookup key = some session :=
      AList.mem_lookup_iff.mpr isEntry
    have asOpened := stored key session found
    have own : session.streamId = key := by
      obtain ⟨_, _, _, _, rfl⟩ := asOpened
      rfl
    obtain ⟨here, late⟩ := of_decide_eq_true passes
    dsimp only at same here late
    rw [own] at same
    subst same
    exact ⟨here, session, found, (isExpired_iff asOpened).mp late⟩
  · rintro ⟨here, session, found, late⟩
    have asOpened := stored streamId session found
    have own : session.streamId = streamId := by
      obtain ⟨_, _, _, _, rfl⟩ := asOpened
      rfl
    refine List.mem_map.mpr ⟨⟨streamId, session⟩, ?_, own⟩
    refine List.mem_filter.mpr ⟨AList.mem_lookup_iff.mp found, ?_⟩
    exact decide_eq_true ⟨here, (isExpired_iff asOpened).mpr late⟩

theorem Listed.scanned {past : Past Request Input Event}
    {manager : StreamManager} {index : Nat} {started : SystemTime}
    {shard : Nat} {expired : List UInt32} (stored : Stored config manager)
    (listed : Listed config shards past manager index started shard expired) :
    Listed config shards past manager index started (shard + 1)
      (expired ++ manager.expiredIn shards started shard) := by
  refine ⟨listed.began, ?_, ?_⟩
  · intro streamId member session found
    rcases List.mem_append.mp member with earlier | here
    · exact listed.overdue streamId earlier session found
    · obtain ⟨_, other, foundOther, late⟩ := (mem_expiredIn stored).mp here
      rw [found] at foundOther
      cases foundOther
      exact Or.inl late
  · intro streamId session found inSeen late
    rcases Nat.lt_succ_iff_lt_or_eq.mp inSeen with earlier | here
    · exact (listed.complete streamId session found earlier late).imp_left
        (List.mem_append_left _)
    · exact Or.inl (List.mem_append_right _
        ((mem_expiredIn stored).mpr ⟨here, session, found, late⟩))

/-- The stream that the turn has just removed leaves the list. -/
theorem Listed.taken {past : Past Request Input Event}
    {manager : StreamManager} {index : Nat} {started : SystemTime}
    {seen position : Nat} {expired : List UInt32} {streamId : UInt32}
    (listed : Listed config shards past manager index started seen expired)
    (chosen : expired[position]? = some streamId)
    (gone : manager.streams.lookup streamId = none) :
    Listed config shards past manager index started seen
      (expired.eraseIdx position) := by
  refine ⟨listed.began, ?_, ?_⟩
  · intro other member
    exact listed.overdue other (List.mem_of_mem_eraseIdx member)
  · intro other session found inSeen late
    refine (listed.complete other session found inSeen late).imp_left ?_
    intro member
    obtain ⟨place, there⟩ := List.getElem?_of_mem member
    refine List.mem_eraseIdx_iff_getElem?.mpr ⟨place, ?_, there⟩
    intro same
    rw [same, chosen] at there
    cases there
    rw [gone] at found
    cases found

/-- The step of the call itself. -/
theorem knows_turn {past : Past Request Input Event}
    {before after : StreamManager} {index : Nat} {input : Input}
    {task rest : Task} {event : Event}
    (moves : Moves config shards before input task event after rest)
    (stored : Stored config before)
    (knows : TurnKnows config shards past before index task) :
    TurnKnows config shards (past ++ [(.run index input, some event)]) after
      index rest := by
  cases moves with
  | numbered request target valid =>
      exact ⟨request, target, input, valid, rfl⟩
  | startedCleanup =>
      refine ⟨⟨past.length, did_last past index input _⟩, ?_, ?_⟩
      · intro streamId member
        cases member
      · intro streamId session found inSeen
        exact absurd inSeen (Nat.not_lt_zero _)
  | scanned started shard expired among =>
      exact (knows.scanned stored).quiet _
  | scanEnded started shard expired all =>
      have kept := knows.quiet
        [(.run index input, some Event.scanEnded)]
      refine ⟨kept.began, kept.overdue, ?_⟩
      intro streamId session found inSeen
      exact kept.complete streamId session found (Nat.lt_of_lt_of_le inSeen all)
  | expired started expired streamId chosen session found =>
      exact (knows.step (.expired started expired streamId chosen session
        found)).taken chosen (AList.lookup_erase _ _)
  | vanished started expired streamId chosen absent =>
      exact (knows.step (.vanished started expired streamId chosen
        absent)).taken chosen (AList.lookup_erase _ _)
  | uncountedExpired started expired =>
      exact knows.step (.uncountedExpired started expired)
  | _ => trivial

theorem knows_bystander {past : Past Request Input Event}
    {before after : StreamManager} {index mover : Nat} {input : Input}
    {task rest bystander : Task} {event : Event}
    (moves : Moves config shards before input task event after rest)
    (knows : TurnKnows config shards past before index bystander) :
    TurnKnows config shards (past ++ [(.run mover input, some event)]) after
      index bystander := by
  cases bystander with
  | inserting targetAddress session => exact knows
  | scanning started seen expired => exact knows.step moves
  | expiring started expired => exact knows.step moves
  | uncountingExpired started expired => exact knows.step moves
  | _ => trivial

theorem knows_quiet {past : Past Request Input Event}
    {manager : StreamManager} {index : Nat} {task : Task}
    (knows : TurnKnows config shards past manager index task)
    (later : Past Request Input Event) :
    TurnKnows config shards (past ++ later) manager index task := by
  cases task with
  | inserting targetAddress session => exact knows
  | scanning started seen expired => exact knows.quiet later
  | expiring started expired => exact knows.quiet later
  | uncountingExpired started expired => exact knows.quiet later
  | _ => trivial

/-- Over whole runs. -/
theorem knows_run (config : StreamManagerConfig) (shards : Shards)
    (actions : List (Action Request Input)) :
    Stored config (finalPool config shards actions).shared ∧
      ∀ index task,
        (finalPool config shards actions).tasks[index]? = some task →
          TurnKnows config shards
            (Trace.history (perform (program config shards)) start actions)
            (finalPool config shards actions).shared index task := by
  refine every_task (fun _ => True) (fun _ => Stored config)
    (TurnKnows config shards) ?_ rfl ?_ ?_ ?_ ?_ ?_ actions
    (fun _ _ => trivial)
  · intro streamId session found
    cases found
  · intro past shared action stored
    exact ⟨stored, fun index task knows => knows_quiet knows _⟩
  · intro past shared request index _ _ _
    cases request <;> trivial
  · intro past shared index input task turned _ taken stored knows
    have moves := (turn_moves taken).1
    exact ⟨stored_of_moves stored knows moves, knows_turn moves stored knows⟩
  · intro past shared index input task turned fresh child _ taken _ _ isChild
    rw [(turn_moves taken).2] at isChild
    cases isChild
  · intro past shared index input task turned other bystander _ taken _ _ _
      knows
    exact knows_bystander (turn_moves taken).1 knows

/-- Every stored session is as it was opened.  A turn of the cleanup loop closes a
stream only if it was overdue when the turn began, and leaves no stream that was; the
streams that were inserted during the turn are the exception to both. -/
theorem cleanup_exact (config : StreamManagerConfig) (shards : Shards)
    (actions : List (Action Request Input)) :
    Stored config (finalPool config shards actions).shared ∧
    (∀ index input streamId session started,
      (perform (program config shards) (finalPool config shards actions)
        (.run index input)).1 =
          some (.expired streamId (some session) started) →
        Overdue started session ∨ InsertedSince
          (Trace.history (perform (program config shards)) start actions) index
          session) ∧
    (∀ index input started,
      (perform (program config shards) (finalPool config shards actions)
        (.run index input)).1 = some (.cleanupEnded started) →
        ∀ streamId session,
          (finalPool config shards actions).shared.streams.lookup streamId =
              some session →
            Overdue started session → InsertedSince
              (Trace.history (perform (program config shards)) start actions)
              index session) := by
  obtain ⟨stored, knows⟩ := knows_run config shards actions
  refine ⟨stored, ?_, ?_⟩
  · intro index input streamId session started performed
    obtain ⟨task, turned, present, _, _, moves⟩ := moves_of_performed performed
    have known := knows index task present
    obtain ⟨event, shared, rest, spawned⟩ := turned
    dsimp only at moves
    cases moves with
    | expired _ expired _ chosen _ found =>
        exact known.overdue streamId (List.mem_of_getElem? chosen) session found
  · intro index input started performed streamId session found late
    obtain ⟨task, turned, present, _, _, moves⟩ := moves_of_performed performed
    have known := knows index task present
    obtain ⟨event, shared, rest, spawned⟩ := turned
    dsimp only at moves
    cases moves with
    | cleanupEnded =>
        rcases known.complete streamId session found
          (shards.shardOf streamId).isLt late with nothing | since
        · cases nothing
        · exact since

end NyxNet.Streams
