import NyxNet.Daemon.SessionManager

/-!
# Cleanup of expired sessions

A cleanup pass of `nyx-daemon/src/session_manager.rs` collects the ids of the
expired sessions first and removes them afterwards, without looking at the
sessions again.  Activity between the two does not save a session.
-/

namespace NyxNet.Sessions

open KeyedTable TaskPool

variable {config : SessionManagerConfig} {shards : Shards}

/-- The last activity lies longer than the timeout ago. -/
def Idle (config : SessionManagerConfig) (now last : SystemTime) : Prop :=
  last.asNanos + (Duration.fromSecs config.sessionTimeoutSecs).asNanos <
    now.asNanos

instance Idle.decidable (config : SessionManagerConfig)
    (now last : SystemTime) : Decidable (Idle config now last) :=
  inferInstanceAs (Decidable (_ < _))

theorem isExpired_iff {now : SystemTime} {session : Session} :
    isExpired config now session = true ↔
      Idle config now session.lastActivity := by
  unfold isExpired SystemTime.durationSince Idle
  split
  · next elapsed since =>
      split at since
      · next ordered =>
          rw [← Option.some.inj since, Duration.asNanos_ofNanos,
            decide_eq_true_iff]
          omega
      · cases since
  · next since =>
      split at since
      · cases since
      · next reversed =>
          simp only [Bool.false_eq_true, false_iff]
          omega

theorem Idle.mono {now later last : SystemTime} (idle : Idle config now last)
    (ordered : now.asNanos ≤ later.asNanos) : Idle config later last :=
  Int.lt_of_lt_of_le idle ordered

/-- The session on which a step records activity, with the time. -/
def activity : Action Request Input × Option Event →
    Option (ConnectionId × SystemTime)
  | (.run _ input, some (.inserted cid _)) => some (cid, input.now)
  | (.run _ input, some (.updated cid true)) => some (cid, input.now)
  | _ => none

/-- Activity on the session at that time. -/
def Touches (cid : ConnectionId) (time : SystemTime)
    (entry : Action Request Input × Option Event) : Prop :=
  activity entry = some (cid, time)

/-- Activity on the session that is not idle at the given time. -/
def Renews (config : SessionManagerConfig) (cid : ConnectionId)
    (now : SystemTime) (entry : Action Request Input × Option Event) : Prop :=
  ∃ last ∈ activity entry, last.1 = cid ∧ ¬ Idle config now last.2

instance Renews.decidable (config : SessionManagerConfig) (cid : ConnectionId)
    (now : SystemTime) : DecidablePred (Renews config cid now) := fun entry =>
  inferInstanceAs (Decidable (∃ last ∈ activity entry, _))

/-- The pass finds the session expired. -/
def Finds (index : Nat) (cid : ConnectionId) :
    Action Request Input × Option Event → Prop
  | (.run other _, some (.scanned found)) => other = index ∧ cid ∈ found
  | _ => False

instance Finds.decidable (index : Nat) (cid : ConnectionId) :
    DecidablePred (Finds index cid) := fun entry =>
  match entry with
  | (.run _ _, some event) =>
      match event with
      | .scanned _ => inferInstanceAs (Decidable (_ ∧ _))
      | .readShard _ | .checked _ | .drew _ _ | .inserted _ _
      | .lockedStatistics | .measured _ | .recorded | .removed _ _
      | .updated _ _ | .looked _ _ | .startedCleanup | .scanEnded
      | .expired _ _ _ _ | .cleanupEnded => isFalse id
  | (.run _ _, none) => isFalse id
  | (.call _, _) => isFalse id

theorem lastActivity_of_apply {update : Update} {now : SystemTime}
    {session changed : Session}
    (applied : update.apply now session = .ok changed) :
    changed.lastActivity = now ∧ changed.id = session.id := by
  cases update with
  | incrementStreamCount =>
      simp only [Update.apply] at applied
      split at applied
      · cases applied
      · rw [← Except.ok.inj applied]
        exact ⟨rfl, rfl⟩
  | _ =>
      rw [← Except.ok.inj applied]
      exact ⟨rfl, rfl⟩

/-- What a step leaves under an id was there before, or the step records
activity on it. -/
theorem lookup_of_moves {before after : SessionManager} {input : Input}
    {task rest : Task} {event : Event} {cid : ConnectionId} {session : Session}
    (moves : Moves config shards before input task event after rest)
    (found : after.sessions.lookup cid = some session) :
    before.sessions.lookup cid = some session ∨
      (∀ index, Touches cid session.lastActivity
        (.run index input, some event)) ∧
      (session.id = cid ∨ ∃ old, before.sessions.lookup cid = some old ∧
        session.id = old.id) := by
  cases moves with
  | inserted other =>
      by_cases same : cid = other
      · subst same
        rw [SessionManager.withSessions, AList.lookup_insert] at found
        obtain rfl := Option.some.inj found
        exact Or.inr ⟨fun _ => rfl, Or.inl rfl⟩
      · rw [SessionManager.withSessions, AList.lookup_insert_ne same] at found
        exact Or.inl found
  | updated other update old changed _ foundOld applied =>
      by_cases same : cid = other
      · subst same
        rw [SessionManager.withSessions, AList.lookup_insert] at found
        obtain rfl := Option.some.inj found
        obtain ⟨renewed, sameId⟩ := lastActivity_of_apply applied
        refine Or.inr ⟨fun _ => ?_, Or.inr ⟨old, foundOld, sameId⟩⟩
        rw [Touches, renewed]
        rfl
      · rw [SessionManager.withSessions, AList.lookup_insert_ne same] at found
        exact Or.inl found
  | removed other | expired _ _ other | vanished _ _ other =>
      by_cases same : cid = other
      · subst same
        rw [SessionManager.withSessions, AList.lookup_erase] at found
        cases found
      · rw [SessionManager.withSessions, AList.lookup_erase_ne same] at found
        exact Or.inl found
  | _ => exact Or.inl found

/-- Sessions are stored under their own id. -/
def StoredUnderId (manager : SessionManager) : Prop :=
  ∀ cid session, manager.sessions.lookup cid = some session → session.id = cid

theorem storedUnderId_of_moves {before after : SessionManager} {input : Input}
    {task rest : Task} {event : Event}
    (moves : Moves config shards before input task event after rest)
    (stored : StoredUnderId before) : StoredUnderId after := by
  intro cid session found
  rcases lookup_of_moves moves found with kept | renewed
  · exact stored cid session kept
  · rcases renewed.2 with own | changed
    · exact own
    · obtain ⟨old, foundOld, sameId⟩ := changed
      rw [sameId]
      exact stored cid old foundOld

/-- The ids that a shard gives belong to sessions that are expired. -/
theorem isExpired_of_mem_expiredIn {manager : SessionManager}
    {now : SystemTime} {shard : Nat} {cid : ConnectionId} {session : Session}
    (stored : StoredUnderId manager)
    (member : cid ∈ manager.expiredIn config shards now shard)
    (found : manager.sessions.lookup cid = some session) :
    isExpired config now session = true := by
  obtain ⟨⟨key, value⟩, filtered, sameId⟩ := List.mem_map.mp member
  obtain ⟨isEntry, passes⟩ := List.mem_filter.mp filtered
  have foundValue : manager.sessions.lookup key = some value :=
    AList.mem_lookup_iff.mpr isEntry
  have underKey := stored key value foundValue
  simp only at sameId
  rw [underKey] at sameId
  rw [← sameId, foundValue] at found
  obtain rfl := Option.some.inj found
  exact (of_decide_eq_true passes).2

/-- What is still stored of the sessions that a pass has listed was expired
when the pass started, unless there was activity since the pass found it. -/
def Listed (config : SessionManagerConfig) (past : Past Request Input Event)
    (manager : SessionManager) (index : Nat) (started : SystemTime)
    (expired : List ConnectionId) : Prop :=
  ∀ cid ∈ expired, ∀ session, manager.sessions.lookup cid = some session →
    Trace.Since (Touches cid session.lastActivity) (Finds index cid) past ∨
      Idle config started session.lastActivity

def PassKnows (config : SessionManagerConfig) (past : Past Request Input Event)
    (manager : SessionManager) (index : Nat) : Task → Prop
  | .scanning started _ expired =>
      Listed config past manager index started expired
  | .expiring started expired =>
      Listed config past manager index started expired
  | .recordingExpired started expired =>
      Listed config past manager index started expired
  | .countingExpired started expired =>
      Listed config past manager index started expired
  | _ => True

theorem Listed.step {past : Past Request Input Event}
    {before after : SessionManager} {index mover : Nat} {input : Input}
    {task rest : Task} {event : Event} {started : SystemTime}
    {expired : List ConnectionId}
    (listed : Listed config past before index started expired)
    (moves : Moves config shards before input task event after rest)
    (unfound : ∀ cid ∈ expired,
      ¬ Finds index cid (.run mover input, some event)) :
    Listed config (past ++ [(.run mover input, some event)]) after index
      started expired := by
  intro cid member session found
  rcases lookup_of_moves moves found with kept | renewed
  · rcases listed cid member session kept with touched | idle
    · exact Or.inl (Trace.since_concat_iff.mpr
        (Or.inr ⟨touched, unfound cid member⟩))
    · exact Or.inr idle
  · exact Or.inl (Trace.since_concat_iff.mpr (Or.inl (renewed.1 mover)))

theorem Listed.mono {past : Past Request Input Event}
    {manager : SessionManager} {index : Nat} {started : SystemTime}
    {expired shorter : List ConnectionId}
    (listed : Listed config past manager index started expired)
    (part : ∀ cid ∈ shorter, cid ∈ expired) :
    Listed config past manager index started shorter :=
  fun cid member => listed cid (part cid member)

theorem Listed.quiet {past : Past Request Input Event}
    {manager : SessionManager} {index : Nat} {started : SystemTime}
    {expired : List ConnectionId}
    (listed : Listed config past manager index started expired)
    (action : Action Request Input) :
    Listed config (past ++ [(action, none)]) manager index started expired := by
  intro cid member session found
  rcases listed cid member session found with touched | idle
  · refine Or.inl (Trace.since_concat_iff.mpr (Or.inr ⟨touched, ?_⟩))
    cases action <;> exact id
  · exact Or.inr idle

/-- When a pass removes a session, no activity since the pass found it is
within the timeout, and the clock was not set back since the pass started. -/
def Unrenewed (config : SessionManagerConfig)
    (past : Past Request Input Event) :
    Action Request Input → Option Event → Prop
  | .run index _, some (.expired cid (some _) started now) =>
      started.asNanos ≤ now.asNanos ∧
        ¬ Trace.Since (Renews config cid now) (Finds index cid) past
  | _, _ => True

/-- A session that a pass removes was idle. -/
def RemovedIdle (config : SessionManagerConfig) : Event → Prop
  | .expired _ (some session) _ now => Idle config now session.lastActivity
  | _ => True

theorem idle_of_unrenewed {past : Past Request Input Event}
    {manager : SessionManager} {index : Nat} {started now : SystemTime}
    {expired : List ConnectionId} {cid : ConnectionId} {session : Session}
    (listed : Listed config past manager index started expired)
    (member : cid ∈ expired)
    (found : manager.sessions.lookup cid = some session)
    (ordered : started.asNanos ≤ now.asNanos)
    (unrenewed : ¬ Trace.Since (Renews config cid now) (Finds index cid)
      past) :
    Idle config now session.lastActivity := by
  rcases listed cid member session found with touched | idle
  · obtain ⟨before, entry, after, split, touches, kept⟩ := touched
    by_contra recent
    exact unrenewed ⟨before, entry, after, split,
      ⟨(cid, session.lastActivity), touches, rfl, recent⟩, kept⟩
  · exact idle.mono ordered

/-- The step of the call itself. -/
theorem knows_turn {past : Past Request Input Event}
    {before after : SessionManager} {index : Nat} {input : Input}
    {task rest : Task} {event : Event}
    (allowed : Unrenewed config past (.run index input) (some event))
    (moves : Moves config shards before input task event after rest)
    (stored : StoredUnderId before)
    (knows : PassKnows config past before index task) :
    RemovedIdle config event ∧
      PassKnows config (past ++ [(.run index input, some event)]) after index
        rest := by
  have keeps : ∀ started expired,
      Listed config past before index started expired →
        (∀ cid, ¬ Finds index cid (.run index input, some event)) →
          Listed config (past ++ [(.run index input, some event)]) after index
            started expired := by
    intro started expired listed unfound
    exact listed.step moves (fun cid _ => unfound cid)
  cases moves with
  | startedCleanup =>
      refine ⟨trivial, ?_⟩
      intro cid member
      cases member
  | scanned started shard expired =>
      refine ⟨trivial, ?_⟩
      intro cid member session found
      by_cases again : cid ∈ before.expiredIn config shards started shard
      · exact Or.inr (isExpired_iff.mp
          (isExpired_of_mem_expiredIn stored again found))
      · have old := (List.mem_append.mp member).resolve_right again
        rcases knows cid old session found with touched | idle
        · refine Or.inl (Trace.since_concat_iff.mpr (Or.inr ⟨touched, ?_⟩))
          intro finds
          exact again finds.2
        · exact Or.inr idle
  | scanEnded started shard expired | lockedExpired started expired
  | measuredExpired started expired | recordedExpired started expired =>
      exact ⟨trivial, keeps started expired knows (fun _ => id)⟩
  | expired started expired cid chosen _ session found =>
      refine ⟨idle_of_unrenewed knows (List.mem_of_getElem? chosen) found
        allowed.1 allowed.2, ?_⟩
      exact keeps started _ (knows.mono (fun _ => List.mem_of_mem_eraseIdx))
        (fun _ => id)
  | vanished started expired cid chosen absent =>
      refine ⟨trivial, ?_⟩
      exact keeps started _ (knows.mono (fun _ => List.mem_of_mem_eraseIdx))
        (fun _ => id)
  | _ => exact ⟨trivial, trivial⟩

/-- The steps of other calls. -/
theorem knows_bystander {past : Past Request Input Event}
    {before after : SessionManager} {index mover : Nat} {input : Input}
    {task rest bystander : Task} {event : Event}
    (moves : Moves config shards before input task event after rest)
    (different : index ≠ mover)
    (knows : PassKnows config past before index bystander) :
    PassKnows config (past ++ [(.run mover input, some event)]) after index
      bystander := by
  have unfound : ∀ cid, ¬ Finds index cid (.run mover input, some event) := by
    intro cid finds
    cases event with
    | scanned found => exact different finds.1.symm
    | _ => exact finds
  cases bystander with
  | scanning | expiring | recordingExpired | countingExpired =>
      exact Listed.step knows moves (fun cid _ => unfound cid)
  | _ => trivial

/-- A session that a cleanup pass removes had no activity within the timeout. -/
theorem removed_sessions_idle (config : SessionManagerConfig) (shards : Shards)
    (actions : List (Action Request Input))
    (along : Trace.AlongPast (perform (program config shards))
      (Allowed (program config shards) (Unrenewed config)) [] start actions) :
    ∀ cid session started now,
      .expired cid (some session) started now ∈
          events (Trace.history (perform (program config shards)) start
            actions) →
        Idle config now session.lastActivity := by
  have run := every_task_along (Unrenewed config)
    (fun past manager => StoredUnderId manager ∧
      ∀ event ∈ events past, RemovedIdle config event)
    (PassKnows config) ⟨?_, ?_⟩ rfl ?_ ?_ ?_ ?_ ?_ actions along
  · intro cid session started now member
    exact run.1.2 _ member
  · intro cid session found
    cases found
  · intro event member
    cases member
  · intro past manager action common
    rw [events_append_none]
    refine ⟨common, ?_⟩
    intro index task knows
    cases task with
    | scanning | expiring | recordingExpired | countingExpired =>
        exact Listed.quiet knows action
    | _ => trivial
  · intro past manager request index _ _ _
    cases request <;> exact trivial
  · intro past manager index input task turned allowed taken common knows
    have moves := (turn_moves taken).1
    obtain ⟨idle, knowsAfter⟩ := knows_turn allowed moves common.1 knows
    refine ⟨⟨storedUnderId_of_moves moves common.1, ?_⟩, knowsAfter⟩
    intro event member
    rw [events_append_some] at member
    rcases List.mem_append.mp member with old | last
    · exact common.2 event old
    · rw [List.mem_singleton.mp last]
      exact idle
  · intro past manager index input task turned fresh child _ taken _ _ isChild
    rw [(turn_moves taken).2] at isChild
    cases isChild
  · intro past manager index input task turned other bystander _ taken _ _
      different knows
    exact knows_bystander (turn_moves taken).1 different knows

instance Unrenewed.decidable (config : SessionManagerConfig)
    (past : Past Request Input Event) (action : Action Request Input)
    (event : Option Event) : Decidable (Unrenewed config past action event) :=
  match action, event with
  | .run index _, some (.expired cid (some _) started now) =>
      have : Decidable
          (Trace.Since (Renews config cid now) (Finds index cid) past) :=
        Trace.Since.decidable _ _ past
      inferInstanceAs (Decidable (started.asNanos ≤ now.asNanos ∧
        ¬ Trace.Since (Renews config cid now) (Finds index cid) past))
  | .run _ _, some (.expired _ none _ _) => isTrue trivial
  | .run _ _, some (.readShard _) | .run _ _, some (.checked _)
  | .run _ _, some (.drew _ _) | .run _ _, some (.inserted _ _)
  | .run _ _, some .lockedStatistics | .run _ _, some (.measured _)
  | .run _ _, some .recorded | .run _ _, some (.removed _ _)
  | .run _ _, some (.updated _ _) | .run _ _, some (.looked _ _)
  | .run _ _, some .startedCleanup | .run _ _, some (.scanned _)
  | .run _ _, some .scanEnded | .run _ _, some .cleanupEnded =>
      isTrue trivial
  | .run _ _, none => isTrue trivial
  | .call _, _ => isTrue trivial

/-- Five minutes and a second after `creationTime`. -/
def passTime : SystemTime := SystemTime.ofUnixSecs 1700000601 (by decide)

/-- A step of a call at the time of the cleanup pass. -/
def passing (index : Nat) : Action Request Input :=
  .run index ⟨passTime, firstCid, 0⟩

/-- A session is created, and a pass collects it. -/
def collected : List (Action Request Input) :=
  creating 0 firstCid ++
    [.call .cleanupExpiredSessions, passing 1, passing 1, passing 1]

theorem removed_sessions_idle_sample :
    Trace.AlongPast (perform (program sampleConfig .single))
        (Allowed (program sampleConfig .single) (Unrenewed sampleConfig)) []
        start (collected ++ [passing 1]) ∧
      .expired firstCid (some (newSession firstCid creationTime)) passTime
          passTime ∈
        events (Trace.history (perform (program sampleConfig .single)) start
          (collected ++ [passing 1])) ∧
      Idle sampleConfig passTime creationTime := by
  have along : Trace.AlongPast (perform (program sampleConfig .single))
      (Allowed (program sampleConfig .single) (Unrenewed sampleConfig)) []
      start (collected ++ [passing 1]) := by
    decide +kernel
  have member : .expired firstCid (some (newSession firstCid creationTime))
        passTime passTime ∈
      events (Trace.history (perform (program sampleConfig .single)) start
        (collected ++ [passing 1])) := by
    decide +kernel
  exact ⟨along, member, removed_sessions_idle sampleConfig .single _ along _
    (newSession firstCid creationTime) _ _ member⟩

/-- The session is used between the scan and its removal. -/
def usedInPass : List (Action Request Input) :=
  collected ++ [.call (.update firstCid .activity), passing 2, passing 1]

theorem active_session_removed :
    .expired firstCid (some (newSession firstCid passTime)) passTime passTime ∈
        events (Trace.history (perform (program sampleConfig .single)) start
          usedInPass) ∧
      (newSession firstCid passTime).lastActivity = passTime ∧
      ¬ Idle sampleConfig passTime passTime := by
  refine ⟨?_, rfl, ?_⟩
  · decide +kernel
  · decide +kernel

end NyxNet.Sessions
