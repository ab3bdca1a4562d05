import NyxNet.Daemon.StreamManager
import Mathlib.Order.Bounds.Defs
import Mathlib.Data.List.Nodup

/-!
# The numbers of streams

`next_stream_id` of `nyx-daemon/src/stream_manager.rs` wraps after 2^32 numbers,
and `open_stream` inserts without a look at what is stored under its number.
-/

namespace NyxNet.Streams

open KeyedTable TaskPool

variable {config : StreamManagerConfig} {shards : Shards}

namespace Event

/-- The number that the step draws. -/
def drawn : Event → Option UInt32
  | .numbered streamId _ => some streamId
  | _ => none

end Event

/-- The numbers that were drawn, the first one first. -/
def numbers (past : Past Request Input Event) : List UInt32 :=
  (events past).filterMap Event.drawn

/-- The numbers were drawn one after the other. -/
structure Counted (past : Past Request Input Event) (manager : StreamManager) :
    Prop where
  sequence : numbers past =
    (List.range (numbers past).length).map fun count => UInt32.ofNat (count + 1)
  next : manager.nextStreamId = UInt32.ofNat ((numbers past).length + 1)

theorem numbers_append_none (past : Past Request Input Event)
    (action : Action Request Input) :
    numbers (past ++ [(action, none)]) = numbers past := by
  rw [numbers, events_append_none, numbers]

theorem numbers_append (early late : Past Request Input Event) :
    numbers (early ++ late) = numbers early ++ numbers late := by
  rw [numbers, numbers, numbers, events, events, events,
    ← List.filterMap_append, ← List.filterMap_append]

theorem numbers_append_some (past : Past Request Input Event)
    (action : Action Request Input) (event : Event) :
    numbers (past ++ [(action, some event)]) =
      numbers past ++ event.drawn.toList := by
  rw [numbers, events_append_some, List.filterMap_append, numbers]
  cases drawn : event.drawn with
  | none => simp [drawn]
  | some streamId => simp [drawn]

theorem Counted.draw {past : Past Request Input Event}
    {manager : StreamManager} (counted : Counted past manager)
    (action : Action Request Input) (valid : Bool) :
    Counted (past ++ [(action, some (.numbered manager.nextStreamId valid))])
      manager.drawNumber := by
  have longer := numbers_append_some past action
    (.numbered manager.nextStreamId valid)
  rw [Event.drawn, Option.toList_some] at longer
  refine ⟨?_, ?_⟩
  · rw [longer, List.length_append, List.length_singleton, List.range_succ,
      List.map_append, ← counted.sequence, counted.next]
    rfl
  · rw [longer, List.length_append, List.length_singleton]
    exact (congrArg (· + 1) counted.next).trans (UInt32.ofNat_add _ 1).symm

theorem Counted.keep {past : Past Request Input Event}
    {before after : StreamManager} (counted : Counted past before)
    (action : Action Request Input) {event : Event}
    (nothing : event.drawn = none)
    (same : after.nextStreamId = before.nextStreamId) :
    Counted (past ++ [(action, some event)]) after := by
  have kept := numbers_append_some past action event
  rw [nothing, Option.toList_none, List.append_nil] at kept
  refine ⟨?_, ?_⟩
  · rw [kept]
    exact counted.sequence
  · rw [kept, same]
    exact counted.next

theorem counted_of_moves {before after : StreamManager} {input : Input}
    {task rest : Task} {event : Event} {past : Past Request Input Event}
    {index : Nat} (counted : Counted past before)
    (moves : Moves config shards before input task event after rest) :
    Counted (past ++ [(.run index input, some event)]) after := by
  cases moves with
  | misdirected | numbered => exact counted.draw _ _
  | _ => exact counted.keep _ rfl rfl

/-- The first 2^32 numbers are all different. -/
theorem Counted.nodup {past : Past Request Input Event}
    {manager : StreamManager} (counted : Counted past manager)
    (few : (numbers past).length ≤ 4294967296) : (numbers past).Nodup := by
  rw [counted.sequence]
  refine List.Nodup.map_on ?_ List.nodup_range
  intro first firstIn second secondIn same
  have firstSmall := List.mem_range.mp firstIn
  have secondSmall := List.mem_range.mp secondIn
  rw [← UInt32.toNat_inj, UInt32.toNat_ofNat', UInt32.toNat_ofNat'] at same
  omega

theorem mem_numbers {past : Past Request Input Event} {position index : Nat}
    {streamId : UInt32} {valid : Bool}
    (did : Did past position index (.numbered streamId valid)) :
    streamId ∈ numbers past := by
  obtain ⟨input, entry⟩ := did
  refine List.mem_filterMap.mpr ⟨.numbered streamId valid, ?_, rfl⟩
  exact List.mem_filterMap.mpr ⟨_, List.mem_of_getElem? entry, rfl⟩

theorem position_lt_false {past : Past Request Input Event}
    (nodup : (numbers past).Nodup) {first second firstIndex secondIndex : Nat}
    {streamId : UInt32} {valid alsoValid : Bool} (earlier : first < second)
    (firstDid : Did past first firstIndex (.numbered streamId valid))
    (secondDid : Did past second secondIndex (.numbered streamId alsoValid)) :
    False := by
  obtain ⟨firstInput, firstEntry⟩ := firstDid
  obtain ⟨secondInput, secondEntry⟩ := secondDid
  rw [← List.take_append_drop second past, numbers_append] at nodup
  have before : Did (past.take second) first firstIndex
      (.numbered streamId valid) := by
    refine ⟨firstInput, ?_⟩
    rw [List.getElem?_take_of_lt earlier]
    exact firstEntry
  have behind : Did (past.drop second) 0 secondIndex
      (.numbered streamId alsoValid) := by
    refine ⟨secondInput, ?_⟩
    rw [List.getElem?_drop]
    exact secondEntry
  exact List.disjoint_of_nodup_append nodup (mem_numbers before)
    (mem_numbers behind)

/-- A number is drawn once. -/
theorem drawer_unique {past : Past Request Input Event}
    (nodup : (numbers past).Nodup) {first second firstIndex secondIndex : Nat}
    {streamId : UInt32} {valid alsoValid : Bool}
    (firstDid : Did past first firstIndex (.numbered streamId valid))
    (secondDid : Did past second secondIndex (.numbered streamId alsoValid)) :
    firstIndex = secondIndex := by
  rcases Nat.lt_trichotomy first second with earlier | same | later
  · exact (position_lt_false nodup earlier firstDid secondDid).elim
  · subst same
    obtain ⟨firstInput, firstEntry⟩ := firstDid
    obtain ⟨secondInput, secondEntry⟩ := secondDid
    rw [firstEntry] at secondEntry
    cases secondEntry
    rfl
  · exact (position_lt_false nodup later secondDid firstDid).elim

def HasNotInserted (past : Past Request Input Event) (index : Nat) : Prop :=
  ∀ position session replaced,
    ¬ Did past position index (.inserted session replaced)

def NumberKnows (past : Past Request Input Event) (index : Nat) : Task → Prop
  | .checking _ _ _ => HasNotInserted past index
  | .numbering _ => HasNotInserted past index
  | .inserting _ session =>
      HasNotInserted past index ∧
        ∃ position, Did past position index (.numbered session.streamId true)
  | _ => True

/-- Who has inserted a session has drawn its number, the stored sessions were
inserted, and none was replaced while the numbers were different. -/
structure Numbered (past : Past Request Input Event)
    (manager : StreamManager) : Prop where
  counted : Counted past manager
  inserted : ∀ position index session replaced,
    Did past position index (.inserted session replaced) →
      ∃ earlier, Did past earlier index (.numbered session.streamId true)
  stored : ∀ streamId ∈ manager.streams, ∃ position index session replaced,
    Did past position index (.inserted session replaced) ∧
      session.streamId = streamId
  fresh : (numbers past).length ≤ 4294967296 →
    ∀ position index session,
      ¬ Did past position index (.inserted session true)

theorem length_numbers_le (past : Past Request Input Event)
    (entry : Action Request Input × Option Event) :
    (numbers past).length ≤ (numbers (past ++ [entry])).length := by
  obtain ⟨action, event⟩ := entry
  cases event with
  | none => rw [numbers_append_none]
  | some event =>
      rw [numbers_append_some, List.length_append]
      exact Nat.le_add_right _ _

theorem Numbered.quiet {past : Past Request Input Event}
    {manager : StreamManager} (numbered : Numbered past manager)
    (action : Action Request Input) :
    Numbered (past ++ [(action, none)]) manager := by
  obtain ⟨counted, inserted, stored, fresh⟩ := numbered
  refine ⟨⟨?_, ?_⟩, ?_, ?_, ?_⟩
  · rw [numbers_append_none]
    exact counted.sequence
  · rw [numbers_append_none]
    exact counted.next
  · intro position index session replaced did
    obtain ⟨earlier, drew⟩ :=
      inserted position index session replaced (did_append_none did)
    exact ⟨earlier, drew.append _⟩
  · intro streamId member
    obtain ⟨position, index, session, replaced, did, same⟩ :=
      stored streamId member
    exact ⟨position, index, session, replaced, did.append _, same⟩
  · intro few position index session did
    rw [numbers_append_none] at few
    exact fresh few position index session (did_append_none did)

/-- A step that inserts nothing. -/
theorem Numbered.keep {past : Past Request Input Event}
    {before after : StreamManager} {index : Nat} {input : Input}
    {event : Event} (numbered : Numbered past before)
    (counted : Counted (past ++ [(.run index input, some event)]) after)
    (keeps : ∀ session replaced, event ≠ .inserted session replaced)
    (fewer : ∀ streamId ∈ after.streams, streamId ∈ before.streams) :
    Numbered (past ++ [(.run index input, some event)]) after := by
  refine ⟨counted, ?_, ?_, ?_⟩
  · intro position other session replaced did
    rcases did_append_run did with old | ⟨_, _, same⟩
    · obtain ⟨earlier, drew⟩ :=
        numbered.inserted position other session replaced old
      exact ⟨earlier, drew.append _⟩
    · exact absurd same.symm (keeps session replaced)
  · intro streamId member
    obtain ⟨position, other, session, replaced, did, same⟩ :=
      numbered.stored streamId (fewer streamId member)
    exact ⟨position, other, session, replaced, did.append _, same⟩
  · intro few position other session did
    rcases did_append_run did with old | ⟨_, _, same⟩
    · exact numbered.fresh ((length_numbers_le past _).trans few) position other
        session old
    · exact absurd same.symm (keeps session true)

/-- An insertion under a number that the call has drawn. -/
theorem Numbered.insert {past : Past Request Input Event}
    {before : StreamManager} {index : Nat} {input : Input}
    {session : StreamSession} (numbered : Numbered past before)
    (hasNot : HasNotInserted past index)
    (drew : ∃ position,
      Did past position index (.numbered session.streamId true)) :
    Numbered (past ++ [(.run index input,
        some (.inserted session (session.streamId ∈ before.streams)))])
      (before.withStreams
        (before.streams.insert session.streamId session)) := by
  obtain ⟨drawn, drewHere⟩ := drew
  refine ⟨numbered.counted.keep _ rfl rfl, ?_, ?_, ?_⟩
  · intro position other inserted replaced did
    rcases did_append_run did with old | ⟨_, sameIndex, same⟩
    · obtain ⟨earlier, drewOld⟩ :=
        numbered.inserted position other inserted replaced old
      exact ⟨earlier, drewOld.append _⟩
    · cases same
      rw [sameIndex]
      exact ⟨drawn, drewHere.append _⟩
  · intro streamId member
    rcases (AList.mem_insert _).mp member with same | old
    · exact ⟨past.length, index, session, _, did_last past index input _,
        same.symm⟩
    · obtain ⟨position, other, earlier, replaced, did, same⟩ :=
        numbered.stored streamId old
      exact ⟨position, other, earlier, replaced, did.append _, same⟩
  · intro few position other inserted did
    have fewBefore := (length_numbers_le past _).trans few
    rcases did_append_run did with old | ⟨_, _, same⟩
    · exact numbered.fresh fewBefore position other inserted old
    · -- Whoever is stored under the number has drawn it, and so it is this call.
      have taken : session.streamId ∈ before.streams := by
        obtain ⟨_, isTaken⟩ := Event.inserted.inj same
        exact of_decide_eq_true isTaken.symm
      obtain ⟨earlier, holder, stored, replaced, didStore, sameId⟩ :=
        numbered.stored _ taken
      obtain ⟨first, drewFirst⟩ := numbered.inserted _ _ _ _ didStore
      rw [sameId] at drewFirst
      have self := drawer_unique (numbered.counted.nodup fewBefore) drewFirst
        drewHere
      rw [self] at didStore
      exact hasNot _ _ _ didStore

theorem numbered_of_moves {past : Past Request Input Event}
    {before after : StreamManager} {index : Nat} {input : Input}
    {task rest : Task} {event : Event}
    (moves : Moves config shards before input task event after rest)
    (numbered : Numbered past before) (knows : NumberKnows past index task) :
    Numbered (past ++ [(.run index input, some event)]) after ∧
      NumberKnows (past ++ [(.run index input, some event)]) index rest := by
  have counted : Counted (past ++ [(.run index input, some event)]) after :=
    counted_of_moves numbered.counted moves
  have hasNotStill : HasNotInserted past index →
      (∀ session replaced, event ≠ .inserted session replaced) →
        HasNotInserted (past ++ [(.run index input, some event)]) index := by
    intro hasNot keeps position session replaced did
    rcases did_append_run did with old | ⟨_, _, same⟩
    · exact hasNot position session replaced old
    · exact keeps session replaced same.symm
  cases moves with
  | readShard | admitted =>
      refine ⟨numbered.keep counted (by simp) (fun _ => id), ?_⟩
      exact hasNotStill knows (by simp)
  | numbered request target valid =>
      refine ⟨numbered.keep counted (by simp) (fun _ => id), ?_, ?_⟩
      · exact hasNotStill knows (by simp)
      · exact ⟨past.length, did_last past index input _⟩
  | inserted targetAddress session =>
      exact ⟨numbered.insert knows.1 knows.2, trivial⟩
  | removed streamId | missed streamId | expired _ _ streamId
  | vanished _ _ streamId =>
      refine ⟨numbered.keep counted (by simp) ?_, trivial⟩
      intro other member
      exact (AList.mem_erase.mp member).2
  | _ => exact ⟨numbered.keep counted (by simp) (fun _ => id), trivial⟩

theorem numberKnows_append {past later : Past Request Input Event}
    {index : Nat} {task : Task} (knows : NumberKnows past index task)
    (quiet : ∀ position session replaced,
      Did (past ++ later) position index (.inserted session replaced) →
        Did past position index (.inserted session replaced)) :
    NumberKnows (past ++ later) index task := by
  have hasNotStill : HasNotInserted past index →
      HasNotInserted (past ++ later) index :=
    fun hasNot position session replaced did =>
      hasNot position session replaced (quiet position session replaced did)
  cases task with
  | checking request shard sum => exact hasNotStill knows
  | numbering request => exact hasNotStill knows
  | inserting targetAddress session =>
      obtain ⟨hasNot, position, drew⟩ := knows
      exact ⟨hasNotStill hasNot, position, drew.append _⟩
  | _ => trivial

/-- Over whole runs. -/
theorem numbered_run (config : StreamManagerConfig) (shards : Shards)
    (actions : List (Action Request Input)) :
    Numbered (Trace.history (perform (program config shards)) start actions)
      (finalPool config shards actions).shared := by
  refine And.left (every_task (fun _ => True) Numbered
    (fun past _ => NumberKnows past) ?_ rfl ?_ ?_ ?_ ?_ ?_ actions
    (fun _ _ => trivial))
  · refine ⟨⟨rfl, rfl⟩, ?_, ?_, ?_⟩
    · intro position index session replaced did
      exact absurd did.lt (Nat.not_lt_zero position)
    · intro streamId member
      cases member
    · intro few position index session did
      exact absurd did.lt (Nat.not_lt_zero position)
  · intro past shared action numbered
    refine ⟨numbered.quiet action, fun index task knows => ?_⟩
    exact numberKnows_append knows
      (fun position session replaced did => did_append_none did)
  · intro past shared request index _ _ unused
    cases request with
    | openStream request =>
        intro position session replaced did
        exact unused _ _ (did_append_none did)
    | _ => trivial
  · intro past shared index input task turned _ taken numbered knows
    exact numbered_of_moves (turn_moves taken).1 numbered knows
  · intro past shared index input task turned fresh child _ taken _ _ isChild
    rw [(turn_moves taken).2] at isChild
    cases isChild
  · intro past shared index input task turned other bystander _ taken _ _
      different knows
    refine numberKnows_append knows ?_
    intro position session replaced did
    rcases did_append_run did with old | ⟨_, sameIndex, _⟩
    · exact old
    · exact absurd sameIndex different

/-- So many numbers were drawn, the first one for a stream that is still open. -/
structure Spent (config : StreamManagerConfig) (shards : Shards) (draws : Nat)
    (actions : List (Action Request Input)) : Prop where
  live : 1 ∈ (finalPool config shards actions).shared.streams
  only : size (finalPool config shards actions).shared.streams = 1
  next : (finalPool config shards actions).shared.nextStreamId =
    UInt32.ofNat (draws + 1)
  drawn : (numbers (Trace.history (perform (program config shards)) start
    actions)).length = draws

/-- The call and its check, when nothing else moves. -/
def admission (shards : Shards) (pool : Pool StreamManager Task)
    (request : OpenRequest) (input : Input) : List (Action Request Input) :=
  .call (.openStream request) ::
    List.replicate (shards.count + 1) (.run pool.tasks.length input)

section Opening

variable (config : StreamManagerConfig) (shards : Shards)
  (pool : Pool StreamManager Task) (request : OpenRequest) (input : Input)

/-- The check reads the shards that are left and passes. -/
theorem check_alone (left : Nat) {shard : Nat} (sum : Nat)
    (fits : shard + left = shards.count)
    (room : sum + shards.sizeFrom pool.shared.streams shard <
      config.maxConcurrentStreams.toNat) :
    Trace.final (perform (program config shards))
        (pool.join (.checking request shard sum))
        (List.replicate (left + 1) (.run pool.tasks.length input)) =
      pool.join (.numbering request) ∧
    numbers (Trace.history (perform (program config shards))
        (pool.join (.checking request shard sum))
        (List.replicate (left + 1) (.run pool.tasks.length input))) = [] := by
  induction left generalizing shard sum with
  | zero =>
      have all : shard = shards.count := fits
      rw [all, shards.sizeFrom_of_count_le _ _ (le_refl _)] at room
      have passes : perform (program config shards)
          (pool.join (.checking request shard sum))
          (.run pool.tasks.length input) =
            (some (.checked true), pool.join (.numbering request)) := by
        rw [all]
        exact perform_admitted room input
      rw [List.replicate_one, Trace.final, Trace.history, passes]
      exact ⟨rfl, rfl⟩
  | succ left ih =>
      have among : shard < shards.count := by omega
      have reads : perform (program config shards)
          (pool.join (.checking request shard sum))
          (.run pool.tasks.length input) =
            (some (.readShard shard), pool.join (.checking request (shard + 1)
              (sum + shards.sizeIn pool.shared.streams shard))) :=
        perform_readShard among input
      rw [← shards.sizeIn_add_sizeFrom, ← Nat.add_assoc] at room
      have behind : shard + 1 + left = shards.count := by omega
      rw [List.replicate_succ, Trace.final, Trace.history, reads]
      exact ih _ behind room

theorem admission_spec
    (room : size pool.shared.streams < config.maxConcurrentStreams.toNat) :
    Trace.final (perform (program config shards)) pool
        (admission shards pool request input) =
      pool.join (.numbering request) ∧
    numbers (Trace.history (perform (program config shards)) pool
        (admission shards pool request input)) = [] := by
  rw [← shards.sizeFrom_zero, ← Nat.zero_add (shards.sizeFrom _ _)] at room
  exact check_alone config shards pool request input shards.count 0
    (Nat.zero_add _) room

/-- A number is spent on a call without a valid address. -/
theorem opening_invalid
    (room : size pool.shared.streams < config.maxConcurrentStreams.toNat)
    (invalid : SocketAddr.fromStr request.targetAddress = none) :
    (Trace.final (perform (program config shards)) pool
        (admission shards pool request input ++
          [.run pool.tasks.length input])).shared = pool.shared.drawNumber ∧
      numbers (Trace.history (perform (program config shards)) pool
        (admission shards pool request input ++
          [.run pool.tasks.length input])) = [pool.shared.nextStreamId] := by
  have draws : perform (program config shards)
      (pool.join (.numbering request)) (.run pool.tasks.length input) =
      (some (.numbered pool.shared.nextStreamId false),
        ⟨pool.shared.drawNumber, pool.tasks ++ [.returned (.response
          (invalidTarget request pool.shared.nextStreamId))]⟩) := by
    apply perform_last
    simp only [turn, invalid]
  obtain ⟨admitted, nothing⟩ :=
    admission_spec config shards pool request input room
  constructor
  · simp only [Trace.final_append, admitted, Trace.final, draws]
  · simp only [Trace.history_append, numbers_append, nothing, admitted,
      Trace.history, draws]
    rfl

/-- A call with a valid address comes to insert its session. -/
theorem opening_valid {target : SocketAddr}
    (room : size pool.shared.streams < config.maxConcurrentStreams.toNat)
    (valid : SocketAddr.fromStr request.targetAddress = some target) :
    ∃ session rest, session.streamId = pool.shared.nextStreamId ∧
      Trace.final (perform (program config shards)) pool
          (admission shards pool request input ++
            [.run pool.tasks.length input, .run pool.tasks.length input]) =
        ⟨pool.shared.drawNumber.withStreams
          (pool.shared.streams.insert session.streamId session), rest⟩ ∧
      Trace.history (perform (program config shards)) pool
          (admission shards pool request input ++
            [.run pool.tasks.length input, .run pool.tasks.length input]) =
        Trace.history (perform (program config shards)) pool
            (admission shards pool request input) ++
          [(.run pool.tasks.length input,
              some (.numbered pool.shared.nextStreamId true)),
            (.run pool.tasks.length input, some (.inserted session
              (session.streamId ∈ pool.shared.streams)))] := by
  obtain ⟨session, sessionEq⟩ : ∃ session, session =
      newSession config request target pool.shared.nextStreamId input :=
    ⟨_, rfl⟩
  have draws : perform (program config shards)
      (pool.join (.numbering request)) (.run pool.tasks.length input) =
      (some (.numbered pool.shared.nextStreamId true),
        ⟨pool.shared.drawNumber,
          pool.tasks ++ [.inserting request.targetAddress session]⟩) := by
    apply perform_last
    simp only [turn, valid, sessionEq]
  have inserts : perform (program config shards)
      ⟨pool.shared.drawNumber,
        pool.tasks ++ [.inserting request.targetAddress session]⟩
        (.run pool.tasks.length input) =
      (some (.inserted session (session.streamId ∈ pool.shared.streams)),
        ⟨pool.shared.drawNumber.withStreams
          (pool.shared.streams.insert session.streamId session),
          pool.tasks ++
            [.counting request.targetAddress session.streamId]⟩) :=
    perform_last rfl
  have admitted := (admission_spec config shards pool request input room).1
  refine ⟨session, pool.tasks ++
    [.counting request.targetAddress session.streamId], ?_, ?_, ?_⟩
  · rw [sessionEq]
    rfl
  · simp only [Trace.final_append, admitted, Trace.final, draws, inserts]
  · simp only [Trace.history_append, admitted, Trace.history, draws, inserts]

end Opening

variable {draws : Nat} {actions : List (Action Request Input)}

/-- The first stream is opened. -/
theorem exists_spent_first (config : StreamManagerConfig) (shards : Shards)
    (input : Input) (limited : 0 < config.maxConcurrentStreams.toNat)
    {request : OpenRequest} {target : SocketAddr}
    (valid : SocketAddr.fromStr request.targetAddress = some target) :
    ∃ actions, Spent config shards 1 actions := by
  obtain ⟨session, rest, sameId, reaches, recorded⟩ :=
    opening_valid config shards start request input limited valid
  have nothing := (admission_spec config shards start request input limited).2
  refine ⟨admission shards start request input ++
    [.run start.tasks.length input, .run start.tasks.length input],
    ?_, ?_, ?_, ?_⟩
  · rw [finalPool, reaches, sameId]
    exact (AList.mem_insert _).mpr (Or.inl rfl)
  · have grown := size_insert start.shared.streams session.streamId session
    rw [finalPool, reaches]
    exact grown
  · rw [finalPool, reaches]
    rfl
  · rw [recorded, numbers_append, nothing]
    rfl

/-- Another number is spent. -/
theorem Spent.another (spent : Spent config shards draws actions)
    (room : 1 < config.maxConcurrentStreams.toNat) (input : Input)
    {request : OpenRequest}
    (invalid : SocketAddr.fromStr request.targetAddress = none) :
    ∃ more, Spent config shards (draws + 1) more := by
  obtain ⟨live, only, next, drawn⟩ := spent
  have roomHere : size (finalPool config shards actions).shared.streams <
      config.maxConcurrentStreams.toNat := by
    rw [only]
    exact room
  obtain ⟨shared, number⟩ :=
    opening_invalid config shards _ request input roomHere invalid
  refine ⟨actions ++ (admission shards (finalPool config shards actions) request
      input ++ [.run (finalPool config shards actions).tasks.length input]),
    ?_, ?_, ?_, ?_⟩
  · rw [finalPool, Trace.final_append, shared]
    exact live
  · rw [finalPool, Trace.final_append, shared]
    exact only
  · rw [finalPool, Trace.final_append, shared]
    exact (congrArg (· + 1) next).trans (UInt32.ofNat_add _ 1).symm
  · rw [Trace.history_append, numbers_append, List.length_append, drawn,
      ← finalPool, number]
    rfl

theorem exists_spent (config : StreamManagerConfig) (shards : Shards)
    (room : 1 < config.maxConcurrentStreams.toNat) (input : Input)
    (request bad : OpenRequest) {target : SocketAddr}
    (valid : SocketAddr.fromStr request.targetAddress = some target)
    (invalid : SocketAddr.fromStr bad.targetAddress = none) (more : Nat) :
    ∃ actions, Spent config shards (more + 1) actions := by
  induction more with
  | zero =>
      exact exists_spent_first config shards input (Nat.lt_of_succ_lt room)
        valid
  | succ more ih =>
      obtain ⟨actions, spent⟩ := ih
      exact spent.another room input invalid

/-- A session takes the place of a stored one for the first time when the counter has
come around, and then it can. -/
theorem first_replacement (config : StreamManagerConfig) (shards : Shards)
    (room : 1 < config.maxConcurrentStreams.toNat) :
    IsLeast {draws | ∃ actions,
        (numbers (Trace.history (perform (program config shards)) start
          actions)).length = draws ∧
        ∃ position index session,
          Did (Trace.history (perform (program config shards)) start actions)
            position index (.inserted session true)}
      4294967297 := by
  constructor
  · -- One stream stays open while the other numbers are spent.
    let request : OpenRequest := ⟨"10.0.0.1:443", none⟩
    let bad : OpenRequest := ⟨"", none⟩
    let input : Input := ⟨SystemTime.unixEpoch, Vector.replicate 12 0, 0, 0⟩
    obtain ⟨target, valid⟩ : ∃ target,
        SocketAddr.fromStr request.targetAddress = some target :=
      Option.isSome_iff_exists.mp (by decide)
    have invalid : SocketAddr.fromStr bad.targetAddress = none := by decide
    obtain ⟨actions, live, only, next, drawn⟩ :=
      exists_spent config shards room input request bad valid invalid 4294967295
    have roomHere : size (finalPool config shards actions).shared.streams <
        config.maxConcurrentStreams.toNat := by
      rw [only]
      exact room
    obtain ⟨session, rest, sameId, _, recorded⟩ := opening_valid config shards
      (finalPool config shards actions) request input roomHere valid
    have around : session.streamId = 1 := sameId.trans (next.trans rfl)
    have nothing := (admission_spec config shards
      (finalPool config shards actions) request input roomHere).2
    rw [around, decide_eq_true live] at recorded
    let opening := admission shards (finalPool config shards actions) request
      input ++ [.run (finalPool config shards actions).tasks.length input,
        .run (finalPool config shards actions).tasks.length input]
    let early := Trace.history (perform (program config shards)) start actions
    let checking := Trace.history (perform (program config shards))
      (finalPool config shards actions) (admission shards
        (finalPool config shards actions) request input)
    have whole := Trace.history_append (perform (program config shards)) start
      actions opening
    rw [← finalPool, recorded] at whole
    refine ⟨actions ++ opening, ?_, early.length + (checking.length + 1),
      (finalPool config shards actions).tasks.length, session, ?_⟩
    · rw [whole, numbers_append, numbers_append, List.length_append, drawn,
        nothing]
      rfl
    · refine ⟨input, ?_⟩
      rw [whole, List.getElem?_append_right (Nat.le_add_right _ _),
        Nat.add_sub_cancel_left,
        List.getElem?_append_right (Nat.le_add_right _ _),
        Nat.add_sub_cancel_left]
      rfl
  · rintro draws ⟨actions, sameDraws, position, index, session, did⟩
    by_contra fewer
    have few : (numbers (Trace.history (perform (program config shards)) start
        actions)).length ≤ 4294967296 := by omega
    exact (numbered_run config shards actions).fresh few position index session
      did

theorem first_replacement_default :
    IsLeast {draws | ∃ actions,
        (numbers (Trace.history (perform (program .default .single)) start
          actions)).length = draws ∧
        ∃ position index session,
          Did (Trace.history (perform (program .default .single)) start actions)
            position index (.inserted session true)}
      4294967297 :=
  first_replacement .default .single (by decide)

end NyxNet.Streams
