import NyxNet.Lib.Custody
import NyxNet.Stream.ResourceManager

/-!
# Every resource is released once

The calls of `nyx-stream/src/resource_manager.rs` made one after the other.
Each accepted registration makes out a receipt, and each run of a cleanup
callback is counted on the receipt of the resource it belongs to.
-/

namespace NyxNet.Resources

open KeyedTable TaskPool
open Custody (Receipts Keeper Purpose)
open Custody.Keeper (Move Tracked Sound UsedOnce)

variable {config : Config}

def ResourceInfo.hasCallback (resource : ResourceInfo) : Bool :=
  resource.hasAsyncCleanupCallback || resource.hasCleanupCallback

/-- A resource with a callback is to have it run, as long as the resource is
not marked as cleaned up. -/
def callbacks : Purpose ResourceInfo where
  wanted := ResourceInfo.hasCallback
  spent := ResourceInfo.isCleanedUp

/-- The receipts after a step of a call: it may insert a resource, and it may
run the callback of one. -/
def receiptsAfter (manager : ResourceManager) (task : Task) (input : Input)
    (receipts : Receipts String ResourceInfo) :
    Receipts String ResourceInfo :=
  match task with
  | .inserting resource _ => receipts.store resource.id resource
  | .executing resource _ =>
      if callbacks.due resource then receipts.use resource.id else receipts
  | .cleaningWeak ids =>
      match ids[input.choice]?.bind manager.resources.lookup with
      | some resource =>
          if callbacks.due resource then receipts.use resource.id
          else receipts
      | none => receipts
  | _ => receipts

/-- One caller, with the call it has made last and how far that has got. -/
structure Session where
  manager : ResourceManager
  call : Option (Request × Task)
  receipts : Receipts String ResourceInfo

def Session.new : Session where
  manager := .new
  call := none
  receipts := .none

inductive SessionStep where
  | call (request : Request)
  | run (input : Input)

/-- The next call is made when the last one has returned. -/
def Session.begin (session : Session) (request : Request) : Session :=
  match session.call with
  | none => { session with call := some (request, launch request) }
  | some (_, .returned _) =>
      { session with call := some (request, launch request) }
  | some _ => session

def Session.run (config : Config) (session : Session) (input : Input) :
    Session :=
  match session.call with
  | none => session
  | some (request, task) =>
      match turn config session.manager task input with
      | none => session
      | some turned =>
          { manager := turned.shared
            call := some (request, turned.task)
            receipts :=
              receiptsAfter session.manager task input session.receipts }

def act (config : Config) (session : Session) : SessionStep → Unit × Session
  | .call request => ((), session.begin request)
  | .run input => ((), session.run config input)

def Keyed (resources : ResourceTable) : Prop :=
  ∀ id resource, resources.lookup id = some resource → resource.id = id

theorem Keyed.insert {resources : ResourceTable} (keyed : Keyed resources)
    (id : String) {resource : ResourceInfo} (ownId : resource.id = id) :
    Keyed (resources.insert id resource) := by
  intro other found isFound
  by_cases same : other = id
  · subst same
    rw [AList.lookup_insert] at isFound
    rw [← Option.some.inj isFound, ownId]
  · rw [AList.lookup_insert_ne same] at isFound
    exact keyed other found isFound

theorem Keyed.erase {resources : ResourceTable} (keyed : Keyed resources)
    (id : String) : Keyed (resources.erase id) := by
  intro other found isFound
  by_cases same : other = id
  · subst same
    rw [AList.lookup_erase] at isFound
    cases isFound
  · rw [AList.lookup_erase_ne same] at isFound
    exact keyed other found isFound

/-- The resource that was taken out and whose callback comes next. -/
def Task.inHand : Task → Option (String × ResourceInfo)
  | .executing resource _ => some (resource.id, resource)
  | _ => none

def Task.stores : Task → Option (String × ResourceInfo)
  | .inserting resource _ => some (resource.id, resource)
  | _ => none

def keeperOf (resources : ResourceTable) (hand : Option (String × ResourceInfo))
    (receipts : Receipts String ResourceInfo) :
    Keeper String ResourceInfo where
  held := fun id => resources.lookup id
  hand := hand
  receipts := receipts

theorem keeperOf_insert (resources : ResourceTable) (id : String)
    (resource : ResourceInfo) (hand : Option (String × ResourceInfo))
    (receipts : Receipts String ResourceInfo) :
    keeperOf (resources.insert id resource) hand receipts =
      { held := Function.update (fun other => resources.lookup other) id
          (some resource)
        hand, receipts } := by
  rw [keeperOf, lookup_insert_eq_update]

theorem keeperOf_erase (resources : ResourceTable) (id : String)
    (hand : Option (String × ResourceInfo))
    (receipts : Receipts String ResourceInfo) :
    keeperOf (resources.erase id) hand receipts =
      { held := Function.update (fun other => resources.lookup other) id none
        hand, receipts } := by
  rw [keeperOf, lookup_erase_eq_update]

@[simp] theorem inHand_receive (caller : Caller)
    (result : Except ResourceError Unit) :
    (caller.receive result).inHand = none := by
  cases caller <;> cases result <;> rfl

/-- The step is a move of the values in custody. -/
structure Transfers (manager : ResourceManager) (task : Task) (input : Input)
    (receipts : Receipts String ResourceInfo) (after : ResourceTable)
    (rest : Task) : Prop where
  keyed : Keyed after
  move : Move callbacks (keeperOf manager.resources task.inHand receipts)
    task.stores
    (keeperOf after rest.inHand (receiptsAfter manager task input receipts))

section Transfer

variable {manager : ResourceManager} {task rest : Task} {input : Input}
variable {receipts : Receipts String ResourceInfo}

theorem transfers_of_next {event : Event} {after : ResourceManager}
    {turned : Turn ResourceManager Task Event}
    (taken : next event after rest = some turned)
    (transfers : Transfers manager task input receipts after.resources rest) :
    Transfers manager task input receipts turned.shared.resources
      turned.task := by
  rw [eq_of_next taken]
  exact transfers

theorem transfers_stay (keyed : Keyed manager.resources)
    (free : task.inHand = none) (storesNothing : task.stores = none)
    (unrecorded : receiptsAfter manager task input receipts = receipts)
    (restFree : rest.inHand = none) :
    Transfers manager task input receipts manager.resources rest := by
  refine ⟨keyed, ?_⟩
  rw [free, storesNothing, unrecorded, restFree]
  exact .stay

theorem transfers_erase_absent (keyed : Keyed manager.resources)
    (free : task.inHand = none) (storesNothing : task.stores = none)
    (unrecorded : receiptsAfter manager task input receipts = receipts)
    (restFree : rest.inHand = none) {id : String}
    (absent : manager.resources.lookup id = none) :
    Transfers manager task input receipts (manager.resources.erase id)
      rest := by
  have unmoved : keeperOf (manager.resources.erase id) none receipts =
      keeperOf manager.resources none receipts := by
    rw [keeperOf, lookup_erase_of_absent absent, keeperOf]
  refine ⟨keyed.erase id, ?_⟩
  rw [free, storesNothing, unrecorded, restFree, unmoved]
  exact .stay

theorem transfers_take (keyed : Keyed manager.resources)
    (free : task.inHand = none) (storesNothing : task.stores = none)
    (unrecorded : receiptsAfter manager task input receipts = receipts)
    {id : String} {resource : ResourceInfo}
    (found : manager.resources.lookup id = some resource) (caller : Caller) :
    Transfers manager task input receipts (manager.resources.erase id)
      (.executing resource caller) := by
  refine ⟨keyed.erase id, ?_⟩
  rw [free, storesNothing, unrecorded, keeperOf_erase, Task.inHand,
    keyed id resource found]
  exact .take id resource found rfl

/-- The callback of the resource in hand is run, unless there is none. -/
theorem transfers_execute (keyed : Keyed manager.resources)
    (resource : ResourceInfo) (caller : Caller)
    (restFree : rest.inHand = none) :
    Transfers manager (.executing resource caller) input receipts
      manager.resources rest := by
  refine ⟨keyed, ?_⟩
  rw [restFree, receiptsAfter]
  split
  · next due => exact .use resource.id resource rfl due
  · next notDue => exact .letGo resource.id resource rfl (by simpa using notDue)

/-- A reference was dropped: its resource is removed and, where there is a
callback, released in the same step. -/
theorem transfers_clean_weak (keyed : Keyed manager.resources)
    {ids : List String} {id : String}
    (chosen : ids[input.choice]? = some id) (left : List String) :
    Transfers manager (.cleaningWeak ids) input receipts
      (manager.resources.erase id) (.cleaningWeak left) := by
  cases found : manager.resources.lookup id with
  | none =>
      refine transfers_erase_absent keyed rfl rfl ?_ rfl found
      rw [receiptsAfter, chosen, Option.bind_some, found]
  | some resource =>
      refine ⟨keyed.erase id, ?_⟩
      rw [receiptsAfter, chosen, Option.bind_some, found, keeperOf_erase]
      simp only
      split
      · next due =>
          rw [keyed id resource found]
          exact .release id resource found due
      · next notDue =>
          exact .discard id resource found (by simpa using notDue)

theorem turn_transfers (receipts : Receipts String ResourceInfo)
    {turned : Turn ResourceManager Task Event}
    (keyed : Keyed manager.resources)
    (taken : turn config manager task input = some turned) :
    Transfers manager task input receipts turned.shared.resources
      turned.task := by
  unfold turn at taken
  cases task with
  | checking resource auto =>
      have step := of_unlocked taken
      simp only at step
      split at step
      · exact transfers_of_next step (transfers_stay keyed rfl rfl rfl rfl)
      · exact transfers_of_next step (transfers_stay keyed rfl rfl rfl rfl)
      · exact transfers_of_next step (transfers_stay keyed rfl rfl rfl rfl)
  | inserting resource auto =>
      refine transfers_of_next (of_unlocked taken)
        ⟨keyed.insert resource.id rfl, ?_⟩
      have restFree : (if auto then Task.addingWeakRef resource.id
          else .returned .done).inHand = none := by
        cases auto <;> rfl
      rw [restFree, ResourceManager.withResources, keeperOf_insert]
      exact .store resource.id resource rfl
  | touching id =>
      have step := of_unlocked taken
      split at step
      · next resource found =>
          refine transfers_of_next step
            ⟨keyed.insert id (keyed id resource found), ?_⟩
          rw [ResourceManager.withResources, keeperOf_insert]
          exact .change id resource _ found ⟨rfl, rfl⟩
      · exact transfers_of_next step (transfers_stay keyed rfl rfl rfl rfl)
  | removing id caller =>
      have step := of_unlocked taken
      split at step
      · next resource found =>
          refine transfers_of_next step ?_
          split
          · next cleanedUp =>
              refine ⟨keyed.erase id, ?_⟩
              rw [inHand_receive, ResourceManager.withResources,
                keeperOf_erase]
              refine .discard id resource found ?_
              simp [Purpose.due, callbacks, cleanedUp]
          · exact transfers_take keyed rfl rfl rfl found caller
      · exact transfers_of_next step
          (transfers_stay keyed rfl rfl rfl (inHand_receive caller _))
  | executing resource caller =>
      simp only at taken
      split at taken
      · exact transfers_of_next taken (transfers_execute keyed _ _ rfl)
      · exact transfers_of_next taken (transfers_execute keyed _ _ rfl)
      · exact transfers_of_next taken (transfers_execute keyed _ _ rfl)
      · cases taken
  | countingCleanedUp caller | countingFailure message caller =>
      exact transfers_of_next taken
        (transfers_stay keyed rfl rfl rfl (inHand_receive caller _))
  | accessing | addingWeakRef | countingSuccess | clearingWeakRefs =>
      exact transfers_of_next taken (transfers_stay keyed rfl rfl rfl rfl)
  | listingAll | findingOver | lockingWeak | lockingIdle =>
      exact transfers_of_next (of_unlocked taken)
        (transfers_stay keyed rfl rfl rfl rfl)
  | cleaningAll ids errors | forcing ids cleanedUp errors =>
      rcases of_eachId taken with inLoop | afterLoop
      · obtain ⟨id, left, step⟩ := inLoop
        exact transfers_of_next step (transfers_stay keyed rfl rfl rfl rfl)
      · exact transfers_of_next afterLoop
          (transfers_stay keyed rfl rfl rfl rfl)
  | drainingWeakRefs =>
      refine transfers_of_next taken (transfers_stay keyed rfl rfl rfl ?_)
      split <;> rfl
  | cleaningWeak ids =>
      rcases eachId_cases taken with inLoop | afterLoop
      · obtain ⟨id, chosen, step⟩ := inLoop
        exact transfers_of_next step (transfers_clean_weak keyed chosen _)
      · obtain ⟨isEmpty, step⟩ := afterLoop
        subst isEmpty
        exact transfers_of_next step (transfers_stay keyed rfl rfl rfl rfl)
  | findingIdle =>
      refine transfers_of_next (of_unlocked taken)
        (transfers_stay keyed rfl rfl rfl ?_)
      split <;> rfl
  | cleaningIdle ids =>
      rcases of_eachId taken with inLoop | afterLoop
      · obtain ⟨id, left, step⟩ := inLoop
        refine transfers_of_next step ?_
        split
        · next resource found =>
            exact transfers_take keyed rfl rfl rfl found _
        · next absent =>
            exact transfers_erase_absent keyed rfl rfl rfl rfl absent
      · exact transfers_of_next afterLoop
          (transfers_stay keyed rfl rfl rfl rfl)
  | returned answer => cases taken

end Transfer

def Covers (resources : ResourceTable) (ids : List String) : Prop :=
  ∀ id resource, resources.lookup id = some resource → id ∈ ids

/-- The tasks of `cleanup_all`: whatever is stored is still to come. -/
inductive Clearing (resources : ResourceTable) : Task → Prop where
  | listing : Clearing resources .listingAll
  | cleaning {rest : List String} {errors : List ResourceError}
      (covers : Covers resources rest) :
      Clearing resources (.cleaningAll rest errors)
  | removing {id : String} {rest : List String} {errors : List ResourceError}
      (covers : Covers resources (id :: rest)) :
      Clearing resources (.removing id (.cleanupAll rest errors))
  | executing {resource : ResourceInfo} {rest : List String}
      {errors : List ResourceError} (covers : Covers resources rest) :
      Clearing resources (.executing resource (.cleanupAll rest errors))
  | countingSuccess {rest : List String} {errors : List ResourceError}
      (covers : Covers resources rest) :
      Clearing resources (.countingSuccess (.cleanupAll rest errors))
  | countingCleanedUp {rest : List String} {errors : List ResourceError}
      (covers : Covers resources rest) :
      Clearing resources (.countingCleanedUp (.cleanupAll rest errors))
  | countingFailure {message : String} {rest : List String}
      {errors : List ResourceError} (covers : Covers resources rest) :
      Clearing resources (.countingFailure message (.cleanupAll rest errors))
  | clearingWeakRefs {errors : List ResourceError}
      (covers : Covers resources []) :
      Clearing resources (.clearingWeakRefs errors)
  | returned {answer : Answer} (covers : Covers resources []) :
      Clearing resources (.returned answer)

theorem covers_keys (resources : ResourceTable) :
    Covers resources resources.keys :=
  fun _ _ found => AList.mem_keys.mpr (mem_of_lookup found)

theorem Covers.erase {resources : ResourceTable} {id : String}
    {rest : List String} (covers : Covers resources (id :: rest)) :
    Covers (resources.erase id) rest := by
  intro other resource found
  by_cases same : other = id
  · subst same
    rw [AList.lookup_erase] at found
    cases found
  · rw [AList.lookup_erase_ne same] at found
    rcases List.mem_cons.mp (covers other resource found) with isId | later
    · exact absurd isId same
    · exact later

theorem Covers.of_absent {resources : ResourceTable} {id : String}
    {rest : List String} (covers : Covers resources (id :: rest))
    (absent : resources.lookup id = none) : Covers resources rest := by
  intro other resource found
  rcases List.mem_cons.mp (covers other resource found) with isId | later
  · rw [isId, absent] at found
    cases found
  · exact later

theorem Covers.choose {resources : ResourceTable} {ids : List String}
    {choice : Nat} {id : String} (covers : Covers resources ids)
    (chosen : ids[choice]? = some id) :
    Covers resources (id :: ids.eraseIdx choice) := by
  intro other resource found
  obtain ⟨bound, isId⟩ := List.getElem?_eq_some_iff.mp chosen
  have member := covers other resource found
  rw [← isId]
  exact (List.getElem_cons_eraseIdx_perm bound).mem_iff.mpr member

theorem Covers.resources_eq {resources : ResourceTable}
    (covers : Covers resources []) : resources = ∅ := by
  have noKeys : resources.keys = [] := by
    apply List.eq_nil_iff_forall_not_mem.mpr
    intro id member
    obtain ⟨resource, found⟩ := Option.isSome_iff_exists.mp
      (AList.lookup_isSome.mpr (AList.mem_keys.mp member))
    cases covers id resource found
  exact AList.ext (List.map_eq_nil_iff.mp noKeys)

theorem clearing_receive {resources : ResourceTable} {rest : List String}
    (errors : List ResourceError) (covers : Covers resources rest)
    (result : Except ResourceError Unit) :
    Clearing resources ((Caller.cleanupAll rest errors).receive result) := by
  cases result with
  | ok _ => exact .cleaning covers
  | error _ => exact .cleaning covers

theorem clearing_of_next {event : Event} {after : ResourceManager}
    {rest : Task} {turned : Turn ResourceManager Task Event}
    (taken : next event after rest = some turned)
    (clearing : Clearing after.resources rest) :
    Clearing turned.shared.resources turned.task := by
  rw [eq_of_next taken]
  exact clearing

theorem Clearing.turn {manager : ResourceManager} {task : Task}
    {input : Input} {turned : Turn ResourceManager Task Event}
    (clearing : Clearing manager.resources task)
    (taken : turn config manager task input = some turned) :
    Clearing turned.shared.resources turned.task := by
  unfold Resources.turn at taken
  cases clearing with
  | listing =>
      exact clearing_of_next (of_unlocked taken)
        (.cleaning (covers_keys manager.resources))
  | cleaning covers =>
      rcases eachId_cases taken with inLoop | afterLoop
      · obtain ⟨id, chosen, step⟩ := inLoop
        exact clearing_of_next step (.removing (covers.choose chosen))
      · obtain ⟨isEmpty, step⟩ := afterLoop
        subst isEmpty
        exact clearing_of_next step (.clearingWeakRefs covers)
  | removing covers =>
      have step := of_unlocked taken
      split at step
      · refine clearing_of_next step ?_
        split
        · exact clearing_receive _ covers.erase _
        · exact .executing covers.erase
      · next absent =>
          exact clearing_of_next step
            (clearing_receive _ (covers.of_absent absent) _)
  | executing covers =>
      simp only at taken
      split at taken
      · exact clearing_of_next taken (.countingSuccess covers)
      · exact clearing_of_next taken (.countingFailure covers)
      · next idle => cases idle
      · cases taken
  | countingSuccess covers =>
      exact clearing_of_next taken (.countingCleanedUp covers)
  | countingCleanedUp covers =>
      exact clearing_of_next taken (clearing_receive _ covers _)
  | countingFailure covers =>
      exact clearing_of_next taken (clearing_receive _ covers _)
  | clearingWeakRefs covers =>
      exact clearing_of_next taken (.returned covers)
  | returned covers => cases taken

def Session.inHand (session : Session) : Option (String × ResourceInfo) :=
  session.call.bind fun call => call.2.inHand

def Session.keeper (session : Session) : Keeper String ResourceInfo :=
  keeperOf session.manager.resources session.inHand session.receipts

structure Accounted (session : Session) : Prop where
  keyed : Keyed session.manager.resources
  tracked : Tracked callbacks session.keeper
  clearing : ∀ task, session.call = some (.cleanupAll, task) →
    Clearing session.manager.resources task

/-- The resource that is inserted does not replace one whose callback is still
to run, and is not itself marked as cleaned up with a callback to run. -/
def Replaceable (resources : ResourceTable) (resource : ResourceInfo) : Prop :=
  (∀ old ∈ resources.lookup resource.id, callbacks.due old = false) ∧
    (resource.hasCallback = true → resource.isCleanedUp = false)

instance (resources : ResourceTable) (resource : ResourceInfo) :
    Decidable (Replaceable resources resource) :=
  inferInstanceAs (Decidable (_ ∧ _))

/-- A step that inserts a resource loses no callback by it. -/
def LosesNothing (session : Session) : SessionStep → Prop
  | .call _ => True
  | .run _ => ∀ call ∈ session.call, ∀ stored ∈ call.2.stores,
      session.manager.writeHeld = false →
        Replaceable session.manager.resources stored.2

instance (session : Session) (step : SessionStep) :
    Decidable (LosesNothing session step) :=
  match step with
  | .call _ => isTrue trivial
  | .run _ => inferInstanceAs (Decidable (∀ call ∈ session.call, _))

theorem inHand_launch (request : Request) : (launch request).inHand = none := by
  cases request <;> rfl

theorem begin_cases (session : Session) (request : Request) :
    session.begin request = session ∨
      session.inHand = none ∧ session.begin request =
        { session with call := some (request, launch request) } := by
  unfold Session.begin
  split
  · next noCall =>
      refine Or.inr ⟨?_, rfl⟩
      rw [Session.inHand, noCall]
      rfl
  · next request answer returned =>
      refine Or.inr ⟨?_, rfl⟩
      rw [Session.inHand, returned]
      rfl
  · exact Or.inl rfl

theorem run_cases (config : Config) (session : Session) (input : Input) :
    session.run config input = session ∧
        (∀ request task, session.call = some (request, task) →
          turn config session.manager task input = none) ∨
      ∃ request task turned, session.call = some (request, task) ∧
        turn config session.manager task input = some turned ∧
          session.run config input =
            { manager := turned.shared
              call := some (request, turned.task)
              receipts := receiptsAfter session.manager task input
                session.receipts } := by
  unfold Session.run
  cases made : session.call with
  | none =>
      refine Or.inl ⟨rfl, ?_⟩
      intro request task none
      cases none
  | some call =>
      obtain ⟨request, task⟩ := call
      cases taken : turn config session.manager task input with
      | none =>
          refine Or.inl ⟨by simp only [taken], ?_⟩
          intro otherRequest otherTask same
          cases same
          exact taken
      | some turned =>
          exact Or.inr ⟨request, task, turned, rfl, taken, by simp only [taken]⟩

theorem Accounted.begin {session : Session} (accounted : Accounted session)
    (request : Request) : Accounted (session.begin request) := by
  rcases begin_cases session request with unchanged | begun
  · rw [unchanged]
    exact accounted
  · obtain ⟨free, isBegun⟩ := begun
    rw [isBegun]
    refine ⟨accounted.keyed, ?_, ?_⟩
    · have same : Session.keeper { session with
          call := some (request, launch request) } = session.keeper := by
        rw [Session.keeper, Session.keeper, free, Session.inHand,
          Option.bind_some, inHand_launch]
      rw [same]
      exact accounted.tracked
    · intro task isCall
      cases isCall
      exact .listing

theorem Accounted.transfers {session : Session}
    (accounted : Accounted session) {request : Request} {task : Task}
    {input : Input} {turned : Turn ResourceManager Task Event}
    (made : session.call = some (request, task))
    (taken : turn config session.manager task input = some turned) :
    Keyed turned.shared.resources ∧
      Move callbacks session.keeper task.stores
        (keeperOf turned.shared.resources turned.task.inHand
          (receiptsAfter session.manager task input session.receipts)) := by
  have transfers := turn_transfers session.receipts accounted.keyed taken
  rw [Session.keeper, Session.inHand, made]
  exact ⟨transfers.keyed, transfers.move⟩

theorem Accounted.run {session : Session} (accounted : Accounted session)
    (config : Config) (input : Input) :
    Accounted (session.run config input) := by
  rcases run_cases config session input with unchanged | moved
  · rw [unchanged.1]
    exact accounted
  · obtain ⟨request, task, turned, made, taken, isRun⟩ := moved
    rw [isRun]
    obtain ⟨keyed, move⟩ := accounted.transfers made taken
    refine ⟨keyed, accounted.tracked.move move, ?_⟩
    intro rest isCall
    cases isCall
    exact (accounted.clearing task made).turn taken

theorem Accounted.act {session : Session} (accounted : Accounted session)
    (config : Config) (step : SessionStep) :
    Accounted (act config session step).2 := by
  cases step with
  | call request => exact accounted.begin request
  | run input => exact accounted.run config input

theorem of_stores {task : Task} {stored : String × ResourceInfo}
    (stores : stored ∈ task.stores) :
    stored.1 = stored.2.id ∧ ∃ auto, task = .inserting stored.2 auto := by
  cases task with
  | inserting resource auto =>
      cases Option.some.inj stores
      exact ⟨rfl, auto, rfl⟩
  | _ => cases stores

/-- A resource is inserted exactly when nobody holds the lock. -/
theorem isSome_turn_inserting (config : Config) (manager : ResourceManager)
    (resource : ResourceInfo) (auto : Bool) (input : Input) :
    (turn config manager (.inserting resource auto) input).isSome = true ↔
      manager.writeHeld = false := by
  rw [turn, unlocked]
  cases manager.writeHeld with
  | false => exact ⟨fun _ => rfl, fun _ => rfl⟩
  | true => exact ⟨nofun, nofun⟩

/-- A step keeps the receipts sound exactly when it loses nothing. -/
theorem sound_act_iff {session : Session} (accounted : Accounted session)
    (config : Config) (step : SessionStep) :
    Sound callbacks (act config session step).2.receipts ↔
      Sound callbacks session.receipts ∧ LosesNothing session step := by
  cases step with
  | call request =>
      have sameReceipts :
          (session.begin request).receipts = session.receipts := by
        rcases begin_cases session request with unchanged | begun
        · rw [unchanged]
        · rw [begun.2]
      rw [act, sameReceipts]
      exact (and_iff_left trivial).symm
  | run input =>
      rw [act]
      rcases run_cases config session input with unchanged | moved
      · obtain ⟨isSame, waits⟩ := unchanged
        rw [isSame]
        refine (and_iff_left ?_).symm
        intro call made stored stores unheld
        obtain ⟨_, auto, inserting⟩ := of_stores stores
        have taken := (isSome_turn_inserting config session.manager stored.2
          auto input).mpr unheld
        rw [← inserting, waits call.1 call.2 made] at taken
        cases taken
      · obtain ⟨request, task, turned, made, taken, isRun⟩ := moved
        have move := (accounted.transfers made taken).2
        rw [isRun]
        refine (Custody.Keeper.sound_move_iff accounted.tracked move).trans
          (and_congr_right fun _ => ?_)
        constructor
        · intro allowed call isCall stored stores _
          cases Option.some.inj (made.symm.trans isCall)
          have replaceable := allowed stored stores
          rw [(of_stores stores).1] at replaceable
          exact replaceable
        · intro losesNothing stored stores
          obtain ⟨ownId, auto, inserting⟩ := of_stores stores
          rw [ownId]
          apply losesNothing (request, task) made stored stores
          rw [inserting] at taken
          exact (isSome_turn_inserting config session.manager stored.2 auto
            input).mp (by rw [taken]; rfl)

theorem accounted_new : Accounted .new where
  keyed := by
    intro id resource found
    cases found
  tracked :=
    { stored := by
        intro id resource found
        cases found
      inHand := by
        intro id resource inHand
        cases inHand
      settled := by
        intro id receipt issued
        cases issued }
  clearing := by
    intro task isCall
    cases isCall

theorem sound_final_iff (config : Config) (steps : List SessionStep) :
    Sound callbacks (Trace.final (act config) .new steps).receipts ↔
      Sound callbacks Session.new.receipts ∧
        Trace.Along (act config) LosesNothing .new steps := by
  refine Trace.final_iff_along
    (fun session => Sound callbacks session.receipts) ?_ ?_ steps accounted_new
  · intro session step accounted
    exact accounted.act config step
  · intro session step accounted
    exact sound_act_iff accounted config step

/-- When `cleanup_all` returns, every resource that was ever registered has
had its callback run exactly once, and no resource and no memory is left,
exactly when no registration on the way lost a callback. -/
theorem released_once_iff (config : Config) (steps : List SessionStep)
    (answer : Answer)
    (returned : (Trace.final (act config) .new steps).call =
      some (.cleanupAll, .returned answer)) :
    (UsedOnce callbacks (Trace.final (act config) .new steps).receipts ∧
      (Trace.final (act config) .new steps).manager.resources = ∅ ∧
        totalMemory config.overflow
          (Trace.final (act config) .new steps).manager.resources = some 0) ↔
      Trace.Along (act config) LosesNothing .new steps := by
  have accounted : Accounted (Trace.final (act config) .new steps) := by
    refine Trace.final_invariant ?_ steps accounted_new
    intro session step accounted
    exact accounted.act config step
  have empty : (Trace.final (act config) .new steps).manager.resources = ∅ := by
    cases accounted.clearing _ returned with
    | returned covers => exact covers.resources_eq
  have free : (Trace.final (act config) .new steps).keeper.hand = none := by
    rw [Session.keeper, keeperOf, Session.inHand, returned]
    rfl
  have nothingHeld :
      ∀ id, (Trace.final (act config) .new steps).keeper.held id = none := by
    intro id
    rw [Session.keeper, keeperOf, empty]
    rfl
  calc
    _ ↔ UsedOnce callbacks (Trace.final (act config) .new steps).receipts := by
      rw [empty]
      exact and_iff_left ⟨rfl, rfl⟩
    _ ↔ Sound callbacks (Trace.final (act config) .new steps).receipts :=
      Custody.Keeper.usedOnce_iff_sound accounted.tracked free nothingHeld
    _ ↔ Sound callbacks Session.new.receipts ∧
        Trace.Along (act config) LosesNothing .new steps :=
      sound_final_iff config steps
    _ ↔ Trace.Along (act config) LosesNothing .new steps :=
      and_iff_right ⟨nofun, nofun⟩

def openBuffer (id : String) : ResourceInfo :=
  { ResourceInfo.new id .buffer 16 0 with hasCleanupCallback := true }

def bySession (request : Request) : List SessionStep :=
  .call request :: List.replicate 16 (.run ⟨0, 0, some (.ok ())⟩)

/-- Two buffers are registered, one of them is cleaned up by its id. -/
theorem released_once_two_buffers :
    UsedOnce callbacks (Trace.final (act ⟨.default, true, .checked⟩) .new
      (bySession (.registerResource (openBuffer "a")) ++
        bySession (.registerResource (openBuffer "b")) ++
          bySession (.cleanupResource "a") ++
            bySession .cleanupAll)).receipts :=
  ((released_once_iff ⟨.default, true, .checked⟩ _ .done
    (by decide +kernel)).mpr (by decide +kernel)).1

/-- A buffer is registered under the id of another: the first callback never
runs. -/
theorem replaced_buffer_is_not_released :
    (Trace.final (act ⟨.default, true, .checked⟩) .new
      (bySession (.registerResource (openBuffer "a")) ++
        bySession (.registerResource (openBuffer "a")) ++
          bySession .cleanupAll)).call =
        some (.cleanupAll, .returned .done) ∧
      ¬ UsedOnce callbacks (Trace.final (act ⟨.default, true, .checked⟩) .new
        (bySession (.registerResource (openBuffer "a")) ++
          bySession (.registerResource (openBuffer "a")) ++
            bySession .cleanupAll)).receipts := by
  refine ⟨by decide +kernel, ?_⟩
  intro usedOnce
  have lost := usedOnce ⟨(openBuffer "a").access 0, 0⟩
    (Or.inl (by decide +kernel)) rfl
  cases lost

end NyxNet.Resources
