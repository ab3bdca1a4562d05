import NyxNet.Daemon.EventQueue
import NyxNet.Lib.OrderedMap

/-!
# Subscribers of the event system

The bookkeeping of subscribers in `nyx-daemon/src/event_system.rs`.  A clone of
the subscriber does the sending, so the stored record keeps the time of its
subscription, counts no error and stays active.  Cleanup therefore goes by the
age of a subscription, and a dead one is tried for as long as it is stored.
-/

namespace NyxNet.EventSubscribers

open Events (Event InternalEventFilter)

/-- A subscriber; its sender is known by the number of the channel. -/
structure EventSubscriber where
  id : String
  filter : InternalEventFilter
  sender : Nat
  errorCount : UInt32
  lastError : Option String
  lastActivity : SystemTime
  isActive : Bool
  deriving DecidableEq

namespace EventSubscriber

def new (id : String) (filter : InternalEventFilter) (sender : Nat)
    (now : SystemTime) : EventSubscriber where
  id := id
  filter := filter
  sender := sender
  errorCount := 0
  lastError := none
  lastActivity := now
  isActive := true

/-- `send_event` on a channel whose receiver may be gone. -/
def sendEvent (subscriber : EventSubscriber) (gone : Bool)
    (now : SystemTime) : Except String Unit × EventSubscriber :=
  if ¬ subscriber.isActive then
    (.error "Subscriber is inactive", subscriber)
  else if gone then
    let errorCount := subscriber.errorCount + 1
    (.error ("Failed to send event to subscriber " ++ subscriber.id ++
        ": channel closed"),
      { subscriber with
        errorCount := errorCount
        lastError := some "channel closed"
        isActive := if 10 < errorCount then false else subscriber.isActive })
  else
    (.ok (), { subscriber with lastActivity := now })

end EventSubscriber

/-- One subscription: an id and the channel it was given. -/
abbrev Subscription : Type := String × Nat

structure EventSystem where
  subscribers : Std.ExtTreeMap String EventSubscriber compare
  /-- The channels whose receiver is gone. -/
  gone : List Nat
  nextChannel : Nat

namespace EventSystem

def new : EventSystem := ⟨∅, [], 0⟩

/-- One turn of the loop of `distribute_event`: whether the subscriber is tried,
and whether the event is delivered.  The sending ends at its first poll, so that
the timeout around it never strikes. -/
def deliver (system : EventSystem) (event : Event) (now : SystemTime)
    (entry : String × EventSubscriber) : Option (Subscription × Bool) :=
  let subscriber := entry.2
  if ¬ subscriber.isActive then
    none
  else if subscriber.filter.matches event then
    let subscriberClone := subscriber
    let sendResult :=
      (subscriberClone.sendEvent (system.gone.contains subscriber.sender)
        now).1
    some ((entry.1, subscriber.sender), sendResult.isOk)
  else
    none

/-- The deliveries that `distribute_event` tries. -/
def distributeEvent (system : EventSystem) (event : Event)
    (now : SystemTime) : List (Subscription × Bool) :=
  system.subscribers.toList.filterMap (system.deliver event now)

def inactiveAfter : Duration := Duration.fromSecs 3600

/-- What `retain` keeps in `cleanup_inactive_subscribers`. -/
def retains (cutoffTime : SystemTime) (subscriber : EventSubscriber) : Bool :=
  ¬ (¬ subscriber.isActive ∨
    subscriber.lastActivity.asNanos < cutoffTime.asNanos)

end EventSystem

/-- A call, or the end of a receiver. -/
inductive Step where
  | subscribe (subscriberId : String) (filter : InternalEventFilter)
      (now : SystemTime)
  | unsubscribe (subscriberId : String)
  | dropReceiver (channel : Nat)
  | distributeEvent (event : Event) (now : SystemTime)
  | cleanupInactiveSubscribers (now : SystemTime)

inductive Reply where
  | done
  | subscribed (receiver : Nat)
  | distributed (attempts : List (Subscription × Bool))
  | cleaned (removedCount : Nat)
  | panicked

/-- The deliveries tried in a step, each with its success. -/
def Reply.attempts : Reply → List (Subscription × Bool)
  | .distributed attempts => attempts
  | .done | .subscribed _ | .cleaned _ | .panicked => []

/-- Cleanup panics before it takes the lock when the time has no hour before
it. -/
def perform (system : EventSystem) : Step → Reply × EventSystem
  | .subscribe subscriberId filter now =>
      (.subscribed system.nextChannel,
        { system with
          subscribers := system.subscribers.insert subscriberId
            (.new subscriberId filter system.nextChannel now)
          nextChannel := system.nextChannel + 1 })
  | .unsubscribe subscriberId =>
      (.done,
        { system with subscribers := system.subscribers.erase subscriberId })
  | .dropReceiver channel =>
      (.done, { system with gone := channel :: system.gone })
  | .distributeEvent event now =>
      (.distributed (system.distributeEvent event now), system)
  | .cleanupInactiveSubscribers now =>
      match now.checkedSub EventSystem.inactiveAfter with
      | none => (.panicked, system)
      | some cutoffTime =>
          let kept := system.subscribers.filter
            (fun _ => EventSystem.retains cutoffTime)
          (.cleaned (system.subscribers.size - kept.size),
            { system with subscribers := kept })

abbrev Past : Type := List (Step × Reply)

/-- The failed deliveries of a subscription. -/
def failedDeliveries (past : Past) (subscription : Subscription) : Nat :=
  past.countP (fun entry => (subscription, false) ∈ entry.2.attempts)

/-- An event was delivered at that time. -/
def DeliveredAt (subscription : Subscription) (time : SystemTime)
    (entry : Step × Reply) : Prop :=
  (∃ event, entry.1 = .distributeEvent event time) ∧
    (subscription, true) ∈ entry.2.attempts

/-- An event was delivered at or after the given time. -/
def DeliveredSince (past : Past) (subscription : Subscription)
    (cutoffTime : SystemTime) : Prop :=
  ∃ entry ∈ past, ∃ time, DeliveredAt subscription time entry ∧
    cutoffTime.asNanos ≤ time.asNanos

/-- Every stored subscriber is active, and the channels given so far have
numbers below the next one. -/
structure Kept (past : Past) (system : EventSystem) : Prop where
  active : ∀ (subscriberId : String) (subscriber : EventSubscriber),
    system.subscribers[subscriberId]? = some subscriber →
      subscriber.isActive = true
  tried : ∀ entry ∈ past, ∀ attempt ∈ entry.2.attempts,
    attempt.1.2 < system.nextChannel
  given : ∀ (subscriberId : String) (subscriber : EventSubscriber),
    system.subscribers[subscriberId]? = some subscriber →
      subscriber.sender < system.nextChannel

theorem isOk_sendEvent {subscriber : EventSubscriber}
    (active : subscriber.isActive = true) (gone : Bool) (now : SystemTime) :
    (subscriber.sendEvent gone now).1.isOk = !gone := by
  unfold EventSubscriber.sendEvent
  rw [if_neg (not_not.mpr active)]
  cases gone with
  | true => rfl
  | false => rfl

theorem deliver_eq_some_iff {system : EventSystem} {event : Event}
    {now : SystemTime} {entry : String × EventSubscriber}
    {attempt : Subscription × Bool} :
    system.deliver event now entry = some attempt ↔
      entry.2.isActive = true ∧ entry.2.filter.matches event = true ∧
        attempt = ((entry.1, entry.2.sender),
          !system.gone.contains entry.2.sender) := by
  unfold EventSystem.deliver
  dsimp only
  by_cases active : entry.2.isActive = true
  · rw [if_neg (not_not.mpr active), isOk_sendEvent active]
    by_cases isMatch : entry.2.filter.matches event = true
    · rw [if_pos isMatch, Option.some.injEq, and_iff_right active,
        and_iff_right isMatch]
      exact eq_comm
    · simp [isMatch]
  · simp [active]

/-- What is tried: the active subscribers whose filter lets the event pass. -/
theorem mem_distributeEvent {system : EventSystem} {event : Event}
    {now : SystemTime} {subscription : Subscription} {delivered : Bool} :
    (subscription, delivered) ∈ system.distributeEvent event now ↔
      ∃ subscriber, system.subscribers[subscription.1]? = some subscriber ∧
        subscriber.sender = subscription.2 ∧ subscriber.isActive = true ∧
        subscriber.filter.matches event = true ∧
        delivered = !system.gone.contains subscriber.sender := by
  unfold EventSystem.distributeEvent
  rw [List.mem_filterMap]
  constructor
  · intro tried
    obtain ⟨⟨subscriberId, subscriber⟩, stored, delivers⟩ := tried
    have found := Std.ExtTreeMap.mem_toList_iff_getElem?_eq_some.mp stored
    obtain ⟨active, isMatch, same⟩ := deliver_eq_some_iff.mp delivers
    cases same
    exact ⟨subscriber, found, rfl, active, isMatch, rfl⟩
  · intro tried
    obtain ⟨subscriber, found, sender, active, isMatch, result⟩ := tried
    refine ⟨(subscription.1, subscriber),
      Std.ExtTreeMap.mem_toList_iff_getElem?_eq_some.mpr found, ?_⟩
    apply deliver_eq_some_iff.mpr
    refine ⟨active, isMatch, ?_⟩
    rw [result, sender]

/-- Subscribers leave the table in every step but a subscription, which adds a
record that is active. -/
theorem stored_of_perform {system : EventSystem} {step : Step}
    {subscriberId : String} {subscriber : EventSubscriber}
    (found : (perform system step).2.subscribers[subscriberId]? =
      some subscriber) :
    system.subscribers[subscriberId]? = some subscriber ∨
      ∃ filter now, step = .subscribe subscriberId filter now ∧
        subscriber =
          .new subscriberId filter system.nextChannel now := by
  cases step with
  | subscribe other filter now =>
      rcases OrderedMap.lookup_insert_cases found with ⟨same, isNew⟩ | kept
      · right
        rw [same, isNew]
        exact ⟨filter, now, rfl, rfl⟩
      · exact Or.inl kept.2
  | unsubscribe other => exact Or.inl (OrderedMap.lookup_of_erase found).2
  | dropReceiver channel => exact Or.inl found
  | distributeEvent event now => exact Or.inl found
  | cleanupInactiveSubscribers now =>
      left
      unfold perform at found
      dsimp only at found
      split at found
      · exact found
      · rw [Std.ExtTreeMap.getElem?_filter'] at found
        exact (Option.filter_eq_some_iff.mp found).1

theorem nextChannel_le (system : EventSystem) (step : Step) :
    system.nextChannel ≤ (perform system step).2.nextChannel := by
  cases step with
  | subscribe subscriberId filter now => exact Nat.le_succ _
  | unsubscribe subscriberId => exact Nat.le_refl _
  | dropReceiver channel => exact Nat.le_refl _
  | distributeEvent event now => exact Nat.le_refl _
  | cleanupInactiveSubscribers now =>
      unfold perform
      dsimp only
      split <;> exact Nat.le_refl _

theorem attempts_eq_nil {system : EventSystem} {step : Step}
    (quiet : ∀ event now, step ≠ .distributeEvent event now) :
    (perform system step).1.attempts = [] := by
  cases step with
  | subscribe subscriberId filter now => rfl
  | unsubscribe subscriberId => rfl
  | dropReceiver channel => rfl
  | distributeEvent event now => exact absurd rfl (quiet event now)
  | cleanupInactiveSubscribers now =>
      unfold perform
      dsimp only
      split <;> rfl

theorem kept_perform (past : Past) (system : EventSystem) (step : Step)
    (kept : Kept past system) :
    Kept (past ++ [(step, (perform system step).1)])
      (perform system step).2 := by
  have grows := nextChannel_le system step
  constructor
  · intro subscriberId subscriber found
    rcases stored_of_perform found with old | ⟨filter, now, _, isNew⟩
    · exact kept.active subscriberId subscriber old
    · rw [isNew]
      rfl
  · intro entry member attempt tried
    rcases List.mem_append.mp member with earlier | last
    · exact Nat.lt_of_lt_of_le (kept.tried entry earlier attempt tried) grows
    · rw [List.mem_singleton.mp last] at tried
      apply Nat.lt_of_lt_of_le _ grows
      cases step with
      | distributeEvent event now =>
          obtain ⟨subscription, delivered⟩ := attempt
          obtain ⟨subscriber, found, sender, _⟩ :=
            mem_distributeEvent.mp tried
          rw [← sender]
          exact kept.given subscription.1 subscriber found
      | _ =>
          rw [attempts_eq_nil (by simp)] at tried
          cases tried
  · intro subscriberId subscriber found
    rcases stored_of_perform found with old | ⟨filter, now, isCall, isNew⟩
    · exact Nat.lt_of_lt_of_le (kept.given subscriberId subscriber old) grows
    · rw [isNew, isCall]
      exact Nat.lt_succ_self _

theorem kept_run (steps : List Step) :
    Kept (Trace.history perform .new steps)
      (Trace.final perform .new steps) := by
  apply Trace.invariant
  · refine ⟨?_, ?_, ?_⟩
    · intro subscriberId subscriber found
      simp [EventSystem.new] at found
    · intro entry member
      cases member
    · intro subscriberId subscriber found
      simp [EventSystem.new] at found
  · exact kept_perform

/-- The subscription is in the table before and not after. -/
def Removed (before after : EventSystem) (subscription : Subscription) :
    Prop :=
  (∃ subscriber, before.subscribers[subscription.1]? = some subscriber ∧
      subscriber.sender = subscription.2) ∧
    after.subscribers[subscription.1]? = none

/-- No subscription to which an event was delivered within the last hour is
removed. -/
def SparesRecent (past : Past) (system : EventSystem) (now : SystemTime) :
    Prop :=
  ∀ cutoffTime, now.checkedSub EventSystem.inactiveAfter = some cutoffTime →
    ∀ subscription,
      Removed system (perform system (.cleanupInactiveSubscribers now)).2
        subscription →
        ¬ DeliveredSince past subscription cutoffTime

/-- Whoever subscribed more than an hour ago has got nothing within the last
hour. -/
def OldAreIdle (past : Past) (system : EventSystem) (now : SystemTime) :
    Prop :=
  ∀ cutoffTime, now.checkedSub EventSystem.inactiveAfter = some cutoffTime →
    ∀ (subscriberId : String) (subscriber : EventSubscriber),
      system.subscribers[subscriberId]? = some subscriber →
        subscriber.lastActivity.asNanos < cutoffTime.asNanos →
          ¬ DeliveredSince past (subscriberId, subscriber.sender) cutoffTime

theorem sparesRecent_iff {past : Past} {system : EventSystem}
    (kept : Kept past system) (now : SystemTime) :
    SparesRecent past system now ↔ OldAreIdle past system now := by
  refine forall₂_congr ?_
  intro cutoffTime inRange
  have after (subscriberId : String) :
      (perform system (.cleanupInactiveSubscribers now)).2.subscribers[
          subscriberId]? =
        (system.subscribers[subscriberId]?).filter
          (EventSystem.retains cutoffTime) := by
    unfold perform
    simp only [inRange]
    exact Std.ExtTreeMap.getElem?_filter'
  constructor
  · intro spares subscriberId subscriber found old
    apply spares (subscriberId, subscriber.sender)
    refine ⟨⟨subscriber, found, rfl⟩, ?_⟩
    rw [after, found]
    simp [EventSystem.retains, old]
  · intro idle subscription removed
    obtain ⟨⟨subscriber, found, sender⟩, gone⟩ := removed
    obtain ⟨subscriberId, channel⟩ := subscription
    obtain rfl : subscriber.sender = channel := sender
    rw [after, found] at gone
    have dropped : ¬ EventSystem.retains cutoffTime subscriber = true := by
      simpa [Option.filter_eq_none_iff] using gone
    have active := kept.active subscriberId subscriber found
    apply idle subscriberId subscriber found
    simpa [EventSystem.retains, active] using dropped

/-- A stored subscriber with more than ten failed deliveries is inactive. -/
def DeadAreInactive (past : Past) (system : EventSystem) : Prop :=
  ∀ (subscriberId : String) (subscriber : EventSubscriber),
    system.subscribers[subscriberId]? = some subscriber →
      10 < failedDeliveries past (subscriberId, subscriber.sender) →
        subscriber.isActive = false

/-- No subscriber with more than ten failed deliveries is tried. -/
def DeadAreNotTried (past : Past) (system : EventSystem) (event : Event)
    (now : SystemTime) : Prop :=
  ∀ attempt ∈ (perform system (.distributeEvent event now)).1.attempts,
    failedDeliveries past attempt.1 ≤ 10

/-- Every subscriber whose receiver is gone and whose filter lets the event pass
has fewer than ten failed deliveries so far. -/
def FewFailures (past : Past) (system : EventSystem) (event : Event) : Prop :=
  ∀ (subscriberId : String) (subscriber : EventSubscriber),
    system.subscribers[subscriberId]? = some subscriber →
      subscriber.sender ∈ system.gone →
        subscriber.filter.matches event = true →
          failedDeliveries past (subscriberId, subscriber.sender) < 10

/-- The step removes nobody who got an event within the last hour after an
earlier subscription, and makes no eleventh delivery fail. -/
def Harmless (past : Past) (system : EventSystem) : Step → Prop
  | .cleanupInactiveSubscribers now => OldAreIdle past system now
  | .distributeEvent event _ => FewFailures past system event
  | .subscribe .. => True
  | .unsubscribe _ => True
  | .dropReceiver _ => True

theorem failedDeliveries_concat (past : Past) (entry : Step × Reply)
    (subscription : Subscription) :
    failedDeliveries (past ++ [entry]) subscription =
      failedDeliveries past subscription +
        if (subscription, false) ∈ entry.2.attempts then 1 else 0 := by
  unfold failedDeliveries
  rw [List.countP_append, List.countP_singleton]
  simp only [decide_eq_true_eq]

/-- Nothing has been tried yet on a channel that is not given out. -/
theorem failedDeliveries_next {past : Past} {system : EventSystem}
    (kept : Kept past system) (subscriberId : String) :
    failedDeliveries past (subscriberId, system.nextChannel) = 0 := by
  unfold failedDeliveries
  rw [List.countP_eq_zero]
  intro entry member tried
  have below := kept.tried entry member _ (of_decide_eq_true tried)
  exact Nat.lt_irrefl _ below

section Deaths

variable {past : Past} {system : EventSystem}

theorem fewFailures_of_inactive (kept : Kept past system) {event : Event}
    {now : SystemTime}
    (inactive : DeadAreInactive
      (past ++ [(.distributeEvent event now,
        .distributed (system.distributeEvent event now))]) system) :
    FewFailures past system event := by
  intro subscriberId subscriber found gone isMatch
  have active := kept.active subscriberId subscriber found
  have fails : ((subscriberId, subscriber.sender), false) ∈
      system.distributeEvent event now := by
    apply mem_distributeEvent.mpr
    refine ⟨subscriber, found, rfl, active, isMatch, ?_⟩
    simp [gone]
  by_contra many
  have dead := inactive subscriberId subscriber found
  rw [failedDeliveries_concat, Reply.attempts, if_pos fails, active] at dead
  have notDead := dead (by omega)
  cases notDead

theorem deadAreInactive_perform (kept : Kept past system)
    (inactive : DeadAreInactive past system) (step : Step)
    (harmless : Harmless past system step) :
    DeadAreInactive (past ++ [(step, (perform system step).1)])
      (perform system step).2 := by
  intro subscriberId subscriber found dead
  rw [failedDeliveries_concat] at dead
  rcases stored_of_perform found with old | ⟨filter, now, isCall, isNew⟩
  · by_cases fails : ((subscriberId, subscriber.sender), false) ∈
        (perform system step).1.attempts
    · rw [if_pos fails] at dead
      cases step with
      | distributeEvent event now =>
          obtain ⟨other, foundOther, _, _, isMatch, gone⟩ :=
            mem_distributeEvent.mp fails
          rw [old] at foundOther
          cases foundOther
          have few := harmless subscriberId subscriber old
            (by simpa using gone) isMatch
          omega
      | _ =>
          rw [attempts_eq_nil (by simp)] at fails
          cases fails
    · rw [if_neg fails] at dead
      exact inactive subscriberId subscriber old dead
  · rw [attempts_eq_nil (by simp [isCall]), isNew] at dead
    simp only [EventSubscriber.new, failedDeliveries_next kept,
      List.not_mem_nil, if_false] at dead
    omega

theorem deadAreNotTried_of_inactive (inactive : DeadAreInactive past system)
    (event : Event) (now : SystemTime) :
    DeadAreNotTried past system event now := by
  intro attempt tried
  obtain ⟨⟨subscriberId, channel⟩, delivered⟩ := attempt
  obtain ⟨subscriber, found, sender, active, _⟩ :=
    mem_distributeEvent.mp tried
  by_contra many
  have dead := inactive subscriberId subscriber found
  rw [sender, active] at dead
  have notDead := dead (Nat.not_le.mp many)
  cases notDead

end Deaths

/-- In every run cleanup spares whoever got an event within the last hour, and
subscribers with more than ten failed deliveries are inactive and not tried,
exactly when no step of the run does harm. -/
theorem bookkeeping_follows_deliveries_iff (steps : List Step) :
    ((∀ before now, before ++ [.cleanupInactiveSubscribers now] <+: steps →
          SparesRecent (Trace.history perform .new before)
            (Trace.final perform .new before) now) ∧
        (∀ before, before <+: steps →
          DeadAreInactive (Trace.history perform .new before)
            (Trace.final perform .new before)) ∧
        ∀ before event now,
          before ++ [.distributeEvent event now] <+: steps →
            DeadAreNotTried (Trace.history perform .new before)
              (Trace.final perform .new before) event now) ↔
      ∀ before step, before ++ [step] <+: steps →
        Harmless (Trace.history perform .new before)
          (Trace.final perform .new before) step := by
  constructor
  · intro follows
    obtain ⟨spares, inactive, _⟩ := follows
    intro before step isPrefix
    have kept := kept_run before
    cases step with
    | cleanupInactiveSubscribers now =>
        exact (sparesRecent_iff kept now).mp (spares before now isPrefix)
    | distributeEvent event now =>
        have after := inactive _ isPrefix
        rw [Trace.history_append, Trace.final_append] at after
        exact fewFailures_of_inactive kept after
    | subscribe subscriberId filter now => trivial
    | unsubscribe subscriberId => trivial
    | dropReceiver channel => trivial
  · intro harmless
    have inactive : ∀ before, before <+: steps →
        DeadAreInactive (Trace.history perform .new before)
          (Trace.final perform .new before) := by
      intro before isPrefix
      induction before using List.reverseRecOn with
      | nil =>
          intro subscriberId subscriber found
          simp [Trace.final, EventSystem.new] at found
      | append_singleton before step ih =>
          rw [Trace.history_append, Trace.final_append]
          apply deadAreInactive_perform (kept_run before)
          · exact ih ((List.prefix_append before [step]).trans isPrefix)
          · exact harmless before step isPrefix
    refine ⟨?_, inactive, ?_⟩
    · intro before now isPrefix
      exact (sparesRecent_iff (kept_run before) now).mpr
        (harmless before _ isPrefix)
    · intro before event now isPrefix
      apply deadAreNotTried_of_inactive
      exact inactive before ((List.prefix_append before _).trans isPrefix)

theorem failedDeliveries_append (first second : Past)
    (subscription : Subscription) :
    failedDeliveries (first ++ second) subscription =
      failedDeliveries first subscription +
        failedDeliveries second subscription :=
  List.countP_append

/-- Distribution changes nothing, so a delivery that fails once fails every
time. -/
theorem repeated_failures {system : EventSystem} {event : Event}
    {now : SystemTime} {subscription : Subscription}
    (fails : (subscription, false) ∈ system.distributeEvent event now)
    (count : Nat) :
    Trace.final perform system
        (List.replicate count (.distributeEvent event now)) = system ∧
      failedDeliveries
        (Trace.history perform system
          (List.replicate count (.distributeEvent event now)))
        subscription = count := by
  induction count with
  | zero => exact ⟨rfl, rfl⟩
  | succ count ih =>
      obtain ⟨unchanged, counted⟩ := ih
      rw [List.replicate_succ', Trace.final_append, Trace.history_append,
        unchanged]
      refine ⟨rfl, ?_⟩
      rw [Trace.history, failedDeliveries_append, counted]
      simp [Trace.history, failedDeliveries, perform, Reply.attempts, fails]

def anyEvent : InternalEventFilter where
  types := []
  streamIds := []
  severities := []
  attributes := []

def deliveryTime : SystemTime := SystemTime.ofUnixSecs 7000 (by decide)

def cleanupTime : SystemTime := SystemTime.ofUnixSecs 7200 (by decide)

/-- A system with one subscriber that takes every event. -/
def oneSubscriber (gone : List Nat) : EventSystem where
  subscribers := (∅ : Std.ExtTreeMap String EventSubscriber compare).insert
    "monitor" (.new "monitor" anyEvent 0 SystemTime.unixEpoch)
  gone := gone
  nextChannel := 1

theorem mem_distributeEvent_oneSubscriber (gone : List Nat)
    (now : SystemTime) :
    (("monitor", 0), !gone.contains 0) ∈
      (oneSubscriber gone).distributeEvent Events.criticalEvent now := by
  apply mem_distributeEvent.mpr
  refine ⟨_, Std.ExtTreeMap.getElem?_insert_self, rfl, rfl, ?_, rfl⟩
  decide

/-- An event that is delivered three minutes before the cleanup does not
save its subscriber, and eleven failed deliveries do not deactivate one. -/
theorem deliveries_are_forgotten :
    ¬ SparesRecent
        (Trace.history perform .new
          [.subscribe "monitor" anyEvent SystemTime.unixEpoch,
            .distributeEvent Events.criticalEvent deliveryTime])
        (Trace.final perform .new
          [.subscribe "monitor" anyEvent SystemTime.unixEpoch,
            .distributeEvent Events.criticalEvent deliveryTime])
        cleanupTime ∧
      ¬ DeadAreInactive
        (Trace.history perform .new
          ([.subscribe "monitor" anyEvent SystemTime.unixEpoch,
            .dropReceiver 0] ++ List.replicate 11
              (.distributeEvent Events.criticalEvent deliveryTime)))
        (Trace.final perform .new
          ([.subscribe "monitor" anyEvent SystemTime.unixEpoch,
            .dropReceiver 0] ++ List.replicate 11
              (.distributeEvent Events.criticalEvent deliveryTime))) := by
  constructor
  · intro spares
    have idle := (sparesRecent_iff (kept_run _) cleanupTime).mp spares
    have cutoff : cleanupTime.checkedSub EventSystem.inactiveAfter =
        some (SystemTime.ofUnixSecs 3600 (by decide)) := by
      decide
    refine idle _ cutoff "monitor" _ Std.ExtTreeMap.getElem?_insert_self
      (by decide) ?_
    refine ⟨(.distributeEvent Events.criticalEvent deliveryTime, _),
      List.mem_cons_of_mem _ List.mem_cons_self, deliveryTime,
      ⟨⟨_, rfl⟩, ?_⟩, by decide⟩
    exact mem_distributeEvent_oneSubscriber [] deliveryTime
  · intro inactive
    rw [Trace.history_append, Trace.final_append] at inactive
    have fails := mem_distributeEvent_oneSubscriber [0] deliveryTime
    obtain ⟨unchanged, counted⟩ := repeated_failures fails 11
    change DeadAreInactive (_ ++ Trace.history perform (oneSubscriber [0]) _)
      (Trace.final perform (oneSubscriber [0]) _) at inactive
    rw [unchanged] at inactive
    have dead := inactive "monitor" _ Std.ExtTreeMap.getElem?_insert_self
    rw [failedDeliveries_append] at dead
    have notDead := dead (Nat.lt_of_lt_of_le (by decide)
      (Nat.le_of_eq counted.symm |>.trans (Nat.le_add_left _ _)))
    cases notDead

end NyxNet.EventSubscribers
