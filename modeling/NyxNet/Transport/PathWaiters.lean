import NyxNet.Transport.PathValidation

/-!
# Waiting for a path validation

What callers of `wait_validation` can rely on: the answers they get after a
response has been processed, and whether they can be left waiting for ever.
-/

namespace NyxNet.PathValidation

open TaskPool

variable {α : Type} [DecidableEq α]

/-- Since the last insertion at the address, a matching response was
processed. -/
def Confirmed (addr : α) (events : List (Event α)) : Prop :=
  Trace.Since (fun event => ∃ data, event = .processed addr data true)
    (fun event => ∃ token, event = .inserted addr token) events

/-- Since the last insertion at the address, a retry loop has removed the
entry. -/
def Dropped (addr : α) (events : List (Event α)) : Prop :=
  Trace.Since (fun event => event = .removed addr)
    (fun event => ∃ token, event = .inserted addr token) events

/-- Every wait that ends while the address is confirmed returns `true`. -/
def AnswersStable (events : List (Event α)) : Prop :=
  ∀ before addr result after,
    events = before ++ .looked addr (some result) :: after →
      Confirmed addr before → result = true

/-- No `wait_validation` looks at the table after a retry loop has removed the
confirmed entry. -/
def LooksBeforeRemoval (past : ValidatorPast α) (pool : ValidatorPool α) :
    ValidatorAction α → Prop
  | .call _ => True
  | .run index _ =>
      ∀ addr, pool.tasks[index]? = some (.waitValidation addr .looking) →
        ¬ (Confirmed addr (events past) ∧ Dropped addr (events past))

omit [DecidableEq α] in
theorem answersStable_concat_iff {events : List (Event α)} {event : Event α} :
    AnswersStable (events ++ [event]) ↔
      AnswersStable events ∧
        ∀ addr result, event = .looked addr (some result) →
          Confirmed addr events → result = true := by
  constructor
  · intro stable
    constructor
    · intro before addr result after split confirmed
      refine stable before addr result (after ++ [event]) ?_ confirmed
      rw [split, List.append_assoc, List.cons_append]
    · intro addr result isLook confirmed
      exact stable events addr result [] (by rw [isLook]) confirmed
  · intro stable before addr result after split confirmed
    induction after using List.reverseRecOn with
    | nil =>
        obtain ⟨same, isLook⟩ := List.append_inj' split rfl
        rw [← same] at confirmed
        exact stable.2 addr result (List.singleton_inj.mp isLook) confirmed
    | append_singleton after last _ =>
        rw [← List.cons_append, ← List.append_assoc] at split
        exact stable.1 before addr result after (List.append_inj' split rfl).1
          confirmed

/-- What the marks say about the table: a dropped entry is gone, and a
confirmed one that is not dropped is there and validated. -/
def TableTold (events : List (Event α)) (validator : Validator α) : Prop :=
  ∀ addr, (Dropped addr events → validator.entries addr = none) ∧
    (Confirmed addr events → ¬ Dropped addr events →
      ∃ entry, validator.entries addr = some entry ∧ entry.validated = true)

omit [DecidableEq α] in
/-- A turn that neither marks an address nor touches its validated entry keeps
what the marks say. -/
theorem TableTold.kept {events : List (Event α)} {validator : Validator α}
    (told : TableTold events validator) {turn : ValidatorTurn α} {addr : α}
    (notProcessed : ∀ data, turn.event ≠ .processed addr data true)
    (notRemoved : turn.event ≠ .removed addr)
    (absent : validator.entries addr = none →
      turn.shared.entries addr = none)
    (present : ∀ entry, validator.entries addr = some entry →
      entry.validated = true → turn.shared.entries addr = some entry) :
    (Dropped addr (events ++ [turn.event]) →
        turn.shared.entries addr = none) ∧
      (Confirmed addr (events ++ [turn.event]) →
        ¬ Dropped addr (events ++ [turn.event]) →
          ∃ entry, turn.shared.entries addr = some entry ∧
            entry.validated = true) := by
  rw [Dropped, Confirmed, Trace.since_concat_iff, Trace.since_concat_iff]
  constructor
  · intro dropped
    rcases dropped with now | before
    · exact absurd now notRemoved
    · exact absent ((told addr).1 before.1)
  · intro confirmed notDropped
    rcases confirmed with now | before
    · obtain ⟨data, isProcessed⟩ := now
      exact absurd isProcessed (notProcessed data)
    · have stays : ¬ Dropped addr events := fun dropped =>
        notDropped (Or.inr ⟨dropped, before.2⟩)
      obtain ⟨entry, found, validated⟩ := (told addr).2 before.1 stays
      exact ⟨entry, present entry found validated, validated⟩

omit [DecidableEq α] in
/-- `TableTold.kept` for a turn that leaves the address alone. -/
theorem TableTold.untouched {events : List (Event α)}
    {validator : Validator α} (told : TableTold events validator)
    {turn : ValidatorTurn α} {addr : α}
    (notProcessed : ∀ data, turn.event ≠ .processed addr data true)
    (notRemoved : turn.event ≠ .removed addr)
    (same : turn.shared.entries addr = validator.entries addr) :
    (Dropped addr (events ++ [turn.event]) →
        turn.shared.entries addr = none) ∧
      (Confirmed addr (events ++ [turn.event]) →
        ¬ Dropped addr (events ++ [turn.event]) →
          ∃ entry, turn.shared.entries addr = some entry ∧
            entry.validated = true) := by
  apply told.kept notProcessed notRemoved
  · intro absent
    exact same.trans absent
  · intro entry found _
    exact same.trans found

theorem tableTold_step {events : List (Event α)} {validator : Validator α}
    (told : TableTold events validator) {task : Task α} {input : Token}
    {turn : ValidatorTurn α} (step : TaskStep validator task input turn) :
    TableTold (events ++ [turn.event]) turn.shared := by
  intro addr
  cases step with
  | inserted other input =>
      by_cases here : other = addr
      · -- The insertion clears both marks.
        rw [Dropped, Confirmed, Trace.since_concat_iff,
          Trace.since_concat_iff]
        simp [here]
      · apply told.untouched
        · simp
        · simp
        · simp [Ne.symm here]
  | retried other input old oldPresent pending left =>
      apply told.kept
      · simp
      · simp
      · intro absent
        have different : addr ≠ other := by
          intro same
          rw [same, oldPresent] at absent
          cases absent
        simp [different, absent]
      · intro entry found validated
        have different : addr ≠ other := by
          intro same
          rw [same, oldPresent] at found
          cases found
          rw [pending] at validated
          cases validated
        simp [different, found]
  | removed other input =>
      by_cases here : other = addr
      · rw [Dropped, Confirmed, Trace.since_concat_iff,
          Trace.since_concat_iff]
        simp [here]
      · apply told.untouched
        · simp
        · simp [here]
        · simp [Ne.symm here]
  | matched src input data old response oldPresent =>
      by_cases here : src = addr
      · rw [here] at oldPresent
        have notDropped : ¬ Dropped addr events := by
          intro dropped
          rw [(told addr).1 dropped] at oldPresent
          cases oldPresent
        rw [Dropped] at notDropped
        rw [Dropped, Trace.since_concat_iff]
        simp [here, notDropped]
      · apply told.untouched
        · simp [here]
        · simp
        · simp [Ne.symm here]
  | checked | challenged | foundNothing | foundValidated | foundExhausted
  | rechallenged | finished | keptWaiting | registered | woken | unmatched
  | responded =>
      apply told.untouched
      · simp
      · simp
      · rfl

theorem tableTold_run (actions : List (ValidatorAction α)) :
    TableTold (events (validatorHistory actions))
      (validatorFinal actions).shared := by
  refine invariant_on (fun _ => True)
    (fun past (pool : ValidatorPool α) =>
      TableTold (events past) pool.shared) ?_ ?_ ?_ ?_ actions
    (fun _ _ => trivial)
  · intro addr
    exact ⟨fun dropped => absurd dropped (Trace.not_since_nil _ _),
      fun confirmed => absurd confirmed (Trace.not_since_nil _ _)⟩
  · intro past pool index input told
    rw [events_append_none]
    exact told
  · intro past pool request _ told
    rw [events_append_none]
    exact told
  · intro past pool index input task turn _ _ taken told
    rw [events_append_some]
    exact tableTold_step told (taskTurn_step taken)

omit [DecidableEq α] in
/-- The look at a confirmed address finds its validated entry unless the entry
was dropped. -/
theorem right_answer_iff {events : List (Event α)} {validator : Validator α}
    (told : TableTold events validator) {addr : α} {result : Bool}
    (found : match validator.entries addr with
      | none => result = false
      | some entry => entry.validated = result ∧
          (result = false → entry.retriesLeft = 0)) :
    (Confirmed addr events → result = true) ↔
      ¬ (Confirmed addr events ∧ Dropped addr events) := by
  constructor
  · intro answer marks
    rw [(told addr).1 marks.2] at found
    rw [answer marks.1] at found
    cases found
  · intro notBoth confirmed
    obtain ⟨entry, present, validated⟩ :=
      (told addr).2 confirmed (fun dropped => notBoth ⟨confirmed, dropped⟩)
    rw [present] at found
    rw [← found.1]
    exact validated

theorem looking_moves (validator : Validator α) (addr : α) (input : Token) :
    taskTurn validator (.waitValidation addr .looking) input ≠ none := by
  simp only [taskTurn, waitValidationTurn]
  split
  · exact Option.some_ne_none _
  · split
    · exact Option.some_ne_none _
    · split
      · exact Option.some_ne_none _
      · exact Option.some_ne_none _

/-- A wait ends with the right answer exactly when the confirmed entry has not
been removed before it looks. -/
theorem answersStable_perform_iff (past : ValidatorPast α)
    (pool : ValidatorPool α) (action : ValidatorAction α)
    (told : TableTold (events past) pool.shared)
    (stable : AnswersStable (events past)) :
    AnswersStable
        (events (past ++ [(action, (perform validatorProgram pool action).1)])) ↔
      LooksBeforeRemoval past pool action := by
  have moved := perform_moved validatorProgram pool action
  generalize perform validatorProgram pool action = outcome at moved ⊢
  cases moved with
  | called request =>
      rw [events_append_none]
      exact iff_of_true stable trivial
  | waited index input blocked =>
      rw [events_append_none]
      refine iff_of_true stable ?_
      intro addr present
      exact absurd (blocked _ present) (looking_moves pool.shared addr input)
  | turned index input task turn present taken =>
      rw [events_append_some, answersStable_concat_iff]
      have step := taskTurn_step taken
      cases step with
      | finished addr input result found =>
          have exactly := right_answer_iff told found
          constructor
          · intro answers other waiting
            rw [present] at waiting
            cases waiting
            exact exactly.mp (answers.2 addr result rfl)
          · intro looks
            refine ⟨stable, ?_⟩
            intro other result' same
            cases same
            exact exactly.mpr (looks addr present)
      | keptWaiting addr input entry entryPresent pending left =>
          refine iff_of_true ⟨stable, by simp⟩ ?_
          intro other waiting marks
          rw [present] at waiting
          cases waiting
          rw [(told addr).1 marks.2] at entryPresent
          cases entryPresent
      | checked | inserted | challenged | foundNothing | foundValidated
      | foundExhausted | retried | removed | rechallenged | registered | woken
      | unmatched | responded | matched =>
          refine iff_of_true ⟨stable, by simp⟩ ?_
          intro other waiting
          rw [present] at waiting
          cases waiting

/-- Throughout a run, every wait that ends after a matching response was
processed, with no insertion at the address since, returns `true`, exactly
when no wait looks at the address after a retry loop has removed the entry
which the response validated. -/
theorem path_validation_stable_iff (actions : List (ValidatorAction α)) :
    (∀ before, before <+: actions →
      AnswersStable (events (validatorHistory before))) ↔
      Trace.AlongPast (perform validatorProgram) LooksBeforeRemoval []
        validatorStart actions := by
  refine Trace.throughout_past_iff
    (fun past (pool : ValidatorPool α) => TableTold (events past) pool.shared)
    (fun past _ => AnswersStable (events past)) ?_ ?_ ?_
  · intro before _
    exact tableTold_run before
  · intro before addr result after split
    simp at split
  · intro past pool action told _ stable
    exact answersStable_perform_iff past pool action told stable

/-- The retry loop of a validated entry removes it before the caller waits. -/
def validatedThenRemoved : List (ValidatorAction Nat) :=
  let token : Token := Vector.replicate 16 7
  [.call (.validatePath 0), .run 0 token, .run 0 token, .run 0 token,
   .call (.handlePacket 0 (responsePacket token)), .run 2 token,
   .run 1 token, .run 1 token, .call (.waitValidation 0), .run 3 token]

theorem wait_after_removal_returns_false :
    ¬ AnswersStable (events (validatorHistory validatedThenRemoved)) := by
  intro stable
  let token : Token := Vector.replicate 16 7
  have confirmed : Confirmed 0
      [.checked 0, .inserted 0 token, .sent 0 (challengePacket token),
        .processed 0 (responsePacket token) true, .ticked 0, .removed 0] := by
    refine ⟨[.checked 0, .inserted 0 token, .sent 0 (challengePacket token)],
      .processed 0 (responsePacket token) true, [.ticked 0, .removed 0], rfl,
      ⟨_, rfl⟩, ?_⟩
    simp
  have answer := stable _ 0 false [] (by decide +kernel) confirmed
  cases answer

/-- A future on the `Notify` that has not been woken. -/
def Parked (pool : ValidatorPool α) (addr : α) (waker : Nat) : Prop :=
  ∃ (index : Nat) (seen : Nat),
    pool.tasks[index]? = some (.waitValidation addr (.parked waker seen)) ∧
      pool.shared.callsOf waker = seen

/-- A running task whose own next look at the entry notifies its waiters: a
retry loop that goes on while the entry is not validated, or a datagram with
the entry's token that is still to be handled. -/
def Notifies (addr : α) (entry : Entry) : Task α → Prop
  | .retryLoop other .sleeping => other = addr ∧ entry.validated = false
  | .retryLoop other (.sending _) => other = addr ∧ entry.validated = false
  | .handlePacket src data false =>
      src = addr ∧ readIncoming data = .response entry.token
  | _ => False

/-- The entry that owns the `Notify` is in the table, and it is undecided or a
running task will notify its waiters. -/
def Attended (pool : ValidatorPool α) (addr : α) (waker : Nat) : Prop :=
  ∃ entry, pool.shared.entries addr = some entry ∧ entry.waker = waker ∧
    ((entry.validated = false ∧ entry.retriesLeft ≠ 0) ∨
      ∃ task ∈ pool.tasks, Notifies addr entry task)

/-- No waiter is parked on the `Notify` of an entry that is validated,
exhausted or removed and that no running task will notify again. -/
def NoLostWakeup (pool : ValidatorPool α) : Prop :=
  ∀ addr waker, Parked pool addr waker → Attended pool addr waker

/-- A waiter registers only while the entry it has read is still attended, and
an entry is replaced or removed only when nobody is parked on it. -/
def WakesInTime (pool : ValidatorPool α) : ValidatorAction α → Prop
  | .call _ => True
  | .run index _ =>
      match pool.tasks[index]? with
      | some (.waitValidation addr (.holding waker)) =>
          Attended pool addr waker
      | some (.validatePath addr .inserting) =>
          ∀ waker, ¬ Parked pool addr waker
      | some (.retryLoop addr .removing) => ∀ waker, ¬ Parked pool addr waker
      | _ => True

omit [DecidableEq α] in
theorem callsOf_notifyWaiters (validator : Validator α) (waker other : Nat) :
    (validator.notifyWaiters waker).callsOf other =
      if waker = other ∧ other < validator.calls.length then
        validator.callsOf other + 1
      else validator.callsOf other := by
  simp only [Validator.callsOf, Validator.notifyWaiters,
    List.getD_eq_getElem?_getD, List.getElem?_modify]
  by_cases bound : other < validator.calls.length
  · by_cases same : waker = other
    · simp [bound, same]
    · simp [bound, same]
  · simp [bound]

theorem callsOf_insert (validator : Validator α) (addr : α) (token : Token)
    {waker : Nat} (known : waker < validator.calls.length) :
    (validator.insert addr token).callsOf waker = validator.callsOf waker := by
  simp [Validator.callsOf, Validator.insert, List.getD_eq_getElem?_getD,
    List.getElem?_append_left known]

/-- Counts only grow, and none is forgotten. -/
theorem calls_step {validator : Validator α} {task : Task α} {input : Token}
    {turn : ValidatorTurn α} (step : TaskStep validator task input turn) :
    validator.calls.length ≤ turn.shared.calls.length ∧
      ∀ waker < validator.calls.length,
        validator.callsOf waker ≤ turn.shared.callsOf waker := by
  have notified : ∀ waker other, validator.callsOf other ≤
      (validator.notifyWaiters waker).callsOf other := by
    intro waker other
    rw [callsOf_notifyWaiters]
    split
    · omega
    · omega
  cases step with
  | inserted other input =>
      refine ⟨by simp [Validator.insert], ?_⟩
      intro waker known
      rw [callsOf_insert validator other input known]
  | foundExhausted other input entry present pending exhausted =>
      refine ⟨by simp [Validator.notifyWaiters], ?_⟩
      intro waker _
      exact notified entry.waker waker
  | matched src input data entry response present =>
      refine ⟨by simp [Validator.notifyWaiters, Validator.setEntry], ?_⟩
      intro waker _
      exact notified entry.waker waker
  | checked | challenged | foundNothing | foundValidated | retried | removed
  | rechallenged | finished | keptWaiting | registered | woken | unmatched
  | responded =>
      refine ⟨Nat.le_refl _, ?_⟩
      intro waker _
      exact Nat.le_refl _

/-- Every `Notify` of the table has a count. -/
def EntriesKnown (validator : Validator α) : Prop :=
  ∀ addr entry, validator.entries addr = some entry →
    entry.waker < validator.calls.length

/-- The `Notify` of a waiter has a count, which its future has not seen
exceeded at registration. -/
def WaiterKnown (validator : Validator α) : Task α → Prop
  | .waitValidation _ (.holding waker) => waker < validator.calls.length
  | .waitValidation _ (.parked waker seen) =>
      waker < validator.calls.length ∧ seen ≤ validator.callsOf waker
  | _ => True

theorem entriesKnown_step {validator : Validator α} {task : Task α}
    {input : Token} {turn : ValidatorTurn α}
    (known : EntriesKnown validator)
    (step : TaskStep validator task input turn) :
    EntriesKnown turn.shared := by
  intro addr entry present
  have grows := (calls_step step).1
  cases step with
  | inserted other input =>
      rw [entries_insert] at present
      split at present
      · cases present
        simp [Validator.insert]
      · exact Nat.lt_of_lt_of_le (known addr entry present) grows
  | retried other input old oldPresent pending left =>
      rw [entries_setEntry] at present
      split at present
      · cases present
        exact known other old oldPresent
      · exact known addr entry present
  | removed other input =>
      rw [entries_setEntry] at present
      split at present
      · cases present
      · exact known addr entry present
  | matched src input data old response oldPresent =>
      rw [entries_notifyWaiters, entries_setEntry] at present
      split at present
      · cases present
        exact Nat.lt_of_lt_of_le (known src old oldPresent) grows
      · exact Nat.lt_of_lt_of_le (known addr entry present) grows
  | checked | challenged | foundNothing | foundValidated | foundExhausted
  | rechallenged | finished | keptWaiting | registered | woken | unmatched
  | responded =>
      exact Nat.lt_of_lt_of_le (known addr entry present) grows

theorem waiterKnown_kept {validator : Validator α} {task other : Task α}
    {input : Token} {turn : ValidatorTurn α}
    (step : TaskStep validator task input turn)
    (known : WaiterKnown validator other) : WaiterKnown turn.shared other := by
  obtain ⟨grows, counts⟩ := calls_step step
  cases other with
  | waitValidation addr phase =>
      cases phase with
      | holding waker => exact Nat.lt_of_lt_of_le known grows
      | parked waker seen =>
          exact ⟨Nat.lt_of_lt_of_le known.1 grows,
            Nat.le_trans known.2 (counts waker known.1)⟩
      | looking => trivial
      | returned result => trivial
  | validatePath addr phase => trivial
  | retryLoop addr phase => trivial
  | handlePacket src data handled => trivial

theorem waiterKnown_step {validator : Validator α} {task : Task α}
    {input : Token} {turn : ValidatorTurn α}
    (entries : EntriesKnown validator) (known : WaiterKnown validator task)
    (step : TaskStep validator task input turn) :
    WaiterKnown turn.shared turn.task := by
  cases step with
  | keptWaiting addr input entry present pending left =>
      exact entries addr entry present
  | registered addr input waker => exact ⟨known, Nat.le_refl _⟩
  | checked | inserted | challenged | foundNothing | foundValidated
  | foundExhausted | retried | removed | rechallenged | finished | woken
  | unmatched | responded | matched => trivial

theorem waiters_known_run (actions : List (ValidatorAction α)) :
    EntriesKnown (validatorFinal actions).shared ∧
      ∀ (index : Nat) (task : Task α),
        (validatorFinal actions).tasks[index]? = some task →
          WaiterKnown (validatorFinal actions).shared task := by
  refine every_task (fun _ => True) (fun _ => EntriesKnown)
    (fun _ validator _ task => WaiterKnown validator task) ?_ rfl ?_ ?_ ?_ ?_
    ?_ actions (fun _ _ => trivial)
  · intro addr entry present
    cases present
  · intro past validator action known
    exact ⟨known, fun index task own => own⟩
  · intro past validator request index _ _ _
    cases request with
    | validatePath addr => trivial
    | waitValidation addr => trivial
    | handlePacket src data => trivial
  · intro past validator index input task turn _ taken known own
    have step := taskTurn_step taken
    exact ⟨entriesKnown_step known step, waiterKnown_step known own step⟩
  · intro past validator index input task turn fresh child _ taken _ _ member
      _
    cases taskTurn_step taken with
    | inserted other input =>
        rw [List.mem_singleton.mp member]
        trivial
    | _ => cases member
  · intro past validator index input task turn other bystander _ taken _ _ _
      own
    exact waiterKnown_kept (taskTurn_step taken) own

section Turns

variable {pool : ValidatorPool α} {index : Nat} {task : Task α}
  {input : Token} {turn : ValidatorTurn α}

omit [DecidableEq α] in
theorem mem_resume_of_ne {other : Task α}
    (present : pool.tasks[index]? = some task) (member : other ∈ pool.tasks)
    (different : other ≠ task) : other ∈ (pool.resume index turn).tasks := by
  obtain ⟨position, found⟩ := List.mem_iff_getElem?.mp member
  have elsewhere : position ≠ index := by
    intro same
    rw [same, present] at found
    exact different (Option.some.inj found).symm
  exact List.mem_of_getElem? (Pool.lookup_resume_other elsewhere found)

omit [DecidableEq α] in
theorem turn_task_mem_resume (present : pool.tasks[index]? = some task) :
    turn.task ∈ (pool.resume index turn).tasks :=
  List.mem_of_getElem? (Pool.lookup_resume_self present)

/-- A parked waiter has just registered or was parked before and has not been
notified. -/
theorem parked_resume
    (known : ∀ (position : Nat) (other : Task α),
      pool.tasks[position]? = some other → WaiterKnown pool.shared other)
    (step : TaskStep pool.shared task input turn) {addr : α} {waker : Nat}
    (parked : Parked (pool.resume index turn) addr waker) :
    task = .waitValidation addr (.holding waker) ∨
      Parked pool addr waker ∧
        turn.shared.callsOf waker = pool.shared.callsOf waker := by
  obtain ⟨position, seen, found, unmoved⟩ := parked
  rcases Pool.lookup_resume found with self | bystander | spawned
  · left
    obtain ⟨-, same⟩ := self
    cases step with
    | registered other input waker' =>
        cases same
        rfl
    | _ => cases same
  · right
    have own := known position _ bystander.2
    have grows := (calls_step step).2 waker own.1
    rw [Pool.resume_shared] at unmoved
    have before := own.2
    refine ⟨⟨position, seen, bystander.2, ?_⟩, ?_⟩
    · omega
    · omega
  · cases step with
    | inserted other input => cases List.mem_singleton.mp spawned.2
    | _ => cases spawned.2

omit [DecidableEq α] in
/-- A waiter that stays unnotified stays parked while others move. -/
theorem parked_kept {addr : α} {waker : Nat}
    (present : pool.tasks[index]? = some task)
    (notWaiter : ∀ waker seen,
      task ≠ .waitValidation addr (.parked waker seen))
    (unmoved : turn.shared.callsOf waker = pool.shared.callsOf waker)
    (parked : Parked pool addr waker) :
    Parked (pool.resume index turn) addr waker := by
  obtain ⟨position, seen, found, current⟩ := parked
  have elsewhere : position ≠ index := by
    intro same
    rw [same, present] at found
    exact notWaiter waker seen (Option.some.inj found)
  refine ⟨position, seen, Pool.lookup_resume_other elsewhere found, ?_⟩
  rw [Pool.resume_shared, unmoved, current]

omit [DecidableEq α] in
/-- An attended entry stays so while it is in the table as it was and the task
that moves is not the one to notify it. -/
theorem attended_of_unchanged {addr : α} {waker : Nat} {entry : Entry}
    (present : pool.tasks[index]? = some task)
    (unchanged : turn.shared.entries addr = some entry)
    (sameWaker : entry.waker = waker)
    (cause : (entry.validated = false ∧ entry.retriesLeft ≠ 0) ∨
      ∃ other ∈ pool.tasks, Notifies addr entry other)
    (bystander : ¬ Notifies addr entry task) :
    Attended (pool.resume index turn) addr waker := by
  refine ⟨entry, unchanged, sameWaker, ?_⟩
  rcases cause with undecided | running
  · exact Or.inl undecided
  · obtain ⟨other, member, notifies⟩ := running
    refine Or.inr ⟨other, mem_resume_of_ne present member ?_, notifies⟩
    intro same
    rw [same] at notifies
    exact bystander notifies

omit [DecidableEq α] in
/-- A `Notify` that was called has a higher count. -/
theorem notified_moves {validator : Validator α} {entry : Entry}
    (known : entry.waker < validator.calls.length) :
    (validator.notifyWaiters entry.waker).callsOf entry.waker ≠
      validator.callsOf entry.waker := by
  rw [callsOf_notifyWaiters, if_pos ⟨rfl, known⟩]
  omega

/-- Apart from the notification itself, only an insertion or a removal at the
address can take an attended entry from its waiters. -/
theorem attended_kept {addr : α} {waker : Nat}
    (entries : EntriesKnown pool.shared)
    (present : pool.tasks[index]? = some task)
    (step : TaskStep pool.shared task input turn)
    (unnotified : turn.shared.callsOf waker = pool.shared.callsOf waker)
    (notInserting : task ≠ .validatePath addr .inserting)
    (notRemoving : task ≠ .retryLoop addr .removing)
    (attended : Attended pool addr waker) :
    Attended (pool.resume index turn) addr waker := by
  obtain ⟨entry, found, sameWaker, cause⟩ := attended
  cases step with
  | inserted other input =>
      have elsewhere : addr ≠ other := by
        intro same
        exact notInserting (by rw [same])
      exact attended_of_unchanged present (by simp [elsewhere, found])
        sameWaker cause (by simp [Notifies])
  | foundNothing other input absent =>
      have elsewhere : other ≠ addr := by
        intro same
        rw [same, found] at absent
        cases absent
      exact attended_of_unchanged present found sameWaker cause
        (by simp [Notifies, elsewhere])
  | foundValidated other input old oldPresent validated =>
      refine attended_of_unchanged present found sameWaker cause ?_
      intro notifies
      rw [notifies.1, found] at oldPresent
      cases oldPresent
      rw [notifies.2] at validated
      cases validated
  | foundExhausted other input old oldPresent pending exhausted =>
      by_cases here : other = addr
      · rw [here, found] at oldPresent
        cases oldPresent
        rw [← sameWaker] at unnotified
        exact absurd unnotified (notified_moves (entries addr entry found))
      · exact attended_of_unchanged present found sameWaker cause
          (by simp [Notifies, here])
  | retried other input old oldPresent pending left =>
      by_cases here : other = addr
      · subst here
        rw [found] at oldPresent
        cases oldPresent
        exact ⟨{ entry with retriesLeft := entry.retriesLeft - 1 }, by simp,
          sameWaker, Or.inr ⟨_, turn_task_mem_resume present, rfl, pending⟩⟩
      · exact attended_of_unchanged present (by simp [Ne.symm here, found])
          sameWaker cause (by simp [Notifies, here])
  | removed other input =>
      have elsewhere : addr ≠ other := by
        intro same
        exact notRemoving (by rw [same])
      exact attended_of_unchanged present (by simp [elsewhere, found])
        sameWaker cause (by simp [Notifies])
  | rechallenged other input token =>
      by_cases notifies : Notifies addr entry (.retryLoop other (.sending token))
      · exact ⟨entry, found, sameWaker,
          Or.inr ⟨_, turn_task_mem_resume present, notifies⟩⟩
      · exact attended_of_unchanged present found sameWaker cause notifies
  | unmatched src input data different =>
      refine attended_of_unchanged present found sameWaker cause ?_
      intro notifies
      obtain ⟨rfl, response⟩ := notifies
      exact different entry.token entry response found rfl
  | responded src input data token challenge =>
      refine attended_of_unchanged present found sameWaker cause ?_
      intro notifies
      rw [notifies.2] at challenge
      cases challenge
  | matched src input data old response oldPresent =>
      by_cases here : src = addr
      · rw [here, found] at oldPresent
        cases oldPresent
        rw [← sameWaker] at unnotified
        exact absurd unnotified (notified_moves (entries addr entry found))
      · exact attended_of_unchanged present (by simp [Ne.symm here, found])
          sameWaker cause (by simp [Notifies, here])
  | checked | challenged | finished | keptWaiting | registered | woken =>
      exact attended_of_unchanged present found sameWaker cause
        (by simp [Notifies])

/-- A turn loses no wakeup if it takes no entry away from a parked waiter and
registers no waiter on an unattended entry. -/
theorem noLostWakeup_resume (entries : EntriesKnown pool.shared)
    (known : ∀ (position : Nat) (other : Task α),
      pool.tasks[position]? = some other → WaiterKnown pool.shared other)
    (present : pool.tasks[index]? = some task)
    (step : TaskStep pool.shared task input turn)
    (holds : NoLostWakeup pool)
    (leaves : ∀ addr waker, Parked pool addr waker →
      task ≠ .validatePath addr .inserting ∧
        task ≠ .retryLoop addr .removing)
    (registers : ∀ addr waker,
      task = .waitValidation addr (.holding waker) →
        Attended pool addr waker) :
    NoLostWakeup (pool.resume index turn) := by
  intro addr waker parked
  rcases parked_resume known step parked with registering | before
  · have attended := registers addr waker registering
    subst registering
    have unnotified :
        turn.shared.callsOf waker = pool.shared.callsOf waker := by
      cases step
      rfl
    exact attended_kept entries present step unnotified (by simp) (by simp)
      attended
  · obtain ⟨wasParked, unnotified⟩ := before
    obtain ⟨notInserting, notRemoving⟩ := leaves addr waker wasParked
    exact attended_kept entries present step unnotified notInserting
      notRemoving (holds addr waker wasParked)

theorem nobody_parked_of_insert {addr : α}
    (known : ∀ (position : Nat) (other : Task α),
      pool.tasks[position]? = some other → WaiterKnown pool.shared other)
    (present : pool.tasks[index]? = some (.validatePath addr .inserting))
    (shared : turn.shared = pool.shared.insert addr input)
    (holds : NoLostWakeup (pool.resume index turn)) (waker : Nat) :
    ¬ Parked pool addr waker := by
  intro parked
  obtain ⟨position, seen, found, current⟩ := parked
  have own := known position _ found
  have unmoved : turn.shared.callsOf waker = pool.shared.callsOf waker := by
    rw [shared]
    exact callsOf_insert pool.shared addr input own.1
  obtain ⟨entry, replaced, sameWaker, -⟩ := holds addr waker
    (parked_kept present (by simp) unmoved ⟨position, seen, found, current⟩)
  rw [Pool.resume_shared, shared, entries_insert, if_pos rfl] at replaced
  cases replaced
  exact absurd own.1 (by rw [← sameWaker]; exact Nat.lt_irrefl _)

theorem nobody_parked_of_removal {addr : α}
    (present : pool.tasks[index]? = some (.retryLoop addr .removing))
    (shared : turn.shared = pool.shared.setEntry addr none)
    (holds : NoLostWakeup (pool.resume index turn)) (waker : Nat) :
    ¬ Parked pool addr waker := by
  intro parked
  obtain ⟨entry, gone, -⟩ := holds addr waker
    (parked_kept present (by simp) (by rw [shared]; rfl) parked)
  rw [Pool.resume_shared, shared, entries_setEntry, if_pos rfl] at gone
  cases gone

omit [DecidableEq α] in
theorem attended_of_registered {addr : α} {waker : Nat}
    (present : pool.tasks[index]? =
      some (.waitValidation addr (.holding waker)))
    (shared : turn.shared = pool.shared)
    (registered : turn.task = .waitValidation addr
      (.parked waker (pool.shared.callsOf waker)))
    (noChild : turn.spawned = [])
    (holds : NoLostWakeup (pool.resume index turn)) :
    Attended pool addr waker := by
  have parked : Parked (pool.resume index turn) addr waker := by
    refine ⟨index, pool.shared.callsOf waker, ?_, ?_⟩
    · rw [Pool.lookup_resume_self present, registered]
    · rw [Pool.resume_shared, shared]
  obtain ⟨entry, found, sameWaker, cause⟩ := holds addr waker parked
  rw [Pool.resume_shared, shared] at found
  refine ⟨entry, found, sameWaker, ?_⟩
  rcases cause with undecided | running
  · exact Or.inl undecided
  · obtain ⟨other, member, notifies⟩ := running
    obtain ⟨position, at_⟩ := List.mem_iff_getElem?.mp member
    rcases Pool.lookup_resume at_ with self | bystander | spawned
    · rw [self.2, registered] at notifies
      exact absurd notifies id
    · exact Or.inr ⟨other, List.mem_of_getElem? bystander.2, notifies⟩
    · rw [noChild] at spawned
      cases spawned.2

/-- One turn, exactly. -/
theorem noLostWakeup_turn_iff (entries : EntriesKnown pool.shared)
    (known : ∀ (position : Nat) (other : Task α),
      pool.tasks[position]? = some other → WaiterKnown pool.shared other)
    (present : pool.tasks[index]? = some task)
    (step : TaskStep pool.shared task input turn)
    (holds : NoLostWakeup pool) :
    NoLostWakeup (pool.resume index turn) ↔
      WakesInTime pool (.run index input) := by
  have kept := noLostWakeup_resume entries known present step holds
  cases step with
  | inserted addr input =>
      simp only [WakesInTime, present]
      constructor
      · intro after
        exact nobody_parked_of_insert known present rfl after
      · intro nobody
        refine kept ?_ (by simp)
        intro other waker parked
        refine ⟨?_, by simp⟩
        intro same
        cases same
        exact nobody waker parked
  | removed addr input =>
      simp only [WakesInTime, present]
      constructor
      · intro after
        exact nobody_parked_of_removal present rfl after
      · intro nobody
        refine kept ?_ (by simp)
        intro other waker parked
        refine ⟨by simp, ?_⟩
        intro same
        cases same
        exact nobody waker parked
  | registered addr input waker =>
      simp only [WakesInTime, present]
      constructor
      · intro after
        exact attended_of_registered present rfl rfl rfl after
      · intro attended
        refine kept (by simp) ?_
        intro other waker' same
        cases same
        exact attended
  | checked | challenged | foundNothing | foundValidated | foundExhausted
  | retried | rechallenged | finished | keptWaiting | woken | unmatched
  | responded | matched =>
      refine iff_of_true (kept (by simp) (by simp)) ?_
      simp only [WakesInTime, present]

end Turns

omit [DecidableEq α] in
theorem noLostWakeup_join {pool : ValidatorPool α} {task : Task α}
    (holds : NoLostWakeup pool)
    (notParked : ∀ addr waker seen,
      task ≠ .waitValidation addr (.parked waker seen)) :
    NoLostWakeup (pool.join task) := by
  intro addr waker parked
  obtain ⟨position, seen, found, current⟩ := parked
  rcases Pool.lookup_join found with old | new
  · obtain ⟨entry, inTable, sameWaker, cause⟩ :=
      holds addr waker ⟨position, seen, old, current⟩
    refine ⟨entry, inTable, sameWaker, ?_⟩
    rcases cause with undecided | running
    · exact Or.inl undecided
    · obtain ⟨other, member, notifies⟩ := running
      exact Or.inr ⟨other, Pool.mem_join.mpr (Or.inl member), notifies⟩
  · exact absurd new.2.symm (notParked addr waker seen)

/-- A blocked task is none of those that the condition speaks about. -/
theorem wakesInTime_of_blocked {pool : ValidatorPool α} {index : Nat}
    {input : Token}
    (blocked : ∀ task, pool.tasks[index]? = some task →
      taskTurn pool.shared task input = none) :
    WakesInTime pool (.run index input) := by
  simp only [WakesInTime]
  split
  · next addr waker present => cases blocked _ present
  · next addr present => cases blocked _ present
  · next addr present => cases blocked _ present
  · trivial

/-- Throughout a run no wakeup is lost, exactly when every waiter registers
while the entry it has read is still attended and no entry is replaced or
removed while a waiter is parked on it. -/
theorem no_lost_wakeup_iff (actions : List (ValidatorAction α)) :
    (∀ before, before <+: actions → NoLostWakeup (validatorFinal before)) ↔
      Trace.Along (perform validatorProgram) WakesInTime validatorStart
        actions := by
  refine Trace.throughout_iff
    (fun _ (pool : ValidatorPool α) => EntriesKnown pool.shared ∧
      ∀ (index : Nat) (task : Task α), pool.tasks[index]? = some task →
        WaiterKnown pool.shared task)
    (fun _ => NoLostWakeup) ?_ ?_ ?_
  · intro before _
    exact waiters_known_run before
  · intro addr waker parked
    obtain ⟨position, seen, found, -⟩ := parked
    cases found
  · intro past pool action known _ holds
    have moved := perform_moved validatorProgram pool action
    generalize perform validatorProgram pool action = outcome at moved ⊢
    cases moved with
    | called request =>
        refine iff_of_true (noLostWakeup_join holds ?_) trivial
        cases request with
        | validatePath addr => simp [validatorProgram]
        | waitValidation addr => simp [validatorProgram]
        | handlePacket src data => simp [validatorProgram]
    | waited index input blocked =>
        exact iff_of_true holds (wakesInTime_of_blocked blocked)
    | turned index input task turn present taken =>
        exact noLostWakeup_turn_iff known.1 known.2 present
          (taskTurn_step taken) holds

/-- The response is processed between the waiter's look and its
registration. -/
def notifiedTooEarly : List (ValidatorAction Nat) :=
  let token : Token := Vector.replicate 16 7
  [.call (.validatePath 0), .run 0 token, .run 0 token, .run 0 token,
   .call (.waitValidation 0), .run 2 token,
   .call (.handlePacket 0 (responsePacket token)), .run 3 token, .run 2 token]

theorem waiter_registers_after_notification :
    ¬ NoLostWakeup (validatorFinal notifiedTooEarly) := by
  intro holds
  let token : Token := Vector.replicate 16 7
  have table : (validatorFinal notifiedTooEarly).shared.entries 0 =
      some ⟨token, 3, true, 0⟩ := by decide +kernel
  have tasks : (validatorFinal notifiedTooEarly).tasks =
      [.validatePath 0 .returned, .retryLoop 0 .sleeping,
        .waitValidation 0 (.parked 0 1),
        .handlePacket 0 (responsePacket token) true] := by decide +kernel
  obtain ⟨entry, present, -, cause⟩ :=
    holds 0 0 ⟨2, 1, by rw [tasks]; rfl, by decide +kernel⟩
  rw [table] at present
  cases present
  rcases cause with undecided | running
  · cases undecided.1
  · rw [tasks] at running
    simp [Notifies] at running

end NyxNet.PathValidation
