import NyxNet.Stream.TxQueue

/-!
# Packets leave in the order of their numbers

What the transmit queue keeps along every interleaving of its calls with the
worker, the forwarding task and the receiver: a call takes its number and hands
in its packet under one hold of the lock, and nothing behind it changes the
order of packets.
-/

namespace NyxNet.Tx

/-- What a call has handed in. -/
structure Handed where
  pathNumber : Option (UInt8 × UInt64)
  bytes : Bytes

def Handed.packet (handed : Handed) : Bytes :=
  match handed.pathNumber with
  | some (_, number) => numberedPacket number handed.bytes
  | none => handed.bytes

def Handed.numberOn (pathId : UInt8) (handed : Handed) : Option UInt64 :=
  (handed.pathNumber.filter fun entry => entry.1 = pathId).map Prod.snd

/-- The packet of a call, once it is in the first channel: the number is the
one that the call returns. -/
def Call.handed : Call → Option Handed
  | .unlocking pathId bytes number => some ⟨some (pathId, number), bytes⟩
  | .returnedNumber pathId bytes number => some ⟨some (pathId, number), bytes⟩
  | .returned bytes => some ⟨none, bytes⟩
  | _ => none

def Call.HoldsLock : Call → Prop
  | .numbering _ _ => True
  | .sendingNumbered _ _ _ => True
  | .unlocking _ _ _ => True
  | _ => False

def handedAt (calls : List Call) (index : Nat) : Option Handed :=
  calls[index]?.bind Call.handed

def numbersOn (calls : List Call) (order : List Nat) (pathId : UInt8) :
    List UInt64 :=
  order.filterMap fun index => (handedAt calls index).bind (·.numberOn pathId)

/-- The calls have handed in their packets in this order. -/
structure HandedIn (calls : List Call) (order : List Nat)
    (contents : List Bytes) : Prop where
  once : order.Nodup
  complete : ∀ index, index ∈ order ↔ (handedAt calls index).isSome = true
  packets : contents.map some =
    order.map fun index => (handedAt calls index).map Handed.packet

/-- The number that a call has taken and not handed in yet. -/
def Call.taken : Call → Option (UInt8 × UInt64)
  | .sendingNumbered pathId _ number => some (pathId, number)
  | _ => none

/-- The numbers of every path count up, and the holder of the lock has the
next one. -/
structure Numbered (queue : TxQueue) (order : List Nat) : Prop where
  counted : ∀ pathId, numbersOn queue.calls order pathId =
    (List.range (numbersOn queue.calls order pathId).length).map UInt64.ofNat
  free : ∀ pathId, (∀ (index : Nat) call number,
      queue.calls[index]? = some call → call.taken ≠ some (pathId, number)) →
    queue.sequencer.counter pathId =
      UInt64.ofNat (numbersOn queue.calls order pathId).length
  taken : ∀ (index : Nat) call pathId number,
    queue.calls[index]? = some call → call.taken = some (pathId, number) →
      number = UInt64.ofNat (numbersOn queue.calls order pathId).length ∧
        queue.sequencer.counter pathId =
          UInt64.ofNat ((numbersOn queue.calls order pathId).length + 1)
  locked : ∀ (index : Nat) call, queue.calls[index]? = some call →
    call.HoldsLock → queue.holder = some index

theorem of_lookup_set {calls : List Call} {index other : Nat}
    {new call : Call} (present : (calls.set index new)[other]? = some call) :
    other = index ∧ call = new ∨
      other ≠ index ∧ calls[other]? = some call := by
  rw [List.getElem?_set] at present
  split at present
  · next same =>
      split at present
      · exact Or.inl ⟨same.symm, (Option.some.inj present).symm⟩
      · cases present
  · next different => exact Or.inr ⟨Ne.symm different, present⟩

theorem of_lookup_append {calls : List Call} {index : Nat} {new call : Call}
    (present : (calls ++ [new])[index]? = some call) :
    calls[index]? = some call ∨ call = new := by
  rw [List.getElem?_append] at present
  split at present
  · exact Or.inl present
  · rw [List.getElem?_singleton] at present
    split at present
    · exact Or.inr (Option.some.inj present).symm
    · cases present

theorem handedAt_append (calls : List Call) {new : Call}
    (notYet : new.handed = none) :
    handedAt (calls ++ [new]) = handedAt calls := by
  funext index
  rw [handedAt, handedAt, List.getElem?_append]
  split
  · rfl
  · next outside =>
      rw [List.getElem?_eq_none (Nat.le_of_not_lt outside)]
      cases (index - calls.length) with
      | zero => exact notYet
      | succ _ => rfl

theorem handedAt_set {calls : List Call} {index : Nat} {old : Call}
    (present : calls[index]? = some old) (new : Call) :
    handedAt (calls.set index new) =
      Function.update (handedAt calls) index new.handed := by
  funext other
  by_cases same : other = index
  · subst same
    have bound := (List.getElem?_eq_some_iff.mp present).1
    rw [Function.update_self, handedAt, List.getElem?_set_self bound]
    rfl
  · rw [Function.update_of_ne same, handedAt, handedAt,
      List.getElem?_set_ne (Ne.symm same)]

/-- A step of a call that hands nothing in, or has already done so. -/
theorem handedAt_set_of_same {calls : List Call} {index : Nat}
    {old : Call} (present : calls[index]? = some old) (new : Call)
    (same : new.handed = old.handed) :
    handedAt (calls.set index new) = handedAt calls := by
  rw [handedAt_set present]
  refine Function.update_eq_self_iff.mpr ?_
  rw [same, handedAt, present]
  rfl

theorem HandedIn.of_same {before after : List Call} {order : List Nat}
    {contents : List Bytes} (handedIn : HandedIn before order contents)
    (same : handedAt after = handedAt before) :
    HandedIn after order contents := by
  refine ⟨handedIn.once, ?_, ?_⟩
  · rw [same]
    exact handedIn.complete
  · rw [same]
    exact handedIn.packets

theorem numbersOn_of_same {before after : List Call}
    (same : handedAt after = handedAt before) (order : List Nat)
    (pathId : UInt8) :
    numbersOn after order pathId = numbersOn before order pathId := by
  rw [numbersOn, numbersOn, same]

section Push

variable {calls : List Call} {order : List Nat} {contents : List Bytes}
variable {index : Nat} {old : Call} {handed : Handed}

theorem HandedIn.not_mem (handedIn : HandedIn calls order contents)
    (present : calls[index]? = some old) (notYet : old.handed = none) :
    index ∉ order := by
  rw [handedIn.complete, handedAt, present, Option.bind_some, notYet]
  exact Bool.false_ne_true

theorem HandedIn.push (handedIn : HandedIn calls order contents)
    (present : calls[index]? = some old) (notYet : old.handed = none)
    (new : Call) (handsIn : new.handed = some handed) :
    HandedIn (calls.set index new) (order ++ [index])
      (contents ++ [handed.packet]) := by
  have fresh := handedIn.not_mem present notYet
  refine ⟨?_, ?_, ?_⟩
  · exact List.Nodup.append handedIn.once (List.nodup_singleton index)
      (List.disjoint_singleton.mpr fresh)
  · intro other
    rw [List.mem_append, List.mem_singleton, handedIn.complete,
      handedAt_set present, handsIn]
    by_cases same : other = index
    · subst same
      simp
    · rw [Function.update_of_ne same]
      simp [same]
  · rw [List.map_append, List.map_append, handedIn.packets,
      handedAt_set present, handsIn]
    refine congrArg₂ (· ++ ·) ?_ ?_
    · apply List.map_congr_left
      intro other member
      have different : other ≠ index := fun same => fresh (same ▸ member)
      rw [Function.update_of_ne different]
    · simp

theorem numbersOn_push (handedIn : HandedIn calls order contents)
    (present : calls[index]? = some old) (notYet : old.handed = none)
    {new : Call} (handsIn : new.handed = some handed) (pathId : UInt8) :
    numbersOn (calls.set index new) (order ++ [index]) pathId =
      numbersOn calls order pathId ++ (handed.numberOn pathId).toList := by
  have fresh := handedIn.not_mem present notYet
  rw [numbersOn, List.filterMap_append, handedAt_set present, handsIn]
  refine congrArg₂ (· ++ ·) ?_ ?_
  · apply List.filterMap_congr
    intro other member
    have different : other ≠ index := fun same => fresh (same ▸ member)
    rw [Function.update_of_ne different]
  · cases numbered : handed.numberOn pathId with
    | none => simp [numbered]
    | some number => simp [numbered]

end Push

theorem Call.holdsLock_of_taken {call : Call} {entry : UInt8 × UInt64}
    (taken : call.taken = some entry) : call.HoldsLock := by
  cases call with
  | sendingNumbered pathId bytes number => trivial
  | _ => cases taken

namespace Numbered

variable {queue : TxQueue} {order : List Nat}

theorem alone (numbered : Numbered queue order) {index other : Nat}
    {call another : Call} (present : queue.calls[index]? = some call)
    (holds : call.HoldsLock) (alsoPresent : queue.calls[other]? = some another)
    (alsoHolds : another.HoldsLock) : other = index :=
  Option.some.inj ((numbered.locked other another alsoPresent alsoHolds).symm.trans
    (numbered.locked index call present holds))

theorem join (numbered : Numbered queue order) {new : Call}
    (notYet : new.handed = none) (unlocked : ¬ new.HoldsLock) :
    Numbered { queue with calls := queue.calls ++ [new] } order := by
  have same := numbersOn_of_same (handedAt_append queue.calls notYet) order
  refine ⟨?_, ?_, ?_, ?_⟩
  · intro pathId
    rw [same]
    exact numbered.counted pathId
  · intro pathId noneTaken
    rw [same]
    refine numbered.free pathId ?_
    intro index call number present
    refine noneTaken index call number ?_
    have bound := (List.getElem?_eq_some_iff.mp present).1
    exact (List.getElem?_append_left bound).trans present
  · intro index call pathId number present taken
    rw [same]
    rcases of_lookup_append present with older | isNew
    · exact numbered.taken index call pathId number older taken
    · exact absurd (Call.holdsLock_of_taken (isNew ▸ taken)) unlocked
  · intro index call present holds
    rcases of_lookup_append present with older | isNew
    · exact numbered.locked index call older holds
    · exact absurd (isNew ▸ holds) unlocked

theorem locked_set (numbered : Numbered queue order) {index : Nat} {new : Call}
    (held : new.HoldsLock → queue.holder = some index) (other : Nat)
    (call : Call) (present : (queue.calls.set index new)[other]? = some call)
    (holds : call.HoldsLock) : queue.holder = some other := by
  rcases of_lookup_set present with isNew | older
  · rw [isNew.1]
    exact held (isNew.2 ▸ holds)
  · exact numbered.locked other call older.2 holds

/-- A step of a call that takes no number and adds none to its path. -/
theorem of_set (numbered : Numbered queue order) {index : Nat}
    {old new : Call} (present : queue.calls[index]? = some old)
    {later : TxQueue} {after : List Nat}
    (calls : later.calls = queue.calls.set index new)
    (sequencer : later.sequencer = queue.sequencer)
    (sameNumbers : ∀ path, numbersOn (queue.calls.set index new) after path =
      numbersOn queue.calls order path)
    (noneBefore : old.taken = none) (noneAfter : new.taken = none)
    (locked : ∀ (other : Nat) call,
      (queue.calls.set index new)[other]? = some call → call.HoldsLock →
        later.holder = some other) :
    Numbered later after := by
  refine ⟨?_, ?_, ?_, calls ▸ locked⟩
  · intro pathId
    rw [calls, sameNumbers]
    exact numbered.counted pathId
  · intro pathId noneTaken
    rw [calls, sequencer, sameNumbers]
    rw [calls] at noneTaken
    refine numbered.free pathId ?_
    intro other call number alsoPresent
    by_cases isIndex : other = index
    · subst isIndex
      rw [← Option.some.inj (present.symm.trans alsoPresent), noneBefore]
      exact nofun
    · refine noneTaken other call number ?_
      exact (List.getElem?_set_ne (Ne.symm isIndex)).trans alsoPresent
  · intro other call pathId number alsoPresent taken
    rw [calls] at alsoPresent
    rw [calls, sequencer, sameNumbers]
    rcases of_lookup_set alsoPresent with isNew | older
    · rw [isNew.2, noneAfter] at taken
      cases taken
    · exact numbered.taken other call pathId number older.2 taken

theorem lock (numbered : Numbered queue order) {index : Nat}
    {pathId : UInt8} {bytes : Bytes}
    (present : queue.calls[index]? = some (.locking pathId bytes))
    (unheld : queue.holder = none) :
    Numbered { queue.become index (.numbering pathId bytes) with
      holder := some index } order := by
  refine numbered.of_set present rfl rfl
    (numbersOn_of_same
      (handedAt_set_of_same present (.numbering pathId bytes) rfl) order)
    rfl rfl ?_
  intro other call alsoPresent holds
  rcases of_lookup_set alsoPresent with isNew | older
  · rw [isNew.1]
  · have held := numbered.locked other call older.2 holds
    rw [unheld] at held
    cases held

theorem unlock (numbered : Numbered queue order) {index : Nat}
    {pathId : UInt8} {bytes : Bytes} {number : UInt64}
    (present : queue.calls[index]? = some (.unlocking pathId bytes number)) :
    Numbered { queue.become index (.returnedNumber pathId bytes number) with
      holder := none } order := by
  refine numbered.of_set present rfl rfl
    (numbersOn_of_same (handedAt_set_of_same present
      (.returnedNumber pathId bytes number) rfl) order)
    rfl rfl ?_
  intro other call alsoPresent holds
  rcases of_lookup_set alsoPresent with isNew | older
  · rw [isNew.2] at holds
    cases holds
  · exact absurd (numbered.alone present trivial older.2 holds) older.1

theorem number (numbered : Numbered queue order) {index : Nat}
    {pathId : UInt8} {bytes : Bytes}
    (present : queue.calls[index]? = some (.numbering pathId bytes)) :
    Numbered { queue.become index (.sendingNumbered pathId bytes
        (queue.sequencer.next pathId).1) with
      sequencer := (queue.sequencer.next pathId).2 } order := by
  have same := numbersOn_of_same (handedAt_set_of_same present
    (.sendingNumbered pathId bytes (queue.sequencer.next pathId).1) rfl) order
  -- The lock is held here, so that no other call has a number.
  have noneTaken : ∀ (other : Nat) call entry,
      queue.calls[other]? = some call → call.taken ≠ some entry := by
    intro other call entry alsoPresent taken
    have isIndex := numbered.alone present trivial alsoPresent
      (Call.holdsLock_of_taken taken)
    rw [isIndex, present] at alsoPresent
    rw [← Option.some.inj alsoPresent] at taken
    cases taken
  have counter : ∀ path, queue.sequencer.counter path =
      UInt64.ofNat (numbersOn queue.calls order path).length :=
    fun path => numbered.free path
      (fun other call number => noneTaken other call (path, number))
  refine ⟨?_, ?_, ?_, ?_⟩
  · intro path
    rw [TxQueue.become, same]
    exact numbered.counted path
  · intro path noneAfter
    rw [TxQueue.become, same]
    have bound := (List.getElem?_eq_some_iff.mp present).1
    have different : path ≠ pathId := by
      intro isPath
      subst isPath
      exact noneAfter index _ _ (List.getElem?_set_self bound) rfl
    exact (Sequencer.counter_next_of_ne _ different).trans (counter path)
  · intro other call path number alsoPresent taken
    rw [TxQueue.become, same]
    rcases of_lookup_set alsoPresent with isNew | older
    · rw [isNew.2] at taken
      cases Option.some.inj taken
      refine ⟨counter pathId, ?_⟩
      rw [Sequencer.counter_next_self, counter, UInt64.ofNat_add]
      rfl
    · exact absurd taken (noneTaken other call _ older.2)
  · exact numbered.locked_set
      (fun _ => numbered.locked index _ present trivial)

end Numbered

section Enter

variable {queue : TxQueue} {order : List Nat} {index : Nat}

theorem Numbered.pushNumbered (numbered : Numbered queue order)
    (handedIn : HandedIn queue.calls order queue.pipeline.contents)
    {pathId : UInt8} {bytes : Bytes} {number : UInt64}
    (present : queue.calls[index]? =
      some (.sendingNumbered pathId bytes number)) (packet : Bytes) :
    Numbered ((queue.become index (.unlocking pathId bytes number)).push
      packet) (order ++ [index]) := by
  obtain ⟨isNext, counter⟩ :=
    numbered.taken index _ pathId number present rfl
  have own : numbersOn (queue.calls.set index (.unlocking pathId bytes number))
      (order ++ [index]) pathId =
        numbersOn queue.calls order pathId ++ [number] := by
    rw [numbersOn_push handedIn present rfl rfl]
    simp [Handed.numberOn]
  have others : ∀ path, path ≠ pathId →
      numbersOn (queue.calls.set index (.unlocking pathId bytes number))
        (order ++ [index]) path = numbersOn queue.calls order path := by
    intro path different
    rw [numbersOn_push handedIn present rfl rfl]
    simp [Handed.numberOn, Ne.symm different]
  refine ⟨?_, ?_, ?_, ?_⟩
  · intro path
    rw [TxQueue.push, TxQueue.become]
    by_cases isOwn : path = pathId
    · subst isOwn
      rw [own, List.length_append, List.length_singleton, List.range_succ,
        List.map_append, ← numbered.counted path, List.map_singleton, isNext]
    · rw [others path isOwn]
      exact numbered.counted path
  · intro path _
    rw [TxQueue.push, TxQueue.become]
    by_cases isOwn : path = pathId
    · subst isOwn
      rw [own, List.length_append, List.length_singleton]
      exact counter
    · rw [others path isOwn]
      refine numbered.free path ?_
      intro other call taken alsoPresent isTaken
      have isIndex := numbered.alone present trivial alsoPresent
        (Call.holdsLock_of_taken isTaken)
      rw [isIndex, present] at alsoPresent
      rw [← Option.some.inj alsoPresent] at isTaken
      cases Option.some.inj isTaken
      exact isOwn rfl
  · intro other call path taken alsoPresent isTaken
    rcases of_lookup_set alsoPresent with isNew | older
    · rw [isNew.2] at isTaken
      cases isTaken
    · exact absurd (numbered.alone present trivial older.2
        (Call.holdsLock_of_taken isTaken)) older.1
  · exact numbered.locked_set
      (fun _ => numbered.locked index _ present trivial)

theorem Numbered.pushPlain (numbered : Numbered queue order)
    (handedIn : HandedIn queue.calls order queue.pipeline.contents)
    {bytes : Bytes} (present : queue.calls[index]? = some (.sending bytes))
    (packet : Bytes) :
    Numbered ((queue.become index (.returned bytes)).push packet)
      (order ++ [index]) := by
  refine numbered.of_set present rfl rfl ?_ rfl rfl
    (numbered.locked_set False.elim)
  intro path
  rw [numbersOn_push handedIn present rfl rfl]
  exact List.append_nil _

end Enter

structure Ordered (queue : TxQueue) (order : List Nat) : Prop where
  handedIn : HandedIn queue.calls order queue.pipeline.contents
  numbered : Numbered queue order

theorem Ordered.run {queue : TxQueue} {order : List Nat}
    (ordered : Ordered queue order) (index : Nat) :
    ∃ after, Ordered (queue.run index) after := by
  obtain ⟨handedIn, numbered⟩ := ordered
  rw [TxQueue.run]
  split
  · next pathId bytes present =>
      split
      · next unheld =>
          exact ⟨order, handedIn.of_same (handedAt_set_of_same present _ rfl),
            numbered.lock present unheld⟩
      · exact ⟨order, handedIn, numbered⟩
  · next pathId bytes present =>
      exact ⟨order, handedIn.of_same (handedAt_set_of_same present _ rfl),
        numbered.number present⟩
  · next pathId bytes number present =>
      split
      · refine ⟨order ++ [index], ?_, numbered.pushNumbered handedIn present _⟩
        rw [TxQueue.push, Pipeline.contents_push]
        exact handedIn.push present rfl (.unlocking pathId bytes number) rfl
      · exact ⟨order, handedIn, numbered⟩
  · next pathId bytes number present =>
      exact ⟨order, handedIn.of_same (handedAt_set_of_same present _ rfl),
        numbered.unlock present⟩
  · next bytes present =>
      split
      · refine ⟨order ++ [index], ?_, numbered.pushPlain handedIn present _⟩
        rw [TxQueue.push, Pipeline.contents_push]
        exact handedIn.push present rfl (.returned bytes) rfl
      · exact ⟨order, handedIn, numbered⟩
  · exact ⟨order, handedIn, numbered⟩
  · exact ⟨order, handedIn, numbered⟩
  · exact ⟨order, handedIn, numbered⟩

theorem Ordered.join {queue : TxQueue} {order : List Nat}
    (ordered : Ordered queue order) {new : Call}
    (notYet : new.handed = none) (unlocked : ¬ new.HoldsLock) :
    Ordered { queue with calls := queue.calls ++ [new] } order :=
  ⟨ordered.handedIn.of_same (handedAt_append queue.calls notYet),
    ordered.numbered.join notYet unlocked⟩

theorem Ordered.relay {queue : TxQueue} {order : List Nat}
    (ordered : Ordered queue order) (step : Relay) :
    Ordered { queue with pipeline := queue.pipeline.relay step } order := by
  refine ⟨?_, ?_⟩
  · rw [Pipeline.contents_relay]
    exact ordered.handedIn
  · exact ⟨ordered.numbered.counted, ordered.numbered.free,
      ordered.numbered.taken, ordered.numbered.locked⟩

theorem ordered_new : Ordered .new [] := by
  refine ⟨⟨List.nodup_nil, ?_, rfl⟩, ⟨fun _ => rfl, fun _ _ => rfl, ?_, ?_⟩⟩
  · intro index
    constructor
    · exact nofun
    · exact nofun
  · exact nofun
  · exact nofun

def Orderly (queue : TxQueue) : Prop := ∃ order, Ordered queue order

theorem orderly_final (actions : List Action) :
    Orderly (Trace.final act .new actions) := by
  have initial : Orderly .new := ⟨[], ordered_new⟩
  refine Trace.final_invariant ?_ actions initial
  intro queue action orderly
  obtain ⟨order, ordered⟩ := orderly
  cases action with
  | send bytes => exact ⟨order, ordered.join rfl id⟩
  | sendWithPath pathId bytes => exact ⟨order, ordered.join rfl id⟩
  | run index => exact ordered.run index
  | relay step => exact ⟨order, ordered.relay step⟩

/-- The packets received and those still under way are the packets of the
calls, each of them once and unchanged, and the n-th packet of a path has the
number that the law gives for n. -/
structure Sequenced (law : Nat → Nat) (queue : TxQueue)
    (delivered underway : List Nat) : Prop where
  once : (delivered ++ underway).Nodup
  complete : ∀ index, index ∈ delivered ++ underway ↔
    (handedAt queue.calls index).isSome = true
  received : queue.pipeline.received.map some =
    delivered.map fun index =>
      (handedAt queue.calls index).map Handed.packet
  remaining : queue.pipeline.underway.map some =
    underway.map fun index =>
      (handedAt queue.calls index).map Handed.packet
  numbers : ∀ pathId,
    (numbersOn queue.calls (delivered ++ underway) pathId).map UInt64.toNat =
      (List.range (numbersOn queue.calls (delivered ++ underway)
        pathId).length).map law

theorem final_relay (queue : TxQueue) (steps : List Relay) :
    Trace.final act queue (steps.map .relay) =
      { queue with pipeline := steps.foldl Pipeline.relay queue.pipeline } := by
  induction steps generalizing queue with
  | nil => rfl
  | cons step steps ih =>
      rw [List.map_cons, Trace.final, ih]
      rfl

/-- For every interleaving, the packets come out in the order in which the
calls handed them in; on every path the n-th one carries n, as a 64-bit
number, before the bytes of the call that returns it.  What is still under way
can always be brought out. -/
theorem packets_in_sequence (actions : List Action) :
    (∃ delivered underway, Sequenced (· % 2 ^ 64)
        (Trace.final act .new actions) delivered underway) ∧
      ∃ steps : List Relay,
        (Trace.final act .new
          (actions ++ steps.map .relay)).pipeline.received =
            (Trace.final act .new actions).pipeline.contents := by
  refine ⟨?_, ?_⟩
  · obtain ⟨order, handedIn, numbered⟩ := orderly_final actions
    have packets := handedIn.packets
    rw [Pipeline.contents, List.map_append] at packets
    obtain ⟨delivered, underway, split, received, remaining⟩ :=
      List.map_eq_append_iff.mp packets.symm
    subst split
    refine ⟨delivered, underway, handedIn.once, handedIn.complete,
      received.symm, remaining.symm, ?_⟩
    intro pathId
    rw [numbered.counted pathId, List.map_map, List.length_map,
      List.length_range]
    apply List.map_congr_left
    intro number _
    exact UInt64.toNat_ofNat'
  · obtain ⟨steps, drained⟩ :=
      Pipeline.exists_drained (Trace.final act .new actions).pipeline
    refine ⟨steps, ?_⟩
    rw [Trace.final_append, final_relay]
    exact drained

/-- Nothing is under way, and every call so far was made on path 0 without
bytes and has returned. -/
structure Quiet (count : Nat) (queue : TxQueue) : Prop where
  unheld : queue.holder = none
  empty : ∃ received, queue.pipeline = ⟨[], none, [], none, [], received⟩
  length : queue.calls.length = count
  returned : ∀ call ∈ queue.calls, ∃ number, call = .returnedNumber 0 [] number

/-- One call and the way of its packet. -/
def round (index : Nat) : List Action :=
  [.sendWithPath 0 [], .run index, .run index, .run index, .run index,
    .relay .workerRecv, .relay .workerSend, .relay .forwarderRecv,
    .relay .forwarderSend, .relay .recv]

def rounds : Nat → List Action
  | 0 => []
  | count + 1 => rounds count ++ round count

theorem final_round (sequencer : Sequencer) (calls : List Call)
    (received : List Bytes) :
    Trace.final act
        ⟨sequencer, none, ⟨[], none, [], none, [], received⟩, calls⟩
        (round calls.length) =
      ⟨(sequencer.next 0).2, none,
        ⟨[], none, [], none, [],
          received ++ [numberedPacket (sequencer.next 0).1 []]⟩,
        calls ++ [.returnedNumber 0 [] (sequencer.next 0).1]⟩ := by
  simp [round, Trace.final, act, TxQueue.run, TxQueue.become, TxQueue.push,
    Pipeline.push, Pipeline.relay, Pipeline.workerRecv, Pipeline.workerSend,
    Pipeline.forwarderRecv, Pipeline.forwarderSend, Pipeline.recv,
    Pipeline.HasRoom, channelCapacity]

theorem Quiet.round {count : Nat} {queue : TxQueue}
    (quiet : Quiet count queue) :
    Quiet (count + 1) (Trace.final act queue (round count)) := by
  obtain ⟨sequencer, holder, pipeline, calls⟩ := queue
  obtain ⟨unheld, ⟨received, empty⟩, length, returned⟩ := quiet
  simp only at unheld empty length returned
  subst unheld empty length
  rw [final_round]
  refine ⟨rfl, ⟨_, rfl⟩, List.length_append, ?_⟩
  intro call member
  rcases List.mem_append.mp member with earlier | last
  · exact returned call earlier
  · exact ⟨_, List.mem_singleton.mp last⟩

theorem quiet_rounds (count : Nat) :
    Quiet count (Trace.final act .new (rounds count)) := by
  induction count with
  | zero => exact ⟨rfl, ⟨[], rfl⟩, rfl, nofun⟩
  | succ count ih =>
      rw [rounds, Trace.final_append]
      exact ih.round

/-- More calls on one path than there are numbers: they cannot all have
different ones. -/
theorem Quiet.not_sequenced {count : Nat} {queue : TxQueue}
    (quiet : Quiet count queue) (tooMany : 2 ^ 64 < count) :
    ¬ ∃ delivered underway, Sequenced id queue delivered underway := by
  intro counting
  obtain ⟨delivered, underway, sequenced⟩ := counting
  have numberAt : ∀ index < count, ∃ number,
      handedAt queue.calls index = some ⟨some (0, number), []⟩ := by
    intro index bound
    obtain ⟨call, present⟩ :
        ∃ call, queue.calls[index]? = some call :=
      ⟨_, List.getElem?_eq_getElem (quiet.length ▸ bound)⟩
    obtain ⟨number, isReturned⟩ :=
      quiet.returned call (List.mem_of_getElem? present)
    refine ⟨number, ?_⟩
    rw [handedAt, present, isReturned]
    rfl
  have everyIndex : List.range count ⊆ delivered ++ underway := by
    intro index member
    obtain ⟨number, handed⟩ := numberAt index (List.mem_range.mp member)
    rw [sequenced.complete, handed]
    rfl
  have noOther : ∀ index ∈ delivered ++ underway, index < count := by
    intro index member
    have handed := (sequenced.complete index).mp member
    by_contra outside
    rw [handedAt, List.getElem?_eq_none
      (quiet.length ▸ Nat.le_of_not_lt outside)] at handed
    cases handed
  have allNumbered : (numbersOn queue.calls (delivered ++ underway) 0).length =
      (delivered ++ underway).length := by
    apply List.filterMap_length_eq_length.mpr
    intro index member
    obtain ⟨number, handed⟩ := numberAt index (noOther index member)
    rw [handed]
    rfl
  have enough : 2 ^ 64 <
      (numbersOn queue.calls (delivered ++ underway) 0).length := by
    have atLeast :=
      (List.subperm_of_subset List.nodup_range everyIndex).length_le
    rw [List.length_range] at atLeast
    rw [allNumbered]
    exact lt_of_lt_of_le tooMany atLeast
  have reached : 2 ^ 64 ∈ (numbersOn queue.calls (delivered ++ underway)
      0).map UInt64.toNat := by
    rw [sequenced.numbers 0, List.map_id]
    exact List.mem_range.mpr enough
  obtain ⟨number, _, isPower⟩ := List.mem_map.mp reached
  exact absurd isPower (Nat.ne_of_lt number.toNat_lt)

/-- After 2 ^ 64 packets the numbers of a path start again. -/
theorem numbers_start_again :
    ¬ ∃ delivered underway, Sequenced id
      (Trace.final act .new (rounds (2 ^ 64 + 1))) delivered underway :=
  (quiet_rounds (2 ^ 64 + 1)).not_sequenced (Nat.lt_succ_self _)

end NyxNet.Tx
