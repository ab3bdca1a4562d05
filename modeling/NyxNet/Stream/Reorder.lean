import NyxNet.Lib.InOrder
import NyxNet.Lib.OrderedMap
import NyxNet.Lib.Trace
import NyxNet.Lib.Word

/-!
# Packet reordering buffer

`ReorderBuffer` of `nyx-stream/src/reorder.rs`.  Sequence numbers are `u64` and
arithmetic wraps as in a release build; `usize` has 64 bits, so the gap and its
multiple wrap as well.  The two `while` loops recurse on the number of buffered
packets, which every iteration lowers by one.
-/

namespace NyxNet.Stream

/-- The buffered packets by sequence number. -/
abbrev Window (T : Type) : Type := Std.ExtTreeMap UInt64 T compare

structure ReorderBuffer (T : Type) where
  nextSeq : UInt64
  window : Window T
  maxWindow : Nat

namespace ReorderBuffer

variable {T : Type}

def new (initialSeq : UInt64) : ReorderBuffer T :=
  { nextSeq := initialSeq, window := ∅, maxWindow := 128 }

/-- The release loop of `drain_ready`. -/
def releaseLoop : Nat → UInt64 → Window T → List T × UInt64 × Window T
  | 0, nextSeq, window => ([], nextSeq, window)
  | fuel + 1, nextSeq, window =>
      match window[nextSeq]? with
      | none => ([], nextSeq, window)
      | some pkt =>
          let (ready, final, rest) :=
            releaseLoop fuel (nextSeq + 1) (window.erase nextSeq)
          (pkt :: ready, final, rest)

/-- The eviction loop of `drain_ready`: drop the highest sequence number while
the window is too large. -/
def evictLoop (maxWindow : Nat) : Nat → Window T → Window T
  | 0, window => window
  | fuel + 1, window =>
      if maxWindow < window.size then
        match OrderedMap.lastKey window with
        | some last => evictLoop maxWindow fuel (window.erase last)
        | none => window
      else window

/-- The adaptive shrinking of `drain_ready`. -/
def shrunkWindow (size maxWindow : Nat) : Nat :=
  if size < maxWindow / 4 ∧ 32 < maxWindow then maxWindow / 2 else maxWindow

def drainReady (buffer : ReorderBuffer T) : List T × ReorderBuffer T :=
  let (ready, nextSeq, window) :=
    releaseLoop buffer.window.size buffer.nextSeq buffer.window
  let maxWindow := shrunkWindow window.size buffer.maxWindow
  (ready,
    { nextSeq, window := evictLoop maxWindow window.size window, maxWindow })

/-- The up-scaling of `push` for a window that has just received a packet. -/
def grownWindow (nextSeq : UInt64) (window : Window T) (maxWindow : Nat) :
    Nat :=
  match OrderedMap.lastKey window with
  | some high =>
      let gap := high - nextSeq + 1
      if maxWindow < (gap * 5 / 4).toNat ∧ maxWindow < 8192 then
        min (maxWindow * 2) 8192
      else maxWindow
  | none => maxWindow

def push (buffer : ReorderBuffer T) (seq : UInt64) (pkt : T) :
    List T × ReorderBuffer T :=
  if seq < buffer.nextSeq then
    -- duplicate or too old
    ([], buffer)
  else
    let window := buffer.window.insert seq pkt
    drainReady
      { nextSeq := buffer.nextSeq
        window
        maxWindow := grownWindow buffer.nextSeq window buffer.maxWindow }

def popFront (buffer : ReorderBuffer T) : Option T × ReorderBuffer T :=
  match buffer.window[buffer.nextSeq]? with
  | some pkt =>
      (some pkt,
        { buffer with
          window := buffer.window.erase buffer.nextSeq
          nextSeq := buffer.nextSeq + 1 })
  | none => (none, buffer)

/-- Sequence numbers in this range leave room for every sum and product the
buffer forms. -/
def seqLimit : Nat := 2 ^ 61

/-- All buffered numbers are at least `low` and below the limit. -/
def Within (low : Nat) (window : Window T) : Prop :=
  ∀ seq ∈ window, low ≤ seq.toNat ∧ seq.toNat < seqLimit

private theorem toNat_succ_of_within {nextSeq : UInt64}
    (small : nextSeq.toNat < seqLimit) :
    (nextSeq + 1).toNat = nextSeq.toNat + 1 := by
  apply UInt64.toNat_add_of_fits
  change nextSeq.toNat + 1 < 2 ^ 64
  unfold seqLimit at small
  omega

/-- What the release loop does: it hands out the consecutive run of packets
starting at `nextSeq`, removes exactly these, and stops at a missing one. -/
structure Released (nextSeq : UInt64) (window : Window T)
    (result : List T × UInt64 × Window T) : Prop where
  count : result.2.1.toNat = nextSeq.toNat + result.1.length
  packets : ∀ position pkt, result.1[position]? = some pkt →
    ∃ seq : UInt64, window[seq]? = some pkt ∧
      seq.toNat = nextSeq.toNat + position
  kept : ∀ seq : UInt64, result.2.2[seq]? =
    if nextSeq.toNat ≤ seq.toNat ∧ seq.toNat < result.2.1.toNat then none
    else window[seq]?
  stopped : result.2.1 ∉ result.2.2
  filled : ∀ seq : UInt64, nextSeq.toNat ≤ seq.toNat →
    seq.toNat < result.2.1.toNat → seq ∈ window
  shrunk : result.2.2.size ≤ window.size

/-- A missing packet stops the loop at once. -/
theorem released_nil {nextSeq : UInt64} {window : Window T}
    (missing : nextSeq ∉ window) :
    Released nextSeq window ([], nextSeq, window) := by
  constructor
  · rfl
  · intro position pkt found
    cases found
  · intro seq
    have empty : ¬ (nextSeq.toNat ≤ seq.toNat ∧
        seq.toNat < nextSeq.toNat) := by omega
    simp only [if_neg empty]
  · exact missing
  · intro seq low high
    exact (Nat.not_lt_of_le low high).elim
  · exact Nat.le_refl _

theorem within_erase {nextSeq : UInt64} {window : Window T}
    (within : Within nextSeq.toNat window)
    (succ : (nextSeq + 1).toNat = nextSeq.toNat + 1) :
    Within (nextSeq + 1).toNat (window.erase nextSeq) := by
  intro seq member
  rw [Std.ExtTreeMap.mem_erase] at member
  have bounds := within seq member.2
  have different : nextSeq.toNat ≠ seq.toNat := by
    intro equality
    apply member.1
    simp [UInt64.toNat_inj.mp equality]
  rw [succ]
  omega

/-- The expected packet is released in front of the run that follows it. -/
theorem Released.cons {nextSeq : UInt64} {window : Window T} {pkt : T}
    {result : List T × UInt64 × Window T}
    (lookup : window[nextSeq]? = some pkt)
    (succ : (nextSeq + 1).toNat = nextSeq.toNat + 1)
    (rest : Released (nextSeq + 1) (window.erase nextSeq) result) :
    Released nextSeq window (pkt :: result.1, result.2) := by
  have progress := rest.count
  have present : nextSeq ∈ window := by
    simp [Std.ExtTreeMap.mem_iff_isSome_getElem?, lookup]
  constructor
  · simp only [List.length_cons]
    omega
  · intro position item found
    cases position with
    | zero =>
        simp only [List.getElem?_cons_zero, Option.some.injEq] at found
        subst item
        exact ⟨nextSeq, lookup, rfl⟩
    | succ position =>
        rw [List.getElem?_cons_succ] at found
        obtain ⟨seq, entry, number⟩ := rest.packets position item found
        exact ⟨seq, (OrderedMap.lookup_of_erase entry).2, by omega⟩
  · intro seq
    simp only
    rw [rest.kept seq, OrderedMap.lookup_erase, succ]
    by_cases same : seq = nextSeq
    · subst seq
      have inside : nextSeq.toNat ≤ nextSeq.toNat ∧
          nextSeq.toNat < result.2.1.toNat := by omega
      rw [if_pos inside, if_pos rfl, ite_self]
    · have different : seq.toNat ≠ nextSeq.toNat :=
        fun equality => same (UInt64.toNat_inj.mp equality)
      have range : (nextSeq.toNat + 1 ≤ seq.toNat ∧
          seq.toNat < result.2.1.toNat) ↔
            (nextSeq.toNat ≤ seq.toNat ∧
              seq.toNat < result.2.1.toNat) := by omega
      simp only [if_neg same, range]
  · exact rest.stopped
  · intro seq low high
    by_cases same : seq = nextSeq
    · exact same ▸ present
    · have different : seq.toNat ≠ nextSeq.toNat :=
        fun equality => same (UInt64.toNat_inj.mp equality)
      have member := rest.filled seq (by omega) high
      exact (Std.ExtTreeMap.mem_erase.mp member).2
  · have smaller := OrderedMap.size_erase_of_mem present
    exact Nat.le_trans rest.shrunk (by omega)

theorem releaseLoop_released (fuel : Nat) (nextSeq : UInt64)
    (window : Window T) (enough : window.size ≤ fuel)
    (within : Within nextSeq.toNat window) :
    Released nextSeq window (releaseLoop fuel nextSeq window) := by
  induction fuel generalizing nextSeq window with
  | zero =>
      have empty : window = ∅ :=
        Std.ExtTreeMap.eq_empty_iff_size_eq_zero.mpr (by omega)
      apply released_nil
      rw [empty]
      exact Std.ExtTreeMap.not_mem_empty
  | succ fuel ih =>
      cases lookup : window[nextSeq]? with
      | none =>
          simp only [releaseLoop, lookup]
          apply released_nil
          simp [Std.ExtTreeMap.mem_iff_isSome_getElem?, lookup]
      | some pkt =>
          have present : nextSeq ∈ window := by
            simp [Std.ExtTreeMap.mem_iff_isSome_getElem?, lookup]
          have succ := toNat_succ_of_within (within nextSeq present).2
          have smaller := OrderedMap.size_erase_of_mem present
          simp only [releaseLoop, lookup]
          apply Released.cons lookup succ
          exact ih (nextSeq + 1) (window.erase nextSeq) (by omega)
            (within_erase within succ)

/-- Eviction only removes packets, and only above the limit. -/
theorem evictLoop_submap (maxWindow fuel : Nat) (window : Window T)
    {seq : UInt64} {pkt : T}
    (kept : (evictLoop maxWindow fuel window)[seq]? = some pkt) :
    window[seq]? = some pkt := by
  induction fuel generalizing window with
  | zero => exact kept
  | succ fuel ih =>
      simp only [evictLoop] at kept
      split at kept
      · split at kept
        · have before := ih _ kept
          exact (OrderedMap.lookup_of_erase before).2
        · exact kept
      · exact kept

theorem mem_of_mem_evictLoop {maxWindow fuel : Nat} {window : Window T}
    {seq : UInt64} (member : seq ∈ evictLoop maxWindow fuel window) :
    seq ∈ window := by
  rw [Std.ExtTreeMap.mem_iff_isSome_getElem?,
    Option.isSome_iff_exists] at member
  obtain ⟨pkt, found⟩ := member
  rw [Std.ExtTreeMap.mem_iff_isSome_getElem?, evictLoop_submap _ _ _ found]
  rfl

theorem evictLoop_of_size_le {maxWindow : Nat} (fuel : Nat)
    {window : Window T} (small : window.size ≤ maxWindow) :
    evictLoop maxWindow fuel window = window := by
  cases fuel with
  | zero => rfl
  | succ fuel => simp only [evictLoop, if_neg (Nat.not_lt.mpr small)]

theorem size_evictLoop_le (maxWindow fuel : Nat) (window : Window T)
    (enough : window.size ≤ maxWindow + fuel) :
    (evictLoop maxWindow fuel window).size ≤ maxWindow := by
  induction fuel generalizing window with
  | zero => simpa [evictLoop] using enough
  | succ fuel ih =>
      simp only [evictLoop]
      by_cases large : maxWindow < window.size
      · rw [if_pos large]
        cases found : OrderedMap.lastKey window with
        | none =>
            rw [OrderedMap.lastKey_eq_none_iff] at found
            simp only
            omega
        | some last =>
            have smaller := OrderedMap.size_erase_of_mem
              (OrderedMap.lastKey_mem found)
            exact ih _ (by omega)
      · rw [if_neg large]
        omega

/-- The buffer of `push` after its release loop: what was handed out, the next
expected number and the packets still held, before shrinking and eviction. -/
def afterRelease (buffer : ReorderBuffer T) (seq : UInt64) (pkt : T) :
    List T × UInt64 × Window T :=
  releaseLoop (buffer.window.insert seq pkt).size buffer.nextSeq
    (buffer.window.insert seq pkt)

/-- The window limit `push` ends with. -/
def limitAfter (buffer : ReorderBuffer T) (seq : UInt64) (pkt : T) : Nat :=
  shrunkWindow (buffer.afterRelease seq pkt).2.2.size
    (grownWindow buffer.nextSeq (buffer.window.insert seq pkt)
      buffer.maxWindow)

theorem push_of_old {buffer : ReorderBuffer T} {seq : UInt64} (pkt : T)
    (old : seq.toNat < buffer.nextSeq.toNat) :
    buffer.push seq pkt = ([], buffer) :=
  if_pos (UInt64.lt_iff_toNat_lt.mpr old)

theorem push_of_new {buffer : ReorderBuffer T} {seq : UInt64} (pkt : T)
    (isNew : buffer.nextSeq.toNat ≤ seq.toNat) :
    buffer.push seq pkt =
      ((buffer.afterRelease seq pkt).1,
        { nextSeq := (buffer.afterRelease seq pkt).2.1
          window := evictLoop (buffer.limitAfter seq pkt)
            (buffer.afterRelease seq pkt).2.2.size
            (buffer.afterRelease seq pkt).2.2
          maxWindow := buffer.limitAfter seq pkt }) := by
  have notOld : ¬ seq < buffer.nextSeq := by
    rw [UInt64.lt_iff_toNat_lt]
    omega
  exact if_neg notOld

inductive Operation (T : Type) where
  | push (seq : UInt64) (pkt : T)
  | popFront

def operate (buffer : ReorderBuffer T) :
    Operation T → List T × ReorderBuffer T
  | .push seq pkt => buffer.push seq pkt
  | .popFront => (buffer.popFront.1.toList, buffer.popFront.2)

/-- The sequence number of a push is below the limit. -/
def Operation.Legal : Operation T → Prop
  | .push seq _ => seq.toNat < seqLimit
  | .popFront => True

/-- Everything a run returned, concatenated. -/
def released (past : List (Operation T × List T)) : List T :=
  (past.map Prod.snd).flatten

/-- Some push of the run supplied `pkt` under number `number`. -/
def Supplied (past : List (Operation T × List T)) (number : Nat) (pkt : T) :
    Prop :=
  ∃ seq : UInt64, Operation.push seq pkt ∈ past.map Prod.fst ∧
    seq.toNat = number

structure InOrderState (start : UInt64) (past : List (Operation T × List T))
    (buffer : ReorderBuffer T) : Prop where
  limit : buffer.nextSeq.toNat ≤ seqLimit
  count : buffer.nextSeq.toNat = start.toNat + (released past).length
  stream : InOrder.Consecutive start.toNat (Supplied past) (released past)
  buffered : ∀ (seq : UInt64) pkt, buffer.window[seq]? = some pkt →
    Operation.push seq pkt ∈ past.map Prod.fst
  ahead : ∀ seq ∈ buffer.window,
    buffer.nextSeq.toNat < seq.toNat ∧ seq.toNat < seqLimit

theorem inOrderState_new (start : UInt64) (small : start.toNat < seqLimit) :
    InOrderState start [] (new start : ReorderBuffer T) := by
  constructor
  · exact Nat.le_of_lt small
  · rfl
  · intro position item found
    cases found
  · intro seq pkt found
    simp [new] at found
  · intro seq member
    simp [new] at member

private theorem released_append (past : List (Operation T × List T))
    (operation : Operation T) (output : List T) :
    released (past ++ [(operation, output)]) = released past ++ output := by
  simp [released]

private theorem supplied_mono (past : List (Operation T × List T))
    (entry : Operation T × List T) (number : Nat) (pkt : T)
    (supplied : Supplied past number pkt) :
    Supplied (past ++ [entry]) number pkt := by
  obtain ⟨seq, member, number_eq⟩ := supplied
  refine ⟨seq, ?_, number_eq⟩
  rw [List.map_append]
  exact List.mem_append_left _ member

/-- A call that returns nothing and leaves the buffer as it was. -/
private theorem inOrderState_idle {start : UInt64}
    {past : List (Operation T × List T)} {buffer : ReorderBuffer T}
    (holds : InOrderState start past buffer) (operation : Operation T) :
    InOrderState start (past ++ [(operation, [])]) buffer := by
  constructor
  · exact holds.limit
  · rw [released_append, List.append_nil]
    exact holds.count
  · rw [released_append, List.append_nil]
    exact holds.stream.mono (supplied_mono past _)
  · intro seq pkt found
    rw [List.map_append]
    exact List.mem_append_left _ (holds.buffered seq pkt found)
  · exact holds.ahead

theorem within_insert {low : Nat} {window : Window T}
    (within : ∀ key ∈ window, low < key.toNat ∧ key.toNat < seqLimit)
    {seq : UInt64} (pkt : T) (above : low ≤ seq.toNat)
    (small : seq.toNat < seqLimit) :
    Within low (window.insert seq pkt) := by
  intro key member
  rcases Std.ExtTreeMap.mem_insert.mp member with same | old
  · rw [Std.LawfulEqCmp.compare_eq_iff_eq] at same
    subst key
    exact ⟨above, small⟩
  · have bounds := within key old
    exact ⟨Nat.le_of_lt bounds.1, bounds.2⟩

/-- The release loop of a legal push, as a specification. -/
theorem afterRelease_released {buffer : ReorderBuffer T}
    (ahead : ∀ key ∈ buffer.window,
      buffer.nextSeq.toNat < key.toNat ∧ key.toNat < seqLimit)
    {seq : UInt64} (pkt : T) (isNew : buffer.nextSeq.toNat ≤ seq.toNat)
    (small : seq.toNat < seqLimit) :
    Released buffer.nextSeq (buffer.window.insert seq pkt)
      (buffer.afterRelease seq pkt) :=
  releaseLoop_released _ _ _ (Nat.le_refl _) (within_insert ahead pkt isNew small)

/-- The packets still held after the release loop lie strictly ahead. -/
theorem Released.ahead {nextSeq : UInt64} {window : Window T}
    {result : List T × UInt64 × Window T}
    (spec : Released nextSeq window result) (within : Within nextSeq.toNat window)
    {seq : UInt64} (member : seq ∈ result.2.2) :
    result.2.1.toNat < seq.toNat ∧ seq.toNat < seqLimit := by
  have kept := spec.kept seq
  rw [Std.ExtTreeMap.mem_iff_isSome_getElem?, kept] at member
  by_cases inside : nextSeq.toNat ≤ seq.toNat ∧
      seq.toNat < result.2.1.toNat
  · simp [inside] at member
  · rw [if_neg inside, ← Std.ExtTreeMap.mem_iff_isSome_getElem?] at member
    have bounds := within seq member
    have different : seq.toNat ≠ result.2.1.toNat := by
      intro equality
      apply spec.stopped
      rw [← UInt64.toNat_inj.mp equality,
        Std.ExtTreeMap.mem_iff_isSome_getElem?, kept, if_neg inside,
        ← Std.ExtTreeMap.mem_iff_isSome_getElem?]
      exact member
    exact ⟨by omega, bounds.2⟩

/-- A push leaves only packets strictly ahead of the next expected one. -/
theorem ahead_push {buffer : ReorderBuffer T}
    (ahead : ∀ key ∈ buffer.window,
      buffer.nextSeq.toNat < key.toNat ∧ key.toNat < seqLimit)
    (seq : UInt64) (pkt : T) (small : seq.toNat < seqLimit) :
    ∀ key ∈ (buffer.push seq pkt).2.window,
      (buffer.push seq pkt).2.nextSeq.toNat < key.toNat ∧
        key.toNat < seqLimit := by
  by_cases old : seq.toNat < buffer.nextSeq.toNat
  · rw [push_of_old pkt old]
    exact ahead
  · have isNew : buffer.nextSeq.toNat ≤ seq.toNat := Nat.le_of_not_lt old
    have spec := afterRelease_released ahead pkt isNew small
    rw [push_of_new pkt isNew]
    intro key member
    exact spec.ahead (within_insert ahead pkt isNew small)
      (mem_of_mem_evictLoop member)

theorem inOrderState_push {start : UInt64}
    {past : List (Operation T × List T)} {buffer : ReorderBuffer T}
    (holds : InOrderState start past buffer) (seq : UInt64) (pkt : T)
    (small : seq.toNat < seqLimit) :
    InOrderState start (past ++ [(.push seq pkt, (buffer.push seq pkt).1)])
      (buffer.push seq pkt).2 := by
  by_cases old : seq.toNat < buffer.nextSeq.toNat
  · rw [push_of_old pkt old]
    exact inOrderState_idle holds _
  · have isNew : buffer.nextSeq.toNat ≤ seq.toNat := Nat.le_of_not_lt old
    have within := within_insert holds.ahead pkt isNew small
    have spec := afterRelease_released holds.ahead pkt isNew small
    have aheadAfter := ahead_push holds.ahead seq pkt small
    rw [push_of_new pkt isNew] at aheadAfter ⊢
    -- A packet found in the window was supplied now or before.
    have inserted : ∀ (key : UInt64) item,
        (buffer.window.insert seq pkt)[key]? = some item →
          Operation.push key item ∈
            (past ++ [(Operation.push seq pkt,
              (buffer.afterRelease seq pkt).1)]).map Prod.fst := by
      intro key item found
      rw [List.map_append]
      rcases OrderedMap.lookup_insert_cases found with
        ⟨same, isNew⟩ | ⟨_, old⟩
      · rw [same, isNew]
        exact List.mem_append_right _ List.mem_cons_self
      · exact List.mem_append_left _ (holds.buffered key item old)
    constructor
    · -- Nothing beyond the limit was ever buffered, so nothing was released.
      apply Nat.le_of_not_lt
      intro beyond
      have last := spec.filled (UInt64.ofNat seqLimit)
        (by
          change buffer.nextSeq.toNat ≤ seqLimit
          exact holds.limit)
        beyond
      have bounds := within _ last
      exact Nat.lt_irrefl _ bounds.2
    · rw [released_append, List.length_append, ← Nat.add_assoc, ← holds.count]
      exact spec.count
    · rw [released_append]
      apply (holds.stream.mono (supplied_mono past _)).append
      intro position item found
      obtain ⟨key, entry, number⟩ := spec.packets position item found
      exact ⟨key, inserted key item entry, by rw [number, holds.count]⟩
    · intro key item found
      have held := evictLoop_submap _ _ _ found
      rw [spec.kept key] at held
      split at held
      · cases held
      · exact inserted key item held
    · exact aheadAfter

/-- Behind a push nothing is left to pop: the expected number is missing. -/
theorem popFront_eq_none {start : UInt64}
    {past : List (Operation T × List T)} {buffer : ReorderBuffer T}
    (holds : InOrderState start past buffer) :
    buffer.popFront = (none, buffer) := by
  unfold popFront
  cases lookup : buffer.window[buffer.nextSeq]? with
  | none => rfl
  | some pkt =>
      have present : buffer.nextSeq ∈ buffer.window := by
        rw [Std.ExtTreeMap.mem_iff_isSome_getElem?, lookup]
        rfl
      exact (Nat.lt_irrefl _ (holds.ahead _ present).1).elim

theorem inOrderState_run (start : UInt64) (small : start.toNat < seqLimit)
    (operations : List (Operation T))
    (legal : ∀ operation ∈ operations, operation.Legal) :
    InOrderState start (Trace.history operate (new start) operations)
      (Trace.final operate (new start) operations) := by
  apply Trace.invariant_on Operation.Legal _ _ operations legal
  · exact inOrderState_new start small
  · intro past buffer operation isLegal holds
    cases operation with
    | push seq pkt => exact inOrderState_push holds seq pkt isLegal
    | popFront =>
        simp only [operate, popFront_eq_none holds, Option.toList_none]
        exact inOrderState_idle holds _

/-- The released stream of a run: one supplied packet for each number from
`start` up to the next expected one, and only later numbers are buffered. -/
structure DeliversInOrder (start : UInt64) (operations : List (Operation T)) :
    Prop where
  count : (Trace.final operate (new start) operations).nextSeq.toNat =
    start.toNat +
      (released (Trace.history operate (new start) operations)).length
  stream : InOrder.Consecutive start.toNat
    (Supplied (Trace.history operate (new start) operations))
    (released (Trace.history operate (new start) operations))
  ahead : ∀ seq ∈ (Trace.final operate (new start) operations).window,
    (Trace.final operate (new start) operations).nextSeq.toNat < seq.toNat

theorem reorder_delivers_in_order (start : UInt64)
    (small : start.toNat < 2 ^ 61) (operations : List (Operation T))
    (legal : ∀ operation ∈ operations, operation.Legal) :
    DeliversInOrder start operations := by
  have holds := inOrderState_run start small operations legal
  refine ⟨holds.count, holds.stream, ?_⟩
  intro seq member
  exact (holds.ahead seq member).1

theorem reorder_delivers_in_order_sample :
    DeliversInOrder 0 [.push 1 10, .push 0 20, .popFront, .push 0 99,
      .push 5 30] := by
  apply reorder_delivers_in_order
  · decide
  · simp [Operation.Legal, seqLimit]

example : released (Trace.history operate (new 0)
    [.push 1 10, .push 0 20, .popFront, .push 0 99, .push 5 30]) =
      [20, 10] := by decide

end ReorderBuffer

end NyxNet.Stream
