import NyxNet.Stream.Reorder

/-!
# Capacity of the reordering buffer

The window limit doubles at most once per push and may be halved again in the
same call.  Buffered numbers are distinct and lie between the next expected
number and the highest one, so the observed gap is at least the occupancy and
the limit outgrows it until it reaches 8192.  Below that occupancy nothing is
ever evicted, and the buffer then holds exactly what is waiting.
-/

namespace NyxNet.Stream

namespace ReorderBuffer

variable {T : Type}

/-- A window limit the buffer can have: a power of two from 32 to 8192. -/
def WindowLimit (limit : Nat) : Prop :=
  ∃ exponent, 5 ≤ exponent ∧ exponent ≤ 13 ∧ limit = 2 ^ exponent

theorem WindowLimit.bounds {limit : Nat} (isLimit : WindowLimit limit) :
    32 ≤ limit ∧ limit ≤ 8192 := by
  obtain ⟨exponent, low, high, rfl⟩ := isLimit
  have lower : 2 ^ 5 ≤ 2 ^ exponent := Nat.pow_le_pow_right (by decide) low
  have upper : 2 ^ exponent ≤ 2 ^ 13 := Nat.pow_le_pow_right (by decide) high
  exact ⟨lower, upper⟩

theorem WindowLimit.doubled {limit : Nat} (isLimit : WindowLimit limit)
    (below : limit < 8192) :
    WindowLimit (min (limit * 2) 8192) ∧ min (limit * 2) 8192 = limit * 2 := by
  obtain ⟨exponent, low, high, rfl⟩ := isLimit
  have exponentBelow : exponent < 13 := by
    apply Nat.lt_of_not_le
    intro atLeast
    have large : 2 ^ 13 ≤ 2 ^ exponent :=
      Nat.pow_le_pow_right (by decide) atLeast
    omega
  have doubledLe : 2 ^ (exponent + 1) ≤ 2 ^ 13 :=
    Nat.pow_le_pow_right (by decide) (by omega)
  have capped : min (2 ^ exponent * 2) 8192 = 2 ^ exponent * 2 :=
    Nat.min_eq_left (by rw [← Nat.pow_succ]; exact doubledLe)
  rw [capped]
  exact ⟨⟨exponent + 1, by omega, by omega, rfl⟩, rfl⟩

theorem WindowLimit.halved {limit : Nat} (isLimit : WindowLimit limit)
    (above : 32 < limit) : WindowLimit (limit / 2) := by
  obtain ⟨exponent, low, high, rfl⟩ := isLimit
  have exponentAbove : 5 < exponent := by
    apply Nat.lt_of_not_le
    intro atMost
    have small : 2 ^ exponent ≤ 2 ^ 5 :=
      Nat.pow_le_pow_right (by decide) atMost
    omega
  obtain ⟨previous, rfl⟩ : ∃ previous, exponent = previous + 1 :=
    ⟨exponent - 1, by omega⟩
  refine ⟨previous, by omega, by omega, ?_⟩
  rw [Nat.pow_succ, Nat.mul_div_cancel _ (by decide)]

/-- The gap between the expected and the highest number counts at least the
buffered packets, and its multiple does not overflow. -/
private theorem size_le_gap {nextSeq high : UInt64} {window : Window T}
    (within : Within nextSeq.toNat window)
    (found : OrderedMap.lastKey window = some high) :
    window.size ≤ ((high - nextSeq + 1) * 5 / 4).toNat := by
  have highBounds := within high (OrderedMap.lastKey_mem found)
  have occupancy := OrderedMap.size_le_of_bounds
    (fun left right => UInt64.toNat_inj.mp)
    (fun key member => (within key member).1)
    (fun key member =>
      UInt64.le_iff_toNat_le.mp (OrderedMap.le_lastKey found member))
  unfold seqLimit at highBounds
  have difference : (high - nextSeq).toNat = high.toNat - nextSeq.toNat :=
    UInt64.toNat_sub_of_le _ _ (UInt64.le_iff_toNat_le.mpr highBounds.1)
  have gap : (high - nextSeq + 1).toNat = high.toNat - nextSeq.toNat + 1 := by
    rw [UInt64.toNat_add_of_fits, difference]
    · rfl
    · rw [difference]
      change high.toNat - nextSeq.toNat + 1 < 2 ^ 64
      omega
  have multiple : ((high - nextSeq + 1) * 5).toNat =
      (high.toNat - nextSeq.toNat + 1) * 5 := by
    rw [UInt64.toNat_mul, gap]
    exact Nat.mod_eq_of_lt (by
      change (high.toNat - nextSeq.toNat + 1) * 5 < 2 ^ 64
      omega)
  rw [UInt64.toNat_div, multiple]
  change window.size ≤ (high.toNat - nextSeq.toNat + 1) * 5 / 4
  omega

/-- Growth keeps a legal limit and outruns the occupancy, unless the limit is
already at its cap. -/
theorem grownWindow_spec {nextSeq : UInt64} {window : Window T}
    {maxWindow : Nat} (within : Within nextSeq.toNat window)
    (isLimit : WindowLimit maxWindow) (room : window.size ≤ maxWindow + 1) :
    WindowLimit (grownWindow nextSeq window maxWindow) ∧
      (window.size ≤ grownWindow nextSeq window maxWindow ∨
        grownWindow nextSeq window maxWindow = 8192) := by
  unfold grownWindow
  cases found : OrderedMap.lastKey window with
  | none =>
      have empty := OrderedMap.lastKey_eq_none_iff.mp found
      exact ⟨isLimit, Or.inl (by simp only; omega)⟩
  | some high =>
      have occupancy := size_le_gap within found
      have bounds := isLimit.bounds
      by_cases wide : maxWindow < ((high - nextSeq + 1) * 5 / 4).toNat
      · by_cases below : maxWindow < 8192
        · obtain ⟨doubled, doubledEq⟩ := isLimit.doubled below
          simp only [wide, below, and_self, if_true]
          refine ⟨doubled, Or.inl ?_⟩
          omega
        · simp only [below, and_false, if_false]
          exact ⟨isLimit, Or.inr (by omega)⟩
      · simp only [wide, false_and, if_false]
        exact ⟨isLimit, Or.inl (by omega)⟩

theorem shrunkWindow_spec {size maxWindow : Nat}
    (isLimit : WindowLimit maxWindow)
    (room : size ≤ maxWindow ∨ maxWindow = 8192) :
    WindowLimit (shrunkWindow size maxWindow) ∧
      (size ≤ shrunkWindow size maxWindow ∨
        shrunkWindow size maxWindow = 8192) := by
  unfold shrunkWindow
  by_cases small : size < maxWindow / 4 ∧ 32 < maxWindow
  · rw [if_pos small]
    exact ⟨isLimit.halved small.2, Or.inl (by omega)⟩
  · rw [if_neg small]
    exact ⟨isLimit, room⟩

/-- The size discipline of a buffer between calls. -/
structure Capacity (buffer : ReorderBuffer T) : Prop where
  ahead : ∀ seq ∈ buffer.window,
    buffer.nextSeq.toNat < seq.toNat ∧ seq.toNat < seqLimit
  isLimit : WindowLimit buffer.maxWindow
  room : buffer.window.size ≤ buffer.maxWindow

theorem capacity_new (start : UInt64) :
    (new start : ReorderBuffer T).Capacity := by
  constructor
  · intro seq member
    simp [new] at member
  · exact ⟨7, by decide, by decide, rfl⟩
  · exact Nat.zero_le _

/-- The limit a push ends with is legal, and it only falls short of the
packets still held when more than 8192 of them are. -/
theorem limitAfter_spec {buffer : ReorderBuffer T} (holds : buffer.Capacity)
    {seq : UInt64} (pkt : T) (isNew : buffer.nextSeq.toNat ≤ seq.toNat)
    (small : seq.toNat < seqLimit) :
    WindowLimit (buffer.limitAfter seq pkt) ∧
      ((buffer.afterRelease seq pkt).2.2.size ≤ buffer.limitAfter seq pkt ∨
        buffer.limitAfter seq pkt = 8192) := by
  have within := within_insert holds.ahead pkt isNew small
  have spec := afterRelease_released holds.ahead pkt isNew small
  have occupancy : (buffer.window.insert seq pkt).size ≤
      buffer.maxWindow + 1 :=
    Nat.le_trans (OrderedMap.size_insert_le seq pkt)
      (Nat.succ_le_succ holds.room)
  obtain ⟨grown, outran⟩ := grownWindow_spec within holds.isLimit occupancy
  apply shrunkWindow_spec grown
  rcases outran with enough | capped
  · exact Or.inl (Nat.le_trans spec.shrunk enough)
  · exact Or.inr capped

/-- Up to 8192 held packets, a push evicts nothing. -/
theorem push_window_eq {buffer : ReorderBuffer T} (holds : buffer.Capacity)
    {seq : UInt64} (pkt : T) (isNew : buffer.nextSeq.toNat ≤ seq.toNat)
    (small : seq.toNat < seqLimit)
    (few : (buffer.afterRelease seq pkt).2.2.size ≤ 8192) :
    (buffer.push seq pkt).2.window = (buffer.afterRelease seq pkt).2.2 := by
  rw [push_of_new pkt isNew]
  apply evictLoop_of_size_le
  rcases (limitAfter_spec holds pkt isNew small).2 with enough | capped
  · exact enough
  · rw [capped]
    exact few

theorem capacity_push {buffer : ReorderBuffer T} (holds : buffer.Capacity)
    (seq : UInt64) (pkt : T) (small : seq.toNat < seqLimit) :
    (buffer.push seq pkt).2.Capacity := by
  refine ⟨ahead_push holds.ahead seq pkt small, ?_, ?_⟩
  · by_cases old : seq.toNat < buffer.nextSeq.toNat
    · rw [push_of_old pkt old]
      exact holds.isLimit
    · have isNew : buffer.nextSeq.toNat ≤ seq.toNat := Nat.le_of_not_lt old
      rw [push_of_new pkt isNew]
      exact (limitAfter_spec holds pkt isNew small).1
  · by_cases old : seq.toNat < buffer.nextSeq.toNat
    · rw [push_of_old pkt old]
      exact holds.room
    · rw [push_of_new pkt (Nat.le_of_not_lt old)]
      exact size_evictLoop_le _ _ _ (Nat.le_add_left _ _)

/-- One arriving packet: its sequence number and its content. -/
def receive (buffer : ReorderBuffer T) (packet : UInt64 × T) :
    List T × ReorderBuffer T :=
  buffer.push packet.1 packet.2

/-- The buffer that has received `packets`, starting fresh. -/
def received (start : UInt64) (packets : List (UInt64 × T)) :
    ReorderBuffer T :=
  Trace.final receive (new start) packets

/-- Everything a fresh buffer hands out while receiving `packets`. -/
def delivered (start : UInt64) (packets : List (UInt64 × T)) : List T :=
  ((Trace.history receive (new start) packets).map Prod.snd).flatten

/-- The packets a push leaves buffered before it evicts any. -/
def drainedWindow (buffer : ReorderBuffer T) (seq : UInt64) (pkt : T) :
    Window T :=
  if seq < buffer.nextSeq then buffer.window
  else (buffer.afterRelease seq pkt).2.2

/-- Some packet with number `number` and content `pkt` arrived. -/
def Arrived (packets : List (UInt64 × T)) (number : Nat) (pkt : T) : Prop :=
  ∃ seq : UInt64, (seq, pkt) ∈ packets ∧ seq.toNat = number

theorem capacity_received (start : UInt64) (packets : List (UInt64 × T))
    (small : ∀ packet ∈ packets, packet.1.toNat < seqLimit) :
    (received start packets).Capacity := by
  apply Trace.final_invariant_on
    (fun packet : UInt64 × T => packet.1.toNat < seqLimit) _ packets small
  · exact capacity_new start
  · intro buffer packet isSmall holds
    exact capacity_push holds packet.1 packet.2 isSmall

theorem push_window_eq_drainedWindow {buffer : ReorderBuffer T}
    (holds : buffer.Capacity) (seq : UInt64) (pkt : T)
    (small : seq.toNat < seqLimit)
    (few : (buffer.drainedWindow seq pkt).size ≤ 8192) :
    (buffer.push seq pkt).2.window = buffer.drainedWindow seq pkt := by
  unfold drainedWindow at few ⊢
  by_cases old : seq < buffer.nextSeq
  · rw [if_pos old, push_of_old pkt (UInt64.lt_iff_toNat_lt.mp old)]
  · rw [if_neg old] at few ⊢
    apply push_window_eq holds pkt _ small few
    rw [UInt64.lt_iff_toNat_lt] at old
    exact Nat.le_of_not_lt old

/-- A run of pushes is a run of the buffer's operations. -/
theorem inOrderState_received (start : UInt64)
    (startSmall : start.toNat < seqLimit) (packets : List (UInt64 × T))
    (small : ∀ packet ∈ packets, packet.1.toNat < seqLimit) :
    (received start packets).nextSeq.toNat =
        start.toNat + (delivered start packets).length ∧
      InOrder.Consecutive start.toNat (Arrived packets)
        (delivered start packets) := by
  have holds := inOrderState_run start startSmall
    (packets.map (fun packet => Operation.push packet.1 packet.2))
    (by
      intro operation member
      obtain ⟨packet, present, rfl⟩ := List.mem_map.mp member
      exact small packet present)
  have count := holds.count
  have stream := holds.stream
  rw [Trace.final_map] at count
  rw [Trace.history_map] at count stream
  unfold released at count stream
  rw [List.map_map, show (Prod.snd ∘ Prod.map
    (fun packet : UInt64 × T => Operation.push packet.1 packet.2) id) =
      (Prod.snd : (UInt64 × T) × List T → List T) from rfl] at count stream
  refine ⟨count, stream.mono ?_⟩
  intro number pkt supplied
  obtain ⟨seq, member, number_eq⟩ := supplied
  rw [← Trace.history_map, Trace.map_fst_history] at member
  obtain ⟨packet, present, equality⟩ := List.mem_map.mp member
  cases equality
  exact ⟨packet.1, present, number_eq⟩

/-- The numbers of the packets, in order of arrival. -/
def numbers (packets : List (UInt64 × T)) : List Nat :=
  packets.map (fun packet => packet.1.toNat)

/-- At no time do more than 8192 packets wait for an earlier one. -/
def FewWaiting (start : UInt64) (packets : List (UInt64 × T)) : Prop :=
  ∀ front, front <+: packets →
    (InOrder.waiting start.toNat (numbers front)).card ≤ 8192

theorem fewWaiting_of_length_le (start : UInt64)
    {packets : List (UInt64 × T)} (short : packets.length ≤ 8192) :
    FewWaiting start packets := by
  intro front isFront
  calc
    (InOrder.waiting start.toNat (numbers front)).card
        ≤ (numbers front).length := InOrder.card_waiting_le _ _
    _ = front.length := List.length_map _
    _ ≤ packets.length := isFront.length_le
    _ ≤ 8192 := short

/-- Nothing that arrived has been lost: it was released or is still held. -/
structure Complete (start : UInt64) (packets : List (UInt64 × T))
    (nextSeq : UInt64) (window : Window T) : Prop where
  reached : start.toNat ≤ nextSeq.toNat
  filled : ∀ seq : UInt64, start.toNat ≤ seq.toNat →
    seq.toNat < nextSeq.toNat → seq ∈ packets.map Prod.fst
  held : ∀ seq : UInt64, nextSeq.toNat ≤ seq.toNat →
    (seq ∈ window ↔ seq ∈ packets.map Prod.fst)

theorem mem_numbers {packets : List (UInt64 × T)} {seq : UInt64} :
    seq.toNat ∈ numbers packets ↔ seq ∈ packets.map Prod.fst := by
  constructor
  · intro member
    obtain ⟨packet, present, equality⟩ := List.mem_map.mp member
    exact List.mem_map.mpr ⟨packet, present, UInt64.toNat_inj.mp equality⟩
  · intro member
    obtain ⟨packet, present, rfl⟩ := List.mem_map.mp member
    exact List.mem_map.mpr ⟨packet, present, rfl⟩

/-- A complete buffer whose packets lie ahead holds exactly the waiting ones. -/
theorem Complete.size_eq {start nextSeq : UInt64}
    {packets : List (UInt64 × T)} {window : Window T}
    (complete : Complete start packets nextSeq window)
    (ahead : ∀ seq ∈ window, nextSeq.toNat < seq.toNat) :
    window.size =
      (InOrder.waiting start.toNat (numbers packets)).card := by
  have missing : nextSeq.toNat ∉ numbers packets := by
    rw [mem_numbers, ← complete.held nextSeq (Nat.le_refl _)]
    intro present
    exact Nat.lt_irrefl _ (ahead nextSeq present)
  have first : InOrder.firstMissing start.toNat (numbers packets) =
      nextSeq.toNat := by
    apply InOrder.firstMissing_eq complete.reached missing
    intro number low high
    have number_eq : (UInt64.ofNat number).toNat = number :=
      UInt64.toNat_ofNat_of_fits (Nat.lt_trans high nextSeq.toNat_lt)
    rw [← number_eq, mem_numbers]
    exact complete.filled _ (by rw [number_eq]; exact low)
      (by rw [number_eq]; exact high)
  rw [← OrderedMap.card_keyNats (fun left right => UInt64.toNat_inj.mp)]
  congr 1
  ext number
  rw [OrderedMap.mem_keyNats, InOrder.waiting, Finset.mem_filter,
    List.mem_toFinset, first]
  constructor
  · intro facts
    obtain ⟨seq, present, rfl⟩ := facts
    have above := ahead seq present
    exact ⟨mem_numbers.mpr
      ((complete.held seq (Nat.le_of_lt above)).mp present), above⟩
  · intro facts
    obtain ⟨member, above⟩ := facts
    obtain ⟨packet, present, rfl⟩ := List.mem_map.mp member
    refine ⟨packet.1, ?_, rfl⟩
    exact (complete.held packet.1 (Nat.le_of_lt above)).mpr
      (List.mem_map_of_mem present)

/-- An old packet changes nothing. -/
private theorem Complete.ignored {start nextSeq : UInt64}
    {packets : List (UInt64 × T)} {window : Window T}
    (complete : Complete start packets nextSeq window) {seq : UInt64}
    (pkt : T) (old : seq.toNat < nextSeq.toNat) :
    Complete start (packets ++ [(seq, pkt)]) nextSeq window := by
  constructor
  · exact complete.reached
  · intro key low high
    rw [List.map_append]
    exact List.mem_append_left _ (complete.filled key low high)
  · intro key above
    have different : key ≠ seq := by
      intro equality
      subst key
      omega
    simpa [different] using complete.held key above

/-- The release loop loses nothing. -/
theorem Complete.released {start : UInt64}
    {packets : List (UInt64 × T)} {buffer : ReorderBuffer T}
    (complete : Complete start packets buffer.nextSeq buffer.window)
    {seq : UInt64} {pkt : T}
    (spec : Released buffer.nextSeq (buffer.window.insert seq pkt)
      (buffer.afterRelease seq pkt)) :
    Complete start (packets ++ [(seq, pkt)])
      (buffer.afterRelease seq pkt).2.1
      (buffer.afterRelease seq pkt).2.2 := by
  have inserted : ∀ key : UInt64, buffer.nextSeq.toNat ≤ key.toNat →
      (key ∈ buffer.window.insert seq pkt ↔
        key ∈ (packets ++ [(seq, pkt)]).map Prod.fst) := by
    intro key above
    rw [Std.ExtTreeMap.mem_insert, Std.LawfulEqCmp.compare_eq_iff_eq,
      complete.held key above, List.map_append, List.mem_append, or_comm]
    simp [eq_comm]
  have progress := spec.count
  constructor
  · exact Nat.le_trans complete.reached (by omega)
  · intro key low high
    by_cases before : key.toNat < buffer.nextSeq.toNat
    · rw [List.map_append]
      exact List.mem_append_left _ (complete.filled key low before)
    · have above : buffer.nextSeq.toNat ≤ key.toNat :=
        Nat.le_of_not_lt before
      exact (inserted key above).mp (spec.filled key above high)
  · intro key above
    have outside : ¬ (buffer.nextSeq.toNat ≤ key.toNat ∧
        key.toNat < (buffer.afterRelease seq pkt).2.1.toNat) := by omega
    rw [Std.ExtTreeMap.mem_iff_isSome_getElem?, spec.kept key,
      if_neg outside, ← Std.ExtTreeMap.mem_iff_isSome_getElem?]
    exact inserted key (by omega)

theorem complete_push {start : UInt64} {packets : List (UInt64 × T)}
    {buffer : ReorderBuffer T} (holds : buffer.Capacity)
    (complete : Complete start packets buffer.nextSeq buffer.window)
    (seq : UInt64) (pkt : T) (small : seq.toNat < seqLimit)
    (few : (InOrder.waiting start.toNat
      (numbers (packets ++ [(seq, pkt)]))).card ≤ 8192) :
    Complete start (packets ++ [(seq, pkt)])
      (buffer.push seq pkt).2.nextSeq (buffer.push seq pkt).2.window := by
  by_cases old : seq.toNat < buffer.nextSeq.toNat
  · rw [push_of_old pkt old]
    exact complete.ignored pkt old
  · have isNew : buffer.nextSeq.toNat ≤ seq.toNat := Nat.le_of_not_lt old
    have within := within_insert holds.ahead pkt isNew small
    have spec := afterRelease_released holds.ahead pkt isNew small
    have after := complete.released spec
    have occupancy := after.size_eq
      (fun key member => (spec.ahead within member).1)
    rw [push_window_eq holds pkt isNew small (by omega),
      push_of_new pkt isNew]
    exact after

theorem complete_received (start : UInt64) (packets : List (UInt64 × T))
    (small : ∀ packet ∈ packets, packet.1.toNat < seqLimit)
    (few : FewWaiting start packets) :
    Complete start packets (received start packets).nextSeq
      (received start packets).window := by
  induction packets using List.reverseRecOn with
  | nil =>
      constructor
      · exact Nat.le_refl _
      · intro seq low high
        exact (Nat.not_lt.mpr low high).elim
      · intro seq _
        simp [received, Trace.final, new]
  | append_singleton packets packet ih =>
      have smallBefore : ∀ earlier ∈ packets, earlier.1.toNat < seqLimit :=
        fun earlier member => small earlier (List.mem_append_left _ member)
      have complete := ih smallBefore
        (fun front isFront => few front
          (isFront.trans (List.prefix_append packets [packet])))
      have next := complete_push (capacity_received start packets smallBefore)
        complete packet.1 packet.2
        (small packet (List.mem_append_right _ List.mem_cons_self))
        (few _ (List.prefix_refl _))
      unfold received at next ⊢
      rw [Trace.final_append]
      exact next

/-- Every number from `start` on, up to `count` of them, arrives, and no
other does. -/
structure Covers (start : UInt64) (count : Nat)
    (packets : List (UInt64 × T)) : Prop where
  limit : start.toNat + count ≤ seqLimit
  bounds : ∀ packet ∈ packets, start.toNat ≤ packet.1.toNat ∧
    packet.1.toNat < start.toNat + count
  every : ∀ index, index < count → start.toNat + index ∈ numbers packets

theorem Covers.small {start : UInt64} {count : Nat}
    {packets : List (UInt64 × T)} (covers : Covers start count packets) :
    ∀ packet ∈ packets, packet.1.toNat < seqLimit := by
  intro packet member
  exact Nat.lt_of_lt_of_le (covers.bounds packet member).2 covers.limit

/-- A complete buffer that has seen every number expects the one after. -/
theorem Covers.nextSeq_eq {start nextSeq : UInt64} {count : Nat}
    {packets : List (UInt64 × T)} {window : Window T}
    (covers : Covers start count packets)
    (complete : Complete start packets nextSeq window)
    (ahead : ∀ seq ∈ window, nextSeq.toNat < seq.toNat) :
    nextSeq.toNat = start.toNat + count := by
  apply Nat.le_antisymm
  · apply Nat.le_of_not_lt
    intro beyond
    have limit := covers.limit
    unfold seqLimit at limit
    have last_eq : (UInt64.ofNat (start.toNat + count)).toNat =
        start.toNat + count :=
      UInt64.toNat_ofNat_of_fits (by omega)
    have arrived := complete.filled (UInt64.ofNat (start.toNat + count))
      (by omega) (by omega)
    obtain ⟨packet, member, equality⟩ := List.mem_map.mp arrived
    have bounds := covers.bounds packet member
    rw [equality] at bounds
    omega
  · apply Nat.le_of_not_lt
    intro short
    have reached := complete.reached
    have arrived := covers.every (nextSeq.toNat - start.toNat) (by omega)
    rw [Nat.add_sub_of_le reached, mem_numbers] at arrived
    have present := (complete.held nextSeq (Nat.le_refl _)).mpr arrived
    exact Nat.lt_irrefl _ (ahead nextSeq present)

/-- The packets `start`, `start + 1`, … are handed out, one for each of the
`count` numbers. -/
structure DeliversAll (start : UInt64) (count : Nat)
    (packets : List (UInt64 × T)) : Prop where
  nextSeq : (received start packets).nextSeq.toNat = start.toNat + count
  length : (delivered start packets).length = count
  stream : InOrder.Consecutive start.toNat (Arrived packets)
    (delivered start packets)

theorem deliversAll_of_covers (start : UInt64) (count : Nat)
    (packets : List (UInt64 × T)) (covers : Covers start count packets)
    (few : FewWaiting start packets) : DeliversAll start count packets := by
  have capacity := capacity_received start packets covers.small
  have complete := complete_received start packets covers.small few
  have next := covers.nextSeq_eq complete
    (fun seq member => (capacity.ahead seq member).1)
  cases count with
  | zero =>
      -- Without any number to cover there is no packet either.
      have none : packets = [] := by
        apply List.eq_nil_iff_forall_not_mem.mpr
        intro packet member
        have bounds := covers.bounds packet member
        omega
      subst packets
      refine ⟨rfl, rfl, ?_⟩
      intro position item found
      cases found
  | succ previous =>
      have startSmall : start.toNat < seqLimit := by
        have limit := covers.limit
        omega
      obtain ⟨counted, stream⟩ := inOrderState_received start startSmall
        packets covers.small
      exact ⟨next, by omega, stream⟩

/-- The size discipline of a buffer that has received `packets`. -/
structure KeepsCapacity (start : UInt64) (packets : List (UInt64 × T)) :
    Prop where
  power : ∃ exponent, (received start packets).maxWindow = 2 ^ exponent
  low : 32 ≤ (received start packets).maxWindow
  high : (received start packets).maxWindow ≤ 8192
  room : (received start packets).window.size ≤
    (received start packets).maxWindow
  evicts : ∀ (seq : UInt64) (pkt : T), seq.toNat < seqLimit →
    ∀ lost ∈ (received start packets).drainedWindow seq pkt,
      lost ∉ ((received start packets).push seq pkt).2.window →
        8192 < ((received start packets).drainedWindow seq pkt).size

theorem reorder_capacity (start : UInt64) :
    (∀ packets : List (UInt64 × T),
      (∀ packet ∈ packets, packet.1.toNat < seqLimit) →
        KeepsCapacity start packets) ∧
      ∀ (count : Nat) (packets : List (UInt64 × T)),
        Covers start count packets → FewWaiting start packets →
          DeliversAll start count packets := by
  refine ⟨?_, deliversAll_of_covers start⟩
  intro packets small
  have capacity := capacity_received start packets small
  obtain ⟨exponent, -, -, power⟩ := capacity.isLimit
  refine ⟨⟨exponent, power⟩, capacity.isLimit.bounds.1,
    capacity.isLimit.bounds.2, capacity.room, ?_⟩
  intro seq pkt seqSmall lost present absent
  apply Nat.lt_of_not_le
  intro few
  rw [push_window_eq_drainedWindow capacity seq pkt seqSmall few] at absent
  exact absent present

theorem reorder_capacity_sample :
    KeepsCapacity 5 [((9 : UInt64), 'x')] ∧
      DeliversAll 5 3 [((6 : UInt64), 'b'), (5, 'a'), (6, 'b'), (7, 'c')] := by
  constructor
  · apply (reorder_capacity 5).1
    simp [seqLimit]
  · apply (reorder_capacity 5).2
    · refine ⟨by decide, by decide, ?_⟩
      decide
    · exact fewWaiting_of_length_le _ (by decide)

example : delivered 5 [((6 : UInt64), 'b'), (5, 'a'), (6, 'b'), (7, 'c')] =
    ['a', 'b', 'c'] := by decide

end ReorderBuffer

end NyxNet.Stream
