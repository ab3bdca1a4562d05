import Mathlib.Data.List.Induction
import Mathlib.Data.List.Nodup
import Mathlib.Logic.Relation
import Mathlib.Tactic.Common

/-!
# Things that need each other

A walk that visits what is needed first finds an order in which everything can
be put up, one thing after another.  What stands has what it needs at every
moment when things are put up in such an order and taken down in its reverse.
-/

/-- What everything needs.  Nothing needs itself, not even through others: a
need has a lower rank. -/
structure Needs (α : Type*) where
  needs : α → List α
  rank : α → Nat
  rank_lt : ∀ {node need : α}, need ∈ needs node → rank need < rank node

namespace Needs

variable {α : Type*} (table : Needs α)

/-- Everything in the list comes after what it needs. -/
inductive Ordered : List α → Prop where
  | nil : Ordered []
  | snoc {order : List α} {node : α} : Ordered order →
      (∀ need ∈ table.needs node, need ∈ order) →
      Ordered (order ++ [node])

/-- One thing needs the other, directly or through others, or is the other. -/
def Reaches : α → α → Prop :=
  Relation.ReflTransGen fun node need => need ∈ table.needs node

/-- Everything that stands has what it needs. -/
def Supported (standing : α → Prop) : Prop :=
  ∀ node, standing node → ∀ need ∈ table.needs node, standing need

variable {table}

theorem Ordered.closed {order : List α} (ordered : table.Ordered order)
    {node need : α} (member : node ∈ order)
    (needed : need ∈ table.needs node) : need ∈ order := by
  induction ordered with
  | nil => cases member
  | snoc ordered before ih =>
      apply List.mem_append_left
      rcases List.mem_append.mp member with earlier | last
      · exact ih earlier
      · rw [List.mem_singleton.mp last] at needed
        exact before need needed

theorem Ordered.reaches {order : List α} (ordered : table.Ordered order)
    {node other : α} (member : node ∈ order)
    (reached : table.Reaches node other) : other ∈ order := by
  induction reached with
  | refl => exact member
  | tail _ needed ih => exact ordered.closed ih needed

theorem Ordered.of_prefix {front order : List α}
    (ordered : table.Ordered order) (isPrefix : front <+: order) :
    table.Ordered front := by
  induction ordered with
  | nil =>
      rw [List.prefix_nil.mp isPrefix]
      exact .nil
  | snoc ordered before ih =>
      rcases List.prefix_concat_iff.mp isPrefix with whole | shorter
      · rw [whole]
        exact .snoc ordered before
      · exact ih shorter

section Walk

/-- What the walk has put in order and what it has been to. -/
structure Walk (α : Type*) where
  chain : List α
  visited : List α
  deriving DecidableEq

/-- The chain is in order, nothing is in it twice, and what was visited and is
not in it yet has the rank given at least. -/
structure Walk.Sound (table : Needs α) (bound : Nat) (walk : Walk α) :
    Prop where
  ordered : table.Ordered walk.chain
  nodup : walk.chain.Nodup
  pending : ∀ node ∈ walk.visited, node ∉ walk.chain → bound ≤ table.rank node

theorem Walk.Sound.weaken {low high : Nat} {walk : Walk α}
    (sound : walk.Sound table high) (le : low ≤ high) :
    walk.Sound table low :=
  ⟨sound.ordered, sound.nodup, fun node visited missing =>
    Nat.le_trans le (sound.pending node visited missing)⟩

/-- What a walk from the nodes adds to an earlier one. -/
structure Walk.Extends (table : Needs α) (nodes : List α)
    (before after : Walk α) : Prop where
  grows : before.chain ⊆ after.chain
  reached : ∀ other ∈ after.chain,
    other ∈ before.chain ∨ ∃ node ∈ nodes, table.Reaches node other
  settled : ∀ other ∈ after.visited, other ∉ after.chain →
    other ∈ before.visited ∧ other ∉ before.chain
  holds : ∀ node ∈ nodes, node ∈ after.chain

theorem Walk.Extends.sound {nodes : List α} {before after : Walk α}
    {bound low : Nat} (extended : before.Extends table nodes after)
    (soundAfter : after.Sound table low)
    (soundBefore : before.Sound table bound) : after.Sound table bound :=
  ⟨soundAfter.ordered, soundAfter.nodup, fun node visited missing =>
    have earlier := extended.settled node visited missing
    soundBefore.pending node earlier.1 earlier.2⟩

theorem Walk.Extends.refl {nodes : List α} {walk : Walk α}
    (holds : ∀ node ∈ nodes, node ∈ walk.chain) :
    walk.Extends table nodes walk :=
  ⟨List.Subset.refl _, fun _ member => Or.inl member,
    fun _ visited missing => ⟨visited, missing⟩, holds⟩

theorem Walk.Extends.cons {node : α} {nodes : List α}
    {before middle after : Walk α}
    (first : before.Extends table [node] middle)
    (rest : middle.Extends table nodes after) :
    before.Extends table (node :: nodes) after := by
  constructor
  · exact List.Subset.trans first.grows rest.grows
  · intro other member
    rcases rest.reached other member with earlier | ⟨start, among, reached⟩
    · rcases first.reached other earlier with older | ⟨start, among, reached⟩
      · exact Or.inl older
      · rw [List.mem_singleton.mp among] at reached
        exact Or.inr ⟨node, List.mem_cons_self, reached⟩
    · exact Or.inr ⟨start, List.mem_cons_of_mem node among, reached⟩
  · intro other visited missing
    have earlier := rest.settled other visited missing
    exact first.settled other earlier.1 earlier.2
  · intro start among
    rcases List.mem_cons.mp among with same | later
    · rw [same]
      exact rest.grows (first.holds node (List.mem_singleton.mpr rfl))
    · exact rest.holds start later

variable [DecidableEq α]

/-- The node at the end of the chain, unless it is in the chain. -/
def Walk.append (walk : Walk α) (node : α) : Walk α :=
  if node ∈ walk.chain then walk
  else { walk with chain := walk.chain ++ [node] }

variable (table) in
/-- What is needed is visited first, to the depth given. -/
def visit : Nat → α → Walk α → Walk α
  | 0, _, walk => walk
  | depth + 1, node, walk =>
      if node ∈ walk.visited then walk
      else
        ((table.needs node).foldl (fun walk need => visit depth need walk)
          { walk with visited := node :: walk.visited }).append node

variable (table) in
/-- The walk from a node, deep enough to end by itself. -/
def chainOf (node : α) : List α :=
  (table.visit (table.rank node + 1) node ⟨[], []⟩).chain

omit [DecidableEq α] in
/-- A node that was not visited is pending while its needs are visited. -/
theorem Walk.Sound.enter {node : α} {walk : Walk α}
    (sound : walk.Sound table (table.rank node + 1)) :
    Walk.Sound table (table.rank node)
      { walk with visited := node :: walk.visited } := by
  refine ⟨sound.ordered, sound.nodup, ?_⟩
  intro other visited missing
  rcases List.mem_cons.mp visited with same | earlier
  · exact Nat.le_of_eq (congrArg table.rank same.symm)
  · exact Nat.le_of_succ_le (sound.pending other earlier missing)

theorem Walk.mem_append_chain {walk : Walk α} {node other : α} :
    other ∈ (walk.append node).chain ↔
      other ∈ walk.chain ∨ other = node := by
  unfold Walk.append
  by_cases present : node ∈ walk.chain
  · rw [if_pos present]
    constructor
    · exact Or.inl
    · intro found
      rcases found with member | same
      · exact member
      · rw [same]
        exact present
  · rw [if_neg present, List.mem_append, List.mem_singleton]

theorem Walk.visited_append {walk : Walk α} {node : α} :
    (walk.append node).visited = walk.visited := by
  unfold Walk.append
  split <;> rfl

theorem Walk.Sound.append {bound : Nat} {node : α} {walk : Walk α}
    (sound : walk.Sound table bound)
    (holds : ∀ need ∈ table.needs node, need ∈ walk.chain) :
    (walk.append node).Sound table bound := by
  constructor
  · unfold Walk.append
    split
    · exact sound.ordered
    · exact .snoc sound.ordered holds
  · unfold Walk.append
    split
    · exact sound.nodup
    · next missing =>
        rw [← List.concat_eq_append]
        exact List.Nodup.concat missing sound.nodup
  · intro other visited missing
    rw [Walk.visited_append] at visited
    rw [Walk.mem_append_chain, not_or] at missing
    exact sound.pending other visited missing.1

/-- Once its needs are in the chain the node itself follows. -/
theorem Walk.Extends.leave {node : α} {walk after : Walk α}
    (extended : Walk.Extends table (table.needs node)
      { walk with visited := node :: walk.visited } after) :
    walk.Extends table [node] (after.append node) := by
  constructor
  · intro other member
    exact Walk.mem_append_chain.mpr (Or.inl (extended.grows member))
  · intro other member
    rcases Walk.mem_append_chain.mp member with member | same
    · rcases extended.reached other member with earlier | ⟨need, among, on⟩
      · exact Or.inl earlier
      · exact Or.inr ⟨node, List.mem_singleton.mpr rfl, .head among on⟩
    · rw [same]
      exact Or.inr ⟨node, List.mem_singleton.mpr rfl, .refl⟩
  · intro other visited missing
    rw [Walk.visited_append] at visited
    rw [Walk.mem_append_chain, not_or] at missing
    have earlier := extended.settled other visited missing.1
    exact ⟨(List.mem_cons.mp earlier.1).resolve_left missing.2, earlier.2⟩
  · intro other among
    rw [List.mem_singleton.mp among]
    exact Walk.mem_append_chain.mpr (Or.inr rfl)

/-- Visits of lower nodes, one after another. -/
theorem foldl_visit {depth bound : Nat}
    (ih : ∀ (node : α) (walk : Walk α), table.rank node < depth →
      walk.Sound table (table.rank node + 1) →
      (table.visit depth node walk).Sound table (table.rank node + 1) ∧
        walk.Extends table [node] (table.visit depth node walk))
    (nodes : List α) (walk : Walk α)
    (lower : ∀ node ∈ nodes, table.rank node < bound)
    (deep : bound ≤ depth) (sound : walk.Sound table bound) :
    (nodes.foldl (fun walk need => table.visit depth need walk) walk).Sound
        table bound ∧
      walk.Extends table nodes
        (nodes.foldl (fun walk need => table.visit depth need walk) walk) := by
  induction nodes generalizing walk with
  | nil => exact ⟨sound, .refl fun _ member => nomatch member⟩
  | cons node nodes inner =>
      have below := lower node List.mem_cons_self
      have visited := ih node walk (Nat.lt_of_lt_of_le below deep)
        (sound.weaken below)
      have rest := inner (table.visit depth node walk)
        (fun other member => lower other (List.mem_cons_of_mem node member))
        (visited.2.sound visited.1 sound)
      exact ⟨rest.1, visited.2.cons rest.2⟩

theorem visit_extends (depth : Nat) (node : α) (walk : Walk α)
    (deep : table.rank node < depth)
    (sound : walk.Sound table (table.rank node + 1)) :
    (table.visit depth node walk).Sound table (table.rank node + 1) ∧
      walk.Extends table [node] (table.visit depth node walk) := by
  induction depth generalizing node walk with
  | zero => exact absurd deep (Nat.not_lt_zero _)
  | succ depth ih =>
      rw [visit]
      by_cases seen : node ∈ walk.visited
      · rw [if_pos seen]
        refine ⟨sound, .refl ?_⟩
        intro other among
        rw [List.mem_singleton.mp among]
        by_contra missing
        exact Nat.lt_irrefl _ (sound.pending node seen missing)
      · rw [if_neg seen]
        obtain ⟨soundAfter, extended⟩ := foldl_visit ih (table.needs node) _
          (fun _ needed => table.rank_lt needed)
          (Nat.le_of_lt_succ deep) sound.enter
        have appended := soundAfter.append extended.holds
        exact ⟨extended.leave.sound appended sound, extended.leave⟩

theorem chainOf_extends (node : α) :
    (table.visit (table.rank node + 1) node ⟨[], []⟩).Sound table
        (table.rank node + 1) ∧
      Walk.Extends table [node] ⟨[], []⟩
        (table.visit (table.rank node + 1) node ⟨[], []⟩) :=
  visit_extends _ node _ (Nat.lt_succ_self _)
    ⟨.nil, List.nodup_nil, fun _ visited => nomatch visited⟩

theorem chainOf_ordered (node : α) : table.Ordered (table.chainOf node) :=
  (chainOf_extends node).1.ordered

theorem chainOf_nodup (node : α) : (table.chainOf node).Nodup :=
  (chainOf_extends node).1.nodup

/-- The walk finds all that is needed and nothing else. -/
theorem mem_chainOf_iff {node other : α} :
    other ∈ table.chainOf node ↔ table.Reaches node other := by
  have extended : Walk.Extends table [node] ⟨[], []⟩ _ :=
    (chainOf_extends node).2
  constructor
  · intro member
    rcases extended.reached other member with nothing | ⟨start, among, reached⟩
    · cases nothing
    · rw [List.mem_singleton.mp among] at reached
      exact reached
  · intro reached
    exact (chainOf_ordered node).reaches
      (extended.holds node (List.mem_singleton.mpr rfl)) reached

end Walk

section Changes

/-- Everything is taken down, the last thing first. -/
def takeDown (order : List α) : List (α × Bool) :=
  order.reverse.map fun node => (node, false)

/-- Everything is put up, the first thing first; it is down before it is up. -/
def putUp (order : List α) : List (α × Bool) :=
  order.flatMap fun node => [(node, false), (node, true)]

theorem takeDown_snoc {order : List α} {node : α} :
    takeDown (order ++ [node]) = (node, false) :: takeDown order := by
  simp [takeDown]

theorem putUp_snoc {order : List α} {node : α} :
    putUp (order ++ [node]) =
      putUp order ++ [(node, false), (node, true)] := by
  simp [putUp]

variable [DecidableEq α]

/-- What stands after the changes, each of which takes one thing down or puts it
up. -/
def after (standing : α → Bool) : List (α × Bool) → α → Bool
  | [] => standing
  | change :: changes =>
      after (Function.update standing change.1 change.2) changes

variable (table) in
/-- What stands has what it needs before every change and after the last. -/
def Steady (standing : α → Bool) : List (α × Bool) → Prop
  | [] => table.Supported (standing · = true)
  | change :: changes => table.Supported (standing · = true) ∧
      Steady (Function.update standing change.1 change.2) changes

theorem after_append {standing : α → Bool} {early late : List (α × Bool)} :
    after standing (early ++ late) = after (after standing early) late := by
  induction early generalizing standing with
  | nil => rfl
  | cons change early ih => exact ih

theorem Steady.start {standing : α → Bool} {changes : List (α × Bool)}
    (steady : table.Steady standing changes) :
    table.Supported (standing · = true) := by
  cases changes with
  | nil => exact steady
  | cons change changes => exact steady.1

theorem steady_append_iff {standing : α → Bool}
    {early late : List (α × Bool)} :
    table.Steady standing (early ++ late) ↔
      table.Steady standing early ∧
        table.Steady (after standing early) late := by
  induction early generalizing standing with
  | nil => exact ⟨fun steady => ⟨steady.start, steady⟩, And.right⟩
  | cons change early ih =>
      constructor
      · intro steady
        have rest := ih.mp steady.2
        exact ⟨⟨steady.1, rest.1⟩, rest.2⟩
      · intro steady
        exact ⟨steady.1.1, ih.mpr ⟨steady.1.2, steady.2⟩⟩

theorem after_takeDown {standing : α → Bool} {order : List α} {node : α} :
    after standing (takeDown order) node = true ↔
      standing node = true ∧ node ∉ order := by
  induction order using List.reverseRecOn generalizing standing with
  | nil => simp [takeDown, after]
  | append_singleton order last ih =>
      rw [takeDown_snoc, after, ih, Function.update_apply, List.mem_append,
        List.mem_singleton]
      by_cases same : node = last
      · simp [same]
      · simp [same]

theorem after_putUp {standing : α → Bool} {order : List α} {node : α} :
    after standing (putUp order) node = true ↔
      standing node = true ∨ node ∈ order := by
  induction order using List.reverseRecOn with
  | nil => simp [putUp, after]
  | append_singleton order last ih =>
      rw [putUp_snoc, after_append, after, after, after, Function.update_idem,
        Function.update_apply, List.mem_append, List.mem_singleton]
      by_cases same : node = last
      · simp [same]
      · rw [if_neg same, ih]
        simp [same]

/-- Nothing that stands beside the list needs something in it. -/
def Apart (table : Needs α) (standing : α → Bool) (order : List α) : Prop :=
  ∀ node, standing node = true → node ∉ order →
    ∀ need ∈ table.needs node, need ∉ order

theorem steady_takeDown {standing : α → Bool} {order : List α}
    (ordered : table.Ordered order) (nodup : order.Nodup)
    (supported : table.Supported (standing · = true))
    (apart : table.Apart standing order) :
    table.Steady standing (takeDown order) := by
  induction ordered generalizing standing with
  | nil => exact supported
  | @snoc order last ordered before ih =>
      have split := List.nodup_append.mp nodup
      have fresh : last ∉ order := fun member =>
        split.2.2 last member last (List.mem_singleton.mpr rfl) rfl
      rw [takeDown_snoc]
      refine ⟨supported, ih split.1 ?_ ?_⟩
      · intro node stands need needed
        rw [Function.update_apply] at stands ⊢
        by_cases gone : node = last
        · rw [if_pos gone] at stands
          cases stands
        · rw [if_neg gone] at stands
          have different : need ≠ last := by
            intro same
            rw [same] at needed
            by_cases member : node ∈ order
            · exact fresh (ordered.closed member needed)
            · apply apart node stands _ last needed
              · exact List.mem_append_right _ (List.mem_singleton.mpr rfl)
              · simp [member, gone]
          rw [if_neg different]
          exact supported node stands need needed
      · intro node stands missing need needed member
        rw [Function.update_apply] at stands
        by_cases gone : node = last
        · rw [if_pos gone] at stands
          cases stands
        · rw [if_neg gone] at stands
          apply apart node stands _ need needed
          · exact List.mem_append_left _ member
          · simp [missing, gone]

theorem steady_putUp {standing : α → Bool} {order : List α}
    (ordered : table.Ordered order) (nodup : order.Nodup)
    (supported : table.Supported (standing · = true))
    (down : ∀ node ∈ order, standing node = false) :
    table.Steady standing (putUp order) := by
  induction ordered with
  | nil => exact supported
  | @snoc order last ordered before ih =>
      have split := List.nodup_append.mp nodup
      have fresh : last ∉ order := fun member =>
        split.2.2 last member last (List.mem_singleton.mpr rfl) rfl
      have earlier := ih split.1 fun node member =>
        down node (List.mem_append_left _ member)
      have lastDown :=
        down last (List.mem_append_right _ (List.mem_singleton.mpr rfl))
      have stillDown : after standing (putUp order) last = false := by
        apply Bool.eq_false_iff.mpr
        intro stands
        rcases after_putUp.mp stands with stood | member
        · rw [lastDown] at stood
          cases stood
        · exact fresh member
      -- What stands before the last thing is put up is supported.
      have grown : table.Supported
          (after standing (putUp order) · = true) := by
        intro node stands need needed
        apply after_putUp.mpr
        rcases after_putUp.mp stands with stood | member
        · exact Or.inl (supported node stood need needed)
        · exact Or.inr (ordered.closed member needed)
      rw [putUp_snoc, steady_append_iff]
      refine ⟨earlier, grown, ?_, ?_⟩
      · rw [← stillDown, Function.update_eq_self]
        exact grown
      · intro node stands need needed
        rw [Function.update_idem, Function.update_apply] at stands ⊢
        by_cases same : need = last
        · rw [if_pos same]
        · rw [if_neg same]
          by_cases isLast : node = last
          · rw [isLast] at needed
            exact after_putUp.mpr (Or.inr (before need needed))
          · rw [if_neg isLast] at stands
            exact grown node stands need needed

/-- A list in order is taken down and put up again as far as it goes, and what
stands has what it needs all the time, exactly when it had at the start and
nothing that stands beside the list needs something in it. -/
theorem steady_cycle_iff {standing : α → Bool} {front order : List α}
    (ordered : table.Ordered order) (nodup : order.Nodup)
    (isPrefix : front <+: order) :
    table.Steady standing (takeDown order ++ putUp front) ↔
      table.Supported (standing · = true) ∧ table.Apart standing order := by
  rw [steady_append_iff]
  constructor
  · intro steady
    refine ⟨steady.1.start, ?_⟩
    intro node stands missing need needed
    have down := steady.2.start node (after_takeDown.mpr ⟨stands, missing⟩)
      need needed
    exact (after_takeDown.mp down).2
  · intro ⟨supported, apart⟩
    have lowered := steady_takeDown ordered nodup supported apart
    refine ⟨lowered, steady_putUp (ordered.of_prefix isPrefix)
      (nodup.sublist isPrefix.sublist) ?_ ?_⟩
    · intro node stands need needed
      have still := after_takeDown.mp stands
      exact after_takeDown.mpr ⟨supported node still.1 need needed,
        apart node still.1 still.2 need needed⟩
    · intro node member
      apply Bool.eq_false_iff.mpr
      intro stands
      exact (after_takeDown.mp stands).2 (isPrefix.subset member)

end Changes

end Needs
