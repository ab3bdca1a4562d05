import NyxNet.Daemon.RoutingTable

/-!
# Recency in the buckets of the routing table

How recently a peer was seen is written down twice, as its position in the
bucket and as a time.  A full bucket gives up the peer at its front, which is
the one seen least recently as long as the two agree.
-/

namespace NyxNet.Dht

/-- The reading of the clock at a call.  A peer is added with the current time
as the one at which it was seen. -/
def TableCall.time : TableCall → SystemTime
  | .addPeer peer => peer.lastSeen
  | .removeStalePeers now _ => now
  | .updatePeerStats _ now _ => now

namespace RoutingTable

variable (sha256 : Bytes → Vector UInt8 32)

/-- The condition holds of every call of a run and of the table before it. -/
def Throughout (start : RoutingTable) (calls : List TableCall)
    (condition : RoutingTable → TableCall → Prop) : Prop :=
  ∀ before call after, calls = before ++ call :: after →
    ∀ table, start.run sha256 before = some table → condition table call

/-- A peer that is lost to a new one was seen no later than any other peer of
its bucket. -/
def EvictsLeastRecent (table : RoutingTable) : TableCall → Prop
  | .addPeer peer =>
      ∀ after, table.addPeer sha256 peer = some after →
        ∀ bucket ∈ table.buckets, ∀ evicted ∈ bucket.peers,
          evicted.peerId ≠ peer.peerId → evicted ∉ after.getAllPeers →
            ∀ other ∈ bucket.peers,
              evicted.lastSeen.asNanos ≤ other.lastSeen.asNanos
  | .removeStalePeers _ _ => True
  | .updatePeerStats _ _ _ => True

/-- An update finds its peer in front of none that was seen before now. -/
def UpdatesLast (table : RoutingTable) : TableCall → Prop
  | .addPeer _ => True
  | .removeStalePeers _ _ => True
  | .updatePeerStats peerId now _ =>
      ∀ bucket ∈ table.buckets,
        ∀ other ∈ (bucket.peers.dropWhile (fun p => p.peerId ≠ peerId)).tail,
          now.asNanos ≤ other.lastSeen.asNanos

/-- The peers of a bucket are in the order in which they were seen, none of them
after the calls that are still to come. -/
structure Recent (future : List TableCall) (bucket : KBucket) : Prop where
  bounded : bucket.peers.length ≤ bucket.maxSize
  ordered : bucket.peers.Pairwise fun earlier later =>
    earlier.lastSeen.asNanos ≤ later.lastSeen.asNanos
  past : ∀ peer ∈ bucket.peers, ∀ call ∈ future,
    peer.lastSeen.asNanos ≤ call.time.asNanos

variable {sha256} {table after : RoutingTable} {bucket : KBucket}
  {call : TableCall} {future : List TableCall}

theorem recent_new (localNodeId : NodeId) (kValue : Nat) :
    ∀ bucket ∈ (new localNodeId kValue).buckets, Recent future bucket := by
  intro bucket member
  obtain ⟨index, -, rfl⟩ := List.mem_map.mp member
  constructor
  · exact Nat.zero_le kValue
  · exact List.Pairwise.nil
  · intro peer impossible
    cases impossible

theorem Recent.later (recent : Recent (call :: future) bucket) :
    Recent future bucket where
  bounded := recent.bounded
  ordered := recent.ordered
  past := by
    intro peer member next isNext
    exact recent.past peer member next (List.mem_cons_of_mem call isNext)

/-- Fewer peers are as recent. -/
theorem Recent.sublist {peers : List PeerInfo} (recent : Recent future bucket)
    (fewer : List.Sublist peers bucket.peers) :
    Recent future { bucket with peers } where
  bounded := fewer.length_le.trans recent.bounded
  ordered := recent.ordered.sublist fewer
  past := by
    intro peer member
    exact recent.past peer (fewer.subset member)

/-- A peer seen at the call goes to the end. -/
theorem Recent.concat {peer : PeerInfo} {peers : List PeerInfo}
    (recent : Recent (.addPeer peer :: future) { bucket with peers })
    (room : peers.length < bucket.maxSize)
    (sorted : ∀ next ∈ future,
      peer.lastSeen.asNanos ≤ next.time.asNanos) :
    Recent future { bucket with peers := peers ++ [peer] } where
  bounded := by
    rw [List.length_append]
    exact room
  ordered := by
    rw [List.pairwise_append]
    refine ⟨recent.ordered, List.pairwise_singleton _ _, ?_⟩
    intro earlier member later isLast
    rw [List.mem_singleton.mp isLast]
    exact recent.past earlier member _ List.mem_cons_self
  past := by
    intro other member
    rcases List.mem_append.mp member with old | new
    · exact recent.later.past other old
    · rw [List.mem_singleton.mp new]
      exact sorted

theorem updateFirst_split {update : PeerInfo → PeerInfo} {peerId : String}
    {peers updated : List PeerInfo}
    (found : updateFirst update peerId peers = some updated) :
    ∃ front peer behind, peers = front ++ peer :: behind ∧
      updated = front ++ update peer :: behind ∧
      (peers.dropWhile (fun p => p.peerId ≠ peerId)).tail = behind := by
  induction peers generalizing updated with
  | nil => cases found
  | cons peer rest ih =>
      rw [updateFirst] at found
      by_cases same : peer.peerId = peerId
      · rw [if_pos same] at found
        cases found
        exact ⟨[], peer, rest, rfl, rfl, by simp [same]⟩
      · rw [if_neg same] at found
        obtain ⟨others, inRest, rfl⟩ := Option.map_eq_some_iff.mp found
        obtain ⟨front, first, behind, split, result, tail⟩ := ih inRest
        refine ⟨peer :: front, first, behind, ?_, ?_, ?_⟩
        · rw [split]
          rfl
        · rw [result]
          rfl
        · rw [List.dropWhile_cons, if_pos (decide_eq_true same), tail]

theorem mem_updateBuckets {update : PeerInfo → PeerInfo} {peerId : String}
    {buckets : List KBucket}
    (member : bucket ∈ updateBuckets update peerId buckets) :
    bucket ∈ buckets ∨ ∃ old ∈ buckets, ∃ peers,
      updateFirst update peerId old.peers = some peers ∧
        bucket = { old with peers } := by
  induction buckets with
  | nil => cases member
  | cons first rest ih =>
      rw [updateBuckets] at member
      split at member
      · next peers found =>
          rcases List.mem_cons.mp member with isNew | inRest
          · exact Or.inr ⟨first, List.mem_cons_self, peers, found, isNew⟩
          · exact Or.inl (List.mem_cons_of_mem first inRest)
      · rcases List.mem_cons.mp member with rfl | inRest
        · exact Or.inl List.mem_cons_self
        · rcases ih inRest with old | ⟨old, isOld, facts⟩
          · exact Or.inl (List.mem_cons_of_mem first old)
          · exact Or.inr ⟨old, List.mem_cons_of_mem first isOld, facts⟩

/-- The order stays as it is when no peer behind the updated one was seen
earlier. -/
theorem Recent.updateFirst {peerId : String} {now : SystemTime}
    {responseTime : Duration} {peers : List PeerInfo}
    (recent :
      Recent (.updatePeerStats peerId now responseTime :: future) bucket)
    (sorted : ∀ next ∈ future, now.asNanos ≤ next.time.asNanos)
    (found : updateFirst (updateStats now responseTime) peerId bucket.peers =
      some peers)
    (isLast : ∀ other ∈
      (bucket.peers.dropWhile (fun p => p.peerId ≠ peerId)).tail,
        now.asNanos ≤ other.lastSeen.asNanos) :
    Recent future { bucket with peers } := by
  obtain ⟨front, peer, behind, split, rfl, tail⟩ := updateFirst_split found
  rw [tail] at isLast
  have ordered := recent.ordered
  have past := recent.past
  have bounded := recent.bounded
  rw [split] at ordered past bounded
  rw [List.pairwise_append, List.pairwise_cons] at ordered
  obtain ⟨frontOrdered, ⟨-, behindOrdered⟩, across⟩ := ordered
  constructor
  · rw [List.length_append, List.length_cons] at bounded ⊢
    exact bounded
  · rw [List.pairwise_append, List.pairwise_cons]
    refine ⟨frontOrdered, ⟨isLast, behindOrdered⟩, ?_⟩
    intro earlier inFront later inRest
    rcases List.mem_cons.mp inRest with rfl | inBehind
    · exact past earlier (List.mem_append_left _ inFront) _ List.mem_cons_self
    · exact across earlier inFront later (List.mem_cons_of_mem peer inBehind)
  · intro other member next isNext
    rcases List.mem_append.mp member with inFront | inRest
    · exact past other (List.mem_append_left _ inFront) next
        (List.mem_cons_of_mem _ isNext)
    · rcases List.mem_cons.mp inRest with rfl | inBehind
      · exact sorted next isNext
      · exact past other
          (List.mem_append_right _ (List.mem_cons_of_mem peer inBehind)) next
          (List.mem_cons_of_mem _ isNext)

/-- The other peers of the bucket stay, or all but the one at the front of
them. -/
theorem addPeer_cases {peer : PeerInfo}
    (added : table.addPeer sha256 peer = some after) :
    after = table ∨
    ∃ bucket kept,
      table.buckets[table.bucketIndex sha256 peer.peerId]? = some bucket ∧
      after = table.withPeers (table.bucketIndex sha256 peer.peerId) bucket
        (kept ++ [peer]) ∧
      (bucket.peers.filter (fun p => p.peerId ≠ peer.peerId) = kept ∧
          kept.length < bucket.maxSize ∨
        ∃ oldest,
          bucket.peers.filter (fun p => p.peerId ≠ peer.peerId) =
            oldest :: kept ∧ bucket.maxSize ≤ kept.length + 1) := by
  unfold addPeer at added
  cases found : table.buckets[table.bucketIndex sha256 peer.peerId]? with
  | none =>
      simp only [found] at added
      cases added
      exact Or.inl rfl
  | some bucket =>
      simp only [found] at added
      refine Or.inr ⟨bucket, ?_⟩
      generalize bucket.peers.filter (fun p => p.peerId ≠ peer.peerId) =
        others at added ⊢
      by_cases room : others.length < bucket.maxSize
      · rw [if_pos room] at added
        exact ⟨others, rfl, (Option.some.inj added).symm, Or.inl ⟨rfl, room⟩⟩
      · rw [if_neg room] at added
        cases others with
        | nil => cases added
        | cons oldest kept =>
            exact ⟨kept, rfl, (Option.some.inj added).symm,
              Or.inr ⟨oldest, rfl, Nat.le_of_not_lt room⟩⟩

theorem addPeer_recent {peer : PeerInfo}
    (recent : ∀ bucket ∈ table.buckets,
      Recent (.addPeer peer :: future) bucket)
    (sorted : ∀ next ∈ future, peer.lastSeen.asNanos ≤ next.time.asNanos)
    (added : table.addPeer sha256 peer = some after) :
    ∀ bucket ∈ after.buckets, Recent future bucket := by
  intro changed member
  rcases addPeer_cases added with rfl | ⟨bucket, kept, found, rfl, others⟩
  · exact (recent changed member).later
  · rcases List.mem_or_eq_of_mem_set member with old | rfl
    · exact (recent changed old).later
    · have before := recent bucket (List.mem_of_getElem? found)
      have fewer : List.Sublist
          (bucket.peers.filter (fun p => p.peerId ≠ peer.peerId))
            bucket.peers := List.filter_sublist
      rcases others with ⟨same, room⟩ | ⟨oldest, same, full⟩
      · rw [same] at fewer
        exact (before.sublist fewer).concat room sorted
      · rw [same] at fewer
        have bounded := fewer.length_le.trans before.bounded
        exact (before.sublist ((List.sublist_cons_self _ _).trans fewer)).concat
          bounded sorted

/-- One call keeps every bucket in the order in which its peers were seen. -/
theorem apply_recent
    (recent : ∀ bucket ∈ table.buckets, Recent (call :: future) bucket)
    (sorted : ∀ next ∈ future, call.time.asNanos ≤ next.time.asNanos)
    (updatesLast : UpdatesLast table call)
    (applied : table.apply sha256 call = some after) :
    ∀ bucket ∈ after.buckets, Recent future bucket := by
  cases call with
  | addPeer peer => exact addPeer_recent recent sorted applied
  | removeStalePeers now staleThreshold =>
      cases applied
      intro changed member
      obtain ⟨bucket, isOld, rfl⟩ := List.mem_map.mp member
      exact (recent bucket isOld).later.sublist List.filter_sublist
  | updatePeerStats peerId now responseTime =>
      cases applied
      intro changed member
      rcases mem_updateBuckets member with old | ⟨bucket, isOld, peers, found, rfl⟩
      · exact (recent changed old).later
      · exact (recent bucket isOld).updateFirst sorted found
          (updatesLast bucket isOld)

theorem run_cons {next : RoutingTable}
    (applied : table.apply sha256 call = some next) (calls : List TableCall) :
    table.run sha256 (call :: calls) = next.run sha256 calls := by
  rw [run, List.foldlM_cons, applied]
  rfl

theorem run_recent {calls : List TableCall}
    (recent : ∀ bucket ∈ table.buckets, Recent (calls ++ future) bucket)
    (sorted : (calls ++ future).Pairwise fun earlier later =>
      earlier.time.asNanos ≤ later.time.asNanos)
    (updatesLast : ∀ before call rest, calls = before ++ call :: rest →
      ∀ reached, table.run sha256 before = some reached →
        UpdatesLast reached call)
    (ran : table.run sha256 calls = some after) :
    ∀ bucket ∈ after.buckets, Recent future bucket := by
  induction calls generalizing table with
  | nil =>
      cases ran
      exact recent
  | cons call calls ih =>
      rw [run, List.foldlM_cons] at ran
      obtain ⟨next, applied, later⟩ := Option.bind_eq_some_iff.mp ran
      rw [List.cons_append, List.pairwise_cons] at sorted
      refine ih ?_ sorted.2 ?_ later
      · exact apply_recent recent sorted.1
          (updatesLast [] call calls rfl table rfl) applied
      · intro before other rest split reached reaches
        refine updatesLast (call :: before) other rest ?_ reached ?_
        · rw [split]
          rfl
        · rw [run_cons applied]
          exact reaches

/-- A peer that is gone was in the bucket that has changed. -/
theorem holder_of_gone {index : Nat} {holder : KBucket} {peers : List PeerInfo}
    {gone : PeerInfo} (found : table.buckets[index]? = some bucket)
    (isHolder : holder ∈ table.buckets) (inHolder : gone ∈ holder.peers)
    (isGone : gone ∉ (table.withPeers index bucket peers).getAllPeers) :
    holder = bucket := by
  obtain ⟨position, atPosition⟩ := List.mem_iff_getElem?.mp isHolder
  by_cases same : index = position
  · rw [← same, found] at atPosition
    exact (Option.some.inj atPosition).symm
  · refine absurd (List.mem_flatMap.mpr ⟨holder, ?_, inHolder⟩) isGone
    apply List.mem_of_getElem?
    rw [withPeers, List.getElem?_set_ne same]
    exact atPosition

/-- In a table whose buckets are in order a full bucket gives up the peer that
was seen least recently. -/
theorem evictsLeastRecent_of_recent
    (recent : ∀ bucket ∈ table.buckets, Recent future bucket)
    (call : TableCall) : EvictsLeastRecent sha256 table call := by
  cases call with
  | removeStalePeers now staleThreshold => trivial
  | updatePeerStats peerId now responseTime => trivial
  | addPeer peer =>
      intro after added holder isHolder evicted inHolder otherId gone
      rcases addPeer_cases added with rfl | ⟨bucket, kept, found, rfl, others⟩
      · exact absurd (List.mem_flatMap.mpr ⟨holder, isHolder, inHolder⟩) gone
      · cases holder_of_gone found isHolder inHolder gone
        have lost : evicted ∉ kept := by
          intro isKept
          have inRange := (List.getElem?_eq_some_iff.mp found).1
          exact gone (List.mem_flatMap.mpr ⟨_, List.mem_set inRange _,
            List.mem_append_left _ isKept⟩)
        have remains : evicted ∈
            holder.peers.filter (fun p => p.peerId ≠ peer.peerId) :=
          List.mem_filter.mpr ⟨inHolder, decide_eq_true otherId⟩
        rcases others with ⟨same, -⟩ | ⟨oldest, same, full⟩
        · rw [same] at remains
          exact absurd remains lost
        · have bounded := (recent holder isHolder).bounded
          have whole : holder.peers.filter
              (fun p => p.peerId ≠ peer.peerId) = holder.peers := by
            apply List.filter_sublist.eq_of_length_le
            rw [same]
            exact bounded.trans full
          rw [same] at remains
          rw [← whole, same]
          have ordered := (recent holder isHolder).ordered
          rw [← whole, same, List.pairwise_cons] at ordered
          rcases List.mem_cons.mp remains with rfl | isKept
          · intro other member
            rcases List.mem_cons.mp member with rfl | behind
            · exact Int.le_refl _
            · exact ordered.1 other behind
          · exact absurd isKept lost

/-- As long as every update finds its peer in front of none that was seen
earlier, every eviction is of the peer that was seen least recently. -/
theorem evicts_least_recent (sha256 : Bytes → Vector UInt8 32)
    (localNodeId : NodeId) (kValue : Nat) (calls : List TableCall)
    (clock : calls.Pairwise fun earlier later =>
      earlier.time.asNanos ≤ later.time.asNanos)
    (updatesLast : Throughout sha256 (new localNodeId kValue) calls
      UpdatesLast) :
    Throughout sha256 (new localNodeId kValue) calls
      (EvictsLeastRecent sha256) := by
  intro before call rest split table ran
  rw [split] at clock
  have earlierLast : ∀ earlier other later,
      before = earlier ++ other :: later →
        ∀ reached, (new localNodeId kValue).run sha256 earlier = some reached →
          UpdatesLast reached other := by
    intro earlier other later isPart reached reaches
    refine updatesLast earlier other (later ++ call :: rest) ?_ reached reaches
    rw [split, isPart]
    exact List.append_assoc earlier (other :: later) (call :: rest)
  exact evictsLeastRecent_of_recent
    (run_recent (recent_new localNodeId kValue) clock earlierLast ran) call

/-- SHA-256 at the ids of three peers. -/
def digestOfThree (data : Bytes) : Vector UInt8 32 :=
  if data = asBytes "gamma" then
    Bytes.leBytes 32
      0x672c59195aeed00b8681429e28f8f8a58369207eb19ef49ec0f0a1ef7d589dbe
  else
    sampleDigest data

/-- A peer that was seen at that second. -/
def seenAt (peerId : String) (second : Nat)
    (fits : second < 9223372036854775808) : PeerInfo :=
  { samplePeer peerId with lastSeen := SystemTime.ofUnixSecs second fits }

/-- Two peers, an update of one of them, and a third peer for a bucket with room
for two. -/
def updateBetween (updated : String) : List TableCall :=
  [.addPeer (seenAt "alpha" 1 (by decide)),
    .addPeer (seenAt "beta" 2 (by decide)),
    .updatePeerStats updated (SystemTime.ofUnixSecs 3 (by decide))
      (Duration.fromMillis 50),
    .addPeer (seenAt "gamma" 4 (by decide))]

theorem throughout_cons {start : RoutingTable} {calls : List TableCall}
    {condition : RoutingTable → TableCall → Prop}
    (first : condition start call)
    (others : ∀ next, start.apply sha256 call = some next →
      Throughout sha256 next calls condition) :
    Throughout sha256 start (call :: calls) condition := by
  intro before other rest split table ran
  cases before with
  | nil =>
      cases split
      cases ran
      exact first
  | cons earlier before =>
      cases split
      rw [run, List.foldlM_cons] at ran
      obtain ⟨next, applied, later⟩ := Option.bind_eq_some_iff.mp ran
      exact others next applied before other rest rfl table later

theorem throughout_nil {start : RoutingTable}
    {condition : RoutingTable → TableCall → Prop} :
    Throughout sha256 start [] condition := by
  intro before other rest split
  cases before <;> cases split

theorem updateBetween_updatesLast :
    Throughout digestOfThree (new (Vector.replicate 32 0) 2)
      (updateBetween "beta") UpdatesLast := by
  refine throughout_cons trivial fun first isFirst => ?_
  refine throughout_cons trivial fun second isSecond => ?_
  refine throughout_cons ?_ fun third isThird =>
    throughout_cons trivial fun _ _ => throughout_nil
  have last : ((new (Vector.replicate 32 0) 2).run digestOfThree
      ((updateBetween "beta").take 2)).all (fun table =>
        decide (∀ bucket ∈ table.buckets,
          ∀ other ∈ (bucket.peers.dropWhile (fun p => p.peerId ≠ "beta")).tail,
            (SystemTime.ofUnixSecs 3 (by decide)).asNanos ≤
              other.lastSeen.asNanos)) = true := by
    decide +kernel
  have ran : (new (Vector.replicate 32 0) 2).run digestOfThree
      ((updateBetween "beta").take 2) = some second :=
    (run_cons isFirst _).trans (run_cons isSecond [])
  rw [ran] at last
  intro bucket member
  exact of_decide_eq_true last bucket member

theorem evicts_least_recent_updateBetween :
    Throughout digestOfThree (new (Vector.replicate 32 0) 2)
      (updateBetween "beta") (EvictsLeastRecent digestOfThree) :=
  evicts_least_recent digestOfThree (Vector.replicate 32 0) 2
    (updateBetween "beta") (by decide) updateBetween_updatesLast

/-- The peer that was just updated is the one that goes. -/
theorem updated_peer_evicted :
    ¬ ∀ (localNodeId : NodeId) (kValue : Nat) (calls : List TableCall),
      (calls.Pairwise fun earlier later =>
        earlier.time.asNanos ≤ later.time.asNanos) →
        Throughout digestOfThree (new localNodeId kValue) calls
          (EvictsLeastRecent digestOfThree) := by
  intro evicts
  have throughout := evicts (Vector.replicate 32 0) 2 (updateBetween "alpha")
    (by decide)
  have found : ((new (Vector.replicate 32 0) 2).run digestOfThree
      ((updateBetween "alpha").take 3)).any (fun table =>
        (table.addPeer digestOfThree (seenAt "gamma" 4 (by decide))).any
          fun after => decide (∃ bucket ∈ table.buckets,
            ∃ evicted ∈ bucket.peers, evicted.peerId ≠ "gamma" ∧
              evicted ∉ after.getAllPeers ∧ ∃ other ∈ bucket.peers,
                other.lastSeen.asNanos < evicted.lastSeen.asNanos)) =
      true := by
    decide +kernel
  obtain ⟨table, ran, found⟩ := (Option.any_eq_true _ _).mp found
  obtain ⟨after, added, found⟩ := (Option.any_eq_true _ _).mp found
  obtain ⟨bucket, isBucket, evicted, inBucket, otherId, gone, other,
    otherMember, earlier⟩ := of_decide_eq_true found
  have least := throughout ((updateBetween "alpha").take 3) _ [] rfl table ran
    after added bucket isBucket evicted inBucket otherId gone other otherMember
  omega

end RoutingTable

end NyxNet.Dht
