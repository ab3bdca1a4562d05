import NyxNet.Daemon.PeerDiscovery
import NyxNet.Lib.DebugFormat
import NyxNet.Lib.OrderedMap
import NyxNet.Lib.Trace
import NyxNet.Lib.Word

/-!
# The cache of onion paths

`build_path` of `nyx-daemon/src/path_builder.rs` and the task that cleans its
cache.  Paths are kept under the target and the number of hops joined into one
text.  A cached path is answered while it is younger than the time to live; a
path that is built is cached, and a cache that has become too large gives up its
least recently used entries.
-/

namespace NyxNet.PathCache

open Paths (DhtError)

def maxCachedPaths : Nat := 100

structure PathRequest where
  target : String
  hops : UInt32
  strategy : String
  deriving DecidableEq, Repr

structure PathResponse where
  path : List String
  estimatedLatencyMs : Float
  estimatedBandwidthMbps : Float
  reliabilityScore : Float

structure PathQuality where
  latencyMs : Float
  bandwidthMbps : Float
  reliabilityScore : Float
  geographicDiversity : Float
  loadBalanceScore : Float
  overallScore : Float

structure CachedPath where
  hops : List String
  quality : PathQuality
  createdAt : Instant
  usageCount : UInt64
  lastUsed : Instant

abbrev Cache : Type := Std.ExtTreeMap String CachedPath compare

def cacheKey (request : PathRequest) : String :=
  request.target ++ ":" ++
    String.ofList (DebugFormat.decimal request.hops.toNat)

def responseOf (hops : List String) (quality : PathQuality) :
    PathResponse where
  path := hops
  estimatedLatencyMs := quality.latencyMs
  estimatedBandwidthMbps := quality.bandwidthMbps
  reliabilityScore := quality.reliabilityScore

structure PerformanceEstimate where
  estimatedLatencyMs : Float
  bandwidthEfficiency : Float

structure PathValidationResult where
  isValid : Bool
  securityScore : Float
  anonymityScore : Float
  performanceScore : Float

structure OnionPath where
  /-- The peer id and the address of every layer. -/
  layers : List (String × String)
  estimate : PerformanceEstimate

/-- What the network makes of one attempt to build a path. -/
structure Network where
  buildOnionPath : Except DhtError OnionPath
  validateOnionPath : Except String PathValidationResult
  testOnionPath : Bool
  buildFallbackPath : Except DhtError (Option PathResponse)

inductive Building where
  | path (hops : List String) (quality : PathQuality)
  | fallback (response : PathResponse)
  | nothing
  | failed (error : DhtError)

def pathQuality (estimate : PerformanceEstimate)
    (validation : PathValidationResult) : PathQuality where
  latencyMs := estimate.estimatedLatencyMs
  bandwidthMbps := estimate.bandwidthEfficiency * 100.0
  reliabilityScore := validation.securityScore * validation.anonymityScore
  geographicDiversity := validation.anonymityScore
  loadBalanceScore := validation.performanceScore
  overallScore :=
    (validation.securityScore + validation.anonymityScore +
      validation.performanceScore) / 3.0

/-- The part of `build_path` between the look into the cache and the insertion
into it. -/
def build (network : Network) : Building :=
  match network.buildOnionPath with
  | .ok onionPath =>
      match network.validateOnionPath with
      | .error e => .failed (.invalidMessage ("Path validation failed: " ++ e))
      | .ok validationResult =>
          if ¬ validationResult.isValid then
            .nothing
          else if ¬ network.testOnionPath then
            .nothing
          else
            .path (onionPath.layers.map (fun layer => layer.1 ++ "@" ++ layer.2))
              (pathQuality onionPath.estimate validationResult)
  | .error e =>
      match network.buildFallbackPath with
      | .ok (some fallbackResponse) => .fallback fallbackResponse
      | .ok none => .nothing
      | .error _ => .failed e

/-- The order in which the hash map gives its entries. -/
structure IterationOrder where
  order : List (String × Instant) → List (String × Instant)
  permutes : ∀ entries, (order entries).Perm entries

/-- The entries with the time of their last use, oldest first. -/
def byLastUse (iteration : IterationOrder) (cache : Cache) :
    List (String × Instant) :=
  (iteration.order
    (cache.toList.map (fun entry => (entry.1, entry.2.lastUsed)))).mergeSort
      (fun left right => left.2 ≤ right.2)

def keysToRemove (iteration : IterationOrder) (cache : Cache) : List String :=
  let entries := byLastUse iteration cache
  let toRemove := entries.length - maxCachedPaths + 10
  (entries.take toRemove).map Prod.fst

/-- Limits the size of the cache. -/
def trim (iteration : IterationOrder) (cache : Cache) : Cache :=
  if maxCachedPaths < cache.size then
    OrderedMap.eraseAll cache (keysToRemove iteration cache)
  else
    cache

/-- Whether a path is younger than the time to live, in whole seconds. -/
def isValid (cacheTtlSecs : UInt64) (now : Instant) (path : CachedPath) :
    Bool :=
  path.createdAt.elapsed now / 1000000000 < cacheTtlSecs.toNat

/-- One call of `build_path` meets the clock at four places. -/
structure Environment where
  lookedUp : Instant
  used : Instant
  network : Network
  createdAt : Instant
  lastUsed : Instant
  iteration : IterationOrder

inductive Step where
  | buildPath (request : PathRequest) (environment : Environment)
  | cacheCleanup (now : Instant)

/-- The first three are `Ok(Some(_))`. -/
inductive Reply where
  | cached (response : PathResponse)
  | built (response : PathResponse)
  | fallback (response : PathResponse)
  | nothing
  | failed (error : DhtError)
  | panicked
  | cleaned

structure Config where
  mode : OverflowMode
  cacheTtlSecs : UInt64

/-- The call when the cache has nothing valid. -/
def buildNew (cache : Cache) (request : PathRequest)
    (environment : Environment) : Reply × Cache :=
  match build environment.network with
  | .path hops quality =>
      let cachedPath : CachedPath :=
        { hops := hops
          quality := quality
          createdAt := environment.createdAt
          usageCount := 1
          lastUsed := environment.lastUsed }
      (.built (responseOf hops quality),
        trim environment.iteration (cache.insert (cacheKey request) cachedPath))
  | .fallback response => (.fallback response, cache)
  | .nothing => (.nothing, cache)
  | .failed error => (.failed error, cache)

/-- The call when the cache has a valid path; the count of its uses may
overflow. -/
def useCached (mode : OverflowMode) (cache : Cache) (request : PathRequest)
    (cachedPath : CachedPath) (used : Instant) : Reply × Cache :=
  match mode.add cachedPath.usageCount 1 with
  | none => (.panicked, cache)
  | some usageCount =>
      (.cached (responseOf cachedPath.hops cachedPath.quality),
        cache.insert (cacheKey request)
          { cachedPath with usageCount := usageCount, lastUsed := used })

def buildPath (config : Config) (cache : Cache) (request : PathRequest)
    (environment : Environment) : Reply × Cache :=
  match cache[cacheKey request]? with
  | some cachedPath =>
      if isValid config.cacheTtlSecs environment.lookedUp cachedPath then
        useCached config.mode cache request cachedPath environment.used
      else
        buildNew cache request environment
  | none => buildNew cache request environment

/-- One turn of the task of `start_cache_cleanup_task`. -/
def cacheCleanup (config : Config) (cache : Cache) (now : Instant) : Cache :=
  cache.filter (fun _ => isValid config.cacheTtlSecs now)

def perform (config : Config) (cache : Cache) : Step → Reply × Cache
  | .buildPath request environment =>
      buildPath config cache request environment
  | .cacheCleanup now => (.cleaned, cacheCleanup config cache now)

/-- The number of hops has no colon, so it is what stands after the last one. -/
theorem cacheKey_injective {left right : PathRequest}
    (same : cacheKey left = cacheKey right) :
    left.target = right.target ∧ left.hops = right.hops := by
  have texts := congrArg String.toList same
  simp only [cacheKey, String.toList_append, String.toList_ofList,
    List.append_assoc] at texts
  change left.target.toList ++ ':' :: DebugFormat.decimal left.hops.toNat =
    right.target.toList ++ ':' ::
      DebugFormat.decimal right.hops.toNat at texts
  obtain ⟨targets, counts⟩ := DebugFormat.split_last
    (DebugFormat.colon_notMem_decimal _) (DebugFormat.colon_notMem_decimal _)
    texts
  have hops := DebugFormat.decimal_injective counts
  exact ⟨String.toList_inj.mp targets, UInt32.toNat_inj.mp hops⟩

section Trim

variable (iteration : IterationOrder) (cache : Cache)

theorem byLastUse_perm :
    (byLastUse iteration cache).Perm
      (cache.toList.map (fun entry => (entry.1, entry.2.lastUsed))) :=
  (List.mergeSort_perm _ _).trans (iteration.permutes _)

theorem length_byLastUse : (byLastUse iteration cache).length = cache.size := by
  rw [(byLastUse_perm iteration cache).length_eq, List.length_map,
    Std.ExtTreeMap.length_toList]

theorem mem_byLastUse {key : String} {lastUsed : Instant} :
    (key, lastUsed) ∈ byLastUse iteration cache ↔
      ∃ cachedPath : CachedPath, cache[key]? = some cachedPath ∧
        cachedPath.lastUsed = lastUsed := by
  rw [(byLastUse_perm iteration cache).mem_iff, List.mem_map]
  constructor
  · intro listed
    obtain ⟨⟨other, cachedPath⟩, stored, same⟩ := listed
    obtain ⟨rfl, rfl⟩ := Prod.mk.inj same
    exact ⟨cachedPath,
      Std.ExtTreeMap.mem_toList_iff_getElem?_eq_some.mp stored, rfl⟩
  · intro found
    obtain ⟨cachedPath, stored, rfl⟩ := found
    exact ⟨(key, cachedPath),
      Std.ExtTreeMap.mem_toList_iff_getElem?_eq_some.mpr stored, rfl⟩

theorem nodup_keys_byLastUse :
    ((byLastUse iteration cache).map Prod.fst).Nodup := by
  have keys : ((byLastUse iteration cache).map Prod.fst).Perm cache.keys := by
    have mapped := (byLastUse_perm iteration cache).map Prod.fst
    rw [List.map_map] at mapped
    rw [← Std.ExtTreeMap.map_fst_toList_eq_keys]
    exact mapped
  exact keys.nodup_iff.mpr Std.ExtTreeMap.nodup_keys

theorem byLastUse_sorted :
    (byLastUse iteration cache).Pairwise
      (fun earlier later => earlier.2 ≤ later.2) := by
  have transitive : ∀ first second third : String × Instant,
      decide (first.2 ≤ second.2) = true →
        decide (second.2 ≤ third.2) = true →
          decide (first.2 ≤ third.2) = true := by
    intro first second third before after
    exact decide_eq_true
      (Nat.le_trans (of_decide_eq_true before) (of_decide_eq_true after))
  have total : ∀ first second : String × Instant,
      (decide (first.2 ≤ second.2) || decide (second.2 ≤ first.2)) =
        true := by
    intro first second
    simpa using Nat.le_total first.2 second.2
  have sorted := List.pairwise_mergeSort transitive total (iteration.order
    (cache.toList.map (fun entry => (entry.1, entry.2.lastUsed))))
  exact sorted.imp of_decide_eq_true

theorem trim_size_le : (trim iteration cache).size ≤ maxCachedPaths := by
  unfold trim
  by_cases large : maxCachedPaths < cache.size
  · rw [if_pos large]
    have sublist : (keysToRemove iteration cache).Sublist
        ((byLastUse iteration cache).map Prod.fst) :=
      (List.take_sublist _ _).map _
    have members : ∀ key ∈ keysToRemove iteration cache, key ∈ cache := by
      intro key member
      obtain ⟨⟨other, lastUsed⟩, listed, rfl⟩ :=
        List.mem_map.mp (sublist.mem member)
      obtain ⟨cachedPath, stored, _⟩ :=
        (mem_byLastUse iteration cache).mp listed
      rw [Std.ExtTreeMap.mem_iff_isSome_getElem?, stored]
      rfl
    have removed := OrderedMap.size_eraseAll
      (sublist.nodup (nodup_keys_byLastUse iteration cache)) members
    have count : (keysToRemove iteration cache).length =
        cache.size - maxCachedPaths + 10 := by
      unfold maxCachedPaths at large
      simp only [keysToRemove, List.length_map, List.length_take,
        length_byLastUse, maxCachedPaths]
      omega
    omega
  · rw [if_neg large]
    exact Nat.le_of_not_lt large

theorem lookup_of_trim {key : String} {cachedPath : CachedPath}
    (found : (trim iteration cache)[key]? = some cachedPath) :
    cache[key]? = some cachedPath := by
  unfold trim at found
  split at found
  · rw [OrderedMap.lookup_eraseAll] at found
    split at found
    · cases found
    · exact found
  · exact found

/-- An entry is removed only if it was last used no later than every entry that
is kept. -/
def RemovesOldest (before after : Cache) : Prop :=
  ∀ (removed kept : String) (oldPath path : CachedPath),
    before[removed]? = some oldPath → after[removed]? = none →
      after[kept]? = some path → oldPath.lastUsed ≤ path.lastUsed

theorem trim_removesOldest :
    RemovesOldest cache (trim iteration cache) := by
  intro removed kept oldPath path stored gone left
  have leftBefore := lookup_of_trim iteration cache left
  unfold trim at gone left
  split at gone
  · next large =>
      rw [if_pos large, OrderedMap.lookup_eraseAll] at left
      rw [OrderedMap.lookup_eraseAll, stored] at gone
      have isRemoved : removed ∈ keysToRemove iteration cache := by
        by_contra notRemoved
        rw [if_neg notRemoved] at gone
        cases gone
      have isKept : kept ∉ keysToRemove iteration cache := by
        intro member
        rw [if_pos member] at left
        cases left
      unfold keysToRemove at isRemoved isKept
      dsimp only at isRemoved isKept
      generalize (byLastUse iteration cache).length - maxCachedPaths + 10 =
        count at isRemoved isKept
      obtain ⟨⟨other, lastUsed⟩, inFront, rfl⟩ := List.mem_map.mp isRemoved
      obtain ⟨_, storedTwice, rfl⟩ := (mem_byLastUse iteration cache).mp
        (List.mem_of_mem_take inFront)
      rw [stored] at storedTwice
      cases storedTwice
      have listed : (kept, path.lastUsed) ∈ byLastUse iteration cache :=
        (mem_byLastUse iteration cache).mpr ⟨path, leftBefore, rfl⟩
      have sorted := byLastUse_sorted iteration cache
      rw [← List.take_append_drop count (byLastUse iteration cache)]
        at sorted listed
      have behind : (kept, path.lastUsed) ∈
          (byLastUse iteration cache).drop count := by
        rcases List.mem_append.mp listed with front | back
        · exact absurd (List.mem_map_of_mem front) isKept
        · exact back
      exact (List.pairwise_append.mp sorted).2.2 _ inFront _ behind
  · rw [stored] at gone
    cases gone

end Trim

abbrev Past : Type := List (Step × Reply)

/-- The step built that path, at that time and under that key. -/
def BuiltAs (key : String) (hops : List String) (quality : PathQuality)
    (createdAt : Instant) (entry : Step × Reply) : Prop :=
  ∃ request environment,
    entry = (.buildPath request environment,
        .built (responseOf hops quality)) ∧
      cacheKey request = key ∧ environment.createdAt = createdAt

section Steps

variable {config : Config} {cache : Cache}

/-- What a step can do to the cache: nothing, count a use of a path that is
young enough, keep a path that was built, or clean up. -/
inductive Effect (config : Config) (cache : Cache) :
    Step → Reply × Cache → Prop where
  | unchanged {step : Step} {reply : Reply}
      (notCached : ∀ response, reply ≠ .cached response) :
      Effect config cache step (reply, cache)
  | used {request : PathRequest} {environment : Environment}
      {cachedPath : CachedPath} (usageCount : UInt64)
      (stored : cache[cacheKey request]? = some cachedPath)
      (valid :
        isValid config.cacheTtlSecs environment.lookedUp cachedPath = true) :
      Effect config cache (.buildPath request environment)
        (.cached (responseOf cachedPath.hops cachedPath.quality),
          cache.insert (cacheKey request)
            { cachedPath with usageCount, lastUsed := environment.used })
  | built {request : PathRequest} {environment : Environment}
      (hops : List String) (quality : PathQuality) :
      Effect config cache (.buildPath request environment)
        (.built (responseOf hops quality),
          trim environment.iteration
            (cache.insert (cacheKey request)
              { hops, quality
                createdAt := environment.createdAt
                usageCount := 1
                lastUsed := environment.lastUsed }))
  | cleaned (now : Instant) :
      Effect config cache (.cacheCleanup now)
        (.cleaned, cacheCleanup config cache now)

theorem effect_buildNew (request : PathRequest) (environment : Environment) :
    Effect config cache (.buildPath request environment)
      (buildNew cache request environment) := by
  unfold buildNew
  cases build environment.network with
  | path hops quality => exact .built hops quality
  | fallback response => exact .unchanged (by simp)
  | nothing => exact .unchanged (by simp)
  | failed error => exact .unchanged (by simp)

theorem effect_perform (config : Config) (cache : Cache) (step : Step) :
    Effect config cache step (perform config cache step) := by
  cases step with
  | cacheCleanup now => exact .cleaned now
  | buildPath request environment =>
      change Effect config cache _ (buildPath config cache request environment)
      unfold buildPath
      cases stored : cache[cacheKey request]? with
      | none => exact effect_buildNew request environment
      | some cachedPath =>
          dsimp only
          by_cases valid : isValid config.cacheTtlSecs environment.lookedUp
              cachedPath = true
          · rw [if_pos valid, useCached]
            cases config.mode.add cachedPath.usageCount 1 with
            | none => exact .unchanged (by simp)
            | some usageCount => exact .used usageCount stored valid
          · rw [if_neg valid]
            exact effect_buildNew request environment

/-- What is cached after a step was cached before, but for its use, or is the
path that the step built. -/
theorem lookup_of_perform {step : Step} {key : String} {path : CachedPath}
    (found : (perform config cache step).2[key]? = some path) :
    (∃ old : CachedPath, cache[key]? = some old ∧ old.hops = path.hops ∧
        old.quality = path.quality ∧ old.createdAt = path.createdAt) ∨
      BuiltAs key path.hops path.quality path.createdAt
        (step, (perform config cache step).1) := by
  have kept (before : cache[key]? = some path) :
      ∃ old : CachedPath, cache[key]? = some old ∧ old.hops = path.hops ∧
        old.quality = path.quality ∧ old.createdAt = path.createdAt :=
    ⟨path, before, rfl, rfl, rfl⟩
  have effect := effect_perform config cache step
  generalize perform config cache step = result at effect found ⊢
  cases effect with
  | unchanged _ => exact Or.inl (kept found)
  | used usageCount stored _ =>
      left
      rcases OrderedMap.lookup_insert_cases found with
        ⟨same, isNew⟩ | ⟨_, before⟩
      · rw [same, isNew]
        exact ⟨_, stored, rfl, rfl, rfl⟩
      · exact kept before
  | built hops quality =>
      have inserted := lookup_of_trim _ _ found
      rcases OrderedMap.lookup_insert_cases inserted with
        ⟨same, isNew⟩ | ⟨_, before⟩
      · right
        rw [isNew]
        exact ⟨_, _, rfl, same.symm, rfl⟩
      · exact Or.inl (kept before)
  | cleaned now =>
      left
      rw [cacheCleanup, Std.ExtTreeMap.getElem?_filter'] at found
      exact kept (Option.filter_eq_some_iff.mp found).1

theorem size_perform_le (step : Step) (bounded : cache.size ≤ maxCachedPaths) :
    (perform config cache step).2.size ≤ maxCachedPaths := by
  have effect := effect_perform config cache step
  generalize perform config cache step = result at effect ⊢
  cases effect with
  | unchanged _ => exact bounded
  | used usageCount stored _ =>
      rw [Std.ExtTreeMap.size_insert, if_pos]
      · exact bounded
      · rw [Std.ExtTreeMap.contains_eq_isSome_getElem?, stored]
        rfl
  | built hops quality => exact trim_size_le _ _
  | cleaned now =>
      exact Nat.le_trans Std.ExtTreeMap.size_filter_le_size bounded

/-- A path that is answered from the cache is there, and young enough. -/
theorem cached_of_perform {request : PathRequest}
    {environment : Environment} {response : PathResponse}
    (answered : (perform config cache (.buildPath request environment)).1 =
      .cached response) :
    ∃ path : CachedPath, cache[cacheKey request]? = some path ∧
      isValid config.cacheTtlSecs environment.lookedUp path = true ∧
      response = responseOf path.hops path.quality := by
  have effect := effect_perform config cache (.buildPath request environment)
  generalize perform config cache (.buildPath request environment) = result
    at effect answered
  cases effect with
  | unchanged notCached => exact absurd answered (notCached response)
  | used usageCount stored valid =>
      exact ⟨_, stored, valid, (Reply.cached.inj answered).symm⟩
  | built hops quality => cases answered

end Steps

/-- Every entry of the cache was built under its key. -/
def Faithful (past : Past) (cache : Cache) : Prop :=
  ∀ (key : String) (path : CachedPath), cache[key]? = some path →
    ∃ entry ∈ past, BuiltAs key path.hops path.quality path.createdAt entry

theorem faithful_perform {config : Config} (past : Past) (cache : Cache)
    (step : Step) (faithful : Faithful past cache) :
    Faithful (past ++ [(step, (perform config cache step).1)])
      (perform config cache step).2 := by
  intro key path found
  rcases lookup_of_perform found with
    ⟨old, stored, hops, quality, createdAt⟩ | isNew
  · obtain ⟨entry, member, built⟩ := faithful key old stored
    rw [hops, quality, createdAt] at built
    exact ⟨entry, List.mem_append_left _ member, built⟩
  · exact ⟨_, List.mem_append_right _ List.mem_cons_self, isNew⟩

theorem faithful_run (config : Config) (steps : List Step) :
    Faithful (Trace.history (perform config) ∅ steps)
      (Trace.final (perform config) ∅ steps) := by
  apply Trace.invariant
  · intro key path found
    simp at found
  · exact faithful_perform

/-- The path was built for the same target and number of hops, at that time. -/
def BuiltFor (request : PathRequest) (response : PathResponse)
    (createdAt : Instant) (entry : Step × Reply) : Prop :=
  ∃ earlier environment,
    entry = (.buildPath earlier environment, .built response) ∧
      earlier.target = request.target ∧ earlier.hops = request.hops ∧
      environment.createdAt = createdAt

theorem BuiltAs.builtFor {request : PathRequest} {hops : List String}
    {quality : PathQuality} {createdAt : Instant} {entry : Step × Reply}
    (built : BuiltAs (cacheKey request) hops quality createdAt entry) :
    BuiltFor request (responseOf hops quality) createdAt entry := by
  obtain ⟨earlier, environment, isEntry, sameKey, atTime⟩ := built
  obtain ⟨sameTarget, sameHops⟩ := cacheKey_injective sameKey
  exact ⟨earlier, environment, isEntry, sameTarget, sameHops, atTime⟩

/-- In every run a path answered from the cache was built for the requested
target and number of hops less than the time to live ago, the cache never holds
more than its limit, and a trim removes only what was used least recently. -/
theorem path_cache_faithful_and_bounded (config : Config)
    (steps : List Step) :
    (∀ before request environment response,
        before ++ [.buildPath request environment] <+: steps →
        (perform config (Trace.final (perform config) ∅ before)
          (.buildPath request environment)).1 = .cached response →
          ∃ entry ∈ Trace.history (perform config) ∅ before, ∃ createdAt,
            BuiltFor request response createdAt entry ∧
              createdAt.elapsed environment.lookedUp <
                config.cacheTtlSecs.toNat * 1000000000) ∧
      (∀ before, before <+: steps →
        (Trace.final (perform config) ∅ before).size ≤ maxCachedPaths) ∧
      ∀ iteration cache, RemovesOldest cache (trim iteration cache) := by
  refine ⟨?_, ?_, trim_removesOldest⟩
  · intro before request environment response _ answered
    obtain ⟨path, stored, valid, rfl⟩ := cached_of_perform answered
    obtain ⟨entry, member, built⟩ := faithful_run config before _ path stored
    refine ⟨entry, member, path.createdAt, built.builtFor, ?_⟩
    have young := of_decide_eq_true valid
    exact (Nat.div_lt_iff_lt_mul (by decide)).mp young
  · intro before _
    have kept : ∀ (cache : Cache) (step : Step),
        cache.size ≤ maxCachedPaths →
          (perform config cache step).2.size ≤ maxCachedPaths :=
      fun cache step => size_perform_le step
    exact Trace.final_invariant kept before (Nat.zero_le _)

/-- A network in which a path of one hop is found. -/
def sampleNetwork : Network where
  buildOnionPath := .ok ⟨[("peer_1", "10.0.0.1:443")], ⟨20.0, 0.9⟩⟩
  validateOnionPath := .ok ⟨true, 0.9, 0.8, 0.7⟩
  testOnionPath := true
  buildFallbackPath := .ok none

/-- A call that meets the clock at one moment. -/
def sampleEnvironment (now : Instant) : Environment where
  lookedUp := now
  used := now
  network := sampleNetwork
  createdAt := now
  lastUsed := now
  iteration := ⟨id, fun _ => List.Perm.refl _⟩

/-- A path that was built ten seconds ago is answered from the cache. -/
example :
    (perform ⟨.checked, 300⟩
        (Trace.final (perform ⟨.checked, 300⟩) ∅
          [.buildPath ⟨"10.0.0.9:443", 1, "latency"⟩ (sampleEnvironment 0)])
        (.buildPath ⟨"10.0.0.9:443", 1, "reliability"⟩
          (sampleEnvironment 10000000000))).1 =
      .cached (responseOf ["peer_1@10.0.0.1:443"]
        (pathQuality ⟨20.0, 0.9⟩ ⟨true, 0.9, 0.8, 0.7⟩)) := by
  rfl

end NyxNet.PathCache
