import NyxNet.Daemon.DhtMessage
import NyxNet.Lib.LastWrite
import NyxNet.Lib.Utf8

/-!
# Records on disk

`save_dht_records` and `restore_dht_records` of
`nyx-daemon/src/pure_rust_dht_tcp.rs`.  A record is written with whole seconds
and with its publisher as text.  The signature covers the exact times and the
publisher is a raw key, so what is read back is the record that was saved only
when neither conversion changes anything.
-/

namespace NyxNet.Dht

open LastWrite

structure SerializableDhtRecord where
  key : String
  value : Bytes
  timestamp : UInt64
  ttl : UInt64
  signature : Bytes
  publisher : String
  deriving DecidableEq

/-- Points before the epoch are saved as the epoch. -/
def savedTimestamp (timestamp : SystemTime) : UInt64 :=
  UInt64.ofNat ((timestamp.durationSince SystemTime.unixEpoch).getD
    (Duration.fromSecs 0)).secs

def SerializableDhtRecord.ofRecord (key : String) (record : DhtRecord) :
    SerializableDhtRecord where
  key := key
  value := record.value
  timestamp := savedTimestamp record.timestamp
  ttl := UInt64.ofNat record.ttl.secs
  signature := record.signature.getD []
  publisher := Utf8.fromUtf8Lossy (record.publisher.getD [])

/-- The entries of the storage in the order in which its iterator gives them,
every key once. -/
structure Lists (storage : Storage) (listing : List (String × DhtRecord)) :
    Prop where
  keys_nodup : (listing.map Prod.fst).Nodup
  mem_iff : ∀ key record,
    (key, record) ∈ listing ↔ storage[key]? = some record

def saveDhtRecords (listing : List (String × DhtRecord)) :
    List SerializableDhtRecord :=
  listing.map (fun entry => SerializableDhtRecord.ofRecord entry.1 entry.2)

/-- The record and the end of its time to live.  Either addition of times
panics when the second does not fit. -/
def SerializableDhtRecord.toRecord (saved : SerializableDhtRecord) :
    Option (DhtRecord × SystemTime) :=
  match SystemTime.unixEpoch.checkedAdd (Duration.fromSecs saved.timestamp) with
  | none => none
  | some timestamp =>
      match timestamp.checkedAdd (Duration.fromSecs saved.ttl) with
      | none => none
      | some expiry =>
          some ({
            key := saved.key
            value := saved.value
            timestamp := timestamp
            ttl := Duration.fromSecs saved.ttl
            signature := some saved.signature
            publisher := some (asBytes saved.publisher)
            metadata := none }, expiry)

/-- What a call leaves behind; a panic keeps what has been inserted before. -/
structure Restoration where
  storage : Storage
  panicked : Bool

/-- Every record comes with the time of the check that it has not expired. -/
def restoreDhtRecords (storage : Storage) :
    List (SerializableDhtRecord × SystemTime) → Restoration
  | [] => ⟨storage, false⟩
  | (saved, now) :: rest =>
      match saved.toRecord with
      | none => ⟨storage, true⟩
      | some (record, expiry) =>
          if now.asNanos < expiry.asNanos then
            restoreDhtRecords (storage.insert saved.key record) rest
          else
            restoreDhtRecords storage rest

/-- What a call writes into the storage. -/
def restoredWrites :
    List (SerializableDhtRecord × SystemTime) → List (String × DhtRecord)
  | [] => []
  | (saved, now) :: rest =>
      match saved.toRecord with
      | none => []
      | some (record, expiry) =>
          if now.asNanos < expiry.asNanos then
            (saved.key, record) :: restoredWrites rest
          else
            restoredWrites rest

theorem restoreDhtRecords_storage (storage : Storage)
    (records : List (SerializableDhtRecord × SystemTime)) :
    (restoreDhtRecords storage records).storage =
      apply storage (restoredWrites records) := by
  induction records generalizing storage with
  | nil => rfl
  | cons entry rest ih =>
      obtain ⟨saved, now⟩ := entry
      simp only [restoreDhtRecords, restoredWrites]
      cases saved.toRecord with
      | none => rfl
      | some found =>
          simp only
          split
          · rw [ih, apply_cons]
          · exact ih storage

/-- Seconds since the epoch, or none before it. -/
def unixSecs (timestamp : SystemTime) : Nat := timestamp.tvSec.toNat

theorem unixSecs_lt (timestamp : SystemTime) :
    unixSecs timestamp < 9223372036854775808 := by
  have upper := timestamp.tvSec_lt
  unfold unixSecs
  omega

theorem savedTimestamp_toNat (timestamp : SystemTime) :
    (savedTimestamp timestamp).toNat = unixSecs timestamp := by
  have nsec := timestamp.tvNsec_lt
  have bound := unixSecs_lt timestamp
  have secs : ((timestamp.durationSince SystemTime.unixEpoch).getD
      (Duration.fromSecs 0)).secs = unixSecs timestamp := by
    have epoch : SystemTime.unixEpoch.asNanos = 0 := rfl
    have nanos : timestamp.asNanos =
        timestamp.tvSec * 1000000000 + timestamp.tvNsec := rfl
    unfold SystemTime.durationSince
    split
    · simp only [Option.getD_some, Duration.ofNanos, epoch, unixSecs]
      omega
    · have nothing : (Duration.fromSecs 0).secs = 0 := rfl
      rw [Option.getD_none, nothing, unixSecs]
      omega
  rw [savedTimestamp, secs, UInt64.toNat_ofNat']
  omega

theorem unixEpoch_checkedAdd (seconds : UInt64)
    (fits : seconds.toNat < 9223372036854775808) :
    SystemTime.unixEpoch.checkedAdd (Duration.fromSecs seconds) =
      some (SystemTime.ofUnixSecs seconds.toNat fits) := by
  have sum : SystemTime.unixEpoch.checkedAdd (Duration.fromSecs seconds) ≠
      none := by
    rw [Ne, SystemTime.checkedAdd_eq_none_iff]
    simp only [SystemTime.unixEpoch, SystemTime.ofUnixSecs,
      SystemTime.asNanos, Duration.fromSecs, Duration.asNanos]
    omega
  obtain ⟨time, added⟩ := Option.ne_none_iff_exists'.mp sum
  have nanos := SystemTime.asNanos_of_checkedAdd added
  have nsec := time.tvNsec_lt
  simp only [SystemTime.unixEpoch, SystemTime.ofUnixSecs,
    SystemTime.asNanos, Duration.fromSecs, Duration.asNanos] at nanos
  rw [added]
  refine congrArg some (SystemTime.ext ?_ ?_)
  · simp only [SystemTime.ofUnixSecs]
    omega
  · simp only [SystemTime.ofUnixSecs]
    omega

/-- The end of the time to live, in whole seconds, lies past the range of a
`SystemTime`. -/
def Overflows (record : DhtRecord) : Prop :=
  9223372036854775808 ≤ unixSecs record.timestamp + record.ttl.secs

instance Overflows.decidable (record : DhtRecord) :
    Decidable (Overflows record) :=
  Nat.decLe _ _

/-- The record as it is read back. -/
def readBack (key : String) (record : DhtRecord) : DhtRecord where
  key := key
  value := record.value
  timestamp := SystemTime.ofUnixSecs (unixSecs record.timestamp)
    (unixSecs_lt record.timestamp)
  ttl := Duration.fromSecs (UInt64.ofNat record.ttl.secs)
  signature := some (record.signature.getD [])
  publisher := some (asBytes (Utf8.fromUtf8Lossy (record.publisher.getD [])))
  metadata := none

theorem readBack_ttl_secs (key : String) (record : DhtRecord) :
    (readBack key record).ttl.secs = record.ttl.secs := by
  have bound := record.ttl.secs_lt
  simp only [readBack, Duration.fromSecs, UInt64.toNat_ofNat']
  omega

theorem readBack_ttl_nanos (key : String) (record : DhtRecord) :
    (readBack key record).ttl.nanos = 0 := rfl

/-- The first addition fits always, since a `SystemTime` was saved. -/
theorem toRecord_ofRecord (key : String) (record : DhtRecord) :
    (SerializableDhtRecord.ofRecord key record).toRecord =
      ((readBack key record).timestamp.checkedAdd
        (readBack key record).ttl).map
          (fun expiry => (readBack key record, expiry)) := by
  have saved := savedTimestamp_toNat record.timestamp
  have fits : (savedTimestamp record.timestamp).toNat <
      9223372036854775808 := by
    rw [saved]
    exact unixSecs_lt record.timestamp
  have timestamp : SystemTime.unixEpoch.checkedAdd
      (Duration.fromSecs (savedTimestamp record.timestamp)) =
        some (readBack key record).timestamp := by
    rw [unixEpoch_checkedAdd _ fits]
    simp only [saved, readBack]
  have ttl : Duration.fromSecs (UInt64.ofNat record.ttl.secs) =
      (readBack key record).ttl := rfl
  simp only [SerializableDhtRecord.toRecord, SerializableDhtRecord.ofRecord,
    timestamp, ttl]
  cases (readBack key record).timestamp.checkedAdd
    (readBack key record).ttl <;> rfl

theorem readBack_expiry (key : String) (record : DhtRecord) :
    (readBack key record).timestamp.asNanos +
        (readBack key record).ttl.asNanos =
      (unixSecs record.timestamp + record.ttl.secs) * 1000000000 := by
  rw [Duration.asNanos, readBack_ttl_secs, readBack_ttl_nanos]
  simp only [readBack, SystemTime.ofUnixSecs, SystemTime.asNanos]
  omega

theorem toRecord_eq_none_iff (key : String) (record : DhtRecord) :
    (SerializableDhtRecord.ofRecord key record).toRecord = none ↔
      Overflows record := by
  rw [toRecord_ofRecord, Option.map_eq_none_iff,
    SystemTime.checkedAdd_eq_none_iff, readBack_expiry, Overflows]
  omega

theorem toRecord_of_not_overflows {record : DhtRecord}
    (fits : ¬ Overflows record) (key : String) :
    ∃ expiry, (SerializableDhtRecord.ofRecord key record).toRecord =
        some (readBack key record, expiry) ∧
      expiry.asNanos =
        (unixSecs record.timestamp + record.ttl.secs) * 1000000000 := by
  rw [← toRecord_eq_none_iff key, toRecord_ofRecord,
    Option.map_eq_none_iff] at fits
  obtain ⟨expiry, added⟩ := Option.ne_none_iff_exists'.mp fits
  refine ⟨expiry, ?_, ?_⟩
  · rw [toRecord_ofRecord, added]
    rfl
  · rw [SystemTime.asNanos_of_checkedAdd added, readBack_expiry]

/-- An entry of the storage, with the time at which it is restored. -/
abbrev TimedEntry : Type := (String × DhtRecord) × SystemTime

/-- Into an empty storage. -/
def saveAndRestore (entries : List TimedEntry) : Storage :=
  (restoreDhtRecords ∅ ((saveDhtRecords (entries.map Prod.fst)).zip
    (entries.map Prod.snd))).storage

def savedEntries (entries : List TimedEntry) :
    List (SerializableDhtRecord × SystemTime) :=
  entries.map (fun entry =>
    (SerializableDhtRecord.ofRecord entry.1.1 entry.1.2, entry.2))

theorem saveAndRestore_eq (entries : List TimedEntry) :
    saveAndRestore entries = apply ∅ (restoredWrites (savedEntries entries)) := by
  rw [saveAndRestore, restoreDhtRecords_storage, saveDhtRecords, List.map_map,
    List.zip_map']
  rfl

theorem restoredWrites_cons_of_overflows {entry : TimedEntry}
    (overflows : Overflows entry.1.2) (rest : List TimedEntry) :
    restoredWrites (savedEntries (entry :: rest)) = [] := by
  have panics := (toRecord_eq_none_iff entry.1.1 entry.1.2).mpr overflows
  simp only [savedEntries, List.map_cons, restoredWrites, panics]

/-- The check uses the times that are read back. -/
theorem restoredWrites_cons {entry : TimedEntry}
    (fits : ¬ Overflows entry.1.2) (rest : List TimedEntry) :
    restoredWrites (savedEntries (entry :: rest)) =
      (if entry.2.asNanos <
          (unixSecs entry.1.2.timestamp + entry.1.2.ttl.secs) * 1000000000 then
        [(entry.1.1, readBack entry.1.1 entry.1.2)]
      else []) ++ restoredWrites (savedEntries rest) := by
  obtain ⟨expiry, found, nanos⟩ := toRecord_of_not_overflows fits entry.1.1
  simp only [savedEntries, List.map_cons, restoredWrites, found, nanos]
  split <;> rfl

theorem writesTo_restoredWrites_of_absent {key : String}
    {entries : List TimedEntry}
    (absent : key ∉ entries.map (fun entry => entry.1.1)) :
    writesTo key (restoredWrites (savedEntries entries)) = [] := by
  induction entries with
  | nil => rfl
  | cons entry rest ih =>
      rw [List.map_cons, List.mem_cons, not_or] at absent
      by_cases overflows : Overflows entry.1.2
      · rw [restoredWrites_cons_of_overflows overflows]
        rfl
      · rw [restoredWrites_cons overflows, writesTo_append, ih absent.2,
          List.append_nil]
        split
        · simp [writesTo, Ne.symm absent.1]
        · rfl

/-- The loop gets to the record, and the record has not expired in whole
seconds. -/
def Restored (before : List TimedEntry) (record : DhtRecord)
    (now : SystemTime) : Prop :=
  (∀ entry ∈ before, ¬ Overflows entry.1.2) ∧ ¬ Overflows record ∧
    now.asNanos <
      (unixSecs record.timestamp + record.ttl.secs) * 1000000000

theorem lookup_saveAndRestore_iff {before after : List TimedEntry}
    {key : String} {record other : DhtRecord} {now : SystemTime}
    (distinct : ((before ++ ((key, record), now) :: after).map
      (fun entry => entry.1.1)).Nodup) :
    (saveAndRestore (before ++ ((key, record), now) :: after))[key]? =
        some other ↔
      Restored before record now ∧ other = readBack key record := by
  rw [saveAndRestore_eq, lookup_apply, Std.ExtHashMap.getElem?_empty,
    Option.or_none]
  induction before with
  | nil =>
      rw [List.nil_append, List.map_cons, List.nodup_cons] at distinct
      have absent := writesTo_restoredWrites_of_absent distinct.1
      by_cases overflows : Overflows record
      · have panics := restoredWrites_cons_of_overflows
          (show Overflows ((key, record), now).1.2 from overflows) after
        rw [List.nil_append, panics]
        simp [Restored, overflows, writesTo]
      · have written := restoredWrites_cons
          (show ¬ Overflows ((key, record), now).1.2 from overflows) after
        rw [List.nil_append, written, writesTo_append, absent, List.append_nil]
        split
        · next early => simp [Restored, overflows, early, writesTo, eq_comm]
        · next late => simp [Restored, overflows, late, writesTo]
  | cons first before ih =>
      rw [List.cons_append, List.map_cons, List.nodup_cons] at distinct
      have different : first.1.1 ≠ key := by
        intro same
        exact distinct.1 (by simp [same])
      rw [List.cons_append]
      by_cases overflows : Overflows first.1.2
      · rw [restoredWrites_cons_of_overflows overflows]
        simp [Restored, overflows, writesTo]
      · rw [restoredWrites_cons overflows, writesTo_append]
        have nothing : writesTo key (if first.2.asNanos <
            (unixSecs first.1.2.timestamp + first.1.2.ttl.secs) * 1000000000
            then [(first.1.1, readBack first.1.1 first.1.2)] else []) = [] := by
          split
          · simp [writesTo, different]
          · rfl
        rw [nothing, List.nil_append, ih distinct.2]
        simp [Restored, overflows]

/-- The time to live has not ended. -/
def Unexpired (now : SystemTime) (record : DhtRecord) : Prop :=
  now.asNanos < record.timestamp.asNanos + record.ttl.asNanos

variable (ed25519 : Ed25519)

/-- What is assumed of the record's signature: its publisher's key accepts it
over no other text. -/
def SignatureBound (record : DhtRecord) : Prop :=
  ∀ other : DhtRecord, other.publisher = record.publisher →
    other.signature = record.signature →
      verifyRecord ed25519 other = .ok true →
        recordContent other.key other.value other.timestamp other.ttl =
          recordContent record.key record.value record.timestamp record.ttl

/-- The record is there with its value, publisher and signature, and is still
verified. -/
def Survives (storage : Storage) (key : String) (record : DhtRecord) : Prop :=
  ∃ restored, storage[key]? = some restored ∧
    restored.value = record.value ∧ restored.publisher = record.publisher ∧
    restored.signature = record.signature ∧
    verifyRecord ed25519 restored = .ok true

/-- The conversions change nothing. -/
structure Convertible (key : String) (record : DhtRecord) : Prop where
  own_key : record.key = key
  publisher_valid : Utf8.Valid (record.publisher.getD [])
  timestamp_secs : 0 ≤ record.timestamp.tvSec
  timestamp_nanos : record.timestamp.tvNsec = 0
  ttl_nanos : record.ttl.nanos = 0

variable {ed25519}

theorem isSome_of_verified {record : DhtRecord}
    (verified : verifyRecord ed25519 record = .ok true) :
    (∃ publisher, record.publisher = some publisher) ∧
      ∃ signature, record.signature = some signature := by
  constructor
  · cases publisher : record.publisher with
    | none => simp [verifyRecord, publisher] at verified
    | some bytes => exact ⟨bytes, rfl⟩
  · cases signature : record.signature with
    | none =>
        unfold verifyRecord at verified
        split at verified
        · cases verified
        · split at verified
          · cases verified
          · simp [signature] at verified
    | some bytes => exact ⟨bytes, rfl⟩

theorem readBack_times_iff (key : String) (record : DhtRecord) :
    (readBack key record).timestamp = record.timestamp ∧
        (readBack key record).ttl = record.ttl ↔
      0 ≤ record.timestamp.tvSec ∧ record.timestamp.tvNsec = 0 ∧
        record.ttl.nanos = 0 := by
  rw [Duration.ext_iff, readBack_ttl_secs, readBack_ttl_nanos]
  simp only [readBack, SystemTime.ofUnixSecs, SystemTime.ext_iff, unixSecs]
  constructor
  · intro same
    omega
  · intro whole
    refine ⟨⟨?_, whole.2.1.symm⟩, trivial, whole.2.2.symm⟩
    omega

theorem readBack_publisher_iff {record : DhtRecord} {publisher : Bytes}
    (present : record.publisher = some publisher) (key : String) :
    (readBack key record).publisher = record.publisher ↔
      Utf8.Valid (record.publisher.getD []) := by
  rw [present, Option.getD_some, ← Utf8.encode_fromUtf8Lossy_iff]
  simp only [readBack, present, Option.getD_some, Option.some.injEq]
  rfl

/-- The two checks of expiry agree on whole seconds. -/
theorem restored_iff_of_convertible {before : List TimedEntry} {key : String}
    {record : DhtRecord} {now : SystemTime}
    (convertible : Convertible key record) (unexpired : Unexpired now record) :
    Restored before record now ↔
      (∀ entry ∈ before, ¬ Overflows entry.1.2) ∧ ¬ Overflows record := by
  have secs := convertible.timestamp_secs
  have nanos := convertible.timestamp_nanos
  have ttl := convertible.ttl_nanos
  have early : now.asNanos <
      (unixSecs record.timestamp + record.ttl.secs) * 1000000000 := by
    have start : record.timestamp.asNanos =
        record.timestamp.tvSec * 1000000000 + record.timestamp.tvNsec := rfl
    have span : record.ttl.asNanos =
        record.ttl.secs * 1000000000 + record.ttl.nanos := rfl
    unfold Unexpired at unexpired
    unfold unixSecs
    omega
  simp only [Restored, early, and_true]

theorem survives_iff (ed25519 : Ed25519) (storage : Storage)
    (before after : List TimedEntry) (key : String) (record : DhtRecord)
    (now : SystemTime)
    (lists : Lists storage
      ((before ++ ((key, record), now) :: after).map Prod.fst))
    (verified : verifyRecord ed25519 record = .ok true)
    (bound : SignatureBound ed25519 record)
    (unexpired : Unexpired now record) :
    Survives ed25519 (saveAndRestore (before ++ ((key, record), now) :: after))
        key record ↔
      Convertible key record ∧
        (∀ entry ∈ before, ¬ Overflows entry.1.2) ∧ ¬ Overflows record := by
  have distinct := lists.keys_nodup
  rw [List.map_map] at distinct
  obtain ⟨⟨publisher, published⟩, ⟨signature, signed⟩⟩ :=
    isSome_of_verified verified
  have sameSignature : (readBack key record).signature = record.signature := by
    simp only [readBack, signed, Option.getD_some]
  constructor
  · intro survives
    obtain ⟨restored, found, -, samePublisher, -, stillVerified⟩ := survives
    obtain ⟨reached, rfl⟩ := (lookup_saveAndRestore_iff distinct).mp found
    have texts := bound _ samePublisher sameSignature stillVerified
    obtain ⟨sameKey, -, sameTimestamp, sameTtl⟩ := recordContent_inj texts
    obtain ⟨secs, nanos, ttl⟩ :=
      (readBack_times_iff key record).mp ⟨sameTimestamp, sameTtl⟩
    have valid := (readBack_publisher_iff published key).mp samePublisher
    exact ⟨⟨sameKey.symm, valid, secs, nanos, ttl⟩, reached.1, reached.2.1⟩
  · intro condition
    obtain ⟨convertible, fits⟩ := condition
    have reached := (restored_iff_of_convertible convertible unexpired).mpr fits
    obtain ⟨sameTimestamp, sameTtl⟩ := (readBack_times_iff key record).mpr
      ⟨convertible.timestamp_secs, convertible.timestamp_nanos,
        convertible.ttl_nanos⟩
    have samePublisher := (readBack_publisher_iff published key).mpr
      convertible.publisher_valid
    refine ⟨readBack key record,
      (lookup_saveAndRestore_iff distinct).mpr ⟨reached, rfl⟩, rfl,
      samePublisher, sameSignature, ?_⟩
    have sameKey : (readBack key record).key = record.key :=
      convertible.own_key.symm
    have sameValue : (readBack key record).value = record.value := rfl
    rw [verifyRecord, samePublisher, sameSignature, sameKey, sameValue,
      sameTimestamp, sameTtl]
    exact verified

/-- One signed record, restored at the time of its signature. -/
def sampleEntry : TimedEntry := (("k", sampleCall.record), sampleTime)

theorem lists_sample :
    Lists ((∅ : Storage).insert "k" sampleCall.record)
      [("k", sampleCall.record)] where
  keys_nodup := List.nodup_singleton "k"
  mem_iff := by
    intro key record
    rw [List.mem_singleton, Prod.mk.injEq, Std.ExtHashMap.getElem?_insert,
      Std.ExtHashMap.getElem?_empty]
    by_cases same : "k" = key
    · simp [← same, eq_comm]
    · simp [same, Ne.symm same]

theorem signatureBound_sample :
    SignatureBound sampleEd25519 sampleCall.record := by
  intro other _ _ verified
  obtain ⟨_, publicKey, sigBytes, -, -, holds⟩ := verifyRecord_eq_true verified
  have text := asBytes_injective (of_decide_eq_true holds).1
  rw [text]
  exact recordContent_sample.symm

theorem unexpired_sample : Unexpired sampleTime sampleCall.record := by
  unfold Unexpired
  decide

theorem survives_iff_sample :
    Lists ((∅ : Storage).insert "k" sampleCall.record)
        [("k", sampleCall.record)] ∧
      verifyRecord sampleEd25519 sampleCall.record = .ok true ∧
      SignatureBound sampleEd25519 sampleCall.record ∧
      Unexpired sampleTime sampleCall.record ∧
      (Survives sampleEd25519 (saveAndRestore [sampleEntry]) "k"
          sampleCall.record ↔
        Convertible "k" sampleCall.record ∧
          (∀ entry ∈ ([] : List TimedEntry), ¬ Overflows entry.1.2) ∧
            ¬ Overflows sampleCall.record) :=
  ⟨lists_sample, verifyRecord_sample none, signatureBound_sample,
    unexpired_sample,
    survives_iff sampleEd25519 _ [] [] "k" sampleCall.record sampleTime
      lists_sample (verifyRecord_sample none) signatureBound_sample
      unexpired_sample⟩

/-- No text starts with the first byte of the key, a continuation byte. -/
theorem publisher_sample_not_valid : ¬ Utf8.Valid sampleVerifyingKey.toList := by
  intro valid
  have first := ByteArray.IsValidUTF8.isUTF8FirstByte_getElem_zero valid
    (by decide)
  revert first
  decide

/-- A record that was just stored is not verified any more after a restart. -/
theorem stored_record_lost :
    verifyRecord sampleEd25519 sampleCall.record = .ok true ∧
      Unexpired sampleTime sampleCall.record ∧
      Lists ((∅ : Storage).insert "k" sampleCall.record)
        [("k", sampleCall.record)] ∧
      ¬ Survives sampleEd25519 (saveAndRestore [sampleEntry]) "k"
        sampleCall.record := by
  refine ⟨verifyRecord_sample none, unexpired_sample, lists_sample, ?_⟩
  intro survives
  obtain ⟨restored, found, -, samePublisher, -, -⟩ := survives
  have distinct : (([] ++ sampleEntry :: []).map
      (fun entry : TimedEntry => entry.1.1)).Nodup := List.nodup_singleton "k"
  obtain ⟨-, rfl⟩ := (lookup_saveAndRestore_iff distinct).mp found
  exact publisher_sample_not_valid
    ((readBack_publisher_iff (show sampleCall.record.publisher =
      some sampleVerifyingKey.toList from rfl) "k").mp samePublisher)

end NyxNet.Dht
