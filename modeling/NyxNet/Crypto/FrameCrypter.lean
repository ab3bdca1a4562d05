import NyxNet.Crypto.Aead
import NyxNet.Lib.ByteBitmap

/-!
# Frame crypter with a sliding replay window

`FrameCrypter` of `nyx-crypto/src/aead.rs`.  The receiving half keeps the
highest accepted sequence number and a bitmap of the `2^20` numbers below it;
bit `i` stands for `recvHighest - i`.  `Tracks` ties that window to the list of
all sequence numbers accepted so far.
-/

namespace NyxNet.Crypto

/-- Anti-replay window size. -/
def windowSize : Nat := 1 <<< 20

theorem windowSize_eq : windowSize = 1048576 := rfl

theorem lt_bitmapBits {index : Nat} (bound : index < windowSize) :
    index < 8 * (windowSize / 8) := bound

structure FrameCrypter where
  key : SessionKey
  sendSeq : UInt64
  recvHighest : UInt64
  bitmap : Vector UInt8 (windowSize / 8)

namespace FrameCrypter

def new (key : SessionKey) : FrameCrypter :=
  { key := key
    sendSeq := 0
    recvHighest := 0
    bitmap := Vector.replicate (windowSize / 8) 0 }

def makeNonce (dir : UInt32) (seq : UInt64) : Nonce := directionNonce dir seq

/-- `encrypt`.  A refusal of the cipher hits `expect` and aborts the call after
the counter has moved. -/
def encrypt (aead : Aead) (crypter : FrameCrypter) (dir : UInt32)
    (plaintext aad : Bytes) : Outcome AeadError Bytes × FrameCrypter :=
  let seq := crypter.sendSeq
  let advanced := { crypter with sendSeq := crypter.sendSeq + 1 }
  match aead.encrypt crypter.key (makeNonce dir seq) plaintext aad with
  | some ciphertext => (.returned ciphertext, advanced)
  | none => (.panicked, advanced)

def bitmapGet (crypter : FrameCrypter) (index : Nat)
    (bound : index < windowSize) : Bool :=
  ByteBitmap.getBit crypter.bitmap index (lt_bitmapBits bound)

def bitmapSet (crypter : FrameCrypter) (index : Nat)
    (bound : index < windowSize) : FrameCrypter :=
  { crypter with
    bitmap := ByteBitmap.setBit crypter.bitmap index (lt_bitmapBits bound) }

/-- `slide_window`: clear everything on a jump of a window or more, otherwise
shift bytes and then bits. -/
def slideWindow (crypter : FrameCrypter) (shift : UInt64) : FrameCrypter :=
  if jump : windowSize ≤ shift.toNat then
    { crypter with bitmap := crypter.bitmap.map (fun _ => 0) }
  else
    { crypter with
      bitmap := ByteBitmap.shiftUp shift.toNat
        (lt_bitmapBits (Nat.lt_of_not_le jump)) crypter.bitmap }

/-- `check_replay`.  `seq + WINDOW_SIZE` is the one sum that can overflow. -/
def checkReplay (mode : OverflowMode) (crypter : FrameCrypter) (seq : UInt64) :
    Outcome AeadError Unit :=
  match mode.add seq (UInt64.ofNat windowSize) with
  | none => .panicked
  | some edge =>
      if edge < crypter.recvHighest then .failed .stale
      else if crypter.recvHighest < seq then
        -- brand-new sequence, always allowed
        .returned ()
      else
        let index := (crypter.recvHighest - seq).toNat
        if outside : windowSize ≤ index then .failed .stale
        else if crypter.bitmapGet index (Nat.lt_of_not_le outside) then
          .failed .replay
        else .returned ()

def markSeen (crypter : FrameCrypter) (seq : UInt64) : FrameCrypter :=
  let advanced :=
    if crypter.recvHighest < seq then
      { crypter.slideWindow (seq - crypter.recvHighest) with recvHighest := seq }
    else crypter
  let index := (advanced.recvHighest - seq).toNat
  if inside : index < windowSize then advanced.bitmapSet index inside
  else advanced

def decrypt (aead : Aead) (mode : OverflowMode) (crypter : FrameCrypter)
    (dir : UInt32) (seq : UInt64) (ciphertext aad : Bytes) :
    Outcome AeadError Bytes × FrameCrypter :=
  match crypter.checkReplay mode seq with
  | .panicked => (.panicked, crypter)
  | .failed error => (.failed error, crypter)
  | .returned () =>
      match aead.decrypt crypter.key (makeNonce dir seq) ciphertext aad with
      | none => (.failed .invalidTag, crypter)
      | some plaintext => (.returned plaintext, crypter.markSeen seq)

/-- The receive window agrees with the sequence numbers accepted so far. -/
structure Tracks (crypter : FrameCrypter) (accepted : List UInt64) : Prop where
  upper : ∀ seq ∈ accepted, seq.toNat ≤ crypter.recvHighest.toNat
  attained : crypter.recvHighest.toNat = 0 ∨ crypter.recvHighest ∈ accepted
  window : ∀ seq : UInt64, seq.toNat ≤ crypter.recvHighest.toNat →
    crypter.recvHighest.toNat - seq.toNat < windowSize →
      (ByteBitmap.bit crypter.bitmap
          (crypter.recvHighest.toNat - seq.toNat) = true ↔ seq ∈ accepted)

theorem tracks_new (key : SessionKey) : (new key).Tracks [] := by
  constructor
  · intro seq member
    cases member
  · exact Or.inl rfl
  · intro seq _ _
    simp [new]

theorem bitmapGet_eq_bit (crypter : FrameCrypter) (index : Nat)
    (bound : index < windowSize) :
    crypter.bitmapGet index bound = ByteBitmap.bit crypter.bitmap index :=
  ByteBitmap.getBit_eq_bit _ _ (lt_bitmapBits bound)

theorem bit_bitmapSet (crypter : FrameCrypter) (index position : Nat)
    (bound : index < windowSize) :
    ByteBitmap.bit (crypter.bitmapSet index bound).bitmap position =
      (decide (index = position) || ByteBitmap.bit crypter.bitmap position) :=
  ByteBitmap.bit_setBit _ _ (lt_bitmapBits bound) position

/-- `slideWindow` is the logical shift of the window, also across the jump
that clears it. -/
theorem bit_slideWindow (crypter : FrameCrypter) (shift : UInt64)
    (index : Nat) (bound : index < windowSize) :
    ByteBitmap.bit (crypter.slideWindow shift).bitmap index =
      (decide (shift.toNat ≤ index) &&
        ByteBitmap.bit crypter.bitmap (index - shift.toNat)) := by
  unfold slideWindow
  by_cases jump : windowSize ≤ shift.toNat
  · have beyond : ¬ shift.toNat ≤ index := by omega
    have cleared : crypter.bitmap.map (fun _ => (0 : UInt8)) =
        Vector.replicate (windowSize / 8) 0 := by
      ext position positionBound
      simp
    simp [jump, beyond, cleared]
  · rw [dif_neg jump]
    exact ByteBitmap.bit_shiftUp _ (lt_bitmapBits (Nat.lt_of_not_le jump)) _ _
      (lt_bitmapBits bound)

/-- Every bit of the window moves up by the shift: what is read at a place was
read that far below it, the places below the shift are cleared, and a jump of a
window or more clears all of them. -/
theorem slideWindow_shifts (crypter : FrameCrypter) (shift : UInt64) :
    (∀ (index : Nat) (bound : index < windowSize),
      (shift.toNat ≤ index →
        (crypter.slideWindow shift).bitmapGet index bound =
          crypter.bitmapGet (index - shift.toNat)
            (Nat.lt_of_le_of_lt (Nat.sub_le ..) bound)) ∧
      (index < shift.toNat →
        (crypter.slideWindow shift).bitmapGet index bound = false)) ∧
    (windowSize ≤ shift.toNat →
      ∀ (index : Nat) (bound : index < windowSize),
        (crypter.slideWindow shift).bitmapGet index bound = false) := by
  have moved : ∀ (index : Nat) (bound : index < windowSize),
      (crypter.slideWindow shift).bitmapGet index bound =
        (decide (shift.toNat ≤ index) &&
          ByteBitmap.bit crypter.bitmap (index - shift.toNat)) := by
    intro index bound
    rw [bitmapGet_eq_bit, bit_slideWindow crypter shift index bound]
  have cleared : ∀ (index : Nat) (bound : index < windowSize),
      index < shift.toNat →
        (crypter.slideWindow shift).bitmapGet index bound = false := by
    intro index bound below
    rw [moved, decide_eq_false (Nat.not_le_of_lt below), Bool.false_and]
  refine ⟨?_, ?_⟩
  · intro index bound
    refine ⟨?_, cleared index bound⟩
    intro reached
    rw [moved, decide_eq_true reached, Bool.true_and, bitmapGet_eq_bit]
  · intro jump index bound
    exact cleared index bound (Nat.lt_of_lt_of_le bound jump)

/-- A crypter that has seen the highest number only. -/
def sampleMarked : FrameCrypter :=
  (new ⟨Vector.replicate 32 7⟩).bitmapSet 0 (by decide)

/-- A shift by a byte and five bits, and one by the whole window. -/
theorem slideWindow_shifts_sample :
    ((sampleMarked.slideWindow 13).bitmapGet 13 (by decide) =
        sampleMarked.bitmapGet 0 (by decide) ∧
      (sampleMarked.slideWindow 13).bitmapGet 12 (by decide) = false) ∧
    (sampleMarked.slideWindow 1048576).bitmapGet 1048575 (by decide) =
      false := by
  have shifts := slideWindow_shifts sampleMarked 13
  exact ⟨⟨(shifts.1 13 (by decide)).1 (by decide),
      (shifts.1 12 (by decide)).2 (by decide)⟩,
    (slideWindow_shifts sampleMarked 1048576).2 (by decide) 1048575
      (by decide)⟩

@[simp] theorem slideWindow_key (crypter : FrameCrypter) (shift : UInt64) :
    (crypter.slideWindow shift).key = crypter.key := by
  unfold slideWindow
  split <;> rfl

/-- The step that moves the window forward. -/
private theorem tracks_advance {crypter : FrameCrypter}
    {accepted : List UInt64} (tracks : crypter.Tracks accepted)
    {seq : UInt64} (newer : crypter.recvHighest.toNat < seq.toNat) :
    FrameCrypter.Tracks
      (({ crypter.slideWindow (seq - crypter.recvHighest) with
          recvHighest := seq } : FrameCrypter).bitmapSet 0 (by decide))
      (accepted ++ [seq]) := by
  have shiftEq : (seq - crypter.recvHighest).toNat =
      seq.toNat - crypter.recvHighest.toNat :=
    UInt64.toNat_sub_of_le _ _ (UInt64.le_iff_toNat_le.mpr (by omega))
  constructor
  · intro earlier member
    rcases List.mem_append.mp member with old | last
    · have below := tracks.upper earlier old
      change earlier.toNat ≤ seq.toNat
      omega
    · rw [List.mem_singleton.mp last]
      exact Nat.le_refl _
  · right
    exact List.mem_append_right accepted List.mem_cons_self
  · intro earlier below inside
    change earlier.toNat ≤ seq.toNat at below
    change seq.toNat - earlier.toNat < windowSize at inside
    change ByteBitmap.bit _ (seq.toNat - earlier.toNat) = true ↔ _
    rw [bit_bitmapSet]
    change (decide (0 = seq.toNat - earlier.toNat) ||
      ByteBitmap.bit (crypter.slideWindow (seq - crypter.recvHighest)).bitmap
        (seq.toNat - earlier.toNat)) = true ↔ _
    rw [bit_slideWindow _ _ _ inside, shiftEq]
    by_cases same : earlier = seq
    · subst earlier
      simp
    · have different : earlier.toNat ≠ seq.toNat :=
        fun equality => same (UInt64.toNat_inj.mp equality)
      by_cases old : earlier.toNat ≤ crypter.recvHighest.toNat
      · -- An older number keeps its bit, one shift further up.
        have distance : seq.toNat - earlier.toNat -
            (seq.toNat - crypter.recvHighest.toNat) =
              crypter.recvHighest.toNat - earlier.toNat := by omega
        have reached : seq.toNat - crypter.recvHighest.toNat ≤
            seq.toNat - earlier.toNat := by omega
        have nonzero : 0 ≠ seq.toNat - earlier.toNat := by omega
        have oldWindow := tracks.window earlier old (by omega)
        simp [distance, reached, nonzero, oldWindow, same]
      · -- A number between the two windows was never accepted.
        have skipped : ¬ seq.toNat - crypter.recvHighest.toNat ≤
            seq.toNat - earlier.toNat := by omega
        have nonzero : 0 ≠ seq.toNat - earlier.toNat := by omega
        have unseen : earlier ∉ accepted :=
          fun member => old (tracks.upper earlier member)
        simp [skipped, nonzero, unseen, same]

/-- The step that fills a hole inside the window. -/
private theorem tracks_fill {crypter : FrameCrypter}
    {accepted : List UInt64} (tracks : crypter.Tracks accepted)
    {seq : UInt64} (older : seq.toNat ≤ crypter.recvHighest.toNat)
    (inside : crypter.recvHighest.toNat - seq.toNat < windowSize) :
    (crypter.bitmapSet (crypter.recvHighest.toNat - seq.toNat) inside).Tracks
      (accepted ++ [seq]) := by
  constructor
  · intro earlier member
    rcases List.mem_append.mp member with old | last
    · exact tracks.upper earlier old
    · rw [List.mem_singleton.mp last]
      exact older
  · rcases tracks.attained with zero | member
    · exact Or.inl zero
    · exact Or.inr (List.mem_append_left [seq] member)
  · intro earlier below within
    change earlier.toNat ≤ crypter.recvHighest.toNat at below
    change crypter.recvHighest.toNat - earlier.toNat < windowSize at within
    change ByteBitmap.bit _ (crypter.recvHighest.toNat - earlier.toNat) = true ↔ _
    rw [bit_bitmapSet]
    have sameBit : crypter.recvHighest.toNat - seq.toNat =
        crypter.recvHighest.toNat - earlier.toNat ↔ earlier = seq := by
      rw [← UInt64.toNat_inj]
      omega
    have oldWindow := tracks.window earlier below within
    simp [sameBit, oldWindow, or_comm]

/-- The distance down to a number that is not above. -/
theorem toNat_sub_of_not_lt {highest seq : UInt64} (notNewer : ¬ highest < seq) :
    seq.toNat ≤ highest.toNat ∧
      (highest - seq).toNat = highest.toNat - seq.toNat := by
  rw [UInt64.lt_iff_toNat_lt] at notNewer
  have older : seq.toNat ≤ highest.toNat := Nat.le_of_not_lt notNewer
  exact ⟨older,
    UInt64.toNat_sub_of_le _ _ (UInt64.le_iff_toNat_le.mpr older)⟩

/-- Marking a number that `checkReplay` can pass records exactly that number. -/
theorem tracks_markSeen {crypter : FrameCrypter}
    {accepted : List UInt64} (tracks : crypter.Tracks accepted)
    {seq : UInt64}
    (reachable : crypter.recvHighest.toNat < seq.toNat + windowSize) :
    (crypter.markSeen seq).Tracks (accepted ++ [seq]) := by
  unfold markSeen
  by_cases newer : crypter.recvHighest < seq
  · have newerNat : crypter.recvHighest.toNat < seq.toNat :=
      UInt64.lt_iff_toNat_lt.mp newer
    simpa [newer, windowSize_eq] using tracks_advance tracks newerNat
  · obtain ⟨older, distance⟩ := toNat_sub_of_not_lt newer
    have inside : crypter.recvHighest.toNat - seq.toNat < windowSize := by
      omega
    simpa [newer, distance, inside] using tracks_fill tracks older inside

/-- A number passes the replay check only when it is new and inside reach. -/
theorem checkReplay_sound {mode : OverflowMode} {crypter : FrameCrypter}
    {accepted : List UInt64} (tracks : crypter.Tracks accepted) {seq : UInt64}
    (passed : crypter.checkReplay mode seq = .returned ()) :
    seq ∉ accepted ∧ crypter.recvHighest.toNat < seq.toNat + windowSize := by
  unfold checkReplay at passed
  split at passed
  case h_1 => cases passed
  case h_2 edge _ =>
    by_cases stale : edge < crypter.recvHighest
    · simp [stale] at passed
    · by_cases newer : crypter.recvHighest < seq
      · have newerNat := UInt64.lt_iff_toNat_lt.mp newer
        refine ⟨?_, by omega⟩
        intro member
        have below := tracks.upper seq member
        omega
      · obtain ⟨older, distance⟩ := toNat_sub_of_not_lt newer
        by_cases outside : windowSize ≤ crypter.recvHighest.toNat - seq.toNat
        · simp [stale, newer, distance, outside] at passed
        · have inside : crypter.recvHighest.toNat - seq.toNat < windowSize :=
            Nat.lt_of_not_le outside
          have unset : ByteBitmap.bit crypter.bitmap
              (crypter.recvHighest.toNat - seq.toNat) = false := by
            by_contra isSet
            simp [stale, newer, distance, outside, bitmapGet_eq_bit,
              Bool.eq_true_of_not_eq_false isSet] at passed
          refine ⟨?_, by omega⟩
          intro member
          have isSet := (tracks.window seq older inside).mpr member
          rw [unset] at isSet
          cases isSet

/-- A new number within reach passes, in every build. -/
theorem checkReplay_complete (mode : OverflowMode) {crypter : FrameCrypter}
    {accepted : List UInt64} (tracks : crypter.Tracks accepted) {seq : UInt64}
    (fits : seq.toNat + windowSize < 2 ^ 64) (unseen : seq ∉ accepted)
    (reachable : ∀ earlier ∈ accepted,
      earlier.toNat < seq.toNat + windowSize) :
    crypter.checkReplay mode seq = .returned () := by
  have sizeNat : (UInt64.ofNat windowSize).toNat = windowSize := rfl
  have highest : crypter.recvHighest.toNat < seq.toNat + windowSize := by
    rcases tracks.attained with zero | member
    · rw [zero, windowSize_eq]
      omega
    · exact reachable _ member
  have notStale : ¬ seq + UInt64.ofNat windowSize < crypter.recvHighest := by
    rw [UInt64.lt_iff_toNat_lt, UInt64.toNat_add_of_fits (by rwa [sizeNat]),
      sizeNat]
    omega
  unfold checkReplay
  rw [mode.add_eq_some (by rwa [sizeNat])]
  by_cases newer : crypter.recvHighest < seq
  · simp [notStale, newer]
  · obtain ⟨older, distance⟩ := toNat_sub_of_not_lt newer
    have inside : crypter.recvHighest.toNat - seq.toNat < windowSize := by
      omega
    have unset : ByteBitmap.bit crypter.bitmap
        (crypter.recvHighest.toNat - seq.toNat) = false := by
      rw [Bool.eq_false_iff]
      intro isSet
      exact unseen ((tracks.window seq older inside).mp isSet)
    simp [notStale, newer, distance, Nat.not_le.mpr inside, bitmapGet_eq_bit,
      unset]

end FrameCrypter

end NyxNet.Crypto
