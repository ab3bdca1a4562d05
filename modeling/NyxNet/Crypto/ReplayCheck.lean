import NyxNet.Crypto.SecureChannel

/-!
# The replay check on every sequence number

`check_replay` of `nyx-crypto/src/aead.rs` looks at a number before anything is
authenticated.  It adds the size of the window to that number, so that a number
close to the end of the range is lost: the sum aborts the call in a build with
overflow checks and wraps around in one without.
-/

namespace NyxNet.Crypto

namespace FrameCrypter

/-- The two calls on a crypter. -/
inductive Call where
  | encrypt (dir : UInt32) (plaintext aad : Bytes)
  | decrypt (attempt : Attempt)
  deriving DecidableEq, Repr

def operate (aead : Aead) (mode : OverflowMode) (crypter : FrameCrypter) :
    Call → Outcome AeadError Bytes × FrameCrypter
  | .encrypt dir plaintext aad => crypter.encrypt aead dir plaintext aad
  | .decrypt attempt => crypter.receive aead mode attempt

/-- The sequence numbers that have been accepted, in order. -/
def accepted (past : List (Call × Outcome AeadError Bytes)) : List UInt64 :=
  past.filterMap fun
    | (.decrypt attempt, .returned _) => some attempt.seq
    | _ => none

/-- What the check is for: a number above the window, or one inside it that has
not been accepted before. -/
def Fresh (crypter : FrameCrypter) (accepted : List UInt64) (seq : UInt64) :
    Prop :=
  crypter.recvHighest.toNat < seq.toNat ∨
    crypter.recvHighest.toNat - seq.toNat < windowSize ∧ seq ∉ accepted

/-- In a build of this kind the check does its arithmetic without an abort and
passes exactly the fresh numbers. -/
structure ExactIn (mode : OverflowMode) (crypter : FrameCrypter)
    (accepted : List UInt64) (seq : UInt64) : Prop where
  completes : crypter.checkReplay mode seq ≠ .panicked
  exact : crypter.checkReplay mode seq = .returned () ↔
    crypter.Fresh accepted seq

/-- The sum of the check stays within 64 bits. -/
def EdgeFits (seq : UInt64) : Prop := seq.toNat + windowSize < 2 ^ 64

theorem Tracks.sent {crypter : FrameCrypter} {accepted : List UInt64}
    (tracks : crypter.Tracks accepted) (sendSeq : UInt64) :
    ({ crypter with sendSeq } : FrameCrypter).Tracks accepted where
  upper := tracks.upper
  attained := tracks.attained
  window := tracks.window

theorem encrypt_state (aead : Aead) (crypter : FrameCrypter) (dir : UInt32)
    (plaintext aad : Bytes) :
    (crypter.encrypt aead dir plaintext aad).2 =
      { crypter with sendSeq := crypter.sendSeq + 1 } := by
  unfold encrypt
  dsimp only
  split
  · rfl
  · rfl

theorem accepted_append (past : List (Call × Outcome AeadError Bytes))
    (entry : Call × Outcome AeadError Bytes) :
    accepted (past ++ [entry]) = accepted past ++ accepted [entry] :=
  List.filterMap_append

theorem tracks_operate (aead : Aead) (mode : OverflowMode)
    {crypter : FrameCrypter} {past : List (Call × Outcome AeadError Bytes)}
    (tracks : crypter.Tracks (accepted past)) (call : Call) :
    (crypter.operate aead mode call).2.Tracks
      (accepted (past ++ [(call, (crypter.operate aead mode call).1)])) := by
  rw [accepted_append]
  cases call with
  | encrypt dir plaintext aad =>
      have nothing : accepted [(Call.encrypt dir plaintext aad,
          (crypter.operate aead mode (.encrypt dir plaintext aad)).1)] = [] :=
        rfl
      rw [nothing, List.append_nil]
      simp only [operate, encrypt_state]
      exact tracks.sent _
  | decrypt attempt =>
      simp only [operate]
      rcases receive_cases aead mode tracks attempt with
        ⟨silent, unchanged⟩ | ⟨plaintext, answer, _, marked, _⟩
      · have nothing : accepted [(Call.decrypt attempt,
            (crypter.receive aead mode attempt).1)] = [] := by
          cases outcome : (crypter.receive aead mode attempt).1 with
          | returned plaintext => exact absurd outcome (silent plaintext)
          | failed error => rfl
          | panicked => rfl
        rw [nothing, List.append_nil, unchanged]
        exact tracks
      · rw [answer]
        exact marked

theorem tracks_run (aead : Aead) (mode : OverflowMode) (key : SessionKey)
    (calls : List Call) :
    (Trace.final (operate aead mode) (new key) calls).Tracks
      (accepted (Trace.history (operate aead mode) (new key) calls)) := by
  refine @Trace.invariant _ _ _ (operate aead mode) (new key)
    (fun past crypter => crypter.Tracks (accepted past)) ?_ ?_ calls
  · exact tracks_new key
  · intro past crypter call tracks
    exact tracks_operate aead mode tracks call

variable {crypter : FrameCrypter} {accepted : List UInt64} {seq : UInt64}

theorem fresh_iff (tracks : crypter.Tracks accepted) :
    crypter.Fresh accepted seq ↔
      seq ∉ accepted ∧ crypter.recvHighest.toNat < seq.toNat + windowSize := by
  constructor
  · intro fresh
    rcases fresh with above | ⟨inside, unseen⟩
    · refine ⟨?_, by omega⟩
      intro member
      have below := tracks.upper seq member
      omega
    · exact ⟨unseen, by omega⟩
  · intro reachable
    obtain ⟨unseen, inside⟩ := reachable
    by_cases above : crypter.recvHighest.toNat < seq.toNat
    · exact Or.inl above
    · exact Or.inr ⟨by omega, unseen⟩

theorem toNat_windowSize : (UInt64.ofNat windowSize).toNat = windowSize := rfl

theorem checkReplay_completes {mode : OverflowMode} {edge : UInt64}
    (summed : mode.add seq (UInt64.ofNat windowSize) = some edge) :
    crypter.checkReplay mode seq ≠ .panicked := by
  unfold checkReplay
  rw [summed]
  simp only
  split
  · simp
  · split
    · simp
    · split
      · simp
      · split
        · simp
        · simp

theorem exactIn_of_edgeFits (tracks : crypter.Tracks accepted)
    (fits : EdgeFits seq) (mode : OverflowMode) :
    ExactIn mode crypter accepted seq where
  completes :=
    checkReplay_completes (mode.add_eq_some (by rwa [toNat_windowSize]))
  exact := by
    rw [fresh_iff tracks]
    constructor
    · exact checkReplay_sound tracks
    · intro reachable
      obtain ⟨unseen, inside⟩ := reachable
      apply checkReplay_complete mode tracks fits unseen
      intro earlier member
      have below := tracks.upper earlier member
      omega

theorem checkReplay_of_no_edge {mode : OverflowMode}
    (noSum : mode.add seq (UInt64.ofNat windowSize) = none) :
    crypter.checkReplay mode seq = .panicked := by
  unfold checkReplay
  rw [noSum]

/-- A build with overflow checks aborts on every other number. -/
theorem checkReplay_of_not_edgeFits (overflows : ¬ EdgeFits seq) :
    crypter.checkReplay .checked seq = .panicked := by
  apply checkReplay_of_no_edge
  rw [OverflowMode.add, toNat_windowSize]
  exact if_neg overflows

/-- A build without overflow checks compares with an edge that has wrapped
around. -/
theorem toNat_edge_of_not_edgeFits (overflows : ¬ EdgeFits seq) :
    (seq + UInt64.ofNat windowSize).toNat =
      seq.toNat + windowSize - 2 ^ 64 := by
  have bound := seq.toNat_lt
  unfold EdgeFits at overflows
  rw [UInt64.toNat_add, toNat_windowSize]
  rw [windowSize_eq] at overflows ⊢
  omega

/-- A wrapped edge lies below the window size, and so does the window when the
edge is not below it: every number that large is newer. -/
theorem checkReplay_below_wrapped_edge (overflows : ¬ EdgeFits seq)
    (passed : crypter.recvHighest.toNat ≤ seq.toNat + windowSize - 2 ^ 64) :
    crypter.recvHighest.toNat < seq.toNat ∧
      crypter.checkReplay .wrapping seq = .returned () := by
  have bound := seq.toNat_lt
  have beyond : 2 ^ 64 ≤ seq.toNat + windowSize := Nat.le_of_not_lt overflows
  have newer : crypter.recvHighest.toNat < seq.toNat := by
    rw [windowSize_eq] at passed beyond
    omega
  have notStale : ¬ seq + UInt64.ofNat windowSize < crypter.recvHighest := by
    rw [UInt64.lt_iff_toNat_lt, toNat_edge_of_not_edgeFits overflows]
    exact Nat.not_lt.mpr passed
  refine ⟨newer, ?_⟩
  unfold checkReplay
  simp only [OverflowMode.add]
  rw [if_neg notStale, if_pos (UInt64.lt_iff_toNat_lt.mpr newer)]

theorem checkReplay_above_wrapped_edge (overflows : ¬ EdgeFits seq)
    (beyond : seq.toNat + windowSize - 2 ^ 64 < crypter.recvHighest.toNat) :
    crypter.checkReplay .wrapping seq = .failed .stale := by
  have stale : seq + UInt64.ofNat windowSize < crypter.recvHighest := by
    rw [UInt64.lt_iff_toNat_lt, toNat_edge_of_not_edgeFits overflows]
    exact beyond
  unfold checkReplay
  simp only [OverflowMode.add]
  rw [if_pos stale]

/-- Without overflow checks a fresh number close to the end of the range is
refused as stale as soon as the window has passed the wrapped edge. -/
theorem exactIn_wrapping_iff (tracks : crypter.Tracks accepted) :
    ExactIn .wrapping crypter accepted seq ↔
      EdgeFits seq ∨
        crypter.recvHighest.toNat ≤ seq.toNat + windowSize - 2 ^ 64 ∨
          seq ∈ accepted := by
  by_cases fits : EdgeFits seq
  · exact iff_of_true (exactIn_of_edgeFits tracks fits .wrapping)
      (Or.inl fits)
  · have completes : crypter.checkReplay .wrapping seq ≠ .panicked :=
      checkReplay_completes rfl
    by_cases passed : crypter.recvHighest.toNat ≤
        seq.toNat + windowSize - 2 ^ 64
    · obtain ⟨newer, returned⟩ := checkReplay_below_wrapped_edge fits passed
      exact iff_of_true ⟨completes, iff_of_true returned (Or.inl newer)⟩
        (Or.inr (Or.inl passed))
    · have refused : crypter.checkReplay .wrapping seq = .failed .stale :=
        checkReplay_above_wrapped_edge fits (Nat.lt_of_not_le passed)
      have inside : crypter.recvHighest.toNat < seq.toNat + windowSize :=
        Nat.lt_of_lt_of_le crypter.recvHighest.toNat_lt
          (Nat.le_of_not_lt fits)
      simp only [fits, passed, false_or]
      constructor
      · intro exact
        by_contra unseen
        have returned := exact.exact.mpr
          ((fresh_iff tracks).mpr ⟨unseen, inside⟩)
        rw [refused] at returned
        cases returned
      · intro seen
        refine ⟨completes, ?_⟩
        rw [refused, fresh_iff tracks]
        apply iff_of_false
        · intro impossible
          cases impossible
        · intro fresh
          exact fresh.1 seen

/-- For every state that calls lead to and every number, the check is exact in
both kinds of builds exactly when its sum does not overflow. -/
theorem replay_check_exact_iff (aead : Aead) (mode : OverflowMode)
    (key : SessionKey) (calls : List Call) (seq : UInt64) :
    (∀ build, ExactIn build
        (Trace.final (operate aead mode) (new key) calls)
        (FrameCrypter.accepted
          (Trace.history (operate aead mode) (new key) calls)) seq) ↔
      EdgeFits seq := by
  constructor
  · intro exactInBoth
    have completes := (exactInBoth .checked).completes
    by_cases fits : EdgeFits seq
    · exact fits
    · exact absurd (checkReplay_of_not_edgeFits fits) completes
  · intro fits build
    exact exactIn_of_edgeFits (tracks_run aead mode key calls) fits build

/-- The largest number aborts the check of a new crypter. -/
theorem last_number_aborts :
    ¬ ∀ build, ExactIn build
      (Trace.final (operate (tableAead sampleLog) .checked)
        (new ⟨Vector.replicate 32 7⟩) [])
      (FrameCrypter.accepted (Trace.history
        (operate (tableAead sampleLog) .checked)
        (new ⟨Vector.replicate 32 7⟩) [])) 18446744073709551615 := by
  intro exactInBoth
  have overflows : ¬ EdgeFits 18446744073709551615 := by
    rw [EdgeFits, windowSize_eq]
    decide
  exact (exactInBoth .checked).completes
    (checkReplay_of_not_edgeFits overflows)

end FrameCrypter

end NyxNet.Crypto
