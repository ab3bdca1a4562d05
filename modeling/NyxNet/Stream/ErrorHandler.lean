import NyxNet.Lib.FirstMatch
import NyxNet.Lib.OrderedMap
import NyxNet.Lib.Str
import NyxNet.Lib.Time

/-!
# Classification of stream errors

The rules of `StreamErrorHandler` in `error_handler.rs` and `classify_error`,
which takes the first rule whose pattern occurs in the message.  The rules are
in a hash map; the order in which it lists them comes with the call.
-/

namespace NyxNet.Stream

/-- Stream error categories for classification. -/
inductive ErrorCategory where
  | network
  | protocol
  | flowControl
  | resource
  | crypto
  | application
  | internal
  deriving DecidableEq, Repr

inductive ErrorSeverity where
  | info
  | warning
  | error
  | critical
  | fatal
  deriving DecidableEq, Repr

/-- Recovery strategy for different error types. -/
inductive RecoveryStrategy where
  | none
  | retry (maxAttempts : UInt32) (baseDelay : Duration)
  | reset
  | close
  | terminate
  | custom (actions : String)
  deriving DecidableEq, Repr

structure Classification where
  category : ErrorCategory
  severity : ErrorSeverity
  recovery : RecoveryStrategy
  deriving DecidableEq, Repr

/-- Error classification rules under their patterns. -/
abbrev ClassificationRules : Type :=
  Std.ExtTreeMap String Classification compare

def addClassificationRule (rules : ClassificationRules)
    (errorPattern : String) (category : ErrorCategory)
    (severity : ErrorSeverity) (recovery : RecoveryStrategy) :
    ClassificationRules :=
  rules.insert errorPattern { category, severity, recovery }

def setupDefaultRules (rules : ClassificationRules) : ClassificationRules :=
  -- Network errors
  let rules := addClassificationRule rules "connection_timeout" .network
    .error (.retry 3 (.fromMillis 100))
  let rules := addClassificationRule rules "connection_reset" .network
    .critical .reset
  -- Protocol errors
  let rules := addClassificationRule rules "invalid_frame" .protocol
    .error .none
  let rules := addClassificationRule rules "sequence_error" .protocol
    .warning (.retry 1 (.fromMillis 10))
  -- Flow control errors
  let rules := addClassificationRule rules "flow_control_violation"
    .flowControl .warning (.retry 2 (.fromMillis 50))
  -- Resource errors
  let rules := addClassificationRule rules "buffer_overflow" .resource
    .error .reset
  let rules := addClassificationRule rules "memory_exhausted" .resource
    .critical .close
  -- Crypto errors
  addClassificationRule rules "decryption_failed" .crypto .critical .terminate

/-- The loop of `classify_error` over the rules in the order of the map. -/
def classifyError (errorMessage : String) :
    List (String × Classification) → Classification
  | [] => { category := .internal, severity := .error, recovery := .none }
  | (pattern, rule) :: rules =>
      if Str.contains errorMessage.toList pattern.toList then rule
      else classifyError errorMessage rules

/-- An order in which the map may list its rules. -/
def Lists (rules : ClassificationRules)
    (order : List (String × Classification)) : Prop :=
  order.Perm rules.toList

/-- The rule applies to the message. -/
def applies (errorMessage : String) (entry : String × Classification) : Bool :=
  Str.contains errorMessage.toList entry.1.toList

theorem classifyError_eq_find? (errorMessage : String)
    (order : List (String × Classification)) :
    classifyError errorMessage order =
      ((order.find? (applies errorMessage)).map Prod.snd).getD
        { category := .internal, severity := .error, recovery := .none } := by
  induction order with
  | nil => rfl
  | cons entry order ih =>
      obtain ⟨pattern, rule⟩ := entry
      rw [classifyError, List.find?_cons]
      by_cases found : Str.contains errorMessage.toList pattern.toList = true
      · rw [if_pos found]
        simp only [applies, found, Option.map_some, Option.getD_some]
      · rw [if_neg found, ih]
        rw [Bool.not_eq_true] at found
        simp only [applies, found]

/-- A rule that applies decides in some order. -/
theorem exists_order_of_applies {rules : ClassificationRules}
    {errorMessage pattern : String} {rule : Classification}
    (present : rules[pattern]? = some rule)
    (occurs : Str.contains errorMessage.toList pattern.toList = true) :
    ∃ order, Lists rules order ∧ classifyError errorMessage order = rule := by
  have member := Std.ExtTreeMap.mem_toList_iff_getElem?_eq_some.mpr present
  have liked : applies errorMessage (pattern, rule) = true := occurs
  obtain ⟨order, permutation, found⟩ :=
    FirstMatch.exists_perm_find? member liked
  refine ⟨order, permutation, ?_⟩
  rw [classifyError_eq_find?, found]
  rfl

/-- The two parts of a classification that recovery goes by. -/
def Classification.outcome (rule : Classification) :
    ErrorCategory × RecoveryStrategy :=
  (rule.category, rule.recovery)

/-- The rules that apply to the message agree on category and recovery. -/
def Unanimous (rules : ClassificationRules) (errorMessage : String) : Prop :=
  ∀ (pattern other : String) (rule otherRule : Classification),
    rules[pattern]? = some rule → rules[other]? = some otherRule →
      Str.contains errorMessage.toList pattern.toList = true →
        Str.contains errorMessage.toList other.toList = true →
          rule.category = otherRule.category ∧
            rule.recovery = otherRule.recovery

theorem outcome_of_unanimous {rules : ClassificationRules}
    {errorMessage : String} (unanimous : Unanimous rules errorMessage)
    {first second : List (String × Classification)}
    (listsFirst : Lists rules first) (listsSecond : Lists rules second) :
    (classifyError errorMessage first).outcome =
      (classifyError errorMessage second).outcome := by
  have alike : ∀ entry ∈ rules.toList, ∀ other ∈ rules.toList,
      applies errorMessage entry = true → applies errorMessage other = true →
        entry.2.outcome = other.2.outcome := by
    intro entry member other otherMember liked otherLiked
    have agree := unanimous entry.1 other.1 entry.2 other.2
      (Std.ExtTreeMap.mem_toList_iff_getElem?_eq_some.mp member)
      (Std.ExtTreeMap.mem_toList_iff_getElem?_eq_some.mp otherMember)
      liked otherLiked
    exact Prod.ext agree.1 agree.2
  have same := FirstMatch.find?_map_of_alike alike listsFirst listsSecond
  rw [classifyError_eq_find?, classifyError_eq_find?]
  cases firstFound : first.find? (applies errorMessage) with
  | none =>
      rw [firstFound] at same
      rw [Option.map_eq_none_iff.mp same.symm]
  | some entry =>
      rw [firstFound] at same
      obtain ⟨other, secondFound, outcome⟩ :=
        Option.map_eq_some_iff.mp same.symm
      rw [secondFound]
      exact outcome.symm

/-- The order of the map never shows in category and recovery exactly when the
rules that apply to the message agree on them. -/
theorem classification_deterministic_iff (rules : ClassificationRules)
    (errorMessage : String) :
    (∀ first second, Lists rules first → Lists rules second →
        (classifyError errorMessage first).category =
            (classifyError errorMessage second).category ∧
          (classifyError errorMessage first).recovery =
            (classifyError errorMessage second).recovery) ↔
      Unanimous rules errorMessage := by
  constructor
  · intro deterministic pattern other rule otherRule present otherPresent
      occurs otherOccurs
    obtain ⟨first, listsFirst, decidesFirst⟩ :=
      exists_order_of_applies present occurs
    obtain ⟨second, listsSecond, decidesSecond⟩ :=
      exists_order_of_applies otherPresent otherOccurs
    have same := deterministic first second listsFirst listsSecond
    rw [decidesFirst, decidesSecond] at same
    exact same
  · intro unanimous first second listsFirst listsSecond
    have same := outcome_of_unanimous unanimous listsFirst listsSecond
    exact ⟨congrArg Prod.fst same, congrArg Prod.snd same⟩

theorem default_connection_reset :
    (setupDefaultRules ∅)["connection_reset"]? = some
      { category := .network, severity := .critical, recovery := .reset } := by
  simp only [setupDefaultRules, addClassificationRule,
    OrderedMap.lookup_insert]
  rfl

theorem default_decryption_failed :
    (setupDefaultRules ∅)["decryption_failed"]? = some
      { category := .crypto, severity := .critical,
        recovery := .terminate } := by
  simp only [setupDefaultRules, addClassificationRule,
    OrderedMap.lookup_insert]
  rfl

/-- Under the default rules a message that names a reset and a failed
decryption resets the stream in one order and ends the connection in another. -/
theorem reset_or_terminate :
    (∃ order, Lists (setupDefaultRules ∅) order ∧
        classifyError "connection_reset: decryption_failed" order =
          { category := .network, severity := .critical,
            recovery := .reset }) ∧
      (∃ order, Lists (setupDefaultRules ∅) order ∧
        classifyError "connection_reset: decryption_failed" order =
          { category := .crypto, severity := .critical,
            recovery := .terminate }) ∧
      ¬ ∀ (rules : ClassificationRules) (errorMessage : String)
          (first second : List (String × Classification)),
        Lists rules first → Lists rules second →
          (classifyError errorMessage first).category =
              (classifyError errorMessage second).category ∧
            (classifyError errorMessage first).recovery =
              (classifyError errorMessage second).recovery := by
  have resets : ∃ order, Lists (setupDefaultRules ∅) order ∧
      classifyError "connection_reset: decryption_failed" order =
        { category := .network, severity := .critical, recovery := .reset } :=
    exists_order_of_applies default_connection_reset (by decide)
  have terminates : ∃ order, Lists (setupDefaultRules ∅) order ∧
      classifyError "connection_reset: decryption_failed" order =
        { category := .crypto, severity := .critical,
          recovery := .terminate } :=
    exists_order_of_applies default_decryption_failed (by decide)
  refine ⟨resets, terminates, ?_⟩
  intro deterministic
  obtain ⟨first, listsFirst, decidesFirst⟩ := resets
  obtain ⟨second, listsSecond, decidesSecond⟩ := terminates
  have same := (deterministic _ "connection_reset: decryption_failed" first
    second listsFirst listsSecond).1
  rw [decidesFirst, decidesSecond] at same
  exact absurd same (by decide)

end NyxNet.Stream
