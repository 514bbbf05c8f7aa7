import PriceScout.Library.JsonDocuments

/-!
The resources of the control plane and the messages it exchanges with its
workers.
-/

namespace PriceScout.Domain

open PriceScout.Library.GoStrings
open PriceScout.Library.JsonDocuments

/-- A UUID, by its value as a number. -/
structure UUID where
  value : Nat
deriving DecidableEq, Repr

/-- Seconds since the epoch. -/
abbrev Timestamp := Int

def schemaVersion : Nat := 1

inductive MonitorStatus where
  | compiling
  | awaitingConfirmation
  | active
  | needsReview
  | paused
  | blocked
deriving DecidableEq, Repr

inductive ExecutionKind where
  | compile
  | check
  | repair
deriving DecidableEq, Repr

def ExecutionKind.string : ExecutionKind → String
  | .compile => "compile"
  | .check => "check"
  | .repair => "repair"

inductive ExecutionState where
  | queued
  | running
  | succeeded
  | failed
  | blocked
  | needsReview
deriving DecidableEq, Repr

inductive ValidationState where
  | candidate
  | awaitingConfirmation
  | active
  | rejected
deriving DecidableEq, Repr

inductive RepairState where
  | queued
  | running
  | candidate
  | activated
  | rejected
  | failed
deriving DecidableEq, Repr

inductive RevisionSource where
  | compile
  | repair
  | manual
deriving DecidableEq, Repr

inductive VerificationState where
  | verified
  | reviewRequired
  | failed
  | blocked
deriving DecidableEq, Repr

structure Monitor where
  id : UUID
  url : String
  intent : String
  intervalMinutes : Int
  condition : Json
  status : MonitorStatus
  currentRevisionId : Option UUID
  conditionMatched : Bool
  nextRunAt : Option Timestamp
  createdAt : Timestamp
  updatedAt : Timestamp

structure Revision where
  id : UUID
  monitorId : UUID
  generation : Nat
  plan : Json
  source : RevisionSource
  validationState : ValidationState
  activatedAt : Option Timestamp
  createdAt : Timestamp

/-- The price evidence a worker reports. `verificationState` is empty and
`conditionMatched` absent when the body leaves them out. -/
structure ResultObservation where
  priceMinor : Int
  currency : String
  inStock : Bool
  title : String
  rawText : String
  identity : Option Json
  verificationState : String
  conditionMatched : Option Bool

structure ResultArtifact where
  kind : String
  storageKey : String
  contentType : String
  sha256 : String
  sizeBytes : Int
deriving DecidableEq

/-- A worker's result body. Optional texts are empty when the body leaves them
out; a plan that is present is valid JSON. -/
structure ExecutionResult where
  status : String
  failureClassification : String
  error : String
  provider : String
  traceId : String
  browserSessionUrl : String
  plan : Option Json
  observation : Option ResultObservation
  artifacts : List ResultArtifact
  autoPromote : Bool
  diagnostics : Option Json

/-- The body that gives nothing but a status and a classification. -/
def ExecutionResult.bare (status failureClassification : String) : ExecutionResult where
  status := status
  failureClassification := failureClassification
  error := ""
  provider := ""
  traceId := ""
  browserSessionUrl := ""
  plan := none
  observation := none
  artifacts := []
  autoPromote := false
  diagnostics := none

structure Execution where
  id : UUID
  monitorId : UUID
  revisionId : Option UUID
  kind : ExecutionKind
  requestedGeneration : Option Nat
  attempt : Nat
  recoveryOf : Option UUID
  state : ExecutionState
  failureClassification : Option String
  provider : Option String
  traceId : Option String
  browserSessionUrl : Option String
  input : Json
  result : Option ExecutionResult
  error : Option String
  idempotencyKey : Option String
  createdAt : Timestamp
  startedAt : Option Timestamp
  completedAt : Option Timestamp

structure Observation where
  id : UUID
  monitorId : UUID
  executionId : UUID
  priceMinor : Int
  currency : String
  inStock : Bool
  title : String
  rawText : Option String
  identity : Json
  verificationState : VerificationState
  conditionMatched : Bool
  observedAt : Timestamp

structure Artifact where
  id : UUID
  executionId : UUID
  kind : String
  storageKey : String
  contentType : String
  sha256 : Option String
  sizeBytes : Option Int
  createdAt : Timestamp

/-- The payload of an outbox row; the trace context is left out when empty. -/
structure WorkMessage where
  schemaVersion : Nat
  executionId : UUID
  monitorId : UUID
  revisionId : Option UUID
  traceparent : String
deriving DecidableEq

/-- What a worker is given to execute. -/
structure ExecutionInput where
  schemaVersion : Nat
  execution : Execution
  monitor : Monitor
  revision : Option Revision
  plan : Option Json

def ExecutionState.inFlight : ExecutionState → Bool
  | .queued | .running => true
  | _ => false

def Execution.inFlight (execution : Execution) : Bool :=
  execution.state.inFlight

def ValidationState.pending : ValidationState → Bool
  | .candidate | .awaitingConfirmation => true
  | _ => false

def Revision.pending (revision : Revision) : Bool :=
  revision.validationState.pending

def padLeft (width : Nat) (digits : List Char) : List Char :=
  List.replicate (width - digits.length) '0' ++ digits

/-- The canonical text of a UUID: thirty-two hexadecimal digits in groups. -/
def UUID.string (id : UUID) : String :=
  let digits (value width : Nat) := padLeft width (Nat.toDigits 16 value)
  String.ofList <|
    digits (id.value / 16 ^ 24) 8 ++ '-' :: digits (id.value / 16 ^ 20 % 16 ^ 4) 4 ++
      '-' :: digits (id.value / 16 ^ 16 % 16 ^ 4) 4 ++
      '-' :: digits (id.value / 16 ^ 12 % 16 ^ 4) 4 ++
      '-' :: digits (id.value % 16 ^ 12) 12

theorem exists_digit_of_mem_toDigits {n : Nat} {c : Char} (h : c ∈ Nat.toDigits 16 n) :
    ∃ d < 16, c = Nat.digitChar d := by
  induction n using Nat.strong_induction_on with
  | _ n ih =>
      rw [Nat.toDigits_eq_if (by decide)] at h
      split at h
      · rename_i hlt
        exact ⟨n, hlt, List.mem_singleton.mp h⟩
      · rcases List.mem_append.mp h with hmem | hmem
        · exact ih (n / 16) (by omega) hmem
        · exact ⟨n % 16, Nat.mod_lt _ (by decide), List.mem_singleton.mp hmem⟩

/-- A UUID is spelt with dashes and hexadecimal digits. -/
theorem UUID.forall_mem_string {p : Char → Prop} (hdash : p '-')
    (hdigit : ∀ d < 16, p (Nat.digitChar d)) (id : UUID) : ∀ c ∈ id.string.toList, p c := by
  have hpad : ∀ width n, ∀ c ∈ padLeft width (Nat.toDigits 16 n), p c := by
    intro width n c hc
    rcases List.mem_append.mp hc with hmem | hmem
    · rw [List.eq_of_mem_replicate hmem]
      exact hdigit 0 (by decide)
    · obtain ⟨d, hd, rfl⟩ := exists_digit_of_mem_toDigits hmem
      exact hdigit d hd
  intro c hc
  simp only [UUID.string, String.toList_ofList, List.cons_append, List.append_assoc,
    List.mem_append, List.mem_cons] at hc
  rcases hc with hc | rfl | hc | rfl | hc | rfl | hc | rfl | hc
  all_goals first | exact hdash | exact hpad _ _ _ hc

theorem length_padLeft {width n : Nat} (hwidth : 0 < width) (h : n < 16 ^ width) :
    (padLeft width (Nat.toDigits 16 n)).length = width := by
  have hle := (Nat.length_toDigits_le_iff (by decide) hwidth).mpr h
  simp [padLeft]
  omega

theorem UUID.length_string {id : UUID} (h : id.value < 2 ^ 128) : id.string.toList.length = 36 := by
  have hfirst : id.value / 16 ^ 24 < 16 ^ 8 := by
    rw [Nat.div_lt_iff_lt_mul (by decide)]
    exact h
  simp only [UUID.string, String.toList_ofList, List.length_append,
    List.length_cons, length_padLeft (by decide) hfirst,
    length_padLeft (by decide) (Nat.mod_lt _ (by decide : 0 < 16 ^ 4)),
    length_padLeft (by decide) (Nat.mod_lt _ (by decide : 0 < 16 ^ 12))]

example : UUID.string ⟨0x2fb4001c⟩ = "00000000-0000-0000-0000-00002fb4001c" := by decide

end PriceScout.Domain
