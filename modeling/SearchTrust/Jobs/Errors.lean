/-
The exceptions of the job runtime and their classification for retries.
-/
import Mathlib.Init

namespace SearchTrust.Jobs

/-- `JobStatus`. -/
inductive JobStatus where
  | queued
  | running
  | succeeded
  | failed
deriving DecidableEq, Repr

def JobStatus.text : JobStatus → String
  | queued => "queued"
  | running => "running"
  | succeeded => "succeeded"
  | failed => "failed"

/-- What a call can raise.  `deterministic` and `transient` stand for the
durable errors that no branch of the runtime singles out. -/
inductive JobException where
  | idempotencyConflict
  | jobIdentityConflict
  | jobNotFound
  | jobNotRetryable
  | invalidJobTransition (source target : JobStatus)
  | jobLeaseLost
  | jobDeadlineExceeded
  | deterministic (errorCode userMessage : String)
  | transient (errorCode userMessage : String)
  /-- `httpx.TimeoutException` and `httpx.NetworkError`. -/
  | httpTransport
  /-- `httpx.HTTPStatusError`. -/
  | httpStatus (statusCode : Int)
  /-- `ValidationError`, `ValueError` and `TypeError`. -/
  | invalidValue
  /-- `TimeoutError` of `asyncio.wait_for`. -/
  | timeout
  /-- `asyncio.CancelledError`. -/
  | cancelled
  /-- `arq.Retry`. -/
  | retry (deferSeconds : Int)
  | unexpected
deriving DecidableEq

namespace JobException

/-- `except Exception` does not catch a cancellation. -/
def isException : JobException → Bool
  | cancelled => false
  | _ => true

end JobException

/-- `ClassifiedJobError`. -/
structure ClassifiedJobError where
  errorCode : String
  userMessage : String
  retryable : Bool
deriving DecidableEq

def providerTemporarilyUnavailable : ClassifiedJobError :=
  ⟨"PROVIDER_TEMPORARILY_UNAVAILABLE",
    "A data provider is temporarily unavailable. The task will be retried.", true⟩

/-- `classify_job_exception`. -/
def classifyJobException : JobException → ClassifiedJobError
  | .idempotencyConflict =>
      ⟨"IDEMPOTENCY_CONFLICT",
        "The idempotency key is already associated with a different request.", false⟩
  | .jobIdentityConflict =>
      ⟨"JOB_IDENTITY_CONFLICT",
        "The job identifier is already associated with a different task.", false⟩
  | .jobNotFound => ⟨"JOB_NOT_FOUND", "The requested task was not found.", false⟩
  | .jobNotRetryable =>
      ⟨"JOB_NOT_RETRYABLE", "The task is not eligible for a manual retry.", false⟩
  | .invalidJobTransition source target =>
      ⟨"INVALID_JOB_TRANSITION",
        "Transition from " ++ source.text ++ " to " ++ target.text ++
          " is not allowed.", false⟩
  | .jobLeaseLost =>
      ⟨"JOB_LEASE_LOST", "This task run was superseded by recovery.", false⟩
  | .jobDeadlineExceeded =>
      ⟨"JOB_DEADLINE_EXCEEDED", "The analysis exceeded its processing deadline.",
        false⟩
  | .deterministic errorCode userMessage => ⟨errorCode, userMessage, false⟩
  | .transient errorCode userMessage => ⟨errorCode, userMessage, true⟩
  | .httpTransport => providerTemporarilyUnavailable
  | .httpStatus statusCode =>
      if statusCode = 429 ∨ 500 ≤ statusCode then providerTemporarilyUnavailable
      else ⟨"PROVIDER_REQUEST_REJECTED", "A data provider rejected the request.",
        false⟩
  | .invalidValue =>
      ⟨"V22_INPUT_INVALID", "The analysis request is invalid.", false⟩
  | .timeout | .cancelled | .retry _ | .unexpected =>
      ⟨"V22_INTERNAL_ERROR",
        "The analysis could not be completed because of a temporary internal error.",
        true⟩

end SearchTrust.Jobs
