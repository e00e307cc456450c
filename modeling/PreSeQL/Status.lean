/-
  PreSeQL.Status — the status codes (`status/db.h`, `status/step.h`).
-/
import Mathlib.Init

namespace PreSeQL

inductive PSqlStatus where
  | PSQL_OK | PSQL_ERROR | PSQL_BUSY | PSQL_NOMEM | PSQL_READONLY | PSQL_IOERR
  | PSQL_CORRUPT | PSQL_NOTFOUND | PSQL_FULL | PSQL_MISUSE | PSQL_INTERNAL
  deriving DecidableEq, Repr

inductive PSqlStepStatus where
  | PSQL_STEP_BUSY | PSQL_STEP_DONE | PSQL_STEP_ROW | PSQL_STEP_ERROR | PSQL_STEP_MISUSE
  deriving DecidableEq, Repr

end PreSeQL
