import RecordService.Json
import RecordService.QueryError

namespace RecordService

inductive Fault where
  | badRequest (message : String)
  | notFound (message : String)
  | internal (message : String)
  /-- A refusal of the store, with the status the store gave it. -/
  | backend (status : Nat) (message : String)
deriving DecidableEq, Repr

namespace Fault

def status : Fault → Nat
  | .badRequest _ => 400
  | .notFound _ => 404
  | .internal _ => 500
  | .backend status _ => status

def message : Fault → String
  | .badRequest m | .notFound m | .internal m | .backend _ m => m

def reason : Fault → String
  | .badRequest _ => "BAD_REQUEST"
  | .notFound _ => "NOT_FOUND"
  | .internal _ => "INTERNAL_SERVER_ERROR"
  | .backend status _ =>
    if status = 400 then "BAD_REQUEST"
    else if status = 404 then "NOT_FOUND"
    else if status = 409 then "CONFLICT"
    else if status = 412 then "PRECONDITION_FAILED"
    else "BACKEND_ERROR"

def conflict (message : String) : Fault := .backend 409 message

def preconditionFailed (message : String) : Fault := .backend 412 message

def isNotFound (f : Fault) : Bool := f.status = 404

def ofQueryError (e : QueryError) : Fault := .badRequest e.message

def json (f : Fault) : Json :=
  .record [("code", .int f.status), ("reason", .str f.reason), ("message", .str f.message)]

def httpStatus (f : Fault) : Nat := if 100 ≤ f.status ∧ f.status ≤ 999 then f.status else 500

end Fault

def orBadRequest {α : Type} (r : Except QueryError α) : Except Fault α :=
  r.mapError Fault.ofQueryError

end RecordService
