import RecordService.Fault

namespace RecordService

structure Connection where
  id : String
  closed : Bool
deriving DecidableEq, Repr

inductive ConnectionError where
  | unavailable (detail : String)
  | closed (id : String)
deriving DecidableEq, Repr

def ConnectionError.message : ConnectionError → String
  | .unavailable detail => "Connection unavailable: " ++ detail
  | .closed id => "Connection " ++ id ++ " is closed"

def Fault.ofConnectionError (_ : ConnectionError) : Fault :=
  .internal "Failed to acquire backend connection"

/-- All connections handed out so far, in order; the `n`-th is `local-n`, counted from 1. -/
structure Pool where
  /-- Whether each connection is closed. -/
  closed : List Bool := []
  released : Nat := 0
  doubleReleases : Nat := 0
  failed : Nat := 0
  refusing : Bool := false
deriving DecidableEq, Repr

abbrev Lease := Nat

namespace Pool

def acquired (p : Pool) : Nat := p.closed.length

def opened (p : Pool) : Nat := p.acquired - p.released

def connectionId (lease : Lease) : String := "local-" ++ toString (lease + 1)

def isClosed (p : Pool) (lease : Lease) : Bool := p.closed[lease]?.getD true

def connection (p : Pool) (lease : Lease) : Connection := ⟨connectionId lease, p.isClosed lease⟩

def acquire (p : Pool) : Except ConnectionError Lease × Pool :=
  if p.refusing then
    (.error (.unavailable "connection source refused acquisition"),
      { p with failed := p.failed + 1 })
  else (.ok p.acquired, { p with closed := p.closed ++ [false] })

/-- Closing a connection once more is only counted. -/
def close (lease : Lease) (p : Pool) : Pool :=
  if p.isClosed lease then { p with doubleReleases := p.doubleReleases + 1 }
  else { p with closed := p.closed.set lease true, released := p.released + 1 }

end Pool

structure Context where
  caller : Option String := none
  traceId : String := ""
  lease : Option Lease := none
deriving DecidableEq, Repr

structure Scope where
  context : Context
  /-- None once the scope has ended. -/
  held : Option Lease
deriving DecidableEq, Repr

namespace Scope

def «open» (parent : Context) (p : Pool) : Except Fault Scope × Pool :=
  match p.acquire with
  | (.ok lease, p) => (.ok ⟨{ parent with lease := some lease }, some lease⟩, p)
  | (.error e, p) => (.error (.ofConnectionError e), p)

/-- Ends a scope, on release as well as on being dropped. A scope that has ended holds nothing. -/
def finish (scope : Scope) (p : Pool) : Scope × Pool :=
  ({ scope with held := none }, match scope.held with
    | some lease => p.close lease
    | none => p)

end Scope

end RecordService
