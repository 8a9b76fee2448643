import RecordService.Routes

namespace RecordService

structure Service where
  routes : Routes
  pool : Pool := {}
  store : Store

namespace Service

variable {α : Type}

def withConnection (context : Context) (operation : Context → Service → Except Fault α × Service)
    (s : Service) : Except Fault α × Service :=
  match Scope.open context s.pool with
  | (.error fault, pool) => (.error fault, { s with pool })
  | (.ok scope, pool) =>
    let (result, s) := operation scope.context { s with pool }
    (result, { s with pool := (scope.finish s.pool).2 })

def connection? (s : Service) (context : Context) : Option Connection :=
  context.lease.map s.pool.connection

def resolve (type : Path) (s : Service) : Handler × Service :=
  let (route, routes) := s.routes.resolve type
  (routes.handler route, { s with routes })

/-- All the calls of a plan in a row. -/
def carryOut (plan : Plan α) (context : Context) (s : Service) : Except Fault α × Service :=
  let (result, store) := plan.run (s.connection? context) s.store
  (result, { s with store })

def serveFor (accepts : Consumer) (context : Context) (r : Request) (s : Service) :
    Except Fault r.Reply × Service :=
  s.withConnection context fun context s ↦
    let (handler, s) := s.resolve r.typePath
    s.carryOut (handler.planFor accepts r) context

def serve (context : Context) (r : Request) (s : Service) : Except Fault r.Reply × Service :=
  s.serveFor .all context r

end Service

inductive Runtime where
  | absent
  /-- Waiting would hold up the only thread there is. -/
  | singleThread
  | threads
deriving DecidableEq, Repr

namespace Request

def name : Request → String
  | .create .. => "create"
  | .read .. => "read"
  | .update .. => "update"
  | .patch .. => "patch"
  | .delete .. => "delete"
  | .action .. => "action"
  | .query _ => "query"

end Request

def Service.serveBlocking (runtime : Runtime) (context : Context) (r : Request) (s : Service) :
    Except Fault r.Reply × Service :=
  match runtime with
  | .absent => (.error (.internal ("No async runtime available for " ++ r.name)), s)
  | .singleThread => (.error (.internal (r.name ++ " cannot block on a current-thread runtime")), s)
  | .threads => s.serve context r

end RecordService
