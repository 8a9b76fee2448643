import RecordService.Store

namespace RecordService

inductive Plan (α : Type) where
  | finish (result : Except Fault α)
  /-- The consumer receives what a query finds. -/
  | call (request : Request) (accepts : Consumer) (next : Except Fault request.Reply → Plan α)

namespace Plan

variable {α β : Type}

def bind (f : α → Plan β) : Plan α → Plan β
  | finish (.ok a) => f a
  | finish (.error e) => finish (.error e)
  | call request accepts next => call request accepts fun reply ↦ bind f (next reply)

instance : Monad Plan where
  pure a := finish (.ok a)
  bind plan f := bind f plan

def fail (fault : Fault) : Plan α := finish (.error fault)

def lift (result : Except Fault α) : Plan α := finish result

def askFor (accepts : Consumer) (request : Request) : Plan request.Reply :=
  call request accepts finish

def ask (request : Request) : Plan request.Reply := askFor .all request

/-- One call whose refusal is left to the plan. -/
def attempt (request : Request) : Plan (Except Fault request.Reply) :=
  call request .all fun reply ↦ finish (.ok reply)

def run (connection : Option Connection) : Plan α → Store → Except Fault α × Store
  | finish result, s => (result, s)
  | call request accepts next, s =>
    let (reply, s) := s.performFor accepts connection request
    (next reply).run connection s

theorem run_bind (connection : Option Connection) (f : α → Plan β) (p : Plan α) (s : Store) :
    (bind f p).run connection s =
      match p.run connection s with
      | (.ok a, t) => (f a).run connection t
      | (.error e, t) => (.error e, t) := by
  induction p generalizing s with
  | finish result => cases result <;> rfl
  | call request accepts next ih => simp only [bind, run, ih]

end Plan

end RecordService
