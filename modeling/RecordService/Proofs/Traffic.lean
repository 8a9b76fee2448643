import RecordService.Proofs.Serving

namespace RecordService

/-- How far a request has come: not at a handler yet, between two calls, or in a call that the store
has let in. -/
inductive Phase (α : Type) where
  | fresh (accepts : Consumer)
  | between (plan : Plan α)
  | within (call : Request) (accepts : Consumer) (next : Except Fault call.Reply → Plan α)

structure Task where
  number : Nat
  request : Request
  scope : Scope
  phase : Phase request.Reply

/-- What is seen of a request at one of its turns: the connection that it is given, that a call is
made over, or that it closes. -/
inductive Act where
  | denied
  | opened (lease : Option Lease)
  | routed
  | began (connection : Option Connection)
  | answered
  | released (closing : Option Lease)
  | dropped (closing : Option Lease)

namespace Task

def holds (task : Task) : Bool := task.scope.held.isSome

def advance (s : Service) (task : Task) : Act × Task × Service :=
  match task.phase with
  | .fresh accepts =>
    let (handler, s) := s.resolve task.request.typePath
    (.routed, { task with phase := .between (handler.planFor accepts task.request) }, s)
  | .between (.call call accepts next) =>
    let connection := s.connection? task.scope.context
    let phase := match Store.checkConnection connection with
      | .ok _ => .within call accepts next
      | .error fault => .between (next (.error fault))
    (.began connection, { task with phase }, { s with store := s.store.counted })
  | .within call accepts next =>
    let (reply, store) := s.store.run accepts call
    (.answered, { task with phase := .between (next reply) }, { s with store })
  | .between (.finish _) =>
    let (scope, pool) := task.scope.finish s.pool
    (.released task.scope.held, { task with scope }, { s with pool })

def drop (s : Service) (task : Task) : Act × Service :=
  (.dropped task.scope.held, { s with pool := (task.scope.finish s.pool).2 })

end Task

def Service.receive (number : Nat) (accepts : Consumer) (context : Context) (request : Request)
    (s : Service) : Act × Option Task × Service :=
  match Scope.open context s.pool with
  | (.ok scope, pool) =>
    (.opened scope.held, some ⟨number, request, scope, .fresh accepts⟩, { s with pool })
  | (.error _, pool) => (.denied, none, { s with pool })

structure Traffic where
  service : Service
  /-- Requests that have come in so far; each is numbered by those before it. -/
  asked : Nat
  /-- Requests that have not been dropped yet. -/
  tasks : List Task

namespace Traffic

inductive Turn where
  | switched (refusing : Bool)
  | acts (number : Nat) (act : Act)

def start (routes : Routes) (store : Store) : Traffic := ⟨{ routes, store }, 0, []⟩

inductive Step : Traffic → Turn → Traffic → Prop
  | switched (s : Service) (asked : Nat) (tasks : List Task) (refusing : Bool) :
      Step ⟨s, asked, tasks⟩ (.switched refusing)
        ⟨{ s with pool := { s.pool with refusing } }, asked, tasks⟩
  | admitted (s : Service) (asked : Nat) (tasks : List Task) (accepts : Consumer)
      (context : Context) (request : Request) :
      Step ⟨s, asked, tasks⟩ (.acts asked (s.receive asked accepts context request).1)
        ⟨(s.receive asked accepts context request).2.2, asked + 1,
          tasks ++ (s.receive asked accepts context request).2.1.toList⟩
  | advanced (s : Service) (asked : Nat) (before after : List Task) (task : Task) : task.holds →
      Step ⟨s, asked, before ++ task :: after⟩ (.acts task.number (task.advance s).1)
        ⟨(task.advance s).2.2, asked, before ++ (task.advance s).2.1 :: after⟩
  | dropped (s : Service) (asked : Nat) (before after : List Task) (task : Task) :
      Step ⟨s, asked, before ++ task :: after⟩ (.acts task.number (task.drop s).1)
        ⟨(task.drop s).2, asked, before ++ after⟩

inductive Run : Traffic → List Turn → Traffic → Prop
  | nil (t : Traffic) : Run t [] t
  | snoc {t u v : Traffic} {turns : List Turn} {turn : Turn} :
      Run t turns u → Step u turn v → Run t (turns ++ [turn]) v

variable {t u v : Traffic} {turns more : List Turn} {turn : Turn}

theorem Run.one (h : Step t turn u) : Run t [turn] u := .snoc (.nil t) h

theorem Run.trans (h : Run t turns u) (h' : Run u more v) : Run t (turns ++ more) v := by
  induction h' with
  | nil => rwa [List.append_nil]
  | snoc _ hstep ih =>
    rw [← List.append_assoc]
    exact ih.snoc hstep

section Undisturbed

variable {s : Service} {request : Request}

/-- While no other request has a turn, the calls of a plan are made in a row. -/
theorem exists_run_plan (s : Service) (asked number : Nat) (tasks : List Task)
    (scope : Scope) (plan : Plan request.Reply)
    (hheld : scope.held.isSome) :
    ∃ turns, Run ⟨s, asked, tasks ++ [⟨number, request, scope, .between plan⟩]⟩ turns
      ⟨(s.carryOut plan scope.context).2, asked,
        tasks ++ [⟨number, request, scope,
          .between (.finish (s.carryOut plan scope.context).1)⟩]⟩ := by
  induction plan generalizing s with
  | finish result => exact ⟨[], .nil _⟩
  | call call accepts next ih =>
    have hbegan := Step.advanced s asked tasks []
      ⟨number, request, scope, .between (.call call accepts next)⟩ hheld
    simp only [Task.advance] at hbegan
    -- A call that is let in takes two turns, one that is refused is over in the first.
    cases hcheck : Store.checkConnection (s.connection? scope.context) with
    | error fault =>
      rw [hcheck] at hbegan
      obtain ⟨turns, hrun⟩ := ih (.error fault) { s with store := s.store.counted }
      refine ⟨[_] ++ turns, (Run.one hbegan).trans ?_⟩
      simp only [Service.carryOut, Plan.run, Store.performFor, hcheck]
      exact hrun
    | ok =>
      rw [hcheck] at hbegan
      have hanswered := Step.advanced { s with store := s.store.counted } asked tasks []
        ⟨number, request, scope, .within call accepts next⟩ hheld
      simp only [Task.advance] at hanswered
      obtain ⟨turns, hrun⟩ := ih (s.store.counted.run accepts call).1
        { s with store := (s.store.counted.run accepts call).2 }
      refine ⟨([_] ++ [_]) ++ turns, ((Run.one hbegan).snoc hanswered).trans ?_⟩
      simp only [Service.carryOut, Plan.run, Store.performFor, hcheck]
      exact hrun

/-- A request that nothing comes in between is answered as the service answers it, and leaves the
service the same. -/
theorem exists_run_serve (h : s.pool.refusing = false) (accepts : Consumer) (context : Context)
    (request : Request) (asked : Nat) (tasks : List Task) :
    ∃ scope turns, scope.held = none ∧
      Run ⟨s, asked, tasks⟩ turns ⟨(s.serveFor accepts context request).2, asked + 1,
        tasks ++ [⟨asked, request, scope,
          .between (.finish (s.serveFor accepts context request).1)⟩]⟩ := by
  let lease := s.pool.acquired
  let scope : Scope := ⟨{ context with lease := some lease }, some lease⟩
  let pool : Pool := { s.pool with closed := s.pool.closed ++ [false] }
  have hopen : Scope.open context s.pool = (.ok scope, pool) := Scope.open_granted h context
  let given : Service := { s with pool }
  let sent := (given.resolve request.typePath).2
  let plan := (given.resolve request.typePath).1.planFor accepts request
  let served := sent.carryOut plan scope.context
  have hadmitted := Step.admitted s asked tasks accepts context request
  simp only [Service.receive, hopen, Option.toList_some] at hadmitted
  have hrouted := Step.advanced given (asked + 1) tasks []
    ⟨asked, request, scope, .fresh accepts⟩ rfl
  obtain ⟨turns, hplan⟩ := exists_run_plan sent (asked + 1) asked tasks scope plan rfl
  have hreleased := Step.advanced served.2 (asked + 1) tasks []
    ⟨asked, request, scope, .between (.finish served.1)⟩ rfl
  have hserve : s.serveFor accepts context request =
      (served.1, { served.2 with pool := (scope.finish served.2.pool).2 }) := by
    simp only [Service.serveFor, Service.withConnection, hopen]
    rfl
  rw [hserve]
  exact ⟨(scope.finish served.2.pool).1, _, rfl,
    (((Run.one hadmitted).snoc hrouted).trans hplan).snoc hreleased⟩

end Undisturbed

end Traffic

end RecordService
