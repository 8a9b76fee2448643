import RecordService.Proofs.Routing
import RecordService.Proofs.Runs
import RecordService.Service

namespace RecordService

namespace Routes

/-- A type that is asked for again is sent where it was sent before, and nothing more is
remembered. -/
theorem resolve_again (r : Routes) (type : Path) :
    (r.resolve type).2.resolve type = r.resolve type := by
  by_cases hconfigured : (r.configured? type).isSome
  · simp only [resolve, if_pos hconfigured]
  · cases hknown : r.known? type with
    | some route => simp only [resolve, if_neg hconfigured, hknown]
    | none =>
      have hsame : (r.remember type (r.longest type)).configured? type = r.configured? type := rfl
      have hfound : (r.remember type (r.longest type)).known? type = some (r.longest type) := by
        simp [known?, remember]
      simp only [resolve, if_neg hconfigured, hknown, hsame, hfound]

theorem handler_resolve (r : Routes) (type : Path) (route : Route) :
    (r.resolve type).2.handler route = r.handler route := by
  unfold resolve
  split
  · rfl
  · split <;> rfl

theorem handlerFor_again (r : Routes) (type : Path) :
    (r.resolve type).2.handlerFor type = r.handlerFor type := by
  rw [handlerFor, resolve_again, handler_resolve, handlerFor]

end Routes

namespace Scope

variable {p : Pool}

theorem open_refused (h : p.refusing = true) (context : Context) :
    Scope.open context p = (.error (.internal "Failed to acquire backend connection"),
      { p with failed := p.failed + 1 }) := by
  simp [Scope.open, Pool.acquire, h, Fault.ofConnectionError]

theorem open_granted (h : p.refusing = false) (context : Context) :
    Scope.open context p =
      (.ok ⟨{ context with lease := some p.acquired }, some p.acquired⟩,
        { p with closed := p.closed ++ [false] }) := by
  simp [Scope.open, Pool.acquire, h]

end Scope

namespace Service

variable {s : Service}

theorem resolve_eq (type : Path) (s : Service) :
    s.resolve type =
      (s.routes.handlerFor type, { s with routes := (s.routes.resolve type).2 }) := by
  rw [Routes.handlerFor, ← Routes.handler_resolve s.routes type]
  rfl

/-- A pool that hands out no connection lets no request through. -/
theorem serve_refused (h : s.pool.refusing = true) (context : Context) (r : Request) :
    (s.serve context r).1 = .error (.internal "Failed to acquire backend connection") := by
  simp only [serve, serveFor, withConnection, Scope.open_refused h]

theorem after_refused (h : s.pool.refusing = true) (context : Context) (r : Request) :
    (s.serve context r).2.routes = s.routes ∧ (s.serve context r).2.store = s.store := by
  simp only [serve, serveFor, withConnection, Scope.open_refused h, and_self]

theorem serve_eq (h : s.pool.refusing = false) (context : Context) (r : Request) :
    ∃ c : Connection, c.closed = false ∧ ∃ pool : Pool, pool.refusing = false ∧
      s.serve context r = ((s.routes.handlerFor r.typePath).answer (some c) r s.store,
        ⟨(s.routes.resolve r.typePath).2, pool,
          (s.routes.handlerFor r.typePath).after (some c) r s.store⟩) := by
  let held : Pool := { s.pool with closed := s.pool.closed ++ [false] }
  have hclosed : held.isClosed s.pool.acquired = false := by
    simp [held, Pool.isClosed, Pool.acquired]
  refine ⟨held.connection s.pool.acquired, hclosed, held.close s.pool.acquired, ?_, ?_⟩
  · rw [Pool.close, if_neg (by rw [hclosed]; exact Bool.false_ne_true)]
    exact h
  · simp only [serve, serveFor, withConnection, Scope.open_granted h, resolve_eq]
    rfl

theorem exists_answer (h : s.pool.refusing = false) (context : Context) (r : Request) :
    ∃ c, Store.checkConnection c = .ok () ∧
      (s.serve context r).1 = (s.routes.handlerFor r.typePath).answer c r s.store := by
  obtain ⟨c, hopen, pool, -, hserve⟩ := serve_eq h context r
  exact ⟨some c, by simp [Store.checkConnection, hopen], by rw [hserve]⟩

end Service

end RecordService
