import RecordService.Handler
import RecordService.Proofs.Search

namespace RecordService

namespace Plan

variable {α β : Type} {P : Request → Prop} {c : Option Connection} {s : Store}

def Calls (P : Request → Prop) : Plan α → Prop
  | finish _ => True
  | call request _ next => P request ∧ ∀ reply, (next reply).Calls P

theorem calls_true (p : Plan α) : p.Calls fun _ ↦ True := by
  induction p with
  | finish => trivial
  | call request accepts next ih => exact ⟨trivial, ih⟩

theorem calls_lift_bind {x : Except Fault α} {f : α → Plan β}
    (h : ∀ a, x = .ok a → (f a).Calls P) : (lift x >>= f).Calls P := by
  cases x with
  | error fault => trivial
  | ok a => exact h a rfl

theorem calls_bind {p : Plan α} {f : α → Plan β} (hp : p.Calls P) (hf : ∀ a, (f a).Calls P) :
    (p >>= f).Calls P := by
  induction p with
  | finish result =>
    cases result with
    | error fault => trivial
    | ok a => exact hf a
  | call request accepts next ih => exact ⟨hp.1, fun reply ↦ ih reply (hp.2 reply)⟩

theorem calls_askFor {r : Request} (hr : P r) (accepts : Consumer) : (askFor accepts r).Calls P :=
  ⟨hr, fun _ ↦ trivial⟩

theorem calls_ask {r : Request} (hr : P r) : (ask r).Calls P := calls_askFor hr .all

theorem run_keeps {I : Store → Prop} {p : Plan α} (hp : p.Calls P)
    (hstep : ∀ accepts c r s, P r → I s → I (s.performFor accepts c r).2) (c : Option Connection)
    (hs : I s) :
    I (p.run c s).2 := by
  induction p generalizing s with
  | finish => exact hs
  | call request accepts next ih => exact ih _ (hp.2 _) (hstep accepts c request s hp.1 hs)

theorem run_lift_bind (x : Except Fault α) (f : α → Plan β) (c : Option Connection) (s : Store) :
    (lift x >>= f).run c s = match x with
      | .ok a => (f a).run c s
      | .error fault => (.error fault, s) := by
  cases x <;> rfl

theorem run_askFor_bind (accepts : Consumer) (r : Request) (f : r.Reply → Plan β)
    (c : Option Connection) (s : Store) :
    (askFor accepts r >>= f).run c s = match s.performFor accepts c r with
      | (.ok a, t) => (f a).run c t
      | (.error fault, t) => (.error fault, t) := by
  have hask : (askFor accepts r).run c s = s.performFor accepts c r := rfl
  have h := run_bind c f (askFor accepts r) s
  rw [hask] at h
  refine h.trans ?_
  cases s.performFor accepts c r with
  | mk reply t => cases reply <;> rfl

theorem run_ask_bind (r : Request) (f : r.Reply → Plan β) (c : Option Connection) (s : Store) :
    (ask r >>= f).run c s = match s.perform c r with
      | (.ok a, t) => (f a).run c t
      | (.error fault, t) => (.error fault, t) :=
  run_askFor_bind .all r f c s

theorem run_bind_pure (p : Plan α) (f : α → β) (c : Option Connection) (s : Store) :
    (p >>= fun a ↦ pure (f a)).run c s = ((p.run c s).1.map f, (p.run c s).2) := by
  refine (run_bind c (fun a ↦ pure (f a)) p s).trans ?_
  cases p.run c s with
  | mk result t => cases result <;> rfl

theorem run_attempt_bind (r : Request) (f : Except Fault r.Reply → Plan β) (c : Option Connection)
    (s : Store) :
    (attempt r >>= f).run c s = (f (s.perform c r).1).run c (s.perform c r).2 := rfl

def throughFor (accepts : Consumer) (call : Request) (f : call.Reply → Except Fault α) : Plan α :=
  askFor accepts call >>= fun reply ↦ lift (f reply)

def through (call : Request) (f : call.Reply → Except Fault α) : Plan α := throughFor .all call f

/-- A call whose reply is handed on. -/
theorem askFor_eq_throughFor (accepts : Consumer) (r : Request) :
    askFor accepts r = throughFor accepts r .ok := by
  refine congrArg (call r accepts) (funext fun reply ↦ ?_)
  cases reply <;> rfl

theorem run_throughFor {accepts : Consumer} {call : Request} (f : call.Reply → Except Fault α)
    (c : Option Connection) (s : Store) :
    (throughFor accepts call f).run c s =
      ((s.performFor accepts c call).1 >>= f, (s.performFor accepts c call).2) := by
  rw [throughFor, run_askFor_bind]
  cases s.performFor accepts c call with
  | mk reply t => cases reply <;> rfl

end Plan

namespace Handler

variable {h : Handler} {s : Store} {allowed : Request → Prop}

/-- What a request is answered with, for a consumer of what a query finds. -/
def answerFor (h : Handler) (accepts : Consumer) (c : Option Connection) (r : Request) (s : Store) :
    Except Fault r.Reply :=
  ((h.planFor accepts r).run c s).1

def answer (h : Handler) (c : Option Connection) (r : Request) (s : Store) : Except Fault r.Reply :=
  ((h.plan r).run c s).1

def after (h : Handler) (c : Option Connection) (r : Request) (s : Store) : Store :=
  ((h.plan r).run c s).2

section Kinds

theorem planFor_explicit (hkind : h.kind = .explicit) (accepts : Consumer) (r : Request) :
    h.planFor accepts r = h.explicitPlan accepts r := by
  rw [planFor, hkind]

theorem planFor_generic {explicit : List String} (hkind : h.kind = .generic explicit)
    (accepts : Consumer) (r : Request) :
    h.planFor accepts r = h.genericPlan explicit accepts r := by
  rw [planFor, hkind]

theorem plan_explicit (hkind : h.kind = .explicit) (r : Request) :
    h.plan r = h.explicitPlan .all r :=
  planFor_explicit hkind .all r

theorem plan_generic {explicit : List String} (hkind : h.kind = .generic explicit) (r : Request) :
    h.plan r = h.genericPlan explicit .all r :=
  planFor_generic hkind .all r

end Kinds

theorem serve_of_planFor {accepts passed : Consumer} {r call : Request}
    {f : call.Reply → Except Fault r.Reply}
    (hp : h.planFor accepts r = Plan.throughFor passed call f) (c : Option Connection) (s : Store) :
    h.answerFor accepts c r s = ((s.performFor passed c call).1 >>= f) ∧
      ((h.planFor accepts r).run c s).2 = (s.performFor passed c call).2 := by
  simp only [answerFor, hp, Plan.run_throughFor, and_self]

theorem serve_of_plan {r call : Request} {f : call.Reply → Except Fault r.Reply}
    (hp : h.plan r = Plan.through call f) (c : Option Connection) (s : Store) :
    h.answer c r s = ((s.perform c call).1 >>= f) ∧ h.after c r s = (s.perform c call).2 :=
  serve_of_planFor hp c s

/-- The stores that a handler leads to from an empty one, serving only requests it is allowed. -/
inductive Reaches (h : Handler) (allowed : Request → Prop) : Store → Prop
  | empty (mint : Nat → String) : Reaches h allowed (.empty mint)
  | serve {s : Store} (c : Option Connection) (r : Request) :
      Reaches h allowed s → allowed r → Reaches h allowed (h.after c r s)

theorem reached_after (c : Option Connection) (r : Request) (hs : s.Reached) :
    (h.after c r s).Reached :=
  Plan.run_keeps (Plan.calls_true _) (fun accepts c r _ _ hs ↦ .step accepts c r hs) c hs

theorem Reaches.reached (hs : h.Reaches allowed s) : s.Reached := by
  induction hs with
  | empty mint => exact .empty mint
  | serve c r _ _ ih => exact reached_after c r ih

end Handler

end RecordService
