import RecordService.Proofs.Digits
import RecordService.Proofs.Traffic

namespace RecordService

namespace Pool

variable {p : Pool} {lease other : Lease}

theorem lt_of_isClosed (h : p.isClosed lease = false) : lease < p.acquired := by
  by_contra hle
  have hnone : p.closed[lease]? = none := List.getElem?_eq_none (Nat.le_of_not_lt hle)
  rw [isClosed, hnone] at h
  cases h

def lent (p : Pool) : Pool := { p with closed := p.closed ++ [false] }

theorem acquired_lent (p : Pool) : p.lent.acquired = p.acquired + 1 := List.length_append

theorem isClosed_lent (p : Pool) (lease : Lease) :
    p.lent.isClosed lease = (p.isClosed lease && decide (lease ≠ p.acquired)) := by
  simp only [isClosed, lent, acquired, List.getElem?_append, List.getElem?_singleton]
  grind

def returned (lease : Lease) (p : Pool) : Pool :=
  { p with closed := p.closed.set lease true, released := p.released + 1 }

theorem close_eq_returned (h : p.isClosed lease = false) : p.close lease = p.returned lease := by
  rw [close, h]
  rfl

theorem acquired_returned (lease : Lease) (p : Pool) : (p.returned lease).acquired = p.acquired :=
  List.length_set

theorem isClosed_returned (h : p.isClosed lease = false) (other : Lease) :
    (p.returned lease).isClosed other = (p.isClosed other || decide (other = lease)) := by
  have hlt := lt_of_isClosed h
  simp only [isClosed, returned, acquired, List.getElem?_set] at hlt ⊢
  grind

end Pool

theorem Pool.connectionId_injective : Function.Injective Pool.connectionId := by
  intro lease other h
  have hlist := congrArg String.toList h
  rw [Pool.connectionId, Pool.connectionId, String.toList_append, String.toList_append] at hlist
  have hnumber := String.toList_inj.mp (List.append_cancel_left hlist)
  exact Nat.succ.inj (toString_injective hnumber)

inductive Act.Works (connection : Option Connection) : Act → Prop
  | routed : Act.Works connection .routed
  | began : Act.Works connection (.began connection)
  | answered : Act.Works connection .answered

namespace Traffic

abbrev Scopes := List (Nat × Scope)

def scopes (t : Traffic) : Scopes := t.tasks.map fun task ↦ (task.number, task.scope)

variable {p p' : Pool} {asked asked' : Nat} {scopes scopes' before after : Scopes} {number : Nat}
  {scope : Scope} {turn : Turn} {t u : Traffic}

inductive Shift (p : Pool) (asked : Nat) : Scopes → Turn → Pool → Nat → Scopes → Prop
  | switched (scopes : Scopes) (refusing : Bool) :
      Shift p asked scopes (.switched refusing) { p with refusing } asked scopes
  | denied (scopes : Scopes) :
      Shift p asked scopes (.acts asked .denied) { p with failed := p.failed + 1 } (asked + 1) scopes
  | opened (scopes : Scopes) (context : Context) :
      Shift p asked scopes (.acts asked (.opened (some p.acquired))) p.lent (asked + 1)
        (scopes ++ [(asked, ⟨{ context with lease := some p.acquired }, some p.acquired⟩)])
  | worked {scopes : Scopes} {number : Nat} {scope : Scope} {act : Act} :
      (number, scope) ∈ scopes → scope.held.isSome →
      act.Works (scope.context.lease.map p.connection) →
      Shift p asked scopes (.acts number act) p asked scopes
  | released (before after : Scopes) (number : Nat) {scope : Scope} : scope.held.isSome →
      Shift p asked (before ++ (number, scope) :: after) (.acts number (.released scope.held))
        (scope.finish p).2 asked (before ++ (number, { scope with held := none }) :: after)
  | dropped (before after : Scopes) (number : Nat) (scope : Scope) :
      Shift p asked (before ++ (number, scope) :: after) (.acts number (.dropped scope.held))
        (scope.finish p).2 asked (before ++ after)

theorem Step.shift (h : Step t turn u) :
    Shift t.service.pool t.asked t.scopes turn u.service.pool u.asked u.scopes := by
  cases h with
  | switched s asked tasks refusing => exact .switched _ refusing
  | admitted s asked tasks accepts context request =>
    cases hp : s.pool.refusing with
    | true =>
      simp only [Service.receive, Scope.open_refused hp, Option.toList_none, List.append_nil]
      exact .denied _
    | false =>
      simp only [Service.receive, Scope.open_granted hp, Option.toList_some, Traffic.scopes,
        List.map_append]
      exact .opened _ context
  | advanced s asked before after task hholds =>
    obtain ⟨number, request, scope, phase⟩ := task
    have hsame : ∀ {phase' : Phase request.Reply} {act : Act} {routes : Routes} {store : Store},
        act.Works (s.connection? scope.context) →
        Shift s.pool asked
          (Traffic.scopes ⟨s, asked, before ++ ⟨number, request, scope, phase⟩ :: after⟩)
          (.acts number act) s.pool asked
          (Traffic.scopes ⟨{ s with routes, store }, asked,
            before ++ ⟨number, request, scope, phase'⟩ :: after⟩) := by
      intro phase' act routes store hworks
      simp only [Traffic.scopes, List.map_append, List.map_cons]
      exact .worked (List.mem_append_right _ List.mem_cons_self) hholds hworks
    cases phase with
    | fresh accepts => exact hsame .routed
    | within call accepts next => exact hsame .answered
    | between plan =>
      cases plan with
      | call call next => exact hsame .began
      | finish result =>
        simp only [Traffic.scopes, List.map_append, List.map_cons]
        exact .released _ _ number hholds
  | dropped s asked before after task =>
    simp only [Traffic.scopes, List.map_append, List.map_cons]
    exact .dropped _ _ task.number task.scope

section Sound

/-- A scope has a connection of its own, which is open until the scope ends. -/
def Bound (p : Pool) (scope : Scope) : Prop :=
  ∃ lease, scope.context.lease = some lease ∧ lease < p.acquired ∧
    (scope.held = some lease ∧ p.isClosed lease = false ∨ scope.held = none)

structure Sound (p : Pool) (asked : Nat) (scopes : Scopes) : Prop where
  bound : ∀ entry ∈ scopes, Bound p entry.2
  apart : (scopes.map fun entry ↦ entry.2.context.lease).Nodup
  numbered : ∀ entry ∈ scopes, entry.1 < asked
  distinct : (scopes.map Prod.fst).Nodup
  balanced : p.acquired = p.released + scopes.countP (·.2.held.isSome)
  once : p.doubleReleases = 0

theorem Bound.finish (h : Bound p scope) :
    scope.held = none ∧ (scope.finish p).2 = p ∨
      ∃ lease, scope.held = some lease ∧ scope.context.lease = some lease ∧
        p.isClosed lease = false ∧ (scope.finish p).2 = p.returned lease := by
  obtain ⟨lease, hlease, -, ⟨hheld, hopen⟩ | hheld⟩ := h
  · right
    refine ⟨lease, hheld, hlease, hopen, ?_⟩
    rw [Scope.finish, hheld]
    exact Pool.close_eq_returned hopen
  · left
    refine ⟨hheld, ?_⟩
    rw [Scope.finish, hheld]

theorem acquired_finish (h : Bound p scope) : (scope.finish p).2.acquired = p.acquired := by
  obtain ⟨-, hsame⟩ | ⟨lease, -, -, -, hsame⟩ := h.finish
  · rw [hsame]
  · rw [hsame, Pool.acquired_returned]

theorem released_finish (h : Bound p scope) :
    (scope.finish p).2.released = p.released + if scope.held.isSome then 1 else 0 := by
  obtain ⟨hheld, hsame⟩ | ⟨lease, hheld, -, -, hsame⟩ := h.finish
  · rw [hsame, hheld]
    rfl
  · rw [hsame, hheld]
    rfl

theorem doubleReleases_finish (h : Bound p scope) :
    (scope.finish p).2.doubleReleases = p.doubleReleases := by
  obtain ⟨-, hsame⟩ | ⟨lease, -, -, -, hsame⟩ := h.finish
  · rw [hsame]
  · rw [hsame]
    rfl

/-- Ending one scope leaves the connections of the others open. -/
theorem Bound.of_finish {other : Scope} (h : Bound p other) (hscope : Bound p scope)
    (hne : other.context.lease ≠ scope.context.lease) : Bound (scope.finish p).2 other := by
  obtain ⟨-, hsame⟩ | ⟨closing, -, hclosing, hopen, hsame⟩ := hscope.finish
  · rwa [hsame]
  · obtain ⟨lease, hlease, hlt, hheld⟩ := h
    rw [hlease, hclosing] at hne
    rw [hsame]
    refine ⟨lease, hlease, by rwa [Pool.acquired_returned], hheld.imp_left fun ⟨hheld, hlive⟩ ↦ ?_⟩
    refine ⟨hheld, ?_⟩
    rw [Pool.isClosed_returned hopen, hlive, Bool.false_or]
    exact decide_eq_false fun heq ↦ hne (congrArg some heq)

theorem ne_of_nodup_map {α β : Type} {f : α → β} {before after : List α} {item : α}
    (h : ((before ++ item :: after).map f).Nodup) :
    ∀ other ∈ before ++ after, f other ≠ f item := by
  rw [List.map_append, List.map_cons, List.nodup_middle, List.nodup_cons, ← List.map_append] at h
  exact fun other hother heq ↦ h.1 (List.mem_map.mpr ⟨other, hother, heq⟩)

theorem mem_middle {α : Type} {before after : List α} {item other : α} :
    other ∈ before ++ item :: after ↔ other = item ∨ other ∈ before ++ after := by
  simp only [List.mem_append, List.mem_cons]
  tauto

theorem Sound.bound_finish (h : Sound p asked (before ++ (number, scope) :: after)) :
    ∀ entry ∈ before ++ after, Bound (scope.finish p).2 entry.2 := by
  have hscope := h.bound (number, scope) (mem_middle.mpr (.inl rfl))
  intro entry hentry
  have hbound := h.bound entry (mem_middle.mpr (.inr hentry))
  exact hbound.of_finish hscope (ne_of_nodup_map h.apart entry hentry)

theorem nodup_map_append_singleton {α β : Type} {f : α → β} {items : List α} {item : α}
    (h : (items.map f).Nodup) (hne : ∀ other ∈ items, f other ≠ f item) :
    ((items ++ [item]).map f).Nodup := by
  rw [List.map_append, List.map_singleton, ← List.concat_eq_append]
  refine h.concat fun hmem ↦ ?_
  obtain ⟨other, hother, heq⟩ := List.mem_map.mp hmem
  exact hne other hother heq

theorem Sound.opened (hs : Sound p asked scopes) (context : Context) :
    Sound p.lent (asked + 1)
      (scopes ++ [(asked, ⟨{ context with lease := some p.acquired }, some p.acquired⟩)]) where
  bound entry hentry := by
    rw [List.mem_append, List.mem_singleton] at hentry
    obtain hentry | rfl := hentry
    · obtain ⟨lease, hlease, hlt, hheld⟩ := hs.bound entry hentry
      refine ⟨lease, hlease, ?_, hheld.imp_left fun ⟨hheld, hopen⟩ ↦ ⟨hheld, ?_⟩⟩
      · rw [Pool.acquired_lent]
        exact Nat.lt_succ_of_lt hlt
      · rw [Pool.isClosed_lent, hopen, Bool.false_and]
    · refine ⟨p.acquired, rfl, ?_, .inl ⟨rfl, ?_⟩⟩
      · rw [Pool.acquired_lent]
        exact Nat.lt_succ_self _
      · simp [Pool.isClosed_lent]
  apart := by
    refine nodup_map_append_singleton hs.apart fun entry hentry heq ↦ ?_
    obtain ⟨lease, hlease, hlt, -⟩ := hs.bound entry hentry
    rw [hlease, Option.some_inj] at heq
    exact Nat.ne_of_lt hlt heq
  numbered entry hentry := by
    rw [List.mem_append, List.mem_singleton] at hentry
    obtain hentry | rfl := hentry
    · exact Nat.lt_succ_of_lt (hs.numbered entry hentry)
    · exact Nat.lt_succ_self asked
  distinct := nodup_map_append_singleton hs.distinct fun entry hentry ↦
    Nat.ne_of_lt (hs.numbered entry hentry)
  balanced := by
    rw [Pool.acquired_lent, List.countP_append, hs.balanced, Nat.add_assoc]
    rfl
  once := hs.once

theorem Sound.dropped (hs : Sound p asked (before ++ (number, scope) :: after)) :
    Sound (scope.finish p).2 asked (before ++ after) := by
  have hscope := hs.bound (number, scope) (mem_middle.mpr (.inl rfl))
  have hsub : (before ++ after).Sublist (before ++ (number, scope) :: after) :=
    (List.sublist_cons_self _ after).append_left before
  refine ⟨hs.bound_finish, hs.apart.sublist (hsub.map _),
    fun entry hentry ↦ hs.numbered entry (hsub.subset hentry), hs.distinct.sublist (hsub.map _),
    ?_, ?_⟩
  · have hbalanced := hs.balanced
    rw [List.countP_append, List.countP_cons] at hbalanced
    rw [acquired_finish hscope, released_finish hscope, List.countP_append]
    omega
  · rw [doubleReleases_finish hscope, hs.once]

theorem Sound.released (hs : Sound p asked (before ++ (number, scope) :: after)) :
    Sound (scope.finish p).2 asked (before ++ (number, { scope with held := none }) :: after) := by
  have hscope := hs.bound (number, scope) (mem_middle.mpr (.inl rfl))
  refine ⟨fun entry hentry ↦ ?_, ?_, fun entry hentry ↦ ?_, ?_, ?_, hs.dropped.once⟩
  · obtain rfl | hentry := mem_middle.mp hentry
    · have hsame := acquired_finish hscope
      obtain ⟨lease, hlease, hlt, -⟩ := hscope
      exact ⟨lease, hlease, hsame.symm ▸ hlt, .inr rfl⟩
    · exact hs.bound_finish entry hentry
  · simpa only [List.map_append, List.map_cons] using hs.apart
  · obtain rfl | hentry := mem_middle.mp hentry
    · exact hs.numbered (number, scope) (mem_middle.mpr (.inl rfl))
    · exact hs.dropped.numbered entry hentry
  · simpa only [List.map_append, List.map_cons] using hs.distinct
  · have hbalanced := hs.dropped.balanced
    rw [List.countP_append] at hbalanced
    rw [List.countP_append, List.countP_cons]
    simpa using hbalanced

/-- Every turn keeps connections and scopes in step. -/
theorem Shift.sound (h : Shift p asked scopes turn p' asked' scopes') (hs : Sound p asked scopes) :
    Sound p' asked' scopes' := by
  cases h with
  | switched => exact ⟨hs.bound, hs.apart, hs.numbered, hs.distinct, hs.balanced, hs.once⟩
  | denied =>
    exact ⟨hs.bound, hs.apart, fun entry hentry ↦ Nat.lt_succ_of_lt (hs.numbered entry hentry),
      hs.distinct, hs.balanced, hs.once⟩
  | opened _ context => exact hs.opened context
  | worked => exact hs
  | released => exact hs.released
  | dropped => exact hs.dropped

end Sound

section Courses

def Turn.actOf? (number : Nat) : Turn → Option Act
  | .switched _ => none
  | .acts other act => if other = number then some act else none

def course (number : Nat) (turns : List Turn) : List Act := turns.filterMap (Turn.actOf? number)

def Turn.handed? : Turn → Option Lease
  | .acts _ (.opened lease) => lease
  | _ => none

def Turn.closed? : Turn → Option Lease
  | .acts _ (.released lease) | .acts _ (.dropped lease) => lease
  | _ => none

def handed (turns : List Turn) : List Lease := turns.filterMap Turn.handed?

def closed (turns : List Turn) : List Lease := turns.filterMap Turn.closed?

inductive Stage where
  | holding (lease : Lease)
  | released
  | over

def stage (scope : Scope) : Stage :=
  match scope.held with
  | some lease => .holding lease
  | none => .released

/-- What one request does from first to last. It is denied and does nothing more, or it is given a
connection, works over it while it is open, and closes it when it is done or dropped. -/
inductive Course : List Act → Stage → Prop
  | denied : Course [.denied] .over
  | opened (lease : Lease) : Course [.opened (some lease)] (.holding lease)
  | worked {acts : List Act} {lease : Lease} {act : Act} : Course acts (.holding lease) →
      act.Works (some ⟨Pool.connectionId lease, false⟩) → Course (acts ++ [act]) (.holding lease)
  | released {acts : List Act} {lease : Lease} : Course acts (.holding lease) →
      Course (acts ++ [.released (some lease)]) .released
  | dropped {acts : List Act} {lease : Lease} : Course acts (.holding lease) →
      Course (acts ++ [.dropped (some lease)]) .over
  | left {acts : List Act} : Course acts .released → Course (acts ++ [.dropped none]) .over

variable {acts : List Act} {final : Stage} {lease : Lease} {turns : List Turn}

theorem Course.opened_mem (h : Course acts (.holding lease)) : .opened (some lease) ∈ acts := by
  generalize hstage : Stage.holding lease = final at h
  induction h with
  | opened => cases hstage; exact List.mem_cons_self
  | worked _ _ ih => exact List.mem_append_left _ (ih hstage)
  | _ => cases hstage

/-- Every call of a request goes over the connection that it was given, and finds it open. -/
theorem Course.began {connection : Option Connection} (h : Course acts final)
    (hcall : .began connection ∈ acts) :
    ∃ lease, .opened (some lease) ∈ acts ∧
      connection = some ⟨Pool.connectionId lease, false⟩ := by
  induction h with
  | denied => simp at hcall
  | opened => simp at hcall
  | @worked acts lease act hbefore hworks ih =>
    rw [List.mem_append, List.mem_singleton] at hcall
    obtain hcall | rfl := hcall
    · obtain ⟨lease, hmem, heq⟩ := ih hcall
      exact ⟨lease, List.mem_append_left _ hmem, heq⟩
    · cases hworks
      exact ⟨lease, List.mem_append_left _ hbefore.opened_mem, rfl⟩
  | released _ ih | dropped _ ih | left _ ih =>
    simp only [List.mem_append, List.mem_singleton, reduceCtorEq, or_false] at hcall
    obtain ⟨lease, hmem, heq⟩ := ih hcall
    exact ⟨lease, List.mem_append_left _ hmem, heq⟩

theorem Course.alone (h : Course acts final) (hdenied : .denied ∈ acts) :
    final = .over ∧ acts = [.denied] := by
  induction h with
  | denied => exact ⟨rfl, rfl⟩
  | opened => simp at hdenied
  | worked _ hworks ih =>
    rw [List.mem_append, List.mem_singleton] at hdenied
    obtain hdenied | rfl := hdenied
    · cases (ih hdenied).1
    · cases hworks
  | released _ ih | dropped _ ih | left _ ih =>
    simp only [List.mem_append, List.mem_singleton, reduceCtorEq, or_false] at hdenied
    cases (ih hdenied).1

theorem filterMap_snoc {α β : Type} (f : α → Option β) (items : List α) (item : α) :
    (items ++ [item]).filterMap f = items.filterMap f ++ (f item).toList := by
  rw [List.filterMap_append, List.filterMap_cons]
  cases f item <;> rfl

theorem course_self (number : Nat) (turns : List Turn) (act : Act) :
    course number (turns ++ [.acts number act]) = course number turns ++ [act] := by
  simp [course, Turn.actOf?]

theorem course_other {other : Nat} (h : other ≠ number) (turns : List Turn) (act : Act) :
    course other (turns ++ [.acts number act]) = course other turns := by
  simp [course, Turn.actOf?, h.symm]

theorem handed_same (h : turn.handed? = none) : handed (turns ++ [turn]) = handed turns := by
  rw [handed, filterMap_snoc, h, Option.toList_none, List.append_nil, handed]

theorem closed_same (h : turn.closed? = none) : closed (turns ++ [turn]) = closed turns := by
  rw [closed, filterMap_snoc, h, Option.toList_none, List.append_nil, closed]

end Courses

section Ledger

variable {turns : List Turn}

structure Ledger (turns : List Turn) (p : Pool) : Prop where
  handed : handed turns = List.range p.acquired
  fresh : (closed turns).Nodup
  closed : ∀ lease, lease ∈ closed turns ↔ lease < p.acquired ∧ p.isClosed lease
  released : (Traffic.closed turns).length = p.released

theorem Ledger.quiet (h : Ledger turns p) (hhanded : turn.handed? = none)
    (hclosed : turn.closed? = none) (hp : p'.closed = p.closed) (hreleased : p'.released = p.released) :
    Ledger (turns ++ [turn]) p' := by
  refine ⟨?_, ?_, fun lease ↦ ?_, ?_⟩
  · rw [handed_same hhanded, h.handed, Pool.acquired, Pool.acquired, hp]
  · rw [closed_same hclosed]
    exact h.fresh
  · rw [closed_same hclosed, h.closed, Pool.acquired, Pool.acquired, Pool.isClosed, Pool.isClosed,
      hp]
  · rw [closed_same hclosed, h.released, hreleased]

theorem Ledger.opened (h : Ledger turns p) (number : Nat) :
    Ledger (turns ++ [.acts number (.opened (some p.acquired))]) p.lent := by
  have hclosed : Traffic.closed (turns ++ [.acts number (.opened (some p.acquired))]) =
      Traffic.closed turns := closed_same rfl
  refine ⟨?_, ?_, fun lease ↦ ?_, ?_⟩
  · rw [Traffic.handed, filterMap_snoc, Pool.acquired_lent, List.range_succ]
    exact congrArg (· ++ [p.acquired]) h.handed
  · rw [hclosed]
    exact h.fresh
  · rw [hclosed, h.closed, Pool.acquired_lent, Pool.isClosed_lent, Bool.and_eq_true,
      decide_eq_true_eq]
    constructor
    · rintro ⟨hlt, hlease⟩
      exact ⟨Nat.lt_succ_of_lt hlt, hlease, Nat.ne_of_lt hlt⟩
    · rintro ⟨hlt, hlease, hne⟩
      exact ⟨Nat.lt_of_le_of_ne (Nat.le_of_lt_succ hlt) hne, hlease⟩
  · rw [hclosed]
    exact h.released

/-- The end of a scope closes a connection that was never closed before. -/
theorem Ledger.ended (h : Ledger turns p) (hscope : Bound p scope) (hhanded : turn.handed? = none)
    (hclosed : turn.closed? = scope.held) : Ledger (turns ++ [turn]) (scope.finish p).2 := by
  obtain ⟨hheld, hsame⟩ | ⟨lease, hheld, -, hopen, hsame⟩ := hscope.finish
  · rw [hsame]
    exact h.quiet hhanded (hclosed.trans hheld) rfl rfl
  · have hlt := Pool.lt_of_isClosed hopen
    have hnew : lease ∉ Traffic.closed turns := by simp [h.closed, hopen]
    have hclosed' : Traffic.closed (turns ++ [turn]) = (Traffic.closed turns).concat lease := by
      rw [Traffic.closed, filterMap_snoc, hclosed, hheld, List.concat_eq_append]
      rfl
    rw [hsame]
    refine ⟨?_, ?_, fun other ↦ ?_, ?_⟩
    · rw [handed_same hhanded, h.handed, Pool.acquired_returned]
    · rw [hclosed']
      exact h.fresh.concat hnew
    · rw [hclosed', List.concat_eq_append, List.mem_append, List.mem_singleton, h.closed,
        Pool.acquired_returned, Pool.isClosed_returned hopen, Bool.or_eq_true, decide_eq_true_eq]
      constructor
      · rintro (⟨hother, hdone⟩ | rfl)
        · exact ⟨hother, .inl hdone⟩
        · exact ⟨hlt, .inr rfl⟩
      · rintro ⟨hother, hdone | rfl⟩
        · exact .inl ⟨hother, hdone⟩
        · exact .inr rfl
    · rw [hclosed', List.length_concat, h.released]
      rfl

theorem Shift.ledger (h : Shift p asked scopes turn p' asked' scopes') (hs : Sound p asked scopes)
    (hl : Ledger turns p) : Ledger (turns ++ [turn]) p' := by
  cases h with
  | switched | denied => exact hl.quiet rfl rfl rfl rfl
  | opened => exact hl.opened asked
  | worked _ _ hworks =>
    have hquiet : ∀ {act : Act} {c : Option Connection} {number : Nat}, act.Works c →
        (Turn.acts number act).handed? = none ∧ (Turn.acts number act).closed? = none := by
      rintro act c number (_ | _ | _) <;> exact ⟨rfl, rfl⟩
    exact hl.quiet (hquiet hworks).1 (hquiet hworks).2 rfl rfl
  | released _ _ number _ | dropped _ _ number _ =>
    exact hl.ended (hs.bound (number, _) (mem_middle.mpr (.inl rfl))) rfl rfl

end Ledger

section Requests

variable {turns : List Turn}

structure Coursing (turns : List Turn) (asked : Nat) (scopes : Scopes) : Prop where
  present : ∀ entry ∈ scopes, Course (course entry.1 turns) (stage entry.2)
  past : ∀ number < asked, (∀ entry ∈ scopes, entry.1 ≠ number) →
    Course (course number turns) .over
  future : ∀ number, asked ≤ number → course number turns = []

theorem Coursing.switched (h : Coursing turns asked scopes) (refusing : Bool) :
    Coursing (turns ++ [.switched refusing]) asked scopes := by
  have hsame : ∀ number, course number (turns ++ [.switched refusing]) = course number turns := by
    intro number
    rw [course, filterMap_snoc]
    exact List.append_nil _
  exact ⟨fun entry hentry ↦ (hsame entry.1).symm ▸ h.present entry hentry,
    fun number hlt hnone ↦ (hsame number).symm ▸ h.past number hlt hnone,
    fun number hle ↦ (hsame number).trans (h.future number hle)⟩

theorem Coursing.denied (h : Coursing turns asked scopes)
    (hnumbered : ∀ entry ∈ scopes, entry.1 < asked) :
    Coursing (turns ++ [.acts asked .denied]) (asked + 1) scopes := by
  refine ⟨fun entry hentry ↦ ?_, fun number hlt hnone ↦ ?_, fun number hle ↦ ?_⟩
  · rw [course_other (Nat.ne_of_lt (hnumbered entry hentry))]
    exact h.present entry hentry
  · obtain hlt | rfl := Nat.lt_or_eq_of_le (Nat.le_of_lt_succ hlt)
    · rw [course_other (Nat.ne_of_lt hlt)]
      exact h.past number hlt hnone
    · rw [course_self, h.future number (Nat.le_refl number)]
      exact .denied
  · rw [course_other (Nat.ne_of_gt hle)]
    exact h.future number (Nat.le_of_succ_le hle)

theorem Coursing.opened (h : Coursing turns asked scopes)
    (hnumbered : ∀ entry ∈ scopes, entry.1 < asked) (context : Context) (lease : Lease) :
    Coursing (turns ++ [.acts asked (.opened (some lease))]) (asked + 1)
      (scopes ++ [(asked, ⟨context, some lease⟩)]) := by
  refine ⟨fun entry hentry ↦ ?_, fun number hlt hnone ↦ ?_, fun number hle ↦ ?_⟩
  · rw [List.mem_append, List.mem_singleton] at hentry
    obtain hentry | rfl := hentry
    · rw [course_other (Nat.ne_of_lt (hnumbered entry hentry))]
      exact h.present entry hentry
    · rw [course_self, h.future asked (Nat.le_refl asked)]
      exact .opened lease
  · have hne := hnone _ (List.mem_append_right _ (List.mem_singleton_self _))
    rw [course_other (Ne.symm hne)]
    have hlt' : number < asked := Nat.lt_of_le_of_ne (Nat.le_of_lt_succ hlt) (Ne.symm hne)
    exact h.past number hlt' fun entry hentry ↦ hnone entry (List.mem_append_left _ hentry)
  · rw [course_other (Nat.ne_of_gt hle)]
    exact h.future number (Nat.le_of_succ_le hle)

/-- A turn of one request leaves the others where they are on their courses. -/
theorem Coursing.acted {act : Act} (h : Coursing turns asked scopes) (hlt : number < asked)
    (hothers : ∀ entry, entry.1 ≠ number → (entry ∈ scopes' ↔ entry ∈ scopes))
    (hown : ∀ entry ∈ scopes', entry.1 = number →
      Course (course number turns ++ [act]) (stage entry.2))
    (hgone : (∀ entry ∈ scopes', entry.1 ≠ number) → Course (course number turns ++ [act]) .over) :
    Coursing (turns ++ [.acts number act]) asked scopes' := by
  refine ⟨fun entry hentry ↦ ?_, fun other hother hnone ↦ ?_, fun other hle ↦ ?_⟩
  · by_cases heq : entry.1 = number
    · rw [heq, course_self]
      exact hown entry hentry heq
    · rw [course_other heq]
      exact h.present entry ((hothers entry heq).mp hentry)
  · by_cases heq : other = number
    · subst heq
      rw [course_self]
      exact hgone hnone
    · rw [course_other heq]
      refine h.past other hother fun entry hentry hsame ↦ ?_
      have hne : entry.1 ≠ number := fun hnumber ↦ heq (hsame.symm.trans hnumber)
      exact hnone entry ((hothers entry hne).mpr hentry) hsame
  · rw [course_other (Nat.ne_of_gt (Nat.lt_of_lt_of_le hlt hle))]
    exact h.future other hle

theorem Coursing.worked {act : Act} (h : Coursing turns asked scopes) (hs : Sound p asked scopes)
    (hmem : (number, scope) ∈ scopes) (hheld : scope.held.isSome)
    (hworks : act.Works (scope.context.lease.map p.connection)) :
    Coursing (turns ++ [.acts number act]) asked scopes := by
  refine h.acted (hs.numbered _ hmem) (fun _ _ ↦ Iff.rfl) (fun entry hentry heq ↦ ?_)
    fun hnone ↦ absurd rfl (hnone _ hmem)
  obtain rfl := List.inj_on_of_nodup_map hs.distinct hentry hmem heq
  have hcourse := h.present _ hmem
  obtain ⟨lease, hlease, -, ⟨hheld', hopen⟩ | hnone⟩ := hs.bound _ hmem
  · rw [hlease, Option.map_some, Pool.connection, hopen] at hworks
    rw [stage, hheld'] at hcourse ⊢
    exact hcourse.worked hworks
  · rw [hnone] at hheld
    cases hheld

theorem Coursing.released (h : Coursing turns asked (before ++ (number, scope) :: after))
    (hs : Sound p asked (before ++ (number, scope) :: after)) (hheld : scope.held.isSome) :
    Coursing (turns ++ [.acts number (.released scope.held)]) asked
      (before ++ (number, { scope with held := none }) :: after) := by
  have hmem : (number, scope) ∈ before ++ (number, scope) :: after := mem_middle.mpr (.inl rfl)
  refine h.acted (hs.numbered _ hmem) (fun entry hne ↦ ?_) (fun entry hentry heq ↦ ?_)
    fun hnone ↦ absurd rfl (hnone _ (mem_middle.mpr (.inl rfl)))
  · have hleft : ∀ scope, entry ≠ (number, scope) := fun _ heq ↦ hne (congrArg Prod.fst heq)
    rw [mem_middle, mem_middle, or_iff_right (hleft _), or_iff_right (hleft _)]
  · obtain rfl | hentry := mem_middle.mp hentry
    · obtain ⟨lease, hlease⟩ := Option.isSome_iff_exists.mp hheld
      have hcourse := h.present _ hmem
      rw [stage, hlease] at hcourse
      rw [hlease]
      exact hcourse.released
    · exact absurd heq (ne_of_nodup_map hs.distinct entry hentry)

theorem Coursing.dropped (h : Coursing turns asked (before ++ (number, scope) :: after))
    (hs : Sound p asked (before ++ (number, scope) :: after)) :
    Coursing (turns ++ [.acts number (.dropped scope.held)]) asked (before ++ after) := by
  have hmem : (number, scope) ∈ before ++ (number, scope) :: after := mem_middle.mpr (.inl rfl)
  refine h.acted (hs.numbered _ hmem) (fun entry hne ↦ ?_) (fun entry hentry heq ↦ ?_) fun _ ↦ ?_
  · have hleft : entry ≠ (number, scope) := fun heq ↦ hne (congrArg Prod.fst heq)
    rw [mem_middle, or_iff_right hleft]
  · exact absurd heq (ne_of_nodup_map hs.distinct entry hentry)
  · have hcourse := h.present _ hmem
    cases hheld : scope.held with
    | none =>
      rw [stage, hheld] at hcourse
      exact hcourse.left
    | some lease =>
      rw [stage, hheld] at hcourse
      exact hcourse.dropped

theorem Shift.coursing (h : Shift p asked scopes turn p' asked' scopes') (hs : Sound p asked scopes)
    (hc : Coursing turns asked scopes) : Coursing (turns ++ [turn]) asked' scopes' := by
  cases h with
  | switched _ refusing => exact hc.switched refusing
  | denied => exact hc.denied hs.numbered
  | opened => exact hc.opened hs.numbered _ _
  | worked hmem hheld hworks => exact hc.worked hs hmem hheld hworks
  | released _ _ _ hheld => exact hc.released hs hheld
  | dropped => exact hc.dropped hs

end Requests

section Runs

variable {turns : List Turn} {routes : Routes} {store : Store}

theorem mem_course {act : Act} : act ∈ course number turns ↔ .acts number act ∈ turns := by
  rw [course, List.mem_filterMap]
  constructor
  · rintro ⟨_ | ⟨other, found⟩, hturn, hact⟩
    · cases hact
    · rw [Turn.actOf?] at hact
      split at hact
      · rename_i heq
        cases hact
        rwa [heq] at hturn
      · cases hact
  · exact fun hturn ↦ ⟨_, hturn, if_pos rfl⟩

theorem Run.kept (hrun : Run (start routes store) turns t) :
    Sound t.service.pool t.asked t.scopes ∧ Ledger turns t.service.pool ∧
      Coursing turns t.asked t.scopes := by
  generalize hstart : start routes store = first at hrun
  induction hrun with
  | nil =>
    subst hstart
    refine ⟨⟨nofun, .nil, nofun, .nil, rfl, rfl⟩, ⟨rfl, .nil, fun lease ↦ ?_, rfl⟩, nofun, nofun,
      fun _ _ ↦ rfl⟩
    exact iff_of_false List.not_mem_nil fun h ↦ Nat.not_lt_zero lease h.1
  | snoc _ hstep ih =>
    obtain ⟨hs, hl, hc⟩ := ih
    exact ⟨hstep.shift.sound hs, hstep.shift.ledger hs hl, hstep.shift.coursing hs hc⟩

structure Orderly (turns : List Turn) (t : Traffic) : Prop where
  balanced : t.service.pool.acquired = t.service.pool.released + t.tasks.countP Task.holds
  once : t.service.pool.doubleReleases = 0
  handed : ((handed turns).map Pool.connectionId).Nodup
  /-- The pool counts the connections that have been handed out. -/
  acquired : Traffic.handed turns = List.range t.service.pool.acquired
  closed : ((closed turns).map Pool.connectionId).Nodup
  isClosed : ∀ lease, lease ∈ Traffic.closed turns ↔
    lease < t.service.pool.acquired ∧ t.service.pool.isClosed lease
  /-- A connection is open as long as the scope that holds it. -/
  live : ∀ task ∈ t.tasks, ∀ lease ∈ task.scope.held, t.service.pool.isClosed lease = false
  course : ∀ number < t.asked, ∃ final, Course (course number turns) final
  stranger : ∀ number, t.asked ≤ number → Traffic.course number turns = []
  /-- Every call goes over the connection that its request was given, and finds it open. -/
  called : ∀ number connection, .acts number (.began connection) ∈ turns →
    ∃ lease, .acts number (.opened (some lease)) ∈ turns ∧
      connection = some ⟨Pool.connectionId lease, false⟩
  /-- A request that is given no connection does nothing else. -/
  denied : ∀ number, .acts number .denied ∈ turns → Traffic.course number turns = [.denied]
  refused : t.service.pool.refusing → ∀ accepts context request,
    t.service.receive t.asked accepts context request = (.denied, none,
      { t.service with pool := { t.service.pool with failed := t.service.pool.failed + 1 } })

/-- However the turns of requests come, each connection is handed out once, open for the calls of
its request, and closed once, at the end of it. -/
theorem orderly_of_run (hrun : Run (start routes store) turns t) : Orderly turns t := by
  obtain ⟨hs, hl, hc⟩ := hrun.kept
  have hcourse : ∀ number < t.asked, ∃ final, Course (course number turns) final := by
    intro number hlt
    -- A request that has come in and is no longer there has ended.
    by_cases hmem : ∃ entry ∈ t.scopes, entry.1 = number
    · obtain ⟨entry, hentry, rfl⟩ := hmem
      exact ⟨_, hc.present entry hentry⟩
    · exact ⟨_, hc.past number hlt fun entry hentry heq ↦ hmem ⟨entry, hentry, heq⟩⟩
  have hacts : ∀ {number act}, .acts number act ∈ turns →
      ∃ final, Course (course number turns) final := by
    intro number act hturn
    -- Before it comes in, a request has no turns.
    refine hcourse number (Nat.lt_of_not_le fun hle ↦ ?_)
    have hact := mem_course.mpr hturn
    rw [hc.future number hle] at hact
    cases hact
  have hnodup : (handed turns).Nodup := by
    rw [hl.handed]
    exact List.nodup_range
  have hbalanced := hs.balanced
  rw [scopes, List.countP_map] at hbalanced
  refine ⟨hbalanced, hs.once, hnodup.map Pool.connectionId_injective, hl.handed,
    hl.fresh.map Pool.connectionId_injective, hl.closed, fun task htask lease hlease ↦ ?_, hcourse,
    hc.future, fun number connection hturn ↦ ?_, fun number hturn ↦ ?_,
    fun hrefusing accepts context request ↦ ?_⟩
  · have hscope := hs.bound _ (List.mem_map_of_mem htask)
    obtain ⟨_, -, -, ⟨hheld, hopen⟩ | hnone⟩ := hscope
    · obtain rfl := Option.some_inj.mp (hheld.symm.trans hlease)
      exact hopen
    · rw [hnone] at hlease
      cases hlease
  · obtain ⟨final, hcourse⟩ := hacts hturn
    obtain ⟨lease, hopened, heq⟩ := hcourse.began (mem_course.mpr hturn)
    exact ⟨lease, mem_course.mp hopened, heq⟩
  · obtain ⟨final, hcourse⟩ := hacts hturn
    exact (hcourse.alone (mem_course.mpr hturn)).2
  · simp only [Service.receive, Scope.open_refused hrefusing]

theorem orderly_after_drop :
    let h : Handler := ⟨.explicit, ⟨["users"]⟩, {}, {}⟩
    let routes : Routes := { configured := [(⟨["users"]⟩, h)], default := h }
    let store : Store := .empty fun _ ↦ ""
    let turns : List Turn := [.acts 0 (.opened (some 0)), .switched true, .acts 1 .denied,
      .acts 0 .routed, .acts 0 (.dropped (some 0))]
    let pool : Pool := { closed := [true], released := 1, failed := 1, refusing := true }
    let t : Traffic := ⟨{ routes, pool, store }, 2, []⟩
    Run (start routes store) turns t ∧ Orderly turns t := by
  intro h routes store turns pool t
  let r : Request := .read ⟨["users", "1"]⟩ []
  let lent : Pool := { closed := [false] }
  let refusing : Pool := { closed := [false], failed := 1, refusing := true }
  let task : Task := ⟨0, r, ⟨{ lease := some 0 }, some 0⟩, .fresh .all⟩
  let routed : Task := { task with phase := .between (h.plan r) }
  have hrun : Run (start routes store) turns t :=
    ((((Run.one (.admitted { routes, store } 0 [] .all {} r)).snoc
      (.switched { routes, pool := lent, store } 1 [task] true)).snoc
      (.admitted { routes, pool := { lent with refusing := true }, store } 1 [task] .all {} r)).snoc
      (.advanced { routes, pool := refusing, store } 2 [] [] task rfl)).snoc
      (.dropped { routes, pool := refusing, store } 2 [] [] routed)
  exact ⟨hrun, orderly_of_run hrun⟩

end Runs

end Traffic

end RecordService
