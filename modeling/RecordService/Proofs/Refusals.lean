import RecordService.Proofs.Commands
import RecordService.Proofs.NormalForms
import RecordService.Proofs.Templates

namespace RecordService

open Template (Supplied Occurs)

section Checks

variable {α β : Type} {P : Prop} {x : Except Fault α} {f : α → Except Fault β}

/-- The step is refused just when something holds, and then as a bad request. -/
inductive Checks (P : Prop) : Except Fault α → Prop
  | refused (message : String) : P → Checks P (.error (.badRequest message))
  | passed (a : α) : ¬ P → Checks P (.ok a)

theorem Checks.congr {Q : Prop} (h : Checks P x) (hPQ : P ↔ Q) : Checks Q x := by
  rwa [propext hPQ] at h

theorem Checks.exists_error (h : Checks P x) (hP : P) :
    ∃ message, x = .error (.badRequest message) := by
  cases h with
  | refused message => exact ⟨message, rfl⟩
  | passed a hnot => exact absurd hP hnot

theorem Checks.exists_ok (h : Checks P x) (hP : ¬ P) : ∃ a, x = .ok a := by
  cases h with
  | refused message hP' => exact absurd hP' hP
  | passed a => exact ⟨a, rfl⟩

theorem Checks.bind {Q : α → Prop} (hx : Checks P x) (hf : ∀ a, Checks (Q a) (f a)) :
    Checks (P ∨ ∃ a, x = .ok a ∧ Q a) (x >>= f) := by
  cases hx with
  | refused message hP => exact .refused message (.inl hP)
  | passed a hP =>
    refine (hf a).congr ?_
    simp [hP]

theorem Checks.both {Q : Prop} (hx : Checks P x) (hf : ∀ a, Checks Q (f a)) :
    Checks (P ∨ Q) (x >>= f) := by
  cases hx with
  | refused message hP => exact .refused message (.inl hP)
  | passed a hP => exact (hf a).congr (or_iff_right hP).symm

theorem Checks.map (h : Checks P x) (g : α → β) : Checks P (x >>= fun a ↦ .ok (g a)) := by
  cases h with
  | refused message hP => exact .refused message hP
  | passed a hP => exact .passed (g a) hP

theorem checks_orBadRequest (x : Except QueryError α) :
    Checks (∀ a, x ≠ .ok a) (orBadRequest x) := by
  cases x with
  | error e => exact .refused e.message nofun
  | ok a => exact .passed a fun h ↦ h a rfl

def Fault.IsBadRequest (fault : Fault) : Prop := ∃ message, fault = .badRequest message

theorem checks_of_refusedOnly (hx : RefusedOnly Fault.IsBadRequest x)
    (hP : (∃ a, x = .ok a) ↔ ¬ P) : Checks P x := by
  cases x with
  | error fault =>
    obtain ⟨message, rfl⟩ := hx fault rfl
    exact .refused message (not_not.mp fun h ↦ nomatch hP.mpr h)
  | ok a => exact .passed a (hP.mp ⟨a, rfl⟩)

end Checks

namespace Template

variable {parameters : Dict String}

theorem refusedOnly_fillText (text : String) :
    RefusedOnly Fault.IsBadRequest (fillText parameters text) := by
  refine RefusedOnly.map (.mapM fun piece _ ↦ ?_)
  cases piece with
  | plain text => exact .ok _ _
  | token name =>
    rw [fillPiece]
    cases Dict.get? (String.ofList name) parameters with
    | some value => exact .ok _ _
    | none => exact fun _ h ↦ ⟨_, (Except.error.inj h).symm⟩

mutual

theorem refusedOnly_fill : ∀ t, RefusedOnly Fault.IsBadRequest (fill parameters t)
  | .null => .ok _ _
  | .bool _ => .ok _ _
  | .num _ => .ok _ _
  | .str s => (refusedOnly_fillText s).map
  | .arr items => (refusedOnly_fillItems items).map
  | .obj fields => (refusedOnly_fillFields fields).map

theorem refusedOnly_fillItems : ∀ vs, RefusedOnly Fault.IsBadRequest (fillItems parameters vs)
  | [] => .ok _ _
  | v :: vs => (refusedOnly_fill v).both (refusedOnly_fillItems vs)

theorem refusedOnly_fillFields : ∀ fields : List (String × Json),
    RefusedOnly Fault.IsBadRequest (fillFields parameters fields)
  | [] => .ok _ _
  | (_, v) :: fields => (refusedOnly_fill v).both (refusedOnly_fillFields fields)

end

theorem checks_fill (t : Json) : Checks (¬ Supplied parameters t) (fill parameters t) :=
  checks_of_refusedOnly (refusedOnly_fill t) (exists_fill_iff t |>.trans not_not.symm)

end Template

section Definitions

variable {limits : Limits} {parameters : Dict String}

/-- A token has no parameter, or the filter that the parameters make is no clause. -/
inductive Definition.Unusable (limits : Limits) (parameters : Dict String) (d : Definition) : Prop
  | missing {name : List Char} : Occurs name d.filter →
      Dict.get? (String.ofList name) parameters = none → Unusable limits parameters d
  | unreadable {w : Json} : Template.fill parameters d.filter = .ok w →
      (∀ f, Where.filter limits.depth w ≠ .ok f) → Unusable limits parameters d

theorem not_supplied_iff {t : Json} : ¬ Supplied parameters t ↔
    ∃ name, Occurs name t ∧ Dict.get? (String.ofList name) parameters = none := by
  simp only [Supplied, not_forall, not_exists, Option.eq_none_iff_forall_ne_some, exists_prop,
    ne_eq]

theorem Definition.checks_resolve (d : Definition) :
    Checks (d.Unusable limits parameters) (d.resolve limits parameters) := by
  refine ((Template.checks_fill d.filter).bind fun w ↦ checks_orBadRequest _).congr ?_
  rw [not_supplied_iff]
  constructor
  · rintro (⟨name, hname, hnone⟩ | ⟨w, hw, hnone⟩)
    · exact .missing hname hnone
    · exact .unreadable hw hnone
  · rintro (⟨hname, hnone⟩ | ⟨hw, hnone⟩)
    · exact .inl ⟨_, hname, hnone⟩
    · exact .inr ⟨_, hw, hnone⟩

end Definitions

namespace Catalog

variable {c : Catalog} {limits : Limits} {parameters : Dict String} {q : Query} {id : String}

inductive Unfit (c : Catalog) (limits : Limits) (q : Query) (id : String) : Prop
  | unknown : Dict.get? id c.queries = none → id ≠ allIds → Unfit c limits q id
  | unusable {d : Definition} : c.query id = .ok d → d.Unusable limits q.parameters →
      Unfit c limits q id
  | unsorted {d : Definition} : c.query id = .ok d → q.sortKeys = [] →
      (∀ keys, d.sorting ≠ .ok keys) → Unfit c limits q id

/-- A query is refused that is not asked in one form or pages from a negative place, that is a query
expression, or that names an unfit query. -/
inductive Refuses (c : Catalog) (limits : Limits) (q : Query) : Prop
  | unacceptable : ¬ q.Acceptable → Refuses c limits q
  | native : Query.Given q.expression → Refuses c limits q
  | named {id : String} : Query.nonBlank q.queryId = some id → c.Unfit limits q id →
      Refuses c limits q

theorem checks_query (c : Catalog) (id : String) :
    Checks (Dict.get? id c.queries = none ∧ id ≠ allIds) (c.query id) := by
  unfold query
  cases Dict.get? id c.queries with
  | some d => exact .passed d nofun
  | none =>
    simp only [true_and]
    split
    case isTrue hid => exact .passed _ (not_not.mpr hid)
    case isFalse hid => exact .refused _ hid

theorem checks_named (c : Catalog) (limits : Limits) (q : Query) (id : String)
    (result : Definition → Filter → List SortKey → Query) :
    Checks (c.Unfit limits q id) (do
      let d ← c.query id
      let filter ← d.resolve limits q.parameters
      let keys ← if q.sortKeys.isEmpty then orBadRequest d.sorting else .ok q.sortKeys
      .ok (result d filter keys)) := by
  have hsorted (d : Definition) (result : List SortKey → Query) :
      Checks (q.sortKeys = [] ∧ ∀ keys, d.sorting ≠ .ok keys) (do
        let keys ← if q.sortKeys.isEmpty then orBadRequest d.sorting else .ok q.sortKeys
        .ok (result keys)) := by
    cases q.sortKeys with
    | nil =>
      rw [eq_self, true_and]
      exact (checks_orBadRequest d.sorting).map result
    | cons key keys => exact .passed _ nofun
  refine ((checks_query c id).bind fun d ↦ d.checks_resolve.both fun filter ↦
    hsorted d (result d filter)).congr ?_
  constructor
  · rintro (⟨hnone, hid⟩ | ⟨d, hd, hunusable | ⟨hkeys, hnone⟩⟩)
    · exact .unknown hnone hid
    · exact .unusable hd hunusable
    · exact .unsorted hd hkeys hnone
  · rintro (⟨hnone, hid⟩ | ⟨hd, hunusable⟩ | ⟨hd, hkeys, hnone⟩)
    · exact .inl ⟨hnone, hid⟩
    · exact .inr ⟨_, hd, .inl hunusable⟩
    · exact .inr ⟨_, hd, .inr ⟨hkeys, hnone⟩⟩

theorem checks_resolveQuery (c : Catalog) (limits : Limits) (q : Query) :
    Checks (c.Refuses limits q) (c.resolveQuery limits q) := by
  have hnormal := checks_orBadRequest (q.normalize limits.pageSize)
  -- Whatever is wrong with the query itself is found before its name is looked up.
  by_cases hq : q.Acceptable
  case neg =>
    obtain ⟨message, hrefused⟩ := hnormal.exists_error fun n hn ↦
      hq (Query.exists_normalize_iff.mp ⟨n, hn⟩)
    rw [resolveQuery, hrefused, error_bind]
    exact .refused message (.unacceptable hq)
  case pos =>
    have hn : q.normalize limits.pageSize = .ok (q.normalForm limits.pageSize) :=
      Query.normalize_eq_ok.mpr ⟨hq, rfl⟩
    have hexpression : (q.normalForm limits.pageSize).expression.isSome ↔
        Query.Given q.expression := (Query.trimmed_nonBlank q.expression).isSome_iff
    rw [resolveQuery, orBadRequest_eq_ok.mpr hn, ok_bind]
    split
    case isTrue hnative => exact .refused _ (.native (hexpression.mp hnative))
    case isFalse hnative =>
      have hnamed : (q.normalForm limits.pageSize).queryId = Query.nonBlank q.queryId := rfl
      rw [hnamed]
      cases hid : Query.nonBlank q.queryId with
      | none =>
        refine .passed _ ?_
        rintro (hnot | hgiven | ⟨hid', -⟩)
        · exact hnot hq
        · exact hnative (hexpression.mpr hgiven)
        · cases hid.symm.trans hid'
      | some id =>
        refine (c.checks_named limits q id fun _ _ _ ↦ _).congr ⟨.named hid, ?_⟩
        rintro (hnot | hgiven | ⟨hid', hunfit⟩)
        · exact absurd hq hnot
        · exact absurd (hexpression.mpr hgiven) hnative
        · obtain rfl := Option.some_inj.mp (hid.symm.trans hid')
          exact hunfit

inductive RefusesCommand (c : Catalog) (limits : Limits) (parameters : Dict String) : Prop
  | unnamed : Dict.get? commandParameter parameters = none → RefusesCommand c limits parameters
  | unknown {id : String} : Dict.get? commandParameter parameters = some id →
      Dict.get? id c.commands = none → RefusesCommand c limits parameters
  | unusable {id : String} {d : Definition} : Dict.get? commandParameter parameters = some id →
      Dict.get? id c.commands = some d → d.Unusable limits parameters →
      RefusesCommand c limits parameters

theorem checks_resolveCommand (c : Catalog) (limits : Limits) (parameters : Dict String) :
    Checks (c.RefusesCommand limits parameters) (c.resolveCommand limits parameters) := by
  unfold resolveCommand
  cases hid : Dict.get? commandParameter parameters with
  | none => exact .refused _ (.unnamed hid)
  | some id =>
    simp only
    cases hd : Dict.get? id c.commands with
    | none => exact .refused _ (.unknown hid hd)
    | some d =>
      refine d.checks_resolve.congr ⟨.unusable hid hd, ?_⟩
      rintro (hnone | ⟨hid', hnone⟩ | ⟨hid', hd', hd⟩) <;> simp_all

end Catalog

namespace Store

variable {s : Store}

theorem calls_withEntry {path : Path} {revision : Option String}
    {go : Entry → Store → Except Fault Record × Store} (hgo : ∀ e, (go e s).2.calls = s.calls) :
    (s.withEntry path revision go).2.calls = s.calls := by
  unfold withEntry
  split
  · rfl
  · split
    · rfl
    · exact hgo _

theorem calls_run (accepts : Consumer) (r : Request) (s : Store) :
    (s.run accepts r).2.calls = s.calls := by
  cases r with
  | create path asked content =>
    have hchosen : (s.chooseId asked content).2.calls = s.calls := by
      unfold chooseId
      split <;> rfl
    simp only [run, create]
    split <;> exact hchosen
  | update path revision content => exact calls_withEntry fun _ ↦ rfl
  | patch path revision changes =>
    refine calls_withEntry fun e ↦ ?_
    split <;> rfl
  | delete path revision => exact calls_withEntry fun _ ↦ rfl
  | read | action | query => rfl

theorem calls_performFor (accepts : Consumer) (c : Option Connection) (r : Request) (s : Store) :
    (s.performFor accepts c r).2.calls = s.calls + 1 := by
  unfold performFor
  cases checkConnection c with
  | error fault => rfl
  | ok => exact calls_run accepts r s.counted

end Store

namespace Plan

variable {α β : Type} {P Q : Prop} {x : Except Fault α} {f : α → Plan β} {p : Plan α}

/-- The plan is given up at the outset, as a bad request, if something holds, and is one call
otherwise. -/
inductive Gated (P : Prop) : Plan α → Prop
  | refused (message : String) : P → Gated P (finish (.error (.badRequest message)))
  | once {request : Request} {accepts : Consumer} {next : Except Fault request.Reply → Plan α} :
      ¬ P → (∀ reply, ∃ result, next reply = finish result) → Gated P (call request accepts next)

theorem Gated.exists_finish (h : p.Gated P) (hP : P) :
    ∃ message, p = finish (.error (.badRequest message)) := by
  cases h with
  | refused message => exact ⟨message, rfl⟩
  | once hnot => exact absurd hP hnot

theorem Gated.calls (h : p.Gated P) (hP : ¬ P) (c : Option Connection) (s : Store) :
    (p.run c s).2.calls = s.calls + 1 := by
  cases h with
  | refused message hP' => exact absurd hP' hP
  | @once request accepts next _ hnext =>
    let answered := s.performFor accepts c request
    obtain ⟨result, hresult⟩ := hnext answered.1
    change ((next answered.1).run c answered.2).2.calls = _
    rw [hresult]
    exact s.calls_performFor accepts c request

theorem gated_ask (hP : ¬ P) (accepts : Consumer) (r : Request) : (askFor accepts r).Gated P :=
  .once hP fun reply ↦ ⟨reply, rfl⟩

theorem gated_ask_bind {accepts : Consumer} {r : Request} {f : r.Reply → Plan β} (hP : ¬ P)
    (hf : ∀ reply, ∃ result, f reply = finish result) : (askFor accepts r >>= f).Gated P := by
  refine .once hP fun reply ↦ ?_
  cases reply with
  | error fault => exact ⟨.error fault, rfl⟩
  | ok reply => exact hf reply

theorem calls_le_run (p : Plan α) (c : Option Connection) (s : Store) :
    s.calls ≤ (p.run c s).2.calls := by
  refine run_keeps (calls_true p) (I := fun t ↦ s.calls ≤ t.calls)
    (fun accepts c r t _ ht ↦ ?_) c le_rfl
  rw [Store.calls_performFor]
  omega

theorem calls_lt_run_ask_bind (r : Request) (f : r.Reply → Plan β) (c : Option Connection)
    (s : Store) : s.calls < ((ask r >>= f).run c s).2.calls := by
  have hcalls : (s.perform c r).2.calls = s.calls + 1 := s.calls_performFor .all c r
  rw [run_ask_bind]
  cases hperform : s.perform c r with
  | mk reply t =>
    rw [hperform] at hcalls
    cases reply with
    | error fault => exact Nat.lt_of_lt_of_eq (Nat.lt_succ_self _) hcalls.symm
    | ok reply =>
      have hrest := (f reply).calls_le_run c t
      simp only at hcalls ⊢
      omega

theorem Gated.lift_bind (hx : Checks Q x) (hrefused : Q → P) (hf : ∀ a, ¬ Q → (f a).Gated P) :
    (lift x >>= f).Gated P := by
  cases hx with
  | refused message hQ => exact .refused message (hrefused hQ)
  | passed a hQ => exact hf a hQ

end Plan

def HandlerKind.Misses (kind : HandlerKind) (path : Path) : Prop :=
  match kind with
  | .explicit => path.segments.length < 2
  | .generic _ => path = .empty

def Request.IsPlain : Request → Prop
  | .action _ name .. => name ≠ Catalog.commandAction
  | _ => True

namespace Handler

variable {h : Handler} {r : Request} {c : Option Connection} {s : Store} {path place : Path}
  {explicit : List String}

def Rejects (h : Handler) : Request → Prop
  | .create _ _ content => h.kind.isGeneric ∧ ¬ content.isObject
  | .update path _ content => h.kind.isGeneric ∧ ¬ content.isObject ∨ h.kind.Misses path
  | .read path _ | .patch path .. | .delete path _ => h.kind.Misses path
  | .action _ name _ parameters =>
    name = Catalog.commandAction ∧ h.catalog.RefusesCommand h.limits parameters
  | .query q => h.catalog.Refuses h.limits q

section Plans

theorem checks_explicitInstance (hkind : h.kind = .explicit) (path : Path) :
    Checks (h.kind.Misses path) (h.explicitInstance path) := by
  rw [hkind]
  obtain ⟨segments⟩ := path
  match segments with
  | [] => exact .refused _ Nat.zero_lt_two
  | [_] => exact .refused _ (Nat.lt_succ_self 1)
  | first :: second :: rest =>
    have hleaf : (⟨first :: second :: rest⟩ : Path).leaf? = some ((second :: rest).getLast nofun) :=
      rfl
    rw [explicitInstance]
    simp only [hleaf]
    exact .passed _ (by simp [HandlerKind.Misses])

theorem checks_instanceParts (path : Path) : Checks (path = .empty) path.instanceParts := by
  obtain ⟨segments⟩ := path
  cases segments with
  | nil => exact .refused _ rfl
  | cons first rest => exact .passed _ nofun

theorem checks_genericInstance (hkind : h.kind = .generic explicit) (path : Path) :
    Checks (h.kind.Misses path) (h.genericInstance path) := by
  rw [hkind]
  exact (checks_instanceParts path).map _

theorem checks_requireObject (path : Path) (content : Json) :
    Checks (¬ content.isObject) (requireObject path content) := by
  unfold requireObject
  split
  case isTrue hobject => exact .passed _ (not_not.mpr hobject)
  case isFalse hnot => exact .refused _ hnot

theorem gated_explicitPlan (hkind : h.kind = .explicit) (hplain : r.IsPlain)
    (accepts : Consumer) : (h.explicitPlan accepts r).Gated (h.Rejects r) := by
  have hgeneric : ¬ h.kind.isGeneric := by
    rw [hkind]
    decide
  cases r with
  | create path id content => exact Plan.gated_ask (fun hr ↦ hgeneric hr.1) .all _
  | read path fields =>
    exact .lift_bind (checks_explicitInstance hkind path) id
      fun _ hpath ↦ Plan.gated_ask hpath .all _
  | update path revision content =>
    refine .lift_bind (checks_explicitInstance hkind path) .inr
      fun _ hpath ↦ Plan.gated_ask ?_ .all _
    exact not_or.mpr ⟨fun hr ↦ hgeneric hr.1, hpath⟩
  | patch path revision changes =>
    exact .lift_bind (checks_explicitInstance hkind path) id
      fun _ hpath ↦ Plan.gated_ask hpath .all _
  | delete path revision =>
    exact .lift_bind (checks_explicitInstance hkind path) id
      fun _ hpath ↦ Plan.gated_ask hpath .all _
  | action path name content parameters =>
    rw [explicitPlan, if_neg hplain]
    exact Plan.gated_ask (fun hr ↦ hplain hr.1) .all _
  | query q =>
    exact .lift_bind (h.catalog.checks_resolveQuery h.limits q) id
      fun _ hq ↦ Plan.gated_ask hq accepts _

theorem gated_genericPlan (hkind : h.kind = .generic explicit) (hplain : r.IsPlain)
    (accepts : Consumer) : (h.genericPlan explicit accepts r).Gated (h.Rejects r) := by
  have hgeneric : h.kind.isGeneric := by
    rw [hkind]
    rfl
  cases r with
  | create path id content =>
    refine .lift_bind (checks_requireObject path content) (fun hnot ↦ ⟨hgeneric, hnot⟩)
      fun _ hobject ↦ ?_
    exact Plan.gated_ask_bind (fun hr ↦ hobject hr.2) fun _ ↦ ⟨_, rfl⟩
  | read path fields =>
    have hmisses : h.kind.Misses path ↔ path = .empty := by
      rw [hkind]
      rfl
    refine .lift_bind (checks_instanceParts path) hmisses.mpr fun _ hpath ↦ ?_
    refine Plan.gated_ask_bind (mt hmisses.mp hpath) fun page ↦ ?_
    cases page.records <;> exact ⟨_, rfl⟩
  | update path revision content =>
    refine .lift_bind (checks_requireObject path content) (fun hnot ↦ .inl ⟨hgeneric, hnot⟩)
      fun _ hobject ↦ ?_
    refine .lift_bind (checks_genericInstance hkind path) .inr fun _ hpath ↦ ?_
    exact Plan.gated_ask_bind (not_or.mpr ⟨fun hr ↦ hobject hr.2, hpath⟩) fun _ ↦ ⟨_, rfl⟩
  | patch path revision changes =>
    refine .lift_bind (checks_genericInstance hkind path) id fun _ hpath ↦ ?_
    exact Plan.gated_ask_bind hpath fun _ ↦ ⟨_, rfl⟩
  | delete path revision =>
    refine .lift_bind (checks_genericInstance hkind path) id fun _ hpath ↦ ?_
    exact Plan.gated_ask_bind hpath fun _ ↦ ⟨_, rfl⟩
  | action path name content parameters =>
    rw [genericPlan, if_neg hplain]
    refine Plan.gated_ask_bind (fun hr ↦ hplain hr.1) fun answer ↦ ?_
    exact ⟨_, rfl⟩
  | query q =>
    refine .lift_bind (h.catalog.checks_resolveQuery h.limits q) id fun _ hq ↦ ?_
    exact Plan.gated_ask_bind hq fun _ ↦ ⟨_, rfl⟩

theorem gated_plan (h : Handler) (hplain : r.IsPlain) (accepts : Consumer) :
    (h.planFor accepts r).Gated (h.Rejects r) := by
  cases hkind : h.kind with
  | explicit =>
    rw [planFor_explicit hkind]
    exact gated_explicitPlan hkind hplain accepts
  | generic explicit =>
    rw [planFor_generic hkind]
    exact gated_genericPlan hkind hplain accepts

theorem plan_of_rejects (hr : h.Rejects r) (accepts : Consumer) :
    ∃ message, h.planFor accepts r = .finish (.error (.badRequest message)) := by
  by_cases hplain : r.IsPlain
  · exact (h.gated_plan hplain accepts).exists_finish hr
  · cases r with
    | action path name content parameters =>
      obtain ⟨rfl, hrefuses⟩ := hr
      obtain ⟨message, hmessage⟩ :=
        (h.catalog.checks_resolveCommand h.limits parameters).exists_error hrefuses
      refine ⟨message, ?_⟩
      cases hkind : h.kind with
      | explicit =>
        simp only [planFor_explicit hkind, explicitPlan, if_true, hmessage]
        rfl
      | generic explicit =>
        simp only [planFor_generic hkind, genericPlan, if_true, hmessage]
        rfl
    | _ => exact absurd trivial hplain

end Plans

section Calls

theorem calls_deleteAll {ids : List String} {count n : Nat} {t : Store}
    (hrun : (deleteAll place ids count).run c s = (.ok n, t)) :
    t.calls = s.calls + ids.length := by
  induction ids generalizing s count with
  | nil =>
    obtain ⟨-, rfl⟩ := Prod.mk.inj hrun
    rfl
  | cons id ids ih =>
    have hcalls : (s.perform c (.delete (place.child id) none)).2.calls = s.calls + 1 :=
      s.calls_performFor .all c _
    rw [run_deleteAll_cons] at hrun
    cases hperform : s.perform c (.delete (place.child id) none) with
    | mk reply t₁ =>
      rw [hperform] at hrun hcalls
      have hrest : t.calls = t₁.calls + ids.length := by
        cases reply with
        | ok record => exact ih hrun
        | error fault =>
          simp only at hrun
          split at hrun
          · exact ih hrun
          · cases hrun
      rw [hrest, hcalls, List.length_cons]
      omega

theorem calls_deleteMatching {filter : Filter} {answer : Json} {t : Store}
    (hrun : (deleteMatching place filter).run c s = (.ok answer, t)) :
    ∃ page, (s.perform c (.query { path := place, filter := some filter })).1 = .ok page ∧
      t.calls = s.calls + 1 + page.records.length := by
  have hcalls : (s.perform c (.query { path := place, filter := some filter })).2.calls =
      s.calls + 1 := s.calls_performFor .all c _
  rw [deleteMatching, Plan.run_ask_bind] at hrun
  cases hperform : s.perform c (.query { path := place, filter := some filter }) with
  | mk reply t₁ =>
    rw [hperform] at hrun hcalls
    cases reply with
    | error fault => cases hrun
    | ok page =>
      simp only [Plan.run_bind_pure] at hrun
      obtain ⟨hn, rfl⟩ := Prod.mk.inj hrun
      obtain ⟨n, hn, -⟩ := map_eq_ok.mp hn
      refine ⟨page, rfl, ?_⟩
      rw [calls_deleteAll (Prod.ext hn rfl), hcalls, List.length_map]

theorem exists_filter_of_not_rejects {type : Path} {content : Json} {parameters : Dict String}
    (hr : ¬ h.Rejects (.action type Catalog.commandAction content parameters)) :
    ∃ filter, h.catalog.resolveCommand h.limits parameters = .ok filter :=
  (h.catalog.checks_resolveCommand h.limits parameters).exists_ok fun hrefuses ↦ hr ⟨rfl, hrefuses⟩

theorem calls_command {type : Path} {content : Json} {parameters : Dict String}
    (hr : ¬ h.Rejects (.action type Catalog.commandAction content parameters))
    (c : Option Connection) (s : Store) : s.calls <
      (h.after c (.action type Catalog.commandAction content parameters) s).calls := by
  obtain ⟨filter, hfilter⟩ := exists_filter_of_not_rejects hr
  rw [after, plan_command hfilter]
  exact Plan.calls_lt_run_ask_bind _ _ c s

/-- What a consumer of a query receives; of a query that is refused it hears nothing. -/
def received (h : Handler) (c : Option Connection) (accepts : Consumer) (q : Query) (s : Store) :
    List Record :=
  match h.answerFor accepts c (.query q) s with
  | .ok page => page.records
  | .error _ => []

/-- The request has come to nothing. -/
structure Refused (h : Handler) (c : Option Connection) (r : Request) (s : Store) : Prop where
  /-- There is no call that could give a consumer anything. -/
  plan : ∀ accepts, ∃ fault, h.planFor accepts r = .finish (.error fault)
  answer : ∃ message, h.answer c r s = .error (.badRequest message)
  calls : (h.after c r s).calls = s.calls
  entries : (h.after c r s).entries = s.entries
  received : ∀ q accepts, r = .query q → h.received c accepts q s = []

theorem refused_of_rejects (hr : h.Rejects r) (c : Option Connection) (s : Store) :
    h.Refused c r s := by
  have hfinished (accepts : Consumer) : ∃ message, h.answerFor accepts c r s =
      .error (.badRequest message) ∧ ((h.planFor accepts r).run c s).2 = s := by
    obtain ⟨message, hplan⟩ := plan_of_rejects hr accepts
    exact ⟨message, by rw [answerFor, hplan]; rfl, by rw [hplan]; rfl⟩
  obtain ⟨message, hanswer, hafter⟩ := hfinished .all
  refine ⟨fun accepts ↦ ?_, ⟨message, hanswer⟩, congrArg Store.calls hafter,
    congrArg Store.entries hafter, ?_⟩
  · obtain ⟨message, hplan⟩ := plan_of_rejects hr accepts
    exact ⟨_, hplan⟩
  · rintro q accepts rfl
    obtain ⟨message, hanswer, -⟩ := hfinished accepts
    rw [received, hanswer]

/-- The handler refuses what it rejects without a call. Anything else reaches the store: by one
call, and by one more for each record that the search of a command finds. -/
theorem rejects_or_calls (h : Handler) (c : Option Connection) (s : Store) :
    (∀ r, h.Rejects r → h.Refused c r s) ∧
    (∀ r, ¬ h.Rejects r → s.calls < (h.after c r s).calls) ∧
    (∀ r, ¬ h.Rejects r → r.IsPlain → (h.after c r s).calls = s.calls + 1) ∧
    ∀ type content parameters answer,
      h.answer c (.action type Catalog.commandAction content parameters) s = .ok answer →
      ∃ filter page, h.catalog.resolveCommand h.limits parameters = .ok filter ∧
        (s.perform c (.query
          { path := h.commandPlace type, filter := some (h.commandFilter type filter) })).1 =
            .ok page ∧
        (h.after c (.action type Catalog.commandAction content parameters) s).calls =
          s.calls + 1 + page.records.length := by
  refine ⟨fun r hr ↦ refused_of_rejects hr c s, fun r hr ↦ ?_, fun r hr hplain ↦ ?_,
    fun type content parameters answer hanswer ↦ ?_⟩
  · by_cases hplain : r.IsPlain
    · have hcalls : (h.after c r s).calls = s.calls + 1 :=
        (h.gated_plan hplain .all).calls hr c s
      rw [hcalls]
      exact Nat.lt_succ_self _
    · cases r with
      | action type name content parameters =>
        obtain rfl : name = Catalog.commandAction := not_not.mp hplain
        exact calls_command hr c s
      | _ => exact absurd trivial hplain
  · exact (h.gated_plan hplain .all).calls hr c s
  · have hr : ¬ h.Rejects (.action type Catalog.commandAction content parameters) := by
      intro hr
      obtain ⟨message, hrefused⟩ := (refused_of_rejects hr c s).answer
      cases hrefused.symm.trans hanswer
    obtain ⟨filter, hfilter⟩ := exists_filter_of_not_rejects hr
    have hrun : (deleteMatching (h.commandPlace type) (h.commandFilter type filter)).run c s =
        (.ok answer, h.after c (.action type Catalog.commandAction content parameters) s) := by
      rw [← plan_command hfilter]
      exact Prod.ext hanswer rfl
    obtain ⟨page, hpage, hcalls⟩ := calls_deleteMatching hrun
    exact ⟨filter, page, hfilter, hpage, hcalls⟩

theorem purge_calls :
    let h : Handler := ⟨.generic (Generic.explicitFields []), ⟨["managedobjects"]⟩,
      { commands := [("purge", { filter := .obj [("status", .str "inactive")] })] }, {}⟩
    let c : Option Connection := some ⟨"local-1", false⟩
    let type : Path := ⟨["managed", "user"]⟩
    let unknown : Request := .query { path := type, queryId := some "find-by-name" }
    let create : Request := .create type (some "1") (.obj [("status", .str "inactive")])
    let s := h.after c create (.empty fun _ ↦ "")
    let command : Request := .action type Catalog.commandAction .null [("commandId", "purge")]
    h.Rejects unknown ∧ h.Refused c unknown s ∧
      ¬ h.Rejects create ∧ create.IsPlain ∧ s.calls = 1 ∧
      ∃ answer, h.answer c command s = .ok answer ∧
        ∃ filter page, h.catalog.resolveCommand h.limits [("commandId", "purge")] = .ok filter ∧
          (s.perform c (.query
            { path := h.commandPlace type, filter := some (h.commandFilter type filter) })).1 =
              .ok page ∧
          (h.after c command s).calls = s.calls + 1 + page.records.length := by
  intro h c type unknown create s command
  have hs : s.Reached := reached_after c create (.empty _)
  have hunknown : h.Rejects unknown := .named rfl (.unknown rfl (by decide))
  have hcreate : ¬ h.Rejects create := fun hr ↦ hr.2 rfl
  have hfilter : h.catalog.resolveCommand h.limits [("commandId", "purge")] =
      .ok (.test ⟨["status"]⟩ .eq (.str "inactive")) := resolveCommand_purge
  have hids : ∀ id, (h.commandPlace type).child id ≠ .empty := fun id ↦ nofun
  obtain ⟨answer, hanswer⟩ :=
    (command_effect hs.keyed (c := c) rfl hfilter type .null).2 fun id _ ↦ hids id
  exact ⟨hunknown, (rejects_or_calls h c s).1 unknown hunknown, hcreate, trivial,
    (rejects_or_calls h c (.empty fun _ ↦ "")).2.2.1 create hcreate trivial, answer, hanswer,
    (rejects_or_calls h c s).2.2.2 type .null _ answer hanswer⟩

end Calls

end Handler

end RecordService
