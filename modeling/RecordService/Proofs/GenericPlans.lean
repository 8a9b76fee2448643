import RecordService.Proofs.Runs
import RecordService.Proofs.Wrapped

namespace RecordService

namespace Request

def changes : Request → List Patch.Change
  | .patch _ _ changes => changes
  | _ => []

/-- The path has been read from text, and every change is allowed. -/
def Permitted (allowed : Patch.Kind → Pointer → Prop) (r : Request) : Prop :=
  r.path.Clean ∧ ∀ c ∈ r.changes, allowed c.kind c.field

theorem permitted_of_unchanging {allowed : Patch.Kind → Pointer → Prop} {r : Request}
    (hpath : r.path.Clean) (hchanges : r.changes = []) : r.Permitted allowed :=
  ⟨hpath, fun _ hc ↦ absurd (hchanges ▸ hc) List.not_mem_nil⟩

theorem clean_typePath {r : Request} (h : r.path.Clean) : r.typePath.Clean := by
  have hparent : (r.path.parent?.getD .empty).Clean := by
    unfold Path.parent?
    split
    · exact List.forall_mem_nil _
    · exact fun segment hsegment ↦ h segment ((List.dropLast_sublist _).subset hsegment)
  cases r with
  | create | action | query => exact h
  | read | update | patch | delete => exact hparent

end Request

theorem HandlerKind.exists_of_isGeneric {kind : HandlerKind} (h : kind.isGeneric) :
    ∃ explicit, kind = .generic explicit := by
  cases kind with
  | explicit => cases h
  | generic explicit => exact ⟨explicit, rfl⟩

namespace Handler

variable {h : Handler} {explicit : List String} {allowed : Patch.Kind → Pointer → Prop}
  {path type target : Path} {r : Request} {s : Store}

section Served

variable {id : String} {content : Json} {revision : Option String} {changes : List Patch.Change}
  {q resolved : Query}

theorem genericInstance_single (h : Handler) (type : Path) (hid : PlainSegment id) :
    h.genericInstance (type ++ ⟨[id]⟩) = .ok (type, h.typeCollection type ++ ⟨[id]⟩) := by
  simp only [genericInstance, Path.instanceParts_eq_ok.mpr rfl, ok_bind, Path.child_plain hid]

theorem plan_create (hkind : h.kind = .generic explicit) (hcontent : content.isObject)
    (path : Path) (id : Option String) :
    h.plan (.create path id content) =
      Plan.through (.create (h.typeCollection path) id (Generic.wrap explicit path content))
        fun record ↦ .ok (unwrapped explicit record) := by
  simp only [plan_generic hkind, genericPlan, requireObject, hcontent, if_true]
  rfl

theorem plan_update (hkind : h.kind = .generic explicit) (hcontent : content.isObject)
    (hid : PlainSegment id) (type : Path) (revision : Option String) :
    h.plan (.update (type ++ ⟨[id]⟩) revision content) =
      Plan.through (.update (h.typeCollection type ++ ⟨[id]⟩) revision
        (Generic.wrap explicit type content)) fun record ↦ .ok (unwrapped explicit record) := by
  simp only [plan_generic hkind, genericPlan, requireObject, hcontent, if_true,
    genericInstance_single h type hid]
  rfl

theorem plan_patch (hkind : h.kind = .generic explicit) (hid : PlainSegment id) (type : Path)
    (revision : Option String) (changes : List Patch.Change) :
    h.plan (.patch (type ++ ⟨[id]⟩) revision changes) =
      Plan.through (.patch (h.typeCollection type ++ ⟨[id]⟩) revision
        (changes.map (Generic.moved explicit))) fun record ↦ .ok (unwrapped explicit record) := by
  simp only [plan_generic hkind, genericPlan, genericInstance_single h type hid]
  rfl

theorem plan_delete (hkind : h.kind = .generic explicit) (hid : PlainSegment id) (type : Path)
    (revision : Option String) :
    h.plan (.delete (type ++ ⟨[id]⟩) revision) =
      Plan.through (.delete (h.typeCollection type ++ ⟨[id]⟩) revision)
        fun record ↦ .ok (unwrapped explicit record) := by
  simp only [plan_generic hkind, genericPlan, genericInstance_single h type hid]
  rfl

def readQuery (h : Handler) (explicit : List String) (type : Path) (id : String)
    (fields : List Pointer) : Query :=
  { path := h.resource
    filter := some (.all [Filter.fieldIs idField id, Generic.ofType type])
    fields := fields.map (Generic.moveField explicit) }

theorem plan_read (hkind : h.kind = .generic explicit) (type : Path) (id : String)
    (fields : List Pointer) :
    h.plan (.read (type ++ ⟨[id]⟩) fields) =
      Plan.throughFor .first (.query (h.readQuery explicit type id fields)) fun page ↦
        match page.records with
        | record :: _ => .ok (unwrapped explicit record)
        | [] => .error (objectNotFound id type) := by
  simp only [plan_generic hkind, genericPlan, Path.instanceParts_eq_ok.mpr rfl]
  refine congrArg (Plan.askFor .first _ >>= ·) (funext fun page ↦ ?_)
  cases page with
  | mk records progress => cases records <;> rfl

def typeQuery (h : Handler) (explicit : List String) (type : Path) (resolved : Query) : Query :=
  { resolved with
    path := h.resource
    queryId := none
    filter := some (Generic.restrict explicit type resolved.filter)
    fields := resolved.fields.map (Generic.moveField explicit)
    sortKeys := Generic.moveKeys explicit resolved.sortKeys }

theorem planFor_query (hkind : h.kind = .generic explicit)
    (hq : h.catalog.resolveQuery h.limits q = .ok resolved) (accepts : Consumer) :
    h.planFor accepts (.query q) = Plan.throughFor (accepts.through (unwrapped explicit))
      (.query (h.typeQuery explicit q.path resolved))
      fun page ↦ .ok (page.map (unwrapped explicit)) := by
  simp only [planFor_generic hkind, genericPlan, hq]
  rfl

theorem plan_query (hkind : h.kind = .generic explicit)
    (hq : h.catalog.resolveQuery h.limits q = .ok resolved) :
    h.plan (.query q) = Plan.through (.query (h.typeQuery explicit q.path resolved))
      fun page ↦ .ok (page.map (unwrapped explicit)) :=
  planFor_query hkind hq .all

end Served

section Calls

theorem isObject_of_requireObject {content : Json} {u : Unit}
    (hc : requireObject path content = .ok u) : content.isObject := by
  unfold requireObject at hc
  split at hc
  · assumption
  · cases hc

theorem genericInstance_eq_ok (hp : path.Clean) (hi : h.genericInstance path = .ok (type, target)) :
    ∃ id, path = type ++ ⟨[id]⟩ ∧ target = h.typeCollection type ++ ⟨[id]⟩ := by
  obtain ⟨⟨type', id⟩, hparts, heq⟩ := bind_eq_ok.mp hi
  obtain rfl := Path.instanceParts_eq_ok.mp hparts
  obtain ⟨rfl, rfl⟩ := Prod.mk.inj (Except.ok.inj heq)
  exact ⟨id, rfl, Path.child_plain hp.plain _⟩

theorem deleteAll_calls {P : Request → Prop} {collection : Path}
    (hP : ∀ path, P (.delete path none)) (ids : List String) (count : Nat) :
    (deleteAll collection ids count).Calls P := by
  induction ids generalizing count with
  | nil => trivial
  | cons id ids ih =>
    refine ⟨hP _, fun reply ↦ ?_⟩
    cases reply with
    | ok record => exact ih (count + 1)
    | error fault =>
      change Plan.Calls P (if fault.isNotFound then _ else _)
      split
      · exact ih count
      · trivial

variable {keeps : Path → Json → Prop}

theorem deleteMatching_preserves (collection : Path) (filter : Filter) :
    (deleteMatching collection filter).Calls (Request.Preserves keeps) := by
  refine Plan.calls_bind (Plan.calls_ask trivial) fun page ↦ ?_
  exact Plan.calls_bind (deleteAll_calls (fun path ↦ trivial) _ 0) fun count ↦ trivial

/-- The calls of a generic handler preserve what wrapping comes to and the changes keep. -/
theorem genericPlan_preserves (accepts : Consumer) (hpath : r.path.Clean)
    (hwrap : ∀ content : Json, content.isObject → keeps (h.typeCollection r.typePath)
      (Generic.wrap explicit r.typePath content).withoutEnvelope)
    (hpatch : ∀ d d', keeps (h.typeCollection r.typePath) d →
      Patch.apply (r.changes.map (Generic.moved explicit)) d = .ok d' →
      keeps (h.typeCollection r.typePath) d'.withoutEnvelope) :
    (h.genericPlan explicit accepts r).Calls (Request.Preserves keeps) := by
  cases r with
  | create path id content =>
    refine Plan.calls_lift_bind fun _ hobject ↦ ?_
    refine Plan.calls_bind (Plan.calls_ask ?_) fun _ ↦ trivial
    exact hwrap content (isObject_of_requireObject hobject)
  | read path fields =>
    refine Plan.calls_lift_bind fun _ _ ↦
      Plan.calls_bind (Plan.calls_askFor trivial .first) fun page ↦ ?_
    cases page.records <;> trivial
  | update path revision content =>
    refine Plan.calls_lift_bind fun _ hobject ↦ Plan.calls_lift_bind fun ⟨type, target⟩ hi ↦ ?_
    obtain ⟨id, rfl, rfl⟩ := genericInstance_eq_ok hpath hi
    refine Plan.calls_bind (Plan.calls_ask fun collection id' hsplit ↦ ?_) fun _ ↦ trivial
    obtain ⟨rfl, -⟩ := Path.append_single_inj.mp hsplit
    simp only [Request.typePath, Path.typePath_single] at hwrap
    exact hwrap content (isObject_of_requireObject hobject)
  | patch path revision changes =>
    refine Plan.calls_lift_bind fun ⟨type, target⟩ hi ↦ ?_
    obtain ⟨id, rfl, rfl⟩ := genericInstance_eq_ok hpath hi
    refine Plan.calls_bind (Plan.calls_ask fun collection id' hsplit ↦ ?_) fun _ ↦ trivial
    obtain ⟨rfl, -⟩ := Path.append_single_inj.mp hsplit
    simp only [Request.typePath, Path.typePath_single] at hpatch
    exact hpatch
  | delete path revision =>
    refine Plan.calls_lift_bind fun _ _ ↦ ?_
    exact Plan.calls_bind (Plan.calls_ask trivial) fun _ ↦ trivial
  | action path name content parameters =>
    change Plan.Calls _ (if name = Catalog.commandAction then _ else _)
    split
    · exact Plan.calls_lift_bind fun filter _ ↦ deleteMatching_preserves _ _
    · exact Plan.calls_bind (Plan.calls_ask trivial) fun _ ↦ trivial
  | query q =>
    refine Plan.calls_lift_bind fun _ _ ↦ ?_
    exact Plan.calls_bind (Plan.calls_askFor trivial _) fun _ ↦ trivial

end Calls

end Handler

end RecordService
