import RecordService.Proofs.TypedSearch

namespace RecordService

namespace Request

def IsWrite : Request → Prop
  | .create .. | .update .. | .patch .. | .delete .. => True
  | _ => False

def IsLook : Request → Prop
  | .read .. | .query _ => True
  | _ => False

/-- Changes or takes away the object that a path names. An update without an object is refused
before its record is looked for. -/
def Names (path : Path) : Request → Prop
  | .update path' _ content => path' = path ∧ content.isObject
  | .patch path' .. | .delete path' _ => path' = path
  | _ => False

end Request

namespace Patch

theorem Change.not_notFound_write (c : Change) (d : Json) : ¬ NotFound (c.write d).2 := by
  unfold Change.write
  cases c.kind with
  | add =>
    simp only
    split
    · exact not_notFound_orBadRequest _
    · exact not_notFound_orBadRequest _
  | replace => exact not_notFound_orBadRequest _
  | remove => exact not_notFound_ok _
  | increment =>
    simp only
    split
    · exact not_notFound_orBadRequest _
    · exact mt notFound_error.mp Bool.false_ne_true

theorem not_notFound_write (changes : List Change) (d : Json) : ¬ NotFound (write changes d).2 := by
  induction changes generalizing d with
  | nil => exact not_notFound_ok ()
  | cons c cs ih =>
    have hc := c.not_notFound_write d
    rw [write]
    split
    · exact ih _
    · rename_i hwrite
      rwa [hwrite] at hc

end Patch

namespace Store

variable {s : Store} {collection : Path} {id : String}

theorem not_notFound_checkRevision (revision : Option String) (e : Entry) :
    ¬ NotFound (checkRevision revision e) := by
  cases revision with
  | none => exact not_notFound_ok ()
  | some revision =>
    change ¬ NotFound (if _ then _ else _)
    split <;> simp [Fault.preconditionFailed, Fault.isNotFound, Fault.status]

theorem notFound_withEntry {revision : Option String}
    {go : Entry → Store → Except Fault Record × Store} (hgo : ∀ e, ¬ NotFound (go e s).1) :
    NotFound (s.withEntry (collection ++ ⟨[id]⟩) revision go).1 ↔ s.find? collection id = none := by
  rw [withEntry, entryAt_single]
  cases s.find? collection id with
  | none => simp [objectNotFound, Fault.isNotFound, Fault.status]
  | some e =>
    cases hrev : checkRevision revision e with
    | error fault =>
      have hchecked := not_notFound_checkRevision revision e
      simpa [hrev] using hchecked
    | ok => simpa [hrev] using hgo e

end Store

namespace Handler

variable {h : Handler} {explicit : List String} {c : Option Connection} {s t : Store}
  {type : Path} {id : String} {r look : Request}

section Frame

theorem write_calls (hpath : r.path.Clean) (hr : r.IsWrite) :
    (h.genericPlan explicit .all r).Calls fun call ↦
      ∀ key, call.Touches key → key.1 = h.typeCollection r.typePath := by
  have hsingle : ∀ {path type target : Path}, path.Clean →
      h.genericInstance path = .ok (type, target) → ∀ key : Path × String,
      target = key.1 ++ ⟨[key.2]⟩ → key.1 = h.typeCollection (path.parent?.getD .empty) := by
    intro path type target hpath hi key hkey
    obtain ⟨id, rfl, rfl⟩ := genericInstance_eq_ok hpath hi
    rw [Path.typePath_single]
    exact (Path.append_single_inj.mp hkey).1.symm
  cases r with
  | create path id content =>
    refine Plan.calls_lift_bind fun _ _ ↦ ?_
    exact Plan.calls_bind (Plan.calls_ask fun _ hkey ↦ hkey) fun _ ↦ trivial
  | update path revision content =>
    refine Plan.calls_lift_bind fun _ _ ↦ Plan.calls_lift_bind fun ⟨type, target⟩ hi ↦ ?_
    exact Plan.calls_bind (Plan.calls_ask (hsingle hpath hi)) fun _ ↦ trivial
  | patch path revision changes =>
    refine Plan.calls_lift_bind fun ⟨type, target⟩ hi ↦ ?_
    exact Plan.calls_bind (Plan.calls_ask (hsingle hpath hi)) fun _ ↦ trivial
  | delete path revision =>
    refine Plan.calls_lift_bind fun ⟨type, target⟩ hi ↦ ?_
    exact Plan.calls_bind (Plan.calls_ask (hsingle hpath hi)) fun _ ↦ trivial
  | read | action | query => exact hr.elim

theorem inCollection_after (hkind : h.kind = .generic explicit) (hpath : r.path.Clean)
    (hr : r.IsWrite) (hne : type ≠ r.typePath) (c : Option Connection) (s : Store) :
    (h.after c r s).inCollection (h.typeCollection type) =
      s.inCollection (h.typeCollection type) := by
  have hcalls : (h.plan r).Calls fun call ↦
      ∀ key, call.Touches key → key.1 = h.typeCollection r.typePath := by
    rw [plan_generic hkind]
    exact write_calls hpath hr
  have hother : ∀ key : Path × String, key.1 = h.typeCollection r.typePath →
      decide (key.1 = h.typeCollection type) = false := by
    intro key hkey
    rw [decide_eq_false_iff_not, hkey]
    exact fun heq ↦ hne (Path.append_left_cancel heq).symm
  let keeps (t : Store) : Prop := t.entries.filter (·.collection = h.typeCollection type) =
    s.entries.filter (·.collection = h.typeCollection type)
  have hkept : keeps (h.after c r s) := by
    refine Plan.run_keeps (I := keeps) hcalls (fun accepts c call t hcall ht ↦ ?_) c rfl
    exact ((t.perform_step accepts c call).frame (fun key ↦ decide (key.1 = h.typeCollection type))
      fun key hkey ↦ hother key (hcall key hkey)).trans ht
  exact congrArg Store.byId hkept

end Frame

/-- The objects of a type are all that a look at them sees. -/
theorem answer_congr (hkind : h.kind = .generic explicit)
    (hs : h.Typed Generic.Tagged s.entries ∧ s.Keyed)
    (ht : h.Typed Generic.Tagged t.entries ∧ t.Keyed) (hlook : look.IsLook)
    (hpath : look.path.Clean)
    (heq : t.inCollection (h.typeCollection look.typePath) =
      s.inCollection (h.typeCollection look.typePath)) :
    h.answer c look t = h.answer c look s := by
  cases look with
  | read path fields =>
    cases hparts : path.instanceParts with
    | error fault =>
      simp only [answer, plan_generic hkind, genericPlan, hparts, Plan.run_lift_bind]
    | ok parts =>
      obtain rfl := Path.instanceParts_eq_ok.mp hparts
      rw [Request.typePath, Path.typePath_single] at heq
      rw [answer_read ht.1 ht.2 hkind hpath.left, answer_read hs.1 hs.2 hkind hpath.left, heq]
  | query q =>
    cases hq : h.catalog.resolveQuery h.limits q with
    | error fault => simp only [answer, plan_generic hkind, genericPlan, hq, Plan.run_lift_bind]
    | ok resolved =>
      rw [answer_query ht.1 ht.2 hkind hpath hq, answer_query hs.1 hs.2 hkind hpath hq]
      rw [Request.typePath] at heq
      rw [heq]
  | create | update | patch | delete | action => exact hlook.elim

section Addressing

theorem notFound_through {call : Request} {f : call.Reply → r.Reply}
    (hc : Store.checkConnection c = .ok ())
    (hp : h.plan r = Plan.through call fun reply ↦ .ok (f reply)) (s : Store) :
    NotFound (h.answer c r s) ↔ NotFound (s.counted.run .all call).1 := by
  rw [(serve_of_plan hp c s).1, notFound_bind fun _ ↦ not_notFound_ok _, Store.perform_of_open hc]

theorem notFound_iff (hkind : h.kind = .generic explicit) (hc : Store.checkConnection c = .ok ())
    (hid : PlainSegment id) (hr : r.Names (type ++ ⟨[id]⟩)) :
    NotFound (h.answer c r s) ↔ s.find? (h.typeCollection type) id = none := by
  cases r with
  | update path revision content =>
    obtain ⟨rfl, hcontent⟩ := hr
    rw [notFound_through hc (plan_update hkind hcontent hid type revision) s]
    exact Store.notFound_withEntry (s := s.counted) fun e ↦ not_notFound_ok _
  | patch path revision changes =>
    obtain rfl := hr
    rw [notFound_through hc (plan_patch hkind hid type revision changes) s]
    refine Store.notFound_withEntry (s := s.counted) fun e ↦ ?_
    have hwritten := Patch.not_notFound_write (changes.map (Generic.moved explicit)) e.content
    split
    · exact not_notFound_ok _
    · rename_i hwrite
      rw [hwrite] at hwritten
      simpa using hwritten
  | delete path revision =>
    obtain rfl := hr
    rw [notFound_through hc (plan_delete hkind hid type revision) s]
    exact Store.notFound_withEntry (s := s.counted) fun e ↦ not_notFound_ok _
  | create | read | action | query => exact hr.elim

theorem read_eq (hkind : h.kind = .generic explicit) (hc : Store.checkConnection c = .ok ())
    (hs : h.Typed Generic.Tagged s.entries) (hkeyed : s.Keyed) (htype : type.Clean) :
    h.answer c (.read (type ++ ⟨[id]⟩) []) s =
      match s.find? (h.typeCollection type) id with
      | some e => .ok (unwrapped explicit e.record)
      | none => .error (objectNotFound id type) := by
  rw [answer_read hs hkeyed hkind htype, hc, ok_bind, hkeyed.inCollection_id]
  cases s.find? (h.typeCollection type) id <;> rfl

/-- Reading an object finds the record that other requests on it name; what is written on one type
makes no difference to a look at another. -/
theorem reads_agree_and_types_apart (hkind : h.kind = .generic explicit)
    (hs : h.Reaches Request.Guarded s) (hc : Store.checkConnection c = .ok ()) :
    (∀ type id, (type ++ ⟨[id]⟩ : Path).Clean →
      (h.answer c (.read (type ++ ⟨[id]⟩) []) s =
        match s.find? (h.typeCollection type) id with
        | some e => .ok (unwrapped explicit e.record)
        | none => .error (objectNotFound id type)) ∧
      ∀ r : Request, r.Names (type ++ ⟨[id]⟩) →
        (NotFound (h.answer c r s) ↔ s.find? (h.typeCollection type) id = none)) ∧
    ∀ (write look : Request) (c₁ c₂ : Option Connection), write.Guarded → write.IsWrite →
      look.path.Clean → look.IsLook → look.typePath ≠ write.typePath →
        h.answer c₂ look (h.after c₁ write s) = h.answer c₂ look s := by
  have htagged : ∀ {t}, h.Reaches Request.Guarded t →
      h.Typed Generic.Tagged t.entries ∧ t.Keyed :=
    fun ht ↦ ⟨ht.tagged hkind, ht.reached.keyed⟩
  refine ⟨fun type id hpath ↦ ⟨?_, fun r hr ↦ ?_⟩, ?_⟩
  · exact read_eq hkind hc (htagged hs).1 (htagged hs).2 hpath.left
  · exact notFound_iff hkind hc hpath.plain hr
  · intro write look c₁ c₂ hguarded hwrite hpath hlook hne
    refine answer_congr hkind (htagged hs) (htagged (.serve c₁ write hs hguarded)) hlook hpath ?_
    exact inCollection_after hkind hguarded.1 hwrite hne c₁ s

theorem users_apart_from_roles :
    let h : Handler := ⟨.generic (Generic.explicitFields []), ⟨["managedobjects"]⟩, {}, {}⟩
    let c : Option Connection := some ⟨"local-1", false⟩
    let user : Request := .create ⟨["managed", "user"]⟩ (some "1") (.obj [("n", .int 1)])
    let role : Request := .create ⟨["managed", "role"]⟩ (some "1") (.obj [])
    let look : Request := .read ⟨["managed", "user", "1"]⟩ []
    let s := h.after c user (.empty fun _ ↦ "")
    h.Reaches Request.Guarded s ∧ Store.checkConnection c = .ok () ∧
      h.answer c look (h.after c role s) = h.answer c look s := by
  intro h c user role look s
  have huser : user.Guarded := ⟨by decide, fun _ hc ↦ absurd hc List.not_mem_nil⟩
  have hrole : role.Guarded := ⟨by decide, fun _ hc ↦ absurd hc List.not_mem_nil⟩
  have hs : h.Reaches Request.Guarded s := .serve c user (.empty _) huser
  refine ⟨hs, rfl, ?_⟩
  exact (reads_agree_and_types_apart (c := c) rfl hs rfl).2 role look c c hrole trivial (by decide)
    trivial (by decide)

end Addressing

end Handler

end RecordService
