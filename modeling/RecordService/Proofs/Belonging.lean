import RecordService.Proofs.ReadBack
import RecordService.Proofs.Separation

namespace RecordService

section Plans

variable {h : Handler} {r : Request} {keeps : Path → Json → Prop}

theorem Handler.explicitPlan_preserves (accepts : Consumer) (hpath : r.path.Clean)
    (hplace : ∀ content, keeps h.resource content) :
    (h.explicitPlan accepts r).Calls (Request.Preserves keeps) := by
  have hsingle : ∀ {path target collection : Path} {id : String}, path.Clean →
      h.explicitInstance path = .ok target → target = collection ++ ⟨[id]⟩ →
      collection = h.resource := by
    intro path target collection id hclean hi htarget
    obtain ⟨_, _, -, -, rfl⟩ := explicitInstance_eq_ok hclean hi
    exact (Path.append_single_inj.mp htarget).1.symm
  cases r with
  | create path id content => exact Plan.calls_ask (hplace _)
  | read path fields => exact Plan.calls_lift_bind fun _ _ ↦ Plan.calls_ask trivial
  | update path revision content =>
    refine Plan.calls_lift_bind fun target hi ↦ Plan.calls_ask fun collection id htarget ↦ ?_
    rw [hsingle hpath hi htarget]
    exact hplace _
  | patch path revision changes =>
    refine Plan.calls_lift_bind fun target hi ↦ Plan.calls_ask fun collection id htarget _ _ _ _ ↦ ?_
    rw [hsingle hpath hi htarget]
    exact hplace _
  | delete path revision => exact Plan.calls_lift_bind fun _ _ ↦ Plan.calls_ask trivial
  | action path name content parameters =>
    change Plan.Calls _ (if name = Catalog.commandAction then _ else _)
    split
    · exact Plan.calls_lift_bind fun filter _ ↦ deleteMatching_preserves _ _
    · exact Plan.calls_ask trivial
  | query q => exact Plan.calls_lift_bind fun _ _ ↦ Plan.calls_askFor trivial accepts

end Plans

namespace Routes

variable {r : Routes} {collection : Path} {content : Json}

/-- Where a content may stand: anything in the collection of an explicit type, what carries the tag
of a generic type in the collection of this. -/
inductive Keeps (r : Routes) (collection : Path) (content : Json) : Prop
  | explicit {type : Path} : (r.sent type).kind = .explicit →
      collection = (r.sent type).resource → Keeps r collection content
  | generic {type : Path} : type.Clean → (r.sent type).kind.isGeneric →
      collection = (r.sent type).typeCollection type → Generic.Tagged type content →
      Keeps r collection content

theorem plan_preserves {request : Request} (hr : request.Guarded) :
    ((r.sent request.typePath).plan request).Calls (Request.Preserves r.Keeps) := by
  cases hkind : (r.sent request.typePath).kind with
  | explicit =>
    rw [Handler.plan_explicit hkind]
    exact Handler.explicitPlan_preserves .all hr.1 fun _ ↦ .explicit hkind rfl
  | generic explicit =>
    have hgeneric : (r.sent request.typePath).kind.isGeneric := by rw [hkind]; rfl
    rw [Handler.plan_generic hkind]
    refine Handler.genericPlan_preserves .all hr.1 (fun content _ ↦ ?_) fun d d' hd happly ↦ ?_
    · exact .generic (Request.clean_typePath hr.1) hgeneric rfl
        (Generic.tagged_wrap explicit _ content).withoutEnvelope
    · cases hd with
      | explicit hkind' hplace => exact .explicit hkind' hplace
      | generic htype hkind' hplace htag =>
        have hpatched := Handler.kept_tagged.patched hr.2 htag happly
        exact .generic htype hkind' hplace hpatched.withoutEnvelope

end Routes

namespace Service

variable {r : Routes} {s : Service} {allowed : Request → Prop}

/-- The services that requests of a kind lead to. The store may come to keep its entries in another
order at any time. -/
inductive Reached (r : Routes) (allowed : Request → Prop) : Service → Prop
  | start (pool : Pool) (mint : Nat → String) : Reached r allowed ⟨r, pool, .empty mint⟩
  | served {s : Service} (context : Context) (request : Request) :
      Reached r allowed s → allowed request → Reached r allowed (s.serve context request).2
  | reordered {s : Service} {entries : List Entry} : entries.Perm s.store.entries →
      Reached r allowed s → Reached r allowed { s with store := { s.store with entries } }

structure Ordered (r : Routes) (s : Service) : Prop where
  used : r.Used s.routes
  keyed : s.store.Keyed
  kept : ∀ e ∈ s.store.entries, r.Keeps e.collection e.content

theorem Ordered.perm (h : s.Ordered r) {entries : List Entry}
    (hperm : entries.Perm s.store.entries) :
    Ordered r { s with store := { s.store with entries } } where
  used := h.used
  keyed := (hperm.map Entry.key).nodup_iff.mpr h.keyed
  kept e he := h.kept e (hperm.mem_iff.mp he)

theorem Reached.ordered (hsent : ∀ r', r.Used r' → ∀ type, r'.handlerFor type = r.sent type)
    (h : s.Reached r Request.Guarded) : s.Ordered r := by
  induction h with
  | start => exact ⟨.fresh, List.nodup_nil, List.forall_mem_nil _⟩
  | @served s context request _ hr ih =>
    cases hrefusing : s.pool.refusing with
    | true =>
      obtain ⟨hroutes, hstore⟩ := after_refused hrefusing context request
      exact ⟨hroutes ▸ ih.used, hstore ▸ ih.keyed, hstore ▸ ih.kept⟩
    | false =>
      obtain ⟨c, -, pool, -, hserve⟩ := serve_eq hrefusing context request
      rw [hserve, hsent _ ih.used]
      obtain ⟨hkeyed, hkept⟩ := Plan.run_keeps
        (I := fun t ↦ t.Keyed ∧ ∀ e ∈ t.entries, r.Keeps e.collection e.content)
        (Routes.plan_preserves hr)
        (fun accepts c call t hcall ht ↦
          have hstep := t.perform_step accepts c call
          ⟨hstep.keyed ht.1, hstep.preserves hcall ht.2⟩)
        (some c) ⟨ih.keyed, ih.kept⟩
      exact ⟨.resolved _ ih.used, hkeyed, hkept⟩
  | reordered hperm _ ih => exact ih.perm hperm

end Service

end RecordService
