import RecordService.Proofs.Events
import RecordService.Proofs.Isolation
import RecordService.Proofs.RoundTrips
import Mathlib.Data.List.Infix

namespace RecordService

namespace Path

variable {p q q' : Path}

theorem eq_empty_of_append_eq (h : p ++ q = q) : p = .empty :=
  segments_injective (List.append_left_eq_self.mp (congrArg segments h))

theorem startsWith_empty (p : Path) : p.startsWith .empty := startsWith_iff.mpr ⟨p, rfl⟩

theorem startsWith_trans (h : p.startsWith q) (h' : q.startsWith q') : p.startsWith q' := by
  obtain ⟨r, rfl⟩ := startsWith_iff.mp h
  obtain ⟨r', rfl⟩ := startsWith_iff.mp h'
  exact startsWith_iff.mpr ⟨r' ++ r, append_assoc q' r' r⟩

theorem startsWith_append_left (outer : Path) (h : p.startsWith q) :
    (outer ++ p).startsWith (outer ++ q) := by
  obtain ⟨r, rfl⟩ := startsWith_iff.mp h
  exact startsWith_iff.mpr ⟨r, (append_assoc outer q r).symm⟩

/-- Of two paths that one path starts with, one starts with the other. -/
theorem startsWith_total (h : p.startsWith q) (h' : p.startsWith q') :
    q.startsWith q' ∨ q'.startsWith q := by
  simp only [startsWith, List.isPrefixOf_iff_prefix] at *
  exact (List.prefix_or_prefix_of_prefix h h').symm

def ends (p : Path) : List Path := p.segments.tails.map Path.mk

theorem mem_ends : q ∈ p.ends ↔ ∃ outer, p = outer ++ q := by
  simp only [ends, List.mem_map, List.mem_tails]
  constructor
  · rintro ⟨_, ⟨outer, h⟩, rfl⟩
    exact ⟨⟨outer⟩, segments_injective h.symm⟩
  · rintro ⟨outer, rfl⟩
    exact ⟨q.segments, ⟨outer.segments, rfl⟩, rfl⟩

end Path

namespace Handler

variable {h : Handler} {type p : Path} {id : String} {key key' : Path × String}

/-- Every request that names an object makes one call, and this can change one entry only. -/
def Addresses (h : Handler) (p : Path) (key : Path × String) : Prop :=
  ∀ r : Request, r.Names p → ∃ (call : Request) (f : call.Reply → Except Fault r.Reply),
    h.plan r = Plan.through call f ∧ ∀ key', call.Touches key' ↔ key' = key

theorem addresses_single (hkind : h.kind.isGeneric) (hid : PlainSegment id) :
    h.Addresses (type ++ ⟨[id]⟩) (h.typeCollection type, id) := by
  have hkey (key' : Path × String) :
      h.typeCollection type ++ ⟨[id]⟩ = key'.1 ++ ⟨[key'.2]⟩ ↔
        key' = (h.typeCollection type, id) := by
    rw [Path.append_single_inj, Prod.ext_iff, eq_comm, @eq_comm _ id]
  obtain ⟨explicit, hkind⟩ := HandlerKind.exists_of_isGeneric hkind
  intro r hr
  cases r with
  | update path revision content =>
    obtain ⟨rfl, hcontent⟩ := hr
    exact ⟨_, _, plan_update hkind hcontent hid type revision, hkey⟩
  | patch path revision changes =>
    obtain rfl := hr
    exact ⟨_, _, plan_patch hkind hid type revision changes, hkey⟩
  | delete path revision =>
    obtain rfl := hr
    exact ⟨_, _, plan_delete hkind hid type revision, hkey⟩
  | create | read | action | query => exact hr.elim

theorem Addresses.unique (h₁ : h.Addresses p key) (h₂ : h.Addresses p key') : key' = key := by
  obtain ⟨call, f, hplan, htouches⟩ := h₁ (.delete p none) rfl
  obtain ⟨call', f', hplan', htouches'⟩ := h₂ (.delete p none) rfl
  obtain ⟨rfl, -⟩ := Plan.call.inj (hplan.symm.trans hplan')
  exact (htouches key').mp ((htouches' key').mpr rfl)

/-- A write to an object leaves every entry but its own as it is. -/
theorem Addresses.get?_after {r : Request} (ha : h.Addresses p key) (hr : r.Names p)
    (hne : key' ≠ key) (c : Option Connection) (s : Store) :
    (h.after c r s).get? key' = s.get? key' := by
  obtain ⟨call, f, hplan, htouches⟩ := ha r hr
  rw [(serve_of_plan hplan c s).2]
  have hstep : s.Step call (s.perform c call).2.entries := s.perform_step .all c call
  have hframe := hstep.frame (fun k ↦ decide (k = key')) fun k hk ↦ by
    rw [(htouches k).mp hk]
    exact decide_eq_false hne.symm
  rw [Store.get?_eq, Store.get?_eq, ← List.head?_filter, ← List.head?_filter, hframe]

end Handler

namespace Routes

variable {r r' : Routes} {type outer p q : Path} {route : Route}

/-- The handler that a type goes to as long as nothing is remembered. -/
def sent (r : Routes) (type : Path) : Handler := r.handler (r.longest type)

theorem mem_handlers_sent (r : Routes) (type : Path) : r.sent type ∈ r.handlers := by
  rw [sent, Routes.handler, handlers]
  cases hfound : (r.longest type).bind r.configured? with
  | none => exact List.mem_cons_self
  | some handler =>
    obtain ⟨q, -, hq⟩ := Option.bind_eq_some_iff.mp hfound
    exact List.mem_cons_of_mem _ (List.mem_map.mpr ⟨_, mem_of_lookup hq, rfl⟩)

theorem Used.handlerFor_eq (h : r.Used r') (hlimit : 1 ≤ r.limit) (hfresh : r.remembered = [])
    (hdistinct : (r.configured.map (·.1)).Nodup) (type : Path) :
    r'.handlerFor type = r.sent type := by
  have hsound := h.sound hlimit hfresh
  have hroute := (hsound.resolve hlimit type).1.unique (r.longest_spec type)
  rw [handlerFor, sent, hroute]
  have hlongest := r.longest_spec type
  cases hr : r.longest type with
  | none => exact hsound.default
  | some q =>
    rw [hr] at hlongest
    obtain ⟨⟨q, handler⟩, hmem, rfl⟩ := List.mem_map.mp hlongest.1
    have hself : r.Sound r := Used.fresh.sound hlimit hfresh
    rw [hsound.handler hdistinct hmem, hself.handler hdistinct hmem]

/-- A path that is cut short behind its route keeps the route. -/
theorem Longest.shorten (h : r.Longest p route) (hp : p.startsWith q)
    (hroute : ∀ t ∈ route, q.startsWith t) : r.Longest q route := by
  cases route with
  | none => exact fun t ht hstarts ↦ h t ht (Path.startsWith_trans hp hstarts)
  | some t =>
    exact ⟨h.1, hroute t rfl, fun t' ht' hstarts ↦
      h.2.2 t' ht' (Path.startsWith_trans hp hstarts)⟩

theorem sent_shortened (hp : p.startsWith q) (hroute : ∀ t ∈ r.longest p, q.startsWith t) :
    r.sent q = r.sent p := by
  have hlongest := (r.longest_spec p).shorten hp hroute
  rw [sent, sent, (r.longest_spec q).unique hlongest]

/-- A type and a longer one that ends with it are kept in the same entries. -/
def Clash (r : Routes) (outer type : Path) : Prop :=
  (r.sent type).kind.isGeneric ∧ (r.sent (outer ++ type)).kind.isGeneric ∧
    (r.sent (outer ++ type)).resource ++ outer = (r.sent type).resource

instance (outer type : Path) : Decidable (r.Clash outer type) :=
  inferInstanceAs (Decidable (_ ∧ _))

def ends (r : Routes) : List Path :=
  .empty :: r.configured.flatMap fun p ↦ p.1.ends

/-- No type clashes with a longer one, of the types that a configured path ends with and the longer
ones that the resource of the type allows for. -/
def Separate (r : Routes) : Prop :=
  ∀ type ∈ r.ends, ∀ outer ∈ (r.sent type).resource.ends, outer ≠ .empty → ¬ r.Clash outer type

instance : Decidable r.Separate := inferInstanceAs (Decidable (∀ type ∈ r.ends, _))

/-- Behind an outer part, some end of a configured path is all that the route of a path needs. -/
theorem exists_end (r : Routes) (outer type : Path) :
    ∃ short ∈ r.ends, type.startsWith short ∧
      ∀ t ∈ r.longest (outer ++ type), (outer ++ short).startsWith t := by
  have hempty : .empty ∈ r.ends := List.mem_cons_self
  have hlongest := r.longest_spec (outer ++ type)
  cases hroute : r.longest (outer ++ type) with
  | none => exact ⟨.empty, hempty, type.startsWith_empty, nofun⟩
  | some q =>
    rw [hroute] at hlongest
    obtain ⟨hq, hstarts, -⟩ := hlongest
    obtain ⟨rest, hrest⟩ := Path.startsWith_iff.mp hstarts
    rcases List.append_eq_append_iff.mp (congrArg Path.segments hrest) with
      ⟨segments, hq', htype⟩ | ⟨segments, houter, -⟩
    · -- The route reaches into the type.
      have hsplit : q = outer ++ ⟨segments⟩ := Path.segments_injective hq'
      refine ⟨⟨segments⟩, ?_, ?_, ?_⟩
      · obtain ⟨entry, hentry, rfl⟩ := List.mem_map.mp hq
        exact List.mem_cons_of_mem _
          (List.mem_flatMap.mpr ⟨entry, hentry, Path.mem_ends.mpr ⟨outer, hsplit⟩⟩)
      · exact Path.startsWith_iff.mpr ⟨rest, Path.segments_injective htype⟩
      · rintro _ ⟨⟩
        rw [← hsplit]
        exact q.startsWith_self
    · refine ⟨.empty, hempty, type.startsWith_empty, ?_⟩
      rintro _ ⟨⟩
      have hsplit : outer = q ++ ⟨segments⟩ := Path.segments_injective houter
      exact Path.startsWith_iff.mpr ⟨⟨segments⟩ ++ .empty, by rw [hsplit, Path.append_assoc]⟩

theorem Clash.exists_end (h : r.Clash outer type) : ∃ short ∈ r.ends, r.Clash outer short := by
  obtain ⟨a, ha, hstarts, hroute⟩ := r.exists_end .empty type
  obtain ⟨b, hb, hstarts', hroute'⟩ := r.exists_end outer type
  -- The longer of the two ends does for both routes.
  have hshort : ∀ short, type.startsWith short → short.startsWith a → short.startsWith b →
      r.Clash outer short := by
    intro short hshort hsa hsb
    have hsent : r.sent short = r.sent type :=
      sent_shortened hshort fun t ht ↦ Path.startsWith_trans hsa (hroute t ht)
    have hsent' : r.sent (outer ++ short) = r.sent (outer ++ type) :=
      sent_shortened (Path.startsWith_append_left outer hshort) fun t ht ↦
        Path.startsWith_trans (Path.startsWith_append_left outer hsb) (hroute' t ht)
    rw [Clash, hsent, hsent']
    exact h
  rcases Path.startsWith_total hstarts hstarts' with hab | hba
  · exact ⟨a, ha, hshort a hstarts a.startsWith_self hab⟩
  · exact ⟨b, hb, hshort b hstarts' hba b.startsWith_self⟩

theorem Separate.not_clash (h : r.Separate) (hne : outer ≠ .empty) : ¬ r.Clash outer type := by
  intro hclash
  obtain ⟨short, hshort, hclash⟩ := hclash.exists_end
  exact h short hshort outer (Path.mem_ends.mpr ⟨_, hclash.2.2.symm⟩) hne hclash

theorem Separate.eq_of_typeCollection {type' : Path} (h : r.Separate)
    (hkind : (r.sent type).kind.isGeneric) (hkind' : (r.sent type').kind.isGeneric)
    (heq : (r.sent type).typeCollection type = (r.sent type').typeCollection type') :
    type = type' := by
  have hlonger : ∀ {type type' : Path} (outer : Path), (r.sent type).kind.isGeneric →
      (r.sent type').kind.isGeneric → type' = outer ++ type →
      (r.sent type).resource = (r.sent type').resource ++ outer → type = type' := by
    rintro type _ outer hkind hkind' rfl hresource
    by_cases hne : outer = .empty
    · rw [hne]
      rfl
    · exact absurd ⟨hkind, hkind', hresource.symm⟩ (h.not_clash hne)
  rcases List.append_eq_append_iff.mp (congrArg Path.segments heq) with
    ⟨outer, hresource, htype⟩ | ⟨outer, hresource, htype⟩
  · exact (hlonger ⟨outer⟩ hkind' hkind (Path.segments_injective htype)
      (Path.segments_injective hresource)).symm
  · exact hlonger ⟨outer⟩ hkind hkind' (Path.segments_injective htype)
      (Path.segments_injective hresource)

/-- Different objects of generic types are kept in different entries, and what is written to one of
them leaves the entry of the other as it is. -/
def KeepsApart (r : Routes) : Prop :=
  ∀ r₁ r₂, r.Used r₁ → r.Used r₂ → ∀ type₁ id₁ type₂ id₂,
    (type₁ ++ ⟨[id₁]⟩ : Path).Clean → (type₂ ++ ⟨[id₂]⟩ : Path).Clean →
    type₁ ++ ⟨[id₁]⟩ ≠ type₂ ++ ⟨[id₂]⟩ →
    (r₁.handlerFor type₁).kind.isGeneric → (r₂.handlerFor type₂).kind.isGeneric →
    ∀ key₁ key₂, (r₁.handlerFor type₁).Addresses (type₁ ++ ⟨[id₁]⟩) key₁ →
      (r₂.handlerFor type₂).Addresses (type₂ ++ ⟨[id₂]⟩) key₂ →
      key₁ ≠ key₂ ∧ ∀ write : Request, write.Names (type₁ ++ ⟨[id₁]⟩) → ∀ c s,
        ((r₁.handlerFor type₁).after c write s).get? key₂ = s.get? key₂

theorem Separate.keepsApart (h : r.Separate)
    (hsent : ∀ r', r.Used r' → ∀ type, r'.handlerFor type = r.sent type) : r.KeepsApart := by
  intro r₁ r₂ hused₁ hused₂ type₁ id₁ type₂ id₂ hclean₁ hclean₂ hne hkind₁ hkind₂ key₁ key₂ hkey₁
    hkey₂
  have hkeys : key₁ ≠ key₂ := by
    rintro rfl
    have h₁ := (Handler.addresses_single hkind₁ hclean₁.plain).unique hkey₁
    have h₂ := (Handler.addresses_single hkind₂ hclean₂.plain).unique hkey₂
    obtain ⟨hcollection, rfl⟩ := Prod.mk.inj (h₁.symm.trans h₂)
    rw [hsent r₁ hused₁] at hkind₁ hcollection
    rw [hsent r₂ hused₂] at hkind₂ hcollection
    exact hne (by rw [h.eq_of_typeCollection hkind₁ hkind₂ hcollection])
  exact ⟨hkeys, fun write hwrite c s ↦ hkey₁.get?_after hwrite hkeys.symm c s⟩

/-- Of two types that clash the first objects are kept in one entry. -/
theorem KeepsApart.not_clash (h : r.KeepsApart) (hsent : ∀ type, r.handlerFor type = r.sent type)
    (houter : outer.Clean) (htype : type.Clean) (hne : outer ≠ .empty) : ¬ r.Clash outer type := by
  rintro ⟨hkind, hkind', hresource⟩
  have hplain : PlainSegment "1" := by decide
  have hpaths : type ++ ⟨["1"]⟩ ≠ outer ++ type ++ ⟨["1"]⟩ := fun hsame ↦
    hne (Path.eq_empty_of_append_eq (Path.append_single_inj.mp hsame).1.symm)
  have hcollection :
      (r.handlerFor type).typeCollection type =
        (r.handlerFor (outer ++ type)).typeCollection (outer ++ type) := by
    rw [hsent, hsent, Handler.typeCollection, Handler.typeCollection, ← hresource,
      Path.append_assoc]
  rw [← hsent] at hkind hkind'
  have hkeys := (h r r .fresh .fresh type "1" (outer ++ type) "1" (htype.single hplain)
    ((houter.append htype).single hplain) hpaths hkind hkind' _ _
    (Handler.addresses_single hkind hplain) (Handler.addresses_single hkind' hplain)).1
  exact hkeys (congrArg (·, "1") hcollection)

end Routes

namespace MappingDocument

variable {d : MappingDocument} {limits : Limits} {limit : Nat} {types : TypeSections}

theorem clean_typeOfKey (key : String) : (typeOfKey key).Clean := by
  unfold typeOfKey
  split
  · exact Path.clean_ofText _
  · exact Path.clean_ofText key

theorem clean_mapping {m : TypeMapping} (hm : m ∈ defaultEntry types :: mappings types) :
    m.type.Clean ∧ m.resource.Clean := by
  rcases List.mem_cons.mp hm with rfl | hm
  · exact ⟨List.forall_mem_nil _, Path.clean_ofText _⟩
  · rcases List.mem_append.mp hm with hm | hm
    · obtain ⟨entry, -, hentry⟩ := List.mem_filterMap.mp hm
      obtain ⟨resource, -, rfl⟩ := Option.map_eq_some_iff.mp hentry
      exact ⟨clean_typeOfKey entry.1, Path.clean_ofText resource⟩
    · obtain ⟨entry, -, rfl⟩ := List.mem_map.mp hm
      exact ⟨clean_typeOfKey entry.1, clean_typeOfKey entry.1⟩

theorem clean_of_mem_ends {type : Path} (h : type ∈ (d.routes limits limit types).ends) :
    type.Clean := by
  rcases List.mem_cons.mp h with rfl | h
  · exact List.forall_mem_nil _
  · obtain ⟨entry, hentry, hends⟩ := List.mem_flatMap.mp h
    obtain ⟨m, hm, rfl⟩ := List.mem_map.mp hentry
    obtain ⟨outer, houter⟩ := Path.mem_ends.mp hends
    have hclean : m.type.Clean := (clean_mapping (List.mem_cons_of_mem _ hm)).1
    exact (houter ▸ hclean : (outer ++ type).Clean).right

theorem clean_resource_sent (type : Path) :
    ((d.routes limits limit types).sent type).resource.Clean := by
  obtain ⟨m, hm, hsent⟩ := mem_handlers_routes.mp (Routes.mem_handlers_sent _ type)
  rw [hsent]
  exact (clean_mapping hm).2

theorem handlerFor_routes (h : Accepted limits d types) (hlimit : 1 ≤ limit) {r' : Routes}
    (hused : (d.routes limits limit types).Used r') (type : Path) :
    r'.handlerFor type = (d.routes limits limit types).sent type :=
  hused.handlerFor_eq hlimit rfl (map_routes ▸ h.distinct) type

/-- An object of a generic type is kept in one entry. Different objects are kept apart just if no
type of the document clashes with a longer one. -/
theorem kept_apart_iff_separate (hvalid : d.validate limits = .ok ()) (hlimit : 1 ≤ limit) :
    ∃ r, Routes.ofDocument limits limit d = .ok r ∧
      (∀ r', r.Used r' → ∀ type id, (type ++ ⟨[id]⟩ : Path).Clean →
        (r'.handlerFor type).kind.isGeneric → ∀ key,
          (r'.handlerFor type).Addresses (type ++ ⟨[id]⟩) key ↔
            key = ((r'.handlerFor type).typeCollection type, id)) ∧
      (r.KeepsApart ↔ r.Separate) := by
  obtain ⟨types, haccepted⟩ := accepted_of_validate hvalid
  refine ⟨_, haccepted.ofDocument_eq hvalid hlimit, ?_, ?_, ?_⟩
  · intro r' _ type id hclean hkind key
    exact ⟨(Handler.addresses_single hkind hclean.plain).unique,
      fun h ↦ h ▸ Handler.addresses_single hkind hclean.plain⟩
  · intro hapart type htype outer houter hne hclash
    have hclean : type.Clean := clean_of_mem_ends htype
    have houter : outer.Clean := by
      obtain ⟨inner, hinner⟩ := Path.mem_ends.mp houter
      exact (hinner ▸ clean_resource_sent type : (inner ++ outer).Clean).right
    exact hapart.not_clash (handlerFor_routes haccepted hlimit .fresh) houter hclean hne hclash
  · intro hseparate
    exact hseparate.keepsApart fun r' hused ↦ handlerFor_routes haccepted hlimit hused

theorem sample_kept_apart :
    let d : MappingDocument :=
      { queries := some { generic := some [], explicit := some [] }
        types := some
          { generic := [("config", { resource := some "generic/config" }),
              ("managed/*", { resource := some "generic/managed" })]
            explicit := [("internal/user", {})] } }
    d.validate {} = .ok () ∧ 1 ≤ 2 ∧ ∃ r, Routes.ofDocument {} 2 d = .ok r ∧
      r.Separate ∧ r.KeepsApart := by
  intro d
  have hvalid : d.validate {} = .ok () := by rfl
  have hlimit : 1 ≤ 2 := by decide
  obtain ⟨types, haccepted⟩ := accepted_of_validate hvalid
  obtain ⟨r, hr, -, hapart⟩ := kept_apart_iff_separate hvalid hlimit
  have hseparate : r.Separate := by
    obtain rfl := Except.ok.inj ((haccepted.ofDocument_eq hvalid hlimit).symm.trans hr)
    obtain rfl := Except.ok.inj haccepted.sections
    decide +kernel
  exact ⟨hvalid, hlimit, r, hr, hseparate, hapart.mpr hseparate⟩

/-- Below the default collection another type can be told to keep its objects where an unmapped one
keeps its own. -/
theorem entry_shared :
    ¬ ∀ (d : MappingDocument) (r : Routes), d.validate {} = .ok () →
      Routes.ofDocument {} 1 d = .ok r → ∀ type₁ id₁ type₂ id₂,
        (type₁ ++ ⟨[id₁]⟩ : Path).Clean → (type₂ ++ ⟨[id₂]⟩ : Path).Clean →
        type₁ ++ ⟨[id₁]⟩ ≠ type₂ ++ ⟨[id₂]⟩ →
        (r.handlerFor type₁).kind.isGeneric → (r.handlerFor type₂).kind.isGeneric →
        ∀ key₁ key₂, (r.handlerFor type₁).Addresses (type₁ ++ ⟨[id₁]⟩) key₁ →
          (r.handlerFor type₂).Addresses (type₂ ++ ⟨[id₂]⟩) key₂ → key₁ ≠ key₂ := by
  intro hall
  let d : MappingDocument :=
    { queries := some { generic := some [] }
      types := some { generic := [("user", { resource := some "default/x" })] } }
  have hvalid : d.validate {} = .ok () := by rfl
  obtain ⟨types, haccepted⟩ := accepted_of_validate hvalid
  obtain rfl := Except.ok.inj haccepted.sections
  have hr := haccepted.ofDocument_eq hvalid (Nat.le_refl 1)
  have hplain : PlainSegment "1" := by decide
  exact hall d _ hvalid hr ⟨["user"]⟩ "1" ⟨["x", "user"]⟩ "1" (by decide) (by decide) (by decide)
    (by decide +kernel) (by decide +kernel) _ _
    (Handler.addresses_single (by decide +kernel) hplain)
    (Handler.addresses_single (by decide +kernel) hplain) (by decide +kernel)

end MappingDocument

end RecordService
