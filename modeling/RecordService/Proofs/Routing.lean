import RecordService.Proofs.Documents
import RecordService.Routes

namespace RecordService

namespace Routes

variable {r r' : Routes} {type : Path} {route route' : Route}

def Longest (r : Routes) (type : Path) (route : Route) : Prop :=
  match route with
  | some q => q ∈ r.configured.map (·.1) ∧ type.startsWith q ∧
    ∀ q' ∈ r.configured.map (·.1), type.startsWith q' → q'.segments.length ≤ q.segments.length
  | none => ∀ q ∈ r.configured.map (·.1), ¬ type.startsWith q

theorem Longest.unique (h : r.Longest type route) (h' : r.Longest type route') : route = route' := by
  cases route with
  | none =>
    cases route' with
    | none => rfl
    | some q' => exact absurd h'.2.1 (h q' h'.1)
  | some q =>
    cases route' with
    | none => exact absurd h.2.1 (h' q h.1)
    | some q' =>
      have hle := h.2.2 q' h'.1 h'.2.1
      have hge := h'.2.2 q h.1 h.2.1
      rw [Path.eq_of_startsWith h.2.1 h'.2.1 (by omega)]

theorem Longest.perm (h : r.Longest type route) (hperm : r'.configured.Perm r.configured) :
    r'.Longest type route := by
  have hmem (q : Path) : q ∈ r'.configured.map (·.1) ↔ q ∈ r.configured.map (·.1) :=
    (hperm.map _).mem_iff
  cases route with
  | none => exact fun q hq ↦ h q ((hmem q).mp hq)
  | some q => exact ⟨(hmem q).mpr h.1, h.2.1, fun q' hq' ↦ h.2.2 q' ((hmem q').mp hq')⟩

theorem longer_eq (a b : Path) : longer a b = a ∨ longer a b = b := by
  unfold longer
  split
  · exact .inr rfl
  · exact .inl rfl

theorem le_longer (a b : Path) : a.segments.length ≤ (longer a b).segments.length ∧
    b.segments.length ≤ (longer a b).segments.length := by
  unfold longer
  split <;> omega

theorem foldl_longer (b : Path) (ps : List Path) :
    ps.foldl longer b ∈ b :: ps ∧
      ∀ p ∈ b :: ps, p.segments.length ≤ (ps.foldl longer b).segments.length := by
  induction ps generalizing b with
  | nil => exact ⟨List.mem_singleton_self b, fun p hp ↦ (List.mem_singleton.mp hp) ▸ Nat.le_refl _⟩
  | cons p ps ih =>
    obtain ⟨hmem, hle⟩ := ih (longer b p)
    obtain ⟨hbest, hrest⟩ := List.forall_mem_cons.mp hle
    obtain ⟨hb, hp⟩ := le_longer b p
    rw [List.foldl_cons]
    refine ⟨?_, ?_⟩
    · rcases List.mem_cons.mp hmem with hsame | hlater
      · rw [hsame]
        rcases longer_eq b p with h | h <;> simp [h]
      · exact List.mem_cons_of_mem b (List.mem_cons_of_mem p hlater)
    · rw [List.forall_mem_cons, List.forall_mem_cons]
      exact ⟨Nat.le_trans hb hbest, Nat.le_trans hp hbest, hrest⟩

theorem longest_spec (r : Routes) (type : Path) : r.Longest type (r.longest type) := by
  unfold longest
  have hmem (q : Path) : q ∈ (r.configured.map (·.1)).filter type.startsWith ↔
      q ∈ r.configured.map (·.1) ∧ type.startsWith q := List.mem_filter
  cases hcovering : (r.configured.map (·.1)).filter type.startsWith with
  | nil =>
    intro q hq hstarts
    exact List.not_mem_nil (hcovering ▸ (hmem q).mpr ⟨hq, hstarts⟩)
  | cons b ps =>
    rw [List.foldl_cons, List.foldl_hom some (fun _ _ ↦ rfl)]
    obtain ⟨hbest, hle⟩ := foldl_longer b ps
    rw [← hcovering] at hbest hle
    obtain ⟨hconfigured, hstarts⟩ := (hmem _).mp hbest
    exact ⟨hconfigured, hstarts, fun q hq hstarts ↦ hle q ((hmem q).mpr ⟨hq, hstarts⟩)⟩

theorem mem_of_lookup {β : Type} {ps : List (Path × β)} {b : β}
    (h : (ps.find? fun p ↦ p.1 = type).map (·.2) = some b) : (type, b) ∈ ps := by
  obtain ⟨p, hp, rfl⟩ := Option.map_eq_some_iff.mp h
  have hsame : p.1 = type := by simpa using List.find?_some hp
  exact hsame ▸ List.mem_of_find?_eq_some hp

theorem isSome_configured? : (r.configured? type).isSome ↔ type ∈ r.configured.map (·.1) := by
  simp [configured?]

theorem longest_of_configured (h : (r.configured? type).isSome) : r.Longest type (some type) :=
  ⟨isSome_configured?.mp h, type.startsWith_self, fun _ _ hstarts ↦
    Path.length_le_of_startsWith hstarts⟩

theorem configured?_of_mem {h : Handler} (hdistinct : (r.configured.map (·.1)).Nodup)
    (hmem : (type, h) ∈ r.configured) : r.configured? type = some h := by
  have htype : type ∈ r.configured.map (·.1) := List.mem_map.mpr ⟨_, hmem, rfl⟩
  obtain ⟨h', hfound⟩ := Option.isSome_iff_exists.mp (isSome_configured?.mpr htype)
  have hsame : (type, h') = (type, h) :=
    List.inj_on_of_nodup_map hdistinct (mem_of_lookup hfound) hmem rfl
  rw [hfound, (Prod.mk.inj hsame).2]

def handlerFor (r : Routes) (type : Path) : Handler := r.handler (r.resolve type).1

/-- The routes `r` after any requests. What is remembered may be dropped and the order of the
configured paths may change at any time. -/
inductive Used (r : Routes) : Routes → Prop
  | fresh : Used r r
  | resolved {r' : Routes} (type : Path) : Used r r' → Used r (r'.resolve type).2
  | cleared {r' : Routes} : Used r r' → Used r { r' with remembered := [] }
  | reordered {r' : Routes} {configured : List (Path × Handler)} :
    configured.Perm r'.configured → Used r r' → Used r { r' with configured }

/-- Routes that answer like `r`: whatever is remembered is the answer that `r` works out. -/
structure Sound (r r' : Routes) : Prop where
  configured : r'.configured.Perm r.configured
  default : r'.default = r.default
  limit : r'.limit = r.limit
  bounded : r'.remembered.length ≤ r.limit
  remembered : ∀ known ∈ r'.remembered, r.Longest known.1 known.2

theorem Sound.remember (h : r.Sound r') (hlimit : 1 ≤ r.limit) (hlongest : r.Longest type route) :
    r.Sound (r'.remember type route) := by
  have hlength := h.bounded
  unfold Routes.remember
  split
  · refine ⟨h.configured, h.default, h.limit, hlimit, ?_⟩
    exact List.forall_mem_cons.mpr ⟨hlongest, List.forall_mem_nil _⟩
  · rename_i hroom
    rw [h.limit] at hroom
    refine ⟨h.configured, h.default, h.limit, ?_, List.forall_mem_cons.mpr ⟨hlongest, h.remembered⟩⟩
    rw [List.length_cons]
    omega

theorem Sound.resolve (h : r.Sound r') (hlimit : 1 ≤ r.limit) (type : Path) :
    r.Longest type (r'.resolve type).1 ∧ r.Sound (r'.resolve type).2 := by
  unfold Routes.resolve
  split
  · rename_i hconfigured
    exact ⟨(longest_of_configured hconfigured).perm h.configured.symm, h⟩
  · split
    · rename_i route hknown
      exact ⟨h.remembered _ (mem_of_lookup hknown), h⟩
    -- The scan sees the configured paths in whatever order they stand; only one is the longest.
    · have hlongest := (r'.longest_spec type).perm h.configured.symm
      exact ⟨hlongest, h.remember hlimit hlongest⟩

theorem Used.sound (h : r.Used r') (hlimit : 1 ≤ r.limit) (hfresh : r.remembered = []) :
    r.Sound r' := by
  induction h with
  | fresh =>
    refine ⟨.refl _, rfl, rfl, ?_, ?_⟩
    · rw [hfresh]
      exact Nat.zero_le _
    · rw [hfresh]
      exact List.forall_mem_nil _
  | resolved type _ ih => exact (ih.resolve hlimit type).2
  | cleared _ ih =>
    exact ⟨ih.configured, ih.default, ih.limit, Nat.zero_le _, List.forall_mem_nil _⟩
  | reordered hperm _ ih =>
    exact ⟨hperm.trans ih.configured, ih.default, ih.limit, ih.bounded, ih.remembered⟩

theorem Sound.handler (h : r.Sound r') (hdistinct : (r.configured.map (·.1)).Nodup)
    {handler : Handler} (hmem : (type, handler) ∈ r.configured) :
    r'.handler (some type) = handler := by
  have hdistinct' : (r'.configured.map (·.1)).Nodup := (h.configured.map _).nodup_iff.mpr hdistinct
  have hfound := configured?_of_mem hdistinct' (h.configured.mem_iff.mpr hmem)
  simp [Routes.handler, hfound]

end Routes

namespace MappingDocument

variable {d : MappingDocument} {limits : Limits} {limit : Nat} {types : TypeSections}

def queriesFor (d : MappingDocument) (isGeneric : Bool) : Dict Definition :=
  (d.queries.bind fun sections ↦ if isGeneric then sections.generic else sections.explicit).getD []

def handlerOf (limits : Limits) (d : MappingDocument) (m : TypeMapping) : Handler where
  kind := if m.isGeneric then .generic (Generic.explicitFields m.settings.explicitProperties)
    else .explicit
  resource := m.resource
  catalog := ⟨d.queriesFor m.isGeneric, d.commands⟩
  limits

def defaultHandler (limits : Limits) (d : MappingDocument) (types : TypeSections) : Handler :=
  let settings := types.default.getD {}
  d.handlerOf limits
    ⟨.empty, true, .ofText (settings.resource.getD defaultResource), settings⟩

theorem genericQueries_eq_ok {queries : Dict Definition} (h : d.genericQueries = .ok queries) :
    d.queriesFor true = queries := by
  unfold genericQueries at h
  split at h
  · cases h
  · cases h
  · rename_i queries' hqueries
    cases h
    simp [queriesFor, hqueries]

theorem explicitQueries_eq_ok {queries : Dict Definition} (h : d.explicitQueries = .ok queries) :
    d.queriesFor false = queries := by
  unfold explicitQueries at h
  split at h
  · cases h
  · cases h
  · rename_i queries' hqueries
    cases h
    simp [queriesFor, hqueries]

theorem explicit_ne_nil {m : TypeMapping} (hm : m ∈ mappings types) (hkind : m.isGeneric = false) :
    types.explicit ≠ [] := by
  intro hempty
  rw [mappings, hempty, List.map_nil, List.append_nil] at hm
  obtain ⟨entry, -, hentry⟩ := List.mem_filterMap.mp hm
  obtain ⟨resource, -, rfl⟩ := Option.map_eq_some_iff.mp hentry
  cases hkind

def routes (limits : Limits) (limit : Nat) (d : MappingDocument) (types : TypeSections) : Routes where
  configured := (mappings types).map fun m ↦ (m.type, d.handlerOf limits m)
  default := d.defaultHandler limits types
  limit

theorem Accepted.ofDocument_eq (h : Accepted limits d types) (hvalid : d.validate limits = .ok ())
    (hlimit : 1 ≤ limit) : Routes.ofDocument limits limit d = .ok (d.routes limits limit types) := by
  obtain ⟨queries, hqueries⟩ := h.generic
  have hgeneric := genericQueries_eq_ok hqueries
  have hdefault : d.defaultMapping = .ok
      (.ofText ((types.default.getD {}).resource.getD defaultResource), types.default.getD {}) := by
    rw [defaultMapping, h.sections]
    rfl
  unfold Routes.ofDocument
  rw [hvalid, ok_bind, hqueries, ok_bind, hdefault, ok_bind]
  dsimp only
  rw [h.mapped, ok_bind, mapM_eq_ok (g := fun m ↦ (m.type, d.handlerOf limits m)), ok_bind]
  · simp [routes, defaultHandler, handlerOf, hgeneric, Nat.max_eq_right hlimit]
  · intro m hm
    cases hkind : m.isGeneric with
    | true => simp [handlerOf, hkind, hgeneric]
    | false =>
      obtain ⟨queries', hqueries'⟩ := h.explicit (explicit_ne_nil hm hkind)
      rw [if_neg Bool.false_ne_true, hqueries']
      simp [Except.map, handlerOf, hkind, explicitQueries_eq_ok hqueries']

theorem map_routes :
    (d.routes limits limit types).configured.map (·.1) = (mappings types).map (·.type) := by
  simp [routes]

def Best (types : TypeSections) (p : Path) (m : TypeMapping) : Prop :=
  m ∈ mappings types ∧ p.startsWith m.type ∧
    ∀ m' ∈ mappings types, p.startsWith m'.type → m'.type.segments.length ≤ m.type.segments.length

theorem Best.unique {p : Path} {m m' : TypeMapping} (h : Best types p m) (h' : Best types p m')
    (hdistinct : ((mappings types).map (·.type)).Nodup) : m' = m := by
  have hle := h.2.2 m' h'.1 h'.2.1
  have hge := h'.2.2 m h.1 h.2.1
  have htype : m'.type = m.type := Path.eq_of_startsWith h'.2.1 h.2.1 (by omega)
  exact List.inj_on_of_nodup_map hdistinct h'.1 h.1 htype

section Routed

variable {r' : Routes} {p : Path} {m : TypeMapping} {route : Route}

end Routed

end MappingDocument

end RecordService
